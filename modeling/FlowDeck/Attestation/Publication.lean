import FlowDeck.Attestation.Persistence

/-! What publishing an attestation leaves in its directory, and what loading it gives back. -/

namespace Publication

open Paths Checked ManagedDirectory Statements Persistence

open CheckDiscovery (member? jsonText?)

theorem call_bind_eq_ok {α : Type} {os : Os} {call : Syscall} {message : String}
    {next : Unit → Except String α} {a : α} :
    (os.call call message >>= next) = .ok a ↔ os.refuses call = none ∧ next () = .ok a := by
  unfold Os.call
  cases os.refuses call with
  | none => exact ⟨fun h => ⟨rfl, h⟩, fun h => h.2⟩
  | some reason => simp [bind_eq_ok]

/-- A directory that is opened keeps what it held, and one that is created holds nothing. -/
theorem openOrCreate_content {α : Type} (os : Os) (d : Descent) (empty : α) (slot : Slot α) :
    (openOrCreate os d empty slot).1.content empty = slot.content empty := by
  cases slot with
  | absent =>
    simp only [openOrCreate]
    split
    · rfl
    · rfl
    · rfl
  | refused refusal =>
    cases refusal with
    | loop => rfl
    | notDirectory => rfl
  | directory content => rfl

theorem openOrCreate_ok {α : Type} {os : Os} {d : Descent} {empty content : α} {slot : Slot α}
    (h : (openOrCreate os d empty slot).2 = .ok content) :
    (openOrCreate os d empty slot).1 = .directory content ∧ content = slot.content empty := by
  cases slot with
  | absent =>
    simp only [openOrCreate] at h ⊢
    split at h
    · cases h
    · cases h
    · obtain ⟨-, h⟩ := call_bind_eq_ok.mp h
      obtain ⟨-, h⟩ := call_bind_eq_ok.mp h
      obtain rfl := pure_eq_ok.mp h
      exact ⟨rfl, rfl⟩
  | refused refusal =>
    cases refusal with
    | loop => cases h
    | notDirectory => cases h
  | directory held =>
    obtain ⟨-, h⟩ := call_bind_eq_ok.mp h
    obtain ⟨-, h⟩ := call_bind_eq_ok.mp h
    obtain rfl := pure_eq_ok.mp h
    exact ⟨rfl, rfl⟩

/-- Opening the managed directory adds no file and takes none away. -/
theorem entry_ensure (os : Os) (disk : Disk) : (ensure os disk).1.entry = disk.entry := by
  unfold ensure
  cases openRoot os disk with
  | error e => rfl
  | ok =>
    have hcontent := openOrCreate_content os (fdxDescent disk) (.absent : Slot Directory) disk.fdx
    simp only
    split
    · next fdx e hfdx =>
        rw [hfdx] at hcontent
        simp only [Disk.entry, hcontent]
    · next fdx inner hfdx =>
        have hresult : (openOrCreate os (fdxDescent disk) .absent disk.fdx).2 = .ok inner := by
          rw [hfdx]
        simp only [Disk.entry]
        rw [← (openOrCreate_ok hresult).2]
        exact openOrCreate_content os (attestationsDescent disk) noFiles inner

theorem ensure_ok {os : Os} {disk : Disk} {dir : Directory} (h : (ensure os disk).2 = .ok dir) :
    ensure os disk = (disk.withDirectory disk.entry, .ok disk.entry) := by
  unfold ensure at h ⊢
  cases hroot : openRoot os disk with
  | error e =>
    rw [hroot] at h
    cases h
  | ok =>
    simp only [hroot] at h ⊢
    cases hfdx : openOrCreate os (fdxDescent disk) .absent disk.fdx with
    | mk fdx result =>
      rw [hfdx] at h
      cases result with
      | error e => cases h
      | ok inner =>
        have hresult : (openOrCreate os (fdxDescent disk) .absent disk.fdx).2 = .ok inner := by
          rw [hfdx]
        obtain ⟨hslot, hdir⟩ := openOrCreate_ok h
        have hinner := (openOrCreate_ok hresult).2
        have hentry : dir = disk.entry := by
          rw [hdir, hinner]
          rfl
        have hsecond : (openOrCreate os (attestationsDescent disk) noFiles inner).2 = .ok dir := h
        simp only [hslot, hsecond, hentry, Disk.withDirectory]

theorem ensure_quiet (os : Os) (disk : Disk) (dir : Directory) :
    ensure os.quiet (disk.withDirectory dir) = (disk.withDirectory dir, .ok dir) := rfl

/-- What `validate_identifier` leaves: a name of a file, which is not hidden. -/
structure Identifier (id : String) : Prop where
  nonempty : id ≠ ""
  slash : '/' ∉ id.toList
  visible : id.toList.head? ≠ some '.'

theorem identifier_of_validate {os : Os} {id : String} (h : validateIdentifier os id = .ok ()) :
    Identifier id := by
  have hall := refuseIf_eq_ok.mp h
  simp only [not_or] at hall
  exact ⟨hall.1, hall.2.1, hall.2.2.2.2.2⟩

theorem head_temp (os : Os) (p : Publication) (attempt : Nat) :
    (tempName os p attempt).toList.head? = some '.' := by
  simp [tempName]

variable {p : Publication} {name : String}

theorem head_target (h : Identifier p.runId) : p.target.toList.head? ≠ some '.' := by
  have hnonempty : p.runId.toList ≠ [] := fun hnil => h.nonempty (String.toList_eq_nil_iff.mp hnil)
  obtain ⟨first, rest, hlist⟩ := List.exists_cons_of_ne_nil hnonempty
  have hvisible := h.visible
  rw [hlist] at hvisible
  simpa [Publication.target, targetFilename, hlist] using hvisible

theorem allocateTemp_head {os : Os} {dir : Directory} {attempts : List Nat} {temp : String}
    (h : allocateTemp os p dir attempts = .ok temp) : temp.toList.head? = some '.' := by
  induction attempts with
  | nil => cases h
  | cons attempt rest ih =>
    simp only [allocateTemp] at h
    split at h
    · cases h
    · split_ifs at h
      · exact ih h
      · obtain rfl := Except.ok.inj h
        exact head_temp os p attempt

theorem unlink_other (os : Os) (dir : Directory) {name other : String} (h : other ≠ name) :
    unlink os dir name other = dir other := by
  unfold unlink
  split_ifs
  · rfl
  · exact Function.update_of_ne h _ _

/-- The call gets as far as the link. -/
structure Links (os : Os) (p : Publication) (dir : Directory) : Prop where
  allocates : ∃ temp, allocateTemp os p dir (List.range 5) = .ok temp
  writes : os.refuses .writeTemp = none ∧ os.refuses .syncTemp = none
  links : os.refuses .link = none

/-- What is left under the target name, and whose result it is. -/
inductive Published (os : Os) (p : Publication) (dir : Directory) :
    Directory × Except String (String × String) → Prop
  | failed (after : Directory) (e : String) (links : ¬Links os p dir)
      (same : after p.target = dir p.target) : Published os p dir (after, .error e)
  | taken (after : Directory) (links : Links os p dir) (found : dir p.target ≠ none)
      (same : after p.target = dir p.target) :
      Published os p dir (after, compareExisting os p after)
  | linked (after : Directory) (links : Links os p dir) (free : dir p.target = none)
      (stored : after p.target = some (.file p.bytes)) :
      Published os p dir (after, confirm os p after)

theorem published (os : Os) {p : Publication} (h : Identifier p.runId) (dir : Directory) :
    Published os p dir (publish os p dir) := by
  unfold publish
  cases hallocate : allocateTemp os p dir (List.range 5) with
  | error e =>
    refine .failed dir e ?_ rfl
    intro hlinks
    obtain ⟨temp, htemp⟩ := hlinks.allocates
    rw [hallocate] at htemp
    cases htemp
  | ok temp =>
    have hother : p.target ≠ temp := by
      intro heq
      exact head_target h (heq ▸ allocateTemp_head hallocate)
    have hkept : ∀ entry, Function.update dir temp (some (.file entry)) p.target = dir p.target :=
      fun entry => Function.update_of_ne hother _ _
    simp only
    cases hwrite : (os.refuses .writeTemp).or (os.refuses .syncTemp) with
    | some reason =>
      refine .failed _ _ ?_ ?_
      · intro hlinks
        rw [hlinks.writes.1, hlinks.writes.2] at hwrite
        cases hwrite
      · rw [unlink_other os _ hother, hkept]
    | none =>
      have hwrites := Option.or_eq_none_iff.mp hwrite
      simp only [linkTarget]
      cases hlink : os.refuses .link with
      | some reason =>
        refine .failed _ _ ?_ ?_
        · intro hlinks
          rw [hlinks.links] at hlink
          cases hlink
        · rw [unlink_other os _ hother, hkept]
      | none =>
        have hlinks : Links os p dir := ⟨⟨temp, hallocate⟩, hwrites, hlink⟩
        simp only [hkept]
        cases hfound : dir p.target with
        | some entry =>
          refine .taken _ hlinks (by rw [hfound]; exact Option.some_ne_none entry) ?_
          rw [unlink_other os _ hother, hkept]
        | none =>
          refine .linked _ hlinks hfound ?_
          rw [unlink_other os _ hother, Function.update_self, Function.update_self]

/-- The file can be opened and read, and is not too large. -/
structure Readable (os : Os) (bytes : Bytes) : Prop where
  opens : os.refuses .openFile = none
  stats : os.refuses .statFile = none
  bounded : bytes.length ≤ maxAttestationArtifactBytes
  reads : os.refuses .readFile = none

theorem openEntry_eq_ok {os : Os} {dir : Directory} {entry : Entry} :
    openEntry os dir name = .ok entry ↔
      os.refuses .openFile = none ∧ dir name = some entry ∧ entry ≠ .symlink := by
  unfold openEntry
  cases os.refuses .openFile with
  | some reason => simp
  | none =>
    cases dir name with
    | none => simp
    | some held =>
      cases held with
      | symlink =>
        constructor
        · intro h
          cases h
        · rintro ⟨-, hheld, hentry⟩
          exact absurd (Option.some.inj hheld).symm hentry
      | file bytes =>
        constructor
        · intro h
          cases h
          simp
        · rintro ⟨-, hheld, -⟩
          cases hheld
          rfl
      | directory =>
        constructor
        · intro h
          cases h
          simp
        · rintro ⟨-, hheld, -⟩
          cases hheld
          rfl

theorem readBoundedFile_eq_ok {os : Os} {entry : Entry} {bytes : Bytes} :
    readBoundedFile os maxAttestationArtifactBytes entry = .ok bytes ↔
      entry = .file bytes ∧ os.refuses .statFile = none ∧
        bytes.length ≤ maxAttestationArtifactBytes ∧ os.refuses .readFile = none := by
  cases entry with
  | symlink => simp [readBoundedFile]
  | directory => simp [readBoundedFile]
  | file held =>
    rw [readBoundedFile, call_bind_eq_ok]
    constructor
    · rintro ⟨hstat, h⟩
      obtain ⟨_, hbound, h⟩ := bind_eq_ok.mp h
      obtain ⟨hread, h⟩ := call_bind_eq_ok.mp h
      obtain rfl := pure_eq_ok.mp h
      exact ⟨rfl, hstat, not_lt.mp (refuseIf_eq_ok.mp hbound), hread⟩
    · rintro ⟨hheld, hstat, hbound, hread⟩
      cases hheld
      refine ⟨hstat, bind_eq_ok.mpr ⟨(), refuseIf_eq_ok.mpr (not_lt.mpr hbound), ?_⟩⟩
      exact call_bind_eq_ok.mpr ⟨hread, rfl⟩

theorem read_iff {os : Os} {dir : Directory} {bytes : Bytes} :
    (∃ entry, openEntry os dir name = .ok entry ∧
      readBoundedFile os maxAttestationArtifactBytes entry = .ok bytes) ↔
      dir name = some (.file bytes) ∧ Readable os bytes := by
  constructor
  · rintro ⟨entry, hopen, hread⟩
    obtain ⟨hopens, hheld, -⟩ := openEntry_eq_ok.mp hopen
    obtain ⟨rfl, hstat, hbound, hreads⟩ := readBoundedFile_eq_ok.mp hread
    exact ⟨hheld, hopens, hstat, hbound, hreads⟩
  · rintro ⟨hheld, hreadable⟩
    refine ⟨.file bytes, openEntry_eq_ok.mpr ⟨hreadable.opens, hheld, by simp⟩, ?_⟩
    exact readBoundedFile_eq_ok.mpr ⟨rfl, hreadable.stats, hreadable.bounded, hreadable.reads⟩

theorem confirm_eq_ok {os : Os} {dir : Directory} {result : String × String} :
    confirm os p dir = .ok result ↔
      (dir p.target = some (.file p.bytes) ∧ Readable os p.bytes) ∧ result = (p.path, p.sha256) := by
  rw [← read_iff]
  unfold confirm
  constructor
  · intro h
    split at h
    · cases h
    · cases h
    · next entry hopen =>
        split at h
        · cases h
        · next bytes hread =>
            split_ifs at h with hsame
            rw [not_not] at hsame
            rw [hsame] at hread
            exact ⟨⟨entry, hopen, hread⟩, (Except.ok.inj h).symm⟩
  · rintro ⟨⟨entry, hopen, hread⟩, rfl⟩
    simp [hopen, hread]

theorem compareExisting_eq_ok {os : Os} {dir : Directory} {result : String × String} :
    compareExisting os p dir = .ok result ↔
      (dir p.target = some (.file p.bytes) ∧ Readable os p.bytes) ∧ result = (p.path, p.sha256) := by
  rw [← read_iff]
  unfold compareExisting
  constructor
  · intro h
    split at h
    · cases h
    · cases h
    · next entry hopen =>
        split at h
        · cases h
        · next bytes hread =>
            split_ifs at h with hsame
            rw [hsame] at hread
            exact ⟨⟨entry, hopen, hread⟩, (Except.ok.inj h).symm⟩
  · rintro ⟨⟨entry, hopen, hread⟩, rfl⟩
    simp [hopen, hread]

/-- The JSON library reads back what it wrote, and digests are texts of hexadecimal digits. -/
structure Lawful (c : Codec) : Prop where
  length : ∀ bytes, (c.sha256 bytes).toList.length = 64
  hex : ∀ bytes, ∀ ch ∈ (c.sha256 bytes).toList, ch.isDigit = true ∨ 'a' ≤ ch ∧ ch ≤ 'f'
  probes : ∀ document bytes, c.canonicalizeToVec document = .ok bytes → ∃ value,
    c.parseValue bytes = .ok value ∧
      (member? "predicateType" value).bind jsonText? = some document.declaredType
  parsesV1 : ∀ statement bytes, c.canonicalizeToVec (.v1 statement) = .ok bytes →
    c.parseV1 bytes = .ok statement
  parsesV2 : ∀ statement bytes, c.canonicalizeToVec (.v2 statement) = .ok bytes →
    c.parseV2 bytes = .ok statement

theorem Lawful.mark {c : Codec} (hc : Lawful c) (bytes : Bytes) {mark : Char}
    (hmark : mark.isDigit = false ∧ ¬('a' ≤ mark ∧ mark ≤ 'f')) :
    mark ∉ (c.sha256 bytes).toList := by
  intro hmem
  rcases hc.hex bytes mark hmem with hdigit | hletter
  · rw [hmark.1] at hdigit
    cases hdigit
  · exact hmark.2 hletter

theorem toLower_hex {ch : Char} (h : ch.isDigit = true ∨ 'a' ≤ ch ∧ ch ≤ 'f') :
    ch.toLower = ch := by
  have hnotUpper : ¬(65 ≤ ch.val ∧ ch.val ≤ 90) := by
    rcases h with hdigit | ⟨hletter, -⟩
    · simp only [Char.isDigit, Bool.and_eq_true, decide_eq_true_eq] at hdigit
      have hle := UInt32.le_iff_toNat_le.mp hdigit.2
      intro hupper
      have hge := UInt32.le_iff_toNat_le.mp hupper.1
      simp at hle hge
      omega
    · have hge := UInt32.le_iff_toNat_le.mp (Char.le_def.mp hletter)
      intro hupper
      have hle := UInt32.le_iff_toNat_le.mp hupper.2
      simp at hle hge
      omega
  exact dif_neg hnotUpper

theorem Lawful.lower {c : Codec} (hc : Lawful c) (bytes : Bytes) :
    lower (c.sha256 bytes) = c.sha256 bytes := by
  have hsame : ∀ ch ∈ (c.sha256 bytes).toList, ch.toLower = id ch :=
    fun ch hch => toLower_hex (hc.hex bytes ch hch)
  rw [Persistence.lower, List.map_congr_left hsame, List.map_id, String.ofList_toList]

theorem Lawful.extracts {c : Codec} (hc : Lawful c) (bytes : Bytes) :
    (c.sha256 bytes).toList.length = 64 ∧ (c.sha256 bytes).toList.all isHexDigit = true ∧
      String.ofList ((c.sha256 bytes).toList.map Char.toLower) = c.sha256 bytes := by
  refine ⟨hc.length bytes, ?_, hc.lower bytes⟩
  apply List.all_eq_true.mpr
  intro ch hch
  rcases hc.hex bytes ch hch with hdigit | ⟨hleft, hright⟩
  · simp [isHexDigit, hdigit]
  · simp [isHexDigit, hleft, hright]

theorem isName_fdx : IsName ".fdx" := by
  refine ⟨?_, ?_, ?_, ?_⟩ <;> decide

theorem isName_attestations : IsName "attestations" := by
  refine ⟨?_, ?_, ?_, ?_⟩ <;> decide

section Paths

variable {c : Codec} {runId : String} {bytes : Bytes}

theorem isName_target (hc : Lawful c) (h : Identifier runId) :
    IsName (targetFilename runId (c.sha256 bytes)) := by
  have hslash : '/' ∉ (c.sha256 bytes).toList := hc.mark bytes (by decide)
  have hlong : 64 < (targetFilename runId (c.sha256 bytes)).toList.length := by
    have hlength := hc.length bytes
    simp only [targetFilename, String.toList_append, List.length_append]
    simp only [hlength]
    simp
  refine ⟨?_, ?_, ?_, ?_⟩
  · simp [targetFilename, h.slash, hslash]
  · rintro heq
    rw [heq] at hlong
    simp at hlong
  · rintro heq
    rw [heq] at hlong
    simp at hlong
  · rintro heq
    rw [heq] at hlong
    simp at hlong

/-- The managed directory is `.fdx/attestations` below the root. -/
theorem attestationsDir_eq (disk : Disk) : isAbsolute (attestationsDir disk) = true ∧
    ∃ before, attestationsDir disk = before ++ "/" ++ ".fdx" ++ "/" ++ "attestations" := by
  have hroot : disk.canonicalRoot ≠ "" := by
    intro hempty
    have habsolute := disk.absolute
    rw [hempty] at habsolute
    cases habsolute
  refine ⟨isAbsolute_join
    (isAbsolute_join disk.absolute (not_isAbsolute isName_fdx.1)) (not_isAbsolute isName_attestations.1), ?_⟩
  obtain ⟨before, hjoin, -⟩ := join_eq hroot (not_isAbsolute isName_fdx.1)
  refine ⟨before, ?_⟩
  rw [attestationsDir, fdxDir, hjoin]
  exact join_slash before isName_fdx isName_attestations.1

/-- A path that names a file of the managed directory, as the loader takes it apart. -/
structure Located (disk : Disk) (path name : String) : Prop where
  resolves : resolvePath disk path = path
  managed : isManagedPathSyntax disk path = true
  inside : isInAttestationsDir disk path = true
  named : fileName? path = some name

theorem located (disk : Disk) {name : String} (hname : IsName name) :
    Located disk (join (attestationsDir disk) name) name := by
  obtain ⟨habsolute, before, hdir⟩ := attestationsDir_eq disk
  have hpath : join (attestationsDir disk) name =
      before ++ "/" ++ ".fdx" ++ "/" ++ "attestations" ++ "/" ++ name := by
    rw [hdir]
    exact join_slash _ isName_attestations hname.1
  have hpathAbsolute := isAbsolute_join habsolute (not_isAbsolute hname.1)
  refine ⟨?_, ?_, ?_, ?_⟩
  · unfold resolvePath
    rw [if_pos hpathAbsolute]
  · have hmem : .normal ".fdx" ∈ components (join (attestationsDir disk) name) := by
      rw [hpath]
      apply List.mem_append_right
      rw [segments_slash _ hname.1, segments_slash _ isName_attestations.1,
        segments_slash _ isName_fdx.1]
      refine List.mem_filterMap.mpr ⟨".fdx", ?_, component?_name isName_fdx⟩
      simp
    have hany : (components (join (attestationsDir disk) name)).any (· = .normal ".fdx") = true :=
      List.any_eq_true.mpr ⟨_, hmem, decide_eq_true rfl⟩
    simp [isManagedPathSyntax, hany]
  · unfold isInAttestationsDir
    rw [hpath, parent?_slash _ isName_attestations hname]
    simp [hdir, samePath]
  · rw [hpath]
    exact fileName?_slash _ hname

theorem fileStem?_target (disk : Disk) (hc : Lawful c) (h : Identifier runId) :
    fileStem? (join (attestationsDir disk) (targetFilename runId (c.sha256 bytes))) =
      some (runId ++ "." ++ c.sha256 bytes) := by
  have hname : IsName (targetFilename runId (c.sha256 bytes)) := isName_target hc h
  have hnamed := (located disk hname).named
  have htext : targetFilename runId (c.sha256 bytes) =
      runId ++ "." ++ c.sha256 bytes ++ "." ++ "json" := by
    apply String.toList_inj.mp
    simp [targetFilename]
  rw [htext] at hnamed
  have hstem : runId ++ "." ++ c.sha256 bytes ≠ "" := by
    simp
  have hjson : '.' ∉ "json".toList := by
    decide
  rw [htext]
  exact fileStem?_of_fileName? hnamed hstem hjson

/-- The stem of the file name is the run id and the digest exactly when the id holds no dot. -/
theorem split?_stem (hc : Lawful c) : SeparatedPair.split? '.' (runId ++ "." ++ c.sha256 bytes).toList =
    if '.' ∈ runId.toList then none else some (runId.toList, (c.sha256 bytes).toList) := by
  have htext : (runId ++ "." ++ c.sha256 bytes).toList =
      runId.toList ++ '.' :: (c.sha256 bytes).toList := by
    simp
  rw [htext]
  split_ifs with hdot
  · exact SeparatedPair.split?_join_eq_none (.inl hdot)
  · exact SeparatedPair.split?_join hdot (hc.mark bytes (by decide))

end Paths

theorem strict_eq_ok {σ : Type} {parsed : Except String σ} {schema : σ → Nat} {version : Nat}
    {wrap : σ → AttestationDocument} {document : AttestationDocument} (onParse : String → String)
    (onSchema : σ → String) :
    (do
      let statement ← parsed.mapError onParse
      refuseIf (schema statement ≠ version) (onSchema statement)
      return wrap statement) = .ok document ↔
      ∃ statement, parsed = .ok statement ∧ schema statement = version ∧
        wrap statement = document := by
  cases parsed with
  | error e => simp [Except.mapError, bind_eq_ok]
  | ok statement =>
    by_cases hschema : schema statement = version
    · simp [Except.mapError, bind_eq_ok, refuseIf, hschema]
    · simp [Except.mapError, bind_eq_ok, refuseIf, hschema]

/-- The document parsed is the one that was written exactly when it declares its own version. -/
theorem parseDocument_iff {c : Codec} (hc : Lawful c) (os : Os) (path : String)
    {document : AttestationDocument} {bytes : Bytes}
    (h : c.canonicalizeToVec document = .ok bytes) :
    parseDocument c os path bytes = .ok document ↔ document.isTyped = true := by
  obtain ⟨value, hvalue, hprobe⟩ := hc.probes document bytes h
  have hapart : fdxVerificationPredicateV2Type ≠ fdxVerificationPredicateV1Type := by
    decide
  have hstart : (c.parseValue bytes).mapError (fun e =>
      "failed to parse in-toto attestation JSON from " ++ os.debug path ++ ": " ++ e) =
      .ok value := by
    rw [hvalue]
    rfl
  rw [parseDocument, hstart, ok_bind, hprobe]
  cases document with
  | v1 statement =>
    have hparse := hc.parsesV1 statement bytes h
    by_cases htype : statement.predicateType = fdxVerificationPredicateV1Type
    · simp only [AttestationDocument.declaredType, AttestationDocument.isTyped, htype, if_true,
        strict_eq_ok, hparse]
      simp
    · by_cases hother : statement.predicateType = fdxVerificationPredicateV2Type
      · simp only [AttestationDocument.declaredType, AttestationDocument.isTyped, hother, hapart,
          if_true, if_false, strict_eq_ok]
        simp
      · simp only [AttestationDocument.declaredType, AttestationDocument.isTyped, htype, hother,
          if_false]
        simp
  | v2 statement =>
    have hparse := hc.parsesV2 statement bytes h
    by_cases htype : statement.predicateType = fdxVerificationPredicateV2Type
    · simp only [AttestationDocument.declaredType, AttestationDocument.isTyped, htype, hapart,
        if_true, if_false, strict_eq_ok, hparse]
      simp
    · by_cases hother : statement.predicateType = fdxVerificationPredicateV1Type
      · simp only [AttestationDocument.declaredType, AttestationDocument.isTyped, hother, hapart.symm,
          if_true, strict_eq_ok]
        simp
      · simp only [AttestationDocument.declaredType, AttestationDocument.isTyped, htype, hother,
          if_false]
        simp

section Loading

variable {c : Codec} (os : Os) {disk : Disk} {dir : Directory} {runId path : String} {bytes : Bytes}

theorem extractFilenameDigest_eq (hc : Lawful c)
    (hstem : fileStem? path = some (runId ++ "." ++ c.sha256 bytes)) :
    extractFilenameDigest path = if '.' ∈ runId.toList then none else some (c.sha256 bytes) := by
  obtain ⟨hlength, hhex, hlower⟩ := hc.extracts bytes
  unfold extractFilenameDigest
  rw [hstem, Option.bind_some, split?_stem hc]
  split_ifs with hdot
  · rfl
  · simp only [hlength, hhex, hlower]
    rfl

theorem classify_eq (hc : Lawful c) {name : String}
    (hlocated : Located (disk.withDirectory dir) path name)
    (hstem : fileStem? path = some (runId ++ "." ++ c.sha256 bytes)) (expected : Option String) :
    classifyAttestationSource os.quiet (disk.withDirectory dir) path expected =
      (disk.withDirectory dir, if '.' ∈ runId.toList then
        .error ("Managed attestation file " ++ os.debug path ++
          " has invalid content-address filename format (<run_id>.<sha256>.json)")
      else .ok (.managed path (c.sha256 bytes))) := by
  unfold classifyAttestationSource
  simp only [hlocated.resolves, hlocated.managed, Bool.or_self, if_true, ensure_quiet,
    classifyManaged, hlocated.inside, extractFilenameDigest_eq hc hstem]
  split_ifs with hdot
  · rfl
  · rfl

theorem quiet_readable (hbounded : bytes.length ≤ maxAttestationArtifactBytes) :
    Readable os.quiet bytes :=
  ⟨rfl, rfl, hbounded, rfl⟩

theorem readManaged_eq {name : String} (hlocated : Located (disk.withDirectory dir) path name)
    (hstored : dir name = some (.file bytes))
    (hbounded : bytes.length ≤ maxAttestationArtifactBytes) :
    readManaged os.quiet (disk.withDirectory dir) path = (disk.withDirectory dir, .ok bytes) := by
  obtain ⟨entry, hopen, hread⟩ := read_iff.mpr ⟨hstored, quiet_readable os hbounded⟩
  simp only [readManaged, ensure_quiet, hlocated.named, hopen, hread]

variable {disk' : Disk} {expected : Option String}

theorem loadBytes_of_source {c : Codec} {os : Os} {disk disk'' : Disk} {path : String}
    {source : AttestationSource} {bytes : Bytes}
    (hclassify : classifyAttestationSource os disk path expected = (disk', .ok source))
    (hread : readSource os disk' source = (disk'', .ok bytes))
    (hdigests : checkDigests c os source expected bytes = .ok ()) :
    loadAttestationBytesFromPath c os disk path expected =
      (disk'', .ok (source.path, bytes, c.sha256 bytes)) := by
  unfold loadAttestationBytesFromPath
  rw [hclassify]
  dsimp only
  rw [hread]
  dsimp only
  rw [hdigests]
  rfl

theorem load_of_refused {c : Codec} {os : Os} {disk : Disk} {path e : String}
    (hclassify : classifyAttestationSource os disk path expected = (disk', .error e)) :
    loadAttestationDocumentFromPath c os disk path expected = (disk', .error e) := by
  have hbytes : loadAttestationBytesFromPath c os disk path expected = (disk', .error e) := by
    unfold loadAttestationBytesFromPath
    rw [hclassify]
  unfold loadAttestationDocumentFromPath
  rw [hbytes]

theorem load_of_bytes {c : Codec} {os : Os} {disk : Disk} {path path' sha256 : String}
    {bytes : Bytes} (hbytes : loadAttestationBytesFromPath c os disk path expected =
      (disk', .ok (path', bytes, sha256))) {loaded : LoadedAttestation} :
    (loadAttestationDocumentFromPath c os disk path expected).2 = .ok loaded ↔
      ∃ document, parseDocument c os path' bytes = .ok document ∧
        checkRunId os path' document = .ok () ∧ ⟨document, bytes, sha256⟩ = loaded := by
  unfold loadAttestationDocumentFromPath
  rw [hbytes]
  simp only [bind_eq_ok, pure_eq_ok]
  apply exists_congr
  intro document
  apply and_congr_right
  intro _
  constructor
  · rintro ⟨⟨⟩, h⟩
    exact h
  · exact fun h => ⟨(), h⟩

/-- The bytes of a published file, which are read when its name can be taken apart. -/
theorem loadBytes_eq (hc : Lawful c) {name : String}
    (hlocated : Located (disk.withDirectory dir) path name)
    (hstem : fileStem? path = some (runId ++ "." ++ c.sha256 bytes))
    (hstored : dir name = some (.file bytes))
    (hbounded : bytes.length ≤ maxAttestationArtifactBytes) {expected : Option String}
    (hexpected : expected = none ∨ expected = some (c.sha256 bytes)) (hdot : '.' ∉ runId.toList) :
    loadAttestationBytesFromPath c os.quiet (disk.withDirectory dir) path expected =
      (disk.withDirectory dir, .ok (path, bytes, c.sha256 bytes)) := by
  have hdigests : checkDigests c os.quiet (.managed path (c.sha256 bytes)) expected bytes = .ok () := by
    rcases hexpected with rfl | rfl
    · simp [checkDigests, AttestationSource.sha256, refuseIf, ok_bind]
    · simp [checkDigests, AttestationSource.sha256, refuseIf, ok_bind, hc.lower bytes]
  have hclassify := classify_eq os hc hlocated hstem expected
  rw [if_neg hdot] at hclassify
  exact loadBytes_of_source hclassify (readManaged_eq os hlocated hstored hbounded) hdigests

theorem load_dotted (hc : Lawful c) {name : String}
    (hlocated : Located (disk.withDirectory dir) path name)
    (hstem : fileStem? path = some (runId ++ "." ++ c.sha256 bytes)) (hdot : '.' ∈ runId.toList)
    (expected : Option String) (loaded : LoadedAttestation) :
    (loadAttestationDocumentFromPath c os.quiet (disk.withDirectory dir) path expected).2 ≠
      .ok loaded := by
  have hclassify := classify_eq os hc hlocated hstem expected
  rw [if_pos hdot] at hclassify
  intro h
  have hload := congrArg Prod.snd (load_of_refused (c := c) hclassify)
  rw [h] at hload
  cases hload

theorem load_dotless_iff (hc : Lawful c) {document : AttestationDocument} {name : String}
    (hlocated : Located (disk.withDirectory dir) path name)
    (hstem : fileStem? path = some (document.runId ++ "." ++ c.sha256 bytes))
    (hcanonical : c.canonicalizeToVec document = .ok bytes)
    (hstored : dir name = some (.file bytes))
    (hbounded : bytes.length ≤ maxAttestationArtifactBytes) {expected : Option String}
    (hexpected : expected = none ∨ expected = some (c.sha256 bytes))
    (hdot : '.' ∉ document.runId.toList) :
    (loadAttestationDocumentFromPath c os.quiet (disk.withDirectory dir) path expected).2 =
      .ok ⟨document, bytes, c.sha256 bytes⟩ ↔ document.isTyped = true := by
  have hrunId : checkRunId os.quiet path document = .ok () := by
    unfold checkRunId
    rw [hstem, Option.bind_some, split?_stem hc, if_neg hdot]
    simp [refuseIf]
  have hload := loadBytes_eq os hc hlocated hstem hstored hbounded hexpected hdot
  have hparse := parseDocument_iff hc os.quiet path hcanonical
  refine (load_of_bytes hload).trans (Iff.trans ?_ hparse)
  constructor
  · intro h
    obtain ⟨parsed, hparsed, -, hsame⟩ := h
    cases hsame
    exact hparsed
  · intro h
    exact ⟨document, h, hrunId, rfl⟩

end Loading

/-- Loading what was published gives the document back exactly when its run id holds no dot and it
declares its own version. -/
theorem load_iff {c : Codec} (hc : Lawful c) (os : Os) (disk : Disk) {document : AttestationDocument}
    {bytes : Bytes} {dir : Directory} (h : Identifier document.runId)
    (hcanonical : c.canonicalizeToVec document = .ok bytes)
    (hstored : dir (targetFilename document.runId (c.sha256 bytes)) = some (.file bytes))
    (hbounded : bytes.length ≤ maxAttestationArtifactBytes) {expected : Option String}
    (hexpected : expected = none ∨ expected = some (c.sha256 bytes)) :
    (loadAttestationDocumentFromPath c os.quiet (disk.withDirectory dir)
      (join (attestationsDir disk) (targetFilename document.runId (c.sha256 bytes))) expected).2 =
        .ok ⟨document, bytes, c.sha256 bytes⟩ ↔
      '.' ∉ document.runId.toList ∧ document.isTyped = true := by
  have hname : IsName (targetFilename document.runId (c.sha256 bytes)) := isName_target hc h
  have hdir : attestationsDir disk = attestationsDir (disk.withDirectory dir) := rfl
  have hlocated := located (disk.withDirectory dir) hname
  have hstem : fileStem? (join (attestationsDir (disk.withDirectory dir))
      (targetFilename document.runId (c.sha256 bytes))) =
      some (document.runId ++ "." ++ c.sha256 bytes) :=
    fileStem?_target (disk.withDirectory dir) hc h
  rw [hdir]
  by_cases hdot : '.' ∈ document.runId.toList
  · have hfails := load_dotted os hc hlocated hstem hdot expected
    simp [hfails, hdot]
  · rw [load_dotless_iff os hc hlocated hstem hcanonical hstored hbounded hexpected hdot]
    simp [hdot]

def publicationOf (c : Codec) (disk : Disk) (document : AttestationDocument) (bytes : Bytes) :
    Publication :=
  ⟨document.runId, c.sha256 bytes, attestationsDir disk, bytes⟩

/-- The call gets as far as linking these bytes. -/
structure Arrives (c : Codec) (os : Os) (disk : Disk) (document : AttestationDocument)
    (bytes : Bytes) : Prop where
  canonical : c.canonicalizeToVec document = .ok bytes
  opens : ∃ dir, (ensure os disk).2 = .ok dir
  links : Links os (publicationOf c disk document bytes) disk.entry

/-- A document that the loader takes from its file. -/
def Loadable (document : AttestationDocument) : Prop :=
  '.' ∉ document.runId.toList ∧ document.isTyped = true

/-- What is linked under a free name can be read back and loaded, and what stands there already and
can be read can be loaded. -/
def Heeds (c : Codec) (os : Os) (disk : Disk) (document : AttestationDocument) : Prop :=
  ∀ bytes, Arrives c os disk document bytes →
    (disk.entry (targetFilename document.runId (c.sha256 bytes)) = none →
      Readable os bytes ∧ Loadable document) ∧
    (disk.entry (targetFilename document.runId (c.sha256 bytes)) = some (.file bytes) →
      Readable os bytes → Loadable document)

/-- An outcome that is a failure leaves no new file under the name of the attestation, and one that
is not gives a path from which the same document, bytes and digest are loaded. -/
def GivenBack (c : Codec) (os : Os) (disk : Disk) (document : AttestationDocument) :
    Disk × Except String (String × String) → Prop
  | (after, .error _) => ∀ bytes, c.canonicalizeToVec document = .ok bytes →
      disk.entry (targetFilename document.runId (c.sha256 bytes)) = none →
        after.entry (targetFilename document.runId (c.sha256 bytes)) = none
  | (after, .ok (path, sha256)) => ∃ bytes, c.canonicalizeToVec document = .ok bytes ∧
      ∀ expected, expected = none ∨ expected = some sha256 →
        (loadAttestationDocumentFromPath c os.quiet after path expected).2 =
          .ok ⟨document, bytes, sha256⟩

theorem GivenBack.loads {c : Codec} {os : Os} {disk : Disk} {document : AttestationDocument}
    {outcome : Disk × Except String (String × String)} (h : GivenBack c os disk document outcome)
    {path sha256 : String} (hresult : outcome.2.toOption = some (path, sha256)) :
    ∃ bytes, (loadAttestationDocumentFromPath c os.quiet outcome.1 path none).2 =
      .ok ⟨document, bytes, sha256⟩ := by
  obtain ⟨after, result⟩ := outcome
  obtain rfl := toOption_eq_some hresult
  obtain ⟨bytes, -, hloads⟩ := h
  exact ⟨bytes, hloads none (.inl rfl)⟩

section RoundTrip

variable {c : Codec} {os : Os} {disk : Disk} {document : AttestationDocument} {bytes : Bytes}

variable {e : String}

theorem persist_refused (h : validateIdentifier os document.runId = .ok ())
    (hcanonical : c.canonicalizeToVec document = .error e) :
    persistAttestation c os disk document = (disk, .error e) := by
  simp only [persistAttestation, h, hcanonical]

theorem persist_unopened (h : validateIdentifier os document.runId = .ok ())
    (hcanonical : c.canonicalizeToVec document = .ok bytes)
    (hensure : (ensure os disk).2 = .error e) :
    persistAttestation c os disk document = ((ensure os disk).1, .error e) := by
  cases hopened : ensure os disk with
  | mk after result =>
    rw [hopened] at hensure
    obtain rfl : result = .error e := hensure
    simp only [persistAttestation, h, hcanonical, hopened]

theorem persist_published {dir : Directory} (h : validateIdentifier os document.runId = .ok ())
    (hcanonical : c.canonicalizeToVec document = .ok bytes) (hensure : (ensure os disk).2 = .ok dir) :
    persistAttestation c os disk document =
      (disk.withDirectory (publish os (publicationOf c disk document bytes) disk.entry).1,
        (publish os (publicationOf c disk document bytes) disk.entry).2) := by
  simp only [persistAttestation, h, hcanonical, ensure_ok hensure]
  rfl

/-- A file that is in its place and was read is loaded again exactly as far as it can be. -/
theorem loads_iff (hc : Lawful c) (h : Identifier document.runId)
    (hcanonical : c.canonicalizeToVec document = .ok bytes) {dir : Directory}
    (hstored : dir (targetFilename document.runId (c.sha256 bytes)) = some (.file bytes))
    (hreadable : Readable os bytes) :
    (∃ bytes', c.canonicalizeToVec document = .ok bytes' ∧
      ∀ expected, expected = none ∨ expected = some (c.sha256 bytes) →
        (loadAttestationDocumentFromPath c os.quiet (disk.withDirectory dir)
          (publicationOf c disk document bytes).path expected).2 =
            .ok ⟨document, bytes', c.sha256 bytes⟩) ↔ Loadable document := by
  have hload := fun (expected : Option String)
    (hexpected : expected = none ∨ expected = some (c.sha256 bytes)) =>
      load_iff hc os disk h hcanonical hstored hreadable.bounded hexpected
  constructor
  · intro hall
    obtain ⟨bytes', hbytes, hloads⟩ := hall
    obtain rfl := Except.ok.inj (hcanonical.symm.trans hbytes)
    exact (hload none (.inl rfl)).mp (hloads none (.inl rfl))
  · intro hloadable
    exact ⟨bytes, hcanonical, fun expected hexpected => (hload expected hexpected).mpr hloadable⟩

theorem givenBack_published_iff (hc : Lawful c) (hid : Identifier document.runId)
    (hcanonical : c.canonicalizeToVec document = .ok bytes)
    (hopens : ∃ dir, (ensure os disk).2 = .ok dir)
    {outcome : Directory × Except String (String × String)}
    (h : Published os (publicationOf c disk document bytes) disk.entry outcome) :
    GivenBack c os disk document (disk.withDirectory outcome.1, outcome.2) ↔
      Heeds c os disk document := by
  have hsame : ∀ bytes', c.canonicalizeToVec document = .ok bytes' → bytes' = bytes :=
    fun bytes' hbytes => Except.ok.inj (hbytes.symm.trans hcanonical)
  cases h with
  | failed after e links same =>
    have hvacuous : Heeds c os disk document := by
      intro bytes' harrives
      obtain rfl := hsame bytes' harrives.canonical
      exact absurd harrives.links links
    refine iff_of_true ?_ hvacuous
    intro bytes' hbytes hfree
    obtain rfl := hsame bytes' hbytes
    exact same.trans hfree
  | taken after links found same =>
    have harrives : Arrives c os disk document bytes := ⟨hcanonical, hopens, links⟩
    cases hresult : compareExisting os (publicationOf c disk document bytes) after with
    | error e =>
      have hheeds : Heeds c os disk document := by
        intro bytes' harrives'
        obtain rfl := hsame bytes' harrives'.canonical
        refine ⟨fun hfree => absurd hfree found, ?_⟩
        intro hstored hreadable
        have hok := compareExisting_eq_ok.mpr ⟨⟨same.trans hstored, hreadable⟩, rfl⟩
        rw [hresult] at hok
        cases hok
      refine iff_of_true ?_ hheeds
      intro bytes' hbytes hfree
      obtain rfl := hsame bytes' hbytes
      exact absurd hfree found
    | ok result =>
      obtain ⟨⟨hstored, hreadable⟩, rfl⟩ := compareExisting_eq_ok.mp hresult
      rw [GivenBack]
      refine (loads_iff hc hid hcanonical hstored hreadable).trans ?_
      constructor
      · intro hloadable bytes' harrives'
        obtain rfl := hsame bytes' harrives'.canonical
        exact ⟨fun hfree => absurd hfree found, fun _ _ => hloadable⟩
      · intro hheeds
        exact (hheeds bytes harrives).2 (same.symm.trans hstored) hreadable
  | linked after links free stored =>
    have harrives : Arrives c os disk document bytes := ⟨hcanonical, hopens, links⟩
    cases hresult : confirm os (publicationOf c disk document bytes) after with
    | error e =>
      refine iff_of_false ?_ ?_
      · intro hgiven
        have hnone := hgiven bytes hcanonical free
        have hentry : after (publicationOf c disk document bytes).target = none := hnone
        rw [stored] at hentry
        cases hentry
      · intro hheeds
        have hreadable := ((hheeds bytes harrives).1 free).1
        have hok := confirm_eq_ok.mpr ⟨⟨stored, hreadable⟩, rfl⟩
        rw [hresult] at hok
        cases hok
    | ok result =>
      obtain ⟨⟨hstored, hreadable⟩, rfl⟩ := confirm_eq_ok.mp hresult
      refine (loads_iff hc hid hcanonical hstored hreadable).trans ?_
      constructor
      · intro hloadable bytes' harrives'
        obtain rfl := hsame bytes' harrives'.canonical
        exact ⟨fun _ => ⟨hreadable, hloadable⟩, fun _ _ => hloadable⟩
      · intro hheeds
        exact ((hheeds bytes harrives).1 free).2

/-- For every disk and every refusal of the operating system: persisting an attestation of either
version gives it back exactly when the call heeds its document. -/
theorem givenBack_iff_heeds (hc : Lawful c) (h : validateIdentifier os document.runId = .ok ()) :
    GivenBack c os disk document (persistAttestation c os disk document) ↔
      Heeds c os disk document := by
  have hid := identifier_of_validate h
  cases hcanonical : c.canonicalizeToVec document with
  | error e =>
    have hvacuous : Heeds c os disk document := by
      intro bytes harrives
      rw [harrives.canonical] at hcanonical
      cases hcanonical
    rw [persist_refused h hcanonical]
    refine iff_of_true ?_ hvacuous
    intro bytes hbytes
    rw [hbytes] at hcanonical
    cases hcanonical
  | ok bytes =>
    cases hensure : (ensure os disk).2 with
    | error e =>
      have hvacuous : Heeds c os disk document := by
        intro bytes harrives
        obtain ⟨dir, hopens⟩ := harrives.opens
        rw [hensure] at hopens
        cases hopens
      rw [persist_unopened h hcanonical hensure]
      refine iff_of_true ?_ hvacuous
      intro bytes' _ hfree
      rw [entry_ensure]
      exact hfree
    | ok dir =>
      rw [persist_published h hcanonical hensure]
      exact givenBack_published_iff hc hid hcanonical ⟨dir, hensure⟩
        (published os hid disk.entry)

end RoundTrip

/-- A statement about a run of one check, of which only the envelope and the run id matter here. -/
def sampleStatement (runId : String) : VerificationAttestation where
  statementType := inTotoStatementV1Type
  subject := [⟨"fdx-verification-run:" ++ runId, "0"⟩]
  predicateType := fdxVerificationPredicateV1Type
  predicate := {
    schemaVersion := fdxAttestationPredicateVersion
    run := ⟨runId, "0", "1", 5, 1⟩
    plan := ⟨"plan:1", "1", 0, 0, 0⟩
    result := ⟨.passed, .exact, 0, []⟩
    executions := []
    checks := []
    uncertainty := []
    runtimeHistory := ⟨2, true, true⟩
    sourceContext := ⟨none, none, 0, 0, none⟩
    generator := ⟨"fdx", "0.1.0"⟩ }

def sampleBytes : Bytes := [0x7B, 0x7D]

def sampleDigest : String := String.ofList (List.replicate 64 'a')

/-- The JSON text of one document, which is all that is written and read. -/
def sampleCodec (statement : VerificationAttestation) : Codec where
  sha256 := fun _ => sampleDigest
  canonicalizeToVec := fun document =>
    if document = .v1 statement then .ok sampleBytes else .error "unsupported"
  parseValue := fun _ => .ok (.object [("predicateType", .string statement.predicateType)])
  parseV1 := fun _ => .ok statement
  parseV2 := fun _ => .error "unsupported"

theorem canonical_sample {statement : VerificationAttestation} {document : AttestationDocument}
    {bytes : Bytes} (h : (sampleCodec statement).canonicalizeToVec document = .ok bytes) :
    document = .v1 statement ∧ bytes = sampleBytes := by
  have hif : (if document = .v1 statement then (.ok sampleBytes : Except String Bytes)
      else .error "unsupported") = .ok bytes := h
  by_cases hsame : document = .v1 statement
  · rw [if_pos hsame] at hif
    exact ⟨hsame, (Except.ok.inj hif).symm⟩
  · rw [if_neg hsame] at hif
    simp at hif

theorem lawful_sampleCodec (statement : VerificationAttestation) :
    Lawful (sampleCodec statement) := by
  have htext : ∀ bytes, ((sampleCodec statement).sha256 bytes).toList = List.replicate 64 'a' :=
    fun bytes => String.toList_ofList
  refine ⟨?_, ?_, ?_, ?_, ?_⟩
  · intro bytes
    rw [htext, List.length_replicate]
  · intro bytes ch hch
    rw [htext] at hch
    rw [List.eq_of_mem_replicate hch]
    exact .inr (by decide)
  · intro document bytes h
    rw [(canonical_sample h).1]
    refine ⟨.object [("predicateType", .string statement.predicateType)], rfl, ?_⟩
    simp [member?, jsonText?, AttestationDocument.declaredType]
  · intro other bytes h
    rw [AttestationDocument.v1.inj (canonical_sample h).1]
    rfl
  · intro other bytes h
    exact AttestationDocument.noConfusion (canonical_sample h).1

def sampleOs : Os where
  refuses := fun _ => none
  debug := id
  pid := 1
  stamp := fun attempt => toString attempt

def sampleDisk : Disk where
  repoRoot := "/repo"
  canonicalRoot := "/repo"
  absolute := rfl
  fdx := .absent
  outside := noFiles
  canonicalize := some

theorem plain_run_given_back : GivenBack (sampleCodec (sampleStatement "run-1")) sampleOs sampleDisk
    (.v1 (sampleStatement "run-1"))
    (persistAttestation (sampleCodec (sampleStatement "run-1")) sampleOs sampleDisk
      (.v1 (sampleStatement "run-1"))) := by
  have hvalid : validateIdentifier sampleOs "run-1" = .ok () :=
    refuseIf_eq_ok.mpr (by decide +kernel)
  refine (givenBack_iff_heeds (lawful_sampleCodec _) hvalid).mpr ?_
  intro bytes harrives
  have hloadable : Loadable (.v1 (sampleStatement "run-1")) := by
    constructor
    · decide +kernel
    · decide +kernel
  obtain rfl := (canonical_sample harrives.canonical).2
  exact ⟨fun _ => ⟨⟨rfl, rfl, by simp [sampleBytes, maxAttestationArtifactBytes], rfl⟩, hloadable⟩,
    fun _ _ => hloadable⟩

/-- A run id with a dot is admitted and published under a name that the loader does not take apart. -/
theorem dotted_run_lost : Lawful (sampleCodec (sampleStatement "run.1")) ∧
    validateIdentifier sampleOs "run.1" = .ok () ∧
    ¬GivenBack (sampleCodec (sampleStatement "run.1")) sampleOs sampleDisk
      (.v1 (sampleStatement "run.1"))
      (persistAttestation (sampleCodec (sampleStatement "run.1")) sampleOs sampleDisk
        (.v1 (sampleStatement "run.1"))) := by
  refine ⟨lawful_sampleCodec _, refuseIf_eq_ok.mpr (by decide +kernel), ?_⟩
  intro h
  have hpersist : (persistAttestation (sampleCodec (sampleStatement "run.1")) sampleOs sampleDisk
      (.v1 (sampleStatement "run.1"))).2.toOption =
        some ("/repo/.fdx/attestations/" ++ targetFilename "run.1" sampleDigest, sampleDigest) := by
    decide +kernel
  obtain ⟨bytes, hloaded⟩ := h.loads hpersist
  have hload : (loadAttestationDocumentFromPath (sampleCodec (sampleStatement "run.1"))
      sampleOs.quiet (persistAttestation (sampleCodec (sampleStatement "run.1")) sampleOs sampleDisk
        (.v1 (sampleStatement "run.1"))).1
      ("/repo/.fdx/attestations/" ++ targetFilename "run.1" sampleDigest) none).2.toOption = none := by
    decide +kernel
  rw [hloaded] at hload
  cases hload

end Publication
