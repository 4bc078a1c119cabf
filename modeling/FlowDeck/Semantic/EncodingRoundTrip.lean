import FlowDeck.Semantic.ScipEncoding

/-! Which encodings the decoder gives back, and which ranges it returns. -/

namespace EncodingRoundTrip

open Checked ScipModel WireReader Reader ScipDecoder WireText ScipEncoding List

theorem pure_ok {α : Type} (a : α) : (pure a : Except Stop α) = .ok a := rfl

variable {number : Nat} {field : Field} {fields : List Field} {s : Slice} {range : ScipRange}
  {values : List Nat} {index : ScipIndex} {parts : PartialOccurrence}

theorem readString_text {text : String} (h : IsText number text field) :
    readString field.bytes = .ok text := by
  have hbytes : (⟨field.bytes.bytes.toArray⟩ : ByteArray) = text.toByteArray := by
    rw [h.bytes]
  have hdecoded : String.fromUTF8? text.toByteArray = some text := by
    unfold String.fromUTF8?
    rw [dif_pos text.isValidUTF8]
    rfl
  have hlength : ¬maxScipStringBytes < field.bytes.bytes.length := not_lt.mpr h.bounded
  simp only [readString, if_neg hlength, hbytes, hdecoded]

theorem i32FromVarint_of_lt {v : Nat} (h : v < 2 ^ 31) : i32FromVarint v = .ok v :=
  if_neg (by omega)

theorem u32FromVarint_of_lt {v : Nat} (h : v < 2 ^ 32) : u32FromVarint v = .ok v :=
  if_neg (by omega)

theorem i32FromVarint_number {value : Nat} (h : IsNumber number (2 ^ 31) value field) :
    i32FromVarint field.varint = .ok value := by
  rw [h.value]
  exact i32FromVarint_of_lt h.bounded

theorem u32FromVarint_number {value : Nat} (h : IsNumber number (2 ^ 32) value field) :
    u32FromVarint field.varint = .ok value := by
  rw [h.value]
  exact u32FromVarint_of_lt h.bounded

theorem fold_toolInfo {info : ScipToolInfo} (h : ToolInfoFields info fields) :
    fields.foldlM toolInfoStep {} = .ok info := by
  induction h with
  | nil => rfl
  | name h hnew hfield ih =>
    rw [foldlM_concat ih]
    simp [toolInfoStep, hfield.number, hfield.wire, readString_text hfield, ok_bind, pure_ok]
  | version h hnew hfield ih =>
    rw [foldlM_concat ih]
    simp [toolInfoStep, hfield.number, hfield.wire, readString_text hfield, ok_bind, pure_ok]
  | argument h hfield ih =>
    rw [foldlM_concat ih]
    simp [toolInfoStep, hfield.number, hfield.wire, readString_text hfield, ok_bind, pure_ok]
  | unknown h hfield ih =>
    rw [foldlM_concat ih]
    unfold toolInfoStep
    split <;> simp_all

theorem decodeToolInfo_text {info : ScipToolInfo} (h : ToolInfoText info s) :
    decodeToolInfo s = .ok info := by
  obtain ⟨fields, htext, hfields⟩ := h
  exact (decodeFields_holds (holds_text htext)).mpr (fold_toolInfo hfields)

theorem fold_metadata {metadata : ScipMetadata} (h : MetadataFields metadata fields) :
    fields.foldlM metadataStep {} = .ok metadata := by
  induction h with
  | nil => rfl
  | version h hnew hfield ih =>
    rw [foldlM_concat ih]
    simp [metadataStep, hfield.number, hfield.wire, u32FromVarint_number hfield, ok_bind, pure_ok]
  | toolInfo h hnew hfield ih =>
    rw [foldlM_concat ih]
    simp [metadataStep, hfield.number, hfield.wire, decodeToolInfo_text hfield.text, ok_bind, pure_ok]
  | projectRoot h hnew hfield ih =>
    rw [foldlM_concat ih]
    simp [metadataStep, hfield.number, hfield.wire, readString_text hfield, ok_bind, pure_ok]
  | unknown h hfield ih =>
    rw [foldlM_concat ih]
    unfold metadataStep
    split <;> simp_all

theorem decodeMetadata_text {metadata : ScipMetadata} (h : MetadataText metadata s) :
    decodeMetadata s = .ok metadata := by
  obtain ⟨fields, htext, hfields⟩ := h
  exact (decodeFields_holds (holds_text htext)).mpr (fold_metadata hfields)

theorem flag_ne_zero {flag : Bool} (h : IsFlag number flag field) :
    (!decide (field.varint = 0)) = flag := by
  rw [h.value]
  cases flag <;> rfl

theorem fold_relationship {rel : ScipRelationship} (h : RelationshipFields rel fields) :
    fields.foldlM relationshipStep {} = .ok rel := by
  induction h with
  | nil => rfl
  | symbol h hnew hfield ih =>
    rw [foldlM_concat ih]
    simp [relationshipStep, hfield.number, hfield.wire, readString_text hfield, ok_bind, pure_ok]
  | isReference h hnew hfield ih =>
    rw [foldlM_concat ih]
    simp [relationshipStep, hfield.number, hfield.wire, flag_ne_zero hfield]
  | isImplementation h hnew hfield ih =>
    rw [foldlM_concat ih]
    simp [relationshipStep, hfield.number, hfield.wire, flag_ne_zero hfield]
  | isDefinition h hnew hfield ih =>
    rw [foldlM_concat ih]
    simp [relationshipStep, hfield.number, hfield.wire, flag_ne_zero hfield]
  | unknown h hfield ih =>
    rw [foldlM_concat ih]
    unfold relationshipStep
    split <;> simp_all

theorem decodeRelationship_text {rel : ScipRelationship} (h : RelationshipText rel s) :
    decodeRelationship s = .ok rel := by
  obtain ⟨fields, htext, hfields⟩ := h
  exact (decodeFields_holds (holds_text htext)).mpr (fold_relationship hfields)

theorem fold_symbolInformation {info : ScipSymbolInformation}
    (h : SymbolInformationFields info fields) :
    fields.foldlM symbolInformationStep {} = .ok info := by
  induction h with
  | nil => rfl
  | symbol h hnew hfield ih =>
    rw [foldlM_concat ih]
    simp [symbolInformationStep, hfield.number, hfield.wire, readString_text hfield, ok_bind, pure_ok]
  | relationship h hfield ih =>
    rw [foldlM_concat ih]
    simp [symbolInformationStep, hfield.number, hfield.wire, decodeRelationship_text hfield.text, ok_bind, pure_ok]
  | kind h hnew hfield ih =>
    rw [foldlM_concat ih]
    simp [symbolInformationStep, hfield.number, hfield.wire, u32FromVarint_number hfield, ok_bind, pure_ok]
  | displayName h hnew hfield ih =>
    rw [foldlM_concat ih]
    simp [symbolInformationStep, hfield.number, hfield.wire, readString_text hfield, ok_bind, pure_ok]
  | enclosingSymbol h hnew hfield ih =>
    rw [foldlM_concat ih]
    simp [symbolInformationStep, hfield.number, hfield.wire, readString_text hfield, ok_bind, pure_ok]
  | unknown h hfield ih =>
    rw [foldlM_concat ih]
    unfold symbolInformationStep
    split <;> simp_all

theorem decodeSymbolInformation_text {info : ScipSymbolInformation}
    (h : SymbolInformationText info s) : decodeSymbolInformation s = .ok info := by
  obtain ⟨fields, htext, hfields⟩ := h
  exact (decodeFields_holds (holds_text htext)).mpr (fold_symbolInformation hfields)

theorem fold_singleLine {parts : Nat × Nat × Nat} (h : SingleLineFields parts fields) :
    fields.foldlM singleLineRangeStep ⟨0, 0, 0, 0⟩ =
      .ok ⟨parts.1, parts.2.1, parts.1, parts.2.2⟩ := by
  induction h with
  | nil => rfl
  | line h hnew hfield ih =>
    rw [foldlM_concat ih]
    simp [singleLineRangeStep, hfield.number, hfield.wire, i32FromVarint_number hfield, ok_bind, pure_ok]
  | startCharacter h hnew hfield ih =>
    rw [foldlM_concat ih]
    simp [singleLineRangeStep, hfield.number, hfield.wire, i32FromVarint_number hfield, ok_bind, pure_ok]
  | endCharacter h hnew hfield ih =>
    rw [foldlM_concat ih]
    simp [singleLineRangeStep, hfield.number, hfield.wire, i32FromVarint_number hfield, ok_bind, pure_ok]
  | unknown h hfield ih =>
    rw [foldlM_concat ih]
    unfold singleLineRangeStep
    split <;> simp_all

theorem decodeSingleLineRange_text (h : SingleLineText range s) :
    decodeSingleLineRange s = .ok range := by
  obtain ⟨fields, htext, hline, hfields⟩ := h
  have hdecode := (decodeFields_holds (holds_text htext)).mpr (fold_singleLine hfields)
  obtain ⟨startLine, startCharacter, endLine, endCharacter⟩ := range
  obtain rfl : endLine = startLine := hline
  exact hdecode

theorem fold_multiLine (h : MultiLineFields range fields) :
    fields.foldlM multiLineRangeStep ⟨0, 0, 0, 0⟩ = .ok range := by
  induction h with
  | nil => rfl
  | startLine h hnew hfield ih =>
    rw [foldlM_concat ih]
    simp [multiLineRangeStep, hfield.number, hfield.wire, i32FromVarint_number hfield, ok_bind, pure_ok]
  | startCharacter h hnew hfield ih =>
    rw [foldlM_concat ih]
    simp [multiLineRangeStep, hfield.number, hfield.wire, i32FromVarint_number hfield, ok_bind, pure_ok]
  | endLine h hnew hfield ih =>
    rw [foldlM_concat ih]
    simp [multiLineRangeStep, hfield.number, hfield.wire, i32FromVarint_number hfield, ok_bind, pure_ok]
  | endCharacter h hnew hfield ih =>
    rw [foldlM_concat ih]
    simp [multiLineRangeStep, hfield.number, hfield.wire, i32FromVarint_number hfield, ok_bind, pure_ok]
  | unknown h hfield ih =>
    rw [foldlM_concat ih]
    unfold multiLineRangeStep
    split <;> simp_all

theorem decodeMultiLineRange_text (h : MultiLineText range s) :
    decodeMultiLineRange s = .ok range := by
  obtain ⟨fields, htext, hfields⟩ := h
  exact (decodeFields_holds (holds_text htext)).mpr (fold_multiLine hfields)

theorem packedLoop_text {text : List UInt8} (h : PackedText text values) {r : Reader} {rounds : Nat}
    (read : List Nat) (hrest : r.rest = text) (hrounds : text.length ≤ rounds) :
    packedLoop rounds r read = .ok (read ++ values) := by
  induction h generalizing r rounds read with
  | nil =>
    cases rounds with
    | zero => simp [packedLoop]
    | succ rounds => simp [packedLoop, hrest]
  | @cons text rest n values htext hn hmore ih =>
    have hpos : 0 < text.length := length_pos_iff.mpr htext.writes.ne_nil
    rw [length_append] at hrounds
    obtain ⟨rounds, rfl⟩ := Nat.exists_eq_add_of_lt (by omega : 0 < rounds)
    have hsome : r.rest ≠ [] := by
      rw [hrest]
      simp [htext.writes.ne_nil]
    obtain ⟨r₁, hread, hr₁, -⟩ := readVarint_writes htext.writes htext.short htext.bounded hrest
    have hrec := ih (read ++ [n]) hr₁ (by omega : rest.length ≤ 0 + rounds)
    simp only [packedLoop, if_neg hsome, hread, ok_bind, i32FromVarint_of_lt hn, hrec]
    simp

theorem rangeFromInt32s_of (h : DeprecatedRange values (some range)) :
    rangeFromInt32s values = .ok range := by
  cases h with
  | oneLine => rfl
  | lines h => exact if_neg (not_lt.mpr h)

theorem readDeprecatedRange_packed (hfield : IsMessage 1 (fun s => PackedText s.bytes values) field)
    (h : DeprecatedRange values (some range)) (occ : PartialOccurrence) :
    readDeprecatedRange occ field = .ok { occ with range := some range } := by
  have hvalues : readInt32Values field = .ok values := by
    simp only [readInt32Values, hfield.wire]
    exact packedLoop_text hfield.text [] rfl (Nat.le_refl _)
  simp only [readDeprecatedRange, hvalues, ok_bind, rangeFromInt32s_of h]
  rfl

theorem range_of_new {m : OccurrenceMessage} (h : OccurrenceFields m fields)
    (hnew : 1 ∉ numbers fields) : m.range = [] := by
  induction h with
  | nil => rfl
  | packed h hnew' hsome hfield ih => simp [numbers, hfield.number] at hnew
  | unpacked h hmore hfield ih => simp [numbers, hfield.number] at hnew
  | symbol h hnew' hfield ih => exact ih (by simp_all [numbers])
  | symbolRoles h hnew' hfield ih => exact ih (by simp_all [numbers])
  | singleLine h hnew' hother hfield ih => exact ih (by simp_all [numbers])
  | multiLine h hnew' hother hfield ih => exact ih (by simp_all [numbers])
  | unknown h hfield ih => exact ih (by simp_all [numbers])

def NoUnpacked (fields : List Field) : Prop :=
  ∀ field ∈ fields, ¬(field.number = 1 ∧ field.wire = .varint)

theorem noUnpacked_concat :
    NoUnpacked (fields ++ [field]) ↔
      NoUnpacked fields ∧ ¬(field.number = 1 ∧ field.wire = .varint) := by
  simp [NoUnpacked, or_imp, forall_and]

theorem fold_occurrence {m : OccurrenceMessage} (h : OccurrenceFields m fields)
    (hpacked : NoUnpacked fields) {deprecated : Option ScipRange}
    (hrange : DeprecatedRange m.range deprecated) :
    fields.foldlM occurrenceStep {} =
      .ok ⟨m.symbol, m.symbolRoles, deprecated, m.typedRange⟩ := by
  induction h generalizing deprecated with
  | nil =>
    cases hrange
    rfl
  | @packed m fields field range h hnew hsome hfield ih =>
    have hnil : DeprecatedRange m.range none := by
      rw [range_of_new h hnew]
      exact .absent
    cases deprecated with
    | none =>
      cases hrange
      exact absurd rfl hsome
    | some found =>
      rw [foldlM_concat (ih (noUnpacked_concat.mp hpacked).1 hnil)]
      simp [occurrenceStep, hfield.number, hfield.wire, readDeprecatedRange_packed hfield hrange]
  | unpacked h hmore hfield ih =>
    exact absurd ⟨hfield.number, hfield.wire⟩ (noUnpacked_concat.mp hpacked).2
  | symbol h hnew hfield ih =>
    rw [foldlM_concat (ih (noUnpacked_concat.mp hpacked).1 hrange)]
    simp [occurrenceStep, hfield.number, hfield.wire, readString_text hfield, ok_bind, pure_ok]
  | symbolRoles h hnew hfield ih =>
    rw [foldlM_concat (ih (noUnpacked_concat.mp hpacked).1 hrange)]
    simp [occurrenceStep, hfield.number, hfield.wire, u32FromVarint_number hfield, ok_bind, pure_ok]
  | singleLine h hnew hother hfield ih =>
    rw [foldlM_concat (ih (noUnpacked_concat.mp hpacked).1 hrange)]
    simp [occurrenceStep, hfield.number, hfield.wire, decodeSingleLineRange_text hfield.text,
      ok_bind, pure_ok]
  | multiLine h hnew hother hfield ih =>
    rw [foldlM_concat (ih (noUnpacked_concat.mp hpacked).1 hrange)]
    simp [occurrenceStep, hfield.number, hfield.wire, decodeMultiLineRange_text hfield.text,
      ok_bind, pure_ok]
  | unknown h hfield ih =>
    rw [foldlM_concat (ih (noUnpacked_concat.mp hpacked).1 hrange)]
    unfold occurrenceStep
    split <;> simp_all

/-- Every occurrence message whose fields can be read is without an unpacked number. -/
def PackedOccurrence (s : Slice) : Prop := ∀ fields, Holds s fields → NoUnpacked fields

theorem decodeOccurrence_text {occ : ScipOccurrence} (h : OccurrenceText occ s)
    (hpacked : PackedOccurrence s) : decodeOccurrence s = .ok occ := by
  obtain ⟨fields, m, deprecated, htext, hfields, hrange, rfl⟩ := h
  have hholds := holds_text htext
  have hdecode := (decodeFields_holds hholds).mpr
    (fold_occurrence hfields (hpacked fields hholds) hrange)
  simp only [decodeOccurrence, hdecode, ok_bind]
  rfl

def PackedDocument (fields : List Field) : Prop :=
  ∀ field ∈ fields, field.number = 2 → field.wire = .len → PackedOccurrence field.bytes

theorem forall_concat {p : Field → Prop} :
    (∀ f ∈ fields ++ [field], p f) ↔ (∀ f ∈ fields, p f) ∧ p field := by
  simp [or_imp, forall_and]

theorem fold_document {doc : ScipDocument} (h : DocumentFields doc fields)
    (hpacked : PackedDocument fields) {total : Nat}
    (htotal : total + doc.occurrences.length ≤ maxScipOccurrences)
    (hsymbols : doc.symbols.length ≤ maxScipSymbolInfos) :
    fields.foldlM documentStep ({}, total) = .ok (doc, total + doc.occurrences.length) := by
  induction h with
  | nil => rfl
  | relativePath h hnew hfield ih =>
    rw [foldlM_concat (ih (forall_concat.mp hpacked).1 htotal hsymbols)]
    simp [documentStep, hfield.number, hfield.wire, readString_text hfield, ok_bind, pure_ok]
  | @occurrence doc fields field occ h hfield ih =>
    simp only [length_append, length_singleton] at htotal
    obtain ⟨hfields, hlast⟩ := forall_concat.mp hpacked
    have hocc := decodeOccurrence_text hfield.text (hlast hfield.number hfield.wire)
    have hlimit : ¬maxScipOccurrences ≤ total + doc.occurrences.length := by omega
    rw [foldlM_concat (ih hfields (by omega) hsymbols)]
    simp [documentStep, hfield.number, hfield.wire, hocc, hlimit, Nat.add_assoc, ok_bind, pure_ok]
  | @symbol doc fields field info h hfield ih =>
    simp only [length_append, length_singleton] at hsymbols
    have hinfo := decodeSymbolInformation_text hfield.text
    have hlimit : ¬maxScipSymbolInfos ≤ doc.symbols.length := by omega
    rw [foldlM_concat (ih (forall_concat.mp hpacked).1 htotal (by omega))]
    simp [documentStep, hfield.number, hfield.wire, hinfo, hlimit, ok_bind, pure_ok]
  | language h hnew hfield ih =>
    rw [foldlM_concat (ih (forall_concat.mp hpacked).1 htotal hsymbols)]
    simp [documentStep, hfield.number, hfield.wire, readString_text hfield, ok_bind, pure_ok]
  | unknown h hfield ih =>
    rw [foldlM_concat (ih (forall_concat.mp hpacked).1 htotal hsymbols)]
    simp only [documentStep]
    split <;> simp_all

theorem decodeDocument_text {doc : ScipDocument} (h : DocumentText doc s)
    (hpacked : ∀ fields, Holds s fields → PackedDocument fields) {total : Nat}
    (htotal : total + doc.occurrences.length ≤ maxScipOccurrences)
    (hsymbols : doc.symbols.length ≤ maxScipSymbolInfos) :
    decodeDocument s total = .ok (doc, total + doc.occurrences.length) := by
  obtain ⟨fields, htext, hfields⟩ := h
  have hholds := holds_text htext
  exact (decodeFields_holds hholds).mpr
    (fold_document hfields (hpacked fields hholds) htotal hsymbols)

def PackedIndex (fields : List Field) : Prop :=
  ∀ field ∈ fields, field.number = 2 → field.wire = .len →
    ∀ inner, Holds field.bytes inner → PackedDocument inner

theorem occurrenceCount_concat (docs : List ScipDocument) (doc : ScipDocument) :
    occurrenceCount (docs ++ [doc]) = occurrenceCount docs + doc.occurrences.length := by
  simp [occurrenceCount]

theorem fold_index (h : IndexFields index fields) (hpacked : PackedIndex fields)
    (hlimits : WithinLimits index) :
    fields.foldlM indexStep ({}, 0) = .ok (index, occurrenceCount index.documents) := by
  obtain ⟨hdocuments, htotal, hsymbols, hexternal⟩ := hlimits
  induction h with
  | nil => rfl
  | metadata h hnew hfield ih =>
    rw [foldlM_concat (ih (forall_concat.mp hpacked).1 hdocuments htotal hsymbols hexternal)]
    simp [indexStep, hfield.number, hfield.wire, decodeMetadata_text hfield.text, ok_bind, pure_ok]
  | @document index fields field doc h hfield ih =>
    simp only [length_append, length_singleton] at hdocuments
    simp only [occurrenceCount_concat] at htotal
    obtain ⟨hfields, hlast⟩ := forall_concat.mp hpacked
    have hdoc := decodeDocument_text hfield.text (hlast hfield.number hfield.wire) htotal
      (hsymbols doc (by simp))
    have hlimit : ¬maxScipDocuments ≤ index.documents.length := by omega
    have hsymbols' : ∀ d ∈ index.documents, d.symbols.length ≤ maxScipSymbolInfos := by
      intro d hd
      exact hsymbols d (by simp [hd])
    rw [foldlM_concat (ih hfields (by omega) (by omega) hsymbols' hexternal)]
    simp [indexStep, hfield.number, hfield.wire, hdoc, hlimit, occurrenceCount_concat, ok_bind,
      pure_ok]
  | @externalSymbol index fields field info h hfield ih =>
    simp only [length_append, length_singleton] at hexternal
    have hinfo := decodeSymbolInformation_text hfield.text
    have hlimit : ¬maxScipSymbolInfos ≤ index.externalSymbols.length := by omega
    rw [foldlM_concat (ih (forall_concat.mp hpacked).1 hdocuments htotal hsymbols (by omega))]
    simp [indexStep, hfield.number, hfield.wire, hinfo, hlimit, ok_bind, pure_ok]
  | unknown h hfield ih =>
    rw [foldlM_concat (ih (forall_concat.mp hpacked).1 hdocuments htotal hsymbols hexternal)]
    simp only [indexStep]
    split <;> simp_all

/-- An encoding without unpacked ranges gives its index back. -/
theorem decodeIndex_text (h : IndexText index s) (hlimits : WithinLimits index)
    (hpacked : ¬HoldsUnpackedRange s) : decodeIndex s = .ok index := by
  obtain ⟨fields, htext, hfields⟩ := h
  have hholds := holds_text htext
  have hindex : PackedIndex fields := by
    intro document hdocument hnumber hwire occurrences hoccurrences occurrence hoccurrence
      hnumber' hwire' inner hinner field hfield hvarint
    exact hpacked ⟨inner, ⟨fields, hholds, document, hdocument, hnumber, hwire, occurrences,
      hoccurrences, occurrence, hoccurrence, hnumber', hwire', hinner⟩, field, hfield, hvarint⟩
  have hdecode := (decodeFields_holds hholds).mpr (fold_index hfields hindex hlimits)
  simp only [decodeIndex, hdecode, ok_bind]
  rfl

def IsItem (number : Nat) (field : Field) : Prop := field.number = number ∧ field.wire = .len

theorem collects_documents :
    Collects indexStep (fun state => state.1.documents) (IsItem 2) fun field doc =>
      ∃ total total', decodeDocument field.bytes total = .ok (doc, total') where
  adds := by
    rintro ⟨index, total⟩ field u' hstep ⟨hnumber, hwire⟩
    simp only [indexStep, hnumber, hwire] at hstep
    split_ifs at hstep
    · cases hstep
    · obtain ⟨⟨doc, total'⟩, hdoc, hstep⟩ := bind_eq_ok.mp hstep
      obtain rfl := pure_eq_ok.mp hstep
      exact ⟨doc, ⟨total, total', hdoc⟩, rfl⟩
  keeps := by
    rintro ⟨index, total⟩ field u' hstep hkind
    simp only [indexStep] at hstep
    split at hstep
    · obtain ⟨_, -, hstep⟩ := bind_eq_ok.mp hstep
      obtain rfl := pure_eq_ok.mp hstep
      rfl
    · exact absurd ⟨by assumption, by assumption⟩ hkind
    · split_ifs at hstep
      · cases hstep
      · obtain ⟨_, -, hstep⟩ := bind_eq_ok.mp hstep
        obtain rfl := pure_eq_ok.mp hstep
        rfl
    · obtain rfl := Except.ok.inj hstep
      rfl

theorem collects_occurrences :
    Collects documentStep (fun state => state.1.occurrences) (IsItem 2) fun field occ =>
      decodeOccurrence field.bytes = .ok occ where
  adds := by
    rintro ⟨doc, total⟩ field u' hstep ⟨hnumber, hwire⟩
    simp only [documentStep, hnumber, hwire] at hstep
    split_ifs at hstep
    · cases hstep
    · obtain ⟨occ, hocc, hstep⟩ := bind_eq_ok.mp hstep
      obtain rfl := pure_eq_ok.mp hstep
      exact ⟨occ, hocc, rfl⟩
  keeps := by
    rintro ⟨doc, total⟩ field u' hstep hkind
    simp only [documentStep] at hstep
    split at hstep
    · obtain ⟨_, -, hstep⟩ := bind_eq_ok.mp hstep
      obtain rfl := pure_eq_ok.mp hstep
      rfl
    · exact absurd ⟨by assumption, by assumption⟩ hkind
    · split_ifs at hstep
      · cases hstep
      · obtain ⟨_, -, hstep⟩ := bind_eq_ok.mp hstep
        obtain rfl := pure_eq_ok.mp hstep
        rfl
    · obtain ⟨_, -, hstep⟩ := bind_eq_ok.mp hstep
      obtain rfl := pure_eq_ok.mp hstep
      rfl
    · obtain rfl := Except.ok.inj hstep
      rfl

def ReadOf (s : Slice) (occ : ScipOccurrence) (fields : List Field) : Prop :=
  HoldsOccurrence s fields ∧ ∃ parts, fields.foldlM occurrenceStep {} = .ok parts ∧
    occ = parts.final

theorem holds_of_decodeOccurrence {occ : ScipOccurrence} (h : decodeOccurrence s = .ok occ) :
    ∃ fields, Holds s fields ∧ ∃ parts, fields.foldlM occurrenceStep {} = .ok parts ∧
      occ = parts.final := by
  obtain ⟨parts, hparts, heq⟩ := bind_eq_ok.mp h
  obtain rfl := pure_eq_ok.mp heq
  obtain ⟨fields, hholds, hfold⟩ := holds_of_decodeFields hparts
  exact ⟨fields, hholds, parts, hfold, rfl⟩

theorem fold_of_decodeIndex (h : decodeIndex s = .ok index) :
    ∃ fields total, Holds s fields ∧ fields.foldlM indexStep ({}, 0) = .ok (index, total) := by
  obtain ⟨⟨index', total⟩, hdecode, heq⟩ := bind_eq_ok.mp h
  obtain rfl := pure_eq_ok.mp heq
  obtain ⟨fields, hholds, hfold⟩ := holds_of_decodeFields hdecode
  exact ⟨fields, total, hholds, hfold⟩

theorem readOf_of_mem (h : decodeIndex s = .ok index) {doc : ScipDocument}
    (hdoc : doc ∈ index.documents) {occ : ScipOccurrence} (hocc : occ ∈ doc.occurrences) :
    ∃ fields, ReadOf s occ fields := by
  obtain ⟨documents, total, hdocuments, hfold⟩ := fold_of_decodeIndex h
  rcases collects_documents.read_of_mem hfold hdoc with hnil | ⟨document, hmem, hkind, n, n', hread⟩
  · cases hnil
  · obtain ⟨occurrences, hoccurrences, hdocfold⟩ := holds_of_decodeFields hread
    rcases collects_occurrences.read_of_mem hdocfold hocc with hnil | ⟨occurrence, hmem', hkind', hread'⟩
    · cases hnil
    · obtain ⟨fields, hholds, hparts⟩ := holds_of_decodeOccurrence hread'
      refine ⟨fields, ⟨documents, hdocuments, document, hmem, hkind.1, hkind.2, occurrences,
        hoccurrences, occurrence, hmem', hkind'.1, hkind'.2, hholds⟩, hparts⟩

theorem mem_of_holdsOccurrence (h : decodeIndex s = .ok index) {fields : List Field}
    (hfields : HoldsOccurrence s fields) :
    ∃ doc ∈ index.documents, ∃ occ ∈ doc.occurrences, ReadOf s occ fields := by
  obtain ⟨documents, hdocuments, document, hmem, hnumber, hwire, occurrences, hoccurrences,
    occurrence, hmem', hnumber', hwire', hholds⟩ := id hfields
  obtain ⟨found, total, hfound, hfold⟩ := fold_of_decodeIndex h
  obtain rfl := holds_unique hdocuments hfound
  obtain ⟨doc, hdoc, n, n', hread⟩ :=
    (collects_documents.mem_of_field hfold).2 document hmem ⟨hnumber, hwire⟩
  have hdocfold := (decodeFields_holds hoccurrences).mp hread
  obtain ⟨occ, hocc, hread'⟩ :=
    (collects_occurrences.mem_of_field hdocfold).2 occurrence hmem' ⟨hnumber', hwire'⟩
  obtain ⟨inner, hinner, hparts⟩ := holds_of_decodeOccurrence hread'
  obtain rfl := holds_unique hholds hinner
  exact ⟨doc, hdoc, occ, hocc, hfields, hparts⟩

theorem not_holdsUnpackedRange (h : decodeIndex s = .ok index) : ¬HoldsUnpackedRange s := by
  rintro ⟨fields, hfields, field, hmem, hnumber, hwire⟩
  obtain ⟨doc, -, occ, -, -, parts, hfold, -⟩ := mem_of_holdsOccurrence h hfields
  obtain ⟨u, u', hstep⟩ := step_of_foldlM hmem hfold
  simp only [occurrenceStep, hnumber, hwire] at hstep
  obtain ⟨values, hvalues, hstep⟩ := bind_eq_ok.mp hstep
  simp only [readInt32Values, hwire] at hvalues
  obtain ⟨value, -, heq⟩ := bind_eq_ok.mp hvalues
  obtain rfl := pure_eq_ok.mp heq
  obtain ⟨range, hrange, -⟩ := bind_eq_ok.mp hstep
  cases hrange

inductive RangeMove (u : PartialOccurrence) (field : Field) (u' : PartialOccurrence) : Prop
  | deprecated {values : List Nat} {range : ScipRange} (hnumber : field.number = 1)
    (hrange : rangeFromInt32s values = .ok range) (hu' : u' = { u with range := some range })
  | singleLine {range : ScipRange} (hnumber : field.number = 8) (hwire : field.wire = .len)
    (hrange : decodeSingleLineRange field.bytes = .ok range)
    (hu' : u' = { u with typedRange := some range })
  | multiLine {range : ScipRange} (hnumber : field.number = 9) (hwire : field.wire = .len)
    (hrange : decodeMultiLineRange field.bytes = .ok range)
    (hu' : u' = { u with typedRange := some range })
  | none (htyped : ¬IsTyped field) (hrange : u'.range = u.range)
    (htypedRange : u'.typedRange = u.typedRange)

theorem rangeMove_of_step {u u' : PartialOccurrence} (h : occurrenceStep u field = .ok u') :
    RangeMove u field u' := by
  have hread : field.number = 1 → readDeprecatedRange u field = .ok u' → RangeMove u field u' := by
    intro hnumber hstep
    obtain ⟨values, -, hstep⟩ := bind_eq_ok.mp hstep
    obtain ⟨range, hrange, hstep⟩ := bind_eq_ok.mp hstep
    exact .deprecated hnumber hrange (pure_eq_ok.mp hstep).symm
  unfold occurrenceStep at h
  split at h
  · next hnumber hwire => exact hread hnumber h
  · next hnumber hwire => exact hread hnumber h
  · next hnumber hwire =>
      obtain ⟨_, -, h⟩ := bind_eq_ok.mp h
      obtain rfl := pure_eq_ok.mp h
      exact .none (by simp [IsTyped, hnumber]) rfl rfl
  · next hnumber hwire =>
      obtain ⟨_, -, h⟩ := bind_eq_ok.mp h
      obtain rfl := pure_eq_ok.mp h
      exact .none (by simp [IsTyped, hnumber]) rfl rfl
  · next hnumber hwire =>
      obtain ⟨range, hrange, h⟩ := bind_eq_ok.mp h
      exact .singleLine hnumber hwire hrange (pure_eq_ok.mp h).symm
  · next hnumber hwire =>
      obtain ⟨range, hrange, h⟩ := bind_eq_ok.mp h
      exact .multiLine hnumber hwire hrange (pure_eq_ok.mp h).symm
  · next _ _ hsingle hmulti =>
      obtain rfl := Except.ok.inj h
      refine .none ?_ rfl rfl
      rintro ⟨hnumber | hnumber, hwire⟩
      · exact hsingle hnumber hwire
      · exact hmulti hnumber hwire

theorem rangeFromInt32s_ordered (h : rangeFromInt32s values = .ok range) :
    range.startLine ≤ range.endLine := by
  unfold rangeFromInt32s at h
  split at h
  · obtain rfl := Except.ok.inj h
    exact Nat.le_refl _
  · split_ifs at h with hinverted
    · cases h
    · obtain rfl := Except.ok.inj h
      exact not_lt.mp hinverted
  · cases h

theorem deprecated_ordered (h : fields.foldlM occurrenceStep {} = .ok parts) {range : ScipRange}
    (hrange : parts.range = some range) : range.startLine ≤ range.endLine := by
  have hstep : ∀ u field u', (∀ r, u.range = some r → r.startLine ≤ r.endLine) →
      occurrenceStep u field = .ok u' → ∀ r, u'.range = some r → r.startLine ≤ r.endLine := by
    intro u field u' hu hstep r hr
    cases rangeMove_of_step hstep with
    | deprecated hnumber hfound hu' =>
      rw [hu'] at hr
      obtain rfl := Option.some.inj hr
      exact rangeFromInt32s_ordered hfound
    | singleLine hnumber hwire hfound hu' =>
      rw [hu'] at hr
      exact hu r hr
    | multiLine hnumber hwire hfound hu' =>
      rw [hu'] at hr
      exact hu r hr
    | none htyped hsame htypedRange =>
      rw [hsame] at hr
      exact hu r hr
  exact foldlM_invariant (by simp) hstep h range hrange

theorem singleLine_ordered (h : decodeSingleLineRange s = .ok range) :
    range.startLine ≤ range.endLine := by
  obtain ⟨fields, -, hfold⟩ := holds_of_decodeFields h
  have hstep : ∀ u field u', u.startLine = u.endLine → singleLineRangeStep u field = .ok u' →
      u'.startLine = u'.endLine := by
    intro u field u' hu hstep
    unfold singleLineRangeStep at hstep
    split at hstep
    · obtain ⟨_, -, hstep⟩ := bind_eq_ok.mp hstep
      obtain rfl := pure_eq_ok.mp hstep
      rfl
    · obtain ⟨_, -, hstep⟩ := bind_eq_ok.mp hstep
      obtain rfl := pure_eq_ok.mp hstep
      exact hu
    · obtain ⟨_, -, hstep⟩ := bind_eq_ok.mp hstep
      obtain rfl := pure_eq_ok.mp hstep
      exact hu
    · obtain rfl := Except.ok.inj hstep
      exact hu
  exact Nat.le_of_eq (foldlM_invariant (I := fun u => u.startLine = u.endLine) rfl hstep hfold)

theorem typedRange_of_untyped {start : PartialOccurrence}
    (h : fields.foldlM occurrenceStep start = .ok parts) (hnone : ∀ field ∈ fields, ¬IsTyped field) :
    parts.typedRange = start.typedRange := by
  induction fields generalizing start with
  | nil =>
    obtain rfl := Except.ok.inj h
    rfl
  | cons first rest ih =>
    obtain ⟨u, hu, hrest⟩ := bind_eq_ok.mp h
    obtain ⟨hfirst, hothers⟩ := forall_mem_cons.mp hnone
    rw [ih hrest hothers]
    cases rangeMove_of_step hu with
    | deprecated hnumber hfound hu' => rw [hu']
    | singleLine hnumber hwire hfound hu' => exact absurd ⟨.inl hnumber, hwire⟩ hfirst
    | multiLine hnumber hwire hfound hu' => exact absurd ⟨.inr hnumber, hwire⟩ hfirst
    | none htyped hsame htypedRange => exact htypedRange

theorem typedRange_of_last {before after : List Field}
    (h : (before ++ field :: after).foldlM occurrenceStep {} = .ok parts) (htyped : IsTyped field)
    (hafter : ∀ other ∈ after, ¬IsTyped other) :
    ∃ range, parts.typedRange = some range ∧
      (field.number = 8 ∧ decodeSingleLineRange field.bytes = .ok range ∨
        field.number = 9 ∧ decodeMultiLineRange field.bytes = .ok range) := by
  rw [foldlM_append] at h
  obtain ⟨u, -, h⟩ := bind_eq_ok.mp h
  obtain ⟨u', hu', h⟩ := bind_eq_ok.mp h
  rw [typedRange_of_untyped h hafter]
  cases rangeMove_of_step hu' with
  | deprecated hnumber hfound heq =>
    rcases htyped.1 with h8 | h9
    · omega
    · omega
  | @singleLine range hnumber hwire hfound heq => exact ⟨range, by rw [heq], .inl ⟨hnumber, hfound⟩⟩
  | @multiLine range hnumber hwire hfound heq => exact ⟨range, by rw [heq], .inr ⟨hnumber, hfound⟩⟩
  | none huntyped hsame htypedRange => exact absurd htyped huntyped

theorem ordered_iff (h : decodeIndex s = .ok index) : Ordered index ↔ ¬HoldsInvertedRange s := by
  constructor
  · rintro hordered ⟨before, field, after, hfields, hnumber, hwire, hafter, range, hrange, hinverted⟩
    obtain ⟨doc, hdoc, occ, hocc, -, parts, hfold, rfl⟩ := mem_of_holdsOccurrence h hfields
    obtain ⟨found, hfound, hread⟩ := typedRange_of_last hfold ⟨.inr hnumber, hwire⟩ hafter
    rcases hread with ⟨h8, -⟩ | ⟨-, hread⟩
    · omega
    · obtain rfl := Except.ok.inj (hread.symm.trans hrange)
      have hle := hordered doc hdoc _ hocc found (by simp [PartialOccurrence.final, hfound])
      omega
  · intro hnone doc hdoc occ hocc range hrange
    obtain ⟨fields, hfields, parts, hfold, rfl⟩ := readOf_of_mem h hdoc hocc
    rcases exists_last IsTyped fields with huntyped | ⟨before, field, after, rfl, htyped, hafter⟩
    · have htyped := typedRange_of_untyped hfold huntyped
      simp only [PartialOccurrence.final, htyped, Option.none_or] at hrange
      exact deprecated_ordered hfold hrange
    · obtain ⟨found, hfound, hread⟩ := typedRange_of_last hfold htyped hafter
      simp only [PartialOccurrence.final, hfound, Option.some_or] at hrange
      obtain rfl := Option.some.inj hrange
      rcases hread with ⟨-, hread⟩ | ⟨hnumber, hread⟩
      · exact singleLine_ordered hread
      · by_contra hinverted
        exact hnone ⟨before, field, after, hfields, hnumber, htyped.2, hafter, found, hread,
          not_le.mp hinverted⟩

/-- Of the encodings of an index those without unpacked ranges are decoded to it, and of all that is
decoded the ranges are in order that no inverted range is the last of. -/
theorem roundTrip_iff (s : Slice) :
    (∀ index, WithinLimits index → IndexText index s →
      (decodeIndex s = .ok index ↔ ¬HoldsUnpackedRange s)) ∧
    ∀ index, decodeIndex s = .ok index → (Ordered index ↔ ¬HoldsInvertedRange s) := by
  constructor
  · intro index hlimits htext
    constructor
    · exact not_holdsUnpackedRange
    · exact decodeIndex_text htext hlimits
  · intro index h
    exact ordered_iff h

/-- One occurrence on line 1, from character 0 to 5. -/
def oneOccurrence : ScipIndex :=
  { documents := [{ occurrences := [{ range := some ⟨1, 0, 1, 5⟩ }] }] }

theorem oneOccurrence_withinLimits : WithinLimits oneOccurrence := by
  constructor <;> decide

theorem varint_byte {b : UInt8} (h : b.toNat < 128) : IsVarint [b] b.toNat :=
  ⟨.last h, by simp, by omega⟩

theorem tag_byte {b : UInt8} {wire : WireType} (h : b.toNat < 128)
    (hb : b.toNat = 8 * number + wire.number) (hpos : 0 < number) : IsTag [b] number wire :=
  ⟨hb ▸ .last h, by simp, hpos, by omega⟩

theorem oneOccurrence_text {occurrence document index : Slice}
    (hocc : OccurrenceText { range := some ⟨1, 0, 1, 5⟩ } occurrence) {b c : UInt8}
    (hb : b.toNat < 128) (hlength : b.toNat = occurrence.bytes.length)
    (hdoc : document.bytes = 0x12 :: b :: occurrence.bytes) (hc : c.toNat < 128)
    (hlength' : c.toNat = document.bytes.length)
    (hindex : index.bytes = 0x12 :: c :: document.bytes) : IndexText oneOccurrence index := by
  have htag : IsTag [0x12] 2 .len := tag_byte (by decide) rfl (by decide)
  have hmessage : ∀ (b : UInt8) (payload message : Slice), b.toNat < 128 →
      b.toNat = payload.bytes.length → message.bytes = 0x12 :: b :: payload.bytes →
      MessageText message.bytes [⟨2, .len, 0, payload⟩] := by
    intro b payload message hb hlength hbytes
    have hfield := FieldText.len htag (hlength ▸ varint_byte hb)
    have htext := MessageText.cons hfield .nil
    rw [append_nil] at htext
    rw [hbytes]
    exact htext
  have hdocument : DocumentText { occurrences := [{ range := some ⟨1, 0, 1, 5⟩ }] } document :=
    ⟨_, hmessage b occurrence document hb hlength hdoc, .occurrence .nil ⟨rfl, rfl, hocc⟩⟩
  exact ⟨_, hmessage c document index hc hlength' hindex, .document .nil ⟨rfl, rfl, hdocument⟩⟩

/-- The range in a field for each of its numbers. -/
def unpackedOccurrence : Slice := ⟨[0x08, 1, 0x08, 0, 0x08, 5], by decide⟩

def unpackedIndex : Slice :=
  ⟨[0x12, 8, 0x12, 6, 0x08, 1, 0x08, 0, 0x08, 5], by decide⟩

theorem unpackedOccurrence_text :
    OccurrenceText { range := some ⟨1, 0, 1, 5⟩ } unpackedOccurrence := by
  have htag : IsTag [0x08] 1 .varint := tag_byte (by decide) rfl (by decide)
  have hfield : ∀ b : UInt8, b.toNat < 128 → FieldText [0x08, b] ⟨1, .varint, b.toNat, .empty⟩ :=
    fun b hb => .varint htag (varint_byte hb)
  have htext : MessageText unpackedOccurrence.bytes
      [⟨1, .varint, 1, .empty⟩, ⟨1, .varint, 0, .empty⟩, ⟨1, .varint, 5, .empty⟩] :=
    .cons (hfield 1 (by decide)) (.cons (hfield 0 (by decide)) (.cons (hfield 5 (by decide)) .nil))
  refine ⟨_, { range := [1, 0, 5] }, _, htext, ?_, .oneLine, rfl⟩
  have hfirst := OccurrenceFields.unpacked .nil (by simp)
    (⟨rfl, rfl, rfl, by decide⟩ : IsNumber 1 (2 ^ 31) 1 ⟨1, .varint, 1, .empty⟩)
  have hsecond := hfirst.unpacked (by simp)
    (⟨rfl, rfl, rfl, by decide⟩ : IsNumber 1 (2 ^ 31) 0 ⟨1, .varint, 0, .empty⟩)
  exact hsecond.unpacked (by simp)
    (⟨rfl, rfl, rfl, by decide⟩ : IsNumber 1 (2 ^ 31) 5 ⟨1, .varint, 5, .empty⟩)

/-- A typed range from line 5 to line 2. -/
def invertedIndex : Slice :=
  ⟨[0x12, 8, 0x12, 6, 0x4A, 4, 0x08, 5, 0x18, 2], by decide⟩

/-- An unpacked range is refused, and an inverted one returned. -/
theorem unpacked_refused :
    (WithinLimits oneOccurrence ∧ IndexText oneOccurrence unpackedIndex ∧
      decodeIndex unpackedIndex ≠ .ok oneOccurrence) ∧
    ∃ index, decodeIndex invertedIndex = .ok index ∧ ¬Ordered index := by
  constructor
  · refine ⟨oneOccurrence_withinLimits, ?_, by decide +kernel⟩
    have hdoc : (⟨[0x12, 6, 0x08, 1, 0x08, 0, 0x08, 5], by decide⟩ : Slice).bytes =
        0x12 :: 6 :: unpackedOccurrence.bytes := rfl
    exact oneOccurrence_text unpackedOccurrence_text (by decide) rfl hdoc (c := 8) (by decide) rfl rfl
  · refine ⟨{ documents := [{ occurrences := [{ range := some ⟨5, 0, 2, 0⟩ }] }] },
      by decide +kernel, ?_⟩
    intro hordered
    have hle := hordered _ mem_cons_self _ mem_cons_self _ rfl
    exact absurd hle (by decide)

/-- The same range in one field. -/
def packedOccurrence : Slice := ⟨[0x0A, 3, 1, 0, 5], by decide⟩

def packedIndex : Slice := ⟨[0x12, 7, 0x12, 5, 0x0A, 3, 1, 0, 5], by decide⟩

theorem packedOccurrence_text : OccurrenceText { range := some ⟨1, 0, 1, 5⟩ } packedOccurrence := by
  have htag : IsTag [0x0A] 1 .len := tag_byte (by decide) rfl (by decide)
  have hvalues : PackedText [1, 0, 5] [1, 0, 5] :=
    .cons (varint_byte (b := 1) (by decide)) (by decide)
      (.cons (varint_byte (b := 0) (by decide)) (by decide)
        (.cons (varint_byte (b := 5) (by decide)) (by decide) .nil))
  have hlength : IsVarint [3] (⟨[1, 0, 5], by decide⟩ : Slice).bytes.length :=
    varint_byte (b := 3) (by decide)
  have hfield := FieldText.len htag hlength
  have htext : MessageText packedOccurrence.bytes [⟨1, .len, 0, ⟨[1, 0, 5], by decide⟩⟩] := by
    have happend := MessageText.cons hfield .nil
    rwa [append_nil] at happend
  exact ⟨_, { range := [1, 0, 5] }, _, htext,
    .packed .nil (by simp [numbers]) (by simp) ⟨rfl, rfl, hvalues⟩, .oneLine, rfl⟩

theorem packed_round_trips : ¬HoldsUnpackedRange packedIndex ∧ ¬HoldsInvertedRange packedIndex := by
  have hdecoded : decodeIndex packedIndex = .ok oneOccurrence := by decide +kernel
  have hdoc : (⟨[0x12, 5, 0x0A, 3, 1, 0, 5], by decide⟩ : Slice).bytes =
      0x12 :: 5 :: packedOccurrence.bytes := rfl
  have htext : IndexText oneOccurrence packedIndex :=
    oneOccurrence_text packedOccurrence_text (by decide) rfl hdoc (c := 7) (by decide) rfl rfl
  have hboth := roundTrip_iff packedIndex
  refine ⟨(hboth.1 oneOccurrence oneOccurrence_withinLimits htext).mp hdecoded, ?_⟩
  apply (hboth.2 oneOccurrence hdecoded).mp
  intro doc hdoc occ hocc range hrange
  obtain rfl := mem_singleton.mp hdoc
  obtain rfl := mem_singleton.mp hocc
  obtain rfl := Option.some.inj hrange
  decide

end EncodingRoundTrip
