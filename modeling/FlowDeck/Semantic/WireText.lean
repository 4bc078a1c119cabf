import FlowDeck.Semantic.WireReader

/-! How fields are written, and that they are read as they were written. -/

namespace WireText

open Checked WireReader Reader List

/-- The header of a field with a legal number. -/
structure IsTag (text : List UInt8) (number : Nat) (wire : WireType) : Prop where
  writes : Base128.Writes text (8 * number + wire.number)
  short : text.length ≤ 10
  positive : 0 < number
  legal : number < 2 ^ 29

/-- A number of 64 bits, in ten bytes at most. -/
structure IsVarint (text : List UInt8) (n : Nat) : Prop where
  writes : Base128.Writes text n
  short : text.length ≤ 10
  bounded : n < 2 ^ 64

inductive FieldText : List UInt8 → Field → Prop
  | varint {tag text : List UInt8} {number n : Nat} (htag : IsTag tag number .varint)
    (htext : IsVarint text n) : FieldText (tag ++ text) ⟨number, .varint, n, .empty⟩
  | len {tag text : List UInt8} {number : Nat} {payload : Slice} (htag : IsTag tag number .len)
    (htext : IsVarint text payload.bytes.length) :
    FieldText (tag ++ (text ++ payload.bytes)) ⟨number, .len, 0, payload⟩
  | i64 {tag fixed : List UInt8} {number : Nat} (htag : IsTag tag number .i64)
    (hsize : fixed.length = 8) : FieldText (tag ++ fixed) ⟨number, .i64, 0, .empty⟩
  | i32 {tag fixed : List UInt8} {number : Nat} (htag : IsTag tag number .i32)
    (hsize : fixed.length = 4) : FieldText (tag ++ fixed) ⟨number, .i32, 0, .empty⟩

/-- Fields one after another. -/
inductive MessageText : List UInt8 → List Field → Prop
  | nil : MessageText [] []
  | cons {text rest : List UInt8} {field : Field} {fields : List Field}
    (hfield : FieldText text field) (hrest : MessageText rest fields) :
    MessageText (text ++ rest) (field :: fields)

theorem fromU8_number (wire : WireType) : WireType.fromU8 wire.number = some wire := by
  cases wire with
  | varint => rfl
  | i64 => rfl
  | len => rfl
  | i32 => rfl

theorem number_lt (wire : WireType) : wire.number < 8 := by
  cases wire <;> decide

variable {r : Reader} {rest text : List UInt8} {number : Nat} {fields : List Field} {s : Slice}

theorem nextField_tag {tag : List UInt8} {wire : WireType} (h : IsTag tag number wire)
    (hrest : r.rest = tag ++ rest) :
    ∃ r₁ : Reader, r₁.rest = rest ∧ ∀ field r', r₁.readPayload number wire = .ok (field, r') →
      r.nextField = .ok (some (field, r')) := by
  have hwire := number_lt wire
  have hlegal := h.legal
  obtain ⟨r₁, hread, hr₁, -⟩ := readVarint_writes h.writes h.short (by omega) hrest
  have hsome : r.rest ≠ [] := by
    rw [hrest]
    simp [h.writes.ne_nil]
  have hmod : (8 * number + wire.number) % 8 = wire.number := by omega
  have hnumber : (8 * number + wire.number) / 8 % 2 ^ 32 = number := by omega
  refine ⟨r₁, hr₁, ?_⟩
  intro field r' hpayload
  simp only [nextField, if_neg hsome, hread, ok_bind, hmod, fromU8_number, hnumber, hpayload]
  rfl

theorem readFixed_size {fixed : List UInt8} {size : Nat} {wire : WireType}
    (hsize : fixed.length = size) (hrest : r.rest = fixed ++ rest) :
    ∃ r', r.readFixed number wire size = .ok (⟨number, wire, 0, .empty⟩, r') ∧ r'.rest = rest := by
  have hbounded := r.bounded
  have hlength : r.rest.length = size + rest.length := by
    rw [hrest, length_append, hsize]
  have hadvance : r.advance size = .ok (r.pos + size) := if_neg (by omega)
  have hinside : refuseIf (r.pos + r.rest.length < r.pos + size) (Stop.error .truncated) = .ok () :=
    refuseIf_eq_ok.mpr (by omega)
  refine ⟨r.skip size, ?_, ?_⟩
  · simp only [readFixed, hadvance, ok_bind, hinside]
    rfl
  · rw [rest_skip, hrest, ← hsize, drop_left]

theorem readLen_payload {payload : Slice} (h : IsVarint text payload.bytes.length)
    (hrest : r.rest = text ++ (payload.bytes ++ rest)) :
    ∃ r', r.readLen number = .ok (⟨number, .len, 0, payload⟩, r') ∧ r'.rest = rest := by
  obtain ⟨r₁, hread, hr₁, -⟩ := readVarint_writes h.writes h.short h.bounded hrest
  have hbounded := r₁.bounded
  have hlength : r₁.rest.length = payload.bytes.length + rest.length := by
    rw [hr₁, length_append]
  have hadvance : r₁.advance payload.bytes.length = .ok (r₁.pos + payload.bytes.length) :=
    if_neg (by omega)
  have hinside : refuseIf (r₁.pos + r₁.rest.length < r₁.pos + payload.bytes.length)
      (Stop.error .truncated) = .ok () := refuseIf_eq_ok.mpr (by omega)
  have htake : r₁.rest.take payload.bytes.length = payload.bytes := by
    rw [hr₁, take_left]
  have hslice : r₁.slice payload.bytes.length = .ok payload := by
    simp only [slice, if_neg (by omega : ¬r₁.rest.length < payload.bytes.length), htake]
  refine ⟨r₁.skip payload.bytes.length, ?_, ?_⟩
  · simp only [readLen, hread, ok_bind, hadvance, hinside, hslice]
    rfl
  · rw [rest_skip, hr₁, drop_left]

theorem nextField_text {field : Field} (h : FieldText text field) (hrest : r.rest = text ++ rest) :
    ∃ r', r.nextField = .ok (some (field, r')) ∧ r'.rest = rest := by
  cases h with
  | @varint tag text number n htag htext =>
    obtain ⟨r₁, hr₁, hnext⟩ := nextField_tag htag (hrest.trans (append_assoc _ _ _))
    obtain ⟨r', hread, hr', -⟩ := readVarint_writes htext.writes htext.short htext.bounded hr₁
    refine ⟨r', hnext _ _ ?_, hr'⟩
    simp only [readPayload, hread, ok_bind]
    rfl
  | @len tag text number payload htag htext =>
    obtain ⟨r₁, hr₁, hnext⟩ := nextField_tag htag (hrest.trans (append_assoc _ _ _))
    obtain ⟨r', hread, hr'⟩ := readLen_payload htext (hr₁.trans (append_assoc _ _ _))
    exact ⟨r', hnext _ _ hread, hr'⟩
  | @i64 tag fixed number htag hsize =>
    obtain ⟨r₁, hr₁, hnext⟩ := nextField_tag htag (hrest.trans (append_assoc _ _ _))
    obtain ⟨r', hread, hr'⟩ := readFixed_size hsize hr₁
    exact ⟨r', hnext _ _ hread, hr'⟩
  | @i32 tag fixed number htag hsize =>
    obtain ⟨r₁, hr₁, hnext⟩ := nextField_tag htag (hrest.trans (append_assoc _ _ _))
    obtain ⟨r', hread, hr'⟩ := readFixed_size hsize hr₁
    exact ⟨r', hnext _ _ hread, hr'⟩

theorem reads_text (h : MessageText text fields) {r : Reader} (hrest : r.rest = text) :
    ∃ r', Reads r fields r' ∧ r'.rest = [] := by
  induction h generalizing r with
  | nil => exact ⟨r, .nil r, hrest⟩
  | cons hfield hmore ih =>
    obtain ⟨r₁, hnext, hr₁⟩ := nextField_text hfield hrest
    obtain ⟨r', hreads, hend⟩ := ih hr₁
    exact ⟨r', .cons hnext hreads, hend⟩

/-- The fields of a message, when they can be read to its end. -/
def Holds (s : Slice) (fields : List Field) : Prop :=
  ∃ r, Reads (.ofSlice s) fields r ∧ r.rest = []

theorem holds_text (h : MessageText s.bytes fields) : Holds s fields := reads_text h rfl

theorem reads_unique {r₁ r₂ : Reader} {fields' : List Field} (h : Reads r fields r₁)
    (h' : Reads r fields' r₂) (h₁ : r₁.rest = []) (h₂ : r₂.rest = []) : fields = fields' := by
  induction h generalizing fields' r₂ with
  | nil r =>
    cases h' with
    | nil => rfl
    | cons hfield hrest =>
      rw [nextField_eq_none.mpr h₁] at hfield
      cases hfield
  | @cons r r₁ r₃ field fields hfield hrest ih =>
    cases h' with
    | nil =>
      rw [nextField_eq_none.mpr h₂] at hfield
      cases hfield
    | cons hfield' hrest' =>
      rw [hfield] at hfield'
      obtain ⟨rfl, rfl⟩ := Prod.mk.inj (Option.some.inj (Except.ok.inj hfield'))
      rw [ih hrest' h₁ h₂]

theorem holds_unique {fields' : List Field} (h : Holds s fields) (h' : Holds s fields') :
    fields = fields' := by
  obtain ⟨r, hreads, hend⟩ := h
  obtain ⟨r', hreads', hend'⟩ := h'
  exact reads_unique hreads hreads' hend hend'

section Fold

variable {σ : Type} {step : σ → Field → Except Stop σ} {start t : σ}

variable {s : Slice} {fields : List Field} {field : Field}

theorem decodeFields_holds (h : Holds s fields) :
    decodeFields step start s = .ok t ↔ fields.foldlM step start = .ok t := by
  rw [decodeFields_eq_ok]
  constructor
  · rintro ⟨fields', r, hreads, hend, hfold⟩
    rwa [holds_unique h ⟨r, hreads, hend⟩]
  · intro hfold
    obtain ⟨r, hreads, hend⟩ := h
    exact ⟨fields, r, hreads, hend, hfold⟩

theorem holds_of_decodeFields (h : decodeFields step start s = .ok t) :
    ∃ fields, Holds s fields ∧ fields.foldlM step start = .ok t := by
  obtain ⟨fields, r, hreads, hend, hfold⟩ := decodeFields_eq_ok.mp h
  exact ⟨fields, ⟨r, hreads, hend⟩, hfold⟩

theorem foldlM_concat {u : σ} (h : fields.foldlM step start = .ok u) :
    (fields ++ [field]).foldlM step start = step u field := by
  rw [foldlM_append, h, ok_bind, foldlM_cons]
  exact bind_pure _

/-- A loop that comes to the end has made its step for each field. -/
theorem step_of_foldlM (hmem : field ∈ fields) (h : fields.foldlM step start = .ok t) :
    ∃ u u', step u field = .ok u' := by
  induction fields generalizing start with
  | nil => exact absurd hmem not_mem_nil
  | cons first rest ih =>
    obtain ⟨u, hu, hrest⟩ := bind_eq_ok.mp h
    rcases mem_cons.mp hmem with rfl | hmem
    · exact ⟨start, u, hu⟩
    · exact ih hmem hrest

theorem foldlM_invariant {I : σ → Prop} (hstart : I start)
    (hstep : ∀ u field u', I u → step u field = .ok u' → I u')
    (h : fields.foldlM step start = .ok t) : I t := by
  induction fields generalizing start with
  | nil =>
    obtain rfl := Except.ok.inj h
    exact hstart
  | cons first rest ih =>
    obtain ⟨u, hu, hrest⟩ := bind_eq_ok.mp h
    exact ih (hstep start first u hstart hu) hrest

structure Collects {β : Type} (step : σ → Field → Except Stop σ) (items : σ → List β)
    (kind : Field → Prop) (read : Field → β → Prop) : Prop where
  adds : ∀ u field u', step u field = .ok u' → kind field →
    ∃ b, read field b ∧ items u' = items u ++ [b]
  keeps : ∀ u field u', step u field = .ok u' → ¬kind field → items u' = items u

variable {β : Type} {items : σ → List β} {kind : Field → Prop} {read : Field → β → Prop}

theorem Collects.read_of_mem (h : Collects step items kind read) {fields : List Field}
    (hfold : fields.foldlM step start = .ok t) {b : β} (hb : b ∈ items t) :
    b ∈ items start ∨ ∃ field ∈ fields, kind field ∧ read field b := by
  induction fields generalizing start with
  | nil =>
    obtain rfl := Except.ok.inj hfold
    exact .inl hb
  | cons first rest ih =>
    obtain ⟨u, hu, hrest⟩ := bind_eq_ok.mp hfold
    rcases ih hrest with hmem | ⟨field, hfield, hread⟩
    · by_cases hkind : kind first
      · obtain ⟨b', hread, hitems⟩ := h.adds start first u hu hkind
        rw [hitems, mem_append, mem_singleton] at hmem
        rcases hmem with hmem | rfl
        · exact .inl hmem
        · exact .inr ⟨first, mem_cons_self, hkind, hread⟩
      · rw [h.keeps start first u hu hkind] at hmem
        exact .inl hmem
    · exact .inr ⟨field, mem_cons_of_mem _ hfield, hread⟩

/-- Every field of the kind has its item among those held, and none is lost. -/
theorem Collects.mem_of_field (h : Collects step items kind read) {fields : List Field}
    (hfold : fields.foldlM step start = .ok t) :
    (∀ b ∈ items start, b ∈ items t) ∧
      ∀ field ∈ fields, kind field → ∃ b ∈ items t, read field b := by
  induction fields generalizing start with
  | nil =>
    obtain rfl := Except.ok.inj hfold
    simp
  | cons first rest ih =>
    obtain ⟨u, hu, hrest⟩ := bind_eq_ok.mp hfold
    obtain ⟨hkept, hfound⟩ := ih hrest
    by_cases hkind : kind first
    · obtain ⟨b', hread, hitems⟩ := h.adds start first u hu hkind
      rw [hitems] at hkept
      refine ⟨fun b hb => hkept b (mem_append_left _ hb), ?_⟩
      intro field hfield hfieldkind
      rcases mem_cons.mp hfield with rfl | hfield
      · exact ⟨b', hkept b' (by simp), hread⟩
      · exact hfound field hfield hfieldkind
    · rw [h.keeps start first u hu hkind] at hkept
      refine ⟨hkept, ?_⟩
      intro field hfield hfieldkind
      rcases mem_cons.mp hfield with rfl | hfield
      · exact absurd hfieldkind hkind
      · exact hfound field hfield hfieldkind

end Fold

/-- Among the elements of a list none has a property, or one of them is the last that has. -/
theorem exists_last {α : Type} (p : α → Prop) (xs : List α) :
    (∀ x ∈ xs, ¬p x) ∨
      ∃ before x after, xs = before ++ x :: after ∧ p x ∧ ∀ y ∈ after, ¬p y := by
  induction xs with
  | nil => simp
  | cons first rest ih =>
    rcases ih with hnone | ⟨before, x, after, rfl, hx, hafter⟩
    · by_cases hfirst : p first
      · exact .inr ⟨[], first, rest, rfl, hfirst, hnone⟩
      · left
        simp only [mem_cons, forall_eq_or_imp]
        exact ⟨hfirst, hnone⟩
    · exact .inr ⟨first :: before, x, after, rfl, hx, hafter⟩

end WireText
