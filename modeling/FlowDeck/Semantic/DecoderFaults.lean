import FlowDeck.Semantic.ScipDecoder

/-! When the decoder comes to an addition that wraps, and that it reads within payloads otherwise. -/

namespace DecoderFaults

open Checked ScipModel WireReader Reader ScipDecoder

def toolInfoOverruns : Slice → Prop := Overruns toolInfoStep {} fun _ _ => False

def metadataOverruns : Slice → Prop :=
  Overruns metadataStep {} fun _ field =>
    field.number = 2 ∧ field.wire = .len ∧ toolInfoOverruns field.bytes

def singleLineRangeOverruns : Slice → Prop :=
  Overruns singleLineRangeStep ⟨0, 0, 0, 0⟩ fun _ _ => False

def multiLineRangeOverruns : Slice → Prop :=
  Overruns multiLineRangeStep ⟨0, 0, 0, 0⟩ fun _ _ => False

def occurrenceOverruns : Slice → Prop :=
  Overruns occurrenceStep {} fun _ field =>
    field.number = 8 ∧ field.wire = .len ∧ singleLineRangeOverruns field.bytes ∨
      field.number = 9 ∧ field.wire = .len ∧ multiLineRangeOverruns field.bytes

def relationshipOverruns : Slice → Prop := Overruns relationshipStep {} fun _ _ => False

def symbolInformationOverruns : Slice → Prop :=
  Overruns symbolInformationStep {} fun _ field =>
    field.number = 4 ∧ field.wire = .len ∧ relationshipOverruns field.bytes

def documentOverruns (totalOccurrences : Nat) : Slice → Prop :=
  Overruns documentStep ({}, totalOccurrences) fun state field =>
    field.number = 2 ∧ field.wire = .len ∧ state.2 < maxScipOccurrences ∧
        occurrenceOverruns field.bytes ∨
      field.number = 3 ∧ field.wire = .len ∧ state.1.symbols.length < maxScipSymbolInfos ∧
        symbolInformationOverruns field.bytes

/-- In the index or in a nested message, before anything in it is refused, the decoder comes to a
length-delimited field whose announced length, added to the position of its payload, reaches
`2 ^ 64`. -/
def indexOverruns : Slice → Prop :=
  Overruns indexStep ({}, 0) fun state field =>
    field.number = 1 ∧ field.wire = .len ∧ metadataOverruns field.bytes ∨
      field.number = 2 ∧ field.wire = .len ∧ state.1.documents.length < maxScipDocuments ∧
        documentOverruns state.2 field.bytes ∨
      field.number = 3 ∧ field.wire = .len ∧
        state.1.externalSymbols.length < maxScipSymbolInfos ∧
        symbolInformationOverruns field.bytes

@[simp] theorem map_eq_fault {α β : Type} {x : Except Stop α} {f : α → β} :
    f <$> x = .error .fault ↔ x = .error .fault := by
  cases x with
  | error e => simp [Functor.map, Except.map]
  | ok a => simp [Functor.map, Except.map]

@[simp] theorem ok_ne_fault {α : Type} (a : α) : (Except.ok a : Except Stop α) ≠ .error .fault := nofun

@[simp] theorem i32FromVarint_ne_fault (v : Nat) : i32FromVarint v ≠ .error .fault := by
  unfold i32FromVarint
  split_ifs
  · exact refuse_ne_fault
  · exact ok_ne_fault v

@[simp] theorem u32FromVarint_ne_fault (v : Nat) : u32FromVarint v ≠ .error .fault := by
  unfold u32FromVarint
  split_ifs
  · exact refuse_ne_fault
  · exact ok_ne_fault v

@[simp] theorem readString_ne_fault (s : Slice) : readString s ≠ .error .fault := by
  unfold readString
  split_ifs
  · exact refuse_ne_fault
  · split
    · exact ok_ne_fault _
    · exact refuse_ne_fault

@[simp] theorem packedLoop_ne_fault (rounds : Nat) (r : Reader) (values : List Nat) :
    packedLoop rounds r values ≠ .error .fault := by
  induction rounds generalizing r values with
  | zero => exact ok_ne_fault values
  | succ rounds ih =>
    unfold packedLoop
    split_ifs
    · exact ok_ne_fault values
    · simp [bind_eq_fault, readVarint_ne_fault, ih]

@[simp] theorem readDeprecatedRange_ne_fault (occ : PartialOccurrence) (field : Field) :
    readDeprecatedRange occ field ≠ .error .fault := by
  have hvalues : readInt32Values field ≠ .error .fault := by
    unfold readInt32Values
    split
    · exact packedLoop_ne_fault _ _ _
    · simp
    · exact refuse_ne_fault
  have hrange : ∀ values, rangeFromInt32s values ≠ .error .fault := by
    intro values
    unfold rangeFromInt32s
    split
    · exact ok_ne_fault _
    · split_ifs
      · exact refuse_ne_fault
      · exact ok_ne_fault _
    · exact refuse_ne_fault
  simp [readDeprecatedRange, bind_eq_fault, hvalues, hrange]

variable {s : Slice}

theorem decodeToolInfo_eq_fault : decodeToolInfo s = .error .fault ↔ toolInfoOverruns s := by
  apply decodeFields_eq_fault
  intro info field
  unfold toolInfoStep
  split <;> simp

theorem decodeMetadata_eq_fault : decodeMetadata s = .error .fault ↔ metadataOverruns s := by
  apply decodeFields_eq_fault
  intro metadata field
  unfold metadataStep
  split <;> simp_all [decodeToolInfo_eq_fault]

theorem decodeSingleLineRange_eq_fault :
    decodeSingleLineRange s = .error .fault ↔ singleLineRangeOverruns s := by
  apply decodeFields_eq_fault
  intro range field
  unfold singleLineRangeStep
  split <;> simp

theorem decodeMultiLineRange_eq_fault :
    decodeMultiLineRange s = .error .fault ↔ multiLineRangeOverruns s := by
  apply decodeFields_eq_fault
  intro range field
  unfold multiLineRangeStep
  split <;> simp

theorem decodeOccurrence_eq_fault : decodeOccurrence s = .error .fault ↔ occurrenceOverruns s := by
  have hstep : ∀ occ field, occurrenceStep occ field = .error .fault ↔
      field.number = 8 ∧ field.wire = .len ∧ singleLineRangeOverruns field.bytes ∨
        field.number = 9 ∧ field.wire = .len ∧ multiLineRangeOverruns field.bytes := by
    intro occ field
    unfold occurrenceStep
    split <;> simp_all [decodeSingleLineRange_eq_fault, decodeMultiLineRange_eq_fault]
  simp [decodeOccurrence, decodeFields_eq_fault hstep, occurrenceOverruns]

theorem decodeRelationship_eq_fault :
    decodeRelationship s = .error .fault ↔ relationshipOverruns s := by
  apply decodeFields_eq_fault
  intro rel field
  unfold relationshipStep
  split <;> simp

theorem decodeSymbolInformation_eq_fault :
    decodeSymbolInformation s = .error .fault ↔ symbolInformationOverruns s := by
  apply decodeFields_eq_fault
  intro info field
  unfold symbolInformationStep
  split <;> simp_all [decodeRelationship_eq_fault]

@[simp] theorem limited_eq_fault {α : Type} {limit count : Nat} {e : ScipDecodeError}
    {x : Except Stop α} :
    (if limit ≤ count then refuse e else x) = .error .fault ↔ count < limit ∧ x = .error .fault := by
  split_ifs with hlimit
  · have hcount : ¬count < limit := not_lt.mpr hlimit
    simp [refuse, hcount]
  · have hcount : count < limit := not_le.mp hlimit
    simp [hcount]

theorem decodeDocument_eq_fault {totalOccurrences : Nat} :
    decodeDocument s totalOccurrences = .error .fault ↔ documentOverruns totalOccurrences s := by
  apply decodeFields_eq_fault
  rintro ⟨doc, total⟩ field
  simp only [documentStep]
  split <;> simp_all [decodeOccurrence_eq_fault, decodeSymbolInformation_eq_fault]

theorem decodeIndex_eq_fault : decodeIndex s = .error .fault ↔ indexOverruns s := by
  have hstep : ∀ (state : ScipIndex × Nat) field, indexStep state field = .error .fault ↔
      field.number = 1 ∧ field.wire = .len ∧ metadataOverruns field.bytes ∨
        field.number = 2 ∧ field.wire = .len ∧ state.1.documents.length < maxScipDocuments ∧
          documentOverruns state.2 field.bytes ∨
        field.number = 3 ∧ field.wire = .len ∧
          state.1.externalSymbols.length < maxScipSymbolInfos ∧
          symbolInformationOverruns field.bytes := by
    rintro ⟨index, total⟩ field
    simp only [indexStep]
    split <;> simp_all [decodeMetadata_eq_fault, decodeDocument_eq_fault,
      decodeSymbolInformation_eq_fault]
  simp [decodeIndex, decodeFields_eq_fault hstep, indexOverruns]

theorem suffix_of_reads {r r' : Reader} {fields : List Field} (h : Reads r fields r') :
    ∃ before, r.rest = before ++ r'.rest := by
  induction h with
  | nil r => exact ⟨[], rfl⟩
  | @cons r r₁ r₂ field fields hfield hrest ih =>
    obtain ⟨header, -, hheader⟩ := nextField_eq_some hfield
    obtain ⟨before, hbefore⟩ := ih
    refine ⟨header ++ (field.bytes.bytes ++ before), ?_⟩
    rw [hheader, hbefore]
    simp

/-- The payload of a field that is read of a message stands in the message, and what is read next
stands behind it. -/
def ReadWithin (message : Slice) : Prop :=
  ∀ fields r field r', Reads (ofSlice message) fields r → r.nextField = .ok (some (field, r')) →
    ∃ before, message.bytes = before ++ (field.bytes.bytes ++ r'.rest)

theorem readWithin (message : Slice) : ReadWithin message := by
  intro fields r field r' hreads hfield
  obtain ⟨before, hbefore⟩ := suffix_of_reads hreads
  obtain ⟨header, -, hheader⟩ := nextField_eq_some hfield
  refine ⟨before ++ header, ?_⟩
  rw [rest_ofSlice] at hbefore
  rw [hbefore, hheader, List.append_assoc]

/-- The decoder ends with an index or an error, whatever stops a reading otherwise, and no message,
nested or not, is read beyond its own payload. -/
def DecodesSafely (s : Slice) : Prop :=
  ((∃ index, decodeIndex s = .ok index) ∨ ∃ e, decodeIndex s = .error (.error e)) ∧
    ∀ message, ReadWithin message

theorem decodesSafely_iff (s : Slice) : DecodesSafely s ↔ ¬indexOverruns s := by
  rw [← decodeIndex_eq_fault]
  constructor
  · rintro ⟨hreturns, -⟩ hfault
    rw [hfault] at hreturns
    rcases hreturns with ⟨index, hindex⟩ | ⟨e, he⟩
    · cases hindex
    · cases he
  · intro hfault
    refine ⟨?_, readWithin⟩
    cases hdecode : decodeIndex s with
    | ok index => exact .inl ⟨index, rfl⟩
    | error stop =>
      cases stop with
      | error e => exact .inr ⟨e, rfl⟩
      | fault => exact absurd hdecode hfault

/-- The first field announces `2 ^ 64 - 1` bytes. -/
theorem greatest_length_faults :
    ¬DecodesSafely ⟨[0x0A, 255, 255, 255, 255, 255, 255, 255, 255, 255, 1], by decide⟩ := by
  rintro ⟨hreturns, -⟩
  have hfault : decodeIndex ⟨[0x0A, 255, 255, 255, 255, 255, 255, 255, 255, 255, 1], by decide⟩ =
      .error .fault := by decide +kernel
  rw [hfault] at hreturns
  rcases hreturns with ⟨index, hindex⟩ | ⟨e, he⟩
  · cases hindex
  · cases he

end DecoderFaults
