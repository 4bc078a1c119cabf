import FlowDeck.Semantic.ScipDecoder
import FlowDeck.Semantic.WireText

/-! The encodings of an index, and which of them the decoder gives back. -/

namespace ScipEncoding

open Checked ScipModel WireReader Reader ScipDecoder WireText

def numbers (fields : List Field) : List Nat := fields.map Field.number

/-- A string within the limit. -/
structure IsText (number : Nat) (text : String) (field : Field) : Prop where
  number : field.number = number
  wire : field.wire = .len
  bytes : field.bytes.bytes = text.toByteArray.data.toList
  bounded : field.bytes.bytes.length ≤ maxScipStringBytes

structure IsNumber (number bound n : Nat) (field : Field) : Prop where
  number : field.number = number
  wire : field.wire = .varint
  value : field.varint = n
  bounded : n < bound

structure IsFlag (number : Nat) (flag : Bool) (field : Field) : Prop where
  number : field.number = number
  wire : field.wire = .varint
  value : field.varint = flag.toNat

structure IsMessage (number : Nat) (text : Slice → Prop) (field : Field) : Prop where
  number : field.number = number
  wire : field.wire = .len
  text : text field.bytes

/-! The fields of each message, in any order between the repeated ones; a field that is not repeated
stands once, or is left out when it has its default value. -/

inductive ToolInfoFields : ScipToolInfo → List Field → Prop
  | nil : ToolInfoFields {} []
  | name {info : ScipToolInfo} {fields : List Field} {field : Field} {name : String}
    (h : ToolInfoFields info fields) (hnew : 1 ∉ numbers fields) (hfield : IsText 1 name field) :
    ToolInfoFields { info with name } (fields ++ [field])
  | version {info : ScipToolInfo} {fields : List Field} {field : Field} {version : String}
    (h : ToolInfoFields info fields) (hnew : 2 ∉ numbers fields) (hfield : IsText 2 version field) :
    ToolInfoFields { info with version := some version } (fields ++ [field])
  | argument {info : ScipToolInfo} {fields : List Field} {field : Field} {argument : String}
    (h : ToolInfoFields info fields) (hfield : IsText 3 argument field) :
    ToolInfoFields { info with arguments := info.arguments ++ [argument] } (fields ++ [field])
  | unknown {info : ScipToolInfo} {fields : List Field} {field : Field}
    (h : ToolInfoFields info fields) (hfield : field.number ∉ [1, 2, 3]) :
    ToolInfoFields info (fields ++ [field])

def ToolInfoText (info : ScipToolInfo) (s : Slice) : Prop :=
  ∃ fields, MessageText s.bytes fields ∧ ToolInfoFields info fields

inductive MetadataFields : ScipMetadata → List Field → Prop
  | nil : MetadataFields {} []
  | version {metadata : ScipMetadata} {fields : List Field} {field : Field} {version : Nat}
    (h : MetadataFields metadata fields) (hnew : 1 ∉ numbers fields)
    (hfield : IsNumber 1 (2 ^ 32) version field) :
    MetadataFields { metadata with version } (fields ++ [field])
  | toolInfo {metadata : ScipMetadata} {fields : List Field} {field : Field} {info : ScipToolInfo}
    (h : MetadataFields metadata fields) (hnew : 2 ∉ numbers fields)
    (hfield : IsMessage 2 (ToolInfoText info) field) :
    MetadataFields { metadata with toolInfo := some info } (fields ++ [field])
  | projectRoot {metadata : ScipMetadata} {fields : List Field} {field : Field}
    {projectRoot : String} (h : MetadataFields metadata fields) (hnew : 3 ∉ numbers fields)
    (hfield : IsText 3 projectRoot field) :
    MetadataFields { metadata with projectRoot := some projectRoot } (fields ++ [field])
  | unknown {metadata : ScipMetadata} {fields : List Field} {field : Field}
    (h : MetadataFields metadata fields) (hfield : field.number ∉ [1, 2, 3]) :
    MetadataFields metadata (fields ++ [field])

def MetadataText (metadata : ScipMetadata) (s : Slice) : Prop :=
  ∃ fields, MessageText s.bytes fields ∧ MetadataFields metadata fields

inductive RelationshipFields : ScipRelationship → List Field → Prop
  | nil : RelationshipFields {} []
  | symbol {rel : ScipRelationship} {fields : List Field} {field : Field} {symbol : String}
    (h : RelationshipFields rel fields) (hnew : 1 ∉ numbers fields)
    (hfield : IsText 1 symbol field) :
    RelationshipFields { rel with symbol } (fields ++ [field])
  | isReference {rel : ScipRelationship} {fields : List Field} {field : Field} {isReference : Bool}
    (h : RelationshipFields rel fields) (hnew : 2 ∉ numbers fields)
    (hfield : IsFlag 2 isReference field) :
    RelationshipFields { rel with isReference } (fields ++ [field])
  | isImplementation {rel : ScipRelationship} {fields : List Field} {field : Field}
    {isImplementation : Bool} (h : RelationshipFields rel fields) (hnew : 3 ∉ numbers fields)
    (hfield : IsFlag 3 isImplementation field) :
    RelationshipFields { rel with isImplementation } (fields ++ [field])
  | isDefinition {rel : ScipRelationship} {fields : List Field} {field : Field}
    {isDefinition : Bool} (h : RelationshipFields rel fields) (hnew : 5 ∉ numbers fields)
    (hfield : IsFlag 5 isDefinition field) :
    RelationshipFields { rel with isDefinition } (fields ++ [field])
  | unknown {rel : ScipRelationship} {fields : List Field} {field : Field}
    (h : RelationshipFields rel fields) (hfield : field.number ∉ [1, 2, 3, 5]) :
    RelationshipFields rel (fields ++ [field])

def RelationshipText (rel : ScipRelationship) (s : Slice) : Prop :=
  ∃ fields, MessageText s.bytes fields ∧ RelationshipFields rel fields

inductive SymbolInformationFields : ScipSymbolInformation → List Field → Prop
  | nil : SymbolInformationFields {} []
  | symbol {info : ScipSymbolInformation} {fields : List Field} {field : Field} {symbol : String}
    (h : SymbolInformationFields info fields) (hnew : 1 ∉ numbers fields)
    (hfield : IsText 1 symbol field) :
    SymbolInformationFields { info with symbol } (fields ++ [field])
  | relationship {info : ScipSymbolInformation} {fields : List Field} {field : Field}
    {rel : ScipRelationship} (h : SymbolInformationFields info fields)
    (hfield : IsMessage 4 (RelationshipText rel) field) :
    SymbolInformationFields { info with relationships := info.relationships ++ [rel] }
      (fields ++ [field])
  | kind {info : ScipSymbolInformation} {fields : List Field} {field : Field} {kind : Nat}
    (h : SymbolInformationFields info fields) (hnew : 5 ∉ numbers fields)
    (hfield : IsNumber 5 (2 ^ 32) kind field) :
    SymbolInformationFields { info with kind } (fields ++ [field])
  | displayName {info : ScipSymbolInformation} {fields : List Field} {field : Field}
    {displayName : String} (h : SymbolInformationFields info fields) (hnew : 6 ∉ numbers fields)
    (hfield : IsText 6 displayName field) :
    SymbolInformationFields { info with displayName := some displayName } (fields ++ [field])
  | enclosingSymbol {info : ScipSymbolInformation} {fields : List Field} {field : Field}
    {enclosingSymbol : String} (h : SymbolInformationFields info fields)
    (hnew : 8 ∉ numbers fields) (hfield : IsText 8 enclosingSymbol field) :
    SymbolInformationFields { info with enclosingSymbol := some enclosingSymbol }
      (fields ++ [field])
  | unknown {info : ScipSymbolInformation} {fields : List Field} {field : Field}
    (h : SymbolInformationFields info fields) (hfield : field.number ∉ [1, 4, 5, 6, 8]) :
    SymbolInformationFields info (fields ++ [field])

def SymbolInformationText (info : ScipSymbolInformation) (s : Slice) : Prop :=
  ∃ fields, MessageText s.bytes fields ∧ SymbolInformationFields info fields

/-- A range on one line: its line, and its two characters. -/
inductive SingleLineFields : Nat × Nat × Nat → List Field → Prop
  | nil : SingleLineFields (0, 0, 0) []
  | line {l s e line : Nat} {fields : List Field} {field : Field}
    (h : SingleLineFields (l, s, e) fields) (hnew : 1 ∉ numbers fields)
    (hfield : IsNumber 1 (2 ^ 31) line field) :
    SingleLineFields (line, s, e) (fields ++ [field])
  | startCharacter {l s e startCharacter : Nat} {fields : List Field} {field : Field}
    (h : SingleLineFields (l, s, e) fields) (hnew : 2 ∉ numbers fields)
    (hfield : IsNumber 2 (2 ^ 31) startCharacter field) :
    SingleLineFields (l, startCharacter, e) (fields ++ [field])
  | endCharacter {l s e endCharacter : Nat} {fields : List Field} {field : Field}
    (h : SingleLineFields (l, s, e) fields) (hnew : 3 ∉ numbers fields)
    (hfield : IsNumber 3 (2 ^ 31) endCharacter field) :
    SingleLineFields (l, s, endCharacter) (fields ++ [field])
  | unknown {l s e : Nat} {fields : List Field} {field : Field}
    (h : SingleLineFields (l, s, e) fields) (hfield : field.number ∉ [1, 2, 3]) :
    SingleLineFields (l, s, e) (fields ++ [field])

inductive MultiLineFields : ScipRange → List Field → Prop
  | nil : MultiLineFields ⟨0, 0, 0, 0⟩ []
  | startLine {range : ScipRange} {startLine : Nat} {fields : List Field} {field : Field}
    (h : MultiLineFields range fields) (hnew : 1 ∉ numbers fields)
    (hfield : IsNumber 1 (2 ^ 31) startLine field) :
    MultiLineFields { range with startLine } (fields ++ [field])
  | startCharacter {range : ScipRange} {startCharacter : Nat} {fields : List Field} {field : Field}
    (h : MultiLineFields range fields) (hnew : 2 ∉ numbers fields)
    (hfield : IsNumber 2 (2 ^ 31) startCharacter field) :
    MultiLineFields { range with startCharacter } (fields ++ [field])
  | endLine {range : ScipRange} {endLine : Nat} {fields : List Field} {field : Field}
    (h : MultiLineFields range fields) (hnew : 3 ∉ numbers fields)
    (hfield : IsNumber 3 (2 ^ 31) endLine field) :
    MultiLineFields { range with endLine } (fields ++ [field])
  | endCharacter {range : ScipRange} {endCharacter : Nat} {fields : List Field} {field : Field}
    (h : MultiLineFields range fields) (hnew : 4 ∉ numbers fields)
    (hfield : IsNumber 4 (2 ^ 31) endCharacter field) :
    MultiLineFields { range with endCharacter } (fields ++ [field])
  | unknown {range : ScipRange} {fields : List Field} {field : Field}
    (h : MultiLineFields range fields) (hfield : field.number ∉ [1, 2, 3, 4]) :
    MultiLineFields range (fields ++ [field])

def SingleLineText (range : ScipRange) (s : Slice) : Prop :=
  ∃ fields, MessageText s.bytes fields ∧ range.endLine = range.startLine ∧
    SingleLineFields (range.startLine, range.startCharacter, range.endCharacter) fields

def MultiLineText (range : ScipRange) (s : Slice) : Prop :=
  ∃ fields, MessageText s.bytes fields ∧ MultiLineFields range fields

/-- Numbers of a packed field. -/
inductive PackedText : List UInt8 → List Nat → Prop
  | nil : PackedText [] []
  | cons {text rest : List UInt8} {n : Nat} {values : List Nat} (htext : IsVarint text n)
    (hn : n < 2 ^ 31) (hrest : PackedText rest values) : PackedText (text ++ rest) (n :: values)

/-- An occurrence as it is transmitted: the numbers of its range in the deprecated encoding, and its
typed range. -/
structure OccurrenceMessage where
  symbol : String := ""
  symbolRoles : Nat := 0
  range : List Nat := []
  typedRange : Option ScipRange := none

/-- The deprecated range, if there is one, is packed into one field or has a field for each number;
the two typed encodings of a range exclude each other. -/
inductive OccurrenceFields : OccurrenceMessage → List Field → Prop
  | nil : OccurrenceFields {} []
  | packed {m : OccurrenceMessage} {fields : List Field} {field : Field} {range : List Nat}
    (h : OccurrenceFields m fields) (hnew : 1 ∉ numbers fields) (hsome : range ≠ [])
    (hfield : IsMessage 1 (fun s => PackedText s.bytes range) field) :
    OccurrenceFields { m with range } (fields ++ [field])
  | unpacked {m : OccurrenceMessage} {fields : List Field} {field : Field} {value : Nat}
    (h : OccurrenceFields m fields)
    (hmore : ∀ other ∈ fields, other.number = 1 → other.wire = .varint)
    (hfield : IsNumber 1 (2 ^ 31) value field) :
    OccurrenceFields { m with range := m.range ++ [value] } (fields ++ [field])
  | symbol {m : OccurrenceMessage} {fields : List Field} {field : Field} {symbol : String}
    (h : OccurrenceFields m fields) (hnew : 2 ∉ numbers fields)
    (hfield : IsText 2 symbol field) :
    OccurrenceFields { m with symbol } (fields ++ [field])
  | symbolRoles {m : OccurrenceMessage} {fields : List Field} {field : Field} {symbolRoles : Nat}
    (h : OccurrenceFields m fields) (hnew : 3 ∉ numbers fields)
    (hfield : IsNumber 3 (2 ^ 32) symbolRoles field) :
    OccurrenceFields { m with symbolRoles } (fields ++ [field])
  | singleLine {m : OccurrenceMessage} {fields : List Field} {field : Field} {range : ScipRange}
    (h : OccurrenceFields m fields) (hnew : 8 ∉ numbers fields) (hother : 9 ∉ numbers fields)
    (hfield : IsMessage 8 (SingleLineText range) field) :
    OccurrenceFields { m with typedRange := some range } (fields ++ [field])
  | multiLine {m : OccurrenceMessage} {fields : List Field} {field : Field} {range : ScipRange}
    (h : OccurrenceFields m fields) (hnew : 9 ∉ numbers fields) (hother : 8 ∉ numbers fields)
    (hfield : IsMessage 9 (MultiLineText range) field) :
    OccurrenceFields { m with typedRange := some range } (fields ++ [field])
  | unknown {m : OccurrenceMessage} {fields : List Field} {field : Field}
    (h : OccurrenceFields m fields) (hfield : field.number ∉ [1, 2, 3, 8, 9]) :
    OccurrenceFields m (fields ++ [field])

/-- What the numbers of the deprecated encoding stand for. -/
inductive DeprecatedRange : List Nat → Option ScipRange → Prop
  | absent : DeprecatedRange [] none
  | oneLine {l s e : Nat} : DeprecatedRange [l, s, e] (some ⟨l, s, l, e⟩)
  | lines {sl sc el ec : Nat} (h : sl ≤ el) : DeprecatedRange [sl, sc, el, ec] (some ⟨sl, sc, el, ec⟩)

def OccurrenceText (occ : ScipOccurrence) (s : Slice) : Prop :=
  ∃ fields m deprecated, MessageText s.bytes fields ∧ OccurrenceFields m fields ∧
    DeprecatedRange m.range deprecated ∧
    occ = ⟨m.symbol, m.symbolRoles, m.typedRange.or deprecated⟩

inductive DocumentFields : ScipDocument → List Field → Prop
  | nil : DocumentFields {} []
  | relativePath {doc : ScipDocument} {fields : List Field} {field : Field} {relativePath : String}
    (h : DocumentFields doc fields) (hnew : 1 ∉ numbers fields)
    (hfield : IsText 1 relativePath field) :
    DocumentFields { doc with relativePath } (fields ++ [field])
  | occurrence {doc : ScipDocument} {fields : List Field} {field : Field} {occ : ScipOccurrence}
    (h : DocumentFields doc fields) (hfield : IsMessage 2 (OccurrenceText occ) field) :
    DocumentFields { doc with occurrences := doc.occurrences ++ [occ] } (fields ++ [field])
  | symbol {doc : ScipDocument} {fields : List Field} {field : Field}
    {info : ScipSymbolInformation} (h : DocumentFields doc fields)
    (hfield : IsMessage 3 (SymbolInformationText info) field) :
    DocumentFields { doc with symbols := doc.symbols ++ [info] } (fields ++ [field])
  | language {doc : ScipDocument} {fields : List Field} {field : Field} {language : String}
    (h : DocumentFields doc fields) (hnew : 4 ∉ numbers fields)
    (hfield : IsText 4 language field) :
    DocumentFields { doc with language } (fields ++ [field])
  | unknown {doc : ScipDocument} {fields : List Field} {field : Field}
    (h : DocumentFields doc fields) (hfield : field.number ∉ [1, 2, 3, 4]) :
    DocumentFields doc (fields ++ [field])

def DocumentText (doc : ScipDocument) (s : Slice) : Prop :=
  ∃ fields, MessageText s.bytes fields ∧ DocumentFields doc fields

inductive IndexFields : ScipIndex → List Field → Prop
  | nil : IndexFields {} []
  | metadata {index : ScipIndex} {fields : List Field} {field : Field} {metadata : ScipMetadata}
    (h : IndexFields index fields) (hnew : 1 ∉ numbers fields)
    (hfield : IsMessage 1 (MetadataText metadata) field) :
    IndexFields { index with metadata := some metadata } (fields ++ [field])
  | document {index : ScipIndex} {fields : List Field} {field : Field} {doc : ScipDocument}
    (h : IndexFields index fields) (hfield : IsMessage 2 (DocumentText doc) field) :
    IndexFields { index with documents := index.documents ++ [doc] } (fields ++ [field])
  | externalSymbol {index : ScipIndex} {fields : List Field} {field : Field}
    {info : ScipSymbolInformation} (h : IndexFields index fields)
    (hfield : IsMessage 3 (SymbolInformationText info) field) :
    IndexFields { index with externalSymbols := index.externalSymbols ++ [info] }
      (fields ++ [field])
  | unknown {index : ScipIndex} {fields : List Field} {field : Field}
    (h : IndexFields index fields) (hfield : field.number ∉ [1, 2, 3]) :
    IndexFields index (fields ++ [field])

/-- A standard encoding of an index. -/
def IndexText (index : ScipIndex) (s : Slice) : Prop :=
  ∃ fields, MessageText s.bytes fields ∧ IndexFields index fields

def occurrenceCount (docs : List ScipDocument) : Nat :=
  (docs.map fun doc => doc.occurrences.length).sum

/-- The counts that the decoder limits; the lengths of strings are limited where they are written. -/
structure WithinLimits (index : ScipIndex) : Prop where
  documents : index.documents.length ≤ maxScipDocuments
  occurrences : occurrenceCount index.documents ≤ maxScipOccurrences
  symbols : ∀ doc ∈ index.documents, doc.symbols.length ≤ maxScipSymbolInfos
  externalSymbols : index.externalSymbols.length ≤ maxScipSymbolInfos

def HoldsOccurrence (s : Slice) (fields : List Field) : Prop :=
  ∃ documents, Holds s documents ∧ ∃ document ∈ documents, document.number = 2 ∧
    document.wire = .len ∧ ∃ occurrences, Holds document.bytes occurrences ∧
    ∃ occurrence ∈ occurrences, occurrence.number = 2 ∧ occurrence.wire = .len ∧
    Holds occurrence.bytes fields

/-- Some number of a range in the deprecated encoding has a field of its own. -/
def HoldsUnpackedRange (s : Slice) : Prop :=
  ∃ fields, HoldsOccurrence s fields ∧ ∃ field ∈ fields, field.number = 1 ∧ field.wire = .varint

def IsTyped (field : Field) : Prop := (field.number = 8 ∨ field.number = 9) ∧ field.wire = .len

/-- The last typed range of some occurrence goes from a line to an earlier one. -/
def HoldsInvertedRange (s : Slice) : Prop :=
  ∃ before field after, HoldsOccurrence s (before ++ field :: after) ∧ field.number = 9 ∧
    field.wire = .len ∧ (∀ other ∈ after, ¬IsTyped other) ∧
    ∃ range, decodeMultiLineRange field.bytes = .ok range ∧ range.endLine < range.startLine

def Ordered (index : ScipIndex) : Prop :=
  ∀ doc ∈ index.documents, ∀ occ ∈ doc.occurrences, ∀ range, occ.range = some range →
    range.startLine ≤ range.endLine

end ScipEncoding
