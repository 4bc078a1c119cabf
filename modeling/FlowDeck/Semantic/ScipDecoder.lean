import FlowDeck.Semantic.WireReader

/-! The part of the SCIP protocol that is ingested, and its limits. -/

namespace ScipModel

structure ScipToolInfo where
  name : String := ""
  version : Option String := none
  arguments : List String := []
  deriving DecidableEq

structure ScipMetadata where
  version : Nat := 0
  toolInfo : Option ScipToolInfo := none
  projectRoot : Option String := none
  deriving DecidableEq

structure ScipRelationship where
  symbol : String := ""
  isReference : Bool := false
  isImplementation : Bool := false
  isDefinition : Bool := false
  deriving DecidableEq

structure ScipSymbolInformation where
  symbol : String := ""
  kind : Nat := 0
  displayName : Option String := none
  relationships : List ScipRelationship := []
  enclosingSymbol : Option String := none
  deriving DecidableEq

/-- A half-open source range. -/
structure ScipRange where
  startLine : Nat
  startCharacter : Nat
  endLine : Nat
  endCharacter : Nat
  deriving DecidableEq

structure ScipOccurrence where
  symbol : String := ""
  symbolRoles : Nat := 0
  range : Option ScipRange := none
  deriving DecidableEq

namespace ScipOccurrence

def isDefinition (occ : ScipOccurrence) : Bool := occ.symbolRoles.testBit 0

def isImport (occ : ScipOccurrence) : Bool := occ.symbolRoles.testBit 1

def isGenerated (occ : ScipOccurrence) : Bool := occ.symbolRoles.testBit 4

end ScipOccurrence

structure ScipDocument where
  language : String := ""
  relativePath : String := ""
  occurrences : List ScipOccurrence := []
  symbols : List ScipSymbolInformation := []
  deriving DecidableEq

structure ScipIndex where
  metadata : Option ScipMetadata := none
  documents : List ScipDocument := []
  externalSymbols : List ScipSymbolInformation := []
  deriving DecidableEq

def maxScipDocuments : Nat := 200000

/-- Summed across all documents. -/
def maxScipOccurrences : Nat := 5000000

def maxScipSymbolInfos : Nat := 1500000

def maxScipStringBytes : Nat := 4096

/-- Whether a symbol is local to its document. -/
def isLocalSymbol (symbol : String) : Bool :=
  "local ".toList.isPrefixOf symbol.toList || symbol = "local"

end ScipModel

namespace ScipDecoder

open Checked ScipModel WireReader

def i32FromVarint (v : Nat) : Except Stop Nat :=
  if 2 ^ 31 - 1 < v then refuse .negativeValue else .ok v

def u32FromVarint (v : Nat) : Except Stop Nat :=
  if 2 ^ 32 - 1 < v then refuse .negativeValue else .ok v

def readString (s : Slice) : Except Stop String :=
  if maxScipStringBytes < s.bytes.length then refuse (.stringTooLong s.bytes.length)
  else
    match String.fromUTF8? ⟨s.bytes.toArray⟩ with
    | some text => .ok text
    | none => refuse .invalidUtf8

/-- The numbers of a packed field, read one after another; each takes a byte at least. -/
def packedLoop : Nat → Reader → List Nat → Except Stop (List Nat)
  | 0, _, values => .ok values
  | rounds + 1, r, values =>
    if r.rest = [] then .ok values
    else do
      let (v, r) ← r.readVarint
      let value ← i32FromVarint v
      packedLoop rounds r (values ++ [value])

def readInt32Values (field : Field) : Except Stop (List Nat) :=
  match field.wire with
  | .len => packedLoop field.bytes.bytes.length (.ofSlice field.bytes) []
  | .varint => do
    let value ← i32FromVarint field.varint
    return [value]
  | wire => refuse (.unsupportedWireType wire.number)

/-- The deprecated encoding of a range by three or four numbers. -/
def rangeFromInt32s : List Nat → Except Stop ScipRange
  | [l, s, e] => .ok ⟨l, s, l, e⟩
  | [sl, sc, el, ec] => if el < sl then refuse .invalidRange else .ok ⟨sl, sc, el, ec⟩
  | _ => refuse .invalidRange

def singleLineRangeStep (range : ScipRange) (field : Field) : Except Stop ScipRange :=
  match field.number, field.wire with
  | 1, .varint => do
    let line ← i32FromVarint field.varint
    return { range with startLine := line, endLine := line }
  | 2, .varint => do
    let startCharacter ← i32FromVarint field.varint
    return { range with startCharacter }
  | 3, .varint => do
    let endCharacter ← i32FromVarint field.varint
    return { range with endCharacter }
  | _, _ => .ok range

def decodeSingleLineRange (s : Slice) : Except Stop ScipRange :=
  decodeFields singleLineRangeStep ⟨0, 0, 0, 0⟩ s

def multiLineRangeStep (range : ScipRange) (field : Field) : Except Stop ScipRange :=
  match field.number, field.wire with
  | 1, .varint => do
    let startLine ← i32FromVarint field.varint
    return { range with startLine }
  | 2, .varint => do
    let startCharacter ← i32FromVarint field.varint
    return { range with startCharacter }
  | 3, .varint => do
    let endLine ← i32FromVarint field.varint
    return { range with endLine }
  | 4, .varint => do
    let endCharacter ← i32FromVarint field.varint
    return { range with endCharacter }
  | _, _ => .ok range

def decodeMultiLineRange (s : Slice) : Except Stop ScipRange :=
  decodeFields multiLineRangeStep ⟨0, 0, 0, 0⟩ s

/-- What has been read of an occurrence; its `range` is in the deprecated encoding. -/
structure PartialOccurrence where
  symbol : String := ""
  symbolRoles : Nat := 0
  range : Option ScipRange := none
  typedRange : Option ScipRange := none

/-- A typed range takes precedence. -/
def PartialOccurrence.final (occ : PartialOccurrence) : ScipOccurrence where
  symbol := occ.symbol
  symbolRoles := occ.symbolRoles
  range := occ.typedRange.or occ.range

def readDeprecatedRange (occ : PartialOccurrence) (field : Field) :
    Except Stop PartialOccurrence := do
  let values ← readInt32Values field
  let range ← rangeFromInt32s values
  return { occ with range := some range }

def occurrenceStep (occ : PartialOccurrence) (field : Field) : Except Stop PartialOccurrence :=
  match field.number, field.wire with
  | 1, .len => readDeprecatedRange occ field
  | 1, .varint => readDeprecatedRange occ field
  | 2, .len => do
    let symbol ← readString field.bytes
    return { occ with symbol }
  | 3, .varint => do
    let symbolRoles ← u32FromVarint field.varint
    return { occ with symbolRoles }
  | 8, .len => do
    let range ← decodeSingleLineRange field.bytes
    return { occ with typedRange := some range }
  | 9, .len => do
    let range ← decodeMultiLineRange field.bytes
    return { occ with typedRange := some range }
  | _, _ => .ok occ

def decodeOccurrence (s : Slice) : Except Stop ScipOccurrence := do
  let occ ← decodeFields occurrenceStep {} s
  return occ.final

def relationshipStep (rel : ScipRelationship) (field : Field) : Except Stop ScipRelationship :=
  match field.number, field.wire with
  | 1, .len => do
    let symbol ← readString field.bytes
    return { rel with symbol }
  | 2, .varint => .ok { rel with isReference := field.varint ≠ 0 }
  | 3, .varint => .ok { rel with isImplementation := field.varint ≠ 0 }
  | 5, .varint => .ok { rel with isDefinition := field.varint ≠ 0 }
  | _, _ => .ok rel

def decodeRelationship (s : Slice) : Except Stop ScipRelationship :=
  decodeFields relationshipStep {} s

def symbolInformationStep (info : ScipSymbolInformation) (field : Field) :
    Except Stop ScipSymbolInformation :=
  match field.number, field.wire with
  | 1, .len => do
    let symbol ← readString field.bytes
    return { info with symbol }
  | 4, .len => do
    let rel ← decodeRelationship field.bytes
    return { info with relationships := info.relationships ++ [rel] }
  | 5, .varint => do
    let kind ← u32FromVarint field.varint
    return { info with kind }
  | 6, .len => do
    let displayName ← readString field.bytes
    return { info with displayName := some displayName }
  | 8, .len => do
    let enclosingSymbol ← readString field.bytes
    return { info with enclosingSymbol := some enclosingSymbol }
  | _, _ => .ok info

def decodeSymbolInformation (s : Slice) : Except Stop ScipSymbolInformation :=
  decodeFields symbolInformationStep {} s

def documentStep (state : ScipDocument × Nat) (field : Field) :
    Except Stop (ScipDocument × Nat) :=
  let (doc, totalOccurrences) := state
  match field.number, field.wire with
  | 1, .len => do
    let relativePath ← readString field.bytes
    return ({ doc with relativePath }, totalOccurrences)
  | 2, .len =>
    if maxScipOccurrences ≤ totalOccurrences then refuse (.occurrenceLimit maxScipOccurrences)
    else do
      let occ ← decodeOccurrence field.bytes
      return ({ doc with occurrences := doc.occurrences ++ [occ] }, totalOccurrences + 1)
  | 3, .len =>
    if maxScipSymbolInfos ≤ doc.symbols.length then refuse (.symbolLimit maxScipSymbolInfos)
    else do
      let info ← decodeSymbolInformation field.bytes
      return ({ doc with symbols := doc.symbols ++ [info] }, totalOccurrences)
  | 4, .len => do
    let language ← readString field.bytes
    return ({ doc with language }, totalOccurrences)
  | _, _ => .ok (doc, totalOccurrences)

def decodeDocument (s : Slice) (totalOccurrences : Nat) : Except Stop (ScipDocument × Nat) :=
  decodeFields documentStep ({}, totalOccurrences) s

def toolInfoStep (info : ScipToolInfo) (field : Field) : Except Stop ScipToolInfo :=
  match field.number, field.wire with
  | 1, .len => do
    let name ← readString field.bytes
    return { info with name }
  | 2, .len => do
    let version ← readString field.bytes
    return { info with version := some version }
  | 3, .len => do
    let argument ← readString field.bytes
    return { info with arguments := info.arguments ++ [argument] }
  | _, _ => .ok info

def decodeToolInfo (s : Slice) : Except Stop ScipToolInfo :=
  decodeFields toolInfoStep {} s

def metadataStep (metadata : ScipMetadata) (field : Field) : Except Stop ScipMetadata :=
  match field.number, field.wire with
  | 1, .varint => do
    let version ← u32FromVarint field.varint
    return { metadata with version }
  | 2, .len => do
    let info ← decodeToolInfo field.bytes
    return { metadata with toolInfo := some info }
  | 3, .len => do
    let projectRoot ← readString field.bytes
    return { metadata with projectRoot := some projectRoot }
  | _, _ => .ok metadata

def decodeMetadata (s : Slice) : Except Stop ScipMetadata :=
  decodeFields metadataStep {} s

def indexStep (state : ScipIndex × Nat) (field : Field) : Except Stop (ScipIndex × Nat) :=
  let (index, totalOccurrences) := state
  match field.number, field.wire with
  | 1, .len => do
    let metadata ← decodeMetadata field.bytes
    return ({ index with metadata := some metadata }, totalOccurrences)
  | 2, .len =>
    if maxScipDocuments ≤ index.documents.length then refuse (.documentLimit maxScipDocuments)
    else do
      let (doc, totalOccurrences) ← decodeDocument field.bytes totalOccurrences
      return ({ index with documents := index.documents ++ [doc] }, totalOccurrences)
  | 3, .len =>
    if maxScipSymbolInfos ≤ index.externalSymbols.length then
      refuse (.symbolLimit maxScipSymbolInfos)
    else do
      let info ← decodeSymbolInformation field.bytes
      return ({ index with externalSymbols := index.externalSymbols ++ [info] }, totalOccurrences)
  | _, _ => .ok (index, totalOccurrences)

def decodeIndex (s : Slice) : Except Stop ScipIndex := do
  let (index, _) ← decodeFields indexStep ({}, 0) s
  return index

end ScipDecoder
