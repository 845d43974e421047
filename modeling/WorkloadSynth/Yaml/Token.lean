import WorkloadSynth.Yaml.Scalar

/-!
# Tokens of a configuration document

The scanner cuts a document into tokens.  The beginnings and ends of block collections are tokens
too, although only columns tell them: a collection begins with an item or key further right than the
ones around it, and ends in front of a token further left.  That a scalar or flow collection is a
key shows at the colon behind it, so the scanner keeps in mind which token could be one; a key
stands on one line with its colon, at most `keyReach` characters before it.
-/

namespace WorkloadSynth.Yaml

/-- A token of a document. -/
inductive Token where
  | documentStart
  | documentEnd
  | streamEnd
  | blockSequence
  | blockMapping
  | blockEnd
  | flowSequence
  | flowSequenceEnd
  | flowMapping
  | flowMappingEnd
  | blockEntry
  | flowEntry
  | key
  | value
  | scalar (plain : Bool) (text : String)
deriving DecidableEq, Repr

/-- A token that could be a key. -/
structure PossibleKey where
  /-- How many tokens stand before it. -/
  position : Nat
  place : Place
  /-- It stands where only a key can stand. -/
  required : Bool
deriving DecidableEq, Repr

/-- How far the colon can be from the beginning of its key. -/
def keyReach : Nat := 1024

/-- How many flow collections can be open at once. -/
def maxFlowDepth : Nat := 255

/-- A scanner in the middle of a document. -/
structure Scanner where
  cursor : Cursor
  /-- The tokens so far, last first. -/
  tokens : List Token
  /-- The columns of the open block collections, innermost first. -/
  blocks : List Nat
  /-- What could be a key in each open flow collection, innermost first, and outside them. -/
  keys : List (Option PossibleKey)
  /-- May a key stand here? -/
  keyAllowed : Bool
  /-- The index behind the last quoted scalar, where a colon needs no blank. -/
  quotedEnd : Nat

namespace Scanner

/-- The scanner in front of a text. -/
def initial (text : List Char) : Scanner where
  cursor := ⟨text, ⟨0, 0, 0⟩⟩
  tokens := []
  blocks := []
  keys := [none]
  keyAllowed := true
  quotedEnd := 0

/-- How many flow collections are open. -/
def flowDepth (s : Scanner) : Nat := s.keys.length - 1

/-- Is the scanner inside a flow collection? -/
def inFlow (s : Scanner) : Bool := 0 < s.flowDepth

/-- The column of the next character. -/
def column (s : Scanner) : Nat := s.cursor.place.column

/-- The first column that is further right than the innermost block collection. -/
def margin (s : Scanner) : Nat :=
  match s.blocks with
  | [] => 0
  | column :: _ => column + 1

/-! ## Emitting -/

/-- Emits a token. -/
def emit (token : Token) (s : Scanner) : Scanner := { s with tokens := token :: s.tokens }

/-- Emits a token that is `width` characters long. -/
def emitHere (token : Token) (width : Nat) (s : Scanner) : Scanner :=
  { s with tokens := token :: s.tokens, cursor := s.cursor.skip width }

/-- Puts a token in front of those behind the first `position` ones. -/
def emitAt (position : Nat) (token : Token) (s : Scanner) : Scanner :=
  { s with tokens := s.tokens.insertIdx (s.tokens.length - position) token }

/-- Opens a block collection in a column, unless the innermost one is as far right; its beginning is
put behind the first `position` tokens. -/
def openBlock (column position : Nat) (token : Token) (s : Scanner) : Scanner :=
  if s.inFlow || column < s.margin then s
  else emitAt position token { s with blocks := column :: s.blocks }

/-- Closes the block collections that are further right than the column of the next token; all of
them at the end of a document. -/
def closeBlocks (column : Option Nat) (s : Scanner) : Scanner :=
  if s.inFlow then s
  else
    let closed := s.blocks.takeWhile fun block =>
      match column with
      | some column => column < block
      | none => true
    { s with
      tokens := List.replicate closed.length .blockEnd ++ s.tokens
      blocks := s.blocks.drop closed.length }

/-! ## Possible keys -/

/-- Gives up that a key begins at a token, unless only a key can stand there. -/
def dropKey (s : Scanner) : Option Scanner :=
  match s.keys with
  | some key :: keys => if key.required then none else some { s with keys := none :: keys }
  | _ => some s

/-- Notes that the next token could be a key, if one may stand here. -/
def noteKey (s : Scanner) : Option Scanner :=
  if s.keyAllowed then do
    let s ← s.dropKey
    let key : PossibleKey := {
      position := s.tokens.length
      place := s.cursor.place
      required := s.inFlow && s.blocks.head? = some s.column }
    some { s with keys := some key :: s.keys.drop 1 }
  else some s

/-- Gives up a possible key that is too far back. -/
def refreshKey (place : Place) : Option PossibleKey → Option (Option PossibleKey)
  | none => some none
  | some key =>
    if key.place.line < place.line || key.place.index + keyReach < place.index then
      if key.required then none else some none
    else some (some key)

/-- Passes the gap in front of the next token. -/
def advance (s : Scanner) : Option Scanner := do
  let (cursor, keyAllowed) := passGap s.inFlow s.keyAllowed false s.cursor.place s.cursor.rest
  let keys ← s.keys.mapM (refreshKey cursor.place)
  some (closeBlocks (some cursor.place.column) { s with cursor, keyAllowed, keys })

/-! ## Kinds of tokens -/

/-- A marker between documents. -/
def marker (token : Token) (s : Scanner) : Option Scanner := do
  let s ← (s.closeBlocks none).dropKey
  some (emitHere token 3 { s with keyAllowed := false })

/-- An opening bracket. -/
def openFlow (token : Token) (s : Scanner) : Option Scanner := do
  let s ← s.noteKey
  if s.flowDepth < maxFlowDepth then
    some (emitHere token 1 { s with keys := none :: s.keys, keyAllowed := true })
  else none

/-- A closing bracket. -/
def closeFlow (token : Token) (s : Scanner) : Option Scanner := do
  let s ← s.dropKey
  let keys := if s.inFlow then s.keys.drop 1 else s.keys
  some (emitHere token 1 { s with keys, keyAllowed := false })

/-- A comma. -/
def comma (s : Scanner) : Option Scanner := do
  let s ← s.dropKey
  some (emitHere .flowEntry 1 { s with keyAllowed := true })

/-- The dash of an item; there are none inside flow collections. -/
def dash (s : Scanner) : Option Scanner :=
  if s.inFlow || !s.keyAllowed then none
  else do
    let s ← (s.openBlock s.column s.tokens.length .blockSequence).dropKey
    some (emitHere .blockEntry 1 { s with keyAllowed := true })

/-- The question mark in front of a key that may be any node. -/
def questionMark (s : Scanner) : Option Scanner :=
  if s.inFlow then do
    let s ← s.dropKey
    some (emitHere .key 1 { s with keyAllowed := false })
  else if s.keyAllowed then do
    let s ← (s.openBlock s.column s.tokens.length .blockMapping).dropKey
    some (emitHere .key 1 s)
  else none

/-- The colon behind a key.  Without a key, nothing stands in its place. -/
def colon (s : Scanner) : Option Scanner :=
  match s.keys with
  | some key :: keys =>
    let s := (s.emitAt key.position .key).openBlock key.place.column key.position .blockMapping
    some (emitHere .value 1 { s with keys := none :: keys, keyAllowed := false })
  | _ =>
    if s.inFlow then some (emitHere .value 1 { s with keyAllowed := false })
    else if s.keyAllowed then
      some (emitHere .value 1 (s.openBlock s.column s.tokens.length .blockMapping))
    else none

/-- A scalar in quotes. -/
def quotedScalar (mark : Char) (s : Scanner) : Option Scanner := do
  let s ← s.noteKey
  let scanned ← scanQuoted mark s.cursor
  some (emit (.scalar false (String.ofList scanned.text))
    { s with
      cursor := scanned.cursor
      keyAllowed := false
      quotedEnd := scanned.cursor.place.index })

/-- A scalar without quotes. -/
def plainScalar (s : Scanner) : Option Scanner := do
  let s ← s.noteKey
  let scanned ← scanPlain s.inFlow s.margin s.cursor
  some (emit (.scalar true (String.ofList scanned.text))
    { s with cursor := scanned.cursor, keyAllowed := scanned.broke })

/-! ## Scanning -/

/-- Characters that begin what configurations are not written with: directives, anchors, tags and
block scalars. -/
def isReserved (flow : Bool) (c : Char) : Bool :=
  ['%', '@', '\x60', '*', '&', '!'].contains c || (!flow && (c = '|' || c = '>'))

/-- Is a colon the end of a key? -/
def endsKey (s : Scanner) (rest : List Char) : Bool :=
  startsBlank rest ||
    (s.inFlow && (startsFlowMark rest || s.cursor.place.index = s.quotedEnd))

/-- Scans the token that begins with a character. -/
def token (c : Char) (rest : List Char) (s : Scanner) : Option Scanner :=
  if s.cursor.startsMarker '-' then s.marker .documentStart
  else if s.cursor.startsMarker '.' then s.marker .documentEnd
  else if c = '[' then s.openFlow .flowSequence
  else if c = '\x7b' then s.openFlow .flowMapping
  else if c = ']' then s.closeFlow .flowSequenceEnd
  else if c = '\x7d' then s.closeFlow .flowMappingEnd
  else if c = ',' then s.comma
  else if c = '-' && startsBlank rest then s.dash
  else if c = '?' && startsBlank rest then s.questionMark
  else if c = ':' && s.endsKey rest then s.colon
  else if c = '\x22' || c = '\x27' then s.quotedScalar c
  else if isReserved s.inFlow c then none
  else s.plainScalar

/-- The tokens of the rest of a document; every token takes at least one character, so the number of
characters left is enough fuel. -/
def run : Nat → Scanner → Option (List Token)
  | 0, _ => none
  | fuel + 1, s => do
    let s ← s.advance
    match s.cursor.rest with
    | [] => (s.closeBlocks none).dropKey.map fun s => (s.emit .streamEnd).tokens.reverse
    | c :: rest => run fuel (← s.token c rest)

end Scanner

/-- The tokens of a text. -/
def tokens (text : List Char) : Option (List Token) :=
  (Scanner.initial text).run (text.length + 1)

end WorkloadSynth.Yaml
