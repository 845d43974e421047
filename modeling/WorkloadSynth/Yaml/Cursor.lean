/-!
# Reading a document character by character

A cursor is the list of characters that are left, together with the place of the next one.  What
separates tokens is white space and comments, and a break may be a line feed or a carriage return;
only a line feed begins a new line.
-/

namespace WorkloadSynth.Yaml

/-! ## Characters -/

/-- A line break.  Both characters together have been made one line feed before. -/
def isBreak (c : Char) : Bool := c = '\n' || c = '\r'

/-- A space or a tab. -/
def isSpaceOrTab (c : Char) : Bool := c = ' ' || c = '\t'

/-- Is the next character a blank, a break, or the end? -/
def startsBlank : List Char → Bool
  | [] => true
  | c :: _ => isSpaceOrTab c || isBreak c

/-- A bracket or comma of a flow collection. -/
def isFlowMark (c : Char) : Bool := c = ',' || c = '[' || c = ']' || c = '\x7b' || c = '\x7d'

/-- Is the next character a bracket or comma of a flow collection? -/
def startsFlowMark : List Char → Bool
  | [] => false
  | c :: _ => isFlowMark c

/-- Makes the two characters of a line end one. -/
def unifyBreaks : List Char → List Char
  | [] => []
  | '\r' :: '\n' :: rest => '\n' :: unifyBreaks rest
  | c :: rest => c :: unifyBreaks rest

/-! ## Places -/

/-- Where a character stands; everything is counted from zero. -/
structure Place where
  column : Nat
  line : Nat
  index : Nat
deriving DecidableEq, Repr

/-- The place behind a character. -/
def Place.past (p : Place) (c : Char) : Place :=
  if c = '\n' then ⟨0, p.line + 1, p.index + 1⟩ else ⟨p.column + 1, p.line, p.index + 1⟩

/-- The characters that are left and the place of the first of them. -/
structure Cursor where
  rest : List Char
  place : Place
deriving DecidableEq, Repr

namespace Cursor

/-- Moves over one character. -/
def pass (cursor : Cursor) : Cursor :=
  match cursor.rest with
  | [] => cursor
  | c :: rest => ⟨rest, cursor.place.past c⟩

/-- Moves over some characters. -/
def skip : Nat → Cursor → Cursor
  | 0, cursor => cursor
  | n + 1, cursor => skip n cursor.pass

/-- Three equal characters at the beginning of a line, with a blank behind them. -/
def startsMarker (mark : Char) (cursor : Cursor) : Bool :=
  cursor.place.column = 0 &&
    match cursor.rest with
    | a :: b :: c :: rest => a = mark && b = mark && c = mark && startsBlank rest
    | _ => false

/-- Does a document begin or end here? -/
def atMarker (cursor : Cursor) : Bool := cursor.startsMarker '-' || cursor.startsMarker '.'

end Cursor

/-! ## Gaps -/

/-- Passes what separates tokens.  Outside flow collections a break allows a key to follow, and
where a key may stand a tab is not passed, since it could be meant as indentation.  Gives the cursor
behind the gap and whether a key may stand there. -/
def passGap (flow keyAllowed comment : Bool) (place : Place) : List Char → Cursor × Bool
  | [] => (⟨[], place⟩, keyAllowed)
  | c :: rest =>
    if isBreak c then passGap flow (keyAllowed || !flow) false (place.past c) rest
    else if comment || c = ' ' || (c = '\t' && (flow || !keyAllowed)) then
      passGap flow keyAllowed comment (place.past c) rest
    else if c = '#' then passGap flow keyAllowed true (place.past c) rest
    else (⟨c :: rest, place⟩, keyAllowed)

end WorkloadSynth.Yaml
