/-!
# Paths

A path is a text with slashes between names.  Joining keeps the spelling of both paths; the parent
of a path drops its last name, where repeated slashes and dots for the same directory do not count
as names unless a path begins with one.
-/

namespace WorkloadSynth

/-- A path as it is spelled. -/
structure Path where
  text : String
deriving DecidableEq, Repr

/-- Cuts a list of characters at slashes. -/
def splitSlashes : List Char → List (List Char)
  | [] => [[]]
  | c :: cs =>
    if c = '/' then [] :: splitSlashes cs
    else
      match splitSlashes cs with
      | [] => [[c]]
      | piece :: pieces => (c :: piece) :: pieces

/-- Joins pieces with slashes. -/
def joinSlashes : List (List Char) → List Char
  | [] => []
  | [piece] => piece
  | piece :: pieces => piece ++ '/' :: joinSlashes pieces

namespace Path

/-- Does the path begin at the root? -/
def isAbsolute (p : Path) : Bool := p.text.toList.head? = some '/'

/-- The pieces between the slashes. -/
def pieces (p : Path) : List String := (splitSlashes p.text.toList).map String.ofList

/-- A path below a base; an absolute one stays as it is. -/
def join (base p : Path) : Path :=
  if p.isAbsolute || base.text.isEmpty then p
  else if base.text.toList.getLast? = some '/' then ⟨base.text ++ p.text⟩
  else ⟨base.text ++ "/" ++ p.text⟩

/-- A piece behind the first that names nothing. -/
def isIdle (piece : List Char) : Bool := piece = [] || piece = ['.']

/-- Drops the idle pieces at the end; the pieces are given last first, and the first of a path is
idle only if it is empty. -/
def dropIdle : List (List Char) → List (List Char)
  | [] => []
  | [piece] => [piece]
  | piece :: pieces => if isIdle piece then dropIdle pieces else piece :: pieces

/-- The path without its last name, if it has a name. -/
def parent? (p : Path) : Option Path :=
  match dropIdle (splitSlashes p.text.toList).reverse with
  | [] => none
  | [piece] => if piece.isEmpty then none else some ⟨""⟩
  | _ :: before =>
    match dropIdle before with
    | [[]] => some ⟨"/"⟩
    | pieces => some ⟨String.ofList (joinSlashes pieces.reverse)⟩

/-- The path without slashes at its end; a root stays. -/
def trimSlashes (p : Path) : Path :=
  let kept := (p.text.toList.reverse.dropWhile (· = '/')).reverse
  if kept.isEmpty then ⟨String.ofList (p.text.toList.take 1)⟩ else ⟨String.ofList kept⟩

end Path

end WorkloadSynth
