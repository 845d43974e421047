import WorkloadSynth.Number.Literal
import WorkloadSynth.Yaml.Cursor

/-!
# Scalars of a configuration document

The three spellings of scalars, and the folding of line breaks inside them: a single break counts as
a space, further ones as themselves.
-/

namespace WorkloadSynth.Yaml

/-- A scanned scalar. -/
structure Scanned where
  text : List Char
  /-- A line break was passed behind its last character. -/
  broke : Bool
  cursor : Cursor

/-- What blanks (last first) and breaks between two characters of a scalar become, in front of the
characters so far, which are last first too. -/
def foldGap (blanks : List Char) (breaks : Nat) (text : List Char) : List Char :=
  match breaks with
  | 0 => blanks ++ text
  | 1 => ' ' :: text
  | n + 1 => List.replicate n '\n' ++ text

/-! ## Plain scalars -/

/-- Does a plain scalar end in front of this character, wherever it stands? -/
def endsPlain (flow : Bool) (c : Char) (rest : List Char) : Bool :=
  (c = ':' && (startsBlank rest || (flow && startsFlowMark rest))) || (flow && isFlowMark c)

/-- Does a plain scalar end in front of this character behind a gap?  Outside flow collections its
lines begin in the column `margin` or to the right of it. -/
def endsPlainBehindGap (flow : Bool) (margin : Nat) (cursor : Cursor) : Bool :=
  (!flow && cursor.place.column < margin) || cursor.atMarker || cursor.rest.head? = some '#'

/-- Scans a plain scalar and the gap behind it.  `text`, and `blanks` since its last character, are
last first.  A tab is refused left of the margin. -/
def plainFrom (flow : Bool) (margin : Nat) (text blanks : List Char) (breaks : Nat)
    (place : Place) : List Char → Option Scanned
  | [] => some ⟨text.reverse, 0 < breaks, ⟨[], place⟩⟩
  | c :: rest =>
    if isBreak c then plainFrom flow margin text [] (breaks + 1) (place.past c) rest
    else if isSpaceOrTab c then
      if c = '\t' && 0 < breaks && place.column < margin then none
      else
        plainFrom flow margin text (if breaks = 0 then c :: blanks else blanks) breaks
          (place.past c) rest
    else if (0 < breaks || !blanks.isEmpty) &&
        endsPlainBehindGap flow margin ⟨c :: rest, place⟩ then
      some ⟨text.reverse, 0 < breaks, ⟨c :: rest, place⟩⟩
    else if endsPlain flow c rest then some ⟨text.reverse, 0 < breaks, ⟨c :: rest, place⟩⟩
    else plainFrom flow margin (c :: foldGap blanks breaks text) [] 0 (place.past c) rest

/-- A plain scalar at a cursor. -/
def scanPlain (flow : Bool) (margin : Nat) (cursor : Cursor) : Option Scanned :=
  plainFrom flow margin [] [] 0 cursor.place cursor.rest

/-! ## Quoted scalars -/

/-- The character that a one-letter escape stands for. -/
def escape? : Char → Option Char
  | '0' => some '\x00'
  | 'a' => some '\x07'
  | 'b' => some '\x08'
  | 't' => some '\t'
  | '\t' => some '\t'
  | 'n' => some '\n'
  | 'v' => some '\x0b'
  | 'f' => some '\x0c'
  | 'r' => some '\r'
  | 'e' => some '\x1b'
  | ' ' => some ' '
  | '\x22' => some '\x22'
  | '\x27' => some '\x27'
  | '\\' => some '\\'
  | 'N' => some '\x85'
  | '_' => some '\xa0'
  | 'L' => some '\u2028'
  | 'P' => some '\u2029'
  | _ => none

/-- How many hexadecimal digits follow an escape letter. -/
def escapeWidth? : Char → Option Nat
  | 'x' => some 2
  | 'u' => some 4
  | 'U' => some 8
  | _ => none

/-- The character whose code point is written in so many hexadecimal digits. -/
def charOfHex? (width : Nat) (digits : List Char) : Option Char := do
  if digits.length < width then none
  let code ← (readDigits 16 (digits.take width) 0).toOption
  if h : code.isValidChar then some (Char.ofNatAux code h) else none

/-- What a backslash asks for. -/
inductive Escape where
  /-- A character, spelled by this many characters together with the backslash. -/
  | char (c : Char) (width : Nat)
  /-- The line goes on in the next one. -/
  | lineBreak

/-- Reads what follows a backslash. -/
def readEscape : List Char → Option Escape
  | [] => none
  | c :: rest =>
    if isBreak c then some .lineBreak
    else
      match escape? c with
      | some e => some (.char e 2)
      | none =>
        (escapeWidth? c).bind fun width => (charOfHex? width rest).map fun e => .char e (2 + width)

/-- Scans a quoted scalar behind its opening quote.  `text`, and `blanks` since its last character,
are last first; `held` is set behind an escaped break, which leaves nothing of itself. -/
def quotedFrom (mark : Char) : Nat → List Char → List Char → Nat → Bool → Cursor → Option Scanned
  | 0, _, _, _, _, _ => none
  | fuel + 1, text, blanks, breaks, held, cursor =>
    match cursor.rest with
    | [] => none
    | c :: rest =>
      if isBreak c then quotedFrom mark fuel text [] (breaks + 1) held cursor.pass
      else if isSpaceOrTab c then
        quotedFrom mark fuel text (if breaks = 0 && !held then c :: blanks else blanks) breaks held
          cursor.pass
      else if cursor.atMarker then none
      else
        let text := if held then List.replicate breaks '\n' ++ text else foldGap blanks breaks text
        if c = mark then
          if mark = '\x27' && rest.head? = some mark then
            quotedFrom mark fuel (c :: text) [] 0 false (cursor.skip 2)
          else some ⟨text.reverse, false, cursor.pass⟩
        else if c = '\\' && mark = '\x22' then
          match readEscape rest with
          | none => none
          | some .lineBreak => quotedFrom mark fuel text [] 0 true (cursor.skip 2)
          | some (.char e width) => quotedFrom mark fuel (e :: text) [] 0 false (cursor.skip width)
        else quotedFrom mark fuel (c :: text) [] 0 false cursor.pass

/-- The quoted scalar whose opening quote stands at a cursor. -/
def scanQuoted (mark : Char) (cursor : Cursor) : Option Scanned :=
  quotedFrom mark (cursor.rest.length + 1) [] [] 0 false cursor.pass

end WorkloadSynth.Yaml
