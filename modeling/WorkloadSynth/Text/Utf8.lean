/-!
# Texts as bytes

File contents are lists of bytes.  `Utf8.encode` and `Utf8.decode` go between texts and bytes;
`Utf8.validLength` says how far a list of bytes is well formed, for error reports.
-/

namespace WorkloadSynth

/-- The contents of a file. -/
abbrev Bytes := List UInt8

namespace Utf8

/-- The bytes of a text. -/
def encode (s : String) : Bytes := s.toUTF8.data.toList

/-- The text that the bytes spell, if they are well formed. -/
def decode (bytes : Bytes) : Option String := String.fromUTF8? ⟨bytes.toArray⟩

/-- A byte that continues a character. -/
def isContinuation (b : UInt8) : Bool := 0x80 ≤ b && b ≤ 0xbf

/-- How many bytes the well-formed character at the front takes, zero if there is none.  The second
byte is restricted behind `e0`, `ed`, `f0` and `f4`, which rules out overlong forms, surrogates and
values beyond the last character. -/
def charLength : Bytes → Nat
  | [] => 0
  | a :: rest =>
    if a < 0x80 then 1
    else
      match rest with
      | [] => 0
      | b :: rest =>
        if 0xc2 ≤ a && a ≤ 0xdf then if isContinuation b then 2 else 0
        else
          match rest with
          | [] => 0
          | c :: rest =>
            let low : UInt8 := if a = 0xe0 then 0xa0 else if a = 0xf0 then 0x90 else 0x80
            let high : UInt8 := if a = 0xed then 0x9f else if a = 0xf4 then 0x8f else 0xbf
            if !(low ≤ b && b ≤ high && isContinuation c) then 0
            else if 0xe0 ≤ a && a ≤ 0xef then 3
            else
              match rest with
              | [] => 0
              | d :: _ => if 0xf0 ≤ a && a ≤ 0xf4 && isContinuation d then 4 else 0

/-- How many bytes at the front are whole well-formed characters; `fuel` bounds the number of
characters looked at. -/
def validPart : Nat → Bytes → Nat
  | 0, _ => 0
  | fuel + 1, bytes =>
    match charLength bytes with
    | 0 => 0
    | n => n + validPart fuel (bytes.drop n)

/-- The length of the longest well-formed beginning. -/
def validLength (bytes : Bytes) : Nat := validPart bytes.length bytes

end Utf8

end WorkloadSynth
