import WorkloadSynth.Text.Invisible
import WorkloadSynth.Text.Unassigned

/-!
# Quoted texts

`quoted` shows a text between double quotes for an error message: a quote, a backslash and the
common controls get a backslash, and whatever would not be seen is written as its code point.
-/

namespace WorkloadSynth

/-- The code point of a character in lower-case hexadecimal, without leading zeros. -/
def codePoint (c : Char) : String := String.ofList (Nat.toDigits 16 c.toNat)

/-- One character inside a quoted text. -/
def quotedChar (c : Char) : String :=
  if c = '\x22' then "\\\""
  else if c = '\\' then "\\\\"
  else if c = '\n' then "\\n"
  else if c = '\r' then "\\r"
  else if c = '\t' then "\\t"
  else if c = '\x00' then "\\0"
  else if isInvisible c || isUnassigned c then "\\u\x7b" ++ codePoint c ++ "\x7d"
  else String.singleton c

/-- A text in double quotes. -/
def quoted (s : String) : String := "\"" ++ String.join (s.toList.map quotedChar) ++ "\""

/-- A list of quoted texts in brackets. -/
def quotedList (ss : List String) : String := "[" ++ ", ".intercalate (ss.map quoted) ++ "]"

end WorkloadSynth
