/-!
# Blank characters

The white space of Unicode, with the two operations that depend on it: trimming a text and cutting
it into words.
-/

namespace WorkloadSynth

/-- White space: the ASCII controls from tab to carriage return, the space, and the blanks beyond
ASCII. -/
def isBlank (c : Char) : Bool :=
  let n := c.toNat
  (0x9 ≤ n && n ≤ 0xd) || n == 0x20 || n == 0x85 || n == 0xa0 || n == 0x1680 ||
    (0x2000 ≤ n && n ≤ 0x200a) || n == 0x2028 || n == 0x2029 || n == 0x202f || n == 0x205f ||
    n == 0x3000

/-- The characters between the blanks at both ends. -/
def trim (cs : List Char) : List Char :=
  ((cs.dropWhile isBlank).reverse.dropWhile isBlank).reverse

/-- Puts a character in front of the word that is being collected. -/
def addToWord (c : Char) : List (List Char) → List (List Char)
  | [] => [[c]]
  | w :: ws => (c :: w) :: ws

/-- The maximal runs of characters without a blank, with an empty run between two blanks. -/
def runs : List Char → List (List Char)
  | [] => [[]]
  | c :: cs => if isBlank c then [] :: runs cs else addToWord c (runs cs)

/-- The words of a text: its maximal non-empty runs without a blank. -/
def words (s : String) : List String :=
  ((runs s.toList).filter fun w => !w.isEmpty).map String.ofList

/-- Joins words by single spaces. -/
def unwords (ws : List String) : String := " ".intercalate ws

end WorkloadSynth
