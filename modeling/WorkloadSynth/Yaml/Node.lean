import WorkloadSynth.Number.Literal

/-!
# Nodes of a configuration document

A document is a tree of scalars, sequences and mappings.  Whether a scalar was written without
quotes decides what it can stand for: only plain scalars are numbers or nothing at all.
-/

namespace WorkloadSynth.Yaml

/-- A node of a document. -/
inductive Node where
  | scalar (plain : Bool) (text : String)
  | sequence (items : List Node)
  | mapping (entries : List (Node × Node))
deriving Repr

namespace Node

/-- The node where nothing is written. -/
def absent : Node := .scalar true "~"

/-- The text of a scalar. -/
def text? : Node → Option String
  | .scalar _ text => some text
  | _ => none

/-- Does the node stand for nothing? -/
def isNull : Node → Bool
  | .scalar true text => text = "~" || text = "null"
  | _ => false

/-! ## Whole numbers -/

/-- Does a text of digits begin with a needless zero?  It is not a number then. -/
def hasLeadingZero (cs : List Char) : Bool :=
  match cs with
  | '0' :: rest => !rest.isEmpty && rest.all isDecimalDigit
  | _ => false

/-- The characters behind an optional sign. -/
def dropSign : List Char → List Char
  | '+' :: rest => rest
  | '-' :: rest => rest
  | cs => cs

/-- The base that a marker behind an optional plus sign announces, with the digits. -/
def basedDigits? (cs : List Char) : Option (Nat × List Char) :=
  match (match cs with | '+' :: rest => rest | rest => rest) with
  | '0' :: 'x' :: digits => some (16, digits)
  | '0' :: 'o' :: digits => some (8, digits)
  | '0' :: 'b' :: digits => some (2, digits)
  | _ => none

/-- Is this a zero with a minus sign? -/
def isMinusZero (cs : List Char) : Bool :=
  match cs with
  | '-' :: '0' :: [] => true
  | '-' :: '0' :: marker :: digits =>
    (marker = 'x' || marker = 'o' || marker = 'b') && !digits.isEmpty && digits.all (· = '0')
  | _ => false

/-- The whole number that a plain scalar denotes: decimal digits, or digits of the base that `0x`,
`0o` or `0b` announces. -/
def wordOfPlain (cs : List Char) : Option UInt64 :=
  let based := (basedDigits? cs).bind fun (base, digits) => (readWord base digits).toOption
  match based with
  | some n => some n
  | none =>
    if isMinusZero cs then some 0
    else if hasLeadingZero (dropSign cs) then none
    else (readWord 10 cs).toOption

/-- The whole number that a node denotes. -/
def word? : Node → Option UInt64
  | .scalar true text => wordOfPlain text.toList
  | _ => none

/-! ## Structures -/

/-- The value under a name in a mapping; the name must not stand there twice. -/
def valueOf (entries : List (String × Node)) (name : String) : Option (Option Node) :=
  match entries.filter fun e => e.1 = name with
  | [] => some none
  | [(_, value)] => some (some value)
  | _ => none

/-- The values of named fields: from a mapping by name, other names being passed over, or from a
sequence by position. -/
def fields? (names : List String) : Node → Option (List (Option Node))
  | .mapping entries => do
    let named ← entries.mapM fun (key, value) => key.text?.map fun k => (k, value)
    names.mapM (valueOf named)
  | .sequence items =>
    if items.length ≤ names.length then
      some (items.map some ++ List.replicate (names.length - items.length) none)
    else none
  | .scalar .. => none

end Node

end WorkloadSynth.Yaml
