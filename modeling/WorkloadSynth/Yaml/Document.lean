import WorkloadSynth.Yaml.Node
import WorkloadSynth.Yaml.Token

/-!
# Configuration documents

Nodes are read from tokens by recursive descent.  Every function gives back the tokens behind its
node, and carries a fuel: a token is looked at by a bounded number of functions, so a small multiple
of the number of tokens is enough.  A file holds exactly one document, between optional markers.
-/

namespace WorkloadSynth.Yaml

/-- Where a node stands: which collections it can be. -/
inductive Setting where
  /-- Inside a flow collection: a scalar or a flow collection. -/
  | flow
  /-- In a block: any node. -/
  | block
  /-- Behind a key: any node, and a sequence may be as far left as the key. -/
  | behindKey
deriving DecidableEq, Repr

/-- A token in front of which a value of a block mapping is absent. -/
def endsBlockValue : Token → Bool
  | .key => true
  | .value => true
  | .blockEnd => true
  | _ => false

/-- A token in front of which an item of a block sequence is absent. -/
def endsBlockItem : Token → Bool
  | .blockEntry => true
  | .blockEnd => true
  | _ => false

/-- A token in front of which an item of a sequence as far left as its key is absent. -/
def endsLooseItem (t : Token) : Bool := endsBlockValue t || endsBlockItem t

/-- A token in front of which a value in a flow collection is absent. -/
def endsFlowValue (closing t : Token) : Bool := t = .flowEntry || t = closing

/-- A token in front of which a key in a flow collection is absent. -/
def endsFlowKey (closing t : Token) : Bool := t = .value || endsFlowValue closing t

/-- A token in front of which the contents of a marked document are absent. -/
def endsDocument : Token → Bool
  | .documentStart => true
  | .documentEnd => true
  | .streamEnd => true
  | _ => false

mutual

/-- A node. -/
def node : Nat → Setting → List Token → Option (Node × List Token)
  | 0, _, _ => none
  | fuel + 1, setting, tokens =>
    match tokens with
    | .scalar plain text :: rest => some (.scalar plain text, rest)
    | .flowSequence :: .flowSequenceEnd :: rest => some (.sequence [], rest)
    | .flowSequence :: rest => flowItem fuel [] rest
    | .flowMapping :: .flowMappingEnd :: rest => some (.mapping [], rest)
    | .flowMapping :: rest => flowPair fuel [] rest
    | .blockSequence :: rest => if setting = .flow then none else blockItems fuel [] rest
    | .blockMapping :: rest => if setting = .flow then none else blockPairs fuel [] rest
    | .blockEntry :: _ => if setting = .behindKey then looseItems fuel [] tokens else none
    | _ => none

/-- A node, or nothing in front of a token that ends its place. -/
def nodeUnless : Nat → (Token → Bool) → Setting → List Token → Option (Node × List Token)
  | 0, _, _, _ => none
  | fuel + 1, ends, setting, tokens =>
    if tokens.head?.any ends then some (.absent, tokens) else node fuel setting tokens

/-- The items of a block sequence; those so far are given last first. -/
def blockItems : Nat → List Node → List Token → Option (Node × List Token)
  | 0, _, _ => none
  | fuel + 1, items, tokens =>
    match tokens with
    | .blockEnd :: rest => some (.sequence items.reverse, rest)
    | .blockEntry :: rest => do
      let (item, rest) ← nodeUnless fuel endsBlockItem .block rest
      blockItems fuel (item :: items) rest
    | _ => none

/-- The items of a sequence as far left as its key; those so far are given last first. -/
def looseItems : Nat → List Node → List Token → Option (Node × List Token)
  | 0, _, _ => none
  | fuel + 1, items, tokens =>
    match tokens with
    | .blockEntry :: rest => do
      let (item, rest) ← nodeUnless fuel endsLooseItem .block rest
      looseItems fuel (item :: items) rest
    | _ => some (.sequence items.reverse, tokens)

/-- The value behind a key of a block mapping; nothing stands for a missing one. -/
def blockValue : Nat → List Token → Option (Node × List Token)
  | 0, _ => none
  | fuel + 1, tokens =>
    match tokens with
    | .value :: rest => nodeUnless fuel endsBlockValue .behindKey rest
    | _ => some (.absent, tokens)

/-- The entries of a block mapping; those so far are given last first. -/
def blockPairs : Nat → List (Node × Node) → List Token → Option (Node × List Token)
  | 0, _, _ => none
  | fuel + 1, entries, tokens =>
    match tokens with
    | .blockEnd :: rest => some (.mapping entries.reverse, rest)
    | .key :: rest => do
      let (key, rest) ← nodeUnless fuel endsBlockValue .behindKey rest
      let (value, rest) ← blockValue fuel rest
      blockPairs fuel ((key, value) :: entries) rest
    | .value :: _ => do
      let (value, rest) ← blockValue fuel tokens
      blockPairs fuel ((.absent, value) :: entries) rest
    | _ => none

/-- The value behind a key in a flow collection with the given closing bracket. -/
def flowValue : Nat → Token → List Token → Option (Node × List Token)
  | 0, _, _ => none
  | fuel + 1, closing, tokens =>
    match tokens with
    | .value :: rest => nodeUnless fuel (endsFlowValue closing) .flow rest
    | _ => some (.absent, tokens)

/-- The items of a flow sequence from the next one; those so far are given last first.  An item with
a colon behind it is a mapping of one entry; a key that is absent there takes the token in its place
with it. -/
def flowItem : Nat → List Node → List Token → Option (Node × List Token)
  | 0, _, _ => none
  | fuel + 1, items, tokens => do
    let (item, rest) ←
      match tokens with
      | .key :: rest => do
        let (key, rest) ←
          if rest.head?.any (endsFlowKey .flowSequenceEnd) then some (.absent, rest.drop 1)
          else node fuel .flow rest
        let (value, rest) ← flowValue fuel .flowSequenceEnd rest
        pure (Node.mapping [(key, value)], rest)
      | _ => node fuel .flow tokens
    match rest with
    | .flowSequenceEnd :: rest => some (.sequence (item :: items).reverse, rest)
    | .flowEntry :: .flowSequenceEnd :: rest => some (.sequence (item :: items).reverse, rest)
    | .flowEntry :: rest => flowItem fuel (item :: items) rest
    | _ => none

/-- The entries of a flow mapping from the next one; those so far are given last first. -/
def flowPair : Nat → List (Node × Node) → List Token → Option (Node × List Token)
  | 0, _, _ => none
  | fuel + 1, entries, tokens => do
    let (entry, rest) ←
      match tokens with
      | .key :: rest => do
        let (key, rest) ← nodeUnless fuel (endsFlowKey .flowMappingEnd) .flow rest
        let (value, rest) ← flowValue fuel .flowMappingEnd rest
        pure ((key, value), rest)
      | .value :: _ => do
        let (value, rest) ← flowValue fuel .flowMappingEnd tokens
        pure ((Node.absent, value), rest)
      | _ => do
        let (key, rest) ← node fuel .flow tokens
        pure ((key, Node.absent), rest)
    match rest with
    | .flowMappingEnd :: rest => some (.mapping (entry :: entries).reverse, rest)
    | .flowEntry :: .flowMappingEnd :: rest => some (.mapping (entry :: entries).reverse, rest)
    | .flowEntry :: rest => flowPair fuel (entry :: entries) rest
    | _ => none

end

/-! ## Files -/

/-- The single document of a list of tokens. -/
def document (tokens : List Token) : Option Node := do
  let fuel := 4 * tokens.length + 4
  let (contents, rest) ←
    match tokens with
    | .documentStart :: rest => nodeUnless fuel endsDocument .block rest
    | tokens => node fuel .block tokens
  if rest.dropWhile (· = .documentEnd) = [.streamEnd] then some contents else none

/-- The single document of a file; a null character ends the file. -/
def parse (text : String) : Option Node :=
  (tokens (unifyBreaks (text.toList.takeWhile (· ≠ '\x00')))).bind document

end WorkloadSynth.Yaml
