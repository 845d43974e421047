import WorkloadSynth.AuditIndex.Row

/-!
# Merging audit indices

The indices of several shards are joined on application, count and popularity.  An application
stays if every shard lists it, and its traces are concatenated in shard order.
-/

namespace WorkloadSynth

namespace IndexRow

/-- The first row of every key. -/
def firstOfEachKey : List IndexRow → List IndexRow
  | [] => []
  | r :: rest => r :: (firstOfEachKey rest).filter fun other => other.key ≠ r.key

/-- The last row with a key. -/
def lastWithKey (rows : List IndexRow) (key : String × UInt64 × Popularity) : Option IndexRow :=
  rows.reverse.find? fun r => r.key = key

/-- Appends the traces of the rows with the same key in one more shard; rows without one are
dropped. -/
def join (merged shard : List IndexRow) : List IndexRow :=
  merged.filterMap fun r =>
    (lastWithKey shard r.key).map fun other => { r with indices := unwords (r.ids ++ other.ids) }

/-- Joins the index rows of all shards, in the order of the first. -/
def merge : List (List IndexRow) → List IndexRow
  | [] => []
  | first :: rest => rest.foldl join (firstOfEachKey first)

end IndexRow

end WorkloadSynth
