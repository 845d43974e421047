import WorkloadSynth.Proofs.IndexRows

/-!
# The inner join of shard indices

Rows may repeat a key within a shard.  The first shard answers for a key with its first row, and
every later shard with its last one.  What is merged has one row for each key that all shards have,
in the order of the first shard, and lists the traces of these rows in the order of the shards
(`merge_joins`).  One more shard filters the keys (`keys_join`) and extends the traces of the rows
that stay (`Sources.join`).
-/

namespace WorkloadSynth.IndexRow

/-! ## §1 — the rows that answer for a key -/

/-- No row with the same key stands before this one. -/
def IsFirst (rows : List IndexRow) (r : IndexRow) : Prop :=
  ∃ before after, rows = before ++ r :: after ∧ ∀ other ∈ before, other.key ≠ r.key

/-- No row with the same key stands behind this one. -/
def IsLast (rows : List IndexRow) (r : IndexRow) : Prop :=
  ∃ before after, rows = before ++ r :: after ∧ ∀ other ∈ after, other.key ≠ r.key

theorem isFirst_of_mem {rows : List IndexRow} {r : IndexRow} (h : r ∈ firstOfEachKey rows) :
    IsFirst rows r := by
  induction rows with
  | nil => exact absurd h List.not_mem_nil
  | cons head rows ih =>
    rcases List.mem_cons.mp h with rfl | h
    · exact ⟨[], rows, rfl, nofun⟩
    · obtain ⟨hmem, hkey⟩ := List.mem_filter.mp h
      obtain ⟨before, after, rfl, hbefore⟩ := ih hmem
      refine ⟨head :: before, after, rfl, List.forall_mem_cons.mpr ⟨?_, hbefore⟩⟩
      exact Ne.symm (of_decide_eq_true hkey)

theorem keys_firstOfEachKey (rows : List IndexRow) :
    (firstOfEachKey rows).map key = (rows.map key).eraseDups := by
  induction rows with
  | nil => rfl
  | cons r rows ih =>
    have hfilter : ((firstOfEachKey rows).filter fun other => other.key ≠ r.key).map key =
        ((firstOfEachKey rows).map key).filter fun k => !k == r.key := by
      rw [List.filter_map]
      congr 1
      refine List.filter_congr fun other _ => ?_
      rw [Bool.eq_iff_iff]
      simp
    rw [firstOfEachKey, List.map_cons, List.map_cons, List.eraseDups_cons, eraseDups_filter,
      hfilter, ih]

theorem lastWithKey_eq_some {rows : List IndexRow} {k : String × UInt64 × Popularity}
    {r : IndexRow} (h : lastWithKey rows k = some r) : r.key = k ∧ IsLast rows r := by
  obtain ⟨hkey, after, before, hrows, hafter⟩ := List.find?_eq_some_iff_append.mp h
  obtain rfl : r.key = k := of_decide_eq_true hkey
  refine ⟨rfl, before.reverse, after.reverse, ?_, ?_⟩
  · rw [← List.reverse_reverse rows, hrows]
    simp
  · intro other hother
    simpa using hafter other (List.mem_reverse.mp hother)

theorem lastWithKey_isSome_iff {rows : List IndexRow} {k : String × UInt64 × Popularity} :
    (lastWithKey rows k).isSome ↔ k ∈ rows.map key := by
  unfold lastWithKey
  rw [List.find?_isSome]
  simp

/-! ## §2 — one more shard -/

section Join

variable (merged shard : List IndexRow)

/-- A row of a join is a row that was there, with the traces of the last row of the shard behind
its own. -/
theorem exists_of_mem_join {r : IndexRow} (h : r ∈ join merged shard) :
    ∃ old ∈ merged, ∃ last, IsLast shard last ∧ last.key = old.key ∧
      r = { old with indices := unwords (old.ids ++ last.ids) } := by
  obtain ⟨old, hold, hr⟩ := List.mem_filterMap.mp h
  obtain ⟨last, hlast, rfl⟩ := Option.map_eq_some_iff.mp hr
  obtain ⟨hkey, hlast⟩ := lastWithKey_eq_some hlast
  exact ⟨old, hold, last, hlast, hkey, rfl⟩

/-- A join filters the keys. -/
theorem keys_join :
    (join merged shard).map key = (merged.map key).filter (· ∈ shard.map key) := by
  induction merged with
  | nil => rfl
  | cons r merged ih =>
    unfold join at ih ⊢
    rw [List.filterMap_cons, List.map_cons]
    cases hlast : lastWithKey shard r.key with
    | none =>
      have hnone : r.key ∉ shard.map key := by
        rw [← lastWithKey_isSome_iff, hlast]
        exact Bool.false_ne_true
      rw [List.filter_cons_of_neg (by simpa using hnone)]
      exact ih
    | some last =>
      have hsome : r.key ∈ shard.map key := by
        rw [← lastWithKey_isSome_iff, hlast]
        rfl
      rw [List.filter_cons_of_pos (by simpa using hsome), ← ih]
      rfl

end Join

theorem words_joined (r other : IndexRow) :
    words (unwords (r.ids ++ other.ids)) = r.ids ++ other.ids := by
  have hids : ∀ row : IndexRow, row.ids.flatMap words = row.ids := fun row =>
    flatMap_words_of_isWord fun w hw => isWord_of_mem_words hw
  rw [words_unwords, List.flatMap_append, hids, hids]

/-- The rows that a row of the merged index is made from: one of the first shard, and one of each
later shard. -/
structure Sources (first : List IndexRow) (rest : List (List IndexRow)) (r head : IndexRow)
    (lasts : List IndexRow) : Prop where
  isFirst : IsFirst first head
  areLast : List.Forall₂ (fun shard last => IsLast shard last ∧ last.key = r.key) rest lasts
  /-- Application, count and popularity are those of the first shard. -/
  data : r.app = head.app ∧ r.count = head.count ∧ r.popularity = head.popularity
  /-- Traces are listed in the order of the shards. -/
  ids : r.ids = head.ids ++ lasts.flatMap IndexRow.ids
  /-- The text of a single shard stays as it is; otherwise single spaces are put between the
  traces. -/
  text : r.indices = if rest = [] then head.indices else unwords r.ids

namespace Sources

variable {first shard : List IndexRow} {rest : List (List IndexRow)} {old head last : IndexRow}
  {lasts : List IndexRow}

theorem of_isFirst (h : IsFirst first head) : Sources first [] head head [] where
  isFirst := h
  areLast := .nil
  data := ⟨rfl, rfl, rfl⟩
  ids := (List.append_nil _).symm
  text := rfl

/-- One more shard is one more source. -/
theorem join (h : Sources first rest old head lasts) (hlast : IsLast shard last)
    (hkey : last.key = old.key) :
    Sources first (rest ++ [shard]) { old with indices := unwords (old.ids ++ last.ids) } head
      (lasts ++ [last]) where
  isFirst := h.isFirst
  areLast := List.rel_append h.areLast (.cons ⟨hlast, hkey⟩ .nil)
  data := h.data
  ids := by
    show words (unwords (old.ids ++ last.ids)) = _
    rw [words_joined, h.ids, List.flatMap_append, List.flatMap_singleton, List.append_assoc]
  text := by
    rw [if_neg (List.append_ne_nil_of_right_ne_nil rest (List.cons_ne_nil shard []))]
    show unwords (old.ids ++ last.ids) = unwords (words (unwords (old.ids ++ last.ids)))
    rw [words_joined]

end Sources

/-! ## §3 — all shards -/

section Merge

variable (first : List IndexRow) (rest : List (List IndexRow))

theorem merge_append_singleton (shard : List IndexRow) :
    merge (first :: (rest ++ [shard])) = join (merge (first :: rest)) shard := by
  show (rest ++ [shard]).foldl IndexRow.join (firstOfEachKey first) = _
  rw [List.foldl_append]
  rfl

/-- The keys of all shards, in the order of the first. -/
theorem keys_merge :
    (merge (first :: rest)).map key =
      (first.map key).eraseDups.filter fun k => ∀ shard ∈ rest, k ∈ shard.map key := by
  induction rest using List.reverseRecOn with
  | nil =>
    rw [List.filter_eq_self.mpr (by simp)]
    exact keys_firstOfEachKey first
  | append_singleton rest shard ih =>
    rw [merge_append_singleton, keys_join, ih, List.filter_filter]
    refine List.filter_congr fun k _ => ?_
    rw [Bool.eq_iff_iff]
    simp only [Bool.and_eq_true, decide_eq_true_eq, List.mem_append, List.mem_singleton]
    constructor
    · rintro ⟨hshard, hrest⟩ s (hs | rfl)
      · exact hrest s hs
      · exact hshard
    · intro h
      exact ⟨h shard (.inr rfl), fun s hs => h s (.inl hs)⟩

/-- Every merged row has its sources. -/
theorem exists_sources {r : IndexRow} (h : r ∈ merge (first :: rest)) :
    ∃ head lasts, Sources first rest r head lasts := by
  induction rest using List.reverseRecOn generalizing r with
  | nil => exact ⟨r, [], .of_isFirst (isFirst_of_mem h)⟩
  | append_singleton rest shard ih =>
    rw [merge_append_singleton] at h
    obtain ⟨old, hold, last, hlast, hkey, rfl⟩ := exists_of_mem_join _ _ h
    obtain ⟨head, lasts, hsources⟩ := ih hold
    exact ⟨head, lasts ++ [last], hsources.join hlast hkey⟩

end Merge

/-- What merging makes of the indices of some shards. -/
structure Joined (first : List IndexRow) (rest : List (List IndexRow)) (rows : List IndexRow) :
    Prop where
  /-- The keys are those that every shard has. -/
  keys : ∀ k, k ∈ rows.map key ↔ ∀ shard ∈ first :: rest, k ∈ shard.map key
  /-- Every key has one row. -/
  once : (rows.map key).Nodup
  /-- Rows stand in the order in which their keys first occur in the first shard. -/
  order : (rows.map key).Pairwise fun k k' =>
    (first.map key).idxOf k < (first.map key).idxOf k'
  sources : ∀ r ∈ rows, ∃ head lasts, Sources first rest r head lasts

/-- **Merging is an inner join.** A key stays if every shard has it, in the order of the first
shard; its row has the data of the first shard, and its traces are those of the first row with the
key in the first shard and of the last one in every later shard.  No shard at all makes no row. -/
theorem merge_joins :
    merge [] = [] ∧ ∀ (first : List IndexRow) (rest : List (List IndexRow)),
      Joined first rest (merge (first :: rest)) := by
  refine ⟨rfl, fun first rest => ?_⟩
  have hkeys := keys_merge first rest
  have horder : ((merge (first :: rest)).map key).Pairwise fun k k' =>
      (first.map key).idxOf k < (first.map key).idxOf k' := by
    rw [hkeys]
    exact (eraseDups_pairwise_idxOf _).filter _
  refine ⟨?_, ?_, horder, fun r hr => exists_sources first rest hr⟩
  · intro k
    rw [hkeys, List.mem_filter, List.mem_eraseDups, decide_eq_true_iff, List.forall_mem_cons]
  · refine horder.imp ?_
    rintro k _ hlt rfl
    exact lt_irrefl _ hlt

/-- The first shard answers for `a` with its first row, the second with its last one. -/
example :
    merge [[⟨"a", 1, ⟨0⟩, "t  u"⟩, ⟨"b", 1, ⟨0⟩, "v"⟩, ⟨"a", 1, ⟨0⟩, "w"⟩],
        [⟨"c", 1, ⟨0⟩, ""⟩, ⟨"a", 1, ⟨0⟩, "x"⟩, ⟨"a", 1, ⟨0⟩, "y"⟩]] =
      [⟨"a", 1, ⟨0⟩, "t u y"⟩] := by
  decide +kernel

end WorkloadSynth.IndexRow
