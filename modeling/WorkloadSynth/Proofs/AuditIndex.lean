import Mathlib
import WorkloadSynth.AuditIndex.Row

/-!
# The audit index as a table of additions

An index starts with one empty entry per application and grows by additions.  Additions to
different entries commute, so an entry holds the identifiers that were added for its application,
in order, and all entries together hold every addition for a known application once.
-/

namespace WorkloadSynth

/-! ## §1 — lists by key -/

theorem nodup_eraseDups {α : Type} [DecidableEq α] (xs : List α) : xs.eraseDups.Nodup := by
  match xs with
  | [] => exact List.nodup_nil
  | x :: xs =>
    rw [List.eraseDups_cons, List.nodup_cons]
    refine ⟨?_, nodup_eraseDups _⟩
    rw [List.mem_eraseDups]
    simp
termination_by xs.length
decreasing_by
  rw [List.length_cons]
  exact Nat.lt_succ_of_le (List.length_filter_le _ xs)

/-- An element is kept where it comes first. -/
theorem eraseDups_append_singleton {α : Type} [BEq α] [LawfulBEq α] (xs : List α) (x : α) :
    (xs ++ [x]).eraseDups = if x ∈ xs then xs.eraseDups else xs.eraseDups ++ [x] := by
  rw [List.eraseDups_append]
  by_cases hx : x ∈ xs
  · simp [List.removeAll, hx]
  · simp [List.removeAll, hx, List.eraseDups_cons]

theorem eraseDups_filter {α : Type} [BEq α] [LawfulBEq α] (p : α → Bool) (xs : List α) :
    (xs.filter p).eraseDups = xs.eraseDups.filter p := by
  induction xs using List.reverseRecOn with
  | nil => rfl
  | append_singleton xs x ih =>
    rw [List.filter_append, eraseDups_append_singleton]
    by_cases hp : p x = true
    · rw [List.filter_cons_of_pos hp, List.filter_nil, eraseDups_append_singleton, ih]
      by_cases hx : x ∈ xs
      · rw [if_pos hx, if_pos (List.mem_filter.mpr ⟨hx, hp⟩)]
      · rw [if_neg hx, if_neg fun h => hx (List.mem_filter.mp h).1, List.filter_append,
          List.filter_cons_of_pos hp, List.filter_nil]
    · rw [List.filter_cons_of_neg hp, List.filter_nil, List.append_nil, ih]
      by_cases hx : x ∈ xs
      · rw [if_pos hx]
      · rw [if_neg hx, List.filter_append, List.filter_cons_of_neg hp, List.filter_nil,
          List.append_nil]

/-- Without its repetitions a list has its elements in the order of their first occurrences. -/
theorem eraseDups_pairwise_idxOf {α : Type} [BEq α] [LawfulBEq α] (xs : List α) :
    xs.eraseDups.Pairwise fun x y => xs.idxOf x < xs.idxOf y := by
  induction xs using List.reverseRecOn with
  | nil => exact List.Pairwise.nil
  | append_singleton xs x ih =>
    have hidx : ∀ y ∈ xs, (xs ++ [x]).idxOf y = xs.idxOf y := by
      intro y hy
      rw [List.idxOf_append, if_pos hy]
    have hold : xs.eraseDups.Pairwise fun y z => (xs ++ [x]).idxOf y < (xs ++ [x]).idxOf z := by
      refine ih.imp_of_mem ?_
      intro y z hy hz hlt
      rw [hidx y (List.mem_eraseDups.mp hy), hidx z (List.mem_eraseDups.mp hz)]
      exact hlt
    rw [eraseDups_append_singleton]
    by_cases hx : x ∈ xs
    · rw [if_pos hx]
      exact hold
    · rw [if_neg hx, List.pairwise_append]
      refine ⟨hold, List.pairwise_singleton _ x, ?_⟩
      intro y hy z hz
      rw [List.mem_singleton.mp hz, hidx y (List.mem_eraseDups.mp hy), List.idxOf_append,
        if_neg hx]
      exact Nat.lt_of_lt_of_le (List.idxOf_lt_length_of_mem (List.mem_eraseDups.mp hy))
        (Nat.le_add_left _ _)

/-- Elements that are sorted into distinct keys are still all there. -/
theorem flatMap_filter_perm {α κ : Type} [DecidableEq κ] {f : α → κ} {keys : List κ} {xs : List α}
    (hkeys : keys.Nodup) (h : ∀ x ∈ xs, f x ∈ keys) :
    (keys.flatMap fun k => xs.filter fun x => f x = k).Perm xs := by
  induction keys generalizing xs with
  | nil =>
    obtain rfl : xs = [] := List.eq_nil_iff_forall_not_mem.mpr fun x hx => nomatch h x hx
    exact List.Perm.nil
  | cons k keys ih =>
    obtain ⟨hk, hkeys⟩ := List.nodup_cons.mp hkeys
    -- the elements of the other keys do not have the first key
    have hrest : (keys.flatMap fun k' => xs.filter fun x => f x = k') =
        keys.flatMap fun k' => (xs.filter fun x => !decide (f x = k)).filter fun x => f x = k' := by
      refine List.flatMap_congr fun k' hk' => ?_
      rw [List.filter_filter]
      refine List.filter_congr fun x _ => ?_
      by_cases hx : f x = k'
      · have hne : f x ≠ k := by
          rintro rfl
          exact hk (hx ▸ hk')
        simp [hx, hx ▸ hne]
      · simp [hx]
    rw [List.flatMap_cons, hrest]
    refine List.Perm.trans (List.Perm.append_left _ (ih hkeys ?_))
      (List.filter_append_perm (fun x => decide (f x = k)) xs)
    intro x hx
    obtain ⟨hx, hne⟩ := List.mem_filter.mp hx
    rcases List.mem_cons.mp (h x hx) with heq | hmem
    · simp [heq] at hne
    · exact hmem

/-! ## §2 — the table behind an index -/

namespace AppTable

variable {t : AppTable} {app : String} {record : AppRecord}

theorem app_of_get? (h : t.get? app = some record) : record.app = app := by
  unfold get? at h
  simpa using List.find?_some h

theorem mem_apps_iff : app ∈ t.apps ↔ ∃ record, t.get? app = some record := by
  unfold apps get?
  rw [List.mem_eraseDups, ← Option.isSome_iff_exists, List.find?_isSome]
  simp

theorem apps_nodup (t : AppTable) : t.apps.Nodup := nodup_eraseDups _

end AppTable

namespace AuditIndex

/-! ## §3 — additions -/

/-- The applications of an index. -/
def apps (index : AuditIndex) : List String := index.entries.map (·.record.app)

/-- An index after a sequence of additions, each an application with an identifier. -/
def addAll (index : AuditIndex) (adds : List (String × String)) : AuditIndex :=
  adds.foldl (fun index x => index.add x.1 x.2) index

/-- The identifiers that a sequence adds for an application. -/
def added (adds : List (String × String)) (app : String) : List String :=
  (adds.filter fun x => x.1 = app).map (·.2)

variable (index : AuditIndex) (adds : List (String × String))

theorem addAll_append (more : List (String × String)) :
    index.addAll (adds ++ more) = (index.addAll adds).addAll more :=
  List.foldl_append

/-- **Additions are sorted into entries.** Each entry gets the identifiers of its application, in
order, and nothing else changes. -/
theorem entries_addAll :
    (index.addAll adds).entries =
      index.entries.map fun e => { e with ids := e.ids ++ added adds e.record.app } := by
  unfold addAll
  induction adds generalizing index with
  | nil =>
    simp only [added, List.foldl_nil, List.filter_nil, List.map_nil, List.append_nil]
    exact (List.map_id _).symm
  | cons x adds ih =>
    rw [List.foldl_cons, ih (index.add x.1 x.2)]
    unfold add
    rw [List.map_map]
    refine List.map_congr_left fun e _ => ?_
    by_cases hx : x.1 = e.record.app
    · simp [added, hx]
    · simp [added, hx, Ne.symm hx]

theorem apps_addAll : (index.addAll adds).apps = index.apps := by
  unfold apps
  rw [entries_addAll, List.map_map]
  rfl

theorem records_addAll :
    (index.addAll adds).entries.map (·.record) = index.entries.map (·.record) := by
  rw [entries_addAll, List.map_map]
  rfl

/-- The identifiers of a listed application. -/
theorem ids_addAll {app : String} (h : app ∈ index.apps) :
    (index.addAll adds).ids app = index.ids app ++ added adds app := by
  unfold ids
  -- additions leave the application of an entry alone
  have hfind : (index.addAll adds).entries.find? (fun e => e.record.app = app) =
      (index.entries.find? fun e => e.record.app = app).map
        fun e => { e with ids := e.ids ++ added adds e.record.app } := by
    rw [entries_addAll, List.find?_map]
    rfl
  rw [hfind]
  cases hf : index.entries.find? fun e => e.record.app = app with
  | some e =>
    have he : e.record.app = app := by simpa using List.find?_some hf
    rw [Option.map_some]
    dsimp only
    rw [he]
  | none =>
    -- a listed application has an entry
    obtain ⟨e, he, rfl⟩ := List.mem_map.mp h
    have hnone := List.find?_eq_none.mp hf e he
    simp at hnone

/-- Additions for applications that are not listed are passed over. -/
theorem ids_of_not_mem_apps {app : String} (h : app ∉ index.apps) : index.ids app = [] := by
  unfold ids
  have hnone : index.entries.find? (fun e => e.record.app = app) = none := by
    rw [List.find?_eq_none]
    intro e he heq
    exact h (List.mem_map.mpr ⟨e, he, by simpa using heq⟩)
  rw [hnone]

/-- All additions for listed applications end up in the index once. -/
theorem flatMap_ids_addAll (hnodup : index.apps.Nodup) (hempty : ∀ e ∈ index.entries, e.ids = [])
    (h : ∀ x ∈ adds, x.1 ∈ index.apps) :
    ((index.addAll adds).entries.flatMap (·.ids)).Perm (adds.map (·.2)) := by
  have hsorted : (index.addAll adds).entries.flatMap (·.ids) =
      (index.apps.flatMap fun app => adds.filter fun x => x.1 = app).map (·.2) := by
    unfold apps
    rw [entries_addAll, List.flatMap_map, List.map_flatMap, List.flatMap_map]
    refine List.flatMap_congr fun e he => ?_
    dsimp only
    rw [hempty e he, List.nil_append, added]
  rw [hsorted]
  exact (flatMap_filter_perm hnodup h).map _

/-! ## §4 — the index of a table -/

section OfTable

variable (t : AppTable)

theorem apps_ofTable : (ofTable t).apps = t.apps := by
  unfold apps ofTable
  rw [List.map_filterMap]
  refine (List.filterMap_congr (g := some) fun app happ => ?_).trans List.filterMap_some
  -- every application of the table has a record
  obtain ⟨record, hr⟩ := AppTable.mem_apps_iff.mp happ
  rw [hr, Option.map_some, Option.map_some, AppTable.app_of_get? hr]

theorem ids_eq_nil_of_mem_ofTable {e : AuditEntry} (h : e ∈ (ofTable t).entries) : e.ids = [] := by
  obtain ⟨app, -, happ⟩ := List.mem_filterMap.mp h
  obtain ⟨record, -, rfl⟩ := Option.map_eq_some_iff.mp happ
  rfl

theorem ids_ofTable (app : String) : (ofTable t).ids app = [] := by
  unfold ids
  cases hf : (ofTable t).entries.find? fun e => e.record.app = app with
  | some e => exact ids_eq_nil_of_mem_ofTable t (List.mem_of_find?_eq_some hf)
  | none => rfl

/-- **The index of a table after additions.** Every application lists what was added for it. -/
theorem ids_addAll_ofTable {app : String} (h : app ∈ t.apps) :
    ((ofTable t).addAll adds).ids app = added adds app := by
  rw [ids_addAll _ _ (by rwa [apps_ofTable]), ids_ofTable, List.nil_append]

theorem entries_addAll_ofTable :
    ((ofTable t).addAll adds).entries =
      t.apps.filterMap fun app => (t.get? app).map fun record => ⟨record, added adds app⟩ := by
  rw [entries_addAll]
  unfold ofTable
  rw [List.map_filterMap]
  refine List.filterMap_congr fun app _ => ?_
  cases hr : t.get? app with
  | none => rfl
  | some record =>
    simp only [Option.map_some, List.nil_append, AppTable.app_of_get? hr]

end OfTable

end AuditIndex

end WorkloadSynth
