import WorkloadSynth.Proofs.IndexRows
import WorkloadSynth.Proofs.Rows
import WorkloadSynth.Proofs.Stitch

/-!
# Applications with several records

A table finds an application by the position of its record, and an index lists applications in the
order in which they are entered.  Both are filled record by record, and both meet an application
again: the later position takes the place of the earlier one (`get?_eq_bind_positions`), and the
later record takes the place of the earlier one where that stood (`foldl_enter`).  So they speak of
the same record, the last one of each application, whatever was added to the index since
(`agrees_with_index`).
-/

namespace WorkloadSynth

/-! ## §1 — the last record of an application -/

/-- No record of the same application stands behind this one. -/
def AppRecord.IsLastIn (r : AppRecord) (records : List AppRecord) : Prop :=
  ∃ before after, records = before ++ r :: after ∧ ∀ other ∈ after, other.app ≠ r.app

namespace AppTable

section Records

variable {t : AppTable} {app : String} {r : AppRecord}

theorem get?_eq_some_iff : t.get? app = some r ↔ r.app = app ∧ r.IsLastIn t.records := by
  unfold get?
  rw [List.find?_eq_some_iff_append]
  simp only [decide_eq_true_eq, Bool.not_eq_true', decide_eq_false_iff_not]
  constructor
  · rintro ⟨happ, after, before, hrecords, hafter⟩
    refine ⟨happ, before.reverse, after.reverse, ?_, ?_⟩
    · rw [← List.reverse_reverse t.records, hrecords]
      simp
    · rw [happ]
      exact fun other hother => hafter other (List.mem_reverse.mp hother)
  · rintro ⟨rfl, before, after, hrecords, hafter⟩
    refine ⟨rfl, after.reverse, before.reverse, ?_, ?_⟩
    · rw [hrecords]
      simp
    · exact fun other hother => hafter other (List.mem_reverse.mp hother)

theorem get?_eq_none_iff : t.get? app = none ↔ ∀ r ∈ t.records, r.app ≠ app := by
  unfold get?
  rw [List.find?_eq_none]
  simp

theorem get?_append_singleton (records : List AppRecord) (r : AppRecord) (app : String) :
    (AppTable.mk (records ++ [r])).get? app =
      if r.app = app then some r else (AppTable.mk records).get? app := by
  unfold get?
  rw [List.reverse_append, List.reverse_singleton, List.singleton_append, List.find?_cons]
  by_cases happ : r.app = app
  · simp [happ]
  · simp [happ]

theorem apps_append_singleton (records : List AppRecord) (r : AppRecord) :
    (AppTable.mk (records ++ [r])).apps =
      if r.app ∈ (AppTable.mk records).apps then (AppTable.mk records).apps
      else (AppTable.mk records).apps ++ [r.app] := by
  unfold apps
  rw [List.map_append, List.map_singleton, eraseDups_append_singleton]
  simp only [List.mem_eraseDups]

end Records

/-! ## §2 — positions -/

/-- Where the record of an application stands, filled in record by record. -/
def positions (records : List AppRecord) : String → Option Nat :=
  records.zipIdx.foldl (fun places x => Function.update places x.1.app (some x.2)) fun _ => none

theorem positions_append_singleton (records : List AppRecord) (r : AppRecord) :
    positions (records ++ [r]) =
      Function.update (positions records) r.app (some records.length) := by
  unfold positions
  rw [List.zipIdx_append, List.foldl_append, Nat.zero_add]
  rfl

theorem lt_length_of_positions {records : List AppRecord} {app : String} {i : Nat}
    (h : positions records app = some i) : i < records.length := by
  induction records using List.reverseRecOn with
  | nil => cases h
  | append_singleton records r ih =>
    rw [List.length_append, List.length_singleton]
    rw [positions_append_singleton] at h
    by_cases happ : app = r.app
    · rw [happ, Function.update_self] at h
      obtain rfl := Option.some.inj h
      exact Nat.lt_succ_self _
    · rw [Function.update_of_ne happ] at h
      exact Nat.lt_succ_of_lt (ih h)

/-- **Positions lead to last records.** -/
theorem get?_eq_bind_positions (records : List AppRecord) (app : String) :
    (AppTable.mk records).get? app = (positions records app).bind (records[·]?) := by
  induction records using List.reverseRecOn with
  | nil => rfl
  | append_singleton records r ih =>
    rw [get?_append_singleton, positions_append_singleton]
    by_cases happ : r.app = app
    · rw [if_pos happ, ← happ, Function.update_self, Option.bind_some, List.getElem?_concat_length]
    · rw [if_neg happ, Function.update_of_ne (Ne.symm happ), ih]
      cases hi : positions records app with
      | none => rfl
      -- earlier positions lead to the same records as before
      | some i =>
        rw [Option.bind_some, Option.bind_some,
          List.getElem?_append_left (lt_length_of_positions hi)]

/-! ## §3 — counts and checks -/

section Counts

variable {t : AppTable} {app : String}

theorem functionCount_eq_ok_iff {count : UInt64} :
    t.functionCount app = .ok count ↔
      ∃ r, t.get? app = some r ∧ r.count = count ∧ 0 < count := by
  constructor
  · intro h
    by_cases hk : t.Knows app
    · obtain ⟨r, hr, hpos⟩ := hk
      rw [functionCount_of_get? hr hpos] at h
      obtain rfl := Except.ok.inj h
      exact ⟨r, hr, rfl, hpos⟩
    · rw [functionCount_of_not_knows hk] at h
      cases h
  · rintro ⟨r, hr, rfl, hpos⟩
    exact functionCount_of_get? hr hpos

theorem exists_functionCount_iff : (∃ count, t.functionCount app = .ok count) ↔ t.Knows app := by
  simp only [functionCount_eq_ok_iff]
  constructor
  · rintro ⟨-, r, hr, rfl, hpos⟩
    exact ⟨r, hr, hpos⟩
  · rintro ⟨r, hr, hpos⟩
    exact ⟨r.count, r, hr, rfl, hpos⟩

theorem functionCount_eq_error_iff {e : Error} :
    t.functionCount app = .error e ↔ e = .missingLookup app ∧ ¬ t.Knows app := by
  constructor
  · intro h
    have hk : ¬ t.Knows app := by
      rw [← exists_functionCount_iff, h]
      exact nofun
    rw [functionCount_of_not_knows hk] at h
    exact ⟨(Except.error.inj h).symm, hk⟩
  · rintro ⟨rfl, hk⟩
    exact functionCount_of_not_knows hk

variable {apps : List String}

theorem checkApps_eq_ok_iff : t.checkApps apps = .ok () ↔ ∀ app ∈ apps, t.Knows app := by
  induction apps with
  | nil => exact iff_of_true rfl fun app h => absurd h List.not_mem_nil
  | cons app apps ih =>
    rw [checkApps, List.forall_mem_cons]
    by_cases hk : t.Knows app
    · obtain ⟨count, -, hc⟩ := hk.functionCount_eq
      rw [hc, ← ih]
      exact (and_iff_right hk).symm
    · rw [functionCount_of_not_knows hk]
      exact iff_of_false nofun fun h => hk h.1

theorem checkApps_eq_mapM (t : AppTable) (apps : List String) :
    t.checkApps apps = (apps.mapM t.functionCount).map fun _ => () := by
  induction apps with
  | nil => rfl
  | cons app apps ih =>
    rw [checkApps, List.mapM_cons]
    cases t.functionCount app with
    | error e => rfl
    | ok count =>
      dsimp only
      rw [ih]
      cases apps.mapM t.functionCount with
      | error e => rfl
      | ok counts => rfl

/-- The check fails at the first application without a usable count. -/
theorem checkApps_eq_error_iff {e : Error} :
    t.checkApps apps = .error e ↔
      ∃ before app after, apps = before ++ app :: after ∧ (∀ a ∈ before, t.Knows a) ∧
        t.functionCount app = .error e := by
  simp only [← exists_functionCount_iff]
  rw [checkApps_eq_mapM, map_eq_error_iff, mapM_eq_error_iff]

end Counts

end AppTable

/-! ## §4 — entries -/

namespace AuditIndex

/-- Enters a record.  An application that is listed keeps its place, with the data of the new
record; another one goes to the end. -/
def enter (index : AuditIndex) (r : AppRecord) : AuditIndex :=
  if r.app ∈ index.apps then
    ⟨index.entries.map fun e => if e.record.app = r.app then ⟨r, []⟩ else e⟩
  else ⟨index.entries ++ [⟨r, []⟩]⟩

/-- One more record is entered into the index of the others. -/
theorem ofTable_append_singleton (records : List AppRecord) (r : AppRecord) :
    ofTable ⟨records ++ [r]⟩ = (ofTable ⟨records⟩).enter r := by
  unfold enter
  rw [apps_ofTable]
  unfold ofTable
  rw [AppTable.apps_append_singleton]
  by_cases hknown : r.app ∈ (AppTable.mk records).apps
  · rw [if_pos hknown, if_pos hknown, List.map_filterMap]
    congr 1
    refine List.filterMap_congr fun app happ => ?_
    -- a listed application has a record already
    obtain ⟨old, hold⟩ := AppTable.mem_apps_iff.mp happ
    rw [AppTable.get?_append_singleton, hold, Option.map_some, Option.map_some,
      AppTable.app_of_get? hold]
    by_cases hsame : r.app = app
    · rw [if_pos hsame, if_pos hsame.symm, Option.map_some]
    · rw [if_neg hsame, if_neg (Ne.symm hsame), Option.map_some]
  · rw [if_neg hknown, if_neg hknown, List.filterMap_append]
    congr 2
    · refine List.filterMap_congr fun app happ => ?_
      have hother : r.app ≠ app := by
        rintro rfl
        exact hknown happ
      rw [AppTable.get?_append_singleton, if_neg hother]
    · rw [List.filterMap_cons, AppTable.get?_append_singleton, if_pos rfl]
      rfl

/-- **The index of a table is entered record by record.** -/
theorem foldl_enter (records : List AppRecord) :
    records.foldl enter ⟨[]⟩ = ofTable ⟨records⟩ := by
  induction records using List.reverseRecOn with
  | nil => rfl
  | append_singleton records r ih =>
    rw [List.foldl_append, ih, ofTable_append_singleton]
    rfl

theorem add_of_not_mem_apps {index : AuditIndex} {app : String} (h : app ∉ index.apps)
    (id : String) : index.add app id = index := by
  unfold add
  have hentries : (index.entries.map fun e =>
      if e.record.app = app then { e with ids := e.ids ++ [id] } else e) = index.entries := by
    refine (List.map_congr_left fun e he => ?_).trans (List.map_id _)
    have hother : e.record.app ≠ app := by
      rintro rfl
      exact h (List.mem_map_of_mem he)
    rw [if_neg hother]
    rfl
  rw [hentries]

end AuditIndex

/-! ## §5 — the table and its index -/

/-- What a table answers. -/
structure AppTable.Answers (t : AppTable) : Prop where
  found : ∀ app r, t.get? app = some r ↔ r.app = app ∧ r.IsLastIn t.records
  missing : ∀ app, t.get? app = none ↔ ∀ r ∈ t.records, r.app ≠ app
  counted : ∀ app count, t.functionCount app = .ok count ↔
    ∃ r, t.get? app = some r ∧ r.count = count ∧ 0 < count
  uncounted : ∀ app e, t.functionCount app = .error e ↔
    e = .missingLookup app ∧ ¬ ∃ r, t.get? app = some r ∧ 0 < r.count
  checked : ∀ apps, t.checkApps apps = .ok () ↔
    ∀ app ∈ apps, ∃ count, t.functionCount app = .ok count
  /-- A check fails with the first application that has no usable count. -/
  refused : ∀ apps e, t.checkApps apps = .error e ↔
    ∃ before app after, apps = before ++ app :: after ∧
      (∀ a ∈ before, ∃ count, t.functionCount a = .ok count) ∧ t.functionCount app = .error e

/-- What an index of a table lists, given what was added to it. -/
structure AuditIndex.Lists (index : AuditIndex) (t : AppTable) (adds : List (String × String)) :
    Prop where
  mem : ∀ app, app ∈ index.rows.map (·.app) ↔ ∃ r ∈ t.records, r.app = app
  once : (index.rows.map (·.app)).Nodup
  /-- Applications stand in the order of their first records. -/
  order : (index.rows.map (·.app)).Pairwise fun a b =>
    (t.records.map (·.app)).idxOf a < (t.records.map (·.app)).idxOf b
  /-- Their data are those that the table answers with. -/
  data : ∀ row ∈ index.rows, ∃ r, t.get? row.app = some r ∧ row.count = r.count ∧
    row.popularity = r.popularity
  ids : ∀ row ∈ index.rows, index.ids row.app = added adds row.app ∧
    row.indices = unwords (index.ids row.app)
  /-- What was added is read off a row again if it has no blanks. -/
  words : (∀ x ∈ adds, IsWord x.2) → ∀ row ∈ index.rows, row.ids = added adds row.app
  /-- Additions for other applications change nothing. -/
  others : ∀ app, (∀ r ∈ t.records, r.app ≠ app) → ∀ id, index.add app id = index

theorem AppTable.answers (t : AppTable) : t.Answers where
  found _ _ := get?_eq_some_iff
  missing _ := get?_eq_none_iff
  counted _ _ := functionCount_eq_ok_iff
  uncounted _ _ := functionCount_eq_error_iff
  checked apps := by
    simp only [exists_functionCount_iff]
    exact checkApps_eq_ok_iff
  refused apps e := by
    simp only [exists_functionCount_iff]
    exact checkApps_eq_error_iff

section Lists

variable (t : AppTable) (adds : List (String × String))

theorem AuditIndex.apps_rows (index : AuditIndex) : index.rows.map (·.app) = index.apps := by
  unfold rows
  rw [List.map_map]
  rfl

theorem AuditIndex.lists_addAll : ((ofTable t).addAll adds).Lists t adds := by
  have happs : ((ofTable t).addAll adds).rows.map (·.app) = t.apps := by
    rw [apps_rows, apps_addAll, apps_ofTable]
  have hids : ∀ row ∈ ((ofTable t).addAll adds).rows,
      ((ofTable t).addAll adds).ids row.app = added adds row.app := by
    intro row hrow
    apply ids_addAll_ofTable
    rw [← happs]
    exact List.mem_map_of_mem hrow
  have htext : ∀ row ∈ ((ofTable t).addAll adds).rows,
      row.indices = unwords (added adds row.app) := by
    rw [rows_addAll_ofTable]
    intro row hrow
    obtain ⟨r, -, rfl⟩ := List.mem_map.mp hrow
    rfl
  refine ⟨?_, ?_, ?_, ?_, ?_, ?_, ?_⟩
  · intro app
    rw [happs]
    unfold AppTable.apps
    rw [List.mem_eraseDups, List.mem_map]
  · rw [happs]
    exact t.apps_nodup
  · rw [happs]
    exact eraseDups_pairwise_idxOf _
  · rw [rows_addAll_ofTable]
    intro row hrow
    obtain ⟨r, hr, rfl⟩ := List.mem_map.mp hrow
    exact ⟨r, AppTable.get?_of_mem_indexed hr, rfl, rfl⟩
  · intro row hrow
    exact ⟨hids row hrow, by rw [hids row hrow, htext row hrow]⟩
  · intro hwords row hrow
    unfold IndexRow.ids
    rw [htext row hrow, words_unwords, flatMap_words_added hwords]
  · intro app hother id
    apply add_of_not_mem_apps
    rw [apps_addAll, apps_ofTable, AppTable.mem_apps_iff]
    rintro ⟨r, hr⟩
    rw [AppTable.get?_eq_none_iff.mpr hother] at hr
    cases hr

end Lists

/-- **The table and its index agree.** However often an application is repeated, the table finds
its last record, and so does the index, at the place of its first one.  This holds of the positions
and the entries that are filled record by record, and no addition changes it. -/
theorem AppTable.agrees_with_index (records : List AppRecord) :
    (AppTable.mk records).Answers ∧
    (∀ app, (AppTable.mk records).get? app = (positions records app).bind (records[·]?)) ∧
    records.foldl AuditIndex.enter ⟨[]⟩ = AuditIndex.ofTable ⟨records⟩ ∧
    ∀ adds, ((AuditIndex.ofTable ⟨records⟩).addAll adds).Lists ⟨records⟩ adds :=
  ⟨AppTable.answers ⟨records⟩, get?_eq_bind_positions records, AuditIndex.foldl_enter records,
    AuditIndex.lists_addAll ⟨records⟩⟩

/-- The second record of `a` counts, at the place of the first. -/
example :
    ((AuditIndex.ofTable ⟨[⟨"a", 2, ⟨1⟩⟩, ⟨"b", 1, ⟨2⟩⟩, ⟨"a", 3, ⟨4⟩⟩]⟩).add "a" "t").rows =
      [⟨"a", 3, ⟨4⟩, "t"⟩, ⟨"b", 1, ⟨2⟩, ""⟩] := by
  decide +kernel

end WorkloadSynth
