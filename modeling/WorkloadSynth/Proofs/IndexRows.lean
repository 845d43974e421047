import WorkloadSynth.AuditIndex.Merge
import WorkloadSynth.Proofs.AuditIndex
import WorkloadSynth.Proofs.NumberText
import WorkloadSynth.Proofs.TableText

/-!
# Index rows, written and merged

An index file is read back row by row (`readAll_fileOf`); only the pattern of a popularity that is
not a number can change, to the one that every such popularity is read as.  The rows of one table
have one key each, and the same keys in every shard, so that merging joins the rows of every
application (`merge_rowsOf`).
-/

namespace WorkloadSynth

/-! ## §1 — words -/

/-- A text that is one word. -/
def IsWord (s : String) : Prop := s ≠ "" ∧ ∀ c ∈ s.toList, isBlank c = false

section Words

theorem runs_ne_nil (cs : List Char) : runs cs ≠ [] := by
  cases cs with
  | nil => exact List.cons_ne_nil _ _
  | cons c cs =>
    unfold runs
    split
    · exact List.cons_ne_nil _ _
    · cases runs cs with
      | nil => exact List.cons_ne_nil _ _
      | cons w ws => exact List.cons_ne_nil _ _

theorem addToWord_append (c : Char) {ws : List (List Char)} (h : ws ≠ [])
    (more : List (List Char)) : addToWord c (ws ++ more) = addToWord c ws ++ more := by
  obtain ⟨w, ws, rfl⟩ := List.exists_cons_of_ne_nil h
  rfl

/-- A blank cuts a text in two. -/
theorem runs_append_blank {c : Char} (hc : isBlank c = true) (as bs : List Char) :
    runs (as ++ c :: bs) = runs as ++ runs bs := by
  induction as with
  | nil =>
    show runs (c :: bs) = [] :: runs bs
    rw [runs, if_pos hc]
  | cons a as ih =>
    rw [List.cons_append, runs, runs, ih]
    by_cases ha : isBlank a = true
    · rw [if_pos ha, if_pos ha]
      rfl
    · rw [if_neg ha, if_neg ha, addToWord_append a (runs_ne_nil as)]

theorem runs_of_unbroken {cs : List Char} (h : ∀ c ∈ cs, isBlank c = false) : runs cs = [cs] := by
  induction cs with
  | nil => rfl
  | cons c cs ih =>
    rw [runs, if_neg (by simp [h c List.mem_cons_self]),
      ih fun a ha => h a (List.mem_cons_of_mem c ha)]
    rfl

theorem unbroken_of_mem_runs {cs w : List Char} (h : w ∈ runs cs) :
    ∀ c ∈ w, isBlank c = false := by
  induction cs generalizing w with
  | nil =>
    rw [List.mem_singleton.mp h]
    exact nofun
  | cons a cs ih =>
    rw [runs] at h
    by_cases ha : isBlank a = true
    · rw [if_pos ha] at h
      rcases List.mem_cons.mp h with rfl | hw
      · exact nofun
      · exact ih hw
    · rw [if_neg ha] at h
      obtain ⟨v, vs, hruns⟩ := List.exists_cons_of_ne_nil (runs_ne_nil cs)
      rw [hruns] at h ih
      rcases List.mem_cons.mp h with rfl | hw
      · intro c hc
        rcases List.mem_cons.mp hc with rfl | hc
        · exact Bool.eq_false_of_not_eq_true ha
        · exact ih List.mem_cons_self c hc
      · exact ih (List.mem_cons_of_mem v hw)

theorem words_of_isWord {s : String} (h : IsWord s) : words s = [s] := by
  have hne : s.toList ≠ [] := fun hnil => h.1 (String.toList_inj.mp hnil)
  unfold words
  rw [runs_of_unbroken h.2]
  simp [hne, String.ofList_toList]

theorem isWord_of_mem_words {s w : String} (h : w ∈ words s) : IsWord w := by
  obtain ⟨cs, hcs, rfl⟩ := List.mem_map.mp h
  obtain ⟨hruns, hne⟩ := List.mem_filter.mp hcs
  refine ⟨?_, ?_⟩
  · intro hempty
    have := congrArg String.toList hempty
    rw [String.toList_ofList] at this
    rw [this] at hne
    cases hne
  · rw [String.toList_ofList]
    exact unbroken_of_mem_runs hruns

/-- Words are cut no further. -/
theorem flatMap_words_of_isWord {ws : List String} (h : ∀ w ∈ ws, IsWord w) :
    ws.flatMap words = ws := by
  induction ws with
  | nil => rfl
  | cons w ws ih =>
    rw [List.flatMap_cons, words_of_isWord (h w List.mem_cons_self),
      ih fun v hv => h v (List.mem_cons_of_mem w hv)]
    rfl

/-- **Joined words are cut apart again.** -/
theorem words_unwords (ws : List String) : words (unwords ws) = ws.flatMap words := by
  have hspace : isBlank ' ' = true := rfl
  unfold unwords
  induction ws with
  | nil => rfl
  | cons w ws ih =>
    cases ws with
    | nil =>
      rw [List.flatMap_cons, List.flatMap_nil, List.append_nil]
      rfl
    | cons v ws =>
      rw [List.flatMap_cons, ← ih]
      unfold words
      rw [String.toList_intercalate, String.toList_intercalate, List.map_cons, List.map_cons,
        List.intercalate_cons_cons, List.append_assoc, show " ".toList = [' '] from rfl,
        List.singleton_append, runs_append_blank hspace, List.filter_append, List.map_append]

end Words

/-! ## §2 — files of rows -/

namespace Popularity

/-- A popularity as it is read back: its value has one pattern. -/
def canonical (p : Popularity) : Popularity := ⟨p.value.toBits⟩

theorem value_canonical (p : Popularity) : p.canonical.value = p.value :=
  Float.ofBits_toBits p.value

theorem canonical_canonical (p : Popularity) : p.canonical.canonical = p.canonical := by
  show Popularity.mk p.canonical.value.toBits = _
  rw [value_canonical]
  rfl

/-- The pattern of a number stays as it is. -/
theorem canonical_of_number {p : Popularity} (h : p.value.isNaN = false) : p.canonical = p := by
  have hnumber : Double.IsNumber p.bits := by
    intro hexp
    by_contra hfraction
    have hnan : Float.Model.UnpackedFloat.unpack .binary64 p.bits.toBitVec = .notANumber := by
      have henc := Double.encodes_unpack p.bits
      generalize Float.Model.UnpackedFloat.unpack .binary64 p.bits.toBitVec = f at henc
      cases henc with
      | infinity _ hm => exact absurd hm hfraction
      | notANumber => rfl
      | zero he _ => omega
      | subnormal he _ => omega
      | normal _ he _ => omega
    have hvalue : p.value = Float.ofModel (.pack .notANumber) := by
      show Float.ofModel (.pack (Float.Model.UnpackedFloat.unpack .binary64 p.bits.toBitVec)) = _
      rw [hnan]
    rw [hvalue] at h
    exact absurd h (by decide)
  show Popularity.mk (Float.ofBits p.bits).toBits = p
  rw [Double.toBits_ofBits hnumber]

/-- **A popularity in a table is read back.** -/
theorem exists_read_toField (p : Popularity) :
    ∃ l, Csv.CellType.number.read p.toField = .ok (.number l) ∧ ofLiteral l = p.canonical := by
  obtain ⟨l, hread, hbits⟩ := Csv.CellType.exists_read_number p.value
  exact ⟨l, hread, congrArg Popularity.mk hbits⟩

end Popularity

/-- A record of the table as it is read back. -/
def AppRecord.canonical (r : AppRecord) : AppRecord :=
  { r with popularity := r.popularity.canonical }

/-- What has been read back once does not change any more. -/
theorem AppRecord.canonical_canonical (r : AppRecord) : r.canonical.canonical = r.canonical :=
  congrArg (AppRecord.mk r.app r.count) r.popularity.canonical_canonical

namespace IndexRow

/-- A row as it is read back. -/
def canonical (r : IndexRow) : IndexRow := { r with popularity := r.popularity.canonical }

theorem writable_rows (rows : List IndexRow) :
    Csv.Writable (schema.columns.map (·.name) :: rows.map toFields) := by
  apply Csv.writable_of_width 4 (by decide)
  · intro row hrow
    rcases List.mem_cons.mp hrow with rfl | h
    · rfl
    · obtain ⟨r, -, rfl⟩ := List.mem_map.mp h
      rfl
  · decide +kernel

/-- The cells of a row. -/
theorem readNamed_toFields (r : IndexRow) :
    ∃ cells, schema.readNamed (schema.columns.map (·.name)) r.toFields = .ok cells ∧
      ofCells cells = r.canonical := by
  obtain ⟨l, hnumber, hpopularity⟩ := r.popularity.exists_read_toField
  have hreads : Csv.Schema.Reads schema.columns r.toFields
      [.text r.app, .word r.count, .number l, .text r.indices] :=
    .cons (Csv.CellType.read_text r.app) (.cons (Csv.CellType.read_word r.count)
      (.cons hnumber (.cons (Csv.CellType.read_text r.indices) .nil)))
  refine ⟨_, Csv.Schema.readNamed_of_reads (by decide) hreads, ?_⟩
  unfold canonical
  rw [← hpopularity]
  rfl

/-- **An index file is read back.** -/
theorem readAll_fileOf (rows : List IndexRow) :
    readAll (fileOf rows) = .ok (rows.map canonical) := by
  apply Csv.Schema.readTable_write
  · exact writable_rows rows
  · exact fun r _ => rfl
  · exact fun r _ => readNamed_toFields r

/-! ## §3 — joining rows -/

theorem firstOfEachKey_eq_self {rows : List IndexRow} (h : (rows.map key).Nodup) :
    firstOfEachKey rows = rows := by
  induction rows with
  | nil => rfl
  | cons r rows ih =>
    rw [List.map_cons, List.nodup_cons] at h
    rw [firstOfEachKey, ih h.2]
    congr 1
    apply List.filter_eq_self.mpr
    intro other hother
    rw [decide_eq_true_iff]
    intro heq
    exact h.1 (heq ▸ List.mem_map_of_mem hother)

theorem lastWithKey_of_mem {rows : List IndexRow} (h : (rows.map key).Nodup) {r : IndexRow}
    (hr : r ∈ rows) : lastWithKey rows r.key = some r := by
  unfold lastWithKey
  cases hfind : rows.reverse.find? fun other => other.key = r.key with
  | none =>
    have hnone := List.find?_eq_none.mp hfind r (List.mem_reverse.mpr hr)
    simp at hnone
  | some other =>
    have hmem := List.mem_reverse.mp (List.mem_of_find?_eq_some hfind)
    have hkey : other.key = r.key := by simpa using List.find?_some hfind
    rw [List.inj_on_of_nodup_map h hmem hr hkey]

/-- The row of an application. -/
def ofRecord (record : AppRecord) (indices : String) : IndexRow :=
  ⟨record.app, record.count, record.popularity, indices⟩

/-- The rows of several applications, with a text of traces for each. -/
def rowsOf (records : List AppRecord) (text : String → String) : List IndexRow :=
  records.map fun record => ofRecord record (text record.app)

section RowsOf

variable {records : List AppRecord} (hnodup : (records.map (·.app)).Nodup)

include hnodup

theorem nodup_keys (text : String → String) : ((rowsOf records text).map key).Nodup := by
  unfold rowsOf
  rw [List.map_map]
  -- different applications have different keys
  apply List.Nodup.of_map Prod.fst
  rw [List.map_map]
  exact hnodup

/-- Joining two shards of one table joins the traces of every application. -/
theorem join_rowsOf (text other : String → String) :
    join (rowsOf records text) (rowsOf records other) =
      rowsOf records fun app => unwords (words (text app) ++ words (other app)) := by
  unfold join
  show (records.map fun record => ofRecord record (text record.app)).filterMap _ = records.map _
  rw [List.filterMap_map, ← List.filterMap_eq_map]
  apply List.filterMap_congr
  intro record hrecord
  have hmem : ofRecord record (other record.app) ∈ rowsOf records other :=
    List.mem_map_of_mem hrecord
  have hlast := lastWithKey_of_mem (nodup_keys hnodup other) hmem
  show (lastWithKey (rowsOf records other) (ofRecord record (other record.app)).key).map _ = _
  rw [hlast]
  rfl

/-- **Merging the shards of one table loses nothing.** Every application has one row, with the
traces of all shards in their order. -/
theorem merge_rowsOf {texts : List (String → String)} (hne : texts ≠ []) :
    ∃ text, merge (texts.map (rowsOf records)) = rowsOf records text ∧
      ∀ app, words (text app) = texts.flatMap fun text => words (text app) := by
  obtain ⟨first, rest, rfl⟩ := List.exists_cons_of_ne_nil hne
  rw [List.map_cons, merge, firstOfEachKey_eq_self (nodup_keys hnodup first)]
  clear hne
  induction rest generalizing first with
  | nil =>
    refine ⟨first, rfl, ?_⟩
    intro app
    rw [List.flatMap_cons, List.flatMap_nil, List.append_nil]
  | cons second rest ih =>
    rw [List.map_cons, List.foldl_cons, join_rowsOf hnodup]
    obtain ⟨text, hmerge, hwords⟩ :=
      ih fun app => unwords (words (first app) ++ words (second app))
    refine ⟨text, hmerge, ?_⟩
    intro app
    rw [hwords, List.flatMap_cons, List.flatMap_cons, List.flatMap_cons, words_unwords,
      List.flatMap_append, flatMap_words_of_isWord fun w hw => isWord_of_mem_words hw,
      flatMap_words_of_isWord fun w hw => isWord_of_mem_words hw, List.append_assoc]

end RowsOf

/-- What is read back of rows with the data of some records. -/
theorem map_canonical_rowsOf (records : List AppRecord) (text : String → String) :
    (rowsOf records text).map canonical = rowsOf (records.map AppRecord.canonical) text := by
  unfold rowsOf
  rw [List.map_map, List.map_map]
  rfl

end IndexRow

/-! ## §4 — the rows of an audit -/

namespace AppTable

/-- The records that an index of the table lists. -/
def indexed (t : AppTable) : List AppRecord := t.apps.filterMap t.get?

theorem apps_indexed (t : AppTable) : t.indexed.map (·.app) = t.apps := by
  unfold indexed
  rw [List.map_filterMap]
  refine (List.filterMap_congr (g := some) fun app happ => ?_).trans List.filterMap_some
  obtain ⟨record, hr⟩ := mem_apps_iff.mp happ
  rw [hr, Option.map_some, app_of_get? hr]

theorem get?_of_mem_indexed {t : AppTable} {record : AppRecord} (h : record ∈ t.indexed) :
    t.get? record.app = some record := by
  obtain ⟨app, -, hr⟩ := List.mem_filterMap.mp h
  rw [app_of_get? hr]
  exact hr

end AppTable

/-- The rows of an index after additions. -/
theorem AuditIndex.rows_addAll_ofTable (t : AppTable) (adds : List (String × String)) :
    ((ofTable t).addAll adds).rows =
      IndexRow.rowsOf t.indexed fun app => unwords (added adds app) := by
  unfold rows IndexRow.rowsOf AppTable.indexed
  rw [entries_addAll_ofTable, List.map_filterMap, List.map_filterMap]
  apply List.filterMap_congr
  intro app _
  cases hr : t.get? app with
  | none => rfl
  | some record =>
    rw [Option.map_some, Option.map_some, Option.map_some, AppTable.app_of_get? hr]
    rfl

/-- Additions that are words are read off a row as they were made. -/
theorem AuditIndex.flatMap_words_added {adds : List (String × String)}
    (h : ∀ x ∈ adds, IsWord x.2) (app : String) :
    (added adds app).flatMap words = added adds app := by
  apply flatMap_words_of_isWord
  intro w hw
  obtain ⟨x, hx, rfl⟩ := List.mem_map.mp hw
  exact h x (List.mem_of_mem_filter hx)

end WorkloadSynth
