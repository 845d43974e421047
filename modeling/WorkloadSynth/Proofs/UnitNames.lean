import WorkloadSynth.Proofs.AuditIndex
import WorkloadSynth.Proofs.Generate
import WorkloadSynth.Proofs.Rows

/-!
# The names of units

A unit is named after an observation: in daily mode after its only one, in continuous mode after the
first of its function.  Nothing that is read of a task keeps two units from having the same name
(`unitNames_twoDays`).  Names are different if the ids tell these observations apart
(`unitNames_nodup_of_toldApart`), and without a column for ids, names are different exactly if no
function has two daily units (`unitNames_nodup_iff_of_noIdColumn`).
-/

namespace WorkloadSynth

/-! ## §1 — names with parentheses -/

/-- A list is cut at the last occurrence of an element in one way only. -/
theorem append_cons_inj_of_last {α : Type} {xs ys xs' ys' : List α} {a : α}
    (h : xs ++ a :: ys = xs' ++ a :: ys') (hys : a ∉ ys) (hys' : a ∉ ys') :
    xs = xs' ∧ ys = ys' := by
  rcases List.append_eq_append_iff.mp h with ⟨more, rfl, hmore⟩ | ⟨more, rfl, hmore⟩
  · cases more with
    | nil => exact ⟨(List.append_nil xs).symm, (List.cons.inj hmore).2⟩
    | cons b more =>
      refine absurd ?_ hys
      rw [(List.cons.inj hmore).2]
      exact List.mem_append_right more List.mem_cons_self
  · cases more with
    | nil => exact ⟨List.append_nil xs', (List.cons.inj hmore).2.symm⟩
    | cons b more =>
      refine absurd ?_ hys'
      rw [(List.cons.inj hmore).2]
      exact List.mem_append_right more List.mem_cons_self

theorem toList_parenthesized (function id : String) :
    (function ++ "(" ++ id ++ ")").toList = function.toList ++ '(' :: (id.toList ++ [')']) := by
  simp [String.toList_append]

/-- The last opening parenthesis of a name stands in front of the id, unless the id has one. -/
theorem parenthesized_inj {function id function' id' : String}
    (h : function ++ "(" ++ id ++ ")" = function' ++ "(" ++ id' ++ ")")
    (hid : '(' ∉ id.toList) (hid' : '(' ∉ id'.toList) : function = function' ∧ id = id' := by
  have hlast : ∀ {cs : List Char}, '(' ∉ cs → '(' ∉ cs ++ [')'] := by
    intro cs hcs hmem
    rcases List.mem_append.mp hmem with hmem | hmem
    · exact hcs hmem
    · exact absurd (List.mem_singleton.mp hmem) (by decide)
  have hlists := congrArg String.toList h
  rw [toList_parenthesized, toList_parenthesized] at hlists
  obtain ⟨hfunction, hids⟩ := append_cons_inj_of_last hlists (hlast hid) (hlast hid')
  exact ⟨String.toList_inj.mp hfunction, String.toList_inj.mp (List.append_cancel_right hids)⟩

/-- A name that repeats the function shows it by its length. -/
theorem parenthesized_self_inj {function function' : String}
    (h : function ++ "(" ++ function ++ ")" = function' ++ "(" ++ function' ++ ")") :
    function = function' := by
  have hlists := congrArg String.toList h
  rw [toList_parenthesized, toList_parenthesized] at hlists
  have hlength := congrArg List.length hlists
  simp only [List.length_append, List.length_cons, List.length_nil] at hlength
  exact String.toList_inj.mp (List.append_inj_left hlists (by omega))

/-! ## §2 — units with names of their own -/

/-- The names of the units of a run. -/
def Config.unitNames (config : Config) (observations : List Observation) : List String :=
  (config.units observations).map (·.name)

namespace Observation

/-- No other observation of its function stands before this one. -/
def IsFirstIn (o : Observation) (observations : List Observation) : Prop :=
  observations.find? (fun o' => o'.function = o.function) = some o

/-- Are the observations that units are named after told apart by their ids?  In daily mode that is
asked of every two observations of a function, in continuous mode of the first observations of every
two functions. -/
def ToldApart (mode : TraceMode) (observations : List Observation) : Prop :=
  match mode with
  | .daily => observations.Pairwise fun o o' => o.function = o'.function → o.id ≠ o'.id
  | .continuous => ∀ o o' : Observation, o.IsFirstIn observations → o'.IsFirstIn observations →
      o.id = o'.id → o.function = o'.function

end Observation

section Names

variable {config : Config} {observations : List Observation}

theorem unitNames_of_daily (hmode : config.mode = .daily) :
    config.unitNames observations =
      observations.map fun o => o.function ++ "(" ++ o.id ++ ")" := by
  unfold Config.unitNames Config.units TraceUnit.ofObservations
  rw [hmode]
  exact List.map_map

/-- The name of the unit of a function. -/
def groupName (observations : List Observation) (function : String) : String :=
  ((observations.filter fun o => o.function = function).head?.map (·.id)).getD ""

theorem unitNames_of_continuous (hmode : config.mode = .continuous) :
    config.unitNames observations =
      (observations.map (·.function)).eraseDups.map (groupName observations) := by
  unfold Config.unitNames Config.units TraceUnit.ofObservations TraceUnit.groupByFunction
  rw [hmode]
  dsimp only
  rw [List.map_map, List.map_map]
  rfl

/-- The unit of a function is named after its first observation. -/
theorem groupName_of_isFirstIn {o : Observation} (h : o.IsFirstIn observations) :
    groupName observations o.function = o.id := by
  unfold groupName
  rw [List.head?_filter, h]
  rfl

theorem mem_of_isFirstIn {o : Observation} (h : o.IsFirstIn observations) : o ∈ observations :=
  List.mem_of_find?_eq_some h

theorem exists_isFirstIn {function : String} (h : function ∈ observations.map (·.function)) :
    ∃ o : Observation, o.IsFirstIn observations ∧ o.function = function := by
  obtain ⟨o', ho', rfl⟩ := List.mem_map.mp h
  have hsome : (observations.find? fun x => x.function = o'.function).isSome :=
    List.find?_isSome.mpr ⟨o', ho', by simp⟩
  obtain ⟨o, ho⟩ := Option.isSome_iff_exists.mp hsome
  have hfunction : o.function = o'.function := by simpa using List.find?_some ho
  refine ⟨o, ?_, hfunction⟩
  rw [Observation.IsFirstIn, hfunction]
  exact ho

/-- In continuous mode names are different exactly if the first observations of the functions have
different ids. -/
theorem unitNames_nodup_iff_of_continuous (hmode : config.mode = .continuous) :
    (config.unitNames observations).Nodup ↔ Observation.ToldApart .continuous observations := by
  rw [unitNames_of_continuous hmode, List.nodup_map_iff_inj_on (nodup_eraseDups _)]
  constructor
  · intro hinj o o' ho ho' hid
    apply hinj
    · exact List.mem_eraseDups.mpr (List.mem_map_of_mem (mem_of_isFirstIn ho))
    · exact List.mem_eraseDups.mpr (List.mem_map_of_mem (mem_of_isFirstIn ho'))
    · rw [groupName_of_isFirstIn ho, groupName_of_isFirstIn ho', hid]
  · intro happart function hfunction function' hfunction' hname
    obtain ⟨o, ho, rfl⟩ := exists_isFirstIn (List.mem_eraseDups.mp hfunction)
    obtain ⟨o', ho', rfl⟩ := exists_isFirstIn (List.mem_eraseDups.mp hfunction')
    rw [groupName_of_isFirstIn ho, groupName_of_isFirstIn ho'] at hname
    exact happart o o' ho ho' hname

theorem unitNames_nodup_iff_of_daily (hmode : config.mode = .daily) :
    (config.unitNames observations).Nodup ↔ observations.Pairwise fun o o' =>
      o.function ++ "(" ++ o.id ++ ")" ≠ o'.function ++ "(" ++ o'.id ++ ")" := by
  rw [unitNames_of_daily hmode, List.Nodup, List.pairwise_map]

/-- Units with names of their own are named after observations that are told apart. -/
theorem toldApart_of_unitNames_nodup (h : (config.unitNames observations).Nodup) :
    Observation.ToldApart config.mode observations := by
  cases hmode : config.mode with
  | daily =>
    refine ((unitNames_nodup_iff_of_daily hmode).mp h).imp ?_
    intro o o' hname hfunction hid
    exact hname (by rw [hfunction, hid])
  | continuous => exact (unitNames_nodup_iff_of_continuous hmode).mp h

/-- **Ids that tell observations apart give different names.** In daily mode a parenthesis in an id
could stand for the one in front of it. -/
theorem unitNames_nodup_of_toldApart (h : Observation.ToldApart config.mode observations)
    (hparen : config.mode = .daily → ∀ o ∈ observations, '(' ∉ o.id.toList) :
    (config.unitNames observations).Nodup := by
  cases hmode : config.mode with
  | daily =>
    rw [hmode] at h
    rw [unitNames_nodup_iff_of_daily hmode]
    refine List.Pairwise.imp_of_mem ?_ h
    intro o o' ho ho' happart hname
    obtain ⟨hfunction, hid⟩ := parenthesized_inj hname (hparen hmode o ho) (hparen hmode o' ho')
    exact happart hfunction hid
  | continuous =>
    rw [hmode] at h
    exact (unitNames_nodup_iff_of_continuous hmode).mpr h

/-- **Names without a column for ids.** A function has its own name for its unit in continuous mode,
and one name for all of its units in daily mode. -/
theorem unitNames_nodup_iff_of_noIdColumn {bytes : Bytes}
    (hread : Observation.readAll bytes = .ok observations)
    (hid : Observation.NoIdColumn bytes) :
    (config.unitNames observations).Nodup ↔
      (config.mode = .daily → (observations.map (·.function)).Nodup) := by
  have hids : ∀ o ∈ observations, o.id = o.function := fun o ho =>
    Observation.id_of_noIdColumn hread hid ho
  cases hmode : config.mode with
  | daily =>
    rw [unitNames_nodup_iff_of_daily hmode, List.Nodup, List.pairwise_map]
    constructor
    · intro h _
      refine List.Pairwise.imp_of_mem ?_ h
      intro o o' ho ho' hname hfunction
      exact hname (by rw [hids o ho, hids o' ho', hfunction])
    · intro h
      refine List.Pairwise.imp_of_mem ?_ (h rfl)
      intro o o' ho ho' hfunction hname
      rw [hids o ho, hids o' ho'] at hname
      exact hfunction (parenthesized_self_inj hname)
  | continuous =>
    rw [unitNames_nodup_iff_of_continuous hmode]
    refine iff_of_true ?_ (fun h => by cases h)
    intro o o' ho ho' h
    rw [← hids o (mem_of_isFirstIn ho), ← hids o' (mem_of_isFirstIn ho'), h]

end Names

/-! ## §3 — one function on two days -/

/-- The rows of one function on some days, each with the text of its day. -/
def dayRows : List (String × UInt64) := [("1", 1), ("2", 2)]

/-- A task with a column for days and none for ids, in which a function was observed on two days. -/
def twoDayTask : Bytes :=
  Csv.write (plainNames ["Day"] :: dayRows.map fun row => plainFields "a" "f" "0" [row.1])

theorem readAll_twoDayTask :
    Observation.readAll twoDayTask =
      .ok (dayRows.map fun row => plainObservation "a" "f" 0 row.2.toNat "f") := by
  have htrailing : TrailingColumns.ofHeader (plainNames ["Day"]) = ⟨some Layout.width, none⟩ :=
    Observation.ofHeader_plainNames ["Day"]
  have hday : ∀ row ∈ dayRows, Observation.readDay
      (plainFields "a" "f" "0" [row.1]).toArray (some Layout.width) = .ok row.2.toNat := by
    intro row hrow
    have hfield : Observation.field (plainFields "a" "f" "0" [row.1]).toArray Layout.width =
        row.1 := Observation.field_plainFields_more "a" "f" "0" [row.1] 0
    have hcount : Observation.readCount (plainFields "a" "f" "0" [row.1]).toArray Layout.width =
        .ok row.2 := by
      rcases List.mem_pair.mp hrow with rfl | rfl
      · exact Observation.readCount_of_text (l := .finite false ⟨1, 0⟩) hfield
          (by decide +kernel) (by decide +kernel) (by decide +kernel) (by decide +kernel)
      · exact Observation.readCount_of_text (l := .finite false ⟨2, 0⟩) hfield
          (by decide +kernel) (by decide +kernel) (by decide +kernel) (by decide +kernel)
    have hne : row.2 ≠ 0 := by
      rcases List.mem_pair.mp hrow with rfl | rfl
      · decide
      · decide
    simp [Observation.readDay, hcount, hne, bind, Except.bind, pure, Except.pure]
  apply Observation.readAll_plain
  · intro row _
    exact Observation.plainFields_length ..
  · intro row hrow
    rw [htrailing]
    exact Observation.ofFields_plainFields "a" "f" [row.1]
      (fun _ _ h => Observation.readCount_zero h) (hday row hrow)

/-- The units of the two days have the same name. -/
theorem unitNames_twoDays :
    Observation.readAll twoDayTask =
        .ok [plainObservation "a" "f" 0 1 "f", plainObservation "a" "f" 0 2 "f"] ∧
      ¬ (Config.unitNames { Config.standard with mode := .daily }
        [plainObservation "a" "f" 0 1 "f", plainObservation "a" "f" 0 2 "f"]).Nodup := by
  refine ⟨readAll_twoDayTask, ?_⟩
  rw [unitNames_of_daily rfl]
  show ¬ ["f" ++ "(" ++ "f" ++ ")", "f" ++ "(" ++ "f" ++ ")"].Nodup
  simp

end WorkloadSynth
