import WorkloadSynth.Proofs.UnitNames

/-!
# How observations are filed

The units of continuous mode are defined by what stands in their slots.  They are also what comes of
going through the observations once (`fileAll_eq`): each is put behind the others of its function,
and then into the slot of its day, unless that slot is taken.  No observation is lost on the way and
none is used twice (`Filed`): it stands in one slot of one unit, or behind one of its function and
day, or its day lies outside of the trace.
-/

namespace WorkloadSynth.TraceUnit

/-! ## §1 — one observation at a time -/

/-- Files an observation under its day.  Days are words that are counted from one, and the
subtraction takes day zero behind all slots.  A slot that is taken stays as it is. -/
def fileDay (slots : List (Option Observation)) (o : Observation) : List (Option Observation) :=
  slots.modify (UInt64.ofNat o.day - 1).toNat fun slot => slot.or (some o)

/-- Files an observation under its function, behind all groups if the function is new. -/
def fileFunction : List (String × List Observation) → Observation → List (String × List Observation)
  | [], o => [(o.function, [o])]
  | group :: groups, o =>
    if group.1 = o.function then (group.1, group.2 ++ [o]) :: groups
    else group :: fileFunction groups o

/-- The unit of a group whose observations are filed one after the other. -/
def fileGroup (days : Nat) (group : String × List Observation) : TraceUnit :=
  ⟨(group.2.head?.map (·.id)).getD "", group.2.foldl fileDay (List.replicate days none)⟩

/-- The units of observations that are filed one after the other. -/
def fileAll (days : Nat) (observations : List Observation) : List TraceUnit :=
  (observations.foldl fileFunction []).map (fileGroup days)

section Days

variable {observations : List Observation} {o : Observation} {days k : Nat}

theorem getElem?_arrange (hk : k < days) :
    (arrange observations days)[k]? = some (observations.find? fun o => o.day = k + 1) := by
  unfold arrange
  rw [List.getElem?_map, List.getElem?_range hk]
  rfl

/-- The slot of a day; day zero has none. -/
theorem toNat_day_sub_one (hday : o.day < UInt64.size) (hk : k + 1 < UInt64.size) :
    (UInt64.ofNat o.day - 1).toNat = k ↔ o.day = k + 1 := by
  rw [UInt64.toNat_sub, UInt64.toNat_ofNat_of_lt' hday, show (1 : UInt64).toNat = 1 from rfl]
  rw [UInt64.size] at hday hk
  omega

theorem arrange_append_singleton (hdays : days < UInt64.size) (hday : o.day < UInt64.size) :
    arrange (observations ++ [o]) days = fileDay (arrange observations days) o := by
  apply List.ext_getElem?
  intro k
  unfold fileDay
  rw [List.getElem?_modify]
  by_cases hk : k < days
  · have hslot := toNat_day_sub_one hday (Nat.lt_of_le_of_lt hk hdays)
    rw [getElem?_arrange hk, getElem?_arrange hk, List.find?_append, List.find?_singleton]
    simp only [hslot]
    by_cases ho : o.day = k + 1
    · simp [ho]
    · simp [ho]
  · have hnone : ∀ os : List Observation, (arrange os days)[k]? = none := fun os =>
      List.getElem?_eq_none (by rw [arrange_length]; omega)
    rw [hnone, hnone]
    rfl

/-- **Filing by days.** -/
theorem foldl_fileDay (hdays : days < UInt64.size)
    (hwords : ∀ o ∈ observations, o.day < UInt64.size) :
    observations.foldl fileDay (List.replicate days none) = arrange observations days := by
  induction observations using List.reverseRecOn with
  | nil =>
    unfold arrange
    rw [List.foldl_nil, ← List.length_range (n := days), ← List.map_const', List.length_range]
    rfl
  | append_singleton observations o ih =>
    rw [List.forall_mem_append, List.forall_mem_singleton] at hwords
    rw [List.foldl_append, ih hwords.1, arrange_append_singleton hdays hwords.2]
    rfl

end Days

section Functions

variable {groups : List (String × List Observation)} {o : Observation}

theorem fileFunction_of_new (h : o.function ∉ groups.map (·.1)) :
    fileFunction groups o = groups ++ [(o.function, [o])] := by
  induction groups with
  | nil => rfl
  | cons group groups ih =>
    rw [List.map_cons, List.mem_cons, not_or] at h
    rw [fileFunction, if_neg (Ne.symm h.1), ih h.2]
    rfl

theorem fileFunction_of_known (hnodup : (groups.map (·.1)).Nodup)
    (h : o.function ∈ groups.map (·.1)) :
    fileFunction groups o =
      groups.map fun group =>
        (group.1, if group.1 = o.function then group.2 ++ [o] else group.2) := by
  induction groups with
  | nil => exact absurd h List.not_mem_nil
  | cons group groups ih =>
    rw [List.map_cons, List.nodup_cons] at hnodup
    rw [fileFunction, List.map_cons]
    by_cases hgroup : group.1 = o.function
    · -- the function has no second group
      have hrest : groups.map (fun group =>
          (group.1, if group.1 = o.function then group.2 ++ [o] else group.2)) = groups := by
        refine (List.map_congr_left fun other hother => ?_).trans (List.map_id groups)
        have hne : other.1 ≠ o.function := by
          rw [← hgroup]
          exact fun heq => hnodup.1 (heq ▸ List.mem_map_of_mem hother)
        rw [if_neg hne]
        rfl
      rw [if_pos hgroup, if_pos hgroup, hrest]
    · have hmem : o.function ∈ groups.map (·.1) := by
        rcases List.mem_cons.mp h with heq | hmem
        · exact absurd heq.symm hgroup
        · exact hmem
      rw [if_neg hgroup, if_neg hgroup, ih hnodup.2 hmem]

theorem functions_groupByFunction (observations : List Observation) :
    (groupByFunction observations).map (·.1) = (observations.map (·.function)).eraseDups := by
  unfold groupByFunction
  rw [List.map_map]
  exact List.map_id _

theorem groupByFunction_append_singleton (observations : List Observation) (o : Observation) :
    groupByFunction (observations ++ [o]) = fileFunction (groupByFunction observations) o := by
  have hfunctions := functions_groupByFunction observations
  have hkeys : ((observations ++ [o]).map (·.function)).eraseDups =
      if o.function ∈ observations.map (·.function) then (observations.map (·.function)).eraseDups
      else (observations.map (·.function)).eraseDups ++ [o.function] := by
    rw [List.map_append, List.map_singleton, eraseDups_append_singleton]
  by_cases hknown : o.function ∈ observations.map (·.function)
  · rw [fileFunction_of_known]
    · unfold groupByFunction
      rw [hkeys, if_pos hknown, List.map_map]
      refine List.map_congr_left fun function _ => ?_
      rw [List.filter_append]
      by_cases heq : function = o.function
      · simp [heq]
      · simp [heq, Ne.symm heq]
    · rw [hfunctions]
      exact nodup_eraseDups _
    · rw [hfunctions]
      exact List.mem_eraseDups.mpr hknown
  · rw [fileFunction_of_new]
    · unfold groupByFunction
      rw [hkeys, if_neg hknown, List.map_append, List.map_singleton]
      congr 1
      · refine List.map_congr_left fun function hfunction => ?_
        have hne : ¬ o.function = function := by
          rintro rfl
          exact hknown (List.mem_eraseDups.mp hfunction)
        rw [List.filter_append, List.filter_cons_of_neg (by simpa using hne), List.filter_nil,
          List.append_nil]
      · have hnone : observations.filter (fun o' => o'.function = o.function) = [] := by
          rw [List.filter_eq_nil_iff]
          intro o' ho' heq
          exact hknown (of_decide_eq_true heq ▸ List.mem_map_of_mem ho')
        rw [List.filter_append, hnone]
        simp
    · rw [hfunctions]
      exact fun h => hknown (List.mem_eraseDups.mp h)

/-- **Filing by functions.** -/
theorem foldl_fileFunction (observations : List Observation) :
    observations.foldl fileFunction [] = groupByFunction observations := by
  induction observations using List.reverseRecOn with
  | nil => rfl
  | append_singleton observations o ih =>
    rw [List.foldl_append, ih, groupByFunction_append_singleton]
    rfl

end Functions

/-- **One pass makes the units.** -/
theorem fileAll_eq {observations : List Observation} {days : Nat} (hdays : days < UInt64.size)
    (hwords : ∀ o ∈ observations, o.day < UInt64.size) :
    fileAll days observations = ofObservations .continuous days observations := by
  show (observations.foldl fileFunction []).map (fileGroup days) =
    (groupByFunction observations).map (ofGroup days)
  rw [foldl_fileFunction]
  refine List.map_congr_left fun group hgroup => ?_
  obtain ⟨function, -, rfl⟩ := List.mem_map.mp hgroup
  unfold fileGroup ofGroup
  rw [foldl_fileDay hdays fun o ho => hwords o (List.mem_filter.mp ho).1]

/-! ## §2 — what stands in the slots -/

/-- The functions of a list of observations, each once, in the order of first occurrences. -/
structure ListsFunctions (observations : List Observation) (functions : List String) : Prop where
  mem : ∀ function, function ∈ functions ↔ ∃ o ∈ observations, o.function = function
  once : functions.Nodup
  order : functions.Pairwise fun f g =>
    (observations.map (·.function)).idxOf f < (observations.map (·.function)).idxOf g

/-- The unit of a function: named after its first observation, whatever the day of that one, with
the first observation of each day in the slot of the day. -/
structure IsUnitOf (observations : List Observation) (days : Nat) (function : String)
    (unit : TraceUnit) : Prop where
  name : ∃ o : Observation, o.IsFirstIn observations ∧ o.function = function ∧ unit.name = o.id
  length : unit.slots.length = days
  slots : ∀ k < days, unit.slots[k]? =
    some (observations.find? fun o => o.function = function ∧ o.day = k + 1)

theorem listsFunctions_eraseDups (observations : List Observation) :
    ListsFunctions observations (observations.map (·.function)).eraseDups where
  mem function := by
    rw [List.mem_eraseDups, List.mem_map]
  once := nodup_eraseDups _
  order := eraseDups_pairwise_idxOf _

theorem isUnitOf_ofGroup {observations : List Observation} {function : String} (days : Nat)
    (h : function ∈ observations.map (·.function)) :
    IsUnitOf observations days function
      (ofGroup days (function, observations.filter fun o => o.function = function)) where
  name := by
    obtain ⟨o, hfirst, rfl⟩ := exists_isFirstIn h
    exact ⟨o, hfirst, rfl, groupName_of_isFirstIn hfirst⟩
  length := arrange_length _ days
  slots := by
    intro k hk
    show (arrange (observations.filter fun o => o.function = function) days)[k]? = _
    rw [getElem?_arrange hk, List.find?_filter]
    simp

/-- Every function has one unit. -/
theorem forall₂_isUnitOf (observations : List Observation) (days : Nat) :
    List.Forall₂ (IsUnitOf observations days) (observations.map (·.function)).eraseDups
      (ofObservations .continuous days observations) := by
  show List.Forall₂ _ _ ((groupByFunction observations).map (ofGroup days))
  unfold groupByFunction
  rw [List.map_map, List.forall₂_map_right_iff, List.forall₂_same]
  intro function hfunction
  exact isUnitOf_ofGroup days (List.mem_eraseDups.mp hfunction)

/-! ## §3 — where an observation goes -/

/-- The observation at a position, if no other of its function and day stands before it. -/
structure IsEarliest (observations : List Observation) (i : Nat) (o : Observation) : Prop where
  at_position : observations[i]? = some o
  earlier : ∀ j < i, ∀ o', observations[j]? = some o' → o'.function = o.function → o'.day ≠ o.day

theorem find?_eq_some_iff_isEarliest {observations : List Observation} {function : String}
    {day : Nat} {o : Observation} :
    observations.find? (fun o => o.function = function ∧ o.day = day) = some o ↔
      o.function = function ∧ o.day = day ∧ ∃ i, IsEarliest observations i o := by
  rw [List.find?_eq_some_iff_getElem]
  simp only [decide_eq_true_eq, Bool.not_eq_true', decide_eq_false_iff_not, and_assoc]
  constructor
  · rintro ⟨hfunction, hday, i, hi, rfl, hbefore⟩
    refine ⟨hfunction, hday, i, List.getElem?_eq_getElem hi, ?_⟩
    intro j hj o' ho' hsame hsame'
    obtain ⟨hlt, rfl⟩ := List.getElem?_eq_some_iff.mp ho'
    exact hbefore j hj ⟨hsame.trans hfunction, hsame'.trans hday⟩
  · rintro ⟨hfunction, hday, i, hposition, hearlier⟩
    obtain ⟨hi, rfl⟩ := List.getElem?_eq_some_iff.mp hposition
    refine ⟨hfunction, hday, i, hi, rfl, ?_⟩
    rintro j hj ⟨hsame, hsame'⟩
    exact hearlier j hj _ (List.getElem?_eq_getElem (Nat.lt_trans hj hi))
      (hsame.trans hfunction.symm) (hsame'.trans hday.symm)

/-- An observation has one position at most where it is the earliest. -/
theorem IsEarliest.position_eq {observations : List Observation} {i j : Nat} {o : Observation}
    (hi : IsEarliest observations i o) (hj : IsEarliest observations j o) : i = j := by
  rcases Nat.lt_trichotomy i j with hlt | heq | hlt
  · exact absurd rfl (hj.earlier i hlt o hi.at_position rfl)
  · exact heq
  · exact absurd rfl (hi.earlier j hlt o hj.at_position rfl)

/-- The observation at a position fills a slot: the second number of `place` is that of the slot,
the first that of its unit. -/
def Fills (observations : List Observation) (units : List TraceUnit) (i : Nat) (place : Nat × Nat) :
    Prop :=
  ∃ o unit, IsEarliest observations i o ∧ units[place.1]? = some unit ∧
    unit.slots[place.2]? = some (some o)

section Places

variable {observations : List Observation} {days : Nat} {functions : List String}
  {units : List TraceUnit} {place : Nat × Nat} {i : Nat} {o : Observation}

/-- A slot tells the function and the day of what stands in it. -/
theorem of_slot (h : List.Forall₂ (IsUnitOf observations days) functions units) {unit : TraceUnit}
    {u k : Nat} (hunit : units[u]? = some unit) (hslot : unit.slots[k]? = some (some o)) :
    functions[u]? = some o.function ∧ k < days ∧ o.day = k + 1 ∧
      ∃ i, IsEarliest observations i o := by
  obtain ⟨hlt, rfl⟩ := List.getElem?_eq_some_iff.mp hunit
  have hlt' : u < functions.length := h.length_eq ▸ hlt
  have hof : IsUnitOf observations days functions[u] units[u] := h.get hlt' hlt
  have hk : k < days := by
    rw [← hof.length]
    exact (List.getElem?_eq_some_iff.mp hslot).1
  obtain ⟨hfunction, hday, hearliest⟩ := find?_eq_some_iff_isEarliest.mp
    (Option.some.inj ((hof.slots _ hk).symm.trans hslot))
  exact ⟨by rw [List.getElem?_eq_getElem hlt', hfunction], hk, hday, hearliest⟩

/-- The earliest observation of a function on a day of the trace has its slot. -/
theorem exists_place (h : List.Forall₂ (IsUnitOf observations days) functions units)
    (hfunctions : ListsFunctions observations functions) (ho : IsEarliest observations i o)
    (hday : 1 ≤ o.day) (hday' : o.day ≤ days) : ∃ place, Fills observations units i place := by
  have hmem : o.function ∈ functions :=
    (hfunctions.mem _).mpr ⟨o, List.mem_of_getElem? ho.at_position, rfl⟩
  obtain ⟨u, hu⟩ := List.mem_iff_getElem?.mp hmem
  obtain ⟨hlt, hfunction⟩ := List.getElem?_eq_some_iff.mp hu
  have hlt' : u < units.length := h.length_eq ▸ hlt
  have hof : IsUnitOf observations days functions[u] units[u] := h.get hlt hlt'
  have hfind := find?_eq_some_iff_isEarliest.mpr ⟨hfunction.symm, rfl, i, ho⟩
  refine ⟨(u, o.day - 1), o, units[u], ho, List.getElem?_eq_getElem hlt', ?_⟩
  rw [hof.slots _ (by omega), Nat.sub_add_cancel hday, hfind]

/-- There is one slot for a function and a day. -/
theorem place_eq (h : List.Forall₂ (IsUnitOf observations days) functions units)
    (hfunctions : ListsFunctions observations functions) {place' : Nat × Nat}
    (hi : Fills observations units i place) (hi' : Fills observations units i place') :
    place = place' := by
  obtain ⟨o, unit, ho, hunit, hslot⟩ := hi
  obtain ⟨o', unit', ho', hunit', hslot'⟩ := hi'
  obtain rfl := Option.some.inj (ho.at_position.symm.trans ho'.at_position)
  obtain ⟨hfunction, -, hday, -⟩ := of_slot h hunit hslot
  obtain ⟨hfunction', -, hday', -⟩ := of_slot h hunit' hslot'
  have hlt := (List.getElem?_eq_some_iff.mp hfunction).1
  refine Prod.ext ?_ (by omega)
  exact (List.getElem?_inj hlt hfunctions.once).mp (hfunction.trans hfunction'.symm)

end Places

/-- What the units of continuous mode make of their observations. -/
structure Filed (observations : List Observation) (days : Nat) (units : List TraceUnit) : Prop where
  /-- There is one unit for each function, in the order of the functions. -/
  perFunction : ∃ functions, ListsFunctions observations functions ∧
    List.Forall₂ (IsUnitOf observations days) functions units
  /-- What was observed outside of the trace is not used. -/
  outside : ∀ o ∈ observations, (o.day = 0 ∨ days < o.day) → ∀ unit ∈ units, some o ∉ unit.slots
  /-- Everything else fills one slot of one unit, unless another observation of its function and
  day stands before it. -/
  inside : ∀ i o, observations[i]? = some o → 1 ≤ o.day → o.day ≤ days →
    (∃! place, Fills observations units i place) ∨
      ∃ j < i, ∃ o', observations[j]? = some o' ∧ o'.function = o.function ∧ o'.day = o.day
  /-- A slot that is filled is filled by one observation. -/
  filled : ∀ (place : Nat × Nat) unit o, units[place.1]? = some unit →
    unit.slots[place.2]? = some (some o) → ∃! i, Fills observations units i place

/-- **No observation is lost, moved or used twice.** In continuous mode there is one unit for each
function, named after its first observation, and its slots hold the first observation of each day.
These are the units that one pass over the observations makes.  In daily mode every observation is
a unit. -/
theorem ofObservations_filed (observations : List Observation) (days : Nat) :
    Filed observations days (ofObservations .continuous days observations) ∧
    (days < UInt64.size → (∀ o ∈ observations, o.day < UInt64.size) →
      fileAll days observations = ofObservations .continuous days observations) ∧
    ofObservations .daily days observations =
      observations.map fun o => ⟨o.function ++ "(" ++ o.id ++ ")", [some o]⟩ := by
  have hunits := forall₂_isUnitOf observations days
  have hfunctions := listsFunctions_eraseDups observations
  refine ⟨⟨⟨_, hfunctions, hunits⟩, ?_, ?_, ?_⟩, fileAll_eq, rfl⟩
  · intro o _ hout unit hunit hslot
    obtain ⟨u, hu⟩ := List.mem_iff_getElem?.mp hunit
    obtain ⟨k, hk⟩ := List.mem_iff_getElem?.mp hslot
    obtain ⟨-, hlt, hday, -⟩ := of_slot hunits hu hk
    omega
  · intro i o ho hday hday'
    by_cases hearliest : IsEarliest observations i o
    · left
      obtain ⟨place, hplace⟩ := exists_place hunits hfunctions hearliest hday hday'
      exact ⟨place, hplace, fun place' hplace' => place_eq hunits hfunctions hplace' hplace⟩
    · right
      by_contra hnone
      refine hearliest ⟨ho, fun j hj o' ho' hfunction hsame => hnone ?_⟩
      exact ⟨j, hj, o', ho', hfunction, hsame⟩
  · intro place unit o hunit hslot
    obtain ⟨-, -, -, i, hi⟩ := of_slot hunits hunit hslot
    refine ⟨i, ⟨o, unit, hi, hunit, hslot⟩, ?_⟩
    rintro j ⟨o', unit', hj, hunit', hslot'⟩
    obtain rfl := Option.some.inj (hunit.symm.trans hunit')
    obtain rfl := Option.some.inj (Option.some.inj (hslot.symm.trans hslot'))
    exact hj.position_eq hi

/-- A function whose first observation lies behind a trace of two days and whose second one has a
repetition, and another function on day zero. -/
def filedSample : List Observation :=
  [{ idleObservation with day := 9, id := "late" }, idleObservation,
    { idleObservation with id := "again" }, { otherObservation with day := 0 }]

/-- The second observation fills a slot, the third one is behind it. -/
theorem ofObservations_filed_sample :
    (2 < UInt64.size ∧ ∀ o ∈ filedSample, o.day < UInt64.size) ∧
      fileAll 2 filedSample = [⟨"late", [some idleObservation, none]⟩, ⟨"g", [none, none]⟩] ∧
      (∃! place, Fills filedSample (ofObservations .continuous 2 filedSample) 1 place) ∧
      ∀ place, ¬ Fills filedSample (ofObservations .continuous 2 filedSample) 2 place := by
  have hwords : ∀ o ∈ filedSample, o.day < UInt64.size := by decide
  obtain ⟨hfiled, hpass, -⟩ := ofObservations_filed filedSample 2
  refine ⟨⟨by decide, hwords⟩, (hpass (by decide) hwords).trans rfl, ?_, ?_⟩
  · rcases hfiled.inside 1 idleObservation rfl (by decide) (by decide) with
      hunique | ⟨j, hj, o', ho', -, hday⟩
    · exact hunique
    · obtain rfl : j = 0 := by omega
      obtain rfl := Option.some.inj ho'
      exact absurd hday (by decide)
  · rintro place ⟨o, unit, ho, -, -⟩
    obtain rfl := Option.some.inj ho.at_position
    exact ho.earlier 1 (by decide) idleObservation rfl rfl rfl

end WorkloadSynth.TraceUnit
