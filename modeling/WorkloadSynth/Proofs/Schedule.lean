import Mathlib
import WorkloadSynth.Proofs.Collection
import WorkloadSynth.Proofs.Files

/-!
# Schedules of a pool

A pool has workers and units of work.  A free worker takes the next unit, workers perform their file
operations in any order, and a unit that is done sends its message (`Pool.Step`).  Seen from the
floor, an operation is no move at all and every other step is a move (`Pool.State.floor`), so
that a pool does not get stuck, what it collects and how many steps are left are read off its floor.
If each unit does the same whatever the others do (`Pool.Script.Carries`), then every schedule ends,
and all of them collect the same values in unit order (`Pool.Script.Invariant.collect`).
-/

namespace WorkloadSynth.Pool

/-! ## §1 — states and steps -/

/-- What is left to do for a unit. -/
structure Job (α : Type) where
  unit : Nat
  action : FileAction (Except Error α)

/-- The units that wait for a worker, in order, those that have one, the messages that have arrived
so far, and the files. -/
structure State (α : Type) where
  waiting : List (Job α)
  running : List (Job α)
  arrivals : List (Message α)
  files : FileSystem

variable {α : Type}

/-- Nothing is left to do. -/
def State.Finished (s : State α) : Prop := s.waiting = [] ∧ s.running = []

/-- A pool before its first step. -/
def State.initial (actions : List (FileAction (Except Error α))) (files : FileSystem) : State α :=
  { waiting := actions.zipIdx.map fun (action, unit) => ⟨unit, action⟩
    running := []
    arrivals := []
    files }

/-- What a pool with this many workers can do next.  There is at least one worker. -/
inductive Step (workers : Nat) : State α → State α → Prop where
  /-- A free worker takes the first unit that waits. -/
  | start {job : Job α} {waiting running : List (Job α)} {arrivals : List (Message α)}
      {files : FileSystem} (free : running.length < max 1 workers) :
      Step workers ⟨job :: waiting, running, arrivals, files⟩
        ⟨waiting, running ++ [job], arrivals, files⟩
  /-- Some worker performs one file operation. -/
  | perform {unit : Nat} {action action' : FileAction (Except Error α)}
      {waiting before after : List (Job α)} {arrivals : List (Message α)}
      {files files' : FileSystem} (performed : action.step files = some (action', files')) :
      Step workers ⟨waiting, before ++ ⟨unit, action⟩ :: after, arrivals, files⟩
        ⟨waiting, before ++ ⟨unit, action'⟩ :: after, arrivals, files'⟩
  /-- Some worker is done with its unit and sends the answer. -/
  | finish {unit : Nat} {answer : Except Error α} {waiting before after : List (Job α)}
      {arrivals : List (Message α)} {files : FileSystem} :
      Step workers ⟨waiting, before ++ ⟨unit, .done answer⟩ :: after, arrivals, files⟩
        ⟨waiting, before ++ after, arrivals ++ [⟨unit, answer⟩], files⟩

/-- A number of steps in a row. -/
inductive Run (workers : Nat) (s : State α) : Nat → State α → Prop where
  | refl : Run workers s 0 s
  | tail {steps : Nat} {t u : State α} (run : Run workers s steps t) (step : Step workers t u) :
      Run workers s (steps + 1) u

/-- Every schedule of a pool comes to an end, and all of them collect these values and leave these
files. -/
structure AlwaysEnds (workers : Nat) (s : State α) (units : Nat) (values : List α)
    (files : FileSystem) : Prop where
  bounded : ∃ bound, ∀ steps t, Run workers s steps t → steps ≤ bound
  goesOn : ∀ steps t, Run workers s steps t → ¬ t.Finished → ∃ u, Step workers t u
  outcome : ∀ steps t, Run workers s steps t → t.Finished →
    collect units t.arrivals = .ok values ∧ t.files.SameAs files

theorem step_eq_none_iff {action : FileAction α} {files : FileSystem} :
    action.step files = none ↔ ∃ value, action = .done value := by
  cases action with
  | done value => exact ⟨fun _ => ⟨value, rfl⟩, fun _ => rfl⟩
  | _ =>
    constructor
    · intro h
      cases h
    · rintro ⟨value, h⟩
      cases h

/-- Where the units of a pool are, without what is left to do for them. -/
def State.floor (s : State α) : Floor α :=
  ⟨s.waiting.map (·.unit), s.running.map (·.unit), s.arrivals⟩

section Floor

variable {workers : Nat} {ends : List (Outcome α)} {s : State α}

theorem State.finished_floor_iff : s.floor.Finished ↔ s.Finished :=
  and_congr List.map_eq_nil_iff List.map_eq_nil_iff

section Moves

variable {unit : Nat} {job : Job α} {waiting running before after : List (Job α)}
  {arrivals : List (Message α)} {files files' : FileSystem}

theorem State.move_start (free : running.length < max 1 workers) :
    Move workers ends (State.floor ⟨job :: waiting, running, arrivals, files⟩)
      (State.floor ⟨waiting, running ++ [job], arrivals, files⟩) := by
  simpa [State.floor] using Move.start (by rwa [List.length_map])

theorem State.move_finish {answer : Except Error α}
    (ended : ends[unit]? = some (.answered answer)) :
    Move workers ends
      (State.floor ⟨waiting, before ++ ⟨unit, .done answer⟩ :: after, arrivals, files⟩)
      (State.floor ⟨waiting, before ++ after, arrivals ++ [⟨unit, answer⟩], files⟩) := by
  simpa [State.floor] using Move.answer ended

/-- An operation is no move. -/
theorem State.floor_perform (action action' : FileAction (Except Error α)) :
    State.floor ⟨waiting, before ++ ⟨unit, action'⟩ :: after, arrivals, files'⟩ =
      State.floor ⟨waiting, before ++ ⟨unit, action⟩ :: after, arrivals, files⟩ := by
  simp [State.floor]

end Moves

/-- A worker with a job has an operation to perform or an answer to send. -/
theorem exists_step_of_mem {job : Job α} (h : job ∈ s.running) : ∃ t, Step workers s t := by
  obtain ⟨waiting, running, arrivals, files⟩ := s
  obtain ⟨before, after, rfl⟩ := List.append_of_mem h
  obtain ⟨unit, action⟩ := job
  cases hstep : action.step files with
  | some next =>
    obtain ⟨action', files'⟩ := next
    exact ⟨_, .perform hstep⟩
  | none =>
    obtain ⟨answer, rfl⟩ := step_eq_none_iff.mp hstep
    exact ⟨_, .finish⟩

/-- **No deadlock.** Where the floor has a move, the pool has a step. -/
theorem exists_step_of_move {next : Floor α} (h : Move workers ends s.floor next) :
    ∃ t, Step workers s t := by
  have hworks : ∀ unit ∈ s.floor.running, ∃ t, Step workers s t := by
    intro unit hunit
    obtain ⟨job, hjob, -⟩ := List.mem_map.mp hunit
    exact exists_step_of_mem hjob
  generalize hfloor : s.floor = floor at h hworks
  cases h with
  | start free =>
    obtain ⟨waiting, running, arrivals, files⟩ := s
    obtain ⟨hwaiting, rfl, -⟩ := Floor.mk.inj hfloor
    obtain ⟨job, waiting', rfl, -, -⟩ := List.map_eq_cons_iff.mp hwaiting
    rw [List.length_map] at free
    exact ⟨_, .start free⟩
  | answer ended => exact hworks _ (List.mem_append_right _ List.mem_cons_self)
  | breakDown ended => exact hworks _ (List.mem_append_right _ List.mem_cons_self)

end Floor

/-! ## §2 — scripts -/

/-- What units do if all of their file operations are answered as foreseen: what is left to do at
each stage, the number of stages, and the value at the end. -/
structure Script (α : Type) where
  residual : Nat → Nat → FileAction (Except Error α)
  last : Nat → Nat
  value : Nat → α

namespace Script

/-- A condition on the stages of all units and the files carries a script: wherever it holds, each
unit can go on to its next stage, and it holds there again. -/
structure Carries (script : Script α) (units : Nat) (good : (Nat → Nat) → FileSystem → Prop) :
    Prop where
  done : ∀ unit < units, script.residual unit (script.last unit) = .done (.ok (script.value unit))
  advance : ∀ unit < units, ∀ stages files, good stages files →
    stages unit < script.last unit →
      ∃ files', (script.residual unit (stages unit)).step files =
          some (script.residual unit (stages unit + 1), files') ∧
        good (Function.update stages unit (stages unit + 1)) files'

variable (script : Script α)

/-- The message of a unit. -/
def message (unit : Nat) : Message α := ⟨unit, .ok (script.value unit)⟩

/-- Every unit ends with its value. -/
def ends (units : Nat) : List (Outcome α) :=
  ((List.range units).map script.value).map fun value => .answered (.ok value)

@[simp]
theorem ends_length (units : Nat) : (script.ends units).length = units := by
  simp [ends]

theorem ends_getElem? {units unit : Nat} (h : unit < units) :
    (script.ends units)[unit]? = some (.answered (.ok (script.value unit))) := by
  simp [ends, List.getElem?_range h]

/-- The values are collected from the messages of all units, whatever the order of arrival. -/
theorem collect_of_perm {units : Nat} {arrivals : List (Message α)}
    (h : arrivals.Perm (messages (script.ends units))) :
    Pool.collect units arrivals = .ok ((List.range units).map script.value) := by
  rw [← (collectionLaw_of_perm h).success _ rfl, ends_length]

/-- The messages of units one after the other. -/
theorem collect_messages (units : Nat) :
    Pool.collect units ((List.range' 0 units).map script.message) =
      .ok ((List.range units).map script.value) := by
  refine script.collect_of_perm (List.Perm.of_eq ?_)
  rw [ends, messages_values, ← List.range_eq_range']
  rfl

/-- A state in which the floor has been reached and every unit is at its stage of the script. -/
structure Follows (workers units : Nat) (good : (Nat → Nat) → FileSystem → Prop)
    (stages : Nat → Nat) (s : State α) : Prop where
  reachable : Relation.ReflTransGen (Move workers (script.ends units))
    (.initial (script.ends units).length) s.floor
  jobs : ∀ job ∈ s.waiting ++ s.running, job.action = script.residual job.unit (stages job.unit)
  atEnd : ∀ m ∈ s.arrivals, stages m.unit = script.last m.unit
  within : ∀ unit, stages unit ≤ script.last unit
  good : good stages s.files

/-- The number of stages that are missing. -/
def missing (units : Nat) (stages : Nat → Nat) : Nat :=
  ∑ unit ∈ Finset.range units, (script.last unit - stages unit)

/-- The state follows the script, with this many steps to go: the moves of the floor and the stages
that are missing. -/
def Invariant (workers units : Nat) (good : (Nat → Nat) → FileSystem → Prop) (left : Nat)
    (s : State α) : Prop :=
  ∃ stages, script.Follows workers units good stages s ∧
    left = s.floor.rank + script.missing units stages

variable {script} {workers units : Nat} {good : (Nat → Nat) → FileSystem → Prop}

theorem missing_advance {stages : Nat → Nat} {unit : Nat} (hunit : unit < units)
    (h : stages unit < script.last unit) :
    script.missing units stages =
      script.missing units (Function.update stages unit (stages unit + 1)) + 1 := by
  have hmem : unit ∈ Finset.range units := Finset.mem_range.mpr hunit
  have hrest : ∑ i ∈ (Finset.range units).erase unit,
        (script.last i - Function.update stages unit (stages unit + 1) i) =
      ∑ i ∈ (Finset.range units).erase unit, (script.last i - stages i) := by
    refine Finset.sum_congr rfl ?_
    intro i hi
    rw [Function.update_of_ne (Finset.ne_of_mem_erase hi)]
  unfold missing
  rw [← Finset.add_sum_erase _ _ hmem, ← Finset.add_sum_erase (Finset.range units) _ hmem, hrest,
    Function.update_self]
  omega

section Follows

variable {stages : Nat → Nat} {unit : Nat} {s t : State α}

theorem Follows.lt_units (hf : script.Follows workers units good stages s) {job : Job α}
    (h : job ∈ s.waiting ++ s.running) : job.unit < units := by
  have hunits := (units_of_reachable hf.reachable).2 job.unit
  rw [ends_length] at hunits
  refine hunits ?_
  rcases List.mem_append.mp h with h | h
  · exact List.mem_append_left _ (List.mem_map_of_mem h)
  · exact List.mem_append_right _ (List.mem_append_left _ (List.mem_map_of_mem h))

/-- A step that is a move of the floor leaves all stages where they are. -/
theorem Follows.move (hf : script.Follows workers units good stages s)
    (hmove : Move workers (script.ends units) s.floor t.floor)
    (hjobs : ∀ job ∈ t.waiting ++ t.running, job ∈ s.waiting ++ s.running)
    (harrivals : ∀ m ∈ t.arrivals, m ∈ s.arrivals ∨ stages m.unit = script.last m.unit)
    (hfiles : t.files = s.files) : script.Follows workers units good stages t where
  reachable := hf.reachable.tail hmove
  jobs job hjob := hf.jobs job (hjobs job hjob)
  atEnd m hm := (harrivals m hm).elim (hf.atEnd m) id
  within := hf.within
  good := hfiles ▸ hf.good

/-- A unit with a worker is nowhere else. -/
theorem Follows.unit_unique {action : FileAction (Except Error α)}
    {waiting before after : List (Job α)} {arrivals : List (Message α)} {files : FileSystem}
    (hf : script.Follows workers units good stages
      ⟨waiting, before ++ ⟨unit, action⟩ :: after, arrivals, files⟩) :
    (∀ job ∈ waiting ++ (before ++ after), job.unit ≠ unit) ∧ ∀ m ∈ arrivals, m.unit ≠ unit := by
  have hnodup := (units_of_reachable hf.reachable).1
  have hunits : Floor.units (State.floor
      ⟨waiting, before ++ ⟨unit, action⟩ :: after, arrivals, files⟩) =
        (waiting ++ before).map (·.unit) ++
          unit :: (after.map (·.unit) ++ arrivals.map (·.unit)) := by
    simp [Floor.units, State.floor]
  rw [hunits] at hnodup
  have hout := (List.nodup_cons.mp (List.perm_middle.nodup_iff.mp hnodup)).1
  simp only [List.mem_append, List.mem_map] at hout ⊢
  refine ⟨fun job hjob heq => hout ?_, fun m hm heq => hout (.inr (.inr ⟨m, hm, heq⟩))⟩
  rcases hjob with hjob | hjob | hjob
  · exact .inl ⟨job, .inl hjob, heq⟩
  · exact .inl ⟨job, .inr hjob, heq⟩
  · exact .inr (.inl ⟨job, hjob, heq⟩)

/-- A step that is an operation takes its unit to the next stage. -/
theorem Follows.perform {action action' : FileAction (Except Error α)}
    {waiting before after : List (Job α)} {arrivals : List (Message α)} {files files' : FileSystem}
    (hf : script.Follows workers units good stages
      ⟨waiting, before ++ ⟨unit, action⟩ :: after, arrivals, files⟩)
    (hbefore : stages unit < script.last unit)
    (haction : action' = script.residual unit (stages unit + 1))
    (hgood : good (Function.update stages unit (stages unit + 1)) files') :
    script.Follows workers units good (Function.update stages unit (stages unit + 1))
      ⟨waiting, before ++ ⟨unit, action'⟩ :: after, arrivals, files'⟩ := by
  -- every unit is in one place only, so no other job changes
  have hother := hf.unit_unique
  refine ⟨?_, ?_, ?_, ?_, hgood⟩
  · rw [State.floor_perform action action']
    exact hf.reachable
  · intro job hjob
    by_cases hunit : job.unit = unit
    · obtain rfl : job = ⟨unit, action'⟩ := by
        by_contra hne
        refine hother.1 job ?_ hunit
        simp only [List.mem_append, List.mem_cons] at hjob ⊢
        tauto
      rw [Function.update_self]
      exact haction
    · rw [Function.update_of_ne hunit]
      refine hf.jobs job ?_
      simp only [List.mem_append, List.mem_cons] at hjob ⊢
      rcases hjob with hjob | hjob | rfl | hjob
      · exact .inl hjob
      · exact .inr (.inl hjob)
      · exact absurd rfl hunit
      · exact .inr (.inr (.inr hjob))
  · intro m hm
    rw [Function.update_of_ne (hother.2 m hm)]
    exact hf.atEnd m hm
  · intro i
    by_cases hi : i = unit
    · rw [hi, Function.update_self]
      exact hbefore
    · rw [Function.update_of_ne hi]
      exact hf.within i

end Follows

/-- **The step lemma.** Every step of the pool follows the script and leaves one step less. -/
theorem Invariant.step (h : script.Carries units good) {left : Nat} {s t : State α}
    (hs : script.Invariant workers units good left s) (hstep : Step workers s t) :
    ∃ left', left = left' + 1 ∧ script.Invariant workers units good left' t := by
  obtain ⟨stages, hf, rfl⟩ := hs
  cases hstep with
  | @start job waiting running arrivals files free =>
    have hmove :=
      @State.move_start α workers (script.ends units) job waiting running arrivals files free
    refine ⟨_, ?_, stages, hf.move hmove ?_ (fun m hm => .inl hm) rfl, rfl⟩
    · rw [hmove.rank_eq]
      omega
    · simp only [List.mem_append, List.mem_cons]
      tauto
  | @perform unit action action' waiting before after arrivals files files' performed =>
    have hmem : (⟨unit, action⟩ : Job α) ∈ waiting ++ (before ++ ⟨unit, action⟩ :: after) := by simp
    have hunit : unit < units := hf.lt_units hmem
    obtain rfl : action = script.residual unit (stages unit) := hf.jobs _ hmem
    -- a unit at its last stage has no operation left
    have hbefore : stages unit < script.last unit := by
      refine lt_of_le_of_ne (hf.within unit) ?_
      intro heq
      rw [heq, h.done unit hunit] at performed
      cases performed
    obtain ⟨next, hnext, hgood⟩ := h.advance unit hunit stages files hf.good hbefore
    obtain ⟨rfl, rfl⟩ := Prod.mk.inj (Option.some.inj (performed.symm.trans hnext))
    have hfloor := @State.floor_perform α unit waiting before after arrivals files files'
      (script.residual unit (stages unit)) (script.residual unit (stages unit + 1))
    refine ⟨_, ?_, _, hf.perform hbefore rfl hgood, rfl⟩
    rw [missing_advance hunit hbefore, hfloor]
    omega
  | @finish unit answer waiting before after arrivals files =>
    have hmem : (⟨unit, .done answer⟩ : Job α) ∈
        waiting ++ (before ++ ⟨unit, .done answer⟩ :: after) := by simp
    have hunit : unit < units := hf.lt_units hmem
    have hdone : .done answer = script.residual unit (stages unit) := hf.jobs _ hmem
    -- a unit with an operation left is not done
    have hlast : stages unit = script.last unit := by
      by_contra hne
      obtain ⟨next, hnext, -⟩ :=
        h.advance unit hunit stages files hf.good (lt_of_le_of_ne (hf.within unit) hne)
      rw [← hdone] at hnext
      cases hnext
    rw [hlast, h.done unit hunit] at hdone
    obtain rfl := FileAction.done.inj hdone
    have hmove := @State.move_finish α workers (script.ends units) unit waiting before after
      arrivals files _ (script.ends_getElem? hunit)
    refine ⟨_, ?_, stages, hf.move hmove ?_ ?_ rfl, rfl⟩
    · rw [hmove.rank_eq]
      omega
    · simp only [List.mem_append, List.mem_cons]
      tauto
    · intro m hm
      rcases List.mem_append.mp hm with hm | hm
      · exact .inl hm
      · rw [List.mem_singleton.mp hm]
        exact .inr hlast

/-- **The run lemma.** -/
theorem Invariant.run (h : script.Carries units good) {left steps : Nat} {s t : State α}
    (hs : script.Invariant workers units good left s) (hrun : Run workers s steps t) :
    ∃ left', left = left' + steps ∧ script.Invariant workers units good left' t := by
  induction hrun with
  | refl => exact ⟨left, rfl, hs⟩
  | tail run step ih =>
    obtain ⟨left', hleft, ht⟩ := ih
    obtain ⟨left'', rfl, hu⟩ := ht.step h step
    exact ⟨left'', by omega, hu⟩

/-- **What a finished pool has.** The values in unit order, whatever the order of arrival, and the
files at the end of all units. -/
theorem Invariant.collect {left : Nat} {s : State α}
    (hs : script.Invariant workers units good left s) (hfinished : s.Finished) :
    Pool.collect units s.arrivals = .ok ((List.range units).map script.value) ∧
      ∃ stages, (∀ unit < units, stages unit = script.last unit) ∧ good stages s.files := by
  obtain ⟨stages, hf, -⟩ := hs
  have hperm : s.arrivals.Perm (messages (script.ends units)) :=
    arrivals_of_finished hf.reachable (State.finished_floor_iff.mpr hfinished)
  refine ⟨script.collect_of_perm hperm, stages, ?_, hf.good⟩
  intro unit hunit
  have hmem : script.message unit ∈ messages (script.ends units) :=
    mem_messages.mpr (script.ends_getElem? hunit)
  exact hf.atEnd _ (hperm.mem_iff.mpr hmem)

/-- As long as something is left to do, there is a step. -/
theorem Invariant.exists_step {left : Nat} {s : State α}
    (hs : script.Invariant workers units good left s) (hunfinished : ¬ s.Finished) :
    ∃ t, Step workers s t := by
  obtain ⟨stages, hf, -⟩ := hs
  obtain ⟨next, hmove⟩ :=
    exists_move hf.reachable (fun h => hunfinished (State.finished_floor_iff.mp h))
  exact exists_step_of_move hmove

/-- **Schedules do not matter.** A pool that follows a script always ends, with the values in unit
order, if the files at the end of all units are determined. -/
theorem Invariant.alwaysEnds (h : script.Carries units good) {left : Nat} {s : State α}
    (hs : script.Invariant workers units good left s) {files : FileSystem}
    (hfiles : ∀ stages files', (∀ unit < units, stages unit = script.last unit) →
      good stages files' → files'.SameAs files) :
    AlwaysEnds workers s units ((List.range units).map script.value) files := by
  refine ⟨⟨left, ?_⟩, ?_, ?_⟩
  · intro steps t hrun
    obtain ⟨left', hleft, -⟩ := hs.run h hrun
    omega
  · intro steps t hrun hunfinished
    obtain ⟨left', -, ht⟩ := hs.run h hrun
    exact ht.exists_step hunfinished
  · intro steps t hrun hfinished
    obtain ⟨left', -, ht⟩ := hs.run h hrun
    obtain ⟨hcollect, stages, hlast, hgood⟩ := ht.collect hfinished
    exact ⟨hcollect, hfiles stages t.files hlast hgood⟩

theorem floor_initial (actions : List (FileAction (Except Error α))) (files : FileSystem) :
    (State.initial actions files).floor = .initial actions.length := by
  unfold State.floor State.initial Floor.initial
  rw [List.map_map, List.range_eq_range', ← List.zipIdx_map_snd]
  rfl

theorem invariant_initial {actions : List (FileAction (Except Error α))} {files : FileSystem}
    (workers : Nat)
    (hactions : ∀ unit action, actions[unit]? = some action → action = script.residual unit 0)
    (hgood : good (fun _ => 0) files) :
    ∃ left, script.Invariant workers actions.length good left (.initial actions files) := by
  refine ⟨_, fun _ => 0, ⟨?_, ?_, fun _ h => absurd h List.not_mem_nil, fun _ => Nat.zero_le _,
    hgood⟩, rfl⟩
  · rw [floor_initial, ends_length]
  · intro job hjob
    rw [State.initial, List.append_nil] at hjob
    obtain ⟨⟨action, unit⟩, hmem, rfl⟩ := List.mem_map.mp hjob
    exact hactions unit action (List.mem_zipIdx_iff_getElem?.mp hmem)

/-! ## §3 — one unit after the other -/

theorem run_of_step {action action' : FileAction α}
    {files files' : FileSystem} (h : action.step files = some (action', files')) :
    action.run files = action'.run files' := by
  cases action with
  | done value => cases h
  | _ =>
    obtain ⟨rfl, rfl⟩ := Prod.mk.inj (Option.some.inj h)
    rfl

/-- A unit that runs to its end without the others. -/
theorem Carries.run_unit (h : script.Carries units good) {unit : Nat} (hunit : unit < units)
    {stages : Nat → Nat} {files : FileSystem} (hgood : good stages files)
    (hle : stages unit ≤ script.last unit) :
    ∃ files', (script.residual unit (stages unit)).run files =
        (.ok (script.value unit), files') ∧
      good (Function.update stages unit (script.last unit)) files' := by
  -- induction on the number of missing stages
  obtain ⟨missing, hmissing⟩ := Nat.exists_eq_add_of_le hle
  induction missing generalizing stages files with
  | zero =>
    rw [Nat.add_zero] at hmissing
    rw [hmissing, Function.update_eq_self, ← hmissing, h.done unit hunit]
    exact ⟨files, rfl, hgood⟩
  | succ missing ih =>
    obtain ⟨files', hstep, hgood'⟩ := h.advance unit hunit stages files hgood (by omega)
    have hrest := ih hgood' (by rw [Function.update_self]; omega)
      (by rw [Function.update_self]; omega)
    rw [Function.update_self, Function.update_idem] at hrest
    rw [run_of_step hstep]
    exact hrest

end Script

end WorkloadSynth.Pool
