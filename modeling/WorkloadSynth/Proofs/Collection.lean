import Mathlib
import WorkloadSynth.Pool

/-!
# What a pool collects

A unit of work ends with an answer or its worker breaks down; only a unit with an answer sends a
message, and messages arrive in any order.  `collect_law` says what is collected from them: all
values in unit order, or the failure that arrives first, or the first unit without a message.  The
order of arrival matters only if several units fail.  The pool itself (`Move`) is at work with any
number of workers: it never gets stuck, it always ends, and then every message has arrived.
-/

namespace WorkloadSynth.Pool

variable {α β : Type}

/-! ## §1 — messages -/

/-- How the units end. -/
def outcomes (job : Nat → β → Outcome α) (units : List β) : List (Outcome α) := units.mapIdx job

/-- The message of one unit, if it sends one. -/
def messageOf (ends : List (Outcome α)) (unit : Nat) : Option (Message α) :=
  ends[unit]?.bind (·.message? unit)

/-- The messages of all units, in unit order. -/
def messages (ends : List (Outcome α)) : List (Message α) :=
  (List.range ends.length).filterMap (messageOf ends)

/-- Is the message about a success? -/
def Message.Succeeds (m : Message α) : Prop := ∃ value, m.answer = .ok value

/-- The value of a unit, if it has one. -/
def Outcome.value? : Outcome α → Option α
  | .answered (.ok value) => some value
  | _ => none

theorem messageOf_eq_some {ends : List (Outcome α)} {unit : Nat} {m : Message α} :
    messageOf ends unit = some m ↔ ends[unit]? = some (.answered m.answer) ∧ m.unit = unit := by
  unfold messageOf
  obtain ⟨u, answer⟩ := m
  cases hend : ends[unit]? with
  | none => simp
  | some ending => cases ending <;> simp [Outcome.message?, eq_comm, and_comm]

theorem mem_messages {ends : List (Outcome α)} {m : Message α} :
    m ∈ messages ends ↔ ends[m.unit]? = some (.answered m.answer) := by
  unfold messages
  simp only [List.mem_filterMap, List.mem_range, messageOf_eq_some]
  constructor
  · rintro ⟨unit, -, h, rfl⟩
    exact h
  · intro h
    obtain ⟨hlt, -⟩ := List.getElem?_eq_some_iff.mp h
    exact ⟨m.unit, hlt, h, rfl⟩

/-- Units taken with their numbers are units looked up by their numbers. -/
theorem filterMap_zipIdx {γ δ : Type} (f : γ × Nat → Option δ) (xs : List γ) :
    xs.zipIdx.filterMap f = (List.range xs.length).filterMap fun i => xs[i]?.bind (f ⟨·, i⟩) := by
  induction xs using List.reverseRecOn with
  | nil => rfl
  | append_singleton xs x ih =>
    have hfirst : ∀ i ∈ List.range xs.length,
        ((xs ++ [x])[i]?.bind (f ⟨·, i⟩)) = xs[i]?.bind (f ⟨·, i⟩) := by
      intro i hi
      rw [List.getElem?_append_left (List.mem_range.mp hi)]
    rw [List.zipIdx_append, List.filterMap_append, ih, List.length_append, List.length_singleton,
      List.range_succ, List.filterMap_append, List.filterMap_congr hfirst]
    simp [List.filterMap_cons]

/-- Units that are done one after the other send their messages in unit order. -/
theorem runAll_eq (job : Nat → β → Outcome α) (units : List β) :
    runAll job units = collect (outcomes job units).length (messages (outcomes job units)) := by
  unfold runAll messages messageOf outcomes
  rw [filterMap_zipIdx, List.length_mapIdx]
  congr 1
  refine List.filterMap_congr ?_
  intro unit _
  rw [List.getElem?_mapIdx]
  cases units[unit]? <;> rfl

/-! ## §2 — receiving -/

/-- **Successes fill their slots.** The slot of a unit whose message arrives has its value, and all
others stay as they are. -/
theorem receive_of_successes (value : Nat → Option α) {arrivals : List (Message α)}
    (h : ∀ m ∈ arrivals, ∃ v, m.answer = .ok v ∧ value m.unit = some v)
    (slots : List (Option α)) :
    receive slots arrivals = .ok (slots.mapIdx fun unit slot =>
      if unit ∈ arrivals.map (·.unit) then value unit else slot) := by
  induction arrivals generalizing slots with
  | nil =>
    simp only [receive, List.map_nil, List.not_mem_nil, if_false]
    congr 1
    refine List.ext_getElem? ?_
    simp
  | cons m arrivals ih =>
    obtain ⟨v, hanswer, hvalue⟩ := h m List.mem_cons_self
    have hrest := ih (fun m' hm' => h m' (List.mem_cons_of_mem _ hm'))
      (slots.set m.unit (some v))
    rw [receive, hanswer]
    refine hrest.trans ?_
    congr 1
    refine List.ext_getElem? ?_
    intro unit
    simp only [List.getElem?_mapIdx, List.map_cons, List.mem_cons]
    by_cases hunit : unit = m.unit
    -- a later message about the same unit would carry the same value
    · subst hunit
      simp only [true_or, if_true, List.getElem?_set_self', hvalue]
      cases slots[m.unit]? <;> simp
    · simp only [hunit, false_or, List.getElem?_set_ne (Ne.symm hunit)]

/-- **A failure ends the collection.** What arrives behind it is not looked at. -/
theorem receive_of_failure {before : List (Message α)} (hbefore : ∀ m ∈ before, m.Succeeds)
    (unit : Nat) (cause : Error) (after : List (Message α)) (slots : List (Option α)) :
    receive slots (before ++ ⟨unit, .error cause⟩ :: after) = .error (.failed unit cause) := by
  induction before generalizing slots with
  | nil => rfl
  | cons m before ih =>
    obtain ⟨v, hv⟩ := hbefore m List.mem_cons_self
    rw [List.cons_append, receive, hv]
    exact ih (fun m' hm' => hbefore m' (List.mem_cons_of_mem _ hm')) _

/-- Some failure arrives first. -/
theorem exists_first_failure {arrivals : List (Message α)} (h : ∃ m ∈ arrivals, ¬ m.Succeeds) :
    ∃ before unit cause after, arrivals = before ++ ⟨unit, .error cause⟩ :: after ∧
      ∀ m ∈ before, m.Succeeds := by
  induction arrivals with
  | nil => simp at h
  | cons m arrivals ih =>
    obtain ⟨unit, answer⟩ := m
    cases answer with
    | error cause => exact ⟨[], unit, cause, arrivals, rfl, by simp⟩
    | ok v =>
      have hrest : ∃ m ∈ arrivals, ¬ m.Succeeds := by
        obtain ⟨m, hm, hfails⟩ := h
        rcases List.mem_cons.mp hm with rfl | hm
        · exact absurd ⟨v, rfl⟩ hfails
        · exact ⟨m, hm, hfails⟩
      obtain ⟨before, unit', cause, after, rfl, hbefore⟩ := ih hrest
      refine ⟨⟨unit, .ok v⟩ :: before, unit', cause, after, rfl, ?_⟩
      intro m hm
      rcases List.mem_cons.mp hm with rfl | hm
      · exact ⟨v, rfl⟩
      · exact hbefore m hm

theorem collect_of_failure (units : Nat) {before : List (Message α)}
    (hbefore : ∀ m ∈ before, m.Succeeds) (unit : Nat) (cause : Error)
    (after : List (Message α)) :
    collect units (before ++ ⟨unit, .error cause⟩ :: after) = .error (.failed unit cause) := by
  unfold collect
  rw [receive_of_failure hbefore]
  rfl

/-- Once a failure has arrived there is nothing to wait for. -/
theorem collect_append_of_failure (units : Nat) {arrivals : List (Message α)}
    (h : ∃ m ∈ arrivals, ¬ m.Succeeds) (more : List (Message α)) :
    collect units (arrivals ++ more) = collect units arrivals := by
  obtain ⟨before, unit, cause, after, rfl, hbefore⟩ := exists_first_failure h
  rw [List.append_assoc, List.cons_append, collect_of_failure units hbefore,
    collect_of_failure units hbefore]

/-! ## §3 — filled slots -/

theorem allFilled_map_some (unit : Nat) (values : List α) :
    allFilled unit (values.map some) = .ok values := by
  induction values generalizing unit with
  | nil => rfl
  | cons value values ih =>
    rw [List.map_cons, allFilled, ih]
    rfl

/-- The first empty slot is lost. -/
theorem allFilled_append_none (unit : Nat) (values : List α) (slots : List (Option α)) :
    allFilled unit (values.map some ++ none :: slots) = .error (.lost (unit + values.length)) := by
  induction values generalizing unit with
  | nil => rfl
  | cons value values ih =>
    rw [List.map_cons, List.cons_append, allFilled, ih, List.length_cons]
    simp only [Except.map]
    congr 2
    omega

/-- **Successes in any order.** If nothing fails, the slots are filled in unit order. -/
theorem collect_of_successes {ends : List (Outcome α)} {arrivals : List (Message α)}
    (h : arrivals.Perm (messages ends)) (hall : ∀ m ∈ arrivals, m.Succeeds) :
    collect ends.length arrivals = allFilled 0 (ends.map Outcome.value?) := by
  have hvalues : ∀ m ∈ arrivals, ∃ v, m.answer = .ok v ∧
      ends[m.unit]?.bind Outcome.value? = some v := by
    intro m hm
    obtain ⟨v, hv⟩ := hall m hm
    refine ⟨v, hv, ?_⟩
    rw [mem_messages.mp (h.mem_iff.mp hm), hv]
    rfl
  unfold collect
  rw [receive_of_successes (fun unit => ends[unit]?.bind Outcome.value?) hvalues]
  show allFilled 0 _ = _
  congr 1
  refine List.ext_getElem? ?_
  intro unit
  rw [List.getElem?_mapIdx, List.getElem?_map]
  by_cases hunit : unit < ends.length
  · rw [List.getElem?_replicate_of_lt hunit, List.getElem?_eq_getElem hunit]
    simp only [Option.map_some]
    -- a unit without a message has no value either
    cases hend : ends[unit] with
    | brokeDown => simp [Outcome.value?]
    | answered answer =>
      have hmem : (⟨unit, answer⟩ : Message α) ∈ arrivals := by
        refine h.mem_iff.mpr (mem_messages.mpr ?_)
        rw [List.getElem?_eq_getElem hunit, hend]
      have hin : unit ∈ arrivals.map (·.unit) := List.mem_map.mpr ⟨_, hmem, rfl⟩
      rw [if_pos hin]
      rfl
  · rw [List.getElem?_eq_none (by simpa using hunit),
      List.getElem?_eq_none (by simpa using hunit)]
    rfl

/-- Units with values send them all. -/
theorem messages_values (value : Nat → α) (units : Nat) :
    messages (((List.range units).map value).map fun v => .answered (.ok v)) =
      (List.range units).map fun unit => ⟨unit, .ok (value unit)⟩ := by
  unfold messages
  rw [List.length_map, List.length_map, List.length_range,
    ← List.filterMap_eq_map (f := fun unit => (⟨unit, .ok (value unit)⟩ : Message α))]
  refine List.filterMap_congr ?_
  intro unit hunit
  simp [messageOf, List.getElem?_range (List.mem_range.mp hunit), Outcome.message?]

/-! ## §4 — the law of collection -/

/-- Does a unit fail? -/
def Fails (ends : List (Outcome α)) (unit : Nat) : Prop :=
  ∃ cause, ends[unit]? = some (.answered (.error cause))

/-- What is collected from the messages of units, in the order of their arrival. -/
structure CollectionLaw (ends : List (Outcome α)) (arrivals : List (Message α)) : Prop where
  /-- If all units have values, they are collected in unit order. -/
  success : ∀ values : List α, ends = values.map (fun value => .answered (.ok value)) →
    collect ends.length arrivals = .ok values
  /-- If units fail, the failure that arrives first is reported, also if others broke down. -/
  failure : (∃ unit, Fails ends unit) →
    ∃ before unit cause after, arrivals = before ++ ⟨unit, .error cause⟩ :: after ∧
      (∀ m ∈ before, m.Succeeds) ∧ collect ends.length arrivals = .error (.failed unit cause)
  /-- If no unit fails but some broke down, the first of these is reported. -/
  loss : (¬ ∃ unit, Fails ends unit) → ∀ unit, ends[unit]? = some .brokeDown →
    (∀ k < unit, ends[k]? ≠ some .brokeDown) →
      collect ends.length arrivals = .error (.lost unit)

section Law

variable {ends : List (Outcome α)} {arrivals : List (Message α)}

theorem end_of_mem (h : arrivals.Perm (messages ends)) {unit : Nat} {answer : Except Error α}
    (hm : ⟨unit, answer⟩ ∈ arrivals) : ends[unit]? = some (.answered answer) :=
  mem_messages.mp (h.mem_iff.mp hm)

/-- A unit fails exactly if a message about its failure arrives. -/
theorem exists_fails_iff (h : arrivals.Perm (messages ends)) :
    (∃ unit, Fails ends unit) ↔ ∃ m ∈ arrivals, ¬ m.Succeeds := by
  constructor
  · rintro ⟨unit, cause, hfails⟩
    refine ⟨⟨unit, .error cause⟩, h.mem_iff.mpr (mem_messages.mpr hfails), ?_⟩
    rintro ⟨v, hv⟩
    cases hv
  · rintro ⟨⟨unit, answer⟩, hm, hfails⟩
    cases answer with
    | ok v => exact absurd ⟨v, rfl⟩ hfails
    | error cause => exact ⟨unit, cause, end_of_mem h hm⟩

theorem succeeds_of_not_fails (h : arrivals.Perm (messages ends))
    (hnone : ¬ ∃ unit, Fails ends unit) : ∀ m ∈ arrivals, m.Succeeds := by
  intro m hm
  by_contra hfails
  exact hnone ((exists_fails_iff h).mpr ⟨m, hm, hfails⟩)

/-- Outcomes that are neither failures nor breakdowns are values. -/
theorem exists_values (h : ∀ ending ∈ ends, ∃ value, ending = .answered (.ok value)) :
    ∃ values : List α, ends = values.map fun value => .answered (.ok value) := by
  induction ends with
  | nil => exact ⟨[], rfl⟩
  | cons ending ends ih =>
    obtain ⟨value, rfl⟩ := h ending List.mem_cons_self
    obtain ⟨values, rfl⟩ := ih fun e he => h e (List.mem_cons_of_mem _ he)
    exact ⟨value :: values, rfl⟩

/-- Units in front of the first breakdown have values if none fails. -/
theorem exists_values_take (hnone : ¬ ∃ unit, Fails ends unit) {unit : Nat}
    (hfirst : ∀ k < unit, ends[k]? ≠ some .brokeDown) :
    ∃ values : List α, ends.take unit = values.map fun value => .answered (.ok value) := by
  apply exists_values
  intro ending hending
  obtain ⟨k, hk⟩ := List.mem_iff_getElem?.mp hending
  have hlt : k < unit := by
    by_contra hge
    rw [List.getElem?_eq_none (by rw [List.length_take]; omega)] at hk
    cases hk
  rw [List.getElem?_take_of_lt hlt] at hk
  rcases ending with (cause | value) | _
  · exact absurd ⟨k, cause, hk⟩ hnone
  · exact ⟨value, rfl⟩
  · exact absurd hk (hfirst k hlt)

theorem collectionLaw_of_perm (h : arrivals.Perm (messages ends)) :
    CollectionLaw ends arrivals := by
  refine ⟨?_, ?_, ?_⟩
  · rintro values rfl
    have hnone : ¬ ∃ unit, Fails (values.map fun value => Outcome.answered (.ok value)) unit := by
      rintro ⟨unit, cause, hfails⟩
      simp at hfails
    rw [collect_of_successes h (succeeds_of_not_fails h hnone), List.map_map]
    exact allFilled_map_some 0 values
  · intro hfails
    obtain ⟨before, unit, cause, after, rfl, hbefore⟩ :=
      exists_first_failure ((exists_fails_iff h).mp hfails)
    exact ⟨before, unit, cause, after, rfl, hbefore,
      collect_of_failure ends.length hbefore unit cause after⟩
  · intro hnone unit hbroke hfirst
    obtain ⟨hlt, hget⟩ := List.getElem?_eq_some_iff.mp hbroke
    obtain ⟨values, hvalues⟩ := exists_values_take hnone hfirst
    -- the slots in front of the unit are filled, and its own is empty
    have hsplit : ends.map Outcome.value? =
        values.map some ++ none :: (ends.drop (unit + 1)).map Outcome.value? := by
      conv_lhs => rw [← List.take_append_drop unit ends, List.drop_eq_getElem_cons hlt, hget,
        hvalues]
      simp [Outcome.value?, Function.comp_def]
    have hlen : values.length = unit := by
      have hboth := congrArg List.length hvalues
      rw [List.length_take, List.length_map] at hboth
      omega
    rw [collect_of_successes h (succeeds_of_not_fails h hnone), hsplit, allFilled_append_none,
      hlen, Nat.zero_add]

/-- If at most one unit fails, the order of arrival does not matter. -/
theorem collect_eq_of_perm {arrivals' : List (Message α)} (h : arrivals.Perm (messages ends))
    (h' : arrivals'.Perm (messages ends))
    (hone : ∀ unit unit', Fails ends unit → Fails ends unit' → unit = unit') :
    collect ends.length arrivals = collect ends.length arrivals' := by
  by_cases hfails : ∃ unit, Fails ends unit
  · obtain ⟨before, unit, cause, after, hsplit, -, hcollect⟩ :=
      (collectionLaw_of_perm h).failure hfails
    obtain ⟨before', unit', cause', after', hsplit', -, hcollect'⟩ :=
      (collectionLaw_of_perm h').failure hfails
    have hend : ends[unit]? = some (.answered (.error cause)) :=
      end_of_mem h (by simp [hsplit])
    have hend' : ends[unit']? = some (.answered (.error cause')) :=
      end_of_mem h' (by simp [hsplit'])
    -- both runs report the only unit that fails
    obtain rfl := hone unit unit' ⟨cause, hend⟩ ⟨cause', hend'⟩
    rw [hend] at hend'
    simp only [Option.some.injEq, Outcome.answered.injEq, Except.error.injEq] at hend'
    rw [hcollect, hcollect', hend']
  · rw [collect_of_successes h (succeeds_of_not_fails h hfails),
      collect_of_successes h' (succeeds_of_not_fails h' hfails)]

end Law

/-! ## §5 — workers -/

/-- The units that wait for a worker, in order, those that have one, and the messages that have
arrived so far. -/
structure Floor (α : Type) where
  waiting : List Nat
  running : List Nat
  arrivals : List (Message α)

namespace Floor

/-- A pool before its first move. -/
def initial (units : Nat) : Floor α := ⟨List.range units, [], []⟩

/-- No unit waits or has a worker. -/
def Finished (floor : Floor α) : Prop := floor.waiting = [] ∧ floor.running = []

/-- The messages that will have arrived when all units are done. -/
def expected (ends : List (Outcome α)) (floor : Floor α) : List (Message α) :=
  (floor.waiting ++ floor.running).filterMap (messageOf ends) ++ floor.arrivals

/-- The units of a pool: those that wait, those that have a worker, and those whose messages have
arrived. -/
def units (floor : Floor α) : List Nat :=
  floor.waiting ++ (floor.running ++ floor.arrivals.map (·.unit))

/-- The number of moves that are left. -/
def rank (floor : Floor α) : Nat := 2 * floor.waiting.length + floor.running.length

end Floor

/-- What a pool with this many workers can do next.  There is at least one worker. -/
inductive Move (workers : Nat) (ends : List (Outcome α)) : Floor α → Floor α → Prop where
  /-- A free worker takes the first unit that waits. -/
  | start {unit : Nat} {waiting running : List Nat} {arrivals : List (Message α)}
      (free : running.length < max 1 workers) :
      Move workers ends ⟨unit :: waiting, running, arrivals⟩
        ⟨waiting, running ++ [unit], arrivals⟩
  /-- Some worker sends the answer for its unit. -/
  | answer {unit : Nat} {answer : Except Error α} {waiting before after : List Nat}
      {arrivals : List (Message α)} (ended : ends[unit]? = some (.answered answer)) :
      Move workers ends ⟨waiting, before ++ unit :: after, arrivals⟩
        ⟨waiting, before ++ after, arrivals ++ [⟨unit, answer⟩]⟩
  /-- Some worker breaks down and sends nothing. -/
  | breakDown {unit : Nat} {waiting before after : List Nat} {arrivals : List (Message α)}
      (ended : ends[unit]? = some .brokeDown) :
      Move workers ends ⟨waiting, before ++ unit :: after, arrivals⟩
        ⟨waiting, before ++ after, arrivals⟩

section Workers

variable {workers : Nat} {ends : List (Outcome α)} {floor next : Floor α}

/-- Every move brings the pool one step closer to its end. -/
theorem Move.rank_eq (h : Move workers ends floor next) : floor.rank = next.rank + 1 := by
  cases h <;> simp only [Floor.rank, List.length_append, List.length_cons, List.length_nil] <;>
    omega

/-- Messages are never taken back. -/
theorem Move.exists_append (h : Move workers ends floor next) :
    ∃ more, next.arrivals = floor.arrivals ++ more := by
  cases h with
  | start free => exact ⟨[], by simp⟩
  | answer ended => exact ⟨_, rfl⟩
  | breakDown ended => exact ⟨[], by simp⟩

/-- **The step lemma.** A move neither loses a message nor adds one. -/
theorem Move.expected_perm (h : Move workers ends floor next) :
    (next.expected ends).Perm (floor.expected ends) := by
  cases h with
  | start free =>
    refine List.Perm.append_right _ (List.Perm.filterMap _ ?_)
    show (_ ++ (_ ++ [_])).Perm (_ :: (_ ++ _))
    rw [← List.append_assoc]
    exact List.perm_append_singleton _ _
  | @answer unit answer waiting before after arrivals ended =>
    have hmessage : messageOf ends unit = some ⟨unit, answer⟩ := messageOf_eq_some.mpr ⟨ended, rfl⟩
    simp only [Floor.expected, List.filterMap_append, List.filterMap_cons, hmessage,
      List.append_assoc, List.cons_append]
    -- the message moves from the place of its unit to the end
    refine List.Perm.append_left _ (List.Perm.append_left _ ?_)
    rw [← List.append_assoc]
    exact List.perm_append_singleton _ _
  | @breakDown unit waiting before after arrivals ended =>
    have hmessage : messageOf ends unit = none := by simp [messageOf, ended, Outcome.message?]
    simp [Floor.expected, hmessage]

/-- A unit that waits gets a worker, one that has a worker sends its message or is lost, and no move
makes up units. -/
theorem Move.units_subperm (h : Move workers ends floor next) :
    List.Subperm next.units floor.units := by
  cases h with
  | start free =>
    refine List.Perm.subperm ?_
    show (_ ++ ((_ ++ [_]) ++ _)).Perm (_ :: (_ ++ (_ ++ _)))
    rw [List.append_assoc, List.singleton_append, ← List.append_assoc, ← List.append_assoc]
    exact List.perm_middle
  | @answer unit answer waiting before after arrivals ended =>
    refine List.Perm.subperm (List.Perm.append_left waiting ?_)
    rw [List.map_append, List.map_singleton, List.append_assoc, List.append_assoc, List.cons_append]
    refine List.Perm.append_left before ?_
    rw [← List.append_assoc]
    exact List.perm_append_singleton unit (after ++ arrivals.map (·.unit))
  | @breakDown unit waiting before after arrivals ended =>
    refine List.Sublist.subperm (List.Sublist.append_left ?_ waiting)
    exact ((List.sublist_cons_self unit after).append_left before).append_right _

/-- **The run lemma.** At every time the messages that have arrived and those that are to come are
the messages of all units. -/
theorem expected_of_reachable
    (h : Relation.ReflTransGen (Move workers ends) (.initial ends.length) floor) :
    (floor.expected ends).Perm (messages ends) := by
  induction h with
  | refl => simp [Floor.expected, Floor.initial, messages]
  | tail run move ih => exact move.expected_perm.trans ih

/-- At every time each unit of the pool is in one place at most. -/
theorem units_of_reachable
    (h : Relation.ReflTransGen (Move workers ends) (.initial ends.length) floor) :
    floor.units.Nodup ∧ ∀ unit ∈ floor.units, unit < ends.length := by
  have hunits : List.Subperm floor.units (List.range ends.length) := by
    induction h with
    | refl => simp [Floor.units, Floor.initial, List.Subperm.refl]
    | tail run move ih => exact move.units_subperm.trans ih
  obtain ⟨kept, hperm, hsub⟩ := hunits
  refine ⟨hperm.nodup_iff.mp (hsub.nodup List.nodup_range), fun unit hunit => ?_⟩
  exact List.mem_range.mp (hsub.subset (hperm.mem_iff.mpr hunit))

theorem arrivals_of_finished
    (h : Relation.ReflTransGen (Move workers ends) (.initial ends.length) floor)
    (hfinished : floor.Finished) : floor.arrivals.Perm (messages ends) := by
  have hexpected := expected_of_reachable h
  simpa [Floor.expected, hfinished.1, hfinished.2] using hexpected

/-- **No deadlock.** As long as some unit is not done, there is a move. -/
theorem exists_move
    (h : Relation.ReflTransGen (Move workers ends) (.initial ends.length) floor)
    (hunfinished : ¬ floor.Finished) : ∃ next, Move workers ends floor next := by
  have hunits := (units_of_reachable h).2
  obtain ⟨waiting, running, arrivals⟩ := floor
  cases running with
  | cons unit running =>
    have hlt := hunits unit (by simp [Floor.units])
    -- the first worker has an answer to send, or it breaks down
    cases hend : ends[unit] with
    | answered answer =>
      have hended : ends[unit]? = some (.answered answer) := by
        rw [List.getElem?_eq_getElem hlt, hend]
      exact ⟨_, @Move.answer α workers ends unit answer waiting [] running arrivals hended⟩
    | brokeDown =>
      have hended : ends[unit]? = some .brokeDown := by
        rw [List.getElem?_eq_getElem hlt, hend]
      exact ⟨_, @Move.breakDown α workers ends unit waiting [] running arrivals hended⟩
  | nil =>
    cases waiting with
    | nil => exact absurd ⟨rfl, rfl⟩ hunfinished
    | cons unit waiting => exact ⟨_, Move.start (by simp)⟩

/-- **Every schedule ends.** -/
theorem wellFounded_move (workers : Nat) (ends : List (Outcome α)) :
    WellFounded fun next floor : Floor α => Move workers ends floor next := by
  refine Subrelation.wf ?_ (measure Floor.rank).wf
  intro next floor h
  show next.rank < floor.rank
  rw [h.rank_eq]
  exact Nat.lt_succ_self _

theorem exists_append_of_reachable {later : Floor α}
    (h : Relation.ReflTransGen (Move workers ends) floor later) :
    ∃ more, later.arrivals = floor.arrivals ++ more := by
  induction h with
  | refl => exact ⟨[], by simp⟩
  | tail run move ih =>
    obtain ⟨more, hmore⟩ := ih
    obtain ⟨more', hmore'⟩ := move.exists_append
    exact ⟨more ++ more', by rw [hmore', hmore, List.append_assoc]⟩

end Workers

/-- **The law of collection.** In whatever order the messages arrive, what is collected obeys the
law, and if at most one unit fails it does not depend on the order.  With any number of workers,
none included, a pool always ends, and then the messages of all units have arrived; it may return
as soon as a failure has arrived, for later messages change nothing. -/
theorem collect_law (job : Nat → β → Outcome α) (units : List β) (workers : Nat) :
    let ends := outcomes job units
    (∀ arrivals, arrivals.Perm (messages ends) → CollectionLaw ends arrivals) ∧
    ((∀ unit unit', Fails ends unit → Fails ends unit' → unit = unit') →
      ∀ arrivals arrivals', arrivals.Perm (messages ends) → arrivals'.Perm (messages ends) →
        collect ends.length arrivals = collect ends.length arrivals') ∧
    (WellFounded fun next floor : Floor α => Move workers ends floor next) ∧
    (∀ floor, Relation.ReflTransGen (Move workers ends) (.initial ends.length) floor →
      (floor.Finished ∨ ∃ next, Move workers ends floor next) ∧
      (floor.Finished → floor.arrivals.Perm (messages ends)) ∧
      ∀ later, Relation.ReflTransGen (Move workers ends) floor later →
        (∃ m ∈ floor.arrivals, ¬ m.Succeeds) →
          collect ends.length later.arrivals = collect ends.length floor.arrivals) := by
  intro ends
  refine ⟨fun arrivals h => collectionLaw_of_perm h, ?_, wellFounded_move workers ends, ?_⟩
  · intro hone arrivals arrivals' h h'
    exact collect_eq_of_perm h h' hone
  · intro floor hfloor
    refine ⟨?_, arrivals_of_finished hfloor, ?_⟩
    · by_cases hfinished : floor.Finished
      · exact .inl hfinished
      · exact .inr (exists_move hfloor hfinished)
    · intro later hlater hfailure
      obtain ⟨more, hmore⟩ := exists_append_of_reachable hlater
      rw [hmore, collect_append_of_failure ends.length hfailure]

/-- A unit with a value, one that fails and one that breaks down; the failure is reported although
it arrives last. -/
theorem collect_law_three :
    let ends : List (Outcome Nat) :=
      outcomes (fun _ ending => ending)
        [.answered (.ok 7), .brokeDown, .answered (.error .yaml)]
    [⟨0, .ok 7⟩, ⟨2, .error .yaml⟩].Perm (messages ends) ∧
      collect ends.length [⟨0, .ok 7⟩, ⟨2, .error .yaml⟩] = .error (.failed 2 .yaml) := by
  intro ends
  have hperm : ([⟨0, .ok 7⟩, ⟨2, .error .yaml⟩] : List (Message Nat)).Perm (messages ends) :=
    List.Perm.refl _
  obtain ⟨before, unit, cause, after, hsplit, hbefore, hcollect⟩ :=
    ((collect_law (fun _ ending => ending)
      [.answered (.ok 7), .brokeDown, .answered (.error .yaml)] 0).1 _ hperm).failure
      ⟨2, .yaml, rfl⟩
  refine ⟨hperm, ?_⟩
  -- the only failure among the two messages is the second
  obtain _ | ⟨m, before⟩ := before
  · simp at hsplit
  · obtain _ | ⟨m', before⟩ := before
    · simp only [List.cons_append, List.nil_append, List.cons.injEq, Message.mk.injEq,
        Except.error.injEq] at hsplit
      obtain ⟨-, ⟨rfl, rfl⟩, -⟩ := hsplit
      exact hcollect
    · simp at hsplit

end WorkloadSynth.Pool
