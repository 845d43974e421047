import WorkloadSynth.Error

/-!
# Collecting the answers of workers

Every unit of work is done by some worker, which sends one message with its answer; a worker that
breaks down sends none.  `collect` goes through the messages in the order of their arrival: the
first failure ends the collection, values are put in unit order, and a unit without a message is
lost.
-/

namespace WorkloadSynth.Pool

/-- How the work on a unit ends. -/
inductive Outcome (α : Type) where
  /-- It has an answer. -/
  | answered (answer : Except Error α)
  /-- The worker broke down. -/
  | brokeDown

/-- The answer of the worker on a unit. -/
structure Message (α : Type) where
  unit : Nat
  answer : Except Error α

/-- Why there are no results. -/
inductive Failure where
  /-- The work on a unit failed. -/
  | failed (unit : Nat) (cause : Error)
  /-- No message came from a unit. -/
  | lost (unit : Nat)
deriving DecidableEq, Repr

/-- The failure of the whole run. -/
def Failure.error : Failure → Error
  | .failed _ cause => cause
  | .lost unit => .workerFailure unit

variable {α β : Type}

/-- Puts the values of arriving messages in the slots of their units, up to the first failure. -/
def receive : List (Option α) → List (Message α) → Except Failure (List (Option α))
  | slots, [] => .ok slots
  | slots, m :: arrivals =>
    match m.answer with
    | .ok value => receive (slots.set m.unit (some value)) arrivals
    | .error cause => .error (.failed m.unit cause)

/-- The values of all slots; `unit` numbers the first. -/
def allFilled (unit : Nat) : List (Option α) → Except Failure (List α)
  | [] => .ok []
  | none :: _ => .error (.lost unit)
  | some value :: slots => (allFilled (unit + 1) slots).map (value :: ·)

/-- Collects the answers for the given number of units. -/
def collect (units : Nat) (arrivals : List (Message α)) : Except Failure (List α) := do
  allFilled 0 (← receive (List.replicate units none) arrivals)

/-- The message about a unit, if there is one. -/
def Outcome.message? (unit : Nat) : Outcome α → Option (Message α)
  | .answered answer => some ⟨unit, answer⟩
  | .brokeDown => none

/-- Does the work on all units, one after the other, and collects the answers. -/
def runAll (job : Nat → β → Outcome α) (units : List β) : Except Failure (List α) :=
  collect units.length (units.zipIdx.filterMap fun (unit, i) => (job i unit).message? i)

end WorkloadSynth.Pool
