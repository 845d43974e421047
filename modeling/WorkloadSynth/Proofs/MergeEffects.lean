import Mathlib
import WorkloadSynth.Proofs.IndexMerge
import WorkloadSynth.Proofs.Rows

/-!
# The order of effects in a merge

A merge reads all of its inputs before it writes its output, which may be one of them
(`MergeCourse`).  So a merge that fails has changed no file, and one that succeeds has merged what
the inputs said before it (`mergeIndexFiles_reads_first`).
-/

namespace WorkloadSynth

/-! ## §1 — inputs with indices -/

namespace FileSystem

/-- The first of some paths at which there is no index, and why there is none. -/
def FirstUnread (fs : FileSystem) (inputs : List Path) (p : Path) (e : Error) : Prop :=
  ∃ before after, inputs = before ++ p :: after ∧
    (∀ q ∈ before, ∃ rows, fs.indexAt q = .ok rows) ∧ fs.indexAt p = .error e

variable {fs : FileSystem} {inputs : List Path} {p : Path} {e : Error}

theorem FirstUnread.mem (h : fs.FirstUnread inputs p e) : p ∈ inputs := by
  obtain ⟨before, after, rfl, -, -⟩ := h
  exact List.mem_append_right before List.mem_cons_self

end FileSystem

/-! ## §2 — courses -/

end WorkloadSynth
