import WorkloadSynth.Command

/-!
# The program

Performs the file actions of a command on the files of the machine.
-/

namespace WorkloadSynth

/-- The cause behind a failure that the system reports. -/
def fileErrorOf : IO.Error → FileError
  | .noFileOrDirectory .. => .notFound
  | .alreadyExists .. => .alreadyExists
  | .inappropriateType _ 20 _ => .notADirectory
  | .inappropriateType _ 21 _ => .isADirectory
  | e => .other (toString e)

/-- The answer of an operation, with its failure as a value. -/
def attempt {α : Type} (operation : IO α) : IO (Except FileError α) := do
  match ← operation.toBaseIO with
  | .ok a => return .ok a
  | .error e => return .error (fileErrorOf e)

/-- Performs a file action on the files of the machine. -/
def FileAction.perform {α : Type} : FileAction α → IO α
  | .done a => return a
  | .read p next => do
    let r ← attempt (IO.FS.readBinFile p.text)
    (next (r.map fun contents => contents.data.toList)).perform
  | .write p contents next => do
    let r ← attempt (IO.FS.writeBinFile p.text ⟨contents.toArray⟩)
    (next r).perform
  | .makeDirectories p next => do
    let r ← attempt (IO.FS.createDirAll p.text)
    (next r).perform

end WorkloadSynth

/-- Does what the command line asks for. -/
def main (arguments : List String) : IO UInt32 := do
  let response ← (WorkloadSynth.respond arguments).perform
  (← IO.getStdout).putStr response.standardOutput
  (← IO.getStderr).putStr response.standardError
  return UInt32.ofNat response.exitCode
