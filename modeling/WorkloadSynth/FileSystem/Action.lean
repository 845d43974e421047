import WorkloadSynth.FileSystem.Basic

/-!
# File actions

A file action is a computation that reads and writes files, as data: either it is done, or it asks
for one operation and says how it goes on with the answer.  `run` performs an action on a file
system, and `step` performs its first operation only, so that several actions can be interleaved.
-/

namespace WorkloadSynth

/-- A computation with file operations. -/
inductive FileAction (α : Type) : Type where
  | done (value : α)
  | read (path : Path) (next : Except FileError Bytes → FileAction α)
  | write (path : Path) (contents : Bytes) (next : Except FileError Unit → FileAction α)
  | makeDirectories (path : Path) (next : Except FileError Unit → FileAction α)

namespace FileAction

variable {α β : Type}

/-! ## Sequencing -/

/-- Goes on with the value of an action. -/
def andThen (action : FileAction α) (f : α → FileAction β) : FileAction β :=
  match action with
  | .done a => f a
  | .read p next => .read p fun r => (next r).andThen f
  | .write p contents next => .write p contents fun r => (next r).andThen f
  | .makeDirectories p next => .makeDirectories p fun r => (next r).andThen f

instance : Monad FileAction where
  pure := .done
  bind := andThen

/-- Reads a file. -/
def readFile (p : Path) : FileAction (Except FileError Bytes) := .read p .done

/-- Writes a file. -/
def writeFile (p : Path) (contents : Bytes) : FileAction (Except FileError Unit) :=
  .write p contents .done

/-- Makes a directory and its missing parents. -/
def createDirectories (p : Path) : FileAction (Except FileError Unit) := .makeDirectories p .done

/-! ## Performing -/

/-- Writes a file; the file system stays as it is if that fails. -/
def performWrite (fs : FileSystem) (p : Path) (contents : Bytes) :
    Except FileError Unit × FileSystem :=
  match fs.write p contents with
  | .ok written => (.ok (), written)
  | .error e => (.error e, fs)

/-- The first operation of an action, unless it is done. -/
def step (action : FileAction α) (fs : FileSystem) : Option (FileAction α × FileSystem) :=
  match action with
  | .done _ => none
  | .read p next => some (next (fs.read p), fs)
  | .write p contents next =>
    let (r, fs) := performWrite fs p contents
    some (next r, fs)
  | .makeDirectories p next =>
    let (r, fs) := fs.makeDirectories p
    some (next r, fs)

/-- All operations of an action in order. -/
def run (action : FileAction α) (fs : FileSystem) : α × FileSystem :=
  match action with
  | .done a => (a, fs)
  | .read p next => (next (fs.read p)).run fs
  | .write p contents next =>
    let (r, fs) := performWrite fs p contents
    (next r).run fs
  | .makeDirectories p next =>
    let (r, fs) := fs.makeDirectories p
    (next r).run fs

end FileAction

end WorkloadSynth
