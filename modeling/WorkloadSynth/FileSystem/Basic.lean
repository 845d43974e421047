import WorkloadSynth.FileSystem.Error
import WorkloadSynth.Path
import WorkloadSynth.Text.Utf8

/-!
# File systems

A file system is a finite map from locations to directories and files, with a working directory.
Every directory on the way to a location has to exist.  `read`, `write` and `makeDirectories` are
the operations that trace synthesis needs.
-/

namespace WorkloadSynth

/-- What stands at a location. -/
inductive Entry where
  | directory
  | file (contents : Bytes)
deriving DecidableEq, Repr

/-- Names from the root. -/
abbrev Location := List String

/-- What stands where, and where relative paths begin. -/
structure FileSystem where
  entries : List (Location × Entry)
  workingDirectory : Location
deriving Repr

namespace FileSystem

/-- What stands at a location; the root is always a directory. -/
def entry? (fs : FileSystem) (location : Location) : Option Entry :=
  if location.isEmpty then some .directory else fs.entries.lookup location

/-- Puts an entry at a location. -/
def insert (fs : FileSystem) (location : Location) (entry : Entry) : FileSystem :=
  { fs with entries := (location, entry) :: fs.entries.filter fun e => e.1 ≠ location }

/-! ## Locations of paths -/

/-- The longest name and the longest path, in bytes. -/
def maxName : Nat := 255
def maxPath : Nat := 4095

/-- Where one name leads from a directory. -/
def enter (location : Location) (name : String) : Except FileError Location :=
  if name = "" ∨ name = "." then .ok location
  else if name = ".." then .ok location.dropLast
  else if maxName < name.utf8ByteSize then .error .nameTooLong
  else .ok (location ++ [name])

/-- Follows names from a location.  Each name is looked up in an existing directory; the last one
need not exist. -/
def follow (fs : FileSystem) : Location → List String → Except FileError Location
  | location, [] => .ok location
  | location, name :: names =>
    match fs.entry? location with
    | none => .error .notFound
    | some (.file _) => .error .notADirectory
    | some .directory =>
      match enter location name with
      | .ok location => fs.follow location names
      | .error e => .error e

/-- The location that names lead to from where a path begins, unless the path is no good. -/
def resolve (fs : FileSystem) (p : Path) (names : List String) : Except FileError Location :=
  if p.text.isEmpty then .error .notFound
  else if p.text.toList.contains '\x00' then .error .nulInPath
  else if maxPath < p.text.utf8ByteSize then .error .nameTooLong
  else fs.follow (if p.isAbsolute then [] else fs.workingDirectory) names

/-- The location that a path leads to. -/
def locate (fs : FileSystem) (p : Path) : Except FileError Location := fs.resolve p p.pieces

/-- The location that a path leads to without the slashes at its end. -/
def locateTrimmed (fs : FileSystem) (p : Path) : Except FileError Location :=
  fs.resolve p p.trimSlashes.pieces

/-- What a path leads to. -/
def lookup (fs : FileSystem) (p : Path) : Except FileError Entry := do
  match fs.entry? (← fs.locate p) with
  | some entry => return entry
  | none => throw .notFound

/-- Does a path lead to a directory? -/
def isDirectory (fs : FileSystem) (p : Path) : Bool := fs.lookup p matches .ok .directory

/-! ## Operations -/

/-- The contents of a file. -/
def read (fs : FileSystem) (p : Path) : Except FileError Bytes := do
  match ← fs.lookup p with
  | .file contents => return contents
  | .directory => throw .isADirectory

/-- The file system with the contents of a file replaced, or with a new file.  A path that ends in
a slash can only be a directory. -/
def write (fs : FileSystem) (p : Path) (contents : Bytes) : Except FileError FileSystem := do
  let location ← fs.locateTrimmed p
  if p.trimSlashes ≠ p then throw .isADirectory
  match fs.entry? location with
  | some .directory => throw .isADirectory
  | _ => return fs.insert location (.file contents)

/-- The file system with one new directory. -/
def makeDirectory (fs : FileSystem) (p : Path) : Except FileError FileSystem := do
  let location ← fs.locateTrimmed p
  match fs.entry? location with
  | some _ => throw .alreadyExists
  | none => return fs.insert location .directory

/-- Makes a directory behind its missing parents, at most `fuel` of them. -/
def makeDirectoriesWith : Nat → Path → FileSystem → Except FileError Unit × FileSystem
  | 0, _, fs => (.error .notFound, fs)
  | fuel + 1, p, fs =>
    if p.text.isEmpty then (.ok (), fs)
    else
      match fs.makeDirectory p with
      | .ok made => (.ok (), made)
      | .error .notFound =>
        match p.parent? with
        | none => (.error (.other "failed to create whole tree"), fs)
        | some parent =>
          match makeDirectoriesWith fuel parent fs with
          | (.error e, fs) => (.error e, fs)
          | (.ok (), fs) =>
            match fs.makeDirectory p with
            | .ok made => (.ok (), made)
            | .error e => (if fs.isDirectory p then .ok () else .error e, fs)
      | .error e => (if fs.isDirectory p then .ok () else .error e, fs)

/-- Makes a directory and its missing parents; an existing directory is left alone.  What was made
before a failure stays. -/
def makeDirectories (fs : FileSystem) (p : Path) : Except FileError Unit × FileSystem :=
  makeDirectoriesWith (p.text.length + 1) p fs

end FileSystem

end WorkloadSynth
