import WorkloadSynth.Path

/-!
# Command line arguments

The arguments of a command are paths, and at most one option takes a path too.  They are read from
left to right, up to the first that is wrong or asks for help: a request for help is heard unless
something before it is wrong.
-/

namespace WorkloadSynth

/-- An option that takes a value. -/
structure ValueOption where
  short : Char
  long : String

/-- What a command takes. -/
structure ArgumentForm where
  option : Option ValueOption
  /-- How many arguments there can be besides the option, if that is limited. -/
  limit : Option Nat

/-- What has been read: the value of the option, and the other arguments. -/
structure Arguments where
  value : Option Path
  others : List Path
deriving DecidableEq, Repr

/-- Why arguments are not read to their end. -/
inductive Interruption where
  | helpWanted
  | misuse
deriving DecidableEq, Repr

/-- What an argument is by its looks. -/
inductive ArgumentKind where
  /-- Not an option. -/
  | plain
  /-- The option together with its value. -/
  | valued (value : String)
  /-- The option; its value is the next argument. -/
  | named
  | help
  | unknown
deriving DecidableEq, Repr

namespace ArgumentKind

/-- What an argument with two hyphens is, by the characters behind them. -/
def ofLong (form : ArgumentForm) (name : List Char) : ArgumentKind :=
  if name = "help".toList then .help
  else
    match form.option with
    | none => .unknown
    | some option =>
      let long := option.long.toList
      if name = long then .named
      else if (long ++ ['=']).isPrefixOf name then
        .valued (String.ofList (name.drop (long.length + 1)))
      else .unknown

/-- What an argument with one hyphen is, by the letter behind it and the rest: the value stands
right behind the letter, or behind an equals sign. -/
def ofShort (form : ArgumentForm) (letter : Char) (rest : List Char) : ArgumentKind :=
  if letter = 'h' then .help
  else if form.option.any fun option => option.short = letter then
    match rest with
    | [] => .named
    | '=' :: value => .valued (String.ofList value)
    | value => .valued (String.ofList value)
  else .unknown

/-- What an argument is.  A single hyphen is no option. -/
def of (form : ArgumentForm) (argument : String) : ArgumentKind :=
  match argument.toList with
  | '-' :: '-' :: name => ofLong form name
  | '-' :: letter :: rest => ofShort form letter rest
  | _ => .plain

end ArgumentKind

namespace Arguments

/-- Notes the value of the option, which is given once and is not empty. -/
def addValue (value : String) (a : Arguments) : Except Interruption Arguments :=
  if value.isEmpty || a.value.isSome then .error .misuse else .ok { a with value := some ⟨value⟩ }

/-- Notes another argument, which is not empty and not one too many. -/
def addOther (form : ArgumentForm) (a : Arguments) (argument : String) :
    Except Interruption Arguments :=
  if argument.isEmpty || form.limit.any (· ≤ a.others.length) then .error .misuse
  else .ok { a with others := a.others ++ [⟨argument⟩] }

/-- Goes on reading arguments.  Behind `--` nothing is an option. -/
def readOn (form : ArgumentForm) (a : Arguments) : List String → Except Interruption Arguments
  | [] => .ok a
  | argument :: rest =>
    if argument = "--" then rest.foldlM (addOther form) a
    else
      match ArgumentKind.of form argument with
      | .plain => do readOn form (← a.addOther form argument) rest
      | .valued value => do readOn form (← a.addValue value) rest
      | .named =>
        match rest with
        | [] => .error .misuse
        | value :: rest =>
          if ArgumentKind.of form value = .plain then do readOn form (← a.addValue value) rest
          else .error .misuse
      | .help => .error .helpWanted
      | .unknown => .error .misuse

/-- Reads the arguments of a command. -/
def read (form : ArgumentForm) (arguments : List String) : Except Interruption Arguments :=
  readOn form ⟨none, []⟩ arguments

end Arguments

end WorkloadSynth
