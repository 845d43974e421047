import WorkloadSynth.Arguments
import WorkloadSynth.Manual

/-!
# Requests

A command line asks to perform one of three commands, for a page of the manual, or for the version.
The first argument names the command, and the others are read by the form that the command has.
-/

namespace WorkloadSynth

/-- What the program is asked to do. -/
inductive Command where
  | generate (config : Path)
  | mergeIndices (inputs : List Path) (output : Path)
  | inspect (trace : Path)
deriving DecidableEq, Repr

/-- What a command line asks for. -/
inductive Request where
  | perform (command : Command)
  | help (topic : Topic)
  | version
deriving DecidableEq, Repr

/-! ## Reading command lines -/

/-- Where merged indices go unless that is given. -/
def defaultIndex : Path := ⟨"indices.csv"⟩

namespace Request

/-- The request of a command by the arguments that were read for it. -/
def ofReading (topic : Topic) (command? : Arguments → Option Command) :
    Except Interruption Arguments → Option Request
  | .ok a => (command? a).map .perform
  | .error .helpWanted => some (.help topic)
  | .error .misuse => none

/-- The request of a command by its arguments. -/
def ofTopic (arguments : List String) : Topic → Option Request
  | .program => none
  | .generate =>
    ofReading .generate (fun a => a.value.map .generate)
      (Arguments.read ⟨some ⟨'c', "config"⟩, some 0⟩ arguments)
  | .mergeIndices =>
    ofReading .mergeIndices
      (fun a =>
        if a.others.isEmpty then none
        else some (.mergeIndices a.others (a.value.getD defaultIndex)))
      (Arguments.read ⟨some ⟨'o', "output"⟩, none⟩ arguments)
  | .inspect =>
    ofReading .inspect (fun a => a.others.head?.map .inspect)
      (Arguments.read ⟨none, some 1⟩ arguments)
  | .help => (Topic.ofNames? arguments).map .help

/-- The request of the first argument when it is not the name of a command. -/
def ofFlag (argument : String) : Option Request :=
  match argument.toList with
  | '-' :: '-' :: name =>
    if name = "help".toList then some (.help .program)
    else if name = "version".toList then some .version
    else none
  | '-' :: 'h' :: _ => some (.help .program)
  | '-' :: 'V' :: _ => some .version
  | _ => none

/-- Reads a command line; nothing comes of a misuse. -/
def ofArguments : List String → Option Request
  | [] => none
  | first :: rest =>
    match Topic.named? first with
    | some topic => ofTopic rest topic
    | none => ofFlag first

end Request

end WorkloadSynth
