/-!
# The manual

One page about the program and one about each command.  A page says what the command is for, how it
is called, and what its commands, arguments and options are, with the explanations of a section
below each other.
-/

namespace WorkloadSynth

/-! ## Pages -/

/-- A section of a page: a list of terms with their explanations. -/
structure ManualSection where
  title : String
  entries : List (String × String)

/-- A page of the manual. -/
structure ManualPage where
  purpose : String
  usage : String
  sections : List ManualSection

/-- A term filled with blanks up to a width. -/
def padded (width : Nat) (term : String) : String := term.pushn ' ' (width - term.length)

/-- The lines of a section. -/
def ManualSection.lines (s : ManualSection) : List String :=
  let width := s.entries.foldl (fun width entry => max width entry.1.length) 0
  (s.title ++ ":") ::
    s.entries.map fun (term, explanation) => "  " ++ padded width term ++ "  " ++ explanation

/-- The lines of a page. -/
def ManualPage.lines (page : ManualPage) : List String :=
  [page.purpose, "", "Usage: " ++ page.usage] ++ page.sections.flatMap fun s => "" :: s.lines

/-! ## Contents -/

/-- What the manual tells about. -/
inductive Topic where
  | program
  | generate
  | mergeIndices
  | inspect
  | help
deriving DecidableEq, Repr

namespace Topic

/-- The name of the program. -/
def programName : String := "faas-tracegen"

/-- The name of the program and its version. -/
def version : String := programName ++ " 0.1.0"

/-- The commands with their names. -/
def commands : List (String × Topic) :=
  [("generate", .generate), ("merge-indices", .mergeIndices), ("inspect", .inspect),
    ("help", .help)]

/-- The topic with the given name. -/
def named? (name : String) : Option Topic := commands.lookup name

/-- The topic that a list of names leads to; commands have no topics of their own. -/
def ofNames? : List String → Option Topic
  | [] => some .program
  | [name] => named? name
  | _ => none

/-- What a topic is for. -/
def purpose : Topic → String
  | .program => "Synthesizes per-function FaaS traces from Azure Functions 2019 statistics"
  | .generate => "Generates traces for every shard task listed in the config"
  | .mergeIndices => "Joins per-shard audit indices into one global index"
  | .inspect => "Prints a summary of a generated trace file"
  | .help => "Print this message or the help of the given subcommand(s)"

/-- How a topic is called, behind the name of the program. -/
def usage : Topic → String
  | .program => "<COMMAND>"
  | .generate => "generate --config <CONFIG>"
  | .mergeIndices => "merge-indices [OPTIONS] <INPUTS>..."
  | .inspect => "inspect <TRACE>"
  | .help => "help [COMMAND]..."

/-- The option that shows the page. -/
def helpOption : String × String := ("-h, --help", "Print help")

/-- The sections about a topic. -/
def sections : Topic → List ManualSection
  | .program => [
      ⟨"Commands", commands.map fun (name, topic) => (name, topic.purpose)⟩,
      ⟨"Options", [helpOption, ("-V, --version", "Print version")]⟩]
  | .generate => [
      ⟨"Options", [
        ("-c, --config <CONFIG>", "Path to YAML file with generation config"),
        helpOption]⟩]
  | .mergeIndices => [
      ⟨"Arguments", [("<INPUTS>...", "Shard index files in shard order")]⟩,
      ⟨"Options", [
        ("-o, --output <OUTPUT>", "Path to produced index file [default: indices.csv]"),
        helpOption]⟩]
  | .inspect => [
      ⟨"Arguments", [("<TRACE>", "")]⟩,
      ⟨"Options", [helpOption]⟩]
  | .help => [⟨"Arguments", [("[COMMAND]...", "Print help for the subcommand(s)")]⟩]

/-- The page about a topic. -/
def page (topic : Topic) : ManualPage where
  purpose := topic.purpose
  usage := programName ++ " " ++ topic.usage
  sections := topic.sections

end Topic

end WorkloadSynth
