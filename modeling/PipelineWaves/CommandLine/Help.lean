import PipelineWaves.CommandLine.Basic

/-!
# Help texts

What is shown when a command line asks for help: what a command does, how it is
called, and its options in columns.
-/

set_option autoImplicit false

namespace PipelineWaves

/-- A line of a help text: how something is written and what it means. -/
structure HelpEntry where
  form : String
  meaning : String

structure HelpPage where
  about : String
  usage : String
  /-- Headed groups of entries. -/
  groups : List (String × List HelpEntry)

namespace HelpPage

/-- One group, its meanings in one column. -/
def groupText (group : String × List HelpEntry) : String :=
  let width := (group.2.map fun entry => entry.form.length).foldl max 0
  let line (entry : HelpEntry) : String :=
    let gap := String.ofList (List.replicate (width + 2 - entry.form.length) ' ')
    "  " ++ entry.form ++ gap ++ entry.meaning ++ "\n"
  "\n" ++ group.1 ++ ":\n" ++ String.join (group.2.map line)

def text (page : HelpPage) : String :=
  page.about ++ "\n\nUsage: " ++ page.usage ++ "\n" ++ String.join (page.groups.map groupText)

end HelpPage

namespace CommandLine

namespace CommandName

def about : CommandName → String
  | .run => "Run a pipeline"
  | .validate => "Validate a pipeline definition and show its waves"
  | .generate => "Generate a standalone Rust program from a pipeline"
  | .help => "Print this message or the help of the given subcommand(s)"

end CommandName

def version : String := "0.1.0"

def verboseEntry : HelpEntry := ⟨"-v, --verbose", "Enable verbose logging"⟩

def helpEntry : HelpEntry := ⟨"-h, --help", "Print help"⟩

def mainPage : HelpPage :=
  { about := "Run build pipelines or compile them into standalone programs"
    usage := applicationName ++ " [OPTIONS] <COMMAND>"
    groups :=
      [("Commands",
        [⟨"run", CommandName.about .run⟩, ⟨"validate", CommandName.about .validate⟩,
          ⟨"generate", CommandName.about .generate⟩, ⟨"help", CommandName.about .help⟩]),
        ("Options", [verboseEntry, helpEntry, ⟨"-V, --version", "Print version"⟩])] }

/-- An option without a letter stands under the long forms of the others. -/
def longForm (form : String) : String := "    " ++ form

def runPage : HelpPage :=
  { about := CommandName.about .run
    usage := applicationName ++ " run [OPTIONS] --file <FILE>"
    groups :=
      [("Options",
        [⟨"-f, --file <FILE>", "Path to pipeline definition (JSON, or YAML by extension)"⟩,
          verboseEntry,
          ⟨longForm "--var <VAR>", "Environment overrides (KEY=VALUE)"⟩,
          ⟨longForm "--strategy <STRATEGY>", "Scheduling strategy within a wave "
            ++ "[default: parallel] [possible values: sequential, parallel, limited]"⟩,
          ⟨longForm "--concurrency <CONCURRENCY>",
            "Maximum concurrent steps per wave (implies the limited strategy)"⟩,
          ⟨longForm "--workspace <WORKSPACE>",
            "Directory steps run in (defaults to the current directory)"⟩,
          ⟨longForm "--toolchain <TOOLCHAIN>",
            "Compiler program used by compile and test_run steps"⟩,
          ⟨longForm "--git <GIT>", "git program used by checkout steps"⟩,
          ⟨longForm "--tar <TAR>", "tar program used by cache steps"⟩,
          ⟨longForm "--json", "Print the run report as JSON"⟩,
          helpEntry])] }

def validatePage : HelpPage :=
  { about := CommandName.about .validate
    usage := applicationName ++ " validate [OPTIONS] --file <FILE>"
    groups :=
      [("Options",
        [⟨"-f, --file <FILE>", "Path to pipeline definition"⟩, verboseEntry,
          ⟨longForm "--json", "Output the execution plan in JSON format"⟩, helpEntry])] }

def generatePage : HelpPage :=
  { about := CommandName.about .generate
    usage := applicationName ++ " generate [OPTIONS] --file <FILE> --out <OUT>"
    groups :=
      [("Options",
        [⟨"-f, --file <FILE>", "Path to pipeline definition"⟩, verboseEntry,
          ⟨"-o, --out <OUT>", "Output directory for the generated crate"⟩, helpEntry])] }

def helpPage : HelpPage :=
  { about := CommandName.about .help
    usage := applicationName ++ " help [COMMAND]..."
    groups := [("Arguments", [⟨"[COMMAND]...", "Print help for the subcommand(s)"⟩])] }

def pageOf : Option CommandName → HelpPage
  | none => mainPage
  | some .run => runPage
  | some .validate => validatePage
  | some .generate => generatePage
  | some .help => helpPage

/-- The command that help was asked for; nothing stands for the program as a whole. -/
def helpTopic : List String → Option CommandName
  | [] => none
  | word :: rest =>
      match CommandName.ofWord? word with
      | some .help => rest.head?.bind CommandName.ofWord?
      | some name => some name
      | none => if word = "-v" || word = "--verbose" then helpTopic rest else none

/-- What is written for a command line that asks to be shown something. -/
def shown (words : List String) : ArgumentFault → String
  | .help => (pageOf (helpTopic words)).text
  | .version => applicationName ++ " " ++ version ++ "\n"
  | _ => ""

end CommandLine

end PipelineWaves
