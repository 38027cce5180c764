import ApiModel.Client.Builder
import ApiModel.CommandLine.Process
import ApiModel.Model.Dump

/-!
# Running a command

A run turns arguments and the surroundings of the program into a transcript: what is written to
the output and to the error output, and the exit code. Data goes to the output only, everything
else to the error output.

The format is settled first. A command then makes the lines that it writes before it writes the
first one. Foreseen failures of this work are announced where they arise, and end the run with their
exit codes. Whatever else is raised on the way, also in announcing a failure or in writing, is
handled last, by one more announcement; if that cannot be shown either, the run crashes.
-/

namespace ApiModel.CommandLine

/-- What a run writes, and its exit code. -/
structure Transcript where
  stdout : String := ""
  stderr : String := ""
  exitCode : Int := 0
  deriving DecidableEq, Repr, Inhabited

/-- The name and version of the program. -/
def versionText : String := "specgen 0.1.0"

/-- How the program is called. -/
def usageText : String :=
  "Usage: specgen [--version] [--json | --plain] [--no-color] [-v] COMMAND [SPEC]\n\n" ++
    "  inspect [SPEC]    the client as JSON\n" ++
    "  models [SPEC]     one row for each model\n" ++
    "  services [SPEC]   one row for each operation\n" ++
    "  render [SPEC] [-t DIR] -T NAME    a template rendered with the client\n"

/-- A part of a run whose failure is one of several kinds. -/
def attempt {ε α : Type} (wrap : ε → Failure) (r : Except ε α) : Outcome α :=
  (Report.ofExcept r).mapFailure wrap

/-! ## Loading -/

/-- The settings that count. -/
def resolve (w : World) (override : Project.Override) : Outcome Project :=
  attempt .project (Project.resolve w.folder w.environment override)

/-- The client of the document that the command line or the settings name. -/
def loadClient (w : World) (spec : Option String) : Outcome Client := do
  let settings ← resolve w { spec }
  match settings.spec.filter (· ≠ "") with
  | none => Report.fail .noSpec
  | some spec =>
    Report.note (.loading spec)
    let document ← attempt .source (Source.load w.toSurroundings spec)
    (Client.generate document).mapFailure .document

/-! ## Commands -/

/-- A text, or a hyphen if there is none. -/
def orHyphen (s : String) : String := if s = "" then "-" else s

/-- The row of a model in the table of models. -/
def modelRow (m : Model) : List String :=
  [m.name, m.kind.label, m.type, orHyphen (", ".intercalate m.imports)]

/-- The rows of a service in the table of operations. -/
def serviceRows (s : Service) : List (List String) :=
  s.operations.map fun o =>
    [s.name, o.name, o.method, o.url, orHyphen (" | ".intercalate (o.results.map (·.type)))]

/-- A text without line feeds at its end. -/
def dropBreaks (s : String) : String := String.ofList (Text.dropTail (· == '\n') s.toList)

/-- A template rendered with a client. -/
def rendered (w : World) (templates : Option String) (template : String) (c : Client) :
    Outcome String := do
  let settings ← resolve w { templates }
  match settings.templates.filter (· ≠ "") with
  | none => Report.fail .noTemplates
  | some path =>
    let library ← attempt .rendering (Template.Library.openBy w.engine w.folder path)
    attempt .rendering (library.render template c.toNode [])

/-- The lines that a command writes to the output. -/
def lines (w : World) (format : Output.Format) (command : Command) (c : Client) :
    Outcome (List String) :=
  match command with
  | .inspect => pure [Output.jsonText c.toNode]
  | .models =>
    pure (Output.tableLines format ["Name", "Export", "Type", "Imports"] (c.models.map modelRow))
  | .services =>
    pure (Output.tableLines format ["Service", "Operation", "Method", "Path", "Result"]
      (c.services.flatMap serviceRows))
  | .render templates template => do
    pure [dropBreaks (← rendered w templates template c)]

/-! ## Formats -/

/-- The format that the options ask for, or else the settings. Settings that cannot be used do not
count here, unless nobody may tell whether there are any. -/
def formatOf (w : World) (o : Options) : Except Project.Fault Output.Format :=
  if o.json then .ok .json
  else if o.plain then .ok .plain
  else
    match Project.resolve w.folder w.environment {} with
    | .ok settings => .ok ((Output.Format.ofLabel? settings.outputFormat).getD .auto).resolve
    | .error fault =>
      if fault.problem.isHidden then .error fault else .ok Output.Format.auto.resolve

/-- The options that count for the console: without a format none of them has come to count. -/
def consoleOf (w : World) (o : Options) : Options :=
  match formatOf w o with
  | .ok _ => o
  | .error _ => {}

/-- Settle the format. -/
def settle (w : World) (o : Options) : Process Output.Format :=
  attended w (consoleOf w o) (attempt .project (formatOf w o))

/-! ## Runs -/

/-- Run a command. -/
def perform (w : World) (i : Invocation) : Process Unit := do
  let o := consoleOf w i.toOptions
  let format ← settle w i.toOptions
  let client ← attended w o (loadClient w i.spec)
  let texts ← attended w o (lines w format i.command client)
  texts.forM (print w)

/-- Write how the program is called, and end the run with an exit code. -/
def explain (w : World) (o : Options) (written : Output.Written) (exitCode : Int) :
    Process Unit := do
  let _ ← settle w o
  .write written
  .stop (.exit exitCode)

/-- The first words of what is left of a run that crashes. -/
def crashMark : String := "Traceback (most recent call last):"

/-- What is left on the error output of a run that crashes. -/
def crashText (words : String) : String := Output.line (crashMark ++ "\n" ++ words)

/-- What a run has written, and its exit code. -/
def Transcript.of (written : Output.Written) (exitCode : Int) : Transcript :=
  { stdout := written.stdout, stderr := written.stderr, exitCode }

/-- The transcript of a process: what it has raised is announced, and if that raises something too,
the run crashes. -/
def finish (w : World) (o : Options) (p : Process Unit) : Transcript :=
  match p.outcome with
  | .ok _ => .of p.written 0
  | .error (.exit code) => .of p.written code
  | .error (.raised words) =>
    match errorShown w (consoleOf w o) ("Unexpected error: " ++ words) with
    | .ok text => .of (p.written ++ { stderr := text }) 1
    | .error why => .of (p.written ++ { stderr := crashText why }) 1

/-- Run a command to its end. -/
def invoke (w : World) (i : Invocation) : Transcript := finish w i.toOptions (perform w i)

/-! ## What a run asks of the system -/

/-- The paths of the document and of the templates that a command needs, besides the settings. -/
def pathsOf (settings : Project) : Command → List Path
  | .render _ template =>
    let document := (settings.spec.map Path.ofText).toList
    match settings.templates with
    | none => document
    | some templates =>
      let library := Path.ofText templates
      document ++ [library, library.follow (Path.stepsOf template)]
  | _ => (settings.spec.map Path.ofText).toList

/-- The settings of a run with its arguments over all others. -/
def settingsOf? (w : World) (i : Invocation) : Option Project :=
  let templates :=
    match i.command with
    | .render templates _ => templates
    | _ => none
  (Project.resolve w.folder w.environment { spec := i.spec, templates }).toOption

/-- The paths that a run needs, given the system with no more than the settings in it. -/
def pathsNeeded (w : World) (args : List String) : List Path :=
  match parse args with
  | .invocation i => ((settingsOf? w i).map (pathsOf · i.command)).getD []
  | _ => []

/-- Does a run read its input? -/
def readsInput (w : World) (args : List String) : Bool :=
  match parse args with
  | .invocation i => (settingsOf? w i).any (·.spec = some "-")
  | _ => false

/-! ## The program -/

/-- Run the program. -/
def run (w : World) (args : List String) : Transcript :=
  match parse args with
  | .version => { stdout := Output.line versionText }
  | .help => { stdout := usageText }
  | .nothing => { stdout := usageText, exitCode := 2 }
  | .invalid => { stderr := usageText, exitCode := 2 }
  | .commandHelp o => finish w o (explain w o { stdout := usageText } 0)
  | .misused o => finish w o (explain w o { stderr := usageText } 2)
  | .invocation i => invoke w i

end ApiModel.CommandLine
