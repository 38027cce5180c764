import ApiModel.CommandLine.Arguments
import ApiModel.Failure
import ApiModel.Output.Console
import ApiModel.Output.Markup
import ApiModel.Source.Load

/-!
# Processes

A part of a run writes to two streams, and then it has a value or stops the run: with an exit code,
or because something has been raised that is not handled on the spot. What was written before stays
written. Processes form a monad: the streams are written in order, and the first stop ends the work.

Lines go to the output one by one, and the output may refuse a line, as when it holds a character
that the encoding of the stream lacks. An error message goes to the error output, which refuses
nothing; but a console that may use colours reads the message as markup, and that may fail.
-/

namespace ApiModel.CommandLine

/-- The surroundings of a run. -/
structure World extends Source.Surroundings where
  environment : Project.Environment
  engine : Template.Engine := .basic
  /-- What the console shows of a marked-up text, or why it cannot read it. -/
  markup : String → Except String String := Output.Markup.shown
  /-- Why the output cannot take a line, if it cannot. -/
  refusal : String → Option String := fun _ => none
  /-- The wording of a failure, with what libraries have to say in it. -/
  wording : Failure → String := Failure.message

/-- Why a run ends before its end. -/
inductive Stop where
  | exit (code : Int)
  /-- Something has been raised, with these words. -/
  | raised (words : String)
  deriving DecidableEq, Repr

/-- What a part of a run writes, and its value or why it ends the run. -/
structure Process (α : Type) where
  written : Output.Written := {}
  outcome : Except Stop α

namespace Process

variable {α β : Type}

/-- Nothing but a value. -/
protected def pure (a : α) : Process α := { outcome := .ok a }

/-- One after the other: the second part needs the value of the first. -/
protected def bind (x : Process α) (f : α → Process β) : Process β :=
  match x.outcome with
  | .ok a => { written := x.written ++ (f a).written, outcome := (f a).outcome }
  | .error stop => { written := x.written, outcome := .error stop }

instance : Monad Process where
  pure := Process.pure
  bind := Process.bind

/-- End the run. -/
def stop (why : Stop) : Process α := { outcome := .error why }

/-- Write to the streams. -/
def write (written : Output.Written) : Process Unit := { written, outcome := .ok () }

end Process

/-! ## Writing -/

/-- Write a line to the output, if it takes the line. -/
def print (w : World) (text : String) : Process Unit :=
  match w.refusal text with
  | none => .write { stdout := Output.line text }
  | some why => .stop (.raised why)

/-- May the console use colours? -/
def mayUseColours (w : World) (o : Options) : Bool :=
  !(o.noColor || (w.environment.lookup "NO_COLOR").isSome ||
    w.environment.lookup "TERM" = some "dumb")

/-- What the console shows as an error message, or why it cannot show it. -/
def errorShown (w : World) (o : Options) (message : String) : Except String String :=
  if mayUseColours w o then
    (w.markup ("[bold red]Error:[/bold red] " ++ message)).map Output.line
  else .ok (Output.errorText message)

/-- Write an error message to the error output, if the console can show it. -/
def announce (w : World) (o : Options) (message : String) : Process Unit :=
  match errorShown w o message with
  | .ok text => .write { stderr := text }
  | .error why => .stop (.raised why)

/-! ## Handling failures -/

/-- The outcome of some work that may fail. -/
abbrev Outcome (α : Type) : Type := Report Failure α

/-- How a run goes on when some work is done: a foreseen failure is announced and ends the run with
its exit code, and any other is raised. -/
def handled {α : Type} (w : World) (o : Options) : Except Failure α → Process α
  | .ok a => pure a
  | .error e =>
    if e.kind?.isSome then do
      announce w o (w.wording e)
      .stop (.exit e.exitCode)
    else .stop (.raised (w.wording e))

/-- Work whose notices are shown, if that is asked for, and whose failure is handled. -/
def attended {α : Type} (w : World) (o : Options) (x : Outcome α) : Process α := do
  .write { stderr := Output.noticesText o.verbose x.notices }
  handled w o x.outcome

end ApiModel.CommandLine
