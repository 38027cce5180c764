import ApiModel.Output.Log

/-!
# The console

A console remembers the format that was chosen for it. It starts without one, and the first use
of a console without a format chooses the default. A `Step` is one thing that a program does to
its console; what it does is written to two streams.
-/

namespace ApiModel.Output

/-- A console: the format that was chosen for it, if any. -/
structure Console where
  chosen : Option Format := none
  deriving DecidableEq, Repr, Inhabited

/-- What goes to the two streams. -/
structure Written where
  stdout : String := ""
  stderr : String := ""
  deriving DecidableEq, Repr, Inhabited

/-- One after the other. -/
protected def Written.append (a b : Written) : Written :=
  { stdout := a.stdout ++ b.stdout, stderr := a.stderr ++ b.stderr }

instance : Append Written where
  append := Written.append

/-- Something done to a console. -/
inductive Step where
  | choose (format : Format)
  | forget
  | data (text : String)
  | json (value : Node)
  | table (headers : List String) (rows : List (List String))
  | error (message : String)
  | log (verbose : Bool) (level : Level) (origin message : String)

namespace Console

/-- The format in use. -/
def format (c : Console) : Format := c.chosen.getD Format.auto.resolve

/-- The console after a step that uses its format. -/
def used (c : Console) : Console := { chosen := some c.format }

/-- The console after a step. -/
def after (c : Console) : Step → Console
  | .choose format => { chosen := some format.resolve }
  | .forget => {}
  | .log .. => c
  | _ => c.used

/-- What a step writes. -/
def written (c : Console) : Step → Written
  | .choose _ | .forget => {}
  | .data text => { stdout := line text }
  | .json value => { stdout := line (jsonText value) }
  | .table headers rows => { stdout := tableText c.format headers rows }
  | .error message => { stderr := errorText message }
  | .log verbose level origin message => { stderr := logText verbose level origin message }

@[simp] theorem format_used (c : Console) : c.used.format = c.format := rfl

end Console

end ApiModel.Output
