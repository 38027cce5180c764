import ApiModel.Notice
import ApiModel.Output.Format

/-!
# The log

Messages have a level. Of the program's own notices nothing is shown unless more is asked for,
because they are of the lowest level.
-/

namespace ApiModel.Output

/-- How important a message is. -/
inductive Level where
  | debug
  | info
  | warning
  | error
  | critical
  deriving DecidableEq, Repr

namespace Level

/-- The word for a level. -/
def label : Level → String
  | debug => "DEBUG"
  | info => "INFO"
  | warning => "WARNING"
  | error => "ERROR"
  | critical => "CRITICAL"

/-- The rank of a level: greater is more important. -/
def rank : Level → Nat
  | debug => 10
  | info => 20
  | warning => 30
  | error => 40
  | critical => 50

/-- The level with the given word, in small letters. -/
def ofWord? (word : String) : Option Level :=
  [debug, info, warning, error, critical].find? fun l => l.label = word.toUpper

/-- The least important level that is shown. -/
def threshold (verbose : Bool) : Level := if verbose then debug else warning

end Level

/-- A message as it is shown; nothing if its level is too low. -/
def logText (verbose : Bool) (level : Level) (origin message : String) : String :=
  if (Level.threshold verbose).rank ≤ level.rank then
    line (level.label ++ " " ++ origin ++ ": " ++ message)
  else ""

/-- Notices as they are shown. -/
def noticesText (verbose : Bool) (notices : List Notice) : String :=
  String.join (notices.map fun n => logText verbose .debug n.origin n.message)

end ApiModel.Output
