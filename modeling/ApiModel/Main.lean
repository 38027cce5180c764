import ApiModel.CommandLine.Run

/-!
# The program

The outer layer of the command line: it looks at the paths that a run needs, reads the environment
and the input, and writes what the run writes. There is no network.
-/

namespace ApiModel.CommandLine

/-- What is at a path. -/
def entryAt (path : Path) : IO Entry := do
  let place := (← IO.currentDir) / path.text
  if ← place.isDir then pure .folder
  else if !(← place.pathExists) then pure .nothing
  else
    try
      let bytes ← IO.FS.readBinFile place
      match String.fromUTF8? bytes with
      | some text => pure (.file (.text text))
      | none => pure (.file (.garbled "the file is not in UTF-8"))
    catch e => pure (.file (.refused e.toString))

/-- A folder with what is at some paths, and with nothing at any other. -/
def folderWith (location : String) (entries : List (Path × Entry)) : Folder where
  location
  entry path := (entries.lookup path).getD .nothing
  below _ := []

/-- A variable of the environment, if it is set. -/
def readVariable (name : String) : IO Project.Environment := do
  match ← IO.getEnv name with
  | some value => pure [(name, value)]
  | none => pure []

/-- The rest of a stream. -/
partial def readRest (stream : IO.FS.Stream) (before : String) : IO String := do
  let text ← stream.getLine
  if text.isEmpty then pure before else readRest stream (before ++ text)

/-- The world of a run. -/
def readWorld (args : List String) : IO World := do
  let location := (← IO.currentDir).toString
  let environment := (← readVariable "SPECGEN_SPEC") ++ (← readVariable "SPECGEN_TEMPLATES") ++
    (← readVariable "NO_COLOR") ++ (← readVariable "TERM")
  let settings : Path := { steps := [Project.fileName] }
  let known := [(settings, ← entryAt settings)]
  let world : World :=
    { folder := folderWith location known, input := "", environment,
      fetch := fun _ => .failure "there is no network" }
  let found ← (pathsNeeded world args).mapM fun path => do pure (path, ← entryAt path)
  let input ← if readsInput world args then readRest (← IO.getStdin) "" else pure ""
  pure { world with folder := folderWith location (known ++ found), input }

end ApiModel.CommandLine

/-- Run the program with the given arguments. -/
def main (args : List String) : IO UInt32 := do
  let t := ApiModel.CommandLine.run (← ApiModel.CommandLine.readWorld args) args
  (← IO.getStdout).putStr t.stdout
  (← IO.getStderr).putStr t.stderr
  pure (UInt32.ofInt t.exitCode)
