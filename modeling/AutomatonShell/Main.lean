import AutomatonShell.CommandLine.Run

/-!
# The executable

The outer layer: it takes the files of the working directory into a workspace, hands the command
line and the lines of the standard input to the program, prints what that writes and stores the
files that it changed.  It decides nothing itself.

* `takeIn` — the files and folders below a folder, taken into a workspace.
* `store` — the files that differ between two workspaces, written.
* `main` — the executable.
-/

namespace AutomatonShell

/-- The path of a place. -/
def pathOf (place : Location) : String := "/" ++ String.intercalate "/" place

/-- The files and folders below the working directory, taken into a workspace. -/
def takeIn : IO Workspace := do
  let folder ← IO.currentDir
  let home := Path.namesOf folder.toString
  let mut w : Workspace := { home }
  for path in ← folder.walkDir do
    let place := Path.namesOf path.toString
    if ← path.isDir then w := { w with folders := place :: w.folders }
    else w := { w with files := (place, (← IO.FS.readBinFile path).toList) :: w.files }
  return w

/-- The files that are new or changed, written. -/
def store (before after : Workspace) : IO Unit := do
  for (place, content) in after.files do
    if before.get? place != some content then
      IO.FS.writeBinFile (pathOf place) (ByteArray.mk content.toArray)

/-- Output printed, and a fault reported. -/
def report (output : List String) (fault : Option Fault) : IO UInt32 := do
  for text in output do
    IO.print text
  match fault with
  | none => return 0
  | some f =>
    IO.eprintln f.message
    return 1

/-- The dialogue with the standard input, turn by turn. -/
partial def converseWith (input : IO.FS.Stream) (shell : Shell) : IO UInt32 := do
  if shell.isOver then return 0
  IO.print shell.cue
  (← IO.getStdout).flush
  let exchange := shell.accept (.line (← input.getLine))
  store shell.session.workspace exchange.state.session.workspace
  let code ← report exchange.output exchange.failure
  if exchange.failure.isSome then return code else converseWith input exchange.state

end AutomatonShell

open AutomatonShell in
/-- The executable. -/
def main (arguments : List String) : IO UInt32 := do
  let workspace ← takeIn
  match launch arguments workspace with
  | .ended .usage =>
    IO.eprintln Invocation.usage
    return 2
  | .ended .help =>
    IO.println Invocation.usage
    return 0
  | .ended .version =>
    IO.print Ending.version.printed
    return 0
  | .started running interactive =>
    store workspace running.state.workspace
    let code ← report running.output running.failure
    if interactive && running.failure.isNone then
      IO.print Shell.greeting
      converseWith (← IO.getStdin) (Shell.start running.state)
    else return code
