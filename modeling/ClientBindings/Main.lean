import ClientBindings.CommandLine.Run

/-! The program on the files of a disk. -/
namespace ClientBindings.CommandLine

/-- The result of an action, or nothing when it fails. -/
def attempt (act : IO α) : IO (Option α) := do
  try
    return some (← act)
  catch _ =>
    return none

/-- The operations on the files of the disk. A folder can be opened, but reading it fails. -/
def disk : FileAccess IO where
  readText path := attempt (IO.FS.readFile path)
  pathExists path := return (← attempt (IO.FS.Handle.mk path .read)).isSome
  isFile path := return (← attempt do (← IO.FS.Handle.mk path .read).read 1).isSome
  makeFolders path := return path.isEmpty || (← attempt (IO.FS.createDirAll path)).isSome
  writeText path content := return (← attempt (IO.FS.writeFile path content)).isSome

/-- The variables that the program looks at, as far as they are set. -/
def environment : IO Environment :=
  [Settings.outputFolderVariable, Settings.indentWidthVariable].filterMapM fun name => do
    return (← IO.getEnv name).map fun value => (name, value)

end ClientBindings.CommandLine

open ClientBindings CommandLine in
def main (args : List String) : IO UInt32 := do
  match read args with
  | .error e =>
    if e.asksForHelp then
      IO.print usage
      return 0
    else
      IO.eprintln ("error: " ++ e.message)
      IO.eprint usage
      return 2
  | .ok command =>
    let outcome ← run disk (← environment) command
    IO.print outcome.output
    match outcome.result with
    | .ok () => return 0
    | .error e =>
      IO.eprintln ("Error: " ++ Text.join ": " e.messages)
      return 1
