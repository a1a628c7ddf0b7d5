import ResolutionLog.CommandLine

/-! # The program

Reads the command line and the files that it names, prints a report, and writes errors to the standard
error. -/

open ResolutionLog

/-- What the operating system says about a file that cannot be used. -/
def ResolutionLog.faultOf : IO.Error → IoFault
  | .noFileOrDirectory .. => .missing
  | .permissionDenied _ code _ => .system s!"Permission denied (os error {code})"
  | .inappropriateType _ code _ => if code = 20 then .notDirectory else .isDirectory
  | .invalidArgument _ code _ =>
    if code = 36 then .nameTooLong else .system s!"Invalid argument (os error {code})"
  | e => .system (toString e)

/-- The content of a file. -/
def ResolutionLog.readPath (path : String) : IO (Except IoFault ByteArray) := do
  try return .ok (← IO.FS.readBinFile path) catch e => return .error (faultOf e)

/-- Why no file can be made in a directory, if none can. -/
def ResolutionLog.faultOfDirectory? (directory : String) : IO (Option IoFault) := do
  if directory.contains '\x00' then return some .nullInName
  let path := (if directory.isEmpty then "." else directory) ++ "/.spill-probe"
  try
    IO.FS.writeFile path ""
    IO.FS.removeFile path
    return none
  catch e => return some (faultOf e)

/-- The files that a command line names, and what is wrong with its spill directory. -/
def ResolutionLog.surroundingsOf (words : List String) : IO Surroundings := do
  match Invocation.ofArguments words with
  | .error _ => return (FileTree.ofList []).surroundings
  | .ok invocation =>
    let contents ← invocation.paths.mapM fun path => return (path, ← readPath path)
    let read (path : String) : Except IoFault ByteArray :=
      (contents.lookup path).getD (.error .missing)
    let fault? ← match (invocation.settings ⟨read, fun _ => none⟩).toOption with
      | some ⟨⟨_, some directory⟩⟩ => faultOfDirectory? directory
      | _ => pure none
    return ⟨read, fun _ => fault?⟩

/-- Run the program. -/
def main (words : List String) : IO UInt32 := do
  let result := runArguments words (← surroundingsOf words)
  IO.print result.output
  result.errors.forM IO.eprintln
  return result.exitCode.toUInt32
