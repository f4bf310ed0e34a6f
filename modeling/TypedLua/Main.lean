import TypedLua.Command.Perform

/-!
# The program

Runs a command line on the files of the machine.
-/

namespace TypedLua.Main

def fileError? : IO.Error → Option FileError
  | .noFileOrDirectory .. => some .missing
  | .alreadyExists .. => some .present
  | .inappropriateType _ code _ | .invalidArgument _ code _ => ofCode code
  | _ => none
where
  ofCode (code : UInt32) : Option FileError :=
    [FileError.notDirectory, FileError.isDirectory, FileError.tooLong].find? fun e =>
      e.systemError?.any (·.1 == code.toNat)

def guarded {α : Type} (path : Path) (operation : IO α) : IO (Except FileError α) := do
  if FileError.ofPath? path = some .nullByte then return .error .nullByte
  try
    return .ok (← operation)
  catch e =>
    match fileError? e with
    | some f => return .error f
    | none => throw e

def kindOf (path : Path) : IO (Except FileError (Option FileKind)) := do
  let place := (← IO.currentDir) / path.text
  match ← guarded path place.metadata with
  | .ok data => return .ok (some (if data.type == .dir then .directory else .file))
  | .error .tooLong => return .error .tooLong
  | .error _ => return .ok none

instance : Files IO where
  home := do return Path.ofText (← IO.currentDir).toString
  kind? := kindOf
  read path := guarded path do return (← IO.FS.readBinFile path.text).toList
  write path bytes := guarded path (IO.FS.writeBinFile path.text (ByteArray.mk bytes.toArray))
  makeDirectory path := guarded path (IO.FS.createDir path.text)

def statusOf : Outcome → UInt32
  | .status code | .halted code => code.toUInt32
  | .crashed _ => 1

/-- Prints what the program printed, and why it ended if it was not meant to. -/
def present (report : Report) : IO Unit := do
  IO.print report.out
  IO.eprint report.err
  match report.outcome with
  | .crashed c => IO.eprintln c.message
  | _ => return ()

end TypedLua.Main

def main (words : List String) : IO UInt32 := do
  let report ← TypedLua.runProgram words
  TypedLua.Main.present report
  return TypedLua.Main.statusOf report.outcome
