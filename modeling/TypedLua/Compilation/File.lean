import TypedLua.Compilation
import TypedLua.Files

/-!
# Compiling a file

The unit is named by the path of its file.
-/

namespace TypedLua

def fileNotFound (path : Path) : String :=
  "File not found: " ++ path.text

inductive FileInterruption where
  | file (f : FileFailure)
  | unit (i : Compilation.Interruption)

/-- The generated text of the unit in a file, or the report of what is wrong with it. -/
def compileFile {m : Type → Type} [Monad m] [Files m] (config : Config) (path : Path) :
    m (Except FileInterruption (Except String String)) := do
  match ← Files.isPresent path with
  | .error f => return .error (.file f)
  | .ok false => return .ok (.error (compilationFailed (fileNotFound path)))
  | .ok true =>
    match ← Files.readText path with
    | .error e => return .ok (.error (compilationFailed ("Failed to read file: " ++ e.message)))
    | .ok source => return ((compile config path.text true source).map (·.result)).mapError .unit

end TypedLua
