import TypedLua.Config
import TypedLua.Files
import TypedLua.Toml.Reader

/-!
# Configuration files

A configuration file is looked for in a directory and in those above it, and the nearest one counts.
-/

namespace TypedLua.Config

def fileName : String :=
  "luatypes.toml"

def defaultText : String :=
  "\n".intercalate [
    "# luatypes configuration",
    "# Created with `luatypes init`",
    "",
    "[compiler]",
    "# Insert run-time type checks (a --!typecheck directive overrides this per file)",
    "typecheck = true",
    "",
    "# Global table holding the type predicates",
    "registry_name = \"types\"",
    "",
    "# Prefix for compiler-generated temporaries",
    "temp_prefix = \"_tmp\"",
    "",
    "# Put a comment header at the top of generated Python modules",
    "emit_header = true",
    ""]

def ofText (text : String) : Except Number.TextError (Except Flaw Config) :=
  match Toml.read text with
  | .error .malformed => .ok (.error .unreadable)
  | .error (.tooLong digits) => .error (.tooLong digits)
  | .ok document => .ok (ofSettings document)

variable {m : Type → Type} [Monad m] [Files m]

def firstFile : List Path → m (Except FileFailure (Option Path))
  | [] => return .ok none
  | path :: paths => do
    match ← Files.isFile path with
    | .error f => return .error f
    | .ok true => return .ok (some path)
    | .ok false => firstFile paths

/-- The configuration file that counts at a path, which is the working directory if none is given.
-/
def find (start : Option Path) : m (Except FileFailure (Option Path)) := do
  let home ← Files.home
  let start := start.getD home
  if FileError.ofPath? start = some .nullByte then return .error ⟨.nullByte, start⟩
  let place := home.resolve start
  match ← Files.isFile place with
  | .error f => return .error f
  | .ok isFile =>
    let directory := if isFile then place.parent else place
    firstFile (directory.ancestors.map (·.child fileName))

def load (path : Path) :
    m (Except ReadError (Except Number.TextError (Except Flaw Config))) := do
  return (← Files.readStored path).map ofText

end TypedLua.Config
