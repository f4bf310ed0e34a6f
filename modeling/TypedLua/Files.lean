import TypedLua.Path
import TypedLua.Text.Line
import TypedLua.Text.Quoted
import TypedLua.Text.Utf8

/-!
# Files

What the commands need of a file system, as a class over the monad they run in: the same commands
then work on files in memory and on those of the machine.
-/

namespace TypedLua

inductive FileError where
  | missing
  | present
  | notDirectory
  | isDirectory
  | tooLong
  | nullByte
  deriving Repr, DecidableEq

namespace FileError

/-- The number and the name of an error among the errors of the system; a path that no name of the
system can be is refused before the system is asked. -/
def systemError? : FileError → Option (Nat × String)
  | missing => some (2, "No such file or directory")
  | present => some (17, "File exists")
  | notDirectory => some (20, "Not a directory")
  | isDirectory => some (21, "Is a directory")
  | tooLong => some (36, "File name too long")
  | nullByte => none

def message (e : FileError) (path : Path) : String :=
  match e.systemError? with
  | some (code, name) => s!"[Errno {code}] {name}: {Text.quote path.text}"
  | none => "embedded null byte"

def nameLimit : Nat := 255

def pathLimit : Nat := 4095

def ofPath? (path : Path) : Option FileError :=
  if path.text.toList.contains '\x00' then some .nullByte
  else if pathLimit < path.text.utf8ByteSize then some .tooLong
  else none

end FileError

inductive FileKind where
  | file | directory
  deriving Repr, DecidableEq

/-- Operations on files. -/
class Files (m : Type → Type) where
  home : m Path
  kind? : Path → m (Except FileError (Option FileKind))
  read : Path → m (Except FileError (List UInt8))
  write : Path → List UInt8 → m (Except FileError Unit)
  makeDirectory : Path → m (Except FileError Unit)

structure FileFailure where
  error : FileError
  path : Path
  deriving Repr, DecidableEq

def FileFailure.message (f : FileFailure) : String :=
  f.error.message f.path

inductive ReadError where
  | file (f : FileFailure)
  | undecodable (flaw : Text.Utf8.Flaw)
  deriving Repr, DecidableEq

def ReadError.message : ReadError → String
  | file f => f.message
  | undecodable flaw => flaw.message

namespace Files

variable {m : Type → Type} [Monad m] [Files m]

def ask (fact : Option FileKind → Bool) (path : Path) : m (Except FileFailure Bool) := do
  match ← kind? path with
  | .ok kind => return .ok (fact kind)
  | .error e => return .error ⟨e, path⟩

def isPresent (path : Path) : m (Except FileFailure Bool) :=
  ask (·.isSome) path

def isFile (path : Path) : m (Except FileFailure Bool) :=
  ask (· == some .file) path

def isDirectory (path : Path) : m (Except FileFailure Bool) :=
  ask (· == some .directory) path

def readStored (path : Path) : m (Except ReadError String) := do
  match ← read path with
  | .error e => return .error (.file ⟨e, path⟩)
  | .ok bytes =>
    match Text.Utf8.decode bytes with
    | .error flaw => return .error (.undecodable flaw)
    | .ok text => return .ok text

def readText (path : Path) : m (Except ReadError String) := do
  match ← readStored path with
  | .error e => return .error e
  | .ok text => return .ok (String.ofList (Text.unifyBreaks text.toList))

def writeText (path : Path) (text : String) : m (Except FileFailure Unit) := do
  match ← write path (Text.Utf8.encode text) with
  | .ok () => return .ok ()
  | .error e => return .error ⟨e, path⟩

/-- Makes a directory unless it is there; `above` are the directories on the way to it, nearest
first. -/
def ensureDirectory (path : Path) : (above : List Path) → m (Except FileFailure Unit)
  | [] => make
  | parent :: above => do
    match ← makeDirectory path with
    | .ok () => return .ok ()
    | .error .missing =>
      match ← ensureDirectory parent above with
      | .error e => return .error e
      | .ok () => make
    | .error e => settle e
where
  make : m (Except FileFailure Unit) := do
    match ← makeDirectory path with
    | .ok () => return .ok ()
    | .error e => settle e
  settle (e : FileError) : m (Except FileFailure Unit) := do
    if e = .missing then return .error ⟨e, path⟩
    match ← isDirectory path with
    | .error f => return .error f
    | .ok true => return .ok ()
    | .ok false => return .error ⟨e, path⟩

/-- Makes a directory and those on the way to it, unless they are there. -/
def makeDirectories (path : Path) : m (Except FileFailure Unit) :=
  ensureDirectory path path.ancestors.tail

end Files

end TypedLua
