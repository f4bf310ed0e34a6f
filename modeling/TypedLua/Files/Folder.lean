import TypedLua.Association
import TypedLua.Files

/-!
# Files in memory

A folder holds files and directories under absolute paths without dots.
-/

namespace TypedLua

inductive Entry where
  | file (bytes : List UInt8)
  | directory
  deriving Repr, DecidableEq

structure Folder where
  home : List String
  entries : List (List String × Entry) := []
  deriving Repr, DecidableEq

namespace Folder

def lookup (folder : Folder) (names : List String) : Option Entry :=
  if names.isPrefixOf folder.home then some .directory else folder.entries.lookup names

/-- Follows names from a place; the last of them need not be there. -/
def follow (folder : Folder) (place : List String) :
    List String → Except FileError (List String × Option Entry)
  | [] => .ok (place, folder.lookup place)
  | name :: names =>
    match folder.lookup place with
    | none => .error .missing
    | some (.file _) => .error .notDirectory
    | some .directory =>
      if name = ".." then folder.follow place.dropLast names
      else if FileError.nameLimit < name.utf8ByteSize then .error .tooLong
      else folder.follow (place ++ [name]) names

def locate (folder : Folder) (path : Path) : Except FileError (List String × Option Entry) :=
  match FileError.ofPath? path with
  | some e => .error e
  | none => folder.follow (if path.isAbsolute then [] else folder.home) path.parts

def kind? (folder : Folder) (path : Path) : Except FileError (Option FileKind) :=
  match folder.locate path with
  | .ok (_, some (.file _)) => .ok (some .file)
  | .ok (_, some .directory) => .ok (some .directory)
  | .ok (_, none) => .ok none
  | .error .tooLong => .error .tooLong
  | .error _ => .ok none

def read (folder : Folder) (path : Path) : Except FileError (List UInt8) := do
  match ← folder.locate path with
  | (_, some (.file bytes)) => return bytes
  | (_, some .directory) => .error .isDirectory
  | (_, none) => .error .missing

def put (names : List String) (entry : Entry) (folder : Folder) : Folder :=
  { folder with entries := Association.put names entry folder.entries }

/-- What was stored is found again, away from the directories that are always there. -/
theorem lookup_put_self (names : List String) (entry : Entry) (folder : Folder)
    (h : names.isPrefixOf folder.home = false) :
    (folder.put names entry).lookup names = some entry := by
  simp [put, lookup, h]

def write (folder : Folder) (path : Path) (bytes : List UInt8) : Except FileError Folder := do
  match ← folder.locate path with
  | (_, some .directory) => .error .isDirectory
  | (names, _) => return folder.put names (.file bytes)

def makeDirectory (folder : Folder) (path : Path) : Except FileError Folder := do
  match ← folder.locate path with
  | (_, some _) => .error .present
  | (names, none) => return folder.put names .directory

def addBelow (entry : Entry) (folder : Folder) (path : Path) : Folder :=
  let ways := (List.range path.parts.length).map (path.parts.take ·)
  let folder := ways.foldl (fun f names => f.put (f.home ++ names) .directory) folder
  folder.put (folder.home ++ path.parts) entry

def update (change : Folder → Except FileError Folder) : StateM Folder (Except FileError Unit) := do
  match change (← get) with
  | .ok folder => set folder; return .ok ()
  | .error e => return .error e

instance : Files (StateM Folder) where
  home := do return ⟨"/", (← get).home⟩
  kind? path := do return (← get).kind? path
  read path := do return (← get).read path
  write path bytes := update (·.write path bytes)
  makeDirectory path := update (·.makeDirectory path)

/-- The files that a folder holds below its working directory, by their paths, where another folder
has not the same. -/
def changedSince (folder old : Folder) : List (Path × List UInt8) :=
  folder.entries.filterMap fun (names, entry) =>
    match entry with
    | .file bytes =>
      if old.entries.lookup names = some (.file bytes) then none
      else some (⟨"", names.drop folder.home.length⟩, bytes)
    | .directory => none

end Folder

end TypedLua
