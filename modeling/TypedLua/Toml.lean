import TypedLua.Association

/-!
# Documents of settings

A settings document is a table of named values in the TOML format.
-/

namespace TypedLua.Toml

inductive Value where
  | text (s : String)
  | flag (b : Bool)
  | integer (n : Int)
  | real (written : String)
  | moment (written : String)
  | array (items : List Value)
  /-- A table, its entries in the order in which their names first appear. -/
  | table (entries : List (String × Value))
  deriving Repr, Inhabited

inductive Origin where
  | implied
  | header
  /-- It lies on the way to an entry of the section with this number. -/
  | dotted (part : Nat)
  deriving Repr, DecidableEq

inductive Node where
  | closed (v : Value)
  | table (origin : Origin) (entries : List (String × Node))
  | tables (earlier : List Value) (entries : List (String × Node))

abbrev Entries := List (String × Node)

mutual

def Node.value : Node → Value
  | .closed v => v
  | .table _ entries => .table (valuesOf entries)
  | .tables earlier entries => .array (earlier ++ [.table (valuesOf entries)])

def valuesOf : List (String × Node) → List (String × Value)
  | [] => []
  | (name, node) :: rest => (name, node.value) :: valuesOf rest

end

namespace Entries

def get? (entries : Entries) (name : String) : Option Node :=
  entries.lookup name

def put (name : String) (node : Node) (entries : Entries) : Entries :=
  Association.put name node entries

/-- Changes the entries of the table that a path of names leads to. -/
def alongHeader (change : Entries → Option Entries) : List String → Entries → Option Entries
  | [], entries => change entries
  | name :: path, entries =>
    match entries.get? name with
    | none => do
      let inner ← alongHeader change path []
      return entries.put name (.table .implied inner)
    | some (.table origin inner) => do
      let inner ← alongHeader change path inner
      return entries.put name (.table origin inner)
    | some (.tables earlier inner) => do
      let inner ← alongHeader change path inner
      return entries.put name (.tables earlier inner)
    | some (.closed _) => none

def alongKey (part : Nat) (change : Entries → Option Entries) :
    List String → Entries → Option Entries
  | [], entries => change entries
  | name :: path, entries => do
    let inner ←
      match entries.get? name with
      | none => some []
      | some (.table .implied inner) => some inner
      | some (.table (.dotted earlier) inner) => if earlier = part then some inner else none
      | some _ => none
    let inner ← alongKey part change path inner
    return entries.put name (.table (.dotted part) inner)

def add (name : String) (v : Value) (entries : Entries) : Option Entries :=
  match entries.get? name with
  | none => some (entries.put name (.closed v))
  | some _ => none

def addKey (part : Nat) (key : List String) (v : Value) (entries : Entries) : Option Entries :=
  alongKey part (add (key.getLastD "") v) key.dropLast entries

def openLast (name : String) (entries : Entries) : Option Entries :=
  match entries.get? name with
  | none => some (entries.put name (.table .header []))
  | some (.table .implied inner) => some (entries.put name (.table .header inner))
  | some _ => none

def openTable (key : List String) (entries : Entries) : Option Entries :=
  alongHeader (openLast (key.getLastD "")) key.dropLast entries

def growLast (name : String) (entries : Entries) : Option Entries :=
  match entries.get? name with
  | none => some (entries.put name (.tables [] []))
  | some (.tables earlier inner) =>
    some (entries.put name (.tables (earlier ++ [.table (valuesOf inner)]) []))
  | some _ => none

def growTables (key : List String) (entries : Entries) : Option Entries :=
  alongHeader (growLast (key.getLastD "")) key.dropLast entries

end Entries

end TypedLua.Toml
