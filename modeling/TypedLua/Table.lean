import TypedLua.Association
import TypedLua.Value

/-!
# Tables

A table is an ordered map.
-/

namespace TypedLua

inductive Key where
  | bool (b : Bool)
  | int (n : Int)
  | float (x : Float)
  | string (s : String)
  | table (id : Nat)
  | function (f : Callable)
  deriving Repr, DecidableEq, Inhabited

namespace Key

/-- The key that a value denotes; nil and the undefined number denote none. -/
def ofValue? : Value → Option Key
  | .nil => none
  | .bool b => some (.bool b)
  | .number (.int n) => some (.int n)
  | .number (.float x) =>
    match Binary64.toInt? x with
    | some n => some (.int n)
    | none => if Binary64.isNaN x then none else some (.float x)
  | .string s => some (.string s)
  | .table id => some (.table id)
  | .function f => some (.function f)

def toValue : Key → Value
  | bool b => .bool b
  | int n => .number (.int n)
  | float x => .number (.float x)
  | string s => .string s
  | table id => .table id
  | function f => .function f

end Key

/-- A table: its entries in order, and the table that holds its metamethods. -/
structure Table where
  entries : List (Key × Value) := []
  metatable : Option Nat := none
  deriving Repr, DecidableEq, Inhabited

inductive KeyError where
  | nil | undefined
  deriving Repr, DecidableEq

namespace Table

def find (t : Table) (k : Key) : Value :=
  (t.entries.lookup k).getD .nil

def update (t : Table) (k : Key) (v : Value) : Table :=
  if v.isNil then { t with entries := Association.discard k t.entries }
  else { t with entries := Association.put k v t.entries }

@[simp] theorem find_update_self (t : Table) (k : Key) (v : Value) : (t.update k v).find k = v := by
  cases v <;> simp [update, find, Value.isNil]

/-- A write leaves every other key alone. -/
theorem find_update_of_ne (t : Table) {k other : Key} (h : other ≠ k) (v : Value) :
    (t.update k v).find other = t.find other := by
  cases v <;>
    simp [update, find, Value.isNil, Association.lookup_put_of_ne h,
      Association.lookup_discard_of_ne h]

/-- The value under what a value denotes as a key; nil if there is none. -/
def get (t : Table) (key : Value) : Value :=
  match Key.ofValue? key with
  | some k => t.find k
  | none => .nil

def set (t : Table) (key v : Value) : Except KeyError Table :=
  match Key.ofValue? key with
  | some k => .ok (t.update k v)
  | none => if key.isNil then .error .nil else .error .undefined

def contains (t : Table) (key : Value) : Bool :=
  match Key.ofValue? key with
  | some k => (t.entries.lookup k).isSome
  | none => false

def keys (t : Table) : List Value :=
  t.entries.map (·.1.toValue)

/-- The number of consecutive integer keys from `n + 1` on, within a number of trials. -/
def borderFrom (t : Table) : (trials : Nat) → (n : Nat) → Nat
  | 0, n => n
  | trials + 1, n =>
    if (t.entries.lookup (.int (n + 1))).isSome then borderFrom t trials (n + 1) else n

def border (t : Table) : Nat :=
  borderFrom t t.entries.length 0

def sequence (t : Table) : List Value :=
  (List.range t.border).map fun (i : Nat) => t.find (.int (i + 1))

/-- The entry behind a key among entries, if the key is there: none at the end. -/
def following (k : Key) : List (Key × Value) → Option (Option (Key × Value))
  | [] => none
  | (k', _) :: rest => if k' = k then some rest.head? else following k rest

/-- The entry behind a key, the first one for nil; none at the end. -/
def next (t : Table) (key : Value) : Option (Option (Key × Value)) :=
  if key.isNil then some t.entries.head?
  else match Key.ofValue? key with
    | some k => following k t.entries
    | none => none

def appendFrom (t : Table) (n : Int) : List Value → Table
  | [] => t
  | v :: vs => appendFrom (t.update (.int n) v) (n + 1) vs

def ofList (vs : List Value) : Table :=
  appendFrom {} 1 vs

end Table

end TypedLua
