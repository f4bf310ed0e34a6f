import TypedLua.Fault
import TypedLua.Predicate
import TypedLua.Target.Bound

/-!
# The store

Everything that a program can change lives in the store: tables, the frames of running definitions,
the functions made at run time and what has been printed.
-/

namespace TypedLua

/-- What a definition sees: the table of globals, the extra arguments, and the frames of the
enclosing definitions, innermost first. -/
structure Env where
  globals : Nat
  varargs : List Value
  frames : List Nat
  deriving Repr, DecidableEq, Inhabited

/-- A function made at run time: its definition, the variables that the definition owns besides its
parameters, and what it sees. -/
structure Closure where
  code : Target.Def
  own : List String
  env : Env

def Closure.make (code : Target.Def) (env : Env) : Closure :=
  ⟨code, code.own, env⟩

instance : Inhabited Closure := ⟨.mk "" [] .none [] [], [], default⟩

inductive Flow where
  | next
  | leave
  | result (r : Result)
  deriving Repr, DecidableEq, Inhabited

inductive Slot where
  | unset
  | value (v : Value)
  | iteration (c : Closure)
  | flow (f : Flow)
  deriving Inhabited

abbrev Frame := List (String × Slot)

structure Traversal where
  table : Nat
  keys : List Key
  deriving Repr, DecidableEq, Inhabited

structure Store where
  tables : Array Table := #[]
  frames : Array Frame := #[]
  closures : Array Closure := #[]
  traversals : Array Traversal := #[]
  predicates : Array Predicate := #[]
  stringMembers : Option Nat := none
  output : List (Nat × String) := []
  deriving Inhabited

inductive Stop where
  | fault (f : Fault)
  | outOfFuel
  deriving Repr, DecidableEq

abbrev Run := EStateM Stop Store

namespace Run

theorem bind_ok {α β : Type} {p : Run α} {f : α → Run β} {s s' : Store} {a : α}
    (h : p s = .ok a s') : (p >>= f) s = f a s' := by
  show EStateM.bind p f s = _
  rw [EStateM.bind, h]

theorem bind_error {α β : Type} {p : Run α} {f : α → Run β} {s s' : Store} {e : Stop}
    (h : p s = .error e s') : (p >>= f) s = .error e s' := by
  show EStateM.bind p f s = _
  rw [EStateM.bind, h]

theorem bind_eq_ok {α β : Type} {p : Run α} {f : α → Run β} {s s' : Store} {b : β}
    (h : (p >>= f) s = .ok b s') : ∃ a s1, p s = .ok a s1 ∧ f a s1 = .ok b s' := by
  cases hp : p s with
  | ok a s1 => exact ⟨a, s1, rfl, (bind_ok hp).symm.trans h⟩
  | error e s1 =>
    rw [bind_error hp] at h
    cases h

def fail {α : Type} (f : Fault) : Run α :=
  throw (.fault f)

def complain {α : Type} (c : Complaint) : Run α :=
  fail (.complaint c)

def trap {α : Type} (t : Trap) : Run α :=
  fail (.trap t)

def textOf (v : Value) : Run String :=
  if v.isWritable then return v.text else trap .unwritable

def memoryLimit : Nat := Nat.pow 2 40

def reserve (length : Nat) : Run Unit :=
  if length < memoryLimit then return () else trap .memory

def raise {α : Type} (v : Value) : Run α :=
  if v.isWritable then fail (.raised v) else trap .unwritable

def exhausted {α : Type} : Run α :=
  throw .outOfFuel

def lift {α : Type} : Except Fault α → Run α
  | .ok a => pure a
  | .error f => fail f

def attempt {α : Type} (c : Run α) : Run (Except Fault α) :=
  fun s =>
    match c s with
    | .ok a s => .ok (.ok a) s
    | .error (.fault f) s => .ok (.error f) s
    | .error .outOfFuel s => .error .outOfFuel s

/-! ## Tables -/

def table (id : Nat) : Run Table :=
  fun s => .ok (s.tables.getD id {}) s

def putTable (id : Nat) (t : Table) : Run Unit :=
  modify fun s => { s with tables := s.tables.setIfInBounds id t }

def newTable (t : Table) : Run Nat :=
  fun s => .ok s.tables.size { s with tables := s.tables.push t }

def getRaw (id : Nat) (key : Value) : Run Value := do
  return (← table id).get key

theorem getRaw_run (id : Nat) (key : Value) (s : Store) :
    getRaw id key s = .ok ((s.tables.getD id {}).get key) s := rfl

def setRaw (id : Nat) (key v : Value) : Run Unit := do
  match (← table id).set key v with
  | .ok t => putTable id t
  | .error e => fail e.toFault

/-! ## Functions -/

def closure (id : Nat) : Run Closure :=
  fun s => .ok (s.closures.getD id default) s

def newClosure (c : Closure) : Run Nat :=
  fun s => .ok s.closures.size { s with closures := s.closures.push c }

def predicate (id : Nat) : Run Predicate :=
  fun s => .ok (s.predicates.getD id default) s

def newPredicate (p : Predicate) : Run Value :=
  fun s =>
    .ok (.function (.predicate s.predicates.size)) { s with predicates := s.predicates.push p }

def newTraversal (c : Traversal) : Run Value :=
  fun s => .ok (.function (.traversal s.traversals.size)) { s with traversals := s.traversals.push c }

def traversal (id : Nat) : Run Traversal :=
  fun s => .ok (s.traversals.getD id default) s

def putTraversal (id : Nat) (c : Traversal) : Run Unit :=
  modify fun s => { s with traversals := s.traversals.setIfInBounds id c }

/-! ## Variables -/

def newFrame (f : Frame) : Run Nat :=
  fun s => .ok s.frames.size { s with frames := s.frames.push f }

def slot? (id : Nat) (x : String) : Run (Option Slot) :=
  fun s => .ok ((s.frames.getD id []).lookup x) s

def putSlot (id : Nat) (x : String) (content : Slot) : Run Unit :=
  modify fun s => { s with frames := s.frames.modify id (Association.put x content) }

/-! ## Output -/

def emit (channel : Nat) (text : String) : Run Unit :=
  modify fun s => { s with output := (channel, text) :: s.output }

end Run

def Store.printed (s : Store) (channel : Nat) : String :=
  "".intercalate ((s.output.filter (·.1 == channel)).map (·.2)).reverse

end TypedLua
