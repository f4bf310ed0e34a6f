import TypedLua.Library

/-!
# Coupled runs

Two runs side by side.
-/

namespace TypedLua

structure Heap where
  tables : Array Table
  traversals : Array Traversal
  predicates : Array Predicate
  stringMembers : Option Nat
  output : List (Nat × String)

namespace Store

def heap (s : Store) : Heap := ⟨s.tables, s.traversals, s.predicates, s.stringMembers, s.output⟩

def withHeap (s : Store) (h : Heap) : Store := { s with
    tables := h.tables, traversals := h.traversals, predicates := h.predicates
    stringMembers := h.stringMembers, output := h.output }

end Store

structure Coupling where
  World : Type
  le : World → World → Prop
  le_refl : ∀ w, le w w
  le_trans : ∀ {u v w}, le u v → le v w → le u w
  Rel : World → Store → Store → Prop
  heap_eq : ∀ {w s1 s2}, Rel w s1 s2 → s1.heap = s2.heap
  withHeap : ∀ {w s1 s2} (h : Heap), Rel w s1 s2 → Rel w (s1.withHeap h) (s2.withHeap h)

namespace Coupling

variable (C : Coupling)

/-- Two outcomes agree: the same value or the same fault, in stores that are related later on. -/
inductive Agree (w : C.World) {α : Type} :
    EStateM.Result Stop Store α → EStateM.Result Stop Store α → Prop
  | ok {w' a s1 s2} (hle : C.le w w') (hrel : C.Rel w' s1 s2) : Agree w (.ok a s1) (.ok a s2)
  | fault {w' f s1 s2} (hle : C.le w w') (hrel : C.Rel w' s1 s2) :
      Agree w (.error (.fault f) s1) (.error (.fault f) s2)
  | spent {s1 o} : Agree w (.error .outOfFuel s1) o

/-- Two computations agree from related stores on, in a world and in all later ones. -/
def Coupled (w : C.World) {α : Type} (p1 p2 : Run α) : Prop :=
  ∀ ⦃w' s1 s2⦄, C.le w w' → C.Rel w' s1 s2 → C.Agree w' (p1 s1) (p2 s2)

/-- Two runs of one computation agree. -/
abbrev Steady (w : C.World) {α : Type} (p : Run α) : Prop := C.Coupled w p p

variable {C} {w : C.World} {α β : Type}

theorem Agree.later (hle : C.le w w') (h : C.Agree w' o1 o2) : C.Agree w o1 o2 := by
  cases h with
  | ok hle' hrel => exact .ok (C.le_trans hle hle') hrel
  | fault hle' hrel => exact .fault (C.le_trans hle hle') hrel
  | spent => exact .spent

theorem Coupled.mono (hle : C.le w w') (h : C.Coupled w p1 p2) : C.Coupled w' p1 p2 :=
  fun _ _ _ hle' hrel => h (C.le_trans hle hle') hrel

/-! ## Values, faults and sequences -/

theorem Coupled.pure (a : α) : C.Coupled w (pure a) (pure a) := fun _ _ _ _ hrel => .ok (C.le_refl _) hrel

theorem Coupled.fail (f : Fault) : C.Coupled w (Run.fail f : Run α) (Run.fail f) :=
  fun _ _ _ _ hrel => .fault (C.le_refl _) hrel

theorem Coupled.complain (c : Complaint) : C.Coupled w (Run.complain c : Run α) (Run.complain c) := .fail _

theorem Coupled.trap (t : Trap) : C.Coupled w (Run.trap t : Run α) (Run.trap t) := .fail _

theorem Coupled.exhausted (p : Run α) : C.Coupled w Run.exhausted p := fun _ _ _ _ _ => .spent

theorem Coupled.lift (e : Except Fault α) : C.Coupled w (Run.lift e) (Run.lift e) := by
  cases e with
  | ok a => exact .pure a
  | error f => exact .fail f

/-- Two computations agree, and the value of the first one has a property. -/
structure Yields (C : Coupling) (w : C.World) (P : α → Prop) (p1 p2 : Run α) : Prop where
  coupled : C.Coupled w p1 p2
  value : ∀ ⦃w' s1 s2 a t⦄, C.le w w' → C.Rel w' s1 s2 → p1 s1 = .ok a t → P a

theorem yields_pure {P : α → Prop} {a : α} (ha : P a) : C.Yields w P (pure a) (pure a) :=
  ⟨Coupled.pure a, fun _ _ _ _ _ _ _ h => by cases h; exact ha⟩

theorem yields_exhausted {P : α → Prop} (p : Run α) : C.Yields w P Run.exhausted p :=
  ⟨Coupled.exhausted p, fun _ _ _ _ _ _ _ h => by cases h⟩

theorem Coupled.yields (h : C.Coupled w p1 p2) : C.Yields w (fun _ => True) p1 p2 :=
  ⟨h, fun _ _ _ _ _ _ _ _ => trivial⟩

theorem Yields.imp {P Q : α → Prop} (h : C.Yields w P p1 p2) (hPQ : ∀ {a}, P a → Q a) : C.Yields w Q p1 p2 :=
  ⟨h.coupled, fun _ _ _ _ _ hle hrel ha => hPQ (h.value hle hrel ha)⟩

theorem yields_bind {P : α → Prop} {Q : β → Prop} {k1 k2 : α → Run β}
    (h : C.Yields w P p1 p2) (hk : ∀ a, P a → C.Yields w Q (k1 a) (k2 a)) : C.Yields w Q (p1 >>= k1) (p2 >>= k2) := by
  have hboth {w' s1 s2} (hle : C.le w w') (hrel : C.Rel w' s1 s2) :
      C.Agree w' (EStateM.bind p1 k1 s1) (EStateM.bind p2 k2 s2) ∧ ∀ b t, EStateM.bind p1 k1 s1 = .ok b t → Q b := by
    have hp := h.coupled hle hrel
    have hval (a : α) (t : Store) (ha : p1 s1 = .ok a t) : P a := h.value hle hrel ha
    unfold EStateM.bind
    generalize p1 s1 = o1 at hp hval
    generalize p2 s2 = o2 at hp
    cases hp with
    | ok hle' hrel' =>
      have hgo := hk _ (hval _ _ rfl)
      have hle'' := C.le_trans hle hle'
      exact ⟨(hgo.coupled hle'' hrel').later hle', fun _ _ => hgo.value hle'' hrel'⟩
    | fault hle' hrel' => exact ⟨.fault hle' hrel', fun _ _ hb => by cases hb⟩
    | spent => exact ⟨.spent, fun _ _ hb => by cases hb⟩
  exact ⟨fun _ _ _ hle hrel => (hboth hle hrel).1, fun _ _ _ _ _ hle hrel => (hboth hle hrel).2 _ _⟩

theorem yields_ite {P : α → Prop} {c : Prop} [Decidable c] (hp : C.Yields w P p1 p2) (hq : C.Yields w P q1 q2) :
    C.Yields w P (if c then p1 else q1) (if c then p2 else q2) := by
  split
  · exact hp
  · exact hq

theorem Coupled.bind {p1 p2 : Run α} {k1 k2 : α → Run β} (h : C.Coupled w p1 p2)
    (hk : ∀ a, C.Coupled w (k1 a) (k2 a)) : C.Coupled w (p1 >>= k1) (p2 >>= k2) :=
  (yields_bind h.yields fun a _ => (hk a).yields).coupled

theorem Coupled.map {f : α → β} (h : C.Coupled w p1 p2) :
    C.Coupled w (p1 >>= fun a => Pure.pure (f a)) (p2 >>= fun a => Pure.pure (f a)) :=
  .bind h fun _ => .pure _

theorem Coupled.ite {c : Prop} [Decidable c] (hp : C.Coupled w p1 p2) (hq : C.Coupled w q1 q2) :
    C.Coupled w (if c then p1 else q1) (if c then p2 else q2) :=
  (yields_ite hp.yields hq.yields).coupled

theorem Coupled.attempt {k1 k2 : Except Fault α → Run β} (h : C.Coupled w p1 p2)
    (hk : ∀ r, C.Coupled w (k1 r) (k2 r)) : C.Coupled w (Run.attempt p1 >>= k1) (Run.attempt p2 >>= k2) := by
  intro w' s1 s2 hle hrel
  have hp := h hle hrel
  show C.Agree w' (EStateM.bind (Run.attempt p1) k1 s1) (EStateM.bind (Run.attempt p2) k2 s2)
  unfold EStateM.bind Run.attempt
  generalize p1 s1 = o1 at hp
  generalize p2 s2 = o2 at hp
  cases hp with
  | ok hle' hrel' => exact ((hk _) (C.le_trans hle hle') hrel').later hle'
  | fault hle' hrel' => exact ((hk _) (C.le_trans hle hle') hrel').later hle'
  | spent => exact .spent

/-! ## The heap -/

theorem Coupled.heap (value : Heap → α) (update : Heap → Heap)
    (hp : ∀ s, p s = .ok (value s.heap) (s.withHeap (update s.heap))) : C.Coupled w p p := by
  intro w' s1 s2 _ hrel
  rw [hp, hp, C.heap_eq hrel]
  exact .ok (C.le_refl _) (C.withHeap _ hrel)

theorem Coupled.get {k1 k2 : Store → Run α} (hk : ∀ s1 s2, s1.heap = s2.heap → C.Coupled w (k1 s1) (k2 s2)) :
    C.Coupled w (get >>= k1) (get >>= k2) :=
  fun _ s1 s2 hle hrel => hk s1 s2 (C.heap_eq hrel) hle hrel

theorem Coupled.table (id : Nat) : C.Coupled w (Run.table id) (Run.table id) :=
  .heap (fun h => h.tables.getD id {}) (fun h => h) fun _ => rfl

theorem Coupled.putTable (id : Nat) (t : Table) : C.Coupled w (Run.putTable id t) (Run.putTable id t) :=
  .heap (fun _ => ()) (fun h => { h with tables := h.tables.setIfInBounds id t }) fun _ => rfl

theorem Coupled.newTable (t : Table) : C.Coupled w (Run.newTable t) (Run.newTable t) :=
  .heap (fun h => h.tables.size) (fun h => { h with tables := h.tables.push t }) fun _ => rfl

theorem Coupled.predicate (id : Nat) : C.Coupled w (Run.predicate id) (Run.predicate id) :=
  .heap (fun h => h.predicates.getD id default) (fun h => h) fun _ => rfl

theorem Coupled.newPredicate (p : Predicate) : C.Coupled w (Run.newPredicate p) (Run.newPredicate p) :=
  .heap (fun h => .function (.predicate h.predicates.size))
    (fun h => { h with predicates := h.predicates.push p }) fun _ => rfl

theorem Coupled.traversal (id : Nat) : C.Coupled w (Run.traversal id) (Run.traversal id) :=
  .heap (fun h => h.traversals.getD id default) (fun h => h) fun _ => rfl

theorem Coupled.newTraversal (c : Traversal) : C.Coupled w (Run.newTraversal c) (Run.newTraversal c) :=
  .heap (fun h => .function (.traversal h.traversals.size))
    (fun h => { h with traversals := h.traversals.push c }) fun _ => rfl

theorem Coupled.putTraversal (id : Nat) (c : Traversal) :
    C.Coupled w (Run.putTraversal id c) (Run.putTraversal id c) :=
  .heap (fun _ => ()) (fun h => { h with traversals := h.traversals.setIfInBounds id c }) fun _ => rfl

theorem Coupled.emit (channel : Nat) (text : String) : C.Coupled w (Run.emit channel text) (Run.emit channel text) :=
  .heap (fun _ => ()) (fun h => { h with output := (channel, text) :: h.output }) fun _ => rfl

theorem Coupled.getRaw (id : Nat) (key : Value) : C.Coupled w (Run.getRaw id key) (Run.getRaw id key) :=
  .bind (.table id) fun _ => .pure _

theorem Coupled.setRaw (id : Nat) (key v : Value) : C.Coupled w (Run.setRaw id key v) (Run.setRaw id key v) := by
  refine .bind (.table id) fun t => ?_
  split
  · exact .putTable _ _
  · exact .fail _

theorem Coupled.textOf (v : Value) : C.Coupled w (Run.textOf v) (Run.textOf v) := .ite (.pure _) (.trap _)

theorem Coupled.reserve (length : Nat) : C.Coupled w (Run.reserve length) (Run.reserve length) :=
  .ite (.pure _) (.trap _)

theorem Coupled.raise (v : Value) : C.Coupled w (Run.raise v : Run α) (Run.raise v) := .ite (.fail _) (.trap _)

end Coupling

end TypedLua
