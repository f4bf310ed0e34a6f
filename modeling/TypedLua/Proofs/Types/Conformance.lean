import TypedLua.Proofs.Types.Denotation

/-!
# Conformance to a shape, part by part

The test of a shape takes the fields of a table one by one and then its items.
-/

namespace TypedLua.Library

/-- In the stores of a set, a computation tells whether something holds, and does not leave the set. -/
def Settles (I : Store → Prop) (p : Run Bool) (P : Prop) : Prop :=
  ∀ s, I s → ∃ b s', p s = .ok b s' ∧ I s' ∧ (b = true ↔ P)

variable {I : Store → Prop} {P Q : Prop} {p q : Run Bool}

theorem Settles.congr (h : Settles I p P) (hPQ : P ↔ Q) : Settles I p Q := by
  intro s hs
  obtain ⟨b, s', hrun, hs', hb⟩ := h s hs
  exact ⟨b, s', hrun, hs', hb.trans hPQ⟩

theorem settles_pure (h : b = true ↔ P) : Settles I (return b) P := fun s hs => ⟨b, s, rfl, hs, h⟩

theorem Settles.and (hp : Settles I p P) (hq : Settles I q Q) :
    Settles I (do if ← p then q else return false) (P ∧ Q) := by
  intro s hs
  obtain ⟨b, s1, hrun, hs1, hb⟩ := hp s hs
  rw [Run.bind_ok hrun]
  cases b with
  | true =>
    obtain ⟨b', s', hrun', hs', hb'⟩ := hq s1 hs1
    exact ⟨b', s', hrun', hs', by simp [← hb, ← hb']⟩
  | false => exact ⟨false, s1, rfl, hs1, by simp [← hb]⟩

def MeetInTurn (accepts : Value → Value → Prop) (t : Table) : Int → List Value → Prop
  | _, [] => True
  | position, type :: types => accepts type (t.get (.int position)) ∧ MeetInTurn accepts t (position + 1) types

def MeetItems (accepts : Value → Value → Prop) (t : Table) : List Value → Prop
  | [type] => ∀ v ∈ t.sequence, accepts type v
  | types => MeetInTurn accepts t 1 types

variable {id : Nat} {t : Table} {conforms : Value → Value → Run Bool} {accepts : Value → Value → Prop}

theorem Settles.getRaw (ht : ∀ s, I s → s.tables.getD id {} = t) {f : Value → Run Bool}
    (h : Settles I (f (t.get key)) P) : Settles I (do f (← Run.getRaw id key)) P := by
  intro s hs
  rw [Run.bind_ok (Run.getRaw_run id key s), ht s hs]
  exact h s hs

theorem fieldsConform_settles (ht : ∀ s, I s → s.tables.getD id {} = t) (entries : List (Key × Value))
    (h : ∀ e ∈ entries, ∀ v, Settles I (conforms e.2 v) (accepts e.2 v)) :
    Settles I (fieldsConform conforms id entries) (∀ e ∈ entries, accepts e.2 (t.get e.1.toValue)) := by
  induction entries with
  | nil => exact settles_pure (by simp)
  | cons e entries ih =>
    rw [List.forall_mem_cons] at h
    exact (Settles.getRaw ht (.and (h.1 _) (ih h.2))).congr List.forall_mem_cons.symm

theorem allConform_settles (h : ∀ v, Settles I (conforms type v) (accepts type v))
    (vs : List Value) : Settles I (allConform conforms type vs) (∀ v ∈ vs, accepts type v) := by
  induction vs with
  | nil => exact settles_pure (by simp)
  | cons v vs ih => exact (Settles.and (h v) ih).congr List.forall_mem_cons.symm

theorem itemsConform_settles (ht : ∀ s, I s → s.tables.getD id {} = t)
    (h : ∀ type ∈ types, ∀ v, Settles I (conforms type v) (accepts type v)) (position : Int) :
    Settles I (itemsConform conforms id position types) (MeetInTurn accepts t position types) := by
  induction types generalizing position with
  | nil => exact settles_pure (by simp [MeetInTurn])
  | cons type types ih =>
    rw [List.forall_mem_cons] at h
    exact Settles.getRaw ht (.and (h.1 _) (ih h.2 (position + 1)))

theorem meetItems_of_ne {types : List Value} (h : types.length ≠ 1) :
    MeetItems accepts t types = MeetInTurn accepts t 1 types := by
  rcases types with _ | ⟨type, _ | ⟨type', types⟩⟩
  · rfl
  · exact absurd rfl h
  · rfl

theorem passes_settles (ht : ∀ s, I s → s.tables.getD id {} = t)
    (hfields : ∀ e ∈ fields, ∀ v, Settles I (conforms e.2 v) (accepts e.2 v))
    (hitems : ∀ type ∈ items, ∀ v, Settles I (conforms type v) (accepts type v)) :
    Settles I (passes conforms (.shape items fields) (.table id))
      ((∀ e ∈ fields, accepts e.2 (t.get e.1.toValue)) ∧ MeetItems accepts t items) := by
  have hkeyed := fieldsConform_settles ht fields hfields
  rcases items with _ | ⟨type, _ | ⟨type', types⟩⟩
  · exact hkeyed.and (itemsConform_settles ht hitems 1)
  · have heach : Settles I (do allConform conforms type (← Run.table id).sequence) (MeetItems accepts t [type]) := by
      intro s hs
      rw [Run.bind_ok (show Run.table id s = .ok t s by rw [Run.table, ht s hs])]
      exact allConform_settles (hitems type List.mem_cons_self) t.sequence s hs
    exact hkeyed.and heach
  · exact hkeyed.and (itemsConform_settles ht hitems 1)

end TypedLua.Library
