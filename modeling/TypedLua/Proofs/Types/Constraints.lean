import TypedLua.Proofs.Types.Evaluation

/-!
# What a shape asks of a table

A shape is any table of predicates.
-/

namespace TypedLua

namespace Table

variable {t : Table}

theorem forall_mem_sequence {P : Value → Prop} :
    (∀ v ∈ t.sequence, P v) ↔ ∀ i < t.border, P (t.get (.int (i + 1))) := by
  simp only [List.mem_iff_getElem?, getElem?_sequence]
  refine ⟨fun h i hi => h _ ⟨i, hi, rfl⟩, fun h => ?_⟩
  rintro _ ⟨i, hi, rfl⟩
  exact h i hi

end Table

namespace Library

variable {I : Store → Prop} {accepts : Value → Value → Prop} {shape t : Table}

def IsItem (border : Nat) (k : Key) : Prop := ∃ i : Nat, 1 ≤ i ∧ i ≤ border ∧ k = .int i

structure Meets (accepts : Value → Value → Prop) (shape t : Table) : Prop where
  /-- The fields under the keys of the shape that name no item have their types; but nothing is asked of
  the field under `true` if there are items. -/
  fields : ∀ e ∈ shape.entries, ¬ IsItem shape.border e.1 → (e.1 = .bool true → shape.border = 0) →
    accepts e.2 (t.get e.1.toValue)
  each : shape.border = 1 → ∀ i : Nat, 1 ≤ i → i ≤ t.border → accepts (shape.get (.int 1)) (t.get (.int i))
  items : shape.border ≠ 1 → ∀ i : Nat, 1 ≤ i → i ≤ shape.border → accepts (shape.get (.int i)) (t.get (.int i))

theorem isItemKey_iff : isItemKey border k = false ↔ ¬ IsItem border k ∧ (k = .bool true → border = 0) := by
  cases k with
  | int n =>
    simp only [isItemKey, IsItem, Key.int.injEq, reduceCtorEq, false_implies, and_true, not_exists]
    constructor
    · intro h i hi
      simp only [Bool.and_eq_false_iff, decide_eq_false_iff_not] at h
      omega
    · intro h
      have := h n.toNat
      simp only [Bool.and_eq_false_iff, decide_eq_false_iff_not]
      omega
  | bool b => cases b <;> simp [isItemKey, IsItem]
  | _ => simp [isItemKey, IsItem]

theorem mem_fields_iff : e ∈ shape.fields ↔
    e ∈ shape.entries ∧ ¬ IsItem shape.border e.1 ∧ (e.1 = .bool true → shape.border = 0) := by
  rw [Table.fields, List.mem_filter, Bool.not_eq_true', isItemKey_iff, Table.length_sequence]

theorem forall_item_iff {P : Nat → Prop} : (∀ i, 1 ≤ i → i ≤ n → P i) ↔ ∀ i < n, P (i + 1) := by
  refine ⟨fun h i hi => h (i + 1) (by omega) hi, fun h i hi hle => ?_⟩
  obtain ⟨j, rfl⟩ : ∃ j, i = j + 1 := ⟨i - 1, by omega⟩
  exact h j hle

theorem meetInTurn_iff : MeetInTurn accepts t position types ↔
      ∀ (i : Nat) type, types[i]? = some type → accepts type (t.get (.int (position + i))) := by
  induction types generalizing position with
  | nil => simp [MeetInTurn]
  | cons type types ih =>
    have hadd (i : Nat) : position + 1 + (i : Int) = position + (i + 1 : Nat) := by omega
    rw [MeetInTurn, ih]
    refine ⟨fun h i type' htype => ?_, fun h => ⟨by simpa using h 0 type rfl, fun i type' htype => ?_⟩⟩
    · cases i with
      | zero =>
        obtain rfl := Option.some.inj htype
        simpa using h.1
      | succ i => exact hadd i ▸ h.2 i type' htype
    · exact hadd i ▸ h (i + 1) type' htype

theorem meetItems_iff : MeetItems accepts t shape.sequence ↔ (shape.border = 1 → ∀ i : Nat, 1 ≤ i → i ≤ t.border →
        accepts (shape.get (.int 1)) (t.get (.int i))) ∧
      (shape.border ≠ 1 → ∀ i : Nat, 1 ≤ i → i ≤ shape.border → accepts (shape.get (.int i)) (t.get (.int i))) := by
  simp only [forall_item_iff]
  by_cases hone : shape.border = 1
  · have hseq : shape.sequence = [shape.get (.int 1)] := by
      rw [Table.sequence, hone]
      rfl
    rw [hseq]
    exact Table.forall_mem_sequence.trans ⟨fun h => ⟨fun _ => h, fun hne => absurd hone hne⟩, fun h => h.1 hone⟩
  · rw [meetItems_of_ne (by rwa [Table.length_sequence]), meetInTurn_iff]
    simp only [Table.getElem?_sequence, and_imp, Int.add_comm 1]
    exact ⟨fun h => ⟨fun heq => absurd heq hone, fun _ i hi => h i _ hi rfl⟩,
      fun h i type hi heq => heq ▸ h.2 hone i hi⟩

theorem shape_settles {id : Nat} {conforms : Value → Value → Run Bool} (ht : ∀ s, I s → s.tables.getD id {} = t)
    (h : ∀ e ∈ shape.entries, ∀ v, Settles I (conforms e.2 v) (accepts e.2 v)) :
    Settles I (passes conforms (.shape shape.sequence shape.fields) (.table id)) (Meets accepts shape t) := by
  refine (passes_settles ht (fun e he => h e (List.mem_filter.1 he).1) fun type htype => ?_).congr ?_
  · obtain ⟨i, hi⟩ := List.mem_iff_getElem?.1 htype
    obtain ⟨hlt, rfl⟩ := Table.getElem?_sequence.1 hi
    exact h _ (Table.item_mem_entries hlt)
  · simp only [mem_fields_iff, and_imp, meetItems_iff]
    exact ⟨fun hmeets => ⟨hmeets.1, hmeets.2.1, hmeets.2.2⟩, fun hmeets => ⟨hmeets.1, hmeets.2, hmeets.3⟩⟩

/-- Stores that have some predicates and in which some types accept given values, whatever a check of
them does: it leads to a store of the same kind. -/
structure Decided (call : Caller) (predicates : Array Predicate) (types : List Value)
    (accepts : Value → Value → Prop) (I : Store → Prop) : Prop where
  grown : ∀ s, I s → predicates.toList <+: s.predicates.toList
  settles : ∀ type ∈ types, ∀ n ≥ predicates.size, ∀ v, Settles I (conformsWithin call n type v) (accepts type v)

/-- Every table of predicates whose keys can be written makes a type. It accepts the tables that have what
the shape asks for, whatever its predicates do, as long as the table that is checked stays as it is. -/
theorem shape_constrains (call : Caller) {s : Store} {id : Nat} (hshape : s.tables.getD id {} = shape)
    (hkeys : ∀ e ∈ shape.entries, ¬ IsItem shape.border e.1 → e.1.toValue.isWritable = true) :
    ∃ type p, shapeType (.table id) s = .ok type { s with predicates := s.predicates.push p } ∧
      ∀ I accepts v t, Decided call (s.predicates.push p) (shape.entries.map (·.2)) accepts I →
        (∀ id', v = .table id' → ∀ s₁, I s₁ → s₁.tables.getD id' {} = t) →
        Settles I (conforms call type v) ((∃ id', v = .table id') ∧ Meets accepts shape t) := by
  obtain ⟨d, hmake⟩ := Machine.shapeType_run hshape fun e he =>
    hkeys e (mem_fields_iff.1 he).1 (mem_fields_iff.1 he).2.1
  refine ⟨_, _, hmake, fun I accepts v t hdecided ht s₁ hs₁ => ?_⟩
  have hgrown := hdecided.grown s₁ hs₁
  have hsize := size_le_of_isPrefix hgrown
  have hp := (getD_of_isPrefix hgrown (by simp)).trans (getD_push _)
  show ∃ b s₂, conformsWithin call (s₁.predicates.size + 1) _ v s₁ = .ok b s₂ ∧ _
  rw [conformsWithin_predicate call v hp]
  cases v with
  | table id' =>
    obtain ⟨b, s₂, hrun, hs₂, hb⟩ := shape_settles (ht id' rfl) (fun e he v =>
      hdecided.settles e.2 (List.mem_map_of_mem he) _ hsize v) s₁ hs₁
    exact ⟨b, s₂, hrun, hs₂, by simpa using hb⟩
  | _ => exact ⟨false, s₁, rfl, hs₁, by simp⟩

/-- The shape `{number, [true] = number, x = number}`, where the predicate of numbers is the first one. -/
def pointShape : Table := { entries := [(.int 1, .function (.predicate 0)), (.bool true, .function (.predicate 0)),
      (.string "x", .function (.predicate 0))] }

def point : Table := { entries := [(.int 1, .int 5), (.string "x", .int 6)] }

def pointStore : Store := { tables := #[pointShape, point], predicates := #[⟨"number", .number⟩] }

/-- The type of the shape accepts the table, though there is no field under `true`. -/
theorem shape_constrains_point : ∃ type p, shapeType (.table 0) pointStore =
        .ok type { pointStore with predicates := pointStore.predicates.push p } ∧
      Settles (· = { pointStore with predicates := pointStore.predicates.push p })
        (conforms (fun _ _ => Run.exhausted) type (.table 1))
        ((∃ id, Value.table 1 = .table id) ∧ Meets (fun _ v => ∃ n, v = .number n) pointShape point) ∧
      Meets (fun _ v => ∃ n, v = .number n) pointShape point := by
  have hkeys : ∀ e ∈ pointShape.entries, ¬ IsItem pointShape.border e.1 → e.1.toValue.isWritable = true := by
    simp only [pointShape, List.forall_mem_cons]
    exact ⟨fun h => absurd ⟨1, by decide, by decide, rfl⟩ h, fun _ => rfl, fun _ => rfl, by simp⟩
  obtain ⟨type, p, hrun, h⟩ := shape_constrains (fun _ _ => Run.exhausted)
    (show pointStore.tables.getD 0 {} = pointShape from rfl) hkeys
  refine ⟨type, p, hrun, h _ _ _ point ⟨?_, ?_⟩ ?_, ?_, fun _ i hi hle => ?_, fun hne => absurd rfl hne⟩
  · rintro s rfl
    exact List.prefix_rfl
  · rintro type' htype n hn v s rfl
    obtain rfl : type' = .function (.predicate 0) := by simpa [pointShape] using htype
    obtain ⟨k, rfl⟩ : ∃ k, n = k + 1 := ⟨n - 1, by simp at hn; omega⟩
    cases v with
    | number m => exact ⟨true, _, rfl, rfl, by simp⟩
    | _ => exact ⟨false, _, rfl, rfl, by simp⟩
  · rintro _ heq s rfl
    cases heq
    rfl
  · simp only [pointShape, List.forall_mem_cons]
    exact ⟨fun h => absurd ⟨1, by decide, by decide, rfl⟩ h, fun _ htrue => absurd (htrue trivial) (by decide),
      fun _ _ => ⟨.int 6, rfl⟩, by simp⟩
  · obtain rfl : i = 1 := Nat.le_antisymm hle hi
    exact ⟨.int 5, rfl⟩

end Library

end TypedLua
