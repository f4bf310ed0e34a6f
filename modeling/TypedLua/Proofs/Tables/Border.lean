import TypedLua.Proofs.Data.Association
import TypedLua.Table
import Mathlib.Data.List.Perm.Subperm

/-!
# The border of a table

The border is the number of integer keys in a row from one on.
-/

namespace TypedLua.Table

variable {t : Table} {n : Nat}

def HasFirst (t : Table) (n : Nat) : Prop := ∀ i < n, (t.entries.lookup (.int (i + 1))).isSome

theorem HasFirst.succ (h : t.HasFirst n) (hn : (t.entries.lookup (.int (n + 1))).isSome) : t.HasFirst (n + 1) := by
  intro i hi
  rcases Nat.lt_succ_iff_lt_or_eq.1 hi with hlt | rfl
  · exact h i hlt
  · exact hn

theorem HasFirst.le_length (h : t.HasFirst n) : n ≤ t.entries.length := by
  have hkeys : (List.range n).map (fun i : Nat => Key.int (i + 1)) ⊆ t.entries.map (·.1) := by
    intro k hk
    obtain ⟨i, hi, rfl⟩ := List.mem_map.1 hk
    obtain ⟨v, hv⟩ := Option.isSome_iff_exists.1 (h i (List.mem_range.1 hi))
    exact List.mem_map_of_mem (f := (·.1)) (Association.mem_of_lookup hv)
  have hnodup : ((List.range n).map (fun i : Nat => Key.int (i + 1))).Nodup := by
    refine List.Nodup.map ?_ List.nodup_range
    intro i j hij
    simp only [Key.int.injEq] at hij
    omega
  simpa using (hnodup.subperm hkeys).length_le

theorem borderFrom_spec (trials n : Nat) (h : t.HasFirst n) : t.HasFirst (t.borderFrom trials n) ∧
    (t.entries.lookup (.int (t.borderFrom trials n + 1)) = none ∨ t.borderFrom trials n = n + trials) := by
  induction trials generalizing n with
  | zero => exact ⟨h, .inr rfl⟩
  | succ trials ih =>
    rw [borderFrom]
    split
    · next hsome =>
      rw [Nat.add_comm trials, ← Nat.add_assoc]
      exact ih (n + 1) (h.succ hsome)
    · next hnone => exact ⟨h, .inl (Option.not_isSome_iff_eq_none.1 hnone)⟩

theorem hasFirst_border : t.HasFirst t.border := (borderFrom_spec _ 0 fun _ hi => absurd hi (Nat.not_lt_zero _)).1

theorem lookup_behind_border : t.entries.lookup (.int (t.border + 1)) = none := by
  rcases (borderFrom_spec (t := t) t.entries.length 0 fun _ hi => absurd hi (Nat.not_lt_zero _)).2 with h | h
  · exact h
  · rw [← Option.not_isSome_iff_eq_none]
    intro hsome
    have hle := (hasFirst_border.succ hsome).le_length
    have hborder : t.border = t.entries.length := h.trans (Nat.zero_add _)
    omega

theorem border_eq (hmissing : t.entries.lookup (.int (n + 1)) = none) (hpresent : t.HasFirst n) : t.border = n := by
  rcases Nat.lt_trichotomy t.border n with hlt | heq | hgt
  · simpa [lookup_behind_border] using hpresent _ hlt
  · exact heq
  · simpa [hmissing] using hasFirst_border _ hgt

theorem item_mem_entries (hi : i < t.border) : (.int (i + 1), t.find (.int (i + 1))) ∈ t.entries := by
  obtain ⟨v, hv⟩ := Option.isSome_iff_exists.1 (hasFirst_border i hi)
  rw [find, hv]
  exact Association.mem_of_lookup hv

theorem length_sequence : t.sequence.length = t.border := by simp [sequence]

theorem sequence_getElem? (t : Table) (i : Nat) :
    t.sequence[i]? = if i < t.border then some (t.find (.int (i + 1))) else none := by
  rw [sequence, List.getElem?_map]
  by_cases hi : i < t.border <;> simp [hi]

theorem getElem?_sequence : t.sequence[i]? = some v ↔ i < t.border ∧ t.get (.int (i + 1)) = v := by
  have hget : t.get (.int (i + 1)) = t.find (.int (i + 1)) := rfl
  rw [sequence_getElem?, hget]
  by_cases hi : i < t.border <;> simp [hi]

/-- A table whose values under one to a number were replaced by those of a list, with nothing behind the end of the
list, and that is otherwise the same. -/
structure Rewritten (t t' : Table) (n : Nat) (vs : List Value) : Prop where
  items : ∀ i < n, t'.find (.int (i + 1 : Nat)) = vs.getD i .nil
  others : ∀ k, (∀ i < n, k ≠ .int (i + 1 : Nat)) → t'.find k = t.find k
  metatable : t'.metatable = t.metatable

theorem update_metatable (t : Table) (k : Key) (v : Value) : (t.update k v).metatable = t.metatable := by
  unfold update
  split <;> rfl

end TypedLua.Table
