import TypedLua.Annotation.Supply
import TypedLua.Proofs.Scoping.FreshNames
import Mathlib.Data.Nat.Nth

/-!
# The names a supply gives

A supply tries the numbers one after the other, so it gives the names with the free numbers, in
order.
-/

namespace TypedLua.Supply

theorem nameAt_injective (stem : String) (h : nameAt stem m = nameAt stem n) : m = n := by
  have hlist := congrArg String.toList h
  simp only [nameAt, String.toList_append, String.toList_ofList] at hlist
  exact Target.Generate.toDigits_injective (List.append_cancel_left hlist)

theorem search_spec (stem : String) (used : List String) (trials n : Nat) : n ≤ search stem used trials n ∧
    (∀ k, n ≤ k → k < search stem used trials n → nameAt stem k ∈ used) ∧
    (nameAt stem (search stem used trials n) ∉ used ∨ search stem used trials n = n + trials) := by
  induction trials generalizing n with
  | zero => exact ⟨Nat.le_refl n, fun k hk hk' => absurd hk' (Nat.not_lt.2 hk), .inr rfl⟩
  | succ trials ih =>
    rw [search]
    split
    · next h =>
      obtain ⟨hle, hskipped, hend⟩ := ih (n + 1)
      refine ⟨by omega, fun k hk hk' => ?_, hend.imp_right fun h => by omega⟩
      rcases Nat.eq_or_lt_of_le hk with rfl | hlt
      · exact List.contains_iff_mem.1 h
      · exact hskipped k hlt hk'
    · next h =>
      exact ⟨Nat.le_refl n, fun k hk hk' => absurd hk' (Nat.not_lt.2 hk),
        .inl fun hmem => h (List.contains_iff_mem.2 hmem)⟩

def Free (stem : String) (used : List String) (n : Nat) : Prop := 0 < n ∧ nameAt stem n ∉ used

instance (stem : String) (used : List String) : DecidablePred (Free stem used) :=
  fun _ => instDecidableAnd

/-- The next fresh name has the next free number, and this is found within one trial more than names are taken. -/
theorem fresh_spec (s : Supply) : ∃ n, s.fresh = (nameAt s.stem n, { s with count := n }) ∧ Free s.stem s.used n ∧
      s.count < n ∧ n ≤ s.count + s.used.length + 1 ∧ ∀ k, s.count < k → k < n → ¬Free s.stem s.used k := by
  obtain ⟨hle, hskipped, hend⟩ := search_spec s.stem s.used (s.used.length + 1) (s.count + 1)
  refine ⟨search s.stem s.used (s.used.length + 1) (s.count + 1), rfl, ⟨by omega, ?_⟩, hle, ?_,
    fun k hk hk' hfree => hfree.2 (hskipped k hk hk')⟩
  -- If every trial were blocked, there would be more taken names than there are.
  all_goals
    have hblocked := Target.Generate.not_forall_mem_of_injective (nameAt_injective s.stem) s.used (s.count + 1)
  · refine hend.resolve_right fun h => hblocked fun k hk hk' => hskipped k hk (by omega)
  · refine Nat.le_of_not_lt fun h => hblocked fun k hk hk' => hskipped k hk (by omega)

def after : Nat → Supply → Supply
  | 0, s => s
  | k + 1, s => after k s.fresh.2

theorem after_add (j k : Nat) (s : Supply) : after (j + k) s = after k (after j s) := by
  induction j generalizing s with
  | zero => rw [Nat.zero_add, after]
  | succ j ih => rw [Nat.succ_add, after, after, ih]

theorem freshMany_add (j k : Nat) (s : Supply) : freshMany (j + k) s = freshMany j s ++ freshMany k (after j s) := by
  induction j generalizing s with
  | zero => rw [Nat.zero_add, freshMany, after, List.nil_append]
  | succ j ih => rw [Nat.succ_add, freshMany, freshMany, after, ih, List.cons_append]

theorem freshMany_eq (k : Nat) (s : Supply) : freshMany k s = (List.range k).map fun i =>
      nameAt s.stem (Nat.nth (Free s.stem s.used) (Nat.count (Free s.stem s.used) (s.count + 1) + i)) := by
  induction k generalizing s with
  | zero => rfl
  | succ k ih =>
    obtain ⟨n, hfresh, hfree, hlt, -, hskipped⟩ := s.fresh_spec
    -- No number between the last one tried and the one found is free, so both have the same count.
    have hcount : Nat.count (Free s.stem s.used) (s.count + 1) = Nat.count (Free s.stem s.used) n := by
      obtain ⟨d, rfl⟩ := Nat.exists_eq_add_of_le hlt
      symm
      rw [Nat.count_add, Nat.add_eq_left]
      exact Nat.count_of_forall_not fun j hj => hskipped _ (by omega) (by omega)
    rw [freshMany, ih, hfresh, List.range_succ_eq_map, List.map_cons, List.map_map]
    simp [hcount, Nat.nth_count hfree, Nat.count_succ, hfree, Nat.add_assoc, Nat.add_comm 1]

theorem freshMany_new (k : Nat) (stem : String) (used : List String) :
    freshMany k (new stem used) = (List.range k).map fun i => nameAt stem (Nat.nth (Free stem used) i) := by
  have hzero : ¬Free stem used 0 := fun h => Nat.lt_irrefl 0 h.1
  simp [freshMany_eq, new, Nat.count_succ, hzero]

theorem length_freshMany (k : Nat) (s : Supply) : (freshMany k s).length = k := by
  rw [freshMany_eq, List.length_map, List.length_range]

theorem mem_freshMany (h : t ∈ freshMany k s) : ∃ n, s.count < n ∧ t = nameAt s.stem n ∧ t ∉ s.used := by
  induction k generalizing s with
  | zero => cases h
  | succ k ih =>
    obtain ⟨n, hfresh, hfree, hlt, -⟩ := s.fresh_spec
    rw [freshMany, hfresh] at h
    rcases List.mem_cons.1 h with rfl | h
    · exact ⟨n, hlt, rfl, hfree.2⟩
    · obtain ⟨m, hm, ht⟩ := ih h
      exact ⟨m, hlt.trans hm, ht⟩

theorem nodup_freshMany (k : Nat) (s : Supply) : (freshMany k s).Nodup := by
  induction k generalizing s with
  | zero => exact List.nodup_nil
  | succ k ih =>
    obtain ⟨n, hfresh, -⟩ := s.fresh_spec
    refine List.nodup_cons.2 ⟨fun h => ?_, ih _⟩
    obtain ⟨m, hm, heq, -⟩ := mem_freshMany h
    exact absurd (nameAt_injective _ heq) (Nat.ne_of_lt hm)

end TypedLua.Supply
