import TypedLua.Target.Generate
import Mathlib.Data.List.Nodup
import Mathlib.Data.List.Perm.Subperm
import Mathlib.Tactic.Common

/-!
# Names of a module

A name taken for a module is new, and it is neither a reserved word of the target language nor a
name that the generated code uses itself.
-/

namespace TypedLua.Target.Generate

def IsFree (x : String) : Prop := x ∉ reservedWords ∧ x ∉ reservedNames

/-! ## Candidates -/

theorem toDigits_injective (h : Nat.toDigits 10 m = Nat.toDigits 10 n) : m = n := by
  rw [← Nat.ofDigitChars_ten_toDigits (n := m), h, Nat.ofDigitChars_ten_toDigits]

theorem toList_candidate_succ (base : String) (n : Nat) :
    (candidate base (n + 1)).toList = base.toList ++ '_' :: Nat.toDigits 10 (n + 1) := by
  simp [candidate]

theorem candidate_injective (base : String) (h : candidate base m = candidate base n) : m = n := by
  have hlist := congrArg String.toList h
  cases m with
  | zero =>
    cases n with
    | zero => rfl
    | succ n =>
      rw [toList_candidate_succ, candidate] at hlist
      simp at hlist
  | succ m =>
    cases n with
    | zero =>
      rw [toList_candidate_succ, candidate] at hlist
      simp at hlist
    | succ n =>
      rw [toList_candidate_succ, toList_candidate_succ] at hlist
      exact toDigits_injective (List.cons.inj (List.append_cancel_left hlist)).2

theorem searchFree_spec (used : List String) (base : String) :
    ∀ trials n, candidate base (searchFree used base trials n) ∉ used ∨
      ∀ k, n ≤ k → k < n + trials → candidate base k ∈ used
  | 0, n => Or.inr fun k hk hk' => by omega
  | trials + 1, n => by
    rw [searchFree]
    by_cases h : used.contains (candidate base n) = true
    · rw [if_pos h]
      rcases searchFree_spec used base trials (n + 1) with hfree | hblocked
      · exact Or.inl hfree
      · refine Or.inr fun k hk hk' => ?_
        rcases Nat.eq_or_lt_of_le hk with rfl | hlt
        · exact List.contains_iff_mem.1 h
        · exact hblocked k hlt (by omega)
    · rw [if_neg h]
      exact Or.inl fun hmem => h (List.contains_iff_mem.2 hmem)

theorem not_forall_mem_of_injective {name : Nat → String} (hname : ∀ {m n}, name m = name n → m = n)
    (used : List String) (start : Nat) : ¬∀ k, start ≤ k → k < start + (used.length + 1) → name k ∈ used := by
  intro hall
  have hnodup : ((List.range (used.length + 1)).map fun k => name (start + k)).Nodup :=
    List.Nodup.map (fun _ _ heq => Nat.add_left_cancel (hname heq)) List.nodup_range
  have hsub : (List.range (used.length + 1)).map (fun k => name (start + k)) ⊆ used := by
    intro x hx
    obtain ⟨k, hk, rfl⟩ := List.mem_map.1 hx
    exact hall _ (Nat.le_add_right ..) (Nat.add_lt_add_left (List.mem_range.1 hk) _)
  have hle := (List.Nodup.subperm hnodup hsub).length_le
  rw [List.length_map, List.length_range] at hle
  omega

theorem candidate_searchFree_notMem (used : List String) (base : String) :
    candidate base (searchFree used base (used.length + 1) 0) ∉ used :=
  (searchFree_spec used base (used.length + 1) 0).resolve_right
    (not_forall_mem_of_injective (candidate_injective base) used 0)

/-! ## Fresh names -/

theorem isFree_of_getLast_digit {x : String} (h : x.toList.getLast? = some c)
    (hc : c.isDigit = true) : IsFree x := by
  have hall : ∀ w ∈ reservedWords ++ reservedNames, w.toList.getLast?.all (!·.isDigit) = true := by decide
  have hx : x ∉ reservedWords ++ reservedNames := by
    intro hmem
    have := hall x hmem
    rw [h] at this
    simp [hc] at this
  exact ⟨fun hw => hx (List.mem_append_left _ hw), fun hn => hx (List.mem_append_right _ hn)⟩

theorem isFree_unreserved (base : String) : IsFree (unreserved base) := by
  rw [unreserved]
  split
  · next h =>
    have hall : ∀ w ∈ reservedWords ++ reservedNames, w ++ "_" ∉ reservedWords ++ reservedNames := by decide
    have hbase : base ∈ reservedWords ++ reservedNames := by simpa using h
    have := hall base hbase
    rw [List.mem_append, not_or] at this
    exact this
  · next h =>
    rw [Bool.or_eq_true, not_or, List.contains_iff_mem, List.contains_iff_mem] at h
    exact h

theorem isFree_candidate (h : IsFree base) (n : Nat) : IsFree (candidate base n) := by
  cases n with
  | zero => exact h
  | succ n =>
    obtain ⟨c, hc⟩ : ∃ c, (Nat.toDigits 10 (n + 1)).getLast? = some c := by
      cases hl : (Nat.toDigits 10 (n + 1)).getLast? with
      | none => exact absurd (List.getLast?_eq_none_iff.1 hl) Nat.toDigits_ne_nil
      | some c => exact ⟨c, rfl⟩
    refine isFree_of_getLast_digit (c := c) ?_ ?_
    · rw [toList_candidate_succ, List.getLast?_append, List.getLast?_cons, hc]
      rfl
    · exact Nat.isDigit_of_mem_toDigits (by decide) (by decide) (List.mem_of_getLast? hc)

theorem freshName_notMem (used : List String) (base : String) : freshName used base ∉ used :=
  candidate_searchFree_notMem used (unreserved base)

theorem isFree_freshName (used : List String) (base : String) : IsFree (freshName used base) :=
  isFree_candidate (isFree_unreserved base) _

end TypedLua.Target.Generate
