import TypedLua.Proofs.Checking.Sites
import TypedLua.Proofs.Scoping.Codeless

/-!
# Definitions in front of checked values

Types have no functions in them, so a predicate needs no definitions in front of the statement that
it stands in.
-/

namespace TypedLua.Target.Scoping

open Generate

theorem codeless_of_isTrivial {e : TypedLua.Expr} (h : e.isTrivial = true) : Codeless e := by
  cases e with
  | nil loc => exact congruent_codeless.nil loc
  | bool loc b => exact congruent_codeless.bool loc b
  | number loc n => exact congruent_codeless.number loc n
  | string loc s => exact congruent_codeless.string loc s
  | name loc x => exact congruent_codeless.name loc x
  | _ => cases h

/-! ## Lists -/

inductive Hoisted (p : Place) : List TypedLua.Expr → List Stmt → Prop
  | nil : Hoisted p [] []
  | cons {e es code1 call given code2} (hhead : ExprCode p e code1 call given)
      (htail : Hoisted p es code2) : Hoisted p (e :: es) (code1 ++ code2)

variable {p : Place} {code : List Stmt} {given : List String}

theorem Hoisted.one {e : TypedLua.Expr} (h : ExprCode p e code call given) : Hoisted p [e] code := by
  have hone := Hoisted.cons h .nil
  rw [List.append_nil] at hone
  exact hone

theorem Hoisted.ofListCode {es : List TypedLua.Expr}
    (h : ListCode p es code list given) : Hoisted p es code := by
  induction es generalizing code list given with
  | nil =>
    cases h
    exact .nil
  | cons e es ih =>
    cases h with
    | last h => exact .one h
    | cons hhead htail => exact .cons hhead (ih htail)

theorem Hoisted.eq_nil {es : List TypedLua.Expr} (hes : ∀ e ∈ es, Codeless e)
    (h : Hoisted p es code) : code = [] := by
  induction h with
  | nil => rfl
  | cons hhead _ ih =>
    obtain ⟨he, hes⟩ := List.forall_mem_cons.1 hes
    rw [he hhead, ih hes, List.append_nil]

/-! ## Checked values -/

theorem Checked.exprCode {q : Option TypedLua.Expr} {v v' : TypedLua.Expr}
    (h : Checked q v v') (hq : ∀ e ∈ q, Codeless e) (hcode : ExprCode p v' code call given) :
    ∃ call given, ExprCode p v code call given := by
  cases h with
  | plain => exact ⟨call, given, hcode⟩
  | @check predicate _ names =>
    have hcall {loc : Loc} {term : TypedLua.Expr} (hterm : Codeless term) : Codeless (.call loc predicate [term]) :=
      congruent_codeless.call loc predicate [term] (hq predicate rfl) (by simpa using hterm)
    rw [Check.asExpression] at hcode
    split at hcode
    · next htrivial =>
      cases hcode with
      | block hparts hval =>
        cases hparts with
        | run hrun hrest =>
          cases hrest
          rw [hcall (codeless_of_isTrivial htrivial) hrun]
          exact ⟨_, _, hval⟩
    · cases hcode with
      | block hparts hval =>
        cases hparts with
        | bind hterm hholds hrest =>
          cases hrest with
          | run hrun hend =>
            cases hend
            rw [congruent_codeless.name _ _ hval, hcall (congruent_codeless.name _ _) hrun,
              List.append_nil, List.append_nil, List.append_nil]
            exact ⟨_, _, hterm⟩

theorem max_succ_width {α : Type} (p : Option α) (ps : List (Option α)) (n : Nat) :
    max (n + 1) (width (p :: ps)) = max n (width ps) + 1 := by
  rw [width]
  have hp : p.toList.length ≤ 1 := by cases p <;> simp
  split <;> omega

namespace Guarded

variable {ps : List (Option TypedLua.Expr)} {values guarded : List TypedLua.Expr}

theorem uncons {v : TypedLua.Expr} (h : Guarded ps (v :: values) guarded) :
    ∃ v' rest, guarded = v' :: rest ∧ Checked ps.head?.join v v' ∧ Guarded ps.tail values rest := by
  have hlen := h.length
  cases guarded with
  | nil =>
    rw [List.length_nil, List.length_cons] at hlen
    omega
  | cons v' rest =>
    refine ⟨v', rest, rfl, ?_, ?_, ?_⟩
    · obtain ⟨w, hw, hchecked⟩ := h.checked 0 v' rfl
      rw [List.head?_eq_getElem?]
      cases hw with
      | value hw =>
        cases hw
        exact hchecked
      | missing hw => cases hw
    · cases ps with
      | nil => simpa [width] using hlen
      | cons p ps =>
        rw [List.length_cons, List.length_cons, max_succ_width] at hlen
        exact Nat.succ.inj hlen
    · intro i w' hw'
      obtain ⟨w, hw, hchecked⟩ := h.checked (i + 1) w' hw'
      rw [List.getElem?_tail]
      refine ⟨w, ?_, hchecked⟩
      cases hw with
      | value hw => exact .value hw
      | missing hw => exact .missing (Nat.succ_le_succ_iff.1 hw)

theorem hoisted (h : Guarded ps values guarded)
    (hps : ∀ q, some q ∈ ps → Codeless q) (hcode : Hoisted p guarded code) : Hoisted p values code := by
  induction values generalizing ps guarded code with
  | nil =>
    -- All that is there now has been filled up, and is nil or a check of nil.
    have hall : ∀ v' ∈ guarded, Codeless v' := by
      intro v' hv' place c call given hv'code
      obtain ⟨i, hi⟩ := List.getElem?_of_mem hv'
      obtain ⟨v, hv, hchecked⟩ := h.checked i v' hi
      have hpred : ∀ q ∈ ps[i]?.join, Codeless q := fun q hq =>
        hps q (List.mem_of_getElem? (Option.join_eq_some_iff.1 hq))
      obtain ⟨call', given', hvcode⟩ := hchecked.exprCode hpred hv'code
      cases hv with
      | value hv => cases hv
      | missing _ => exact congruent_codeless.nil _ hvcode
    rw [hcode.eq_nil hall]
    exact .nil
  | cons v values ih =>
    obtain ⟨v', rest, rfl, hchecked, hrest⟩ := h.uncons
    cases hcode with
    | cons hhead htail =>
      have hpred : ∀ q ∈ ps.head?.join, Codeless q := fun q hq =>
        hps q (List.mem_of_head? (Option.join_eq_some_iff.1 hq))
      obtain ⟨call, given, hv⟩ := hchecked.exprCode hpred hhead
      exact .cons hv (ih hrest (fun q hq => hps q (List.mem_of_mem_tail hq)) htail)

end Guarded

end TypedLua.Target.Scoping
