import TypedLua.Proofs.Loops.Suites

/-!
# Loops without functions in two runs

A loop repeats a round until it decides otherwise.
-/

namespace TypedLua.Target.Scoping

open Generate Machine Coupling

variable {F1 F2 : LoopForms} {I : Ledger} {w : Pairing} {p1 p2 : Place} {env1 env2 : Env}
  {code1 code2 : List Stmt} {given1 given2 : List String} {n N : Nat}

def SuitesDecide (I : Ledger) (w : Pairing) (env1 env2 : Env) (n N : Nat)
    (names1 names2 : List String) (suite1 suite2 : List Stmt) : Prop :=
  ∀ vs : List Value, vs.length = names1.length → I.coupling.Yields w IsDecision
    (assignAll env1 names1 vs >>= fun _ => execStmts (within n) env1 suite1)
    (assignAll env2 names2 vs >>= fun _ => execStmts (within N) env2 suite2)

theorem IsDecision.afterBody (h : IsDecision signal) : ∀ after ∈ afterBody signal, Plain after := by
  cases h with
  | next => simp [Machine.afterBody]
  | leave =>
    rintro after ⟨⟩
    exact .next
  | result r =>
    rintro after ⟨⟩
    exact .result r

/-! ## Loops of two runs -/

section Loops

variable {suite1 suite2 : List Stmt}

theorem SuitesDecide.round (h : SuitesDecide I w env1 env2 n N [] [] suite1 suite2) :
    I.coupling.Yields w (∀ after ∈ ·, Plain after)
      (execStmts (within n) env1 suite1 >>= fun signal => pure (afterBody signal))
      (execStmts (within N) env2 suite2 >>= fun signal => pure (afterBody signal)) := by
  have hsuite := h [] rfl
  exact yields_bind hsuite fun signal hsignal => yields_pure hsignal.afterBody

end Loops

/-! ## Loops of a chunk -/

end TypedLua.Target.Scoping
