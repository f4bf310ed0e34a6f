import TypedLua.Proofs.Loops.Statements

/-!
# The suites of a loop in two runs

One round of a loop stands in the suite of the loop, or in a definition that the suite enters.
-/

namespace TypedLua

namespace Machine

variable {s : Store}

/-! ## Entering a definition -/

end Machine

namespace Target.Scoping

open Generate Machine Coupling

/-! ## One round -/

inductive Decides (p : Place) : Signal → Signal → Prop
  | next : Decides p .next .next
  | leave : Decides p p.leaving .leave
  | result (r : Result) : Decides p (.done (.result r)) (.done (.result r))

inductive IsDecision : Signal → Prop
  | next : IsDecision .next
  | leave : IsDecision .leave
  | result (r : Result) : IsDecision (.done (.result r))

variable {F F1 F2 : LoopForms} {I I' : Ledger} {w : Pairing} {p p1 p2 q1 q2 : Place}
  {env env1 env2 : Env} {s1 s2 : Store} {code1 code2 : List Stmt} {given1 given2 : List String}

variable {ss : List TypedLua.Stmt} {until? : Option TypedLua.Expr} {vs : List Value}
  {pairs : List (String × String)} {given : List String}

theorem Hold.congr {s t : Store} (h : Hold s frame names vs)
    (hcontent : ∀ x ∈ names, t.content (frame', x) = s.content (frame, x)) : Hold t frame' names vs := by
  induction h with
  | nil => exact .nil
  | @cons x v names vs hx _ ih =>
    obtain ⟨hhead, htail⟩ := List.forall_mem_cons.1 hcontent
    exact .cons (hhead.trans hx) (ih htail)

end Target.Scoping

end TypedLua
