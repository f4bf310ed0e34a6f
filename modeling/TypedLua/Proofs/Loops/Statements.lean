import TypedLua.Proofs.Loops.Execution

/-!
# Statements without functions in two runs

The codes of a statement without functions take two runs from the same place of a chunk to the same
place.
-/

namespace TypedLua

open Target Target.Scoping Generate Coupling

namespace Machine

variable (m : Machine) (env : Env)

theorem execStmts_cons (s : Target.Stmt) (ss : List Target.Stmt) :
    execStmts m env (s :: ss) = (execStmt m env s >>= proceed (execStmts m env ss)) := by
  rfl

theorem execStmts_one (s : Target.Stmt) : execStmts m env [s] = execStmt m env s := by
  have hend : proceed (execStmts m env []) = pure := by
    funext signal
    cases signal <;> simp [proceed, execStmts]
  rw [execStmts_cons, hend, bind_pure]

theorem execStmts_append (ss ss' : List Target.Stmt) :
    execStmts m env (ss ++ ss') = (execStmts m env ss >>= proceed (execStmts m env ss')) := by
  induction ss with
  | nil => simp [execStmts, proceed]
  | cons s ss ih =>
    rw [List.cons_append, execStmts_cons, execStmts_cons, ih, bind_assoc]
    congr 1
    funext signal
    cases signal <;> simp [proceed]

theorem execStmts_filled (code : List Target.Stmt) : execStmts m env (filled code) = execStmts m env code := by
  cases code with
  | nil =>
    rw [filled, if_pos (by rfl), execStmts_one]
    simp [execStmt, execStmts]
  | cons s ss => rfl

theorem evalExprs_adjust {β : Type} (es : List Target.Expr) (next : List Value → Run β) :
    (evalExprs m env es >>= fun vs => next (adjust es.length vs)) = (evalExprs m env es >>= next) := by
  induction es generalizing next with
  | nil => simp [evalExprs, adjust]
  | cons e es ih =>
    simp only [evalExprs, bind_assoc, pure_bind]
    congr 1
    funext v
    have hcons (vs : List Value) : adjust (e :: es).length (v :: vs) = v :: adjust es.length vs := by simp [adjust]
    simp only [hcons]
    exact ih fun vs => next (v :: vs)

end Machine

namespace Target.Scoping

open Machine

variable {F : LoopForms} {p q : Place} {code : List Stmt} {given : List String}

variable {es : List TypedLua.Expr} {list : List Expr × Option Tail}

theorem listCode_single (h : @ListCode F p es code list given) (hlast : es.getLast?.any (·.isMultiValued) = false) :
    list.1.length = es.length ∧ list.2 = none := by
  induction es generalizing code list given with
  | nil =>
    cases h
    exact ⟨rfl, rfl⟩
  | cons e es ih =>
    cases h with
    | last h =>
      have he : e.isMultiValued = false := by simpa using hlast
      simp [lastItem, he]
    | cons hhead htail =>
      obtain ⟨hlen, htail⟩ := ih htail (by simpa using hlast)
      exact ⟨congrArg (· + 1) hlen, htail⟩

theorem exec_adjusted (h : @ListCode F p es code list given) {names : List String} (m : Machine) (env : Env) :
    execStmts m env [(toAdjusted names.length es list).assign names] = (evalList m env list.1 list.2 >>= fun vs =>
        assignAll env names (adjust names.length vs) >>= fun _ => pure .next) := by
  rw [execStmts_one, toAdjusted]
  split
  · next hexact =>
    have hexact : (1 < names.length ∧ es.length = names.length) ∧ es.getLast?.any (·.isMultiValued) = false := by
      simpa using hexact
    obtain ⟨hlen, htail⟩ := listCode_single h hexact.2
    have hadjust := evalExprs_adjust m env list.1 fun vs => assignAll env names vs >>= fun _ => pure Signal.next
    simp only [Adjusted.assign, execStmt, evalList, htail, evalTail, pure_bind, List.append_nil, bind_assoc]
    rw [← hadjust, hlen, hexact.1.2]
  · simp [Adjusted.assign, execStmt]

theorem exec_adjusted_cons (h : @ListCode F p es code list given) {names : List String}
    (code' : List Stmt) (m : Machine) (env : Env) :
    execStmts m env ((toAdjusted names.length es list).assign names :: code') =
      (evalList m env list.1 list.2 >>= fun vs =>
        assignAll env names (adjust names.length vs) >>= fun _ => execStmts m env code') := by
  rw [← List.singleton_append, execStmts_append, exec_adjusted h]
  simp only [bind_assoc, pure_bind, proceed]

variable {F1 F2 : LoopForms} {p1 p2 q1 q2 : Place} {code1 code2 : List Stmt} {given1 given2 : List String}

variable {I : Ledger} {w : Pairing} {env1 env2 : Env} {n N : Nat}

end Target.Scoping

end TypedLua
