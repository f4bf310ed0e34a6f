import TypedLua.Proofs.Loops.Stage
import TypedLua.Proofs.Scoping.Codeless

/-!
# The values of an expression in two runs

An expression without functions may have two codes, which differ in the names of their variables and
in the definitions around them.
-/

namespace TypedLua

namespace Machine

open Target Generate

theorem evalExpr_cut_eq (m : Machine) (env : Env) (call : Call) :
    evalExpr m env (cut call) = (evalCall m env call >>= fun r => pure r.first) := by
  funext s
  cases call with
  | single value =>
    rw [cut, evalCall]
    show _ = EStateM.bind (EStateM.bind _ _) _ s
    unfold EStateM.bind
    cases evalExpr m env value s <;> rfl
  | varargs =>
    rw [cut, evalExpr, evalCall, pure_bind]
    cases env.varargs <;> rfl
  | call callee args tail =>
    rw [cut, evalExpr]
    · simp
    · simp
  | invoke object member args tail =>
    rw [cut, evalExpr]
    · simp
    · simp

end Machine

namespace Target.Scoping

open Generate Machine Coupling

variable {p1 p2 : Place} {given1 given2 more1 more2 : List String} {α β : Type}

/-- Two computations do the same at the same place of a chunk, where each may use names that were given
to it for variables of its own. -/
def EvalSim (p1 p2 : Place) (given1 given2 : List String) (run1 run2 : Machine → Env → Run α) : Prop :=
  ∀ ⦃I w env1 env2 n N⦄, n ≤ N → Stage I w p1 p2 env1 env2 → Spares I env1 env2 given1 given2 →
    I.coupling.Coupled w (run1 (within n) env1) (run2 (within N) env2)

namespace EvalSim

variable {run1 run2 : Machine → Env → Run α}

theorem ofCoupled (h : ∀ {I w env1 env2 n N}, n ≤ N → Stage I w p1 p2 env1 env2 →
    I.coupling.Coupled w (run1 (within n) env1) (run2 (within N) env2)) : EvalSim p1 p2 given1 given2 run1 run2 :=
  fun _ _ _ _ _ _ hn hstage _ => h hn hstage

theorem pure (a : α) : EvalSim p1 p2 given1 given2 (fun _ _ => pure a) fun _ _ => pure a :=
  ofCoupled fun _ _ => .pure a

theorem bind {next1 next2 : α → Machine → Env → Run β} (h : EvalSim p1 p2 given1 given2 run1 run2)
    (hnext : ∀ a, EvalSim p1 p2 more1 more2 (next1 a) (next2 a)) : EvalSim p1 p2 (given1 ++ more1) (given2 ++ more2)
      (fun m env => run1 m env >>= fun a => next1 a m env)
      fun m env => run2 m env >>= fun a => next2 a m env := by
  intro I w env1 env2 n N hn hstage hspare
  refine .bind (h hn hstage hspare.left) fun a => ?_
  exact hnext a hn hstage hspare.right

theorem followed {next1 next2 : α → Machine → Env → Run β} (h : EvalSim p1 p2 given1 given2 run1 run2)
    (hnext : ∀ a, EvalSim p1 p2 [] [] (next1 a) (next2 a)) :
    EvalSim p1 p2 given1 given2 (fun m env => run1 m env >>= fun a => next1 a m env)
      fun m env => run2 m env >>= fun a => next2 a m env := by
  have hbind := h.bind hnext
  rwa [List.append_nil, List.append_nil] at hbind

theorem map (h : EvalSim p1 p2 given1 given2 run1 run2) (f : α → β) :
    EvalSim p1 p2 given1 given2 (fun m env => run1 m env >>= fun a => Pure.pure (f a))
      fun m env => run2 m env >>= fun a => Pure.pure (f a) :=
  h.followed fun a => pure (f a)

theorem declaring (hholds1 : p1.Holds [x1]) (hholds2 : p2.Holds [x2]) (v : Value)
    (h : EvalSim (p1.declare x x1) (p2.declare x x2) given1 given2 run1 run2) :
    EvalSim p1 p2 (x1 :: given1) (x2 :: given2) (fun m env => assign env x1 v >>= fun _ => run1 m env)
      fun m env => assign env x2 v >>= fun _ => run2 m env := by
  intro I w env1 env2 n N hn hstage hspare w' s1 s2 hle hrel
  obtain ⟨hnot1, hnodup1⟩ := List.nodup_cons.1 hspare.nodup1
  obtain ⟨hnot2, hnodup2⟩ := List.nodup_cons.1 hspare.nodup2
  have hstage' := hstage.mono hle
  obtain ⟨t1, t2, h1, h2, hrel', ht1, ht2⟩ := hstage'.own_both hrel hholds1 hholds2
    (hspare.first.sub (by simp)) (hspare.second.sub (by simp)) v
  obtain ⟨hown1, hfree1⟩ := hspare.first x1 List.mem_cons_self
  obtain ⟨hown2, hfree2⟩ := hspare.second x2 List.mem_cons_self
  have hcontent1 : t1.content (top env1, x1) = some (.value v) := by
    rw [ht1]
    exact Store.content_put_self (hrel.own1 hown1)
  have hcontent2 : t2.content (top env2, x2) = some (.value v) := by
    rw [ht2]
    exact Store.content_put_self (hrel.own2 hown2)
  have htwin := hrel'.twin hown1 hown2 hfree1 hfree2 hcontent1 hcontent2
  -- The names that are left are not the one just taken.
  have hleft1 : SpareFirst (I.twin hown1 hown2 hfree1 hfree2) env1 given1 := by
    intro y hy
    obtain ⟨hown, hfree⟩ := hspare.first y (List.mem_cons_of_mem _ hy)
    refine ⟨hown, fun c hc => hc.elim (hfree c) fun heq => ?_⟩
    exact hnot1 ((Prod.mk.inj heq.1).2 ▸ hy)
  have hleft2 : SpareSecond (I.twin hown1 hown2 hfree1 hfree2) env2 given2 := by
    intro y hy
    obtain ⟨hown, hfree⟩ := hspare.second y (List.mem_cons_of_mem _ hy)
    refine ⟨hown, fun c hc => hc.elim (hfree c) fun heq => ?_⟩
    exact hnot2 ((Prod.mk.inj heq.2).2 ▸ hy)
  have hgo := h hn (hstage'.declare hown1 hown2 hfree1 hfree2) ⟨hleft1, hleft2, hnodup1, hnodup2⟩
    (fun _ _ h => h) htwin
  show I.coupling.Agree w' ((assign env1 x1 v >>= fun _ => run1 (within n) env1) s1)
    ((assign env2 x2 v >>= fun _ => run2 (within N) env2) s2)
  rw [Run.bind_ok h1, Run.bind_ok h2]
  exact Alike.agree_forget (Ledger.le_twin hown1 hown2 hfree1 hfree2) hgo

theorem congr {run1' run2' : Machine → Env → Run α} (h : EvalSim p1 p2 given1 given2 run1' run2')
    (h1 : ∀ n env, run1 (within n) env = run1' (within n) env)
    (h2 : ∀ n env, run2 (within n) env = run2' (within n) env) : EvalSim p1 p2 given1 given2 run1 run2 := by
  intro I w env1 env2 n N
  rw [h1, h2]
  exact @h I w env1 env2 n N

theorem cut (h : EvalSim p1 p2 given1 given2 (evalCall · · call1) (evalCall · · call2)) :
    EvalSim p1 p2 given1 given2 (evalExpr · · (Generate.cut call1)) (evalExpr · · (Generate.cut call2)) := by
  simp only [evalExpr_cut_eq]
  exact h.map Result.first

theorem single (h : EvalSim p1 p2 given1 given2 (evalExpr · · value1) (evalExpr · · value2)) :
    EvalSim p1 p2 given1 given2 (evalCall · · (.single value1)) (evalCall · · (.single value2)) := by
  exact h.map Result.one

end EvalSim

/-! ## Expressions -/

variable {F1 F2 : LoopForms}

end Target.Scoping

end TypedLua
