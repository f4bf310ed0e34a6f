import TypedLua.Proofs.Checking.Values
import TypedLua.Proofs.Runtime.Private
import TypedLua.Proofs.Scoping.Uses

/-!
# The evaluation of checks

A check evaluates its term, keeps the first value in a variable of its own, evaluates the predicate,
calls it, and yields the value.
-/

namespace TypedLua

open Target Target.Scoping Generate

namespace Machine

def checkKept (m : Machine) (env : Env) (x : String) (term predicate : Target.Expr) : Run Result := do
  let v ← evalExpr m env term
  assign env x v
  let f ← evalExpr m env predicate
  let _ ← m.call f [v]
  return .one v

def checkRead (m : Machine) (env : Env) (term predicate : Target.Expr) : Run Result := do
  let f ← evalExpr m env predicate
  let v ← evalExpr m env term
  let _ ← m.call f [v]
  let w ← evalExpr m env term
  return .one w

variable {start s : Store} {env : Env} {x : String} {term predicate : Target.Call} {n : Nat}

theorem evalCall_boundCheck_private (h : Private start env [x] s) (hterm : x ∉ (cut term).names)
    (hpred : x ∉ (cut predicate).names) : evalCall (within n) env (boundCheck x term predicate) s =
      checkKept (within n) env x (cut term) (cut predicate) s := by
  have havoid : ∀ {e : Target.Expr}, x ∉ e.names → ∀ y ∈ e.names, y ∉ [x] := by
    intro e he y hy hmem
    exact he (List.mem_singleton.1 hmem ▸ hy)
  have hmem : x ∈ [x] := List.mem_singleton_self x
  have hwatch : ∀ call run, (within n).watch call run = run := fun _ _ => rfl
  rw [boundCheck, evalCall, evalExpr, checkKept]
  case x_1 => simp
  simp only [evalParts, evalCall, evalExprs, evalTail, evalExpr, hwatch, bind_assoc, pure_bind]
  refine Run.bind_steps fun v s1 hv => ?_
  have h1 := (h.evalExpr (havoid hterm) hv).still
  obtain ⟨hassign, hset, h2⟩ := h1.assign hmem v
  rw [Run.bind_ok hassign, Run.bind_ok hassign]
  refine Run.bind_steps fun f s2 hf => ?_
  -- The predicate does not mention the variable, so the call takes what was put there.
  have h3 := h2.evalExpr (havoid hpred) hf
  have hread := h3.still.readVar ((h3.same x hmem).trans hset)
  rw [Run.bind_ok hread]
  refine Run.bind_steps fun r s3 hr => ?_
  have h4 := h3.still.call hr
  rw [Run.bind_ok (h4.still.readVar ((h4.same x hmem).trans ((h3.same x hmem).trans hset)))]

theorem evalCall_readCheck (m : Machine) (hwatch : m.watch = unwatched) :
    evalCall m env (.single (.last [.run (.call (cut predicate) [cut term] none)] (cut term))) =
      checkRead m env (cut term) (cut predicate) := by
  rw [evalCall, evalExpr, checkRead]
  · simp only [evalParts, evalCall, evalExprs, evalTail, hwatch, unwatched, bind_assoc, pure_bind, List.append_nil]
  · simp

end Machine

namespace Target.Scoping

variable {p : Place} {predicate term : TypedLua.Expr} {code : List Stmt} {call : Call} {given : List String}

theorem ExprCode.name_inv (h : ExprCode p (.name loc x) code call given) :
    code = [] ∧ given = [] ∧ call = .single ((p.find x).elim (.global x) (.var ·.name)) := by
  cases h with
  | global hfind =>
    rw [hfind]
    exact ⟨rfl, rfl, rfl⟩
  | «variable» hfind _ =>
    rw [hfind]
    exact ⟨rfl, rfl, rfl⟩

theorem ExprCode.trivial_inv (hterm : term.isTrivial = true) (h : ExprCode p term code call given) :
    code = [] ∧ given = [] ∧ ∀ {code' call' given'}, ExprCode p term code' call' given' → call' = call := by
  cases term with
  | nil | bool | number | string =>
    cases h
    exact ⟨rfl, rfl, fun h' => by cases h'; rfl⟩
  | name loc x =>
    obtain ⟨hcode, hgiven, rfl⟩ := h.name_inv
    exact ⟨hcode, hgiven, fun h' => h'.name_inv.2.2⟩
  | _ => cases hterm

theorem ExprCode.yieldBound_inv (h : ExprCode p (Check.yieldBound temporary predicate term) code call given) :
    ∃ x code1 value given1 code2 test given2, ExprCode p term code1 value given1 ∧ p.Holds [x] ∧
      ExprCode (p.declare temporary x) predicate code2 test given2 ∧ code = code1 ++ code2 ∧
      call = boundCheck x value test ∧ given = given1 ++ x :: given2 := by
  cases h with
  | block hparts hvalue =>
    cases hparts with
    | @bind _ _ _ _ _ _ _ x code1 value given1 _ _ _ hterm hholds hrest =>
      have hfind : (p.declare temporary x).find temporary = some ⟨temporary, x, p.path⟩ := by
        rw [Place.declare_find, if_pos rfl]
      cases hrest with
      | run hrun hend =>
        cases hend
        obtain ⟨rfl, rfl, rfl⟩ := hvalue.name_inv
        cases hrun with
        | call htest hargs =>
          cases hargs with
          | last hname =>
            obtain ⟨rfl, rfl, rfl⟩ := hname.name_inv
            refine ⟨x, code1, value, given1, _, _, _, hterm, hholds, htest, by simp, ?_, by simp⟩
            rw [hfind]
            rfl

theorem ExprCode.yieldTrivial_inv (hterm : term.isTrivial = true)
    (h : ExprCode p (Check.yieldTrivial predicate term) code call given) :
    ∃ value test, ExprCode p term [] value [] ∧ ExprCode p predicate code test given ∧
      call = .single (.last [.run (.call (cut test) [cut value] none)] (cut value)) := by
  cases h with
  | block hparts hvalue =>
    cases hparts with
    | run hrun hend =>
      cases hend
      obtain ⟨rfl, rfl, hunique⟩ := hvalue.trivial_inv hterm
      cases hrun with
      | call htest hargs =>
        cases hargs with
        | last hagain =>
          obtain ⟨rfl, rfl, -⟩ := hagain.trivial_inv hterm
          obtain rfl := hunique hagain
          refine ⟨_, _, hvalue, by simpa using htest, ?_⟩
          rw [lastItem, if_neg (by cases term <;> simp_all [TypedLua.Expr.isTrivial, TypedLua.Expr.isMultiValued])]

end Target.Scoping

open Machine

/-- How a check is evaluated. If its term can be read twice, the predicate is evaluated and called with the term,
and then the term is read again. Otherwise the term is evaluated once and its first value is kept in a variable that
nothing else mentions, the predicate is evaluated and called with it, and the value is yielded. This holds from every
state in which the names of the check are new, and a step that fails is the end of the check. -/
theorem check_evaluates_term_once {p : Scoping.Place} {names : Supply} {predicate term : TypedLua.Expr}
    {code : List Target.Stmt} {call : Call} {given : List String}
    (hcode : ExprCode p (Check.asExpression names predicate term).1 code call given) (hspared : p.Spares given)
    (hfresh : names.fresh.1 ∉ predicate.names) :
    (term.isTrivial = true → ∃ value test, ExprCode p term [] value [] ∧ ExprCode p predicate code test given ∧
      ∀ (n : Nat) (env : Env), evalCall (within n) env call = checkRead (within n) env (cut value) (cut test)) ∧
    (term.isTrivial = false → ∃ x code1 value given1 code2 test given2, ExprCode p term code1 value given1 ∧
      ExprCode (p.declare names.fresh.1 x) predicate code2 test given2 ∧ code = code1 ++ code2 ∧ x ∈ given ∧
      x ∉ stmtsNames code ++ (value.names ++ test.names) ∧
      ∀ (n : Nat) (env : Env) (s : Store), Reached s env p → New s env p [x] →
        evalCall (within n) env call s = checkKept (within n) env x (cut value) (cut test) s) := by
  constructor
  · intro hterm
    rw [Check.asExpression, if_pos hterm] at hcode
    obtain ⟨value, test, hvalue, htest, rfl⟩ := hcode.yieldTrivial_inv hterm
    exact ⟨value, test, hvalue, htest, fun n env => evalCall_readCheck (within n) rfl⟩
  · intro hterm
    rw [Check.asExpression, if_neg (by simp [hterm])] at hcode
    obtain ⟨x, code1, value, given1, code2, test, given2, hvalue, hholds, htest, rfl, rfl, rfl⟩ :=
      hcode.yieldBound_inv
    have hx : x ∈ given1 ++ x :: given2 := by simp
    -- The given names differ, and no declaration in scope has one of them.
    have hnodup := List.nodup_middle.1 hspared.nodup
    rw [List.nodup_cons, List.mem_append, not_or] at hnodup
    have hvalue' : x ∉ stmtsNames code1 ++ value.names :=
      hvalue.uses.avoids hnodup.1.1 fun y _ d hd heq => hspared.declared hd (heq ▸ hx)
    have htest' : x ∉ stmtsNames code2 ++ test.names := by
      refine htest.uses.avoids hnodup.1.2 fun y hy d hd heq => ?_
      rw [Place.declare_find, if_neg fun h : y = names.fresh.1 => hfresh (h ▸ hy)] at hd
      exact hspared.declared hd (heq ▸ hx)
    refine ⟨x, code1, value, given1, code2, test, given2, hvalue, htest, rfl, hx, ?_, fun n env s hreached hnew => ?_⟩
    · simp_all
    · exact evalCall_boundCheck_private (private_start hreached hnew hholds) (by simp_all) (by simp_all)

/-- A check of the call `f()` with the predicate `p`, both of them globals. -/
def checkedCall : Call := boundCheck "_tmp1" (.call (.global "f") [] none) (.single (.global "p"))

def checkedPlace : Scoping.Place := ⟨[chunkDef [.run checkedCall]], [], 0, false⟩

theorem check_evaluates_term_once_call : ExprCode checkedPlace
      (Check.asExpression (.new "_tmp" []) (.name none "p") (.call none (.name none "f") [])).1 [] checkedCall
      ["_tmp1"] ∧
    ∀ n, evalCall (within n) ⟨0, [], [0]⟩ checkedCall (nestingStore ["_tmp1"]) =
      checkKept (within n) ⟨0, [], [0]⟩ "_tmp1" (.first (.call (.global "f") [] none)) (.global "p")
        (nestingStore ["_tmp1"]) := by
  have hholds : checkedPlace.Holds ["_tmp1"] := by
    intro x hx
    obtain rfl := List.mem_singleton.1 hx
    exact resolve_chunkDef (by decide)
  have hname : ExprCode (checkedPlace.declare "_tmp1" "_tmp1") (.name none "_tmp1") [] (.single (.var "_tmp1")) [] :=
    .variable (d := ⟨"_tmp1", "_tmp1", _⟩) rfl (hholds _ (List.mem_singleton_self _))
  have hcode : ExprCode checkedPlace
      (Check.asExpression (.new "_tmp" []) (.name none "p") (.call none (.name none "f") [])).1 [] checkedCall
      ["_tmp1"] :=
    .block (.bind (.call (.global rfl) .nil) hholds (.run (.call (.global rfl) (.last hname)) .nil)) hname
  have hspared : checkedPlace.Spares ["_tmp1"] := ⟨by simp, fun h => by cases h⟩
  obtain ⟨x, code1, value, given1, code2, test, given2, hvalue, htest, -, hx, -, heq⟩ :=
    (check_evaluates_term_once hcode hspared (by decide)).2 rfl
  refine ⟨hcode, fun n => ?_⟩
  obtain rfl := List.mem_singleton.1 hx
  obtain ⟨-, -, rfl⟩ := htest.name_inv
  cases hvalue with
  | call hf hargs =>
    cases hargs
    obtain ⟨-, -, rfl⟩ := hf.name_inv
    exact heq n _ _ (nestingStore_reached (by with_unfolding_all rfl))
      ⟨(fun h => by cases h), fun hc => absurd hc nestingStore_keeps⟩

end TypedLua
