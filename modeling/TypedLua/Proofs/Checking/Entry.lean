import TypedLua.Proofs.Checking.Evaluation
import TypedLua.Proofs.Parsing.Results
import TypedLua.Proofs.Runtime.Assignment

/-!
# Checks on entry

The code of a function with annotated parameters starts with a check for each annotation, in their
order.
-/

namespace TypedLua

open Target Target.Scoping Generate

namespace Machine

/-- The code of a check on entry: definitions, a predicate behind them, and the variable of a parameter. -/
structure EntryCheck where
  front : List Target.Stmt
  predicate : Target.Expr
  param : String

def EntryCheck.apply (m : Machine) (env : Env) (c : EntryCheck) : Run Unit := do
  let _ ← execStmts m env c.front
  let f ← evalExpr m env c.predicate
  let v ← readVar env c.param
  let _ ← m.call f [v]

def applyChecks (m : Machine) (env : Env) : List EntryCheck → Run Unit
  | [] => return ()
  | c :: cs => do
    c.apply m env
    applyChecks m env cs

def bindArgs (c : Closure) (args : List Value) : Run Env := match c.code with
  | .mk _ params rest _ _ => do
    let frame ← Run.newFrame (newVariables params args c.own)
    return { c.env with varargs := varargsOf rest c.env.varargs (args.drop params.length),
                        frames := frame :: c.env.frames }

theorem runBody_eq (m : Machine) (c : Closure) (args : List Value) :
    runBody m c args = (bindArgs c args >>= fun env => execStmts m env c.code.body) := by
  obtain ⟨⟨name, params, rest, nonlocals, body⟩, own, env⟩ := c
  rfl

theorem lookup_newVariables_getD {params : List String} (args : List Value) (own : List String)
    (hnodup : params.Nodup) (h : params[i]? = some x) :
    (newVariables params args own).lookup x = some (.value (args.getD i .nil)) := by
  induction params generalizing args i with
  | nil => cases h
  | cons y params ih =>
    obtain ⟨hnot, hnodup⟩ := List.nodup_cons.1 hnodup
    cases i with
    | zero =>
      cases h
      cases args <;> simp [newVariables, bindParams]
    | succ i =>
      -- Parameters that come first would hide later ones of the same name, so the names have to differ.
      have hne : x ≠ y := fun heq => hnot (heq ▸ List.mem_of_getElem? h)
      have hrest := ih (args.drop 1) hnodup h
      cases args <;> simpa [newVariables, bindParams, List.lookup_cons, beq_false_of_ne hne] using hrest

theorem applyChecks_append (m : Machine) (env : Env) (before after : List EntryCheck) :
    applyChecks m env (before ++ after) = (applyChecks m env before >>= fun _ => applyChecks m env after) := by
  induction before with
  | nil => rfl
  | cons c before ih => simp only [List.cons_append, applyChecks, ih, bind_assoc]

end Machine

namespace Target.Scoping

open Machine

/-- The code of the check of an annotated parameter, given the variables of all parameters. -/
structure EntryCode (p : Place) (pairs : List (String × String)) (a : String × TypedLua.Expr) (c : EntryCheck) :
    Prop where
  predicate : ∃ call given, ExprCode p a.2 c.front call given ∧ c.predicate = cut call
  param : pairs.reverse.lookup a.1 = some c.param
  apart : ∀ y ∈ pairs.map (·.2), y ∉ stmtsBound c.front ++ c.predicate.bound

variable {p p' : Place} {pairs : List (String × String)} {code : List Stmt} {given : List String}

theorem StmtCode.entry_inv {test : TypedLua.Expr}
    (h : StmtCode (p.declareAll pairs) (Check.asStatement test (.name loc x)) code p' given)
    (hx : x ∈ pairs.map (·.1)) (hgiven : ∀ y ∈ pairs.map (·.2), y ∉ given) :
    ∃ c, EntryCode (p.declareAll pairs) pairs (x, test) c ∧ p' = p.declareAll pairs ∧
      ∀ (n : Nat) (env : Env) (rest : List Stmt), execStmts (within n) env (code ++ rest) =
        (c.apply (within n) env >>= fun _ => execStmts (within n) env rest) := by
  cases h with
  | expr hcall =>
    cases hcall with
    | @call _ _ _ _ front call given1 _ _ _ htest hargs =>
      cases hargs with
      | last hname =>
        obtain ⟨rfl, rfl, rfl⟩ := hname.name_inv
        -- The name is that of a parameter; if several have it, the last one is read.
        obtain ⟨y, hy⟩ : ∃ y, pairs.reverse.lookup x = some y := by
          obtain ⟨pair, hpair, rfl⟩ := List.mem_map.1 hx
          exact Option.isSome_iff_exists.1 (List.lookup_isSome_iff.2 ⟨pair, List.mem_reverse.2 hpair, by simp⟩)
        rw [List.append_nil] at hgiven
        have hbound := htest.uses.bound
        refine ⟨⟨front, cut call, y⟩, ⟨⟨call, given1, htest, rfl⟩, hy, fun z hz hmem => hgiven z hz (hbound ?_)⟩,
          rfl, fun n env rest => ?_⟩
        · simpa using hmem
        · rw [Place.declareAll_find, hy]
          simp only [List.append_nil, List.append_assoc, htest.defines.execStmts_append, List.singleton_append]
          have hitem : lastItem (.name loc x) (.single (.var y)) = ([.var y], none) := rfl
          have hwatch : ∀ call run, (within n).watch call run = run := fun _ _ => rfl
          rw [execStmts_cons, execStmt, EntryCheck.apply]
          simp only [Option.map_some, Option.some_or, Option.elim_some, hitem, hwatch, evalCall, evalExprs, evalTail,
            evalExpr, bind_assoc, pure_bind, List.append_nil, proceed]

theorem StmtsCode.entry_inv {ps : List (String × TypedLua.Expr)} {ss : List TypedLua.Stmt}
    (h : StmtsCode (p.declareAll pairs) (entryChecks loc ps ++ ss) code p' given)
    (hps : ∀ a ∈ ps, a.1 ∈ pairs.map (·.1)) (hgiven : ∀ y ∈ pairs.map (·.2), y ∉ given) :
    ∃ checks rest taken, List.Forall₂ (EntryCode (p.declareAll pairs) pairs) ps checks ∧
      StmtsCode (p.declareAll pairs) ss rest p' taken ∧ ∀ (n : Nat) (env : Env), execStmts (within n) env code =
        (applyChecks (within n) env checks >>= fun _ => execStmts (within n) env rest) := by
  induction ps generalizing code given with
  | nil => exact ⟨[], code, given, .nil, h, fun _ _ => rfl⟩
  | cons a ps ih =>
    obtain ⟨ha, hps⟩ := List.forall_mem_cons.1 hps
    cases h with
    | cons hhead htail =>
      obtain ⟨c, hc, rfl, hfirst⟩ := hhead.entry_inv ha fun y hy hmem => hgiven y hy (List.mem_append_left _ hmem)
      obtain ⟨checks, rest, taken, hchecks, hrest, hrun⟩ :=
        ih htail hps fun y hy hmem => hgiven y hy (List.mem_append_right _ hmem)
      refine ⟨c :: checks, rest, taken, .cons hc hchecks, hrest, fun n env => ?_⟩
      rw [hfirst, hrun, applyChecks, bind_assoc]

/-- A definition makes checks before the rest of its body runs: each call binds the arguments, makes
the checks in order, and runs the rest. -/
structure ChecksFirst (d : Def) (checks : List EntryCheck) (rest : List Stmt) : Prop where
  run : ∀ (n : Nat) (env : Env) (args : List Value), deliver (within n) (.make d env) args = do
    let inner ← bindArgs (.make d env) args
    applyChecks (within n) inner checks
    let signal ← execStmts (within n) inner rest
    return delivered signal
  bound : ∀ (env : Env) (args : List Value) (s : Store), ∃ inner s', bindArgs (.make d env) args s = .ok inner s' ∧
    ∀ i y, d.params[i]? = some y → s'.content (top inner, y) = some (.value (args.getD i .nil))
  fails : ∀ (n : Nat) (env inner : Env) (args : List Value) (s s1 s2 s3 : Store) (e : Stop) (c : EntryCheck)
    (before after : List EntryCheck), checks = before ++ c :: after → bindArgs (.make d env) args s = .ok inner s1 →
    applyChecks (within n) inner before s1 = .ok () s2 → c.apply (within n) inner s2 = .error e s3 →
    deliver (within n) (.make d env) args s = .error e s3

theorem checksFirst_of_run {d : Def} (hnodup : d.params.Nodup) (h : ∀ n env, execStmts (within n) env d.body =
      (applyChecks (within n) env checks >>= fun _ => execStmts (within n) env rest)) :
    ChecksFirst d checks rest := by
  have hrun : ∀ (n : Nat) (env : Env) (args : List Value), deliver (within n) (.make d env) args = do
      let inner ← bindArgs (.make d env) args
      applyChecks (within n) inner checks
      let signal ← execStmts (within n) inner rest
      return delivered signal := by
    intro n env args
    rw [deliver_eq, runBody_eq]
    simp only [Closure.make, h, bind_assoc]
  refine ⟨hrun, fun env args s => ?_, ?_⟩
  · obtain ⟨name, params, rest, nonlocals, body⟩ := d
    refine ⟨_, _, rfl, fun i y hy => ?_⟩
    exact (Store.content_pushFrame_self _ y).trans (lookup_newVariables_getD args _ hnodup hy)
  · rintro n env inner args s s1 s2 s3 e c before after rfl hbind hbefore hfail
    rw [hrun, Run.bind_ok hbind, applyChecks_append, bind_assoc, Run.bind_ok hbefore, applyChecks, bind_assoc,
      Run.bind_error hfail]

end Target.Scoping

open Machine

/-- A function with annotated parameters is compiled to a definition that makes one check for each annotation, in
their order, before the body runs with its own checks. -/
theorem parameters_checked_first {ctx : Instrument.Context} {loc bodyLoc : Loc} {params : List String} {isVararg : Bool}
    {body : List TypedLua.Stmt} {types : List Annotation} {returnType : Option TypedLua.Expr} {label : Option String}
    {st st' : Instrument.State} {f : Function} {p : Scoping.Place} {d : Def} {given : List String}
    (hrun : Instrument.function ctx (.mk loc params isVararg (.mk bodyLoc body) types returnType label) st =
      .ok (f, st'))
    (hcode : FunctionCode p f d given) (hnames : ∀ a ∈ types, Parser.annotated a ∈ params) (hnodup : given.Nodup) :
    ∃ ps result body' ctx' st1 st2 q checks rest taken, List.Forall₂ (Compiles ctx.registry) types ps ∧
      Instrument.stmts { ctx.nested (params.map (·, none) ++ ps.map fun a => (a.1, some a.2)) with result }
        body st1 = .ok ((body', ctx'), st2) ∧
      List.Forall₂ (EntryCode ((p.inside d false).declareAll (params.zip d.params)) (params.zip d.params)) ps checks ∧
      StmtsCode ((p.inside d false).declareAll (params.zip d.params)) body' rest q taken ∧
      ChecksFirst d checks rest := by
  obtain ⟨ps, st1, hps, hrun⟩ := bind_ok hrun
  obtain ⟨result, st2, hresult, hrun⟩ := bind_ok hrun
  obtain ⟨⟨body', ctx1⟩, st3, hbody, hrun⟩ := bind_ok hrun
  obtain ⟨checks, st4, hchecks, hrun⟩ := bind_ok hrun
  cases hrun
  -- To make the checks takes no names, so nothing is left of that step but the statements.
  cases hchecks
  have hcompiles := predicates_ok hps
  have hmem : ∀ a ∈ ps, a.1 ∈ params := by
    intro a ha
    obtain ⟨type, htype, -⟩ := Compiles.source hcompiles a ha
    exact hnames _ htype
  cases hcode with
  | @mk _ q _ _ _ _ _ _ _ _ name names nonlocals code taken hlength hcode houter =>
    -- The parameters are declared under the first of the given names, so the body is given other ones.
    have hfst : (params.zip names).map (·.1) = params := List.map_fst_zip (Nat.le_of_eq hlength.symm)
    have hsnd : (params.zip names).map (·.2) = names := List.map_snd_zip (Nat.le_of_eq hlength)
    obtain ⟨hparams, -, hapart⟩ := List.nodup_append.1 hnodup
    obtain ⟨checks, rest, taken, hchecks, hrest, hfirst⟩ := StmtsCode.entry_inv hcode
      (fun a ha => hfst.symm ▸ hmem a ha) fun y hy hmem => hapart y (hsnd ▸ hy) y hmem rfl
    refine ⟨ps, result, body', ctx1, st2, st3, q, checks, rest, taken, hcompiles, hbody, hchecks, hrest, ?_⟩
    -- An empty body is filled up with a statement that does nothing.
    exact checksFirst_of_run hparams fun n env => (execStmts_filled _ _ code).trans (hfirst n env)

def checkedFunction : TypedLua.Function :=
  .mk none ["x", "y"] false (.mk none []) [.mk "x" (.name none "number"), .mk "y" (.name none "string")] none none

def checkingFunction : TypedLua.Function :=
  .mk none ["x", "y"] false (.mk none (entryChecks none [("x", Annotation.registryEntry "types" none "number"),
    ("y", Annotation.registryEntry "types" none "string")])) [] none none

def registryCheck (entry x : String) : Target.Stmt :=
  .run (.call (.index (.global "types") (.string entry)) [.var x] none)

def checkedDef : Def := .mk "f" ["x", "y"] .ignored [] [registryCheck "number" "x", registryCheck "string" "y"]

theorem registryCheck_code {p : Scoping.Place} {d : Decl} (htypes : p.find "types" = none)
    (hfind : p.find d.name = some d) (hreach : p.Reaches d) :
    StmtCode p (Check.asStatement ( Annotation.registryEntry "types" none entry) (.name none d.name))
      [registryCheck entry d.name] p [] :=
  .expr (.call (.index (.global htypes) .string) (.last (.variable hfind hreach)))

theorem checkedDef_code : FunctionCode ⟨[chunkDef []], [], 0, false⟩ checkingFunction checkedDef ["x", "y"] := by
  have hreach {x : String} (hx : x ∈ ["x", "y"]) : resolve [checkedDef, chunkDef []] x = [checkedDef, chunkDef []] :=
    resolve_cons_of_owns ((checkedDef.owns_iff x).2 (Or.inl hx))
  let inner := (Place.inside ⟨[chunkDef []], [], 0, false⟩ checkedDef false).declareAll [("x", "x"), ("y", "y")]
  have hx : StmtCode inner _ [registryCheck "number" "x"] inner [] :=
    registryCheck_code (d := ⟨"x", "x", [checkedDef, chunkDef []]⟩) rfl rfl (hreach (by simp))
  have hy : StmtCode inner _ [registryCheck "string" "y"] inner [] :=
    registryCheck_code (d := ⟨"y", "y", [checkedDef, chunkDef []]⟩) rfl rfl (hreach (by simp))
  have houter : LeavesOuter ⟨[chunkDef []], [], 0, false⟩ checkedDef ["x", "y"] :=
    ⟨List.nodup_nil, fun z => ⟨(fun h => by cases h), (fun h => by cases h.1)⟩, fun z h => by cases h⟩
  have hbody : StmtsCode inner _ [registryCheck "number" "x", registryCheck "string" "y"] inner [] :=
    .cons hx (.cons hy .nil)
  exact @FunctionCode.mk _ _ _ _ ["x", "y"] false none _ [] none none "f" ["x", "y"] []
    [registryCheck "number" "x", registryCheck "string" "y"] [] rfl hbody houter

theorem parameters_checked_first_two : ∃ checks rest, checks.map EntryCheck.param = ["x", "y"] ∧
    ChecksFirst checkedDef checks rest := by
  have hrun : Instrument.function ⟨"types", none, []⟩ checkedFunction ⟨.new "_tmp" [], 0⟩ =
      .ok (checkingFunction, ⟨.new "_tmp" [], 2⟩) := rfl
  obtain ⟨ps, -, -, -, -, -, -, checks, rest, -, hps, -, hchecks, -, hfirst⟩ :=
    parameters_checked_first hrun checkedDef_code (by decide) (by decide)
  refine ⟨checks, rest, ?_, hfirst⟩
  cases hps with
  | cons hx hps =>
    cases hps with
    | cons hy hps =>
      cases hps
      cases hchecks with
      | cons hc hchecks =>
        cases hchecks with
        | cons hc' hchecks =>
          cases hchecks
          have hfirst := hc.param
          have hsecond := hc'.param
          rw [← hx.1] at hfirst
          rw [← hy.1] at hsecond
          rw [List.map_cons, List.map_cons, ← Option.some.inj hfirst, ← Option.some.inj hsecond]
          rfl

end TypedLua
