import TypedLua.Proofs.Checking.Guards
import TypedLua.Proofs.Parsing.Results
import TypedLua.Proofs.Scoping.Generation

/-!
# The scopes of checks are the scopes of code

The pass that inserts checks and the generator of code each keep track of scopes on their own.
-/

namespace TypedLua.Target.Scoping

open Instrument

def ExprAgreeable (registry : String) (ctx : Context) (e e' : TypedLua.Expr) : Prop :=
  ∀ ⦃s code call given⦄, Knows registry ctx s → ExprCode s.place e' code call given → ExprAgrees registry s e e' code

/-- What the pass makes of statements agrees with their code, and so does what it knows behind them. -/
def StmtsAgreeable (registry : String) (ctx : Context) (ss : List TypedLua.Stmt)
    (r : List TypedLua.Stmt × Context) : Prop :=
  ∀ ⦃s code p given⦄, Knows registry ctx s → StmtsCode s.place r.1 code p given →
    ∃ s', StmtsAgree registry s ss r.1 code s' ∧ s'.place = p ∧ Knows registry r.2 s'

def BlockAgreeable (registry : String) (ctx : Context) (b b' : TypedLua.Block) : Prop :=
  ∃ loc ss ss' ctx', b = .mk loc ss ∧ b' = .mk loc ss' ∧ StmtsAgreeable registry (ctx.nested []) ss (ss', ctx')

def RestAgreeable (registry : String) (ctx : Context) (cs : List Clause) (final : Option TypedLua.Block)
    (cs' : List Clause) (final' : Option TypedLua.Block) : Prop :=
  ∀ ⦃s other given⦄, Knows registry ctx s → OrElseCode s.place cs' final' other given →
    OrElseAgrees registry s cs final cs' final' other

variable {registry : String} {ctx ctx' : Context} {st st' : State} {s : Site} {loc : Loc}

/-! ## Parts of statements -/

variable {ss ss' : List TypedLua.Stmt} {code : List Stmt} {p p' : Place} {given names : List String}
  {types : List Annotation} {values targets : List TypedLua.Expr}

theorem BlockAgreeable.agrees {b b' : TypedLua.Block} (h : BlockAgreeable registry ctx b b')
    (hknows : Knows registry ctx s) (hcode : BlockCode s.place b' suite given) :
    BlockAgrees registry s b b' suite := by
  obtain ⟨bloc, ss, ss', ctx', rfl, rfl, hss⟩ := h
  cases hcode with
  | mk h =>
    obtain ⟨s', hagree, -, -⟩ := hss hknows.nested h
    exact .mk hagree

theorem loop_agrees {fresh : List String} {until? until?' : Option TypedLua.Expr}
    (hround : ∀ ⦃s code given⦄, Knows registry ctx s → RoundCode s.place ss' until?' code given →
      RoundAgrees registry s ss until? ss' until?' code) (hknows : Knows registry ctx s)
    (hlen : fresh.length = names.length) (hnames : ∀ x ∈ names, s.predicate x = none)
    (hcode : LoopCode s.place (names.zip fresh) ss' until?' suite given) :
    LoopAgrees registry s (names.zip fresh) ss until? ss' until?' suite := by
  cases hcode with
  | inline _ h => exact .inline (hround hknows.inLoop h)
  | iteration _ _ h _ =>
    rw [show (s.place.inside _ true) = (s.inside _ true).place from rfl, ← Site.place_declareAll] at h
    exact .iteration (hround (hknows.again hlen hnames _) h)

theorem plainRound_agrees (hss : StmtsAgreeable registry (ctx.nested []) ss (ss', ctx')) ⦃s : Site⦄
    ⦃code : List Stmt⦄ ⦃given : List String⦄ (hknows : Knows registry ctx s)
    (hcode : RoundCode s.place ss' none code given) : RoundAgrees registry s ss none ss' none code := by
  cases hcode with
  | plain h =>
    obtain ⟨s', hagree, -, -⟩ := hss hknows.nested h
    exact .plain hagree

theorem StmtsCode.append_inv (h : StmtsCode p (ss ++ ss') code p' given) :
    ∃ mid code1 code2 given1 given2, code = code1 ++ code2 ∧ StmtsCode p ss code1 mid given1 ∧
      StmtsCode mid ss' code2 p' given2 := by
  induction ss generalizing p code given with
  | nil => exact ⟨p, [], code, [], given, rfl, .nil, h⟩
  | cons stmt ss ih =>
    cases h with
    | cons hhead htail =>
      obtain ⟨mid, code1, code2, given1, given2, rfl, hss, hss'⟩ := ih htail
      exact ⟨mid, _, code2, _, given2, (List.append_assoc ..).symm, .cons hhead hss, hss'⟩

theorem entryChecks_code {ps : List (String × TypedLua.Expr)} (hps : ∀ q ∈ ps, Codeless q.2)
    (h : StmtsCode p (entryChecks loc ps) code p' given) : p' = p ∧ ∀ c ∈ code, ∃ call, c = Stmt.run call := by
  induction ps generalizing code given with
  | nil =>
    cases h
    exact ⟨rfl, List.forall_mem_nil _⟩
  | cons q ps ih =>
    obtain ⟨hq, hps⟩ := List.forall_mem_cons.1 hps
    cases h with
    | cons hhead htail =>
      cases hhead with
      | expr hcall =>
        obtain ⟨rfl, hrest⟩ := ih hps htail
        have hcodeless : Codeless (.call loc q.2 [.name loc q.1]) :=
          congruent_codeless.call _ _ _ hq (by simpa using congruent_codeless.name loc q.1)
        rw [hcodeless hcall]
        refine ⟨rfl, ?_⟩
        intro c hc
        rcases List.mem_cons.1 hc with rfl | hc
        · exact ⟨_, rfl⟩
        · exact hrest c hc

theorem compiles_mem {ps : List (String × TypedLua.Expr)}
    (h : List.Forall₂ (Compiles registry) types ps) (htypes : ∀ a ∈ types, a.Written names) :
    ∀ q ∈ ps, q.1 ∈ names ∧ Codeless q.2 := by
  intro q hq
  obtain ⟨type, hmem, hcomp⟩ := Compiles.source h q hq
  have htype : Parser.Lasting Codeless type := (htypes _ hmem).2 _ congruent_codeless
  exact ⟨(htypes _ hmem).1, htype.2 _ _ _ hcomp⟩

/-- The code of a declaration: what stands in front of its values, and one statement that assigns fresh
variables. -/
theorem StmtCode.localVars_inv (h : StmtCode p (.localVars loc names values types) code p' given) :
    ∃ hoists bind fresh, code = hoists ++ [bind] ∧ Hoisted p values hoists ∧ assigned bind = fresh ∧
      fresh.length = names.length ∧ p' = p.declareAll (names.zip fresh) := by
  cases h with
  | localNull hlen _ => exact ⟨[], .assignNull given, given, rfl, .nil, rfl, hlen, rfl⟩
  | @localOne _ _ _ _ _ name _ call _ h _ =>
    exact ⟨_, .assign name (Generate.cut call), [name], rfl, .one h, rfl, rfl, rfl⟩
  | @localMany _ _ _ _ _ fresh _ list _ _ _ hlen h _ =>
    refine ⟨_, _, fresh, rfl, .ofListCode h, ?_, hlen, rfl⟩
    cases Generate.toAdjusted names.length values list <;> rfl

theorem target_agrees {target target' : TypedLua.Expr} (htarget : ExprAgreeable registry ctx target target')
    (hknows : Knows registry ctx s) (hcode : TargetCode s.place target' value code given) :
    TargetAgrees registry s target target' code ∧ s.targetPredicate target' = s.targetPredicate target := by
  cases hcode with
  | global hfind =>
    have hagrees := htarget hknows (ExprCode.global hfind)
    cases hagrees
    rw [Site.find_place, Option.map_eq_none_iff] at hfind
    exact ⟨.global hfind, rfl⟩
  | «variable» hfind hreach =>
    have hagrees := htarget hknows (ExprCode.variable hfind hreach)
    cases hagrees
    rw [Site.find_place, Option.map_eq_some_iff] at hfind
    obtain ⟨⟨d, known⟩, hfind, rfl⟩ := hfind
    exact ⟨.variable hfind hreach, rfl⟩
  | @index _ _ _ _ _ code1 _ _ code2 _ _ hobj hkey =>
    have hagrees := htarget hknows (ExprCode.index hobj hkey)
    generalize hparts : code1 ++ code2 = parts at hagrees
    cases hagrees with
    | index hobj' hkey' =>
      rw [← List.append_assoc, hparts, List.append_assoc]
      exact ⟨.index hobj' hkey', rfl⟩

inductive Assigning (p : Place) : List TypedLua.Expr → List Stmt → Prop
  | nil : Assigning p [] []
  | cons {target targets value code1 given code2} (hhead : TargetCode p target value code1 given)
      (htail : Assigning p targets code2) : Assigning p (target :: targets) (code1 ++ code2)

theorem Assigning.one {target : TypedLua.Expr}
    (h : TargetCode p target value code given) : Assigning p [target] code := by
  have hone := Assigning.cons h .nil
  rw [List.append_nil] at hone
  exact hone

theorem Assigning.ofTargetsCode (h : TargetsCode p targets temps code given) : Assigning p targets code := by
  induction targets generalizing temps code given with
  | nil =>
    cases h
    exact .nil
  | cons target targets ih =>
    cases h with
    | cons hhead htail => exact .cons hhead (ih htail)

/-- The code of an assignment: what stands in front of its values, at most one statement that takes them
all, and the assignments to its targets. -/
theorem StmtCode.assign_inv (h : StmtCode p (.assign loc targets values) code p' given) :
    ∃ hoists adjust rest, code = hoists ++ (adjust ++ rest) ∧ Hoisted p values hoists ∧
      (∀ c ∈ adjust, (assigned c).length = targets.length) ∧ Assigning p targets rest ∧ p' = p := by
  cases h with
  | assignOne hval htarget => exact ⟨_, [], _, rfl, .one hval, List.forall_mem_nil _, .one htarget, rfl⟩
  | @assignMany _ _ _ _ temps _ list _ _ _ _ htemps _ hlist htargets =>
    refine ⟨_, [_], _, rfl, .ofListCode hlist, ?_, .ofTargetsCode htargets, rfl⟩
    intro c hc
    rw [List.mem_singleton.1 hc, ← htemps]
    cases Generate.toAdjusted temps.length values list <;> rfl

theorem StmtCode.returnValues_inv (h : StmtCode p (.returnValues loc values) code p' given) :
    ∃ hoists answer, code = hoists ++ [.answer p.inIteration answer] ∧ Hoisted p values hoists ∧ p' = p := by
  cases h with
  | returnNone => exact ⟨[], _, rfl, .nil, rfl⟩
  | returnOne h => exact ⟨_, _, rfl, .one h, rfl⟩
  | returnMany h => exact ⟨_, _, rfl, .ofListCode h, rfl⟩

/-! ## Trees -/

mutual

theorem expr_agrees : ∀ e : TypedLua.Expr, e.Written → ∀ ctx, Yields (expr ctx e) (ExprAgreeable registry ctx e)
  | .nil _, _, _ => .pure fun _ _ _ _ _ hcode => by cases hcode; exact .nil
  | .bool .., _, _ => .pure fun _ _ _ _ _ hcode => by cases hcode; exact .bool
  | .number .., _, _ => .pure fun _ _ _ _ _ hcode => by cases hcode; exact .number
  | .string .., _, _ => .pure fun _ _ _ _ _ hcode => by cases hcode; exact .string
  | .vararg _, _, _ => .pure fun _ _ _ _ _ hcode => by cases hcode; exact .vararg
  | .name .., _, _ => .pure fun _ _ _ _ _ hcode => by cases hcode <;> exact .name
  | .signature .., _, _ => .pure fun _ _ _ _ _ hcode => by cases hcode
  | .function f, hw, ctx => (function_agrees f hw ctx).bind fun _ hf => .pure fun _ _ _ _ hknows hcode => by
    cases hcode with
    | function hholds hdef => exact .function (hf hknows hdef)
  | .table _ fields, hw, ctx => (fields_agree fields hw ctx).bind fun _ hfields =>
      .pure fun _ _ _ _ hknows hcode => by
    cases hcode with
    | table hitems => exact .table (hfields hknows hitems)
  | .binary _ left _ right, hw, ctx => (expr_agrees left hw.1 ctx).bind fun _ hl =>
      (expr_agrees right hw.2 ctx).bind fun _ hr => .pure fun _ _ _ _ hknows hcode => by
    cases hcode with
    | binary _ hleft hright => exact .binary (hl hknows hleft) (hr hknows hright)
    | andThen _ hleft hright => exact .binary (hl hknows hleft) (hr hknows hright)
    | orElse _ hleft hright => exact .binary (hl hknows hleft) (hr hknows hright)
  | .unary _ _ operand, hw, ctx => (expr_agrees operand hw ctx).bind fun _ ho => .pure fun _ _ _ _ hknows hcode => by
    cases hcode with
    | negation h => exact .unary (ho hknows h)
    | length h => exact .unary (ho hknows h)
    | minus h => exact .unary (ho hknows h)
  | .call _ callee args, hw, ctx => (expr_agrees callee hw.1 ctx).bind fun _ hc =>
      (exprs_agree args hw.2 ctx).bind fun _ has => .pure fun _ _ _ _ hknows hcode => by
    cases hcode with
    | call hcallee hargs => exact .call (hc hknows hcallee) (has hknows (.ofListCode hargs))
  | .method _ object _ args, hw, ctx => (expr_agrees object hw.1 ctx).bind fun _ ho =>
      (exprs_agree args hw.2 ctx).bind fun _ has => .pure fun _ _ _ _ hknows hcode => by
    cases hcode with
    | method hobj hargs => exact .method (ho hknows hobj) (has hknows (.ofListCode hargs))
  | .index _ object key, hw, ctx => (expr_agrees object hw.1 ctx).bind fun _ ho =>
      (expr_agrees key hw.2 ctx).bind fun _ hk => .pure fun _ _ _ _ hknows hcode => by
    cases hcode with
    | index hobj hkey => exact .index (ho hknows hobj) (hk hknows hkey)
  | .paren _ inner, hw, ctx => (expr_agrees inner hw ctx).bind fun _ hi => .pure fun _ _ _ _ hknows hcode => by
    cases hcode with
    | paren h => exact .paren (hi hknows h)
  | .block .., hw, _ => hw.elim

theorem exprs_agree : ∀ es : List TypedLua.Expr, exprsWritten es → ∀ ctx,
    Yields (exprs ctx es) fun es' => ∀ ⦃s code⦄, Knows registry ctx s → Hoisted s.place es' code →
      ExprsAgree registry s es es' code
  | [], _, _ => .pure fun _ _ _ hcode => by cases hcode; exact .nil
  | e :: es, hw, ctx => (expr_agrees e hw.1 ctx).bind fun _ he => (exprs_agree es hw.2 ctx).bind fun _ hes =>
      .pure fun _ _ hknows hcode => by
    cases hcode with
    | cons hhead htail => exact .cons (he hknows hhead) (hes hknows htail)

theorem targets_agree : ∀ targets : List TypedLua.Expr, exprsWritten targets → ∀ ctx,
    Yields (exprs ctx targets) fun targets' => targets'.length = targets.length ∧
      ∀ ⦃s code⦄, Knows registry ctx s → Assigning s.place targets' code →
        TargetsAgree registry s targets targets' code ∧ targets'.map s.targetPredicate = targets.map s.targetPredicate
  | [], _, _ => .pure ⟨rfl, fun _ _ _ hcode => by cases hcode; exact ⟨.nil, rfl⟩⟩
  | target :: targets, hw, ctx => (expr_agrees target hw.1 ctx).bind fun _ htarget =>
      (targets_agree targets hw.2 ctx).bind fun _ htargets => .pure ⟨congrArg (· + 1) htargets.1, by
    intro s _ hknows hcode
    cases hcode with
    | cons hhead htail =>
      obtain ⟨hagrees, hpred⟩ := target_agrees htarget hknows hhead
      obtain ⟨hagree, hpredicates⟩ := htargets.2 hknows htail
      exact ⟨.cons hagrees hagree, by rw [List.map_cons, List.map_cons, hpred, hpredicates]⟩⟩

theorem option_agrees : ∀ e? : Option TypedLua.Expr, optionWritten e? → ∀ ctx,
    Yields (exprOption ctx e?) fun e?' => ∀ ⦃s code step given⦄, Knows registry ctx s →
      StepCode s.place e?' code step given → OptionAgrees registry s e? e?' code
  | none, _, _ => .pure fun _ _ _ _ _ hcode => by cases hcode; exact .none
  | some e, hw, ctx => (expr_agrees e hw ctx).bind fun _ he => .pure fun _ _ _ _ hknows hcode => by
    cases hcode with
    | some h => exact .some (he hknows h)

theorem fields_agree : ∀ fields : List Field, fieldsWritten fields → ∀ ctx,
    Yields (tableFields ctx fields) fun fields' => ∀ ⦃s code list given⦄, Knows registry ctx s →
      ItemsCode s.place fields' code list given → FieldsAgree registry s fields fields' code
  | [], _, _ => .pure fun _ _ _ _ _ hcode => by cases hcode; exact .nil
  | .mk loc none value :: fields, hw, ctx => (expr_agrees value hw.2.1 ctx).bind fun value' hv =>
      (fields_agree fields hw.2.2 ctx).bind fun _ hfields => .pure fun s code _ _ hknows hcode => by
    cases hcode with
    | last hval =>
      -- nothing is left of the fields behind the last one, so there were none
      have hrest := hfields hknows .nil
      have hone : FieldsAgree registry s (.mk loc none value :: fields) [.mk loc none value'] ([] ++ code ++ []) :=
        .cons .none (hv hknows hval) hrest
      rwa [List.nil_append, List.append_nil] at hone
    | positional hval htail => exact .cons .none (hv hknows hval) (hfields hknows htail)
  | .mk _ (some key) value :: fields, hw, ctx => (expr_agrees value hw.2.1 ctx).bind fun _ hv =>
      Yields.bind (P := fun key' => ∃ k', key' = some k' ∧ ExprAgreeable registry ctx key k')
        ((expr_agrees key hw.1 ctx).bind fun k' hk => .pure ⟨k', rfl, hk⟩) fun _ hkey =>
      (fields_agree fields hw.2.2 ctx).bind fun _ hfields => .pure fun s _ _ _ hknows hcode => by
    obtain ⟨k', rfl, hk⟩ := hkey
    cases hcode with
    | keyed hkey hval htail => exact .cons (.some (hk hknows hkey)) (hv hknows hval) (hfields hknows htail)

theorem function_agrees : ∀ f : TypedLua.Function, f.Written → ∀ ctx,
    Yields (function ctx f) fun f' => ∀ ⦃s d given⦄, Knows registry ctx s →
      FunctionCode s.place f' d given → FunctionAgrees registry s f f' d
  | .mk loc params isVararg (.mk bodyLoc ss) types returnType label, hw, ctx => by
    intro st f' st' hrun s d given hknows hcode
    obtain ⟨ps, st1, hps, hrun⟩ := bind_ok hrun
    obtain ⟨result, st2, hres, hrun⟩ := bind_ok hrun
    obtain ⟨⟨ss', ctx1⟩, st3, hss', hrun⟩ := bind_ok hrun
    obtain ⟨checks, st4, hchecks, hrun⟩ := bind_ok hrun
    cases hrun
    have hcompiles := predicates_ok hps
    have hcompilesResult := predicate?_ok hres
    rw [hknows.registry] at hcompiles hcompilesResult
    have hmem := compiles_mem hcompiles hw.2.1
    have hresultCodeless : ∀ q ∈ result, Codeless q := by
      intro q hq
      cases returnType with
      | none => rw [show result = none from hcompilesResult] at hq; cases hq
      | some type =>
        obtain ⟨p, rfl, hp⟩ := hcompilesResult
        cases hq
        exact (hw.2.2 type rfl _ congruent_codeless).2 _ _ _ hp
    cases hchecks
    cases hcode with
    | mk hlen hbodyCode houter =>
      obtain ⟨mid, entry, code, given1, given2, rfl, hentry, hcode⟩ := hbodyCode.append_inv
      obtain ⟨rfl, hruns⟩ := entryChecks_code (fun q hq => (hmem q hq).2) hentry
      have hsite (d : Def) := ((hknows.inside d false).declareAll hmem hlen fun x =>
        Scopes.lookup_nested _ _ x).returning hresultCodeless
      have hplace (d : Def) := Site.place_declareAll (s.inside d false) (lastOf ps)
      obtain ⟨s', hagree, -, -⟩ := stmts_agree ss hw.1 _ hss' (hsite _) ((hplace _ _).symm ▸ hcode)
      exact .mk hcompiles hcompilesResult hlen hruns hagree

theorem block_agrees : ∀ b : TypedLua.Block, b.Written → ∀ ctx, Yields (block ctx b) (BlockAgreeable registry ctx b)
  | .mk loc ss, hw, _ => (stmts_agree ss hw _).bind fun r hss => .pure ⟨loc, ss, r.1, r.2, rfl, rfl, hss⟩

theorem otherwise_agrees : ∀ b? : Option TypedLua.Block, otherwiseWritten b? → ∀ ctx,
    Yields (blockOption ctx b?) fun b?' => RestAgreeable registry ctx [] b? [] b?'
  | none, _, _ => .pure fun _ _ _ _ hcode => by cases hcode; exact .none
  | some b, hw, ctx => (block_agrees b hw ctx).bind fun _ hb => .pure fun _ _ _ hknows hcode => by
    cases hcode with
    | empty =>
      obtain ⟨bloc, ss, ss', ctx', rfl, heq, hss⟩ := hb
      cases heq
      obtain ⟨s', hagree, -, -⟩ := hss hknows.nested .nil
      cases hagree
      exact .empty
    | otherwise h => exact .otherwise (hb.agrees hknows h)

theorem clauses_agree : ∀ cs : List Clause, clausesWritten cs → ∀ ctx,
    Yields (clauses ctx cs) fun cs' => ∀ ⦃final final'⦄, RestAgreeable registry ctx [] final [] final' →
      RestAgreeable registry ctx cs final cs' final'
  | [], _, _ => .pure fun _ _ hfinal => hfinal
  | .mk condition body :: cs, hw, ctx => (expr_agrees condition hw.1 ctx).bind fun _ hc =>
      (block_agrees body hw.2.1 ctx).bind fun _ hbody => (clauses_agree cs hw.2.2 ctx).bind fun _ hcs =>
      .pure fun _ _ hfinal _ _ _ hknows hcode => by
    cases hcode with
    | elseIf hcond hsuite htail =>
      exact .elseIf (hc hknows hcond) (hbody.agrees hknows hsuite) (hcs hfinal hknows htail)
    | hoisted hcond hsuite htail =>
      exact .hoisted (hc hknows hcond) (hbody.agrees hknows hsuite) (hcs hfinal hknows htail)

theorem stmts_agree : ∀ ss : List TypedLua.Stmt, stmtsWritten ss → ∀ ctx,
    Yields (Instrument.stmts ctx ss) (StmtsAgreeable registry ctx ss)
  | [], _, _ => .pure fun s _ _ _ hknows hcode => by
    cases hcode
    exact ⟨s, .nil, rfl, hknows⟩
  | stmt :: ss, hw, ctx => (stmt_agrees stmt hw.1 ctx).bind fun r hstmt =>
      (stmts_agree ss hw.2 r.2).bind fun _ hss => .pure fun _ _ _ _ hknows hcode => by
    cases hcode with
    | cons hhead htail =>
      obtain ⟨s1, hagrees, rfl, hknows1⟩ := hstmt hknows hhead
      obtain ⟨s2, hrest, hplace, hknows2⟩ := hss hknows1 htail
      exact ⟨s2, .cons hagrees hrest, hplace, hknows2⟩

theorem stmt_agrees : ∀ stmt : TypedLua.Stmt, stmt.Written → ∀ ctx,
    Yields (Instrument.stmt ctx stmt) fun r => ∀ ⦃s code p given⦄, Knows registry ctx s →
      StmtCode s.place r.1 code p given →
        ∃ s', StmtAgrees registry s stmt r.1 code s' ∧ s'.place = p ∧ Knows registry r.2 s'
  | .localVars loc names values types, hw, ctx => (exprs_agree values hw.1 ctx).bind fun plain hvals => by
    intro st r st' hrun s code p given hknows hcode
    obtain ⟨ps, st2, hps, hrun⟩ := bind_ok hrun
    obtain ⟨guarded, st3, hguards, hrun⟩ := bind_ok hrun
    cases hrun
    have hcompiles := predicates_ok hps
    rw [hknows.registry] at hcompiles
    have hmem := compiles_mem hcompiles hw.2
    have hknown : ∀ x, (List.lookup x (Scope.ofBindings (bindings names ps))).join = lastOf ps x := by
      intro x
      rw [Scope.lookup_ofBindings, lookup_bindings]
      cases lastOf ps x with
      | none => by_cases hx : x ∈ names <;> simp [hx]
      | some p => rfl
    have hstart : Guarded (([] : List (Option TypedLua.Expr)).take plain.length) plain plain := by
      rw [List.take_nil]
      exact .refl plain
    have hguarded : Guarded ((names.map (lastOf ps)).take plain.length) plain guarded :=
      guardLocals_guarded hknown hstart hguards
    have hcodeless : ∀ q, some q ∈ (names.map (lastOf ps)).take plain.length → Codeless q := by
      intro q hq
      obtain ⟨x, -, hx⟩ := List.mem_map.1 (List.mem_of_mem_take hq)
      exact (hmem _ (List.mem_reverse.1 (Association.mem_of_lookup hx))).2
    obtain ⟨hoists, bind, fresh, rfl, hhoisted, hbind, hlen, rfl⟩ := hcode.localVars_inv
    have hagree := hvals hknows (hguarded.hoisted hcodeless hhoisted)
    refine ⟨_, .localVars hcompiles hagree hguarded hlen hbind, Site.place_declareAll .., ?_⟩
    exact hknows.declareAll hmem hlen fun x => Scopes.lookup_declareAll_ofBindings _ _ x
  | .localFunction _ x f, hw, ctx => (function_agrees f hw _).bind fun _ hf => .pure fun _ _ _ _ hknows hcode => by
    cases hcode with
    | @localFunction _ _ _ _ d _ hholds h =>
      have hsite := hknows.declare x d.name
      exact ⟨_, .localFunction (hf hsite h), rfl, hsite⟩
  | .assign _ targets values, hw, ctx => (targets_agree targets hw.1 ctx).bind fun targets' htargets =>
      (exprs_agree values hw.2.2 ctx).bind fun plain hvals => by
    intro st r st' hrun s code p given hknows hcode
    obtain ⟨guarded, st3, hguards, hrun⟩ := bind_ok hrun
    cases hrun
    have hguarded : Guarded (targets'.map s.targetPredicate) plain guarded :=
      guardTargets_guarded hknows (.refl plain) hguards
    have hcodeless : ∀ q, some q ∈ targets'.map s.targetPredicate → Codeless q := by
      intro q hq
      obtain ⟨target, -, htarget⟩ := List.mem_map.1 hq
      cases target with
      | name _ x => exact hknows.codeless x q htarget
      | _ => cases htarget
    obtain ⟨hoists, adjust, rest, rfl, hhoisted, hadjust, hassigning, rfl⟩ := hcode.assign_inv
    have hagree := hvals hknows (hguarded.hoisted hcodeless hhoisted)
    obtain ⟨htargetsAgree, hpredicates⟩ := htargets.2 hknows hassigning
    rw [hpredicates] at hguarded
    rw [htargets.1] at hadjust
    exact ⟨s, .assign hagree hguarded hadjust htargetsAgree, rfl, hknows⟩
  | .expr _ e, hw, ctx => (expr_agrees e hw ctx).bind fun _ he => .pure fun s _ _ _ hknows hcode => by
    cases hcode with
    | expr h => exact ⟨s, .expr (he hknows h), rfl, hknows⟩
  | .scope _ body, hw, ctx => (block_agrees body hw ctx).bind fun _ hbody => .pure fun s _ _ _ hknows hcode => by
    obtain ⟨bloc, ss, ss', ctx', rfl, rfl, hss⟩ := hbody
    cases hcode with
    | scope h =>
      obtain ⟨s', hagree, -, -⟩ := hss hknows.nested h
      exact ⟨s, .scope hagree, rfl, hknows⟩
  | .whileLoop _ condition body, hw, ctx => (expr_agrees condition hw.1 ctx).bind fun _ hc =>
      (block_agrees body hw.2 ctx).bind fun _ hbody => .pure fun s _ _ _ hknows hcode => by
    obtain ⟨bloc, ss, ss', ctx', rfl, rfl, hss⟩ := hbody
    cases hcode with
    | whileLoop hcond hloop =>
      have hagrees := loop_agrees (plainRound_agrees hss) hknows (rfl : [].length = [].length)
        (List.forall_mem_nil _) hloop
      exact ⟨s, .whileLoop (hc hknows hcond) hagrees, rfl, hknows⟩
  | .repeatLoop _ (.mk _ ss) condition, hw, ctx => (stmts_agree ss hw.1 _).bind fun r hss =>
      (expr_agrees condition hw.2 r.2).bind fun condition' hc => .pure fun s _ _ _ hknows hcode => by
    -- The condition is read behind the statements of the body, with what is known there.
    have hround : ∀ ⦃s code given⦄, Knows registry ctx s → RoundCode s.place r.1 (some condition') code given →
        RoundAgrees registry s ss (some condition) r.1 (some condition') code := by
      intro s code given hknows hcode
      cases hcode with
      | «until» h hcond =>
        obtain ⟨s', hagree, rfl, hknows'⟩ := hss hknows.nested h
        exact .until hagree (hc hknows' hcond)
    cases hcode with
    | repeatLoop h =>
      have hagrees := loop_agrees hround hknows (rfl : [].length = [].length) (List.forall_mem_nil _) h
      exact ⟨s, .repeatLoop hagrees, rfl, hknows⟩
  | .ifElse _ condition body cs final, hw, ctx => (expr_agrees condition hw.1 ctx).bind fun _ hc =>
      (block_agrees body hw.2.1 ctx).bind fun _ hbody => (clauses_agree cs hw.2.2.1 ctx).bind fun _ hcs =>
      (otherwise_agrees final hw.2.2.2 ctx).bind fun _ hfinal => .pure fun s _ _ _ hknows hcode => by
    cases hcode with
    | ifElse hcond hsuite htail =>
      exact ⟨s, .ifElse (hc hknows hcond) (hbody.agrees hknows hsuite) (hcs hfinal hknows htail), rfl, hknows⟩
  | .numericFor _ counter start stop step body, hw, ctx => (expr_agrees start hw.1 ctx).bind fun _ hstart =>
      (expr_agrees stop hw.2.1 ctx).bind fun _ hstop => (option_agrees step hw.2.2.1 ctx).bind fun _ hstep =>
      (block_agrees body hw.2.2.2 _).bind fun _ hbody => .pure fun s _ _ _ hknows hcode => by
    obtain ⟨bloc, ss, ss', ctx', rfl, rfl, hss⟩ := hbody
    cases hcode with
    | @numericFor _ _ _ _ _ _ _ _ name _ _ _ _ _ _ _ _ _ _ _ hstartCode hstopCode hstepCode hholds hloop =>
      have hlen : [name].length = [counter].length := rfl
      have hnames : ∀ x ∈ [counter], (s.declare counter name none).predicate x = none := by
        intro x hx
        rw [Site.predicate_declare, if_pos (List.mem_singleton.1 hx)]
      have hagrees := loop_agrees (plainRound_agrees hss) (hknows.header hlen) hlen hnames hloop
      exact ⟨s, .numericFor (hstart hknows hstartCode) (hstop hknows hstopCode) (hstep hknows hstepCode)
        hagrees, rfl, hknows⟩
  | .genericFor _ names iterators body, hw, ctx => (exprs_agree iterators hw.1 ctx).bind fun _ hiters =>
      (block_agrees body hw.2 _).bind fun _ hbody => .pure fun s _ _ _ hknows hcode => by
    obtain ⟨bloc, ss, ss', ctx', rfl, rfl, hss⟩ := hbody
    cases hcode with
    | genericFor hlist hlen hholds hloop =>
      rw [← Site.place_declareAll s fun _ => none] at hloop
      have hagrees := loop_agrees (plainRound_agrees hss) (hknows.header hlen) hlen
        (fun x hx => by rw [Site.predicate_declareAll _ _ hlen, if_pos hx]) hloop
      exact ⟨s, .genericFor (hiters hknows (.ofListCode hlist)) hlen hagrees, rfl, hknows⟩
  | .returnValues loc values, hw, ctx => (exprs_agree values hw ctx).bind fun plain hvals => by
    intro st r st' hrun s code p given hknows hcode
    have hguarded : ∃ guarded, r = (.returnValues loc guarded, ctx) ∧ Guarded [s.result] plain guarded := by
      rw [hknows.result] at hrun
      cases hres : s.result with
      | none =>
        rw [hres] at hrun
        cases hrun
        exact ⟨plain, rfl, (Guarded.refl plain).skip⟩
      | some q =>
        rw [hres] at hrun
        obtain ⟨guarded, st2, hguards, hrun⟩ := bind_ok hrun
        cases hrun
        exact ⟨guarded, rfl, (Guarded.refl plain).check hguards⟩
    obtain ⟨guarded, rfl, hguarded⟩ := hguarded
    have hcodeless : ∀ q, some q ∈ [s.result] → Codeless q := fun q hq =>
      hknows.resultCodeless q (List.mem_singleton.1 hq).symm
    obtain ⟨hoists, answer, rfl, hhoisted, rfl⟩ := hcode.returnValues_inv
    exact ⟨s, .returnValues (hvals hknows (hguarded.hoisted hcodeless hhoisted)) hguarded, rfl, hknows⟩
  | .breakLoop _, _, _ => .pure fun s _ _ _ hknows hcode => by
    cases hcode
    exact ⟨s, .breakLoop, rfl, hknows⟩

end

/-! ## Chunks -/

theorem parse_agreeable {types : String} {tokens : List Token} {c : Chunk} (registry : String)
    (hparse : Parser.parse types tokens = .ok c) (ctx : Context) :
    Yields (block ctx c.body) (BlockAgreeable registry ctx c.body) :=
  block_agrees c.body (Parser.parse_written hparse) ctx

/-- The pass that inserts checks and the generator of code agree on scopes: in a chunk that is parsed, a
value assigned to a name is checked with the last annotation for it in the construct that declares the
variable which the code assigns. It is left alone if the code assigns a global, or a variable without
annotation. The first value that is returned is checked with the result type of the function around. -/
theorem instrument_agrees {types registry stem : String} {tokens : List Token} {c c' : Chunk}
    {checks : Nat} {m : Module} (hparse : Parser.parse types tokens = .ok c)
    (hchecks : Instrument.chunk registry stem c = .ok (c', checks)) (hmodule : generate c' = .ok m) :
    ModuleAgrees registry c c' m := by
  obtain ⟨given, ⟨code, p, hbody, hcode⟩, -, -⟩ := generate_moduleCode hmodule
  rw [Instrument.chunk] at hchecks
  split at hchecks
  · next body state hblock =>
    cases hchecks
    obtain ⟨bloc, ss, ss', ctx', hsource, rfl, hss⟩ := parse_agreeable registry hparse _ hblock
    have hknows : Knows registry ⟨registry, none, []⟩ ⟨[chunkDef m.body], [], 0, false, none⟩ :=
      ⟨rfl, rfl, fun _ => rfl, nofun, nofun⟩
    obtain ⟨s', hagree, -, -⟩ := hss hknows.nested hcode
    exact ⟨code, s', hbody, by rwa [hsource]⟩
  · cases hchecks

/-- A chunk with an outer and an inner `x`, where only the outer one has an annotation: ``` local x
:: boolean = true local function f(y :: string) :: boolean x, y = false local x x = g() return end
``` It gets five checks: of `true`, of the parameter, of `false`, of the nil for `y` and of the nil
that is returned. -/
def shadowingTokens : List Token :=
  ([.keyword .local_, .name "x", .symbol .doubleColon, .name "boolean", .symbol .assign, .keyword .true_,
    .keyword .local_, .keyword .function_, .name "f", .symbol .lparen, .name "y", .symbol .doubleColon,
    .name "string", .symbol .rparen, .symbol .doubleColon, .name "boolean",
    .name "x", .symbol .comma, .name "y", .symbol .assign, .keyword .false_,
    .keyword .local_, .name "x", .name "x", .symbol .assign, .name "g", .symbol .lparen, .symbol .rparen,
    .keyword .return_, .keyword .end_, .eof] : List Token.Kind).map (⟨·, .start⟩)

theorem instrument_agrees_shadowing : ∃ c c' m, Parser.parse "types" shadowingTokens = .ok c ∧
    Instrument.chunk "types" "_v" c = .ok (c', 5) ∧ generate c' = .ok m ∧ ModuleAgrees "types" c c' m := by
  have hstages : (Parser.parse "types" shadowingTokens).toOption.any (fun c =>
      (Instrument.chunk "types" "_v" c).toOption.any fun r =>
        r.2 == 5 && (generate r.1).toOption.any fun _ => true) = true := by decide +kernel
  obtain ⟨c, hc, hstages⟩ := exists_ok hstages
  obtain ⟨⟨c', checks⟩, hc', hstages⟩ := exists_ok hstages
  obtain ⟨hchecks, hstages⟩ := Bool.and_eq_true_iff.1 hstages
  obtain ⟨m, hm, -⟩ := exists_ok hstages
  obtain rfl : checks = 5 := eq_of_beq hchecks
  exact ⟨c, c', m, hc, hc', hm, instrument_agrees hc hc' hm⟩

end TypedLua.Target.Scoping
