import TypedLua.Proofs.Scoping.StmtSoundness

/-!
# Generated modules

The forms of statements one by one, and with them all expressions, functions and statements: whenever
a chunk has a module, the module respects scoping.
-/

namespace TypedLua.Target.Scoping

open Generate

variable [LoopForms] {loc : Loc}

/-! ## Declarations and assignments -/

theorem stmtEmits_localVars {values : List TypedLua.Expr} (hvals : ∀ e ∈ values, ExprEmits e) :
    StmtEmits (.localVars loc names values types) := by
  intro ctx ctx' st st' hr h
  by_cases hnil : values = []
  · subst hnil
    rw [stmt] at h
    obtain ⟨⟨fresh, ctx1⟩, st1, hdecl, h1⟩ := bind_ok h
    obtain ⟨_, st2, hemit, h2⟩ := bind_ok h1
    obtain ⟨rfl, rfl⟩ := pure_ok h2
    obtain ⟨hlen, -⟩ := declareAll_ok hdecl
    refine ⟨_, _, ((EmitsTo.declareAll hdecl).trans (Emits.emit hemit).stay).conv ?_ ?_⟩
    · simp [stmtsBound, Stmt.bound]
    · rintro p p'' - ⟨p', -, ⟨hholds, rfl⟩, rfl, -⟩
      rw [List.append_nil]
      exact .localNull hlen hholds
  · by_cases hone : names.length = 1 ∧ values.length = 1
    · obtain ⟨x, rfl⟩ := List.length_eq_one_iff.1 hone.1
      obtain ⟨value, rfl⟩ := List.length_eq_one_iff.1 hone.2
      rw [stmt] at h
      obtain ⟨call, st1, hval, h1⟩ := bind_ok h
      obtain ⟨⟨fresh, ctx1⟩, st2, hdecl, h2⟩ := bind_ok h1
      obtain ⟨_, st3, hemit, h3⟩ := bind_ok h2
      obtain ⟨rfl, rfl⟩ := pure_ok h3
      obtain ⟨code, given, e1⟩ := hvals value List.mem_cons_self hr hval
      refine ⟨_, _, (e1.stay.trans ((EmitsTo.declare hdecl).trans (Emits.emit hemit).stay)).conv ?_ ?_⟩
      · intro x
        simp only [stmtsBound_append, stmtsBound, Stmt.bound, cut_bound, List.append_nil,
          List.nil_append, List.mem_append, List.mem_cons, List.not_mem_nil, or_false]
        grind only
      · rintro p p'' - ⟨_, -, ⟨rfl, hcode⟩, p', -, ⟨hholds, rfl⟩, rfl, -⟩
        exact .localOne hcode hholds
    · rw [stmt.eq_3] at h
      · obtain ⟨list, st1, hlist, h1⟩ := bind_ok h
        obtain ⟨⟨fresh, ctx1⟩, st2, hdecl, h2⟩ := bind_ok h1
        obtain ⟨_, st3, hemit, h3⟩ := bind_ok h2
        obtain ⟨rfl, rfl⟩ := pure_ok h3
        obtain ⟨hlen, -⟩ := declareAll_ok hdecl
        obtain ⟨code, given, e1⟩ := exprList_emits hvals hr hlist
        refine ⟨_, _, (e1.stay.trans ((EmitsTo.declareAll hdecl).trans (Emits.emit hemit).stay)).conv ?_ ?_⟩
        · intro x
          simp only [stmtsBound_append, stmtsBound, adjusted_bound hlist, List.append_nil,
            List.nil_append, List.mem_append]
          grind only
        · rintro p p'' - ⟨_, -, ⟨rfl, hcode⟩, p', -, ⟨hholds, rfl⟩, rfl, -⟩
          rw [List.append_nil]
          exact .localMany hnil hone hlen hcode hholds
      · exact hnil
      · rintro x value rfl rfl
        exact hone ⟨rfl, rfl⟩

theorem stmtEmits_localFunction {f : TypedLua.Function} (hf : FunctionEmits f) :
    StmtEmits (.localFunction loc x f) := by
  intro ctx ctx' st st' hr h
  rw [stmt] at h
  obtain ⟨⟨fresh, ctx1⟩, st1, hdecl, h1⟩ := bind_ok h
  obtain ⟨_, st2, hfn, h2⟩ := bind_ok h1
  obtain ⟨rfl, rfl⟩ := pure_ok h2
  have e1 := EmitsTo.declare hdecl
  obtain ⟨d, given, rfl, e2⟩ := hf (e1.ready hr) hfn
  refine ⟨_, _, (e1.trans e2.stay).conv ?_ ?_⟩
  · simp [stmtsBound, Stmt.bound]
  · rintro p p'' - ⟨p', -, ⟨hholds, rfl⟩, rfl, hdef⟩
    exact .localFunction hholds hdef

theorem stmtEmits_assign {targets values : List TypedLua.Expr}
    (htargets : ∀ e ∈ targets, e.AllKeys ExprEmits) (hvals : ∀ e ∈ values, ExprEmits e) :
    StmtEmits (.assign loc targets values) := by
  intro ctx ctx' st st' hr h
  by_cases hone : targets.length = 1 ∧ values.length = 1
  · obtain ⟨target, rfl⟩ := List.length_eq_one_iff.1 hone.1
    obtain ⟨value, rfl⟩ := List.length_eq_one_iff.1 hone.2
    rw [stmt] at h
    obtain ⟨call, st1, hval, h1⟩ := bind_ok h
    obtain ⟨_, st2, hassign, h2⟩ := bind_ok h1
    obtain ⟨rfl, rfl⟩ := pure_ok h2
    obtain ⟨code1, given1, e1⟩ := hvals value List.mem_cons_self hr hval
    obtain ⟨code2, bound, given2, hbound, e2⟩ :=
      assignTo_emits (htargets target List.mem_cons_self) (e1.ready hr) hassign
    refine ⟨_, _, (e1.and e2).stay.conv ?_ ?_⟩
    · intro x
      simp only [stmtsBound_append, List.mem_append, hbound, cut_bound]
      grind only
    · rintro p p' - ⟨rfl, hcode, htarget⟩
      exact .assignOne hcode htarget
  · rw [stmt.eq_6] at h
    · obtain ⟨temps, st1, htemps, h1⟩ := bind_ok h
      obtain ⟨list, st2, hlist, h2⟩ := bind_ok h1
      obtain ⟨_, st3, hemit, h3⟩ := bind_ok h2
      obtain ⟨_, st4, heach, h4⟩ := bind_ok h3
      obtain ⟨rfl, rfl⟩ := pure_ok h4
      obtain ⟨hlen, e1⟩ := Emits.temporaries htemps
      obtain ⟨code2, given2, e2⟩ := exprList_emits hvals (e1.ready hr) hlist
      have e3 : Emits ctx st2 st3 _ [] [] fun _ => True := Emits.emit hemit
      obtain ⟨code4, given4, e4⟩ := assignEach_emits htargets hlen (e3.ready (e2.ready (e1.ready hr))) heach
      refine ⟨_, _, (e1.and (e2.and (e3.and e4))).stay.conv ?_ ?_⟩
      · intro x
        simp only [stmtsBound_append, stmtsBound, adjusted_bound hlist, List.append_nil,
          List.nil_append, List.mem_append]
        grind only
      · rintro p p' - ⟨rfl, hholds, hcode, -, htargets⟩
        exact .assignMany hone hlen hholds hcode htargets
    · rintro target value rfl rfl
      exact hone ⟨rfl, rfl⟩

/-! ## Calls, scopes, conditionals and ends -/

theorem stmtEmits_expr {e : TypedLua.Expr} (he : ExprEmits e) : StmtEmits (.expr loc e) := by
  intro ctx ctx' st st' hr h
  rw [stmt] at h
  obtain ⟨call, st1, hraw, h1⟩ := bind_ok h
  obtain ⟨_, st2, hemit, h2⟩ := bind_ok h1
  obtain ⟨rfl, rfl⟩ := pure_ok h2
  obtain ⟨code, given, e1⟩ := he hr hraw
  refine ⟨_, _, (e1.and (Emits.emit hemit)).stay.conv ?_ ?_⟩
  · simp [stmtsBound, Stmt.bound]
  · rintro p p' - ⟨rfl, hcode, -⟩
    rw [List.append_nil]
    exact .expr hcode

theorem stmtEmits_scope {b : TypedLua.Block} (hb : ∀ s ∈ b.stmts, StmtEmits s) : StmtEmits (.scope loc b) := by
  intro ctx ctx' st st' hr h
  obtain ⟨bodyLoc, ss⟩ := b
  rw [stmt] at h
  obtain ⟨inside, st1, hstmts, h1⟩ := bind_ok h
  obtain ⟨rfl, rfl⟩ := pure_ok h1
  obtain ⟨code, given, e⟩ := stmts_emits hb hr.nested hstmts
  refine ⟨code, given, e.nested.inner.stay.conv (fun _ => Iff.rfl) ?_⟩
  rintro p p' - ⟨rfl, p'', hss⟩
  exact .scope hss

theorem stmtEmits_ifElse {condition : TypedLua.Expr} {body : TypedLua.Block} {final : Option TypedLua.Block}
    (hcond : ExprEmits condition) (hbody : ∀ s ∈ body.stmts, StmtEmits s)
    (hclauses : ∀ c ∈ clauses, c.All ExprEmits StmtEmits) (hfinal : ∀ b ∈ final, ∀ s ∈ b.stmts, StmtEmits s) :
    StmtEmits (.ifElse loc condition body clauses final) := by
  intro ctx ctx' st st' hr h
  rw [stmt] at h
  obtain ⟨call, st1, hraw, h1⟩ := bind_ok h
  obtain ⟨suite, st2, hblock, h2⟩ := bind_ok h1
  obtain ⟨other, st3, hother, h3⟩ := bind_ok h2
  obtain ⟨_, st4, hemit, h4⟩ := bind_ok h3
  obtain ⟨rfl, rfl⟩ := pure_ok h4
  obtain ⟨code, given1, e1⟩ := hcond hr hraw
  have hr1 := e1.ready hr
  obtain ⟨given2, e2⟩ := blockSuite_emits hbody hr1 hblock
  obtain ⟨given3, e3⟩ := orElse_emits hfinal hclauses (e2.ready hr1) hother
  refine ⟨_, _, (e1.and (e2.and (e3.and (Emits.emit hemit)))).stay.conv ?_ ?_⟩
  · intro x
    simp only [stmtsBound_append, stmtsBound, Stmt.bound, toCond_bound, cut_bound, List.append_nil,
      List.nil_append, List.mem_append]
    grind only
  · rintro p p' - ⟨rfl, hcode, hsuite, hother, -⟩
    rw [List.append_nil]
    exact .ifElse hcode hsuite hother

theorem stmtEmits_returnValues {values : List TypedLua.Expr} (hvals : ∀ e ∈ values, ExprEmits e) :
    StmtEmits (.returnValues loc values) := by
  intro ctx ctx' st st' hr h
  match values, hvals, h with
  | [], _, h =>
    rw [stmt] at h
    obtain ⟨_, st1, hemit, h1⟩ := bind_ok h
    obtain ⟨rfl, rfl⟩ := pure_ok h1
    refine ⟨_, _, (Emits.emit hemit).stay.conv ?_ ?_⟩
    · simp [stmtsBound, Stmt.bound, Answer.bound, listBound, exprsBound, tailBound]
    · rintro p p' hp ⟨rfl, -⟩
      rw [← hp.inIteration]
      exact .returnNone
  | [e], hvals, h =>
    rw [stmt] at h
    obtain ⟨call, st1, hraw, h1⟩ := bind_ok h
    obtain ⟨_, st2, hemit, h2⟩ := bind_ok h1
    obtain ⟨rfl, rfl⟩ := pure_ok h2
    obtain ⟨code, given, e1⟩ := hvals e List.mem_cons_self hr hraw
    refine ⟨_, _, (e1.and (Emits.emit hemit)).stay.conv ?_ ?_⟩
    · simp [stmtsBound, Stmt.bound, Answer.bound]
    · rintro p p' hp ⟨rfl, hcode, -⟩
      rw [← hp.inIteration, List.append_nil]
      exact .returnOne hcode
  | e :: e' :: es, hvals, h =>
    rw [stmt.eq_16] at h
    · obtain ⟨list, st1, hlist, h1⟩ := bind_ok h
      obtain ⟨_, st2, hemit, h2⟩ := bind_ok h1
      obtain ⟨rfl, rfl⟩ := pure_ok h2
      obtain ⟨code, given, e1⟩ := exprList_emits hvals hr hlist
      refine ⟨_, _, (e1.and (Emits.emit hemit)).stay.conv ?_ ?_⟩
      · simp [stmtsBound, Stmt.bound, Answer.bound]
      · rintro p p' hp ⟨rfl, hcode, -⟩
        rw [← hp.inIteration, List.append_nil]
        exact .returnMany hcode
    · simp
    · simp

theorem stmtEmits_breakLoop : StmtEmits (.breakLoop loc) := by
  intro ctx ctx' st st' hr h
  rw [stmt] at h
  split at h
  · cases h
  · next hinside =>
    obtain ⟨_, st1, hemit, h1⟩ := bind_ok h
    obtain ⟨rfl, rfl⟩ := pure_ok h1
    refine ⟨_, _, (Emits.emit hemit).stay.conv ?_ ?_⟩
    · unfold breakStmt
      split <;> simp [stmtsBound, Stmt.bound]
    · rintro p p' hp ⟨rfl, -⟩
      rw [← hp.breakCode]
      refine .breakLoop ?_
      rw [hp.loops, hp.inIteration]
      by_cases hloops : ctx.loops = 0
      · exact Or.inr (by simpa [hloops] using hinside)
      · exact Or.inl hloops

/-! ## Loops -/

section Generated

variable [AdmitsGenerated]

theorem takes_plain (ss : List TypedLua.Stmt) : LoopForms.Takes (stmtsHaveFunction ss) ss none := by
  have htakes := AdmitsGenerated.takes ss none
  rwa [show (none : Option TypedLua.Expr).any (·.hasFunction) = false from rfl, Bool.or_false] at htakes

theorem stmtEmits_whileLoop {condition : TypedLua.Expr} {body : TypedLua.Block}
    (hcond : ExprEmits condition) (hbody : ∀ s ∈ body.stmts, StmtEmits s) :
    StmtEmits (.whileLoop loc condition body) := by
  intro ctx ctx' st st' hr h
  obtain ⟨bodyLoc, ss⟩ := body
  rw [stmt] at h
  obtain ⟨call, st1, hraw, h1⟩ := bind_ok h
  obtain ⟨suite, st2, hloop, h2⟩ := bind_ok h1
  obtain ⟨_, st3, hemit, h3⟩ := bind_ok h2
  obtain ⟨rfl, rfl⟩ := pure_ok h3
  obtain ⟨code, given1, e1⟩ := hcond hr hraw
  obtain ⟨given2, e2⟩ := loopSuite_emits (takes_plain ss) (round_plain hbody) (loopVars_nil ctx) (e1.ready hr) hloop
  refine ⟨_, _, (e1.and (e2.and (Emits.emit hemit))).stay.conv ?_ ?_⟩
  · simp [stmtsBound, Stmt.bound]
  · rintro p p' - ⟨rfl, hcode, hsuite, -⟩
    rw [List.append_nil]
    exact .whileLoop hcode hsuite

theorem stmtEmits_repeatLoop {condition : TypedLua.Expr} {body : TypedLua.Block}
    (hcond : ExprEmits condition) (hbody : ∀ s ∈ body.stmts, StmtEmits s) :
    StmtEmits (.repeatLoop loc body condition) := by
  intro ctx ctx' st st' hr h
  obtain ⟨bodyLoc, ss⟩ := body
  rw [stmt] at h
  obtain ⟨suite, st1, hloop, h1⟩ := bind_ok h
  obtain ⟨_, st2, hemit, h2⟩ := bind_ok h1
  obtain ⟨rfl, rfl⟩ := pure_ok h2
  obtain ⟨given, e⟩ := loopSuite_emits (AdmitsGenerated.takes ss (some condition))
      (round_until hbody hcond) (loopVars_nil ctx) hr hloop
  refine ⟨_, _, (e.and (Emits.emit hemit)).stay.conv ?_ ?_⟩
  · simp [stmtsBound, Stmt.bound]
  · rintro p p' - ⟨rfl, hsuite, -⟩
    rw [List.append_nil]
    exact .repeatLoop hsuite

omit [AdmitsGenerated] in
theorem step_emits {step : Option TypedLua.Expr} {behind : Option Expr → Gen Context} (h : (match step with
      | none => do
        let step ← pure none
        behind step
      | some e => do
        let call ← raw ctx e
        let step ← pure (some (cut call))
        behind step : Gen Context) st = .ok (ctx', st'))
    (hstep : ∀ e ∈ step, ExprEmits e) (hr : Ready ctx st) :
    ∃ step' st1 code given, Emits ctx st st1 code (stmtsBound code ++ exprsBound step'.toList) given
        (fun p => StepCode p step code step' given) ∧
      behind step' st1 = .ok (ctx', st') := by
  cases step with
  | none =>
    refine ⟨none, st, [], [], (Emits.refl ctx st).conv ?_ fun p _ _ => .none, h⟩
    simp [stmtsBound, exprsBound]
  | some e =>
    obtain ⟨call, st1, hraw, h1⟩ := bind_ok h
    obtain ⟨code, given, e1⟩ := hstep e rfl hr hraw
    refine ⟨some (cut call), st1, code, given, e1.conv ?_ fun p _ h => .some h, h1⟩
    simp [exprsBound]

theorem stmtEmits_numericFor {start stop : TypedLua.Expr} {step : Option TypedLua.Expr} {body : TypedLua.Block}
    (hstart : ExprEmits start) (hstop : ExprEmits stop) (hstep : ∀ e ∈ step, ExprEmits e)
    (hbody : ∀ s ∈ body.stmts, StmtEmits s) : StmtEmits (.numericFor loc counter start stop step body) := by
  intro ctx ctx' st st' hr h
  obtain ⟨bodyLoc, ss⟩ := body
  rw [stmt] at h
  obtain ⟨call1, st1, hraw1, h1⟩ := bind_ok h
  obtain ⟨call2, st2, hraw2, h2⟩ := bind_ok h1
  obtain ⟨code1, given1, e1⟩ := hstart hr hraw1
  have hr1 := e1.ready hr
  obtain ⟨code2, given2, e2⟩ := hstop hr1 hraw2
  have hr2 := e2.ready hr1
  obtain ⟨step', st3, code3, given3, e3, h3⟩ := step_emits h2 hstep hr2
  obtain ⟨⟨fresh, inner⟩, st4, hdecl, h4⟩ := bind_ok h3
  obtain ⟨suite, st5, hloop, h5⟩ := bind_ok h4
  obtain ⟨_, st6, hemit, h6⟩ := bind_ok h5
  obtain ⟨rfl, rfl⟩ := pure_ok h6
  have hr3 := (e3.ready hr2).nested
  have e4 := EmitsTo.declare hdecl
  have hvars : LoopVars inner [(counter, fresh)] := by
    obtain ⟨-, rfl⟩ := declare_ok hdecl
    have hfresh : ∀ x ∈ [(counter, fresh)].map (·.2), x ∉ st3.used := fun x hx => e4.piece.notMem_used hr3.fine hx
    exact LoopVars.declaringAll hr3.sound hfresh
  obtain ⟨given5, e5⟩ := loopSuite_emits (takes_plain ss) (round_plain hbody) hvars (e4.ready hr3) hloop
  have e6 := (e4.trans (e5.and (Emits.emit hemit)).stay).nested.inner
  refine ⟨_, _, (e1.and (e2.and (e3.and e6))).stay.conv ?_ ?_⟩
  · intro x
    simp only [stmtsBound_append, stmtsBound, Stmt.bound, cut_bound, List.append_nil,
      List.nil_append, List.mem_append, List.mem_cons, List.not_mem_nil, or_false]
    grind only
  · rintro p p' - ⟨rfl, hcode1, hcode2, hcode3, _, _, -, ⟨hholds, rfl⟩, -, hsuite, -⟩
    rw [List.append_nil]
    exact .numericFor hcode1 hcode2 hcode3 hholds hsuite

theorem stmtEmits_genericFor {iterators : List TypedLua.Expr}
    {body : TypedLua.Block} (hiters : ∀ e ∈ iterators, ExprEmits e)
    (hbody : ∀ s ∈ body.stmts, StmtEmits s) : StmtEmits (.genericFor loc names iterators body) := by
  intro ctx ctx' st st' hr h
  obtain ⟨bodyLoc, ss⟩ := body
  rw [stmt] at h
  obtain ⟨list, st1, hlist, h1⟩ := bind_ok h
  obtain ⟨⟨fresh, inner⟩, st2, hdecl, h2⟩ := bind_ok h1
  obtain ⟨suite, st3, hloop, h3⟩ := bind_ok h2
  obtain ⟨_, st4, hemit, h4⟩ := bind_ok h3
  obtain ⟨rfl, rfl⟩ := pure_ok h4
  obtain ⟨code, given1, e1⟩ := exprList_emits hiters hr hlist
  have hr1 := (e1.ready hr).nested
  have e2 := EmitsTo.declareAll hdecl
  obtain ⟨hlen, hinner⟩ := declareAll_ok hdecl
  have hvars : LoopVars inner (names.zip fresh) := by
    rw [hinner]
    refine LoopVars.declaringAll hr1.sound fun x hx => ?_
    rw [List.map_snd_zip (Nat.le_of_eq hlen)] at hx
    exact e2.piece.notMem_used hr1.fine hx
  obtain ⟨given3, e3⟩ := loopSuite_emits (takes_plain ss) (round_plain hbody) hvars (e2.ready hr1) hloop
  have e4 := (e2.trans (e3.and (Emits.emit hemit)).stay).nested.inner
  refine ⟨_, _, (e1.and e4).stay.conv ?_ ?_⟩
  · intro x
    simp only [stmtsBound_append, stmtsBound, Stmt.bound, List.append_nil, List.nil_append, List.mem_append]
    grind only
  · rintro p p' - ⟨rfl, hcode, _, _, -, ⟨hholds, rfl⟩, -, hsuite, -⟩
    rw [List.append_nil]
    exact .genericFor hcode hlen hholds hsuite

/-! ## All forms together -/

theorem treeEmits : TreeClosed ExprEmits FunctionEmits StmtEmits where
  nil _ := .const (fun _ => by rw [raw]) rfl fun _ => .nil
  bool _ _ := .const (fun _ => by rw [raw]) rfl fun _ => .bool
  number _ n := exprEmits_number n
  string _ _ := .const (fun _ => by rw [raw]) rfl fun _ => .string
  vararg _ := .const (fun _ => by rw [raw]) rfl fun _ => .vararg
  name _ x := exprEmits_name x
  function _ hf := exprEmits_function hf
  signature _ params body _ _ := exprEmits_signature params body
  table _ _ hfields := exprEmits_table hfields
  binary _ _ _ _ hleft hright := exprEmits_binary hleft hright
  unary _ _ _ hoperand := exprEmits_unary hoperand
  call _ _ _ hcallee hargs := exprEmits_call hcallee hargs
  method _ _ _ _ hobj hargs := exprEmits_method hobj hargs
  index _ _ _ hobj hkey := exprEmits_index hobj hkey
  paren _ _ hinner := exprEmits_paren hinner
  block _ _ _ hss hval := exprEmits_block (fun s hs => (hss s hs).2) hval
  definition | _, _, _, .mk _ _, _, _, _, hbody, _, _ => functionEmits_mk hbody
  localVars _ _ _ _ hvals _ := stmtEmits_localVars hvals
  localFunction _ _ _ hf := stmtEmits_localFunction hf
  assign _ _ _ htargets hvals := stmtEmits_assign (fun e he => (htargets e he).2) hvals
  expr _ _ he := stmtEmits_expr he
  scope _ _ hbody := stmtEmits_scope hbody
  whileLoop _ _ _ hcond hbody := stmtEmits_whileLoop hcond hbody
  repeatLoop _ _ _ hbody hcond := stmtEmits_repeatLoop hcond hbody
  ifElse _ _ _ _ _ hcond hbody hclauses hfinal := stmtEmits_ifElse hcond hbody hclauses hfinal
  numericFor _ _ _ _ _ _ hstart hstop hstep hbody := stmtEmits_numericFor hstart hstop hstep hbody
  genericFor _ _ _ _ hiters hbody := stmtEmits_genericFor hiters hbody
  returnValues _ _ hvals := stmtEmits_returnValues hvals
  breakLoop _ := stmtEmits_breakLoop

/-! ## Modules -/

omit [LoopForms] [AdmitsGenerated] in
theorem startReady : Ready ⟨[], 0, 0, false⟩ ⟨[], [], []⟩ := ⟨⟨List.nodup_nil, fun _ h => absurd h List.not_mem_nil⟩,
    fun h => (by cases h), fun h => (by cases h), fun h => (by cases h)⟩

omit [LoopForms] [AdmitsGenerated] in
/-- A variable that the code of a chunk binds belongs to the definition of the chunk, which leaves
nothing to others. -/
theorem resolve_chunkDef (h : x ∈ stmtsBound body) : resolve [chunkDef body] x = [chunkDef body] :=
  resolve_cons_of_owns (((chunkDef body).owns_iff x).2 (Or.inr ⟨h, List.not_mem_nil⟩))

/-- The module of a chunk respects scoping, and the names it was given are free for variables and
given once. -/
theorem generate_moduleCode (h : generate c = .ok m) :
    ∃ given, ModuleCode c m given ∧ given.Nodup ∧ ∀ x ∈ given, IsFree x := by
  obtain ⟨loc, ⟨bodyLoc, ss⟩, typecheck⟩ := c
  have hrun : ∃ st', blockSuite ⟨[], 0, 0, false⟩ (.mk bodyLoc ss) ⟨[], [], []⟩ = .ok (m.body, st') := by
    rw [generate] at h
    dsimp only at h
    split at h
    · next suite st' hok =>
      cases h
      exact ⟨st', hok⟩
    · cases h
  obtain ⟨st', hrun⟩ := hrun
  have hss : ∀ s ∈ (Block.mk bodyLoc ss).stmts, StmtEmits s := treeEmits.ofStmts ss
  obtain ⟨given, e⟩ := blockSuite_emits hss startReady hrun
  have hfine := e.piece.fine startReady.fine
  rw [e.piece.used, List.append_nil] at hfine
  have hstands : Stands ⟨[], 0, 0, false⟩ ⟨[chunkDef m.body], [], 0, false⟩ :=
    ⟨rfl, fun _ => rfl, rfl, rfl, fun h => by cases h⟩
  have hcode : BlockCode ⟨[chunkDef m.body], [], 0, false⟩ (.mk bodyLoc ss) m.body given :=
    e.code _ hstands fun x hx _ => resolve_chunkDef hx
  refine ⟨given, ?_, List.nodup_reverse.1 hfine.nodup, fun x hx => hfine.free x (List.mem_reverse.2 hx)⟩
  obtain ⟨suite⟩ := m
  cases hcode with
  | mk hss => exact ⟨_, _, rfl, hss⟩

end Generated

end TypedLua.Target.Scoping
