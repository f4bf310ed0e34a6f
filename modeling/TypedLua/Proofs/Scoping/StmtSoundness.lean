import TypedLua.Proofs.Scoping.ExprSoundness

/-!
# The code of statements

Each form of statement is generated as the scoping of modules demands, provided that its parts are; so
every chunk that has code at all gets a module whose names are apart and found where they belong.
-/

namespace TypedLua.Target.Scoping

open Generate

attribute [local grind =] Expr.bound Stmt.bound OrElse.bound stmtsBound

variable [LoopForms] {loc : Loc} {ctx ctx' : Context} {st st' : State}

omit [LoopForms] in
theorem Ready.nested (h : Ready ctx st) : Ready ctx.nested st :=
  ⟨h.fine, h.sound.taken, h.sound.depth, h.sound.injective⟩

/-! ## Statements one after the other -/

variable {ss : List TypedLua.Stmt} {u : Unit} {used : List String} {pairs : List (String × String)}

theorem stmts_emits (hss : ∀ s ∈ ss, StmtEmits s) (hr : Ready ctx st) (h : stmts ctx ss st = .ok (ctx', st')) :
    ∃ code given, EmitsTo ctx ctx' st st' code (stmtsBound code) given fun p p' => StmtsCode p ss code p' given := by
  induction ss generalizing ctx st with
  | nil =>
    rw [stmts] at h
    obtain ⟨rfl, rfl⟩ := pure_ok h
    refine ⟨[], [], (Emits.refl ctx st).stay.conv (by simp [stmtsBound]) ?_⟩
    rintro p p' - ⟨rfl, -⟩
    exact .nil
  | cons s ss ih =>
    rw [stmts] at h
    obtain ⟨ctx1, st1, hs, h1⟩ := bind_ok h
    obtain ⟨code1, given1, e1⟩ := hss s List.mem_cons_self hr hs
    obtain ⟨code2, given2, e2⟩ := ih (fun s hs => hss s (List.mem_cons_of_mem _ hs)) (e1.ready hr) h1
    refine ⟨_, _, (e1.trans e2).conv (by simp) ?_⟩
    rintro p p'' - ⟨p', -, hs, hss⟩
    exact .cons hs hss

theorem suite_emits (hss : ∀ s ∈ ss, StmtEmits s) (hr : Ready ctx st) (hempty : st.suite = [])
    (h : (stmts ctx.nested ss >>= fun _ => fillSuite) st = .ok (u, st')) :
    ∃ code given, Emits ctx st st' (filled code) (stmtsBound (filled code)) given
      fun p => ∃ p', StmtsCode p ss code p' given := by
  obtain ⟨ctx1, st1, hs, h1⟩ := bind_ok h
  obtain ⟨code, given, e⟩ := stmts_emits hss hr.nested hs
  have hsuite : st1.suite = code := by rw [e.suite, hempty, List.nil_append]
  have e' : Emits ctx st st1 code (stmtsBound code) given _ := e.nested.inner
  refine ⟨code, given, ?_, ?_, ?_⟩
  · rw [fillSuite_ok h1, hempty, hsuite, List.nil_append]
  · rw [fillSuite_ok h1, filled_bound]
    exact e'.piece.withSuite st.suite _
  · rw [filled_bound]
    exact e'.code

theorem blockSuite_emits {b : TypedLua.Block} (hss : ∀ s ∈ b.stmts, StmtEmits s) (hr : Ready ctx st)
    (h : blockSuite ctx b st = .ok (suite, st')) :
    ∃ given, Emits ctx st st' [] (stmtsBound suite) given fun p => BlockCode p b suite given := by
  obtain ⟨loc, ss⟩ := b
  rw [blockSuite] at h
  obtain ⟨⟨suite1, u⟩, st1, hcapture, h1⟩ := bind_ok h
  obtain ⟨st2, hbody, rfl, rfl⟩ := capture_ok hcapture
  obtain ⟨rfl, rfl⟩ := pure_ok h1
  have hr' : Ready ctx { st with suite := [] } := ⟨hr.fine, hr.sound⟩
  obtain ⟨code, given, e⟩ := suite_emits hss hr' rfl hbody
  obtain ⟨hsuite, e'⟩ := e.captured
  rw [hsuite]
  exact ⟨given, e'.conv (fun _ => Iff.rfl) fun p _ ⟨p', h⟩ => .mk h⟩

/-! ## Definitions -/

omit [LoopForms] in
theorem Sound.inside (h : Sound ctx used) (inIteration : Bool) : Sound (insideContext ctx inIteration) used :=
  ⟨h.taken, fun hs => Nat.le_succ_of_le (h.depth hs), h.injective⟩

omit [LoopForms] in
theorem definition_emits {J : Place → List Stmt → List String → Prop} (hparams : params = pairs.map (·.2))
    (hides : Hides ctx pairs) (hr : Ready ctx st)
    (hsound : Sound ((insideContext ctx inIteration).declaringAll (ctx.depth + 1) pairs) st.used)
    (hbody : ∀ {st0 st1}, Ready ((insideContext ctx inIteration).declaringAll (ctx.depth + 1) pairs) st0 →
      st0.suite = [] → body st0 = .ok ((), st1) → ∃ code given, Emits
      ((insideContext ctx inIteration).declaringAll (ctx.depth + 1) pairs) st0 st1 code (stmtsBound code)
      given fun p => J p code given) (h : definition name params rest body st = .ok (u, st')) :
    ∃ nonlocals code given, Emits ctx st st' [.define (.mk name params rest nonlocals code)] [] given fun p =>
        J ((p.inside (.mk name params rest nonlocals code) inIteration).declareAll pairs) code given ∧
          LeavesOuter p (.mk name params rest nonlocals code) given := by
  obtain ⟨st1, hrun, rfl⟩ := definition_ok h
  have hr' : Ready ((insideContext ctx inIteration).declaringAll (ctx.depth + 1) pairs)
      { st with suite := [], nonlocals := [] } := ⟨hr.fine, hsound⟩
  obtain ⟨code, given, e⟩ := hbody hr' rfl hrun
  have hcode : st1.suite = code := e.suite
  have hpiece : Piece ((insideContext ctx inIteration).declaringAll (ctx.depth + 1) pairs)
      { st with suite := [], nonlocals := [] } st1 (stmtsBound st1.suite) given := hcode ▸ e.piece
  have hcloses : Closes ctx pairs ({ st with suite := [], nonlocals := [] } : State).used given
      (.mk name params rest (st1.nonlocals.mergeSort (· ≤ ·)) st1.suite) :=
    .ofPiece hparams hides hr.sound hr.fine rfl hpiece
  rw [hcode] at hcloses ⊢
  refine ⟨_, code, given, rfl, ⟨e.piece.used, e.piece.fine, List.Subset.refl _, id,
    fun _ hx => Or.inl hx, fun _ hx => absurd hx List.not_mem_nil⟩, fun p hp _ => ?_⟩
  exact ⟨e.code _ (hcloses.stands hp inIteration) (hcloses.rely p inIteration), hcloses.leavesOuter hp⟩

omit [LoopForms] in
theorem hides_of_fresh (htaken : ∀ {s b}, ctx.lookup s = some b → pairs.reverse.lookup s = none → b.name ∈ used)
    (hfresh : ∀ x ∈ pairs.map (·.2), x ∉ used) : Hides ctx pairs :=
  fun hs hnone hmem => hfresh _ hmem (htaken hs hnone)

theorem functionEmits_mk {body : List TypedLua.Stmt} {returnType : Option TypedLua.Expr}
    (hbody : ∀ s ∈ body, StmtEmits s) :
    FunctionEmits (.mk loc params isVararg (.mk bodyLoc body) paramTypes returnType label) := by
  intro ctx st st' name u hr h
  rw [function] at h
  obtain ⟨⟨names, inner⟩, st1, hdecl, h1⟩ := bind_ok h
  obtain ⟨hlen, hinner⟩ := declareAll_ok hdecl
  have hin : Ready (insideContext ctx false) st := ⟨hr.fine, hr.sound.inside false⟩
  have e1 := EmitsTo.declareAll hdecl
  have hr1 := e1.ready hin
  have hnames := List.map_snd_zip (Nat.le_of_eq hlen)
  have hides : Hides ctx (params.zip names) := by
    refine hides_of_fresh (fun hs _ => hr.sound.taken hs) fun x hx => ?_
    exact e1.piece.notMem_used hr.fine (hnames ▸ hx)
  have hbody' : ∀ {st0 st1 : State}, Ready inner st0 → st0.suite = [] →
      (stmts inner.nested body >>= fun _ => fillSuite) st0 = .ok ((), st1) → ∃ suite given,
        Emits inner st0 st1 suite (stmtsBound suite) given fun p =>
          ∃ code p', suite = filled code ∧ StmtsCode p body code p' given := by
    intro st0 st1 hr0 hempty hrun
    obtain ⟨code, given, e⟩ := suite_emits hbody hr0 hempty hrun
    exact ⟨_, given, e.conv (fun _ => Iff.rfl) fun p _ ⟨p', h⟩ => ⟨code, p', rfl, h⟩⟩
  have hinner' : inner = (insideContext ctx false).declaringAll (ctx.depth + 1) (params.zip names) := hinner
  rw [hinner'] at hr1 hbody'
  have hpiece : Piece ctx st st1 [] names := ⟨e1.piece.used, e1.piece.fine, e1.piece.keeps, e1.piece.nodup,
      fun x hx => Or.inl (by
        rcases e1.piece.adds x hx with hx | ⟨hmem, hx⟩
        · exact hx
        · obtain ⟨s, b, hs, rfl, -⟩ := hx
          exact absurd (hr.sound.taken hs) (e1.piece.notMem_used hr.fine hmem)),
      fun x hx => absurd hx List.not_mem_nil⟩
  have hnames' : Emits ctx st st1 [] [] names fun _ => True := ⟨e1.suite, hpiece, fun _ _ _ => trivial⟩
  obtain ⟨nonlocals, suite, given, e2⟩ :=
    definition_emits hnames.symm hides (hpiece.ready hr) hr1.sound hbody' (hinner' ▸ h1)
  refine ⟨_, names ++ given, rfl, (hnames'.and e2).conv (by simp) ?_⟩
  rintro p - ⟨-, ⟨code, p', rfl, hss⟩, houter⟩
  refine .mk hlen hss ⟨houter.nodup, houter.mem_iff, fun x hx => ?_⟩
  rw [List.mem_append, not_or]
  exact ⟨((houter.mem_iff x).1 hx).2.1, houter.disjoint x hx⟩

/-! ## Loops -/

/-- The variables of a loop are the innermost declarations of their names, held by the definition
itself. -/
structure LoopVars (ctx : Context) (pairs : List (String × String)) : Prop where
  declared : ∀ {s name}, pairs.reverse.lookup s = some name → ctx.lookup s = some ⟨name, ctx.depth⟩
  hides : Hides ctx pairs

omit [LoopForms] in
theorem loopVars_nil (ctx : Context) : LoopVars ctx [] := ⟨fun h => (by cases h), fun _ _ => List.not_mem_nil⟩

omit [LoopForms] in
theorem LoopVars.declaringAll (h : Sound ctx used) (hfresh : ∀ x ∈ pairs.map (·.2), x ∉ used) :
    LoopVars (ctx.declaringAll ctx.depth pairs) pairs := by
  refine ⟨fun {s name} hs => ?_, hides_of_fresh (fun {s b} hs hnone => ?_) hfresh⟩
  · rw [Context.declaringAll_lookup, hs, Context.declaringAll_depth]
    rfl
  · rw [Context.declaringAll_lookup, hnone] at hs
    exact h.taken hs

omit [LoopForms] in
theorem Sound.iteration (h : Sound ctx used) (hvars : LoopVars ctx pairs) (inIteration : Bool) :
    Sound ((insideContext ctx inIteration).declaringAll (ctx.depth + 1) pairs) used := by
  have hname : ∀ {s b}, ((insideContext ctx inIteration).declaringAll (ctx.depth + 1) pairs).lookup s = some b →
      b.depth ≤ ctx.depth + 1 ∧ ∃ b', ctx.lookup s = some b' ∧ b'.name = b.name := by
    intro s b hs
    rw [inside_lookup] at hs
    cases hfound : pairs.reverse.lookup s with
    | some name =>
      rw [hfound] at hs
      cases hs
      exact ⟨Nat.le_refl _, _, hvars.declared hfound, rfl⟩
    | none =>
      rw [hfound] at hs
      exact ⟨Nat.le_succ_of_le (h.depth hs), b, hs, rfl⟩
  refine ⟨fun hs => ?_, fun hs => ?_, fun hs hs' heq => ?_⟩
  · obtain ⟨-, b', hb', hn⟩ := hname hs
    exact hn ▸ h.taken hb'
  · rw [Context.declaringAll_depth]
    exact (hname hs).1
  · obtain ⟨-, b1, hb1, hn1⟩ := hname hs
    obtain ⟨-, b2, hb2, hn2⟩ := hname hs'
    exact h.injective hb1 hb2 (hn1.trans (heq.trans hn2.symm))

theorem loopSuite_emits {until? : Option TypedLua.Expr} {statements : Context → Gen Unit}
    (hform : LoopForms.Takes closures ss until?) (hround : ∀ {inner : Context} {st0 st1 : State},
      Ready inner st0 → st0.suite = [] → statements inner st0 = .ok ((), st1) → ∃ code given, Emits inner st0 st1 code
      (stmtsBound code) given fun p => RoundCode p ss until? code given) (hvars : LoopVars ctx pairs)
    (hr : Ready ctx st) (h : loopSuite ctx pairs closures statements st = .ok (suite, st')) :
    ∃ given, Emits ctx st st' [] (stmtsBound suite) given fun p => LoopCode p pairs ss until? suite given := by
  rw [loopSuite] at h
  cases closures with
  | false =>
    obtain ⟨⟨suite1, u⟩, st1, hcapture, h1⟩ := bind_ok h
    obtain ⟨st2, hbody, rfl, rfl⟩ := capture_ok hcapture
    obtain ⟨rfl, rfl⟩ := pure_ok h1
    have hr' : Ready { ctx with loops := ctx.loops + 1 } { st with suite := [] } :=
      ⟨hr.fine, hr.sound.taken, hr.sound.depth, hr.sound.injective⟩
    obtain ⟨code, given, e⟩ := hround hr' rfl hbody
    have e' : Emits ctx { st with suite := [] } st2 code (stmtsBound code) given
        fun p => RoundCode p.inLoop ss until? code given :=
      ⟨e.suite, ⟨e.piece.used, e.piece.fine, e.piece.keeps, e.piece.nodup, e.piece.adds,
        e.piece.binds⟩, fun p hp hrely => e.code _ hp.inLoop hrely⟩
    obtain ⟨hsuite, e''⟩ := e'.captured
    rw [hsuite]
    exact ⟨given, e''.conv (fun _ => Iff.rfl) fun p _ h => .inline hform h⟩
  | true =>
    obtain ⟨function, st1, hfn, h1⟩ := bind_ok h
    obtain ⟨flow, st2, hflow, h2⟩ := bind_ok h1
    have e1 : Emits ctx st st1 [] [function] [function] _ := .unique hfn
    have e2 : Emits ctx st1 st2 [] [flow] [flow] _ := .unique hflow
    have hr2 := e2.ready (e1.ready hr)
    obtain ⟨⟨suite1, u⟩, st3, hcapture, h3⟩ := bind_ok h2
    obtain ⟨st4, hbody, rfl, rfl⟩ := capture_ok hcapture
    obtain ⟨rfl, rfl⟩ := pure_ok h3
    obtain ⟨_, st5, hdefinition, h4⟩ := bind_ok hbody
    obtain ⟨_, st6, hiterate, h5⟩ := bind_ok h4
    obtain ⟨_, st7, hbreak, hreturn⟩ := bind_ok h5
    have hr' : Ready ctx { st2 with suite := [] } := ⟨hr2.fine, hr2.sound⟩
    obtain ⟨nonlocals, code, given, e3⟩ :=
      definition_emits rfl hvars.hides hr' (hr'.sound.iteration hvars true) hround hdefinition
    obtain ⟨hsuite, e4⟩ := (e3.and ((Emits.emit hiterate).and
      ((Emits.emit hbreak).and (Emits.emit hreturn)))).captured
    rw [hsuite]
    refine ⟨_, (e1.and (e2.and e4)).conv ?_ ?_⟩
    · simp [stmtsBound, Stmt.bound, Def.name]
    · rintro p hp ⟨hf, hfl, ⟨hcode, houter⟩, -⟩
      have hholds : p.Holds [function, flow] := by
        intro x hx
        rcases List.mem_cons.1 hx with rfl | hx
        · exact hf x List.mem_cons_self
        · exact hfl x hx
      have hloop := LoopCode.iteration hform hholds hcode houter
      rw [hp.inIteration] at hloop
      simpa using hloop

theorem round_plain {inner : Context} (hss : ∀ s ∈ ss, StmtEmits s) (hr : Ready inner st0) (hempty : st0.suite = [])
    (h : (stmts inner.nested ss >>= fun _ => fillSuite) st0 = .ok ((), st1)) :
    ∃ code given, Emits inner st0 st1 code (stmtsBound code) given fun p => RoundCode p ss none code given := by
  obtain ⟨code, given, e⟩ := suite_emits hss hr hempty h
  exact ⟨_, given, e.conv (fun _ => Iff.rfl) fun p _ ⟨p', h⟩ => .plain h⟩

theorem round_until {inner : Context} (hss : ∀ s ∈ ss, StmtEmits s) {condition : TypedLua.Expr}
    (hcondition : ExprEmits condition) (hr : Ready inner st0)
    (hempty : st0.suite = []) (h : (do
      let inside ← stmts inner.nested ss
      fillSuite
      let call ← raw inside condition
      emit (.ifElse (toCond condition (cut call)) [breakStmt inner] .none) : Gen Unit) st0 = .ok ((), st1)) :
    ∃ code given, Emits inner st0 st1 code (stmtsBound code) given
      fun p => RoundCode p ss (some condition) code given := by
  obtain ⟨inside, st2, hstmts, h1⟩ := bind_ok h
  obtain ⟨_, st3, hfill, h2⟩ := bind_ok h1
  obtain ⟨call, st4, hraw, hemit⟩ := bind_ok h2
  obtain ⟨code, given, e⟩ := stmts_emits hss hr.nested hstmts
  have hsuite : st2.suite = code := by rw [e.suite, hempty, List.nil_append]
  have hfilled := fillSuite_ok hfill
  have e1 : EmitsTo inner inside st0 st3 (filled code) (stmtsBound code) given
      fun p p' => StmtsCode p ss code p' given := by
    refine ⟨?_, ?_, e.nested.extend, fun hr => ?_, e.nested.code⟩
    · rw [hfilled, hempty, hsuite, List.nil_append]
    · rw [hfilled]
      exact e.nested.piece.withSuite st0.suite _
    · rw [hfilled]
      exact e.nested.sound hr
  obtain ⟨code2, given2, e2⟩ := hcondition (e1.ready hr) hraw
  refine ⟨_, _, (e1.trans (e2.and (Emits.emit hemit)).stay).inner.conv ?_ ?_⟩
  · intro x
    have hbreak : (breakStmt inner).bound = [] := by
      unfold breakStmt
      split <;> rfl
    simp only [stmtsBound_append, filled_bound, stmtsBound, Stmt.bound, OrElse.bound, toCond_bound,
      cut_bound, hbreak, List.append_nil, List.mem_append]
  · rintro p hp ⟨p'', p', -, hss, -, hcond, -⟩
    have hround := RoundCode.until hss hcond
    rw [hp.breakCode] at hround
    simpa using hround

/-! ## Conditionals -/

theorem otherwiseSuite_emits {final : Option TypedLua.Block} (hfinal : ∀ b ∈ final, ∀ s ∈ b.stmts, StmtEmits s)
    (hr : Ready ctx st) (h : otherwiseSuite ctx final st = .ok (other, st')) :
    ∃ given, Emits ctx st st' [] other.bound given fun p => OrElseCode p [] final other given := by
  rw [otherwiseSuite.eq_def] at h
  match final, hfinal, h with
  | none, _, h =>
    obtain ⟨rfl, rfl⟩ := pure_ok h
    exact ⟨[], (Emits.refl ctx st).conv (by simp [OrElse.bound]) fun p _ _ => .none⟩
  | some (.mk loc []), _, h =>
    obtain ⟨rfl, rfl⟩ := pure_ok h
    exact ⟨[], (Emits.refl ctx st).conv (by simp [OrElse.bound]) fun p _ _ => .empty⟩
  | some (.mk loc (s :: ss)), hfinal, h =>
    obtain ⟨suite, st1, hsuite, h1⟩ := bind_ok h
    obtain ⟨rfl, rfl⟩ := pure_ok h1
    obtain ⟨given, e⟩ := blockSuite_emits (hfinal _ rfl) hr hsuite
    exact ⟨given, e.conv (by simp [OrElse.bound]) fun p _ h => .otherwise h⟩

theorem orElse_emits {final : Option TypedLua.Block} (hfinal : ∀ b ∈ final, ∀ s ∈ b.stmts, StmtEmits s)
    (hclauses : ∀ c ∈ clauses, c.All ExprEmits StmtEmits) (hr : Ready ctx st)
    (h : orElse ctx (otherwiseSuite ctx final) clauses st = .ok (other, st')) :
    ∃ given, Emits ctx st st' [] other.bound given fun p => OrElseCode p clauses final other given := by
  induction clauses generalizing st st' other with
  | nil =>
    rw [orElse] at h
    exact otherwiseSuite_emits hfinal hr h
  | cons clause clauses ih =>
    obtain ⟨condition, body⟩ := clause
    obtain ⟨hcondition, hbody⟩ := hclauses _ List.mem_cons_self
    rw [orElse] at h
    obtain ⟨⟨hoisted, call⟩, st1, hcapture, h1⟩ := bind_ok h
    obtain ⟨st2, hraw, rfl, rfl⟩ := capture_ok hcapture
    have hr' : Ready ctx { st with suite := [] } := ⟨hr.fine, hr.sound⟩
    obtain ⟨code, given1, e⟩ := hcondition hr' hraw
    obtain ⟨hsuite, e1⟩ := e.captured
    have hr1 := e1.ready hr
    obtain ⟨suite, st3, hblock, h2⟩ := bind_ok h1
    obtain ⟨given2, e2⟩ := blockSuite_emits hbody hr1 hblock
    obtain ⟨other3, st4, hrest, h3⟩ := bind_ok h2
    obtain ⟨given3, e3⟩ := ih (fun c hc => hclauses c (List.mem_cons_of_mem _ hc)) (e2.ready hr1) hrest
    have e4 := e1.and (e2.and e3)
    rw [hsuite] at h3
    cases code with
    | nil =>
      obtain ⟨rfl, rfl⟩ := pure_ok h3
      refine ⟨_, e4.conv ?_ fun p _ h => .elseIf h.1 h.2.1 h.2.2⟩
      grind
    | cons s code =>
      obtain ⟨rfl, rfl⟩ := pure_ok h3
      refine ⟨_, e4.conv ?_ fun p _ h => .hoisted h.1 h.2.1 h.2.2⟩
      grind

/-! ## Assignments -/

omit [LoopForms] in
theorem addNonlocal_ok (h : addNonlocal name st = .ok (u, st')) :
    st'.used = st.used ∧ st'.suite = st.suite ∧ name ∈ st'.nonlocals ∧
      st.nonlocals ⊆ st'.nonlocals ∧ (∀ x ∈ st'.nonlocals, x ∈ st.nonlocals ∨ x = name) ∧
      (st.nonlocals.Nodup → st'.nonlocals.Nodup) := by
  have h' : st' = if st.nonlocals.contains name then st
      else { st with nonlocals := name :: st.nonlocals } := by
    cases h
    rfl
  by_cases hmem : name ∈ st.nonlocals
  · rw [h', if_pos (List.contains_iff_mem.2 hmem)]
    exact ⟨rfl, rfl, hmem, List.Subset.refl _, fun _ hx => Or.inl hx, id⟩
  · rw [h', if_neg (fun hc => hmem (List.contains_iff_mem.1 hc))]
    exact ⟨rfl, rfl, List.mem_cons_self, List.subset_cons_self _ _,
      fun _ hx => (List.mem_cons.1 hx).symm, fun hn => List.nodup_cons.2 ⟨hmem, hn⟩⟩

theorem assignName_emits (hr : Ready ctx st)
    (h : assignName ctx x value st = .ok (s, st')) : ∃ bound, (∀ y, y ∈ s.bound ↔ y ∈ bound ∨ y ∈ value.bound) ∧
      Emits ctx st st' [] bound [] fun p => TargetCode p (.name loc x) value [s] [] := by
  rw [assignName] at h
  cases hx : ctx.lookup x with
  | none =>
    rw [hx] at h
    obtain ⟨rfl, rfl⟩ := pure_ok h
    exact ⟨[], by simp [Stmt.bound],
      (Emits.refl ctx st).conv (fun _ => Iff.rfl) fun p hp _ => .global (hp.find_none hx)⟩
  | some b =>
    rw [hx] at h
    have hcode : ∀ p, Stands ctx p → TargetCode p (.name loc x) value [.assign b.name value] [] :=
      fun p hp => .variable (hp.find_some hx) (hp.reaches (hp.find_some hx))
    by_cases hdepth : b.depth < ctx.depth
    · simp only [if_pos hdepth] at h
      obtain ⟨_, st1, hadd, h1⟩ := bind_ok h
      obtain ⟨rfl, rfl⟩ := pure_ok h1
      obtain ⟨hused, hsuite, hmem, hkeeps, hadds, hnodup⟩ := addNonlocal_ok hadd
      have houter : IsOuter ctx b.name := ⟨x, b, hx, rfl, hdepth⟩
      refine ⟨[b.name], by simp [Stmt.bound], ?_, ?_, fun p hp _ => hcode p hp⟩
      · rw [hsuite, List.append_nil]
      · refine ⟨hused, fun hf => hused ▸ hf, hkeeps, hnodup, fun y hy => ?_, fun y hy => ?_⟩
        · rcases hadds y hy with hy | rfl
          · exact Or.inl hy
          · exact Or.inr ⟨List.mem_cons_self, houter⟩
        · obtain rfl := List.mem_singleton.1 hy
          exact Or.inr (Or.inr ⟨houter, hmem⟩)
    · simp only [if_neg hdepth] at h
      obtain ⟨rfl, rfl⟩ := pure_ok h
      have hown : IsOwn ctx b.name := ⟨x, b, hx, rfl, Nat.le_antisymm (hr.sound.depth hx) (Nat.le_of_not_lt hdepth)⟩
      refine ⟨[b.name], by simp [Stmt.bound], (List.append_nil _).symm, ?_, fun p hp _ => hcode p hp⟩
      refine ⟨rfl, id, List.Subset.refl _, id, fun _ hy => Or.inl hy, fun y hy => ?_⟩
      obtain rfl := List.mem_singleton.1 hy
      exact Or.inr (Or.inl hown)

theorem assignTo_emits {target : TypedLua.Expr} (htarget : target.AllKeys ExprEmits)
    (hr : Ready ctx st) (h : assignTo ctx value target st = .ok (u, st')) :
    ∃ code bound given, (∀ x, x ∈ stmtsBound code ↔ x ∈ bound ∨ x ∈ value.bound) ∧
      Emits ctx st st' code bound given fun p => TargetCode p target value code given := by
  match target, htarget, h with
  | .name loc x, _, h =>
    rw [assignTo] at h
    obtain ⟨s, st1, hassign, hemit⟩ := bind_ok h
    obtain ⟨bound, hbound, e⟩ := assignName_emits hr hassign
    refine ⟨[s], bound, [], by simpa [stmtsBound] using hbound, ?_⟩
    exact (e.and (Emits.emit hemit)).conv (by simp) fun p _ h => h.1
  | .index loc object key, ⟨hobj, hkey⟩, h =>
    rw [assignTo] at h
    obtain ⟨call1, st1, ho, h1⟩ := bind_ok h
    obtain ⟨code1, given1, e1⟩ := hobj hr ho
    obtain ⟨call2, st2, hk, hemit⟩ := bind_ok h1
    obtain ⟨code2, given2, e2⟩ := hkey (e1.ready hr) hk
    refine ⟨_, _, _, ?_, (e1.and (e2.and (Emits.emit hemit))).conv (fun _ => Iff.rfl) ?_⟩
    · grind
    · rintro p - ⟨ho, hk, -⟩
      rw [List.append_nil]
      exact .index ho hk
  | .nil _, _, h | .bool .., _, h | .number .., _, h | .string .., _, h | .vararg _, _, h
  | .function (.mk ..), _, h | .signature .., _, h | .table .., _, h | .binary .., _, h
  | .unary .., _, h | .call .., _, h | .method .., _, h | .paren .., _, h | .block .., _, h => cases h

theorem assignEach_emits {targets : List TypedLua.Expr}
    (htargets : ∀ e ∈ targets, e.AllKeys ExprEmits) {temps : List String}
    (hlen : temps.length = targets.length) (hr : Ready ctx st)
    (h : assignEach ctx targets temps st = .ok (u, st')) : ∃ code given, Emits ctx st st' code (stmtsBound code) given
      fun p => TargetsCode p targets temps code given := by
  induction targets generalizing temps st with
  | nil =>
    obtain rfl := List.length_eq_zero_iff.1 hlen
    rw [assignEach] at h
    · obtain ⟨-, rfl⟩ := pure_ok h
      exact ⟨[], [], (Emits.refl ctx st).conv (by simp [stmtsBound]) fun p _ _ => .nil⟩
    · simp
  | cons target targets ih =>
    obtain ⟨temp, temps, rfl⟩ := List.exists_cons_of_length_eq_add_one hlen
    rw [assignEach] at h
    obtain ⟨_, st1, hassign, h1⟩ := bind_ok h
    obtain ⟨code1, bound, given1, hbound, e1⟩ := assignTo_emits (htargets _ List.mem_cons_self) hr hassign
    obtain ⟨code2, given2, e2⟩ := ih (fun e he => htargets e (List.mem_cons_of_mem _ he))
      (Nat.succ.inj hlen) (e1.ready hr) h1
    refine ⟨_, _, (e1.and e2).conv ?_ fun p _ h => .cons h.1 h.2⟩
    intro x
    simp [hbound, Expr.bound]

omit [LoopForms] in
theorem adjusted_bound {es : List TypedLua.Expr}
    (h : exprList ctx es st = .ok (list, st')) (names : List String) (n : Nat) :
    ((toAdjusted n es list).assign names).bound = names ++ listBound list.1 list.2 := by
  unfold toAdjusted
  split
  · next hexact =>
    have hlast : es.getLast?.any (·.isMultiValued) = false := by
      simp only [Bool.and_eq_true, Bool.not_eq_true'] at hexact
      exact hexact.2
    simp [Adjusted.assign, Stmt.bound, listBound, exprList_tail hlast h, tailBound]
  · simp [Adjusted.assign, Stmt.bound]

end TypedLua.Target.Scoping
