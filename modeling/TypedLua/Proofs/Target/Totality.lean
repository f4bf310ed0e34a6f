import TypedLua.Annotation.Check
import TypedLua.Proofs.Syntax.Induction
import TypedLua.Proofs.Target.Obstacles

/-!
# Generating code fails at the first obstacle

A tree whose parts meet their obstacles meets its own, form by form.
-/

namespace TypedLua.Target.Generate

def Generates (e : TypedLua.Expr) : Prop := ∀ ctx, Fails (raw ctx e) e.obstacles

def FunctionGenerates (f : TypedLua.Function) : Prop := ∀ ctx name, Fails (function ctx name f) f.obstacles

def TargetGenerates (e : TypedLua.Expr) : Prop := ∀ ctx value, Fails (assignTo ctx value e) e.obstacles

/-- The code of a statement fails with its first obstacle, and what follows stands inside the same loop. -/
def StmtGenerates (s : TypedLua.Stmt) : Prop :=
  ∀ ctx, Meets (fun ctx' => ctx'.inLoop = ctx.inLoop) (stmt ctx s) (s.obstacles ctx.inLoop)

variable {loc : Loc}

/-! ## Expressions -/

section Expressions

variable {e left right : TypedLua.Expr}

theorem generates_literal (h : e.obstacles = []) (hraw : ∀ ctx, ∃ call, raw ctx e = pure call) : Generates e := by
  intro ctx
  obtain ⟨call, hcall⟩ := hraw ctx
  rw [hcall, h]
  exact .pure trivial

theorem generates_nil (loc : Loc) : Generates (.nil loc) := generates_literal rfl fun _ => ⟨_, rfl⟩

theorem generates_name (loc : Loc) (x : String) : Generates (.name loc x) := generates_literal rfl fun _ => ⟨_, rfl⟩

theorem generates_number (loc : Loc) (n : Number) : Generates (.number loc n) := by
  intro ctx
  rw [raw, Expr.obstacles]
  split
  · exact .pure trivial
  · exact .throw .unwritable

theorem generates_signature (loc : Loc) (params : List TypedLua.Expr) (body : TypedLua.Block) :
    Generates (.signature loc params body) :=
  fun _ => .throw (.functionType loc)

theorem generates_function {f : TypedLua.Function} (h : FunctionGenerates f) : Generates (.function f) := by
  intro ctx
  rw [raw]
  exact (fails_unique _).skip fun name _ => (h ctx name).map fun _ _ => .pure trivial

theorem generates_binary (hleft : Generates left) (hright : Generates right) :
    Generates (.binary loc left op right) := by
  intro ctx
  rw [raw]
  refine (hleft ctx).bind fun l _ => ?_
  split
  · exact (fails_unique _).skip fun _ _ => (hright ctx).map fun _ _ => .pure trivial
  · exact (fails_unique _).skip fun _ _ => (hright ctx).map fun _ _ => .pure trivial
  · exact (hright ctx).map fun _ _ => .pure trivial

theorem generates_unary (h : Generates e) : Generates (.unary loc op e) := by
  intro ctx
  rw [raw]
  refine (h ctx).map fun _ _ => ?_
  split <;> exact .pure trivial

theorem generates_paren (h : Generates e) : Generates (.paren loc e) := by
  intro ctx
  rw [raw]
  exact (h ctx).map fun _ _ => .pure trivial

theorem generates_index (hleft : Generates left) (hright : Generates right) : Generates (.index loc left right) := by
  intro ctx
  rw [raw]
  exact (hleft ctx).bind fun _ _ => (hright ctx).map fun _ _ => .pure trivial

theorem fails_exprList {es : List TypedLua.Expr} (hes : ∀ e ∈ es, Generates e) (ctx : Context) :
    Fails (exprList ctx es) (exprsObstacles es) := by
  induction es with
  | nil => exact .pure trivial
  | cons e es ih =>
    obtain ⟨he, hrest⟩ := List.forall_mem_cons.1 hes
    cases es with
    | nil =>
      rw [exprList, exprsObstacles, exprsObstacles, List.append_nil]
      exact (he ctx).map fun _ _ => .pure trivial
    | cons e' es =>
      rw [exprList, exprsObstacles]
      · exact (he ctx).bind fun _ _ => (ih hrest).map fun _ _ => .pure trivial
      · exact List.cons_ne_nil _ _

theorem generates_call {args : List TypedLua.Expr} (h : Generates e) (hargs : ∀ a ∈ args, Generates a) :
    Generates (.call loc e args) := by
  intro ctx
  rw [raw]
  exact (h ctx).bind fun _ _ => (fails_exprList hargs ctx).map fun _ _ => .pure trivial

theorem generates_method {args : List TypedLua.Expr} (h : Generates e)
    (hargs : ∀ a ∈ args, Generates a) : Generates (.method loc e member args) := by
  intro ctx
  rw [raw]
  exact (h ctx).bind fun _ _ => (fails_exprList hargs ctx).map fun _ _ => .pure trivial

theorem fails_tableItems (h : ∀ f ∈ fields, f.All Generates) (ctx : Context) :
    Fails (tableItems ctx fields) (fieldsObstacles fields) := by
  induction fields with
  | nil => exact .pure trivial
  | cons field fields ih =>
    obtain ⟨hfield, hrest⟩ := List.forall_mem_cons.1 h
    obtain ⟨floc, key, value⟩ := field
    cases key with
    | some key =>
      rw [tableItems, fieldsObstacles, optionObstacles, List.append_assoc]
      refine (hfield.1 key rfl ctx).bind fun _ _ => (hfield.2 ctx).bind fun _ _ => ?_
      exact (ih hrest).map fun _ _ => .pure trivial
    | none =>
      cases fields with
      | nil =>
        rw [tableItems, fieldsObstacles, optionObstacles, fieldsObstacles, List.nil_append, List.append_nil]
        exact (hfield.2 ctx).map fun _ _ => .pure trivial
      | cons field' fields =>
        rw [tableItems, fieldsObstacles, optionObstacles, List.nil_append]
        · exact (hfield.2 ctx).bind fun _ _ => (ih hrest).map fun _ _ => .pure trivial
        · exact List.cons_ne_nil _ _

theorem generates_table (h : ∀ f ∈ fields, f.All Generates) : Generates (.table loc fields) := by
  intro ctx
  rw [raw]
  exact (fails_tableItems h ctx).map fun _ _ => .pure trivial

/-! ## Checks -/

variable {p v : TypedLua.Expr}

theorem fails_callPart (hp : Generates p) (hv : Generates v) (ctx : Context) :
    Fails (blockParts ctx [Check.callStatement none p v callLoc])
      (stmtsObstacles false [Check.callStatement none p v callLoc]) := by
  have hcall : Generates (.call callLoc p [v]) := generates_call hp (List.forall_mem_singleton.2 hv)
  have hend (ctx : Context) : Fails (blockParts ctx []) [] := .pure trivial
  rw [Check.callStatement, blockParts]
  exact (hcall ctx).bind fun _ _ => (hend ctx).map fun _ _ => .pure trivial

theorem generates_yieldTrivial (hp : Generates p) (hv : Generates v) : Generates (Check.yieldTrivial p v) := by
  intro ctx
  rw [Check.yieldTrivial, raw]
  exact (fails_callPart hp hv ctx.nested).bind fun r _ => (hv r.2).map fun _ _ => .pure trivial

theorem generates_yieldBound (hp : Generates p) (hv : Generates v) :
    Generates (Check.yieldBound temporary p v) := by
  intro ctx
  have hname : Generates (.name v.loc temporary) := generates_name _ _
  have hparts : Fails (blockParts ctx.nested [.localVars v.loc [temporary] [v] [],
        Check.callStatement none p (.name v.loc temporary) v.loc])
      (stmtsObstacles false [.localVars v.loc [temporary] [v] [],
        Check.callStatement none p (.name v.loc temporary) v.loc]) := by
    rw [blockParts, stmtsObstacles, Stmt.obstacles, exprsObstacles, exprsObstacles, List.append_nil]
    refine (hv ctx.nested).bind fun _ _ => (meets_declare _ _).skip fun r _ => ?_
    exact (fails_callPart hp hname r.2).map fun _ _ => .pure trivial
  rw [Check.yieldBound, raw]
  exact hparts.bind fun r _ => (hname r.2).map fun _ _ => .pure trivial

end Expressions

/-! ## Blocks -/

theorem meets_stmts {ss : List TypedLua.Stmt} (hss : ∀ s ∈ ss, StmtGenerates s) (ctx : Context) :
    Meets (fun ctx' => ctx'.inLoop = ctx.inLoop) (stmts ctx ss) (stmtsObstacles ctx.inLoop ss) := by
  induction ss generalizing ctx with
  | nil => exact .pure rfl
  | cons s ss ih =>
    obtain ⟨hs, hrest⟩ := List.forall_mem_cons.1 hss
    rw [stmts, stmtsObstacles]
    refine (hs ctx).bind fun ctx' hctx' => ?_
    have hrest := ih hrest ctx'
    rw [hctx'] at hrest
    exact hrest

theorem fails_suite {ss : List TypedLua.Stmt} (hss : ∀ s ∈ ss, StmtGenerates s) {ctx : Context}
    (hctx : ctx.inLoop = inLoop) :
    Fails (do let _ ← stmts ctx.nested ss; fillSuite) (stmtsObstacles inLoop ss) := by
  subst hctx
  exact (meets_stmts hss ctx.nested).map fun _ _ => fails_fillSuite

variable {b : TypedLua.Block}

theorem fails_blockSuite (hb : ∀ s ∈ b.stmts, StmtGenerates s) (ctx : Context) :
    Fails (blockSuite ctx b) (b.obstacles ctx.inLoop) := by
  obtain ⟨bloc, ss⟩ := b
  rw [blockSuite]
  exact (meets_capture (fails_suite hb rfl)).map fun _ _ => .pure trivial

theorem functionGenerates {returnType : Option TypedLua.Expr} (hb : ∀ s ∈ b.stmts, StmtGenerates s) :
    FunctionGenerates (.mk loc params isVararg b types returnType label) := by
  intro ctx name
  obtain ⟨bloc, ss⟩ := b
  rw [function]
  exact (meets_declareAll _ params).skip fun r hr => fails_definition (fails_suite hb hr)

theorem fails_otherwiseSuite {b? : Option TypedLua.Block}
    (hb : ∀ b ∈ b?, ∀ s ∈ b.stmts, StmtGenerates s) (ctx : Context) :
    Fails (otherwiseSuite ctx b?) (otherwiseObstacles ctx.inLoop b?) := by
  cases b? with
  | none => exact .pure trivial
  | some b =>
    obtain ⟨bloc, ss⟩ := b
    rw [otherwiseSuite]
    cases ss with
    | nil => exact .pure trivial
    | cons s ss => exact (fails_blockSuite (hb _ rfl) ctx).map fun _ _ => .pure trivial

theorem fails_orElse (ctx : Context) (hclauses : ∀ c ∈ clauses, c.All Generates StmtGenerates)
    (hfinal : Fails final l) : Fails (orElse ctx final clauses) (clausesObstacles ctx.inLoop clauses ++ l) := by
  induction clauses with
  | nil => exact hfinal
  | cons c clauses ih =>
    obtain ⟨hc, hrest⟩ := List.forall_mem_cons.1 hclauses
    obtain ⟨condition, body⟩ := c
    rw [orElse, clausesObstacles, List.append_assoc, List.append_assoc]
    refine (meets_capture (hc.1 ctx)).bind fun r _ => (fails_blockSuite hc.2 ctx).bind fun _ _ => ?_
    refine (ih hrest).map fun _ _ => ?_
    split <;> exact .pure trivial

/-! ## Statements -/

section Statements

variable {e : TypedLua.Expr} {targets values : List TypedLua.Expr} {ss : List TypedLua.Stmt}

theorem targetGenerates_name (loc : Loc) (x : String) : TargetGenerates (.name loc x) := by
  intro ctx value
  rw [assignTo]
  exact (fails_assignName ctx x value).skip fun _ _ => fails_emit _

theorem targetGenerates_index {object key : TypedLua.Expr} (ho : Generates object) (hk : Generates key) :
    TargetGenerates (.index loc object key) := by
  intro ctx value
  rw [assignTo]
  exact (ho ctx).bind fun _ _ => (hk ctx).map fun _ _ => fails_emit _

theorem fails_assignEach (htargets : ∀ e ∈ targets, TargetGenerates e) (ctx : Context) {temps : List String}
    (hlen : temps.length = targets.length) : Fails (assignEach ctx targets temps) (exprsObstacles targets) := by
  induction targets generalizing temps with
  | nil =>
    rw [assignEach]
    · exact .pure trivial
    · exact fun _ _ _ _ h => nomatch h
  | cons target targets ih =>
    obtain ⟨htarget, hrest⟩ := List.forall_mem_cons.1 htargets
    cases temps with
    | nil => cases hlen
    | cons temp temps =>
      rw [assignEach, exprsObstacles]
      exact (htarget ctx _).bind fun _ _ => ih hrest (Nat.succ.inj hlen)

theorem meets_temporaries (n : Nat) : Meets (fun xs => xs.length = n) (temporaries n) [] := by
  induction n with
  | zero => exact .pure rfl
  | succ n ih => exact (fails_unique _).skip fun _ _ => ih.skip fun _ h => .pure (congrArg (· + 1) h)

theorem stmtGenerates_localVars
    (hvals : ∀ e ∈ values, Generates e) : StmtGenerates (.localVars loc names values types) := by
  intro ctx
  rw [stmt.eq_def]
  split
  · next heq =>
    cases heq
    exact (meets_declareAll _ _).skip fun _ hr => (fails_emit _).skip fun _ _ => .pure hr
  · next heq =>
    cases heq
    rw [Stmt.obstacles, exprsObstacles, exprsObstacles, List.append_nil]
    refine (hvals _ List.mem_cons_self ctx).map fun _ _ => (meets_declare _ _).skip fun _ hr => ?_
    exact (fails_emit _).skip fun _ _ => .pure hr
  · next heq =>
    cases heq
    refine (fails_exprList hvals ctx).map fun _ _ => (meets_declareAll _ _).skip fun _ hr => ?_
    exact (fails_emit _).skip fun _ _ => .pure hr
  all_goals next heq => cases heq

theorem stmtGenerates_localFunction {f : TypedLua.Function} (h : FunctionGenerates f) :
    StmtGenerates (.localFunction loc x f) := by
  intro ctx
  rw [stmt]
  exact (meets_declare _ _).skip fun r hr => (h r.2 r.1).map fun _ _ => .pure hr

theorem stmtGenerates_assign (htargets : ∀ e ∈ targets, TargetGenerates e)
    (hvals : ∀ e ∈ values, Generates e) : StmtGenerates (.assign loc targets values) := by
  intro ctx
  by_cases hsingle : ∃ target value, targets = [target] ∧ values = [value]
  · obtain ⟨target, value, rfl, rfl⟩ := hsingle
    rw [stmt, Stmt.obstacles, exprsObstacles, exprsObstacles, exprsObstacles, exprsObstacles, List.append_nil,
      List.append_nil]
    refine (hvals _ List.mem_cons_self ctx).bind fun _ _ => ?_
    exact (htargets _ List.mem_cons_self ctx _).map fun _ _ => .pure rfl
  · rw [stmt]
    · refine (meets_temporaries _).skip fun temps htemps => ?_
      refine (fails_exprList hvals ctx).bind fun _ _ => (fails_emit _).skip fun _ _ => ?_
      exact (fails_assignEach htargets ctx htemps).map fun _ _ => .pure rfl
    · exact fun target value ht hv => hsingle ⟨target, value, ht, hv⟩

theorem stmtGenerates_expr (h : Generates e) : StmtGenerates (.expr loc e) := by
  intro ctx
  rw [stmt]
  exact (h ctx).map fun _ _ => (fails_emit _).skip fun _ _ => .pure rfl

theorem stmtGenerates_scope (hb : ∀ s ∈ b.stmts, StmtGenerates s) : StmtGenerates (.scope loc b) := by
  intro ctx
  obtain ⟨bloc, ss⟩ := b
  rw [stmt]
  exact (meets_stmts hb ctx.nested).map fun _ _ => .pure rfl

theorem stmtGenerates_whileLoop (h : Generates e) (hb : ∀ s ∈ b.stmts, StmtGenerates s) :
    StmtGenerates (.whileLoop loc e b) := by
  intro ctx
  obtain ⟨bloc, ss⟩ := b
  rw [stmt]
  refine (h ctx).bind fun _ _ => ?_
  refine (fails_loopSuite fun inner hinner => fails_suite hb hinner).map fun _ _ => ?_
  exact (fails_emit _).skip fun _ _ => .pure rfl

theorem stmtGenerates_repeatLoop (hb : ∀ s ∈ b.stmts, StmtGenerates s) (h : Generates e) :
    StmtGenerates (.repeatLoop loc b e) := by
  intro ctx
  obtain ⟨bloc, ss⟩ := b
  rw [stmt]
  refine Meets.map (Q := fun _ => True) (fails_loopSuite fun inner hinner => ?_) fun _ _ => ?_
  · have hbody := meets_stmts hb inner.nested
    rw [show inner.nested.inLoop = true from hinner] at hbody
    refine hbody.bind fun inside _ => fails_fillSuite.skip fun _ _ => ?_
    exact (h inside).map fun _ _ => fails_emit _
  · exact (fails_emit _).skip fun _ _ => .pure rfl

theorem stmtGenerates_ifElse {otherwise : Option TypedLua.Block}
    (h : Generates e) (hb : ∀ s ∈ b.stmts, StmtGenerates s) (hclauses : ∀ c ∈ clauses, c.All Generates StmtGenerates)
    (hotherwise : ∀ b ∈ otherwise, ∀ s ∈ b.stmts, StmtGenerates s) :
    StmtGenerates (.ifElse loc e b clauses otherwise) := by
  intro ctx
  rw [stmt, Stmt.obstacles, List.append_assoc, List.append_assoc]
  refine (h ctx).bind fun _ _ => (fails_blockSuite hb ctx).bind fun _ _ => ?_
  refine (fails_orElse ctx hclauses (fails_otherwiseSuite hotherwise ctx)).map fun _ _ => ?_
  exact (fails_emit _).skip fun _ _ => .pure rfl

theorem stmtGenerates_numericFor {start stop : TypedLua.Expr} {step : Option TypedLua.Expr}
    (hstart : Generates start) (hstop : Generates stop) (hstep : ∀ e ∈ step, Generates e)
    (hb : ∀ s ∈ b.stmts, StmtGenerates s) : StmtGenerates (.numericFor loc x start stop step b) := by
  intro ctx
  obtain ⟨bloc, ss⟩ := b
  rw [stmt, Stmt.obstacles, List.append_assoc, List.append_assoc]
  refine (hstart ctx).bind fun _ _ => (hstop ctx).bind fun _ _ => ?_
  cases step with
  | none =>
    refine (fails_pure none).skip fun _ _ => (meets_declare _ _).skip fun r _ => ?_
    refine (fails_loopSuite fun inner hinner => fails_suite hb hinner).map fun _ _ => ?_
    exact (fails_emit _).skip fun _ _ => .pure rfl
  | some e =>
    refine (hstep e rfl ctx).bind fun _ _ => (fails_pure _).skip fun _ _ => ?_
    refine (meets_declare _ _).skip fun r _ => ?_
    refine (fails_loopSuite fun inner hinner => fails_suite hb hinner).map fun _ _ => ?_
    exact (fails_emit _).skip fun _ _ => .pure rfl

theorem stmtGenerates_genericFor (hvals : ∀ e ∈ values, Generates e)
    (hb : ∀ s ∈ b.stmts, StmtGenerates s) : StmtGenerates (.genericFor loc names values b) := by
  intro ctx
  obtain ⟨bloc, ss⟩ := b
  rw [stmt]
  refine (fails_exprList hvals ctx).bind fun _ _ => (meets_declareAll _ _).skip fun r _ => ?_
  refine (fails_loopSuite fun inner hinner => fails_suite hb hinner).map fun _ _ => ?_
  exact (fails_emit _).skip fun _ _ => .pure rfl

theorem stmtGenerates_returnValues (hvals : ∀ e ∈ values, Generates e) :
    StmtGenerates (.returnValues loc values) := by
  intro ctx
  rcases values with _ | ⟨v, _ | ⟨w, values⟩⟩
  · rw [stmt]
    exact (fails_emit _).skip fun _ _ => .pure rfl
  · rw [stmt, Stmt.obstacles, exprsObstacles, exprsObstacles, List.append_nil]
    exact (hvals _ List.mem_cons_self ctx).map fun _ _ => (fails_emit _).skip fun _ _ => .pure rfl
  · rw [stmt]
    · exact (fails_exprList hvals ctx).map fun _ _ => (fails_emit _).skip fun _ _ => .pure rfl
    · exact List.cons_ne_nil _ _
    · exact fun _ h => nomatch h

theorem stmtGenerates_breakLoop (loc : Loc) : StmtGenerates (.breakLoop loc) := by
  intro ctx
  rw [stmt, Stmt.obstacles]
  cases h : ctx.inLoop with
  | false =>
    rw [Context.inLoop, Bool.not_eq_false'] at h
    rw [h]
    exact .throw (.breakOutside loc)
  | true =>
    have hin := h
    rw [Context.inLoop, Bool.not_eq_true'] at hin
    rw [hin]
    exact (fails_emit _).skip fun _ _ => .pure h

end Statements

end TypedLua.Target.Generate
