import TypedLua.Proofs.Parsing.Statements

/-!
# Printed chunks are read back

One lemma for each form of statement that derives its specification from those of its parts, and the
main result: the parser reads the tokens of every canonical chunk, and what it reads is that chunk up
to the places of its nodes.
-/

namespace TypedLua.Parser

theorem StmtReads.of_statement {s : Stmt} (hr : s.isReturn = false)
    (h : ∀ ctx : Context, ctx.inType = false → s.canonical ctx.varargs = true → ∀ n,
      Recovers n 0 (· = .symbol .semicolon) (s.kinds false) (SameStmt s) (statement ctx (n + 1))) : StmtReads s :=
  ⟨fun _ ctx hctx hc => .step (h ctx hctx hc), fun hret => absurd hret (by simp [hr]),
    fun l values hs => absurd hr (by simp [hs, Stmt.isReturn])⟩

/-! ## Declarations -/

variable {loc : Loc} {values : List Expr} {e condition : Expr} {body : Block} {k : Token.Kind} {ts : List Token}

theorem stmtReads_localVars (hvals : ∀ e ∈ values, Reads e) (htypes : ∀ a ∈ types, a.All Reads) :
    StmtReads (.localVars loc names values types) := by
  refine .of_statement rfl fun ctx hctx hc n => ?_
  simp only [Stmt.canonical, Bool.and_eq_true, List.isSublist_iff_sublist] at hc
  obtain ⟨⟨⟨hne, hsub⟩, hctypes⟩, hcvalues⟩ := hc
  obtain ⟨x, xs, rfl⟩ : ∃ x xs, names = x :: xs := by
    cases names with
    | nil => simp at hne
    | cons x xs => exact ⟨x, xs, rfl⟩
  obtain ⟨ks, hks⟩ := annotatedKinds_start x (typesKinds types)
  have hnames := localNames_reads x xs types hsub htypes hctypes n
  have hname (ls : List Token.Kind) (k : Token.Kind) :
      (parameterKinds false (x :: xs) (typesKinds types) ++ ls).headD k ≠ .keyword .function_ := by
    rw [parameterKinds_cons, hks]
    simp
  cases values with
  | nil =>
    refine .current fun q => .advance rfl fun _ => .refuse (fun k _ => hname _ k) ?_
    refine .bind hnames rfl (fun k hk => by rw [hk]; exact ⟨⟨rfl, by simp⟩, by simp⟩) ?_
    rintro ⟨_, types'⟩ ⟨rfl, htypes'⟩
    refine .refuse (fun k hk => by rw [hk]; simp) ?_
    exact .pure (by simp only [SameStmt, Stmt.unlocated, htypes'])
  | cons e es =>
    refine .current fun q => .advance rfl fun _ => .refuse (fun k _ => hname _ k) ?_
    refine .bind hnames rfl (fun _ _ => ⟨⟨rfl, by simp⟩, by simp⟩) ?_
    rintro ⟨_, types'⟩ ⟨rfl, htypes'⟩
    refine .accept rfl (.bind_last (expressionList_reads hctx e es hvals hcvalues n) rfl (fun k hk => ?_)
      fun values' hvals' => .pure ?_)
    · rw [hk]
      exact ⟨rfl, by simp⟩
    · simp only [SameStmt, Stmt.unlocated, htypes', hvals']

theorem stmtReads_localFunction (h : FunctionReads f) : StmtReads (.localFunction loc name f) := by
  refine .of_statement rfl fun ctx hctx hc n => ?_
  simp only [Stmt.canonical, Bool.and_eq_true, beq_iff_eq] at hc
  have hf (q : Position) := h ctx hctx hc.2 n ⟨.keyword .local_, q⟩
  rw [hc.1] at hf
  refine .current fun q => .advance rfl fun _ => .accept rfl (.expectName ?_)
  refine .bind_last (hf q) rfl (fun _ _ => trivial) fun f' hf' => .pure ?_
  simp only [SameStmt, Stmt.unlocated, hf']

/-! ## Assignments and calls -/

theorem isAssignable_unlocated (e : Expr) : isAssignable e.unlocated = isAssignable e := by
  cases e <;> simp only [Expr.unlocated, isAssignable]

theorem isCall_unlocated (e : Expr) : e.unlocated.isCall = e.isCall := by
  cases e <;> simp only [Expr.unlocated, Expr.isCall]

theorem isBase_of_isAssignable (h : isAssignable e = true) : e.isBase false = true := by
  cases e with
  | name | index => rfl
  | _ => simp [isAssignable] at h

theorem isBase_of_isCall (h : e.isCall = true) (t : Bool) : e.isBase t = true := by
  cases e with
  | call | method => rfl
  | _ => simp [Expr.isCall] at h

theorem ensureAssignable_eq (h : isAssignable e = true) (he : SameExpr e e') :
    ensureAssignable e' = pure e' := by
  have hassignable : isAssignable e' = true := by rw [← isAssignable_unlocated, he, isAssignable_unlocated, h]
  rw [ensureAssignable, if_pos hassignable]

theorem moreTargets_reads {ctx : Context} (hctx : ctx.inType = false) : ∀ es : List Expr, (∀ e ∈ es, Reads e) →
    es.all isAssignable = true → canonicalExprs false ctx.varargs es = true → ∀ n,
    Recovers n 1 (· = .symbol .assign) (moreKinds false es) (SameExprs es) (moreTargets ctx n)
  | [], _, _, _ => .step fun n => by
    exact .refuse (fun k hk => by rw [moreKinds, List.headD_nil, hk]; simp) (.pure rfl)
  | e :: es, hreads, hall, hc => .step fun n => by
    rw [List.all_cons, Bool.and_eq_true] at hall
    rw [canonicalExprs, Bool.and_eq_true] at hc
    have hfirst := (hreads e (by simp)).base hctx (isBase_of_isAssignable hall.1) hc.1 n
    have hmore := moreTargets_reads hctx es (fun e' he' => hreads e' (List.mem_cons_of_mem e he')) hall.2 hc.2 n
    refine .accept rfl (.bind hfirst rfl (fun k hk => ?_) fun e' he => ?_)
    · cases es with
      | nil => rw [moreKinds, List.headD_nil, hk]; rfl
      | cons => rfl
    · rw [ensureAssignable_eq hall.1 he, pure_bind]
      exact .bind_last hmore rfl (fun _ => id) fun es' hes => .pure (by simp only [SameExprs, unlocatedExprs, he, hes])

theorem statement_suffixed
    {H : Token.Kind → Prop} {P : Stmt → Prop} (hb : e.isBase false = true) (hc : e.canonical false v = true)
    (h : ∀ loc, Recovers n 0 H (e.kinds false ++ ls) P (do
      let e ← suffixed ctx n
      let next ← current
      if next.kind == .symbol .assign || next.kind == .symbol .comma then
        let target ← ensureAssignable e
        let targets ← moreTargets ctx n
        let _ ← expect (.symbol .assign) .assignmentAssign
        let values ← expressionList ctx n
        return .assign loc (target :: targets) values
      else
        match e with
        | .call .. | .method .. => return .expr loc e
        | _ => failure .statement : Parse Stmt)) :
    Recovers n 0 H (e.kinds false ++ ls) P (statement ctx (n + 1)) := by
  obtain ⟨k, ks, hk, hstart⟩ := kinds_of_isBase e hb hc
  rw [hk] at h ⊢
  refine .current fun p => ?_
  rcases hstart with ⟨x, rfl⟩ | rfl
  · exact h (some p)
  · exact h (some p)

theorem stmtReads_assign (htargets : ∀ e ∈ targets, Reads e) (hvals : ∀ e ∈ values, Reads e) :
    StmtReads (.assign loc targets values) := by
  refine .of_statement rfl fun ctx hctx hc n => ?_
  simp only [Stmt.canonical, Bool.and_eq_true] at hc
  obtain ⟨⟨⟨⟨hne, hne'⟩, hall⟩, hctargets⟩, hcvalues⟩ := hc
  cases targets with
  | nil => simp at hne
  | cons e es =>
  cases values with
  | nil => simp at hne'
  | cons value values =>
  rw [List.all_cons, Bool.and_eq_true] at hall
  rw [canonicalExprs, Bool.and_eq_true] at hctargets
  have hb := isBase_of_isAssignable hall.1
  have hmore := moreTargets_reads hctx es (fun e' he' => htargets e' (List.mem_cons_of_mem e he')) hall.2 hctargets.2 n
  have hnext (ks : List Token.Kind) (k : Token.Kind) :
      (moreKinds false es ++ .symbol .assign :: ks).headD k = .symbol .assign ∨
      (moreKinds false es ++ .symbol .assign :: ks).headD k = .symbol .comma := by
    cases es with
    | nil => exact Or.inl rfl
    | cons => exact Or.inr rfl
  -- The calls behind the first target need the depth that its tokens are good for.
  have hpos : 16 ≤ 16 * (e.kinds false).length := by
    obtain ⟨k, ks, hk, -⟩ := kinds_of_isBase e hb hctargets.1
    rw [hk, List.length_cons]
    omega
  rw [Stmt.kinds, listKinds, List.append_assoc]
  refine statement_suffixed hb hctargets.1 fun loc' => ?_
  refine .bind_of hpos ((htargets e (by simp)).base hctx hb hctargets.1 n) rfl (fun k _ => ?_) fun e' he => ?_
  · rcases hnext (listKinds false (value :: values)) k with h | h <;> rw [h] <;> rfl
  · refine .peek fun next k _ hk => ?_
    have hgoes : (next.kind == .symbol .assign || next.kind == .symbol .comma) = true := by
      rw [hk, Bool.or_eq_true, beq_iff_eq, beq_iff_eq]
      exact hnext _ k
    rw [if_pos hgoes, ensureAssignable_eq hall.1 he, pure_bind]
    refine .bind hmore rfl (fun _ _ => rfl) fun es' hes => .expect rfl fun _ => ?_
    refine .bind_last (expressionList_reads hctx value values hvals hcvalues n) rfl (fun k hk => ?_)
      fun values' hvals' => .pure ?_
    · rw [hk]
      exact ⟨rfl, by simp⟩
    · simp only [SameStmt, Stmt.unlocated, unlocatedExprs, he, hes, hvals']

theorem stmtReads_expr (h : Reads e) : StmtReads (.expr loc e) := by
  refine .of_statement rfl fun ctx hctx hc n => ?_
  simp only [Stmt.canonical, Bool.and_eq_true] at hc
  have hb := isBase_of_isCall hc.1
  rw [Stmt.kinds, ← List.append_nil (e.kinds false)]
  refine statement_suffixed (hb _) hc.2 fun loc' => ?_
  refine .bind (h.base hctx (hb _) hc.2 n) rfl (fun k hk => by rw [List.headD_nil, hk]; rfl) fun e' he => ?_
  have hcall : e'.isCall = true := by rw [← isCall_unlocated, he, isCall_unlocated, hc.1]
  refine .peek fun t k hk ht => ?_
  rw [if_neg (by rw [ht, List.headD_nil, hk]; simp)]
  cases e' with
  | call | method => exact .pure (by simp only [SameStmt, Stmt.unlocated, he])
  | _ => simp [Expr.isCall] at hcall

/-! ## Blocks, loops and conditions -/

theorem stmtReads_scope (hbody : ∀ s ∈ body.stmts, StmtReads s) : StmtReads (.scope loc body) := by
  refine .of_statement rfl fun ctx hctx hc n => ?_
  refine .current fun q => .advance rfl fun _ => .bind (block_reads hctx hbody hc n) rfl (fun _ _ => rfl)
    fun body' hbody' => .expect rfl fun _ => .pure ?_
  simp only [SameStmt, Stmt.unlocated, hbody']

theorem stmtReads_whileLoop (hcond : Reads condition) (hbody : ∀ s ∈ body.stmts, StmtReads s) :
    StmtReads (.whileLoop loc condition body) := by
  refine .of_statement rfl fun ctx hctx hc n => ?_
  simp only [Stmt.canonical, Bool.and_eq_true] at hc
  refine .current fun q => .advance rfl fun _ => ?_
  refine .bind (hcond.whole hctx hc.1 n) rfl (fun _ _ => rfl) fun condition' hcond' => .expect rfl fun _ => ?_
  refine .bind (block_reads hctx hbody hc.2 n) rfl (fun _ _ => rfl) fun body' hbody' => .expect rfl fun _ => .pure ?_
  simp only [SameStmt, Stmt.unlocated, hcond', hbody']

theorem stmtReads_repeatLoop (hcond : Reads condition) (hbody : ∀ s ∈ body.stmts, StmtReads s) :
    StmtReads (.repeatLoop loc body condition) := by
  refine .of_statement rfl fun ctx hctx hc n => ?_
  simp only [Stmt.canonical, Bool.and_eq_true] at hc
  refine .current fun q => .advance rfl fun _ => ?_
  refine .bind (block_reads hctx hbody hc.1 n) rfl (fun _ _ => rfl) fun body' hbody' => .expect rfl fun _ => ?_
  refine .bind_last (hcond.whole hctx hc.2 n) rfl (fun k hk => by rw [hk]; rfl) fun condition' hcond' => ?_
  exact .pure (by simp only [SameStmt, Stmt.unlocated, hcond', hbody'])

/-- The tokens that end the last block of a conditional or go on with another. -/
def endsClauses : Token.Kind → Bool
  | .keyword .end_ | .keyword .else_ => true
  | _ => false

theorem endsBlock_of_endsClauses (h : endsClauses k = true) : endsBlock k = true ∧ k ≠ .keyword .elseif_ := by
  unfold endsClauses at h
  split at h
  · exact ⟨rfl, by simp⟩
  · exact ⟨rfl, by simp⟩
  · simp at h

theorem clausesKinds_headD (h : endsClauses k = true) : endsBlock ((clausesKinds clauses).headD k) = true := by
  cases clauses with
  | nil => exact (endsBlock_of_endsClauses h).1
  | cons c => cases c; rfl

theorem elseifClauses_reads {ctx : Context} (hctx : ctx.inType = false) : ∀ clauses : List Clause,
    (∀ c ∈ clauses, c.All Reads StmtReads) → canonicalClauses ctx.varargs clauses = true → ∀ n,
    Recovers n 1 (endsClauses · = true) (clausesKinds clauses)
      (fun clauses' => unlocatedClauses clauses' = unlocatedClauses clauses) (elseifClauses ctx n)
  | [], _, _ => .step fun n => by
    exact .refuse (fun k hk => (endsBlock_of_endsClauses hk).2) (.pure rfl)
  | .mk condition body :: clauses, hreads, hc => .step fun n => by
    simp only [canonicalClauses, Bool.and_eq_true] at hc
    obtain ⟨hcond, hbody⟩ := hreads _ List.mem_cons_self
    have hmore := elseifClauses_reads hctx clauses (fun c hmem => hreads c (List.mem_cons_of_mem _ hmem)) hc.2 n
    refine .accept rfl (.bind (hcond.whole hctx hc.1.1 n) rfl (fun _ _ => rfl) fun condition' hcond' => ?_)
    refine .expect rfl fun _ => .bind (block_reads hctx hbody hc.1.2 n) rfl (fun k hk => clausesKinds_headD hk)
      fun body' hbody' => .bind_last hmore rfl (fun _ => id) fun clauses' hclauses' => .pure ?_
    simp only [unlocatedClauses, hcond', hbody', hclauses']

theorem stmtReads_ifElse (hcond : Reads condition) (hbody : ∀ s ∈ body.stmts, StmtReads s)
    (hclauses : ∀ c ∈ clauses, c.All Reads StmtReads) (hotherwise : ∀ b ∈ otherwise, ∀ s ∈ b.stmts, StmtReads s) :
    StmtReads (.ifElse loc condition body clauses otherwise) := by
  refine .of_statement rfl fun ctx hctx hc n => ?_
  simp only [Stmt.canonical, Bool.and_eq_true] at hc
  obtain ⟨⟨⟨hccondition, hcbody⟩, hcclauses⟩, hcotherwise⟩ := hc
  -- Behind the clauses stands `else` or `end`, and each of them ends the block in front of it.
  have hrest (k : Token.Kind) :
      endsClauses ((optionBlockKinds otherwise ++ [Token.Kind.keyword .end_]).headD k) = true := by
    cases otherwise <;> rfl
  refine .current fun q => .advance rfl fun _ => ?_
  refine .bind (hcond.whole hctx hccondition n) rfl (fun _ _ => rfl) fun condition' hcond' => ?_
  refine .expect rfl fun _ => .bind (block_reads hctx hbody hcbody n) rfl (fun k _ => ?_) fun body' hbody' => ?_
  · cases clauses with
    | nil => exact (endsBlock_of_endsClauses (hrest k)).1
    | cons c => cases c; rfl
  refine .bind (elseifClauses_reads hctx clauses hclauses hcclauses n) rfl (fun k _ => hrest k)
    fun clauses' hclauses' => ?_
  cases otherwise with
  | none =>
    refine .refuse (fun _ _ => by simp [optionBlockKinds]) ?_
    rw [pure_bind]
    exact .expect rfl fun _ => .pure (by simp only [SameStmt, Stmt.unlocated, hcond', hbody', hclauses'])
  | some b =>
    have hb : Recovers n 3 (endsBlock · = true) b.kinds
        (fun o => unlocatedOptionBlock o = unlocatedOptionBlock (some b)) (some <$> block ctx n) :=
      .map (block_reads hctx (hotherwise b rfl) hcotherwise n) fun b' hb' => by simp only [unlocatedOptionBlock, hb']
    refine .accept rfl (.bind hb rfl (fun _ _ => rfl) fun o ho => .expect rfl fun _ => .pure ?_)
    simp only [SameStmt, Stmt.unlocated, hcond', hbody', hclauses', ho]

theorem stmtReads_numericFor (hstart : Reads start) (hstop : Reads stop) (hstep : ∀ e ∈ step, Reads e)
    (hbody : ∀ s ∈ body.stmts, StmtReads s) : StmtReads (.numericFor loc counter start stop step body) := by
  refine .of_statement rfl fun ctx hctx hc n => ?_
  simp only [Stmt.canonical, Bool.and_eq_true] at hc
  obtain ⟨⟨⟨hcstart, hcstop⟩, hcstep⟩, hcbody⟩ := hc
  have hblock := block_reads hctx hbody hcbody n
  refine .current fun q => .advance rfl fun _ => .expectName (.accept rfl ?_)
  refine .bind (hstart.whole hctx hcstart n) rfl (fun _ _ => rfl) fun start' hstart' => .expect rfl fun _ => ?_
  refine .bind (hstop.whole hctx hcstop n) rfl (fun k _ => by cases step <;> rfl) fun stop' hstop' => ?_
  cases step with
  | none =>
    refine .refuse (fun _ _ => by simp [optionKinds]) ?_
    rw [pure_bind]
    refine .expect rfl fun _ => .bind hblock rfl (fun _ _ => rfl) fun body' hbody' => .expect rfl fun _ => .pure ?_
    simp only [SameStmt, Stmt.unlocated, hstart', hstop', hbody']
  | some step =>
    have hmap : Recovers n 0 (endsExpression · = true) (step.kinds false)
        (fun o => unlocatedOption o = unlocatedOption (some step)) (some <$> expression ctx n 0) :=
      .map ((hstep step rfl).whole hctx hcstep n) fun step' hstep' => by simp only [unlocatedOption, hstep']
    refine .accept rfl (.bind hmap rfl (fun _ _ => rfl) fun o ho => .expect rfl fun _ => ?_)
    refine .bind hblock rfl (fun _ _ => rfl) fun body' hbody' => .expect rfl fun _ => .pure ?_
    simp only [SameStmt, Stmt.unlocated, hstart', hstop', hbody', ho]

theorem moreLoopNames_reads : ∀ (xs : List String) (n : Nat),
    Recovers n 1 (· ≠ .symbol .comma) (moreNames xs) (· = xs) (moreLoopNames n)
  | [], n => .step (fun n => by
    exact .refuse (fun _ => id) (.pure rfl)) n
  | x :: xs, n => .step (fun n => by
    refine .accept rfl (.expectName (.bind_last (moreLoopNames_reads xs n) rfl (fun _ => id) ?_))
    rintro _ rfl
    exact .pure rfl) n

theorem stmtReads_genericFor (hiters : ∀ e ∈ iterators, Reads e) (hbody : ∀ s ∈ body.stmts, StmtReads s) :
    StmtReads (.genericFor loc names iterators body) := by
  refine .of_statement rfl fun ctx hctx hc n => ?_
  simp only [Stmt.canonical, Bool.and_eq_true] at hc
  obtain ⟨⟨⟨hne, hne'⟩, hciterators⟩, hcbody⟩ := hc
  cases names with
  | nil => simp at hne
  | cons x xs =>
  cases iterators with
  | nil => simp at hne'
  | cons e es =>
  refine .current fun q => .advance rfl fun _ => .expectName (.refuse (fun _ _ => ?_) ?_)
  · cases xs <;> simp [moreNames]
  refine .bind (moreLoopNames_reads xs n) rfl (fun _ _ => by simp) ?_
  rintro _ rfl
  refine .expect rfl fun _ => .bind (expressionList_reads hctx e es hiters hciterators n) rfl
    (fun _ _ => ⟨rfl, by simp⟩) fun es' hes => .expect rfl fun _ => ?_
  refine .bind (block_reads hctx hbody hcbody n) rfl (fun _ _ => rfl) fun body' hbody' => .expect rfl fun _ => .pure ?_
  simp only [SameStmt, Stmt.unlocated, hes, hbody']

theorem stmtReads_breakLoop (loc : Loc) : StmtReads (.breakLoop loc) := by
  refine .of_statement rfl fun ctx _ _ n => ?_
  exact .current fun q => .advance rfl fun _ => .pure rfl

theorem stmtReads_returnValues (h : ∀ e ∈ values, Reads e) : StmtReads (.returnValues loc values) :=
  ⟨fun hr => absurd hr (by simp [Stmt.isReturn]), fun _ _ hctx hc => returnStatement_reads hctx loc h hc,
    fun l values' hs => by cases hs; exact h⟩

/-! ## All trees -/

theorem treeReads : TreeClosed Reads FunctionReads StmtReads where
  nil := .nil
  bool := .bool
  number := .number
  string := .string
  vararg := .vararg
  name := .name
  function _ hf := .function hf
  signature _ _ _ hparams hbody := .signature hparams hbody
  table _ _ hfields := .table hfields
  binary _ _ _ _ hleft hright := .binary hleft hright
  unary _ _ _ hoperand := .unary hoperand
  call _ _ _ hcallee hargs := .call hcallee hargs
  method _ _ _ _ hobj hargs := .method hobj hargs
  index _ _ _ hobj hkey := .index hobj hkey
  paren _ _ hinner := .paren hinner
  block _ _ _ _ _ := .of_climbs (fun _ => rfl) fun _ hc => by simp [Expr.canonical] at hc
  definition _ _ _ _ _ _ _ hbody htypes hres := functionReads htypes hres hbody
  localVars _ _ _ _ hvals htypes := stmtReads_localVars hvals htypes
  localFunction _ _ _ hf := stmtReads_localFunction hf
  assign _ _ _ htargets hvals := stmtReads_assign (fun e he => (htargets e he).1) hvals
  expr _ _ he := stmtReads_expr he
  scope _ _ hbody := stmtReads_scope hbody
  whileLoop _ _ _ hcond hbody := stmtReads_whileLoop hcond hbody
  repeatLoop _ _ _ hbody hcond := stmtReads_repeatLoop hcond hbody
  ifElse _ _ _ _ _ hcond hbody hclauses hotherwise := stmtReads_ifElse hcond hbody hclauses hotherwise
  numericFor _ _ _ _ _ _ hstart hstop hstep hbody := stmtReads_numericFor hstart hstop hstep hbody
  genericFor _ _ _ _ hiters hbody := stmtReads_genericFor hiters hbody
  returnValues _ _ hvals := stmtReads_returnValues hvals
  breakLoop := stmtReads_breakLoop

/-! ## Chunks -/

theorem ne_directive_of_isPlain (h : isPlain k = true) (on : Bool) : k ≠ .directive on := by
  rintro rfl
  simp [isPlain] at h

theorem withoutDirectives_plain (marks : List Token) (h : plain (ts.map Token.kind) = true) :
    withoutDirectives (marks ++ ts) = withoutDirectives marks ++ ts := by
  rw [withoutDirectives, List.filter_append]
  congr 1
  refine List.filter_eq_self.2 fun t ht => ?_
  have := ne_directive_of_isPlain (List.all_eq_true.1 h t.kind (List.mem_map_of_mem ht))
  split
  · next on hon => exact absurd hon (this on)
  · rfl

theorem lastDirective_plain (marks : List Token) (h : plain (ts.map Token.kind) = true) :
    lastDirective (marks ++ ts) = lastDirective marks := by
  induction ts generalizing marks with
  | nil => rw [List.append_nil]
  | cons t ts ih =>
    rw [List.map_cons, plain_cons, Bool.and_eq_true] at h
    rw [List.append_cons, ih _ h.2, lastDirective, List.foldl_append]
    have := ne_directive_of_isPlain h.1
    rw [List.foldl_cons, List.foldl_nil]
    split
    · next on hon => exact absurd hon (this on)
    · rfl

theorem chunkBody_reads (registry : String) (hc : body.canonical true = true)
    (hts : ts.map Token.kind = body.kinds ++ [.eof]) : ∃ body' rest, body'.unlocated = body.unlocated ∧
      chunkBody ⟨registry, false, true⟩ (depthBound ts.length) ts = .ok (body', rest) := by
  obtain ⟨ts, _, rfl, hbody, heof⟩ := spells_append hts
  obtain ⟨p, rfl⟩ := spells_singleton heof
  obtain ⟨loc, stmts⟩ := body
  have hdepth : 16 * ts.length + 3 ≤ depthBound (ts ++ [(⟨.eof, p⟩ : Token)]).length := by
    rw [depthBound, List.length_append]
    omega
  obtain ⟨body', hbody', hrun⟩ := @block_reads ⟨registry, false, true⟩ rfl (.mk loc stmts)
    (treeReads.ofStmts stmts) hc _ ts [⟨.eof, p⟩] hbody hdepth rfl
  refine ⟨body', [⟨.eof, p⟩], hbody', ?_⟩
  rw [chunkBody, bind_run hrun, bind_run (current_run _)]
  rfl

/-- The parser reads the tokens of a canonical chunk, wherever they stand, and what it reads is that
chunk up to the places of its nodes. -/
theorem parse_printed (registry : String) (c : Chunk) (hc : c.canonical = true) (ts : List Token)
    (hts : ts.map Token.kind = c.kinds) : ∃ c', parse registry ts = .ok c' ∧ c'.unlocated = c.unlocated := by
  obtain ⟨loc, body, typecheck⟩ := c
  obtain ⟨marks, ts, rfl, hmarks, hbody⟩ := spells_append hts
  have hplain : plain (ts.map Token.kind) = true := by
    obtain ⟨l, stmts⟩ := body
    rw [hbody, Block.kinds, plain_append, plain_stmts]
    rfl
  have hlast : lastDirective (marks ++ ts) = typecheck ∧ withoutDirectives (marks ++ ts) = ts := by
    rw [lastDirective_plain marks hplain, withoutDirectives_plain marks hplain]
    cases typecheck with
    | none =>
      rw [show marks = [] by simpa using hmarks]
      exact ⟨rfl, rfl⟩
    | some on =>
      obtain ⟨p, rfl⟩ := spells_singleton hmarks
      exact ⟨rfl, rfl⟩
  obtain ⟨body', rest, hbody', hrun⟩ := chunkBody_reads registry hc hbody
  refine ⟨⟨some (head ts).position, body', typecheck⟩, ?_, ?_⟩
  · rw [parse, hlast.1, hlast.2]
    simp only [hrun]
  · rw [Chunk.unlocated, Chunk.unlocated, hbody']

/-- A chunk with checks switched on in which operators of different levels, suffixes, types and blocks
meet:

```
local a :: function(number); return {number,}; end, b = -x ^ -2 .. y .. z, not (p or q);
a[1].m, b = 2 - 3 - 4;
local function f(s :: any, ...) :: number; return f(...):g(s); end;
for k, v in pairs(a) do f(k, function(w); while w < 1 do break; end; end); end;
```
-/
def sampleChunk : Chunk :=
  let name (x : String) : Expr := .name none x
  let int (n : Int) : Expr := .number none (.int n)
  ⟨none, .mk none [ .localVars none ["a", "b"] [.binary none
          (.unary none .neg (.binary none (name "x") .pow (.unary none .neg (int 2))))
          .concat (.binary none (name "y") .concat (name "z")),
        .unary none .not (.paren none (.binary none (name "p") .or (name "q")))]
      [.mk "a" (.signature none [name "number"]
        (.mk none [.returnValues none [.table none [.mk none none (name "number")]]]))],
    .assign none [.index none (.index none (name "a") (int 1)) (.string none "m"), name "b"]
      [.binary none (.binary none (int 2) .sub (int 3)) .sub (int 4)],
    .localFunction none "f" (.mk none ["s"] true (.mk none [.returnValues none
        [.method none (.call none (name "f") [.vararg none]) "g" [name "s"]]])
      [.mk "s" (name "any")] (some (name "number")) (some "f")),
    .genericFor none ["k", "v"] [.call none (name "pairs") [name "a"]]
      (.mk none [.expr none (.call none (name "f") [name "k", .function (.mk none ["w"] false
        (.mk none [.whileLoop none (.binary none (name "w") .lt (int 1))
          (.mk none [.breakLoop none])]) [] none none)])])],
    some true⟩

theorem parse_printed_sampleChunk : sampleChunk.canonical = true ∧
      ∃ c', parse "types" (sampleChunk.kinds.map (⟨·, .start⟩)) = .ok c' ∧ c'.unlocated = sampleChunk.unlocated :=
  ⟨by decide, parse_printed "types" sampleChunk (by decide) _ (by simp [Function.comp_def])⟩

end TypedLua.Parser
