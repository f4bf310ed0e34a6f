import TypedLua.Proofs.Parsing.Expressions

/-!
# Reading statements back

Specifications of what the parser does on the tokens of canonical statements, functions and types,
and one lemma for each form.
-/

namespace TypedLua.Parser

/-! ## Specifications -/

abbrev SameStmt (s s' : Stmt) : Prop := s'.unlocated = s.unlocated

/-- What the parser does on the tokens of a statement with the semicolon behind it. -/
structure StmtReads (s : Stmt) : Prop where
  single : s.isReturn = false → ∀ ctx : Context, ctx.inType = false → s.canonical ctx.varargs = true →
    ∀ n, Recovers n 1 (· = .symbol .semicolon) (s.kinds false) (SameStmt s) (statement ctx n)
  last : s.isReturn = true → ∀ ctx : Context, ctx.inType = false → s.canonical ctx.varargs = true →
    ∀ n, Recovers n 1 (endsBlock · = true) (s.kinds false ++ [.symbol .semicolon]) (SameStmt s)
      (returnStatement ctx n)
  results : ∀ (l : Loc) (values : List Expr), s = .returnValues l values → ∀ e ∈ values, Reads e

def FunctionReads (f : Function) : Prop :=
  ∀ ctx : Context, ctx.inType = false → f.canonical ctx.varargs = true → ∀ n first,
    Recovers n 1 (fun _ => True) f.kinds (fun f' => f'.unlocated = f.unlocated)
      (functionBody ctx n first f.label false)

/-! ## Blocks -/

def startsStatement (k : Token.Kind) : Prop := endsBlock k = false ∧ k ≠ .symbol .semicolon ∧ k ≠ .keyword .return_

theorem startsStatement_of_starts (h : startsExpression k = true) : startsStatement k := by
  refine ⟨?_, ?_, ?_⟩
  · cases k with
    | keyword w => cases w <;> first | rfl | exact absurd h (by simp [startsExpression])
    | eof => exact absurd h (by simp [startsExpression])
    | _ => rfl
  · rintro rfl
    exact absurd h (by simp [startsExpression])
  · rintro rfl
    exact absurd h (by simp [startsExpression])

theorem stmt_kinds_start {s : Stmt} (hr : s.isReturn = false)
    (hc : s.canonical v = true) : ∃ k ks, s.kinds false = k :: ks ∧ startsStatement k := by
  cases s with
  | assign _ targets values =>
    simp only [Stmt.canonical, Bool.and_eq_true] at hc
    cases targets with
    | nil => simp at hc
    | cons e es =>
      obtain ⟨k, ks, hk, hstart, _⟩ := starts_listKinds hc.1.2
      exact ⟨k, _, by rw [Stmt.kinds, hk]; rfl, startsStatement_of_starts hstart⟩
  | expr _ e =>
    simp only [Stmt.canonical, Bool.and_eq_true] at hc
    obtain ⟨k, ks, hk, hstart, _⟩ := starts_kinds e hc.2
    exact ⟨k, ks, by rw [Stmt.kinds, hk], startsStatement_of_starts hstart⟩
  | genericFor _ names =>
    cases names with
    | nil => simp [Stmt.canonical] at hc
    | cons => exact ⟨_, _, by rw [Stmt.kinds], rfl, by simp, by simp⟩
  | localVars _ _ values => cases values <;> exact ⟨_, _, by rw [Stmt.kinds], rfl, by simp, by simp⟩
  | returnValues => simp [Stmt.isReturn] at hr
  | _ => exact ⟨_, _, by rw [Stmt.kinds], rfl, by simp, by simp⟩

variable {ctx : Context} {ks : List Token.Kind} {params : List Expr} {loc : Loc} {body : Block}
  {xs : List String} {types : List Annotation} {isVararg : Bool}

theorem statements_semicolon {H : Token.Kind → Prop} {P : List Stmt → Prop}
    (h : ∀ n, Recovers n 2 H ks P (statements ctx n)) (n depth : Nat) :
    Recovers n (depth + 1) H (.symbol .semicolon :: ks) P (statements ctx n) := by
  refine .step (fun n => ?_) n
  refine .current fun p => ?_
  rw [if_neg (by simp [endsBlock])]
  exact .accept rfl (.call (h n) (Nat.ble_eq_true_of_le (by omega)) fun _ => id)

theorem statements_reads {ctx : Context} (hctx : ctx.inType = false) : ∀ ss : List Stmt,
    (∀ s ∈ ss, StmtReads s) → canonicalStmts ctx.varargs ss = true → ∀ n,
    Recovers n 2 (endsBlock · = true) (stmtsKinds false ss)
      (fun ss' => unlocatedStmts ss' = unlocatedStmts ss) (statements ctx n)
  | [], _, _ => .step fun n => by
    refine .peek fun t k hk ht => ?_
    rw [if_pos (by rw [ht]; exact hk)]
    exact .pure rfl
  | s :: ss, hreads, hc => .step fun n => by
    simp only [canonicalStmts, Bool.and_eq_true, Bool.or_eq_true, Bool.not_eq_true'] at hc
    rw [statements, stmtsKinds]
    by_cases hr : s.isReturn = true
    · -- nothing follows a `return`
      have hlast : ss = [] := by
        rcases hc.1.2 with h | h
        · exact List.isEmpty_iff.1 h
        · rw [hr] at h
          exact absurd h (by simp)
      have hhead (k : Token.Kind) (ls : List Token.Kind) : (s.kinds false ++ ls).headD k = .keyword .return_ := by
        cases s with
        | returnValues => rw [Stmt.kinds, List.cons_append, List.headD_cons]
        | _ => simp [Stmt.isReturn] at hr
      subst hlast
      refine .peek fun t k _ ht => ?_
      rw [hhead] at ht
      rw [if_neg (by simp [ht, endsBlock])]
      refine .refuse (fun k _ => by rw [hhead]; simp) ?_
      rw [if_pos (by simp [ht])]
      refine .bind_last ((hreads s (by simp)).last hr ctx hctx hc.1.1 n) rfl (fun _ => id) fun s' hs => .pure ?_
      simp only [unlocatedStmts, hs]
    · rw [Bool.not_eq_true] at hr
      have hmore := statements_reads hctx ss (fun s' hs' => hreads s' (List.mem_cons_of_mem s hs')) hc.2
      have hstart (k : Token.Kind) (ls : List Token.Kind) : startsStatement ((s.kinds false ++ ls).headD k) := by
        obtain ⟨k', ks, hk, hstart⟩ := stmt_kinds_start hr hc.1.1
        rwa [hk]
      refine .peek fun t k _ ht => ?_
      rw [if_neg (by rw [ht, (hstart _ _).1]; simp)]
      refine .refuse (fun k _ => (hstart _ _).2.1) ?_
      rw [if_neg (by rw [ht, beq_iff_eq]; exact (hstart _ _).2.2)]
      refine .bind ((hreads s (by simp)).single hr ctx hctx hc.1.1 n) rfl (fun _ _ => rfl) fun s' hs => ?_
      refine .bind_last (statements_semicolon hmore n 0) rfl (fun _ => id) fun ss' hss => .pure ?_
      simp only [unlocatedStmts, hs, hss]

theorem block_of_statements {H : Token.Kind → Prop} {P : List Stmt → Prop} {Q : Block → Prop}
    (h : ∀ n, Recovers n 2 H ks P (statements ctx n)) (hQ : ∀ l ss, P ss → Q (.mk l ss)) (n : Nat) :
    Recovers n 3 H ks Q (block ctx n) := by
  refine .step (fun n => ?_) n
  exact .peek fun t _ _ _ => .bind_last (h n) rfl (fun _ => id) fun ss hss => .pure (hQ _ ss hss)

theorem block_reads (hctx : ctx.inType = false) {b : Block} (hreads : ∀ s ∈ b.stmts, StmtReads s)
    (hc : b.canonical ctx.varargs = true) :
    ∀ n, Recovers n 3 (endsBlock · = true) b.kinds (fun b' => b'.unlocated = b.unlocated) (block ctx n) := by
  obtain ⟨loc, ss⟩ := b
  refine block_of_statements (statements_reads hctx ss hreads hc) fun l ss' hss => ?_
  simp only [Block.unlocated, hss]

/-! ## Results and function types -/

theorem returnStatement_reads (hctx : ctx.inType = t) (loc : Loc)
    (hreads : ∀ e ∈ values, Reads e) (hc : canonicalExprs t ctx.varargs values = true) (n : Nat) :
    Recovers n 1 (endsBlock · = true) (.keyword .return_ :: (listKinds t values ++ [.symbol .semicolon]))
      (SameStmt (.returnValues loc values)) (returnStatement ctx n) := by
  refine .step (fun n => ?_) n
  refine .advance rfl fun q => .peek fun next k _ hnext => ?_
  have hend (values' : List Expr) (hvals : SameExprs values values') : Recovers n 16 (endsBlock · = true)
      [.symbol .semicolon] (SameStmt (.returnValues loc values)) (do
        let _ ← accept (.symbol .semicolon)
        if endsBlock (← current).kind then return .returnValues (some q) values' else failure .returnNotLast) := by
    refine .token (accept_hit (by decide)) fun _ => .peek fun t k hk ht => ?_
    rw [if_pos (by rw [ht]; exact hk)]
    exact .pure (by simp only [SameStmt, Stmt.unlocated, hvals])
  cases values with
  | nil =>
    rw [if_pos (by rw [hnext]; rfl), pure_bind]
    exact hend [] rfl
  | cons e es =>
    -- Values start with a token that neither ends the block nor closes the statement.
    have hgoes : (endsBlock next.kind || next.kind == .symbol .semicolon) = false := by
      obtain ⟨k, ks, hk, hstart, -⟩ := starts_listKinds hc
      have hstart' := startsStatement_of_starts hstart
      rw [hnext, hk, List.cons_append, List.headD_cons, hstart'.1, Bool.false_or]
      exact beq_eq_false_iff_ne.2 hstart'.2.1
    rw [hgoes, if_neg (by simp)]
    exact .bind (expressionList_reads hctx e es hreads hc n) rfl (fun _ _ => ⟨rfl, by simp⟩) hend

theorem functionSignature_reads (hreads : ∀ e ∈ params, Reads e)
    (hc : canonicalExprs ctx.inType ctx.varargs params = true) {P : Block → Prop} {Q : Expr → Prop}
    (hbody : ∀ n, Recovers n 3 (endsBlock · = true) ks P (block ctx n))
    (hQ : ∀ l params' body, SameExprs params params' → P body → Q (.signature l params' body))
    (first : Token) (n : Nat) : Recovers n 1 (fun _ => True) (.symbol .lparen :: (listKinds ctx.inType params ++
      .symbol .rparen :: (ks ++ [.keyword .end_]))) Q (functionSignature ctx n first) := by
  refine .step (p := (functionSignature ctx · first)) (fun n => ?_) n
  refine .expect rfl fun _ => ?_
  have hend (params' : List Expr) (hparams : SameExprs params params') : Recovers n 16 (fun _ => True)
      (.symbol .rparen :: (ks ++ [.keyword .end_])) Q (do
        let _ ← expect (.symbol .rparen) .closeSignature
        let body ← block ctx n
        let _ ← expect (.keyword .end_) (.endOf "function type")
        return .signature (some first.position) params' body) :=
    .expect rfl fun _ => .bind (hbody n) rfl (fun _ _ => rfl) fun body hb =>
      .expect rfl fun _ => .pure (hQ _ _ _ hparams hb)
  cases params with
  | nil => exact .checked (fun _ _ => rfl) (by rw [pure_bind]; exact hend [] rfl)
  | cons e es =>
    refine .check (fun k _ => (starts_listKinds hc).headD_ne rfl _ k) ?_
    exact .bind (expressionList_reads rfl e es hreads hc n) rfl (fun _ _ => ⟨rfl, by simp⟩) hend

theorem canonical_signature (h : (Expr.signature loc params body).canonical t v = true) :
    t = true ∧ canonicalExprs t v params = true ∧
      ∃ l l' result, body = .mk l [.returnValues l' [result]] ∧ result.canonical t v = true := by
  unfold Expr.canonical at h
  split at h
  case h_8 heq =>
    cases heq
    simp only [Bool.and_eq_true] at h
    exact ⟨h.1.1, h.1.2, _, _, _, rfl, h.2⟩
  all_goals simp_all

theorem Reads.signature (hparams : ∀ e ∈ params, Reads e) (hbody : ∀ s ∈ body.stmts, StmtReads s) :
    Reads (.signature loc params body) := by
  refine .of_climbs (fun _ => rfl) fun ctx hc => ?_
  obtain ⟨htype, hcparams, l, l', result, rfl, hcresult⟩ := canonical_signature hc
  have hres := (hbody _ List.mem_cons_self).results _ _ rfl
  have hreturn := returnStatement_reads rfl l' hres (by simpa [canonicalExprs] using hcresult)
  -- `statements_reads` does not apply: the block of a function type is read inside the type.
  have hstmts (n : Nat) : Recovers n 2 (endsBlock · = true) (.keyword .return_ :: (listKinds ctx.inType [result] ++
      [.symbol .semicolon])) (fun ss => unlocatedStmts ss = unlocatedStmts [.returnValues l' [result]])
      (statements ctx n) := by
    refine .step (fun n => ?_) n
    refine .current fun p => ?_
    rw [if_neg (by simp [endsBlock])]
    refine .refuse (fun k _ => by simp) ?_
    refine .bind_last (hreturn n) rfl (fun _ => id) fun s hs => .pure ?_
    simp only [unlocatedStmts, hs]
  have hblock := block_of_statements (Q := fun b => b.unlocated = (Block.mk l [.returnValues l' [result]]).unlocated)
    (statements_semicolon hstmts · 1) fun _ ss hss => by simp only [Block.unlocated, hss]
  have hsignature := functionSignature_reads hparams hcparams hblock
    (Q := SameExpr (.signature loc params (.mk l [.returnValues l' [result]])))
    fun _ _ _ hp hb => by simp only [SameExpr, Expr.unlocated, hp, hb]
  refine climbs_of_first (typeWord ctx) ?_ rfl (simple_typeWord htype)
    fun n q => .checked (fun _ _ => rfl) (.deeper (.call (hsignature _ (n + 1)) rfl fun _ _ => trivial))
  simp [Expr.kinds, stmtsKinds, Stmt.kinds]

/-! ## Annotated names -/

theorem typeExpression_reads (h : Reads type) (hc : type.canonical true ctx.varargs = true) (n : Nat) :
    Recovers n 1 (endsExpression · = true) (type.kinds true) (SameExpr type) (typeExpression ctx n) := by
  refine .step (fun n => ?_) n
  exact @Reads.whole type { ctx with inType := true } true h rfl hc n

def annotatedName (ctx : Context) (n : Nat) (cause : ParseCause) : Parse (String × List Annotation) := do
  let name ← expectName cause
  if ← accept (.symbol .doubleColon) then
    let type ← typeExpression ctx n
    return (name, [.mk name type])
  else return (name, [])

theorem localNames_eq (ctx : Context) (n : Nat) : localNames ctx (n + 1) = do
      let (name, types) ← annotatedName ctx n .localName
      if ← accept (.symbol .comma) then
        let (names, moreTypes) ← localNames ctx n
        return (name :: names, types ++ moreTypes)
      else return ([name], types) := by
  rw [localNames, annotatedName, bind_assoc]
  congr 1
  funext name
  rw [bind_assoc]
  congr 1
  funext annotated
  cases annotated
  · rfl
  · simp only [if_true, bind_assoc, pure_bind]

theorem parameters_eq (ctx : Context) (n : Nat) : parameters ctx (n + 1) = do
      if ← accept (.symbol .ellipsis) then return ([], [], true)
      else
        let (name, types) ← annotatedName ctx n .parameterName
        if ← accept (.symbol .comma) then
          let (names, moreTypes, isVararg) ← parameters ctx n
          return (name :: names, types ++ moreTypes, isVararg)
        else return ([name], types, false) := by
  rw [parameters]
  congr 1
  funext extra
  cases extra
  · simp only [Bool.false_eq_true, if_false]
    rw [annotatedName, bind_assoc]
    congr 1
    funext name
    rw [bind_assoc]
    congr 1
    funext annotated
    cases annotated
    · rfl
    · simp only [if_true, bind_assoc, pure_bind]
  · rfl

theorem annotations_cases (h : (types.map Annotation.name).Sublist (x :: xs)) :
    (annotatedKinds x (typesKinds types) = [.name x] ∧ typesBehind x (typesKinds types) = typesKinds types ∧
      (types.map Annotation.name).Sublist xs) ∨
    ∃ type left, types = .mk x type :: left ∧ annotatedKinds x (typesKinds types) =
        .name x :: .symbol .doubleColon :: type.kinds true ∧
      typesBehind x (typesKinds types) = typesKinds left ∧
      (left.map Annotation.name).Sublist xs := by
  cases types with
  | nil => exact Or.inl ⟨rfl, rfl, List.nil_sublist xs⟩
  | cons a left =>
    obtain ⟨y, type⟩ := a
    rw [typesKinds, annotatedKinds, typesBehind]
    by_cases hxy : x = y
    · subst hxy
      refine Or.inr ⟨type, left, rfl, by rw [if_pos rfl], by rw [if_pos rfl], ?_⟩
      exact List.cons_sublist_cons.1 h
    · refine Or.inl ⟨by rw [if_neg hxy], by rw [if_neg hxy], ?_⟩
      rcases List.sublist_cons_iff.1 h with h | ⟨ys, hys, _⟩
      · exact h
      · exact absurd (List.cons.inj hys).1.symm hxy

theorem unlocatedAnnotations_append (as bs : List Annotation) :
    unlocatedAnnotations (as ++ bs) = unlocatedAnnotations as ++ unlocatedAnnotations bs := by
  induction as with
  | nil => rfl
  | cons a as ih =>
    obtain ⟨x, type⟩ := a
    rw [List.cons_append, unlocatedAnnotations, unlocatedAnnotations, ih, List.cons_append]

theorem annotatedName_reads (hsub : (types.map Annotation.name).Sublist (x :: xs))
    (hreads : ∀ a ∈ types, a.All Reads) (hc : canonicalTypes ctx.varargs types = true) (cause : ParseCause) :
    ∃ taken left, types = taken ++ left ∧ typesBehind x (typesKinds types) = typesKinds left ∧
      (left.map Annotation.name).Sublist xs ∧ canonicalTypes ctx.varargs left = true ∧
      ∀ n, Recovers n 0 (fun k => endsExpression k = true ∧ k ≠ .symbol .doubleColon)
        (annotatedKinds x (typesKinds types)) (fun r => r.1 = x ∧ unlocatedAnnotations r.2 =
          unlocatedAnnotations taken) (annotatedName ctx n cause) := by
  rcases annotations_cases hsub with ⟨hkinds, hbehind, hleft⟩ | ⟨type, left, rfl, hkinds, hbehind, hleft⟩
  · refine ⟨[], types, rfl, hbehind, hleft, hc, fun n => ?_⟩
    rw [hkinds]
    exact .expectName (.refuse (fun _ h => h.2) (.pure ⟨rfl, rfl⟩))
  · rw [canonicalTypes, Bool.and_eq_true] at hc
    refine ⟨[.mk x type], left, rfl, hbehind, hleft, hc.2, fun n => ?_⟩
    have htype := typeExpression_reads (hreads _ List.mem_cons_self) hc.1 n
    rw [hkinds]
    refine .expectName (.accept rfl (.bind_last htype rfl (fun _ h => h.1) fun type' htype' => .pure ⟨rfl, ?_⟩))
    simp only [unlocatedAnnotations, htype']

theorem localNames_reads {ctx : Context} : ∀ (x : String) (xs : List String) (types : List Annotation),
    (types.map Annotation.name).Sublist (x :: xs) → (∀ a ∈ types, a.All Reads) →
    canonicalTypes ctx.varargs types = true → ∀ n,
    Recovers n 1 (fun k => (endsExpression k = true ∧ k ≠ .symbol .doubleColon) ∧ k ≠ .symbol .comma)
      (parameterKinds false (x :: xs) (typesKinds types))
      (fun r => r.1 = x :: xs ∧ unlocatedAnnotations r.2 = unlocatedAnnotations types) (localNames ctx n)
  | x, [], types, hsub, hreads, hc => .step fun n => by
    obtain ⟨taken, left, rfl, -, hleft, -, hname⟩ := annotatedName_reads hsub hreads hc .localName
    obtain rfl : left = [] := by simpa using hleft
    rw [parameterKinds_cons, if_pos ⟨rfl, rfl⟩, localNames_eq]
    refine .bind (hname n) rfl (fun _ h => h.1) ?_
    rintro ⟨_, types'⟩ ⟨rfl, htypes⟩
    exact .refuse (fun _ h => h.2) (.pure ⟨rfl, by rw [htypes, List.append_nil]⟩)
  | x, y :: xs, types, hsub, hreads, hc => .step fun n => by
    obtain ⟨taken, left, rfl, hbehind, hleft, hcleft, hname⟩ := annotatedName_reads hsub hreads hc .localName
    have hmore := localNames_reads y xs left hleft (fun a ha => hreads a (List.mem_append_right _ ha)) hcleft n
    rw [parameterKinds_cons, if_neg (by simp), hbehind, localNames_eq]
    refine .bind (hname n) rfl (fun _ _ => ⟨rfl, by simp⟩) ?_
    rintro ⟨_, taken'⟩ ⟨rfl, htaken⟩
    refine .accept rfl (.bind_last hmore rfl (fun _ => id) ?_)
    rintro ⟨_, types'⟩ ⟨rfl, htypes⟩
    exact .pure ⟨rfl, by rw [unlocatedAnnotations_append, unlocatedAnnotations_append, htaken, htypes]⟩

theorem parameterKinds_headD (hne : ¬(xs = [] ∧ isVararg = false)) (ls : List Token.Kind) (k : Token.Kind) :
    (parameterKinds isVararg xs (typesKinds types) ++ ls).headD k ≠ .symbol .rparen := by
  cases xs with
  | nil =>
    obtain rfl : isVararg = true := by simpa using hne
    simp [parameterKinds]
  | cons x xs =>
    obtain ⟨ks, hks⟩ := annotatedKinds_start x (typesKinds types)
    rw [parameterKinds_cons, hks]
    simp

theorem parameters_reads {ctx : Context} : ∀ (xs : List String) (types : List Annotation),
    (types.map Annotation.name).Sublist xs → (∀ a ∈ types, a.All Reads) →
    canonicalTypes ctx.varargs types = true → ¬(xs = [] ∧ isVararg = false) → ∀ n,
    Recovers n 1 (· = .symbol .rparen) (parameterKinds isVararg xs (typesKinds types))
      (fun r => r.1 = xs ∧ unlocatedAnnotations r.2.1 = unlocatedAnnotations types ∧ r.2.2 = isVararg)
      (parameters ctx n)
  | [], types, hsub, _, _, hne => .step fun n => by
    obtain rfl : types = [] := by simpa using hsub
    obtain rfl : isVararg = true := by simpa using hne
    exact .accept rfl (.pure ⟨rfl, rfl, rfl⟩)
  | x :: xs, types, hsub, hreads, hc, _ => .step fun n => by
    obtain ⟨taken, left, rfl, hbehind, hleft, hcleft, hname⟩ := annotatedName_reads hsub hreads hc .parameterName
    obtain ⟨ks, hks⟩ := annotatedKinds_start x (typesKinds (taken ++ left))
    rw [parameterKinds_cons, parameters_eq]
    refine .refuse (fun k _ => by rw [hks]; simp) ?_
    by_cases hend : xs = [] ∧ isVararg = false
    · obtain ⟨rfl, rfl⟩ := hend
      obtain rfl : left = [] := by simpa using hleft
      refine .bind (hname n) rfl (fun k hk => by rw [hk]; exact ⟨rfl, by simp⟩) ?_
      rintro ⟨_, taken'⟩ ⟨rfl, htaken⟩
      refine .refuse (fun k hk => by rw [hk]; simp) (.pure ⟨rfl, ?_, rfl⟩)
      rw [htaken, List.append_nil]
    · have hmore := parameters_reads xs left hleft (fun a ha => hreads a (List.mem_append_right _ ha)) hcleft hend n
      rw [if_neg hend, hbehind]
      refine .bind (hname n) rfl (fun _ _ => ⟨rfl, by simp⟩) ?_
      rintro ⟨_, taken'⟩ ⟨rfl, htaken⟩
      refine .accept rfl (.bind_last hmore rfl (fun _ => id) ?_)
      rintro ⟨_, types', _⟩ ⟨rfl, htypes, rfl⟩
      exact .pure ⟨rfl, by rw [unlocatedAnnotations_append, unlocatedAnnotations_append, htaken, htypes], rfl⟩

/-! ## Functions -/

def parameterList (ctx : Context) (n : Nat) : Parse (List String × List Annotation × Bool) := do
  if ← check (.symbol .rparen) then return ([], [], false) else parameters ctx n

def resultType (ctx : Context) (n : Nat) : Parse (Option Expr) := do
  if ← accept (.symbol .doubleColon) then some <$> typeExpression ctx n else return none

theorem resultType_bind {α : Type} (ctx : Context) (n : Nat) (k : Option Expr → Parse α) :
    resultType ctx n >>= k = (accept (.symbol .doubleColon) >>= fun annotated =>
      if annotated then some <$> typeExpression ctx n >>= k else pure none >>= k) := by
  rw [resultType, bind_assoc]
  congr 1
  funext annotated
  cases annotated <;> rfl

theorem functionBody_eq (ctx : Context) (n : Nat) (first : Token) (label : Option String) :
    functionBody ctx (n + 1) first label false = do
      let _ ← expect (.symbol .lparen) .openParameters
      let (names, types, isVararg) ← parameterList ctx n
      let _ ← expect (.symbol .rparen) .closeParameters
      let returnType ← resultType ctx n
      let body ← block { ctx with varargs := isVararg } n
      let _ ← expect (.keyword .end_) (.endOf "function")
      return .mk (some first.position) names isVararg body types returnType label := by
  rw [functionBody, parameterList]
  congr 1
  funext _
  rw [bind_assoc]
  congr 1
  funext close
  simp only [resultType_bind]
  cases close <;> rfl

theorem parameterList_reads (hsub : (types.map Annotation.name).Sublist xs)
    (hreads : ∀ a ∈ types, a.All Reads) (hc : canonicalTypes ctx.varargs types = true) (n : Nat) :
    Recovers n 1 (· = .symbol .rparen) (parameterKinds isVararg xs (typesKinds types))
      (fun r => r.1 = xs ∧ unlocatedAnnotations r.2.1 = unlocatedAnnotations types ∧ r.2.2 = isVararg)
      (parameterList ctx n) := by
  by_cases hend : xs = [] ∧ isVararg = false
  · obtain ⟨rfl, rfl⟩ := hend
    obtain rfl : types = [] := by simpa using hsub
    exact .checked (fun _ => id) (.pure ⟨rfl, rfl, rfl⟩)
  · refine .check (fun k _ => ?_) (parameters_reads xs types hsub hreads hc hend n)
    simpa using parameterKinds_headD hend [] k

theorem resultType_reads (h : ∀ e ∈ type, Reads e) (hc : canonicalOption true ctx.varargs type = true) (n : Nat) :
    Recovers n 1 (fun k => endsExpression k = true ∧ k ≠ .symbol .doubleColon)
      (optionKinds true (.symbol .doubleColon) type)
      (fun type' => unlocatedOption type' = unlocatedOption type) (resultType ctx n) := by
  cases type with
  | none => exact .refuse (fun _ h => h.2) (.pure rfl)
  | some type =>
    have htype := typeExpression_reads (h type rfl) hc n
    refine .accept rfl (.map (htype.call rfl fun _ h => h.1) fun type' htype' => ?_)
    simp only [unlocatedOption, htype']

theorem functionReads {params : List String} {paramTypes : List Annotation}
    {returnType : Option Expr} {label : Option String} (htypes : ∀ a ∈ paramTypes, a.All Reads)
    (hres : ∀ e ∈ returnType, Reads e) (hbody : ∀ s ∈ body.stmts, StmtReads s) :
    FunctionReads (.mk loc params isVararg body paramTypes returnType label) := by
  intro ctx hctx hc n first
  obtain ⟨bodyLoc, stmts⟩ := body
  simp only [Function.canonical, Bool.and_eq_true, List.isSublist_iff_sublist] at hc
  obtain ⟨⟨⟨hsub, hctypes⟩, hcresult⟩, hcbody⟩ := hc
  have hstmts := @statements_reads { ctx with varargs := isVararg } hctx stmts hbody hcbody
  have hblock := block_of_statements (Q := fun b => b.unlocated = (Block.mk bodyLoc stmts).unlocated)
    (statements_semicolon hstmts · 1) fun _ ss hss => by simp only [Block.unlocated, hss]
  refine .step (p := (functionBody ctx · first label false)) (fun n => ?_) n
  rw [Function.kinds, functionBody_eq]
  refine .expect rfl fun _ => .bind (parameterList_reads hsub htypes hctypes n) rfl (fun _ _ => rfl) ?_
  rintro ⟨_, types', _⟩ ⟨rfl, htypes', rfl⟩
  refine .expect rfl fun _ => .bind (resultType_reads hres hcresult n) rfl (fun _ _ => ⟨rfl, by simp⟩)
    fun result' hres' => ?_
  -- The semicolon behind the parameters belongs to the block.
  refine .bind (hblock n) rfl (fun _ _ => rfl) fun body' hbody' => .expect rfl fun _ => .pure ?_
  simp only [Function.unlocated, htypes', hres', hbody']

theorem Reads.function (h : FunctionReads f) : Reads (.function f) := by
  refine .of_climbs (fun _ => rfl) fun ctx hc => ?_
  simp only [Expr.canonical, Bool.and_eq_true, Bool.not_eq_true', Option.isNone_iff_eq_none] at hc
  obtain ⟨⟨htype, hlabel⟩, hc⟩ := hc
  refine climbs_of_first (fun n q => .function <$> functionBody ctx (n + 1) ⟨.keyword .function_, q⟩ none false)
    rfl rfl (fun n q ts => ?_) fun n q => ?_
  · rw [simple, bind_run (current_run _)]
    simp only [head]
    rw [bind_run (advance_run (by decide) q _), if_neg (by simp [htype]), map_eq_pure_bind]
  · have hf := h ctx htype hc (n + 1) ⟨.keyword .function_, q⟩
    rw [hlabel] at hf
    refine .map (.deeper (hf.call rfl fun _ _ => trivial)) fun f' hf' => ?_
    simp only [SameExpr, Expr.unlocated, hf']

end TypedLua.Parser
