import TypedLua.Proofs.Parsing.Results

/-!
# Erasing annotations from the source

Taking the annotations out of the tokens and parsing what is left gives the tree without
annotations.
-/

namespace TypedLua

/-! ## What is seen of a tree

A tree or a part of it, with or without its annotations. -/

def Expr.view (keep : Bool) (e : Expr) : Expr := bif keep then e else e.erase

def Function.view (keep : Bool) (f : Function) : Function := bif keep then f else f.erase

def Block.view (keep : Bool) (b : Block) : Block := bif keep then b else b.erase

def Stmt.view (keep : Bool) (s : Stmt) : Stmt := bif keep then s else s.erase

def Field.view (keep : Bool) : Field → Field
  | .mk loc key value => .mk loc (key.map (·.view keep)) (value.view keep)

namespace Parser

def viewExprs (keep : Bool) (es : List Expr) : List Expr := bif keep then es else eraseExprs es

def viewFields (keep : Bool) (fields : List Field) : List Field := bif keep then fields else eraseFields fields

def viewClauses (keep : Bool) (clauses : List Clause) : List Clause := bif keep then clauses else eraseClauses clauses

def viewStmts (keep : Bool) (ss : List Stmt) : List Stmt := bif keep then ss else eraseStmts ss

def viewTypes (keep : Bool) (types : List Annotation) : List Annotation := bif keep then types else []

/-! ## Routines on both streams -/

structure Fits (registry : String) (keep : Bool) (ctx ctx' : Context) : Prop where
  registry : ctx.registry = registry
  same : ctx'.registry = ctx.registry
  inType : ctx'.inType = ctx.inType
  varargs : ctx.varargs = true → ctx'.varargs = true
  plain : keep = false → ctx.inType = false

/-- A routine with some fuel is mirrored by the same routine with enough fuel. -/
def Recurs {α : Type} (registry : String) (n least depth : Nat) (E : Bool → α → α)
    (p : Context → Nat → Parse α) : Prop :=
  ∀ {keep ctx ctx'}, Fits registry keep ctx ctx' → Mirrors registry keep least depth (E keep) (p ctx n) (p ctx')

structure Mirrored (registry : String) (n : Nat) : Prop where
  block : Recurs registry n 0 5 Block.view block
  statements : Recurs registry n 0 4 viewStmts statements
  statement : Recurs registry n 1 3 Stmt.view statement
  moreTargets : Recurs registry n 0 1 viewExprs moreTargets
  localNames : Recurs registry n 1 1 (fun keep r => (r.1, viewTypes keep r.2)) localNames
  elseifClauses : Recurs registry n 0 1 viewClauses elseifClauses
  returnStatement : ∀ {keep ctx ctx'}, Fits registry keep ctx ctx' →
    MirrorsFrom registry keep true (·.kind = .keyword .return_) 1 1 (Stmt.view keep)
      (returnStatement ctx n) (returnStatement ctx')
  parameters : Recurs registry n 1 1 (fun keep r => (r.1, viewTypes keep r.2.1, r.2.2)) parameters
  functionBody : ∀ first label isMethod, Recurs registry n 1 1 Function.view (functionBody · · first label isMethod)
  functionSignature : ∀ first {ctx ctx'}, Fits registry true ctx ctx' →
    Mirrors registry true 1 1 id (functionSignature ctx n first) (functionSignature ctx' · first)
  typeExpression : ∀ {ctx ctx'}, ctx.registry = registry → ctx'.registry = ctx.registry →
    (ctx.varargs = true → ctx'.varargs = true) →
    Mirrors registry true 1 6 id (typeExpression ctx n) (typeExpression ctx')
  expressionList : Recurs registry n 1 6 viewExprs expressionList
  expression : ∀ level, Recurs registry n 1 5 Expr.view (expression · · level)
  climb : ∀ level left {keep ctx ctx'}, Fits registry keep ctx ctx' →
    Mirrors registry keep 0 1 (Expr.view keep) (climb ctx n level left) (climb ctx' · level (left.view keep))
  unary : Recurs registry n 1 4 Expr.view unary
  simple : Recurs registry n 1 3 Expr.view simple
  primary : Recurs registry n 1 1 Expr.view primary
  suffixed : Recurs registry n 1 2 Expr.view suffixed
  suffixes : ∀ e {keep ctx ctx'}, Fits registry keep ctx ctx' →
    Mirrors registry keep 0 3 (Expr.view keep) (suffixes ctx n e) (suffixes ctx' · (e.view keep))
  callArguments : Recurs registry n 1 2 viewExprs callArguments
  table : Recurs registry n 1 1 Expr.view table
  tableFields : Recurs registry n 0 7 viewFields tableFields
  tableField : Recurs registry n 1 6 Field.view tableField

section Routines

variable {registry : String} {keep : Bool} {ctx ctx' : Context} {n : Nat}

theorem mirrors_moreLoopNames (n : Nat) : Mirrors registry keep 0 1 id (moreLoopNames n) moreLoopNames := by
  induction n with
  | zero => exact .throw
  | succ n ih =>
    refine .fuel ?_
    refine .accept rfl ?_ (.pure rfl)
    exact .expectName fun x => .bind ih rfl fun xs => .pure rfl

theorem mirrors_functionPath (n : Nat) : ∀ target fullName,
    Mirrors registry keep 0 1 (fun r => (r.1.view keep, r.2)) (functionPath n target fullName)
      (functionPath · (target.view keep) fullName) := by
  induction n with
  | zero => exact fun _ _ => .throw
  | succ n ih =>
    intro target fullName
    refine .fuel ?_
    refine .current fun separator _ => .ite (fun hkind => ?_) fun _ => .pure rfl
    have hshared : isShared separator.kind = true := by
      rw [Bool.or_eq_true, beq_iff_eq, beq_iff_eq] at hkind
      rcases hkind with h | h <;> rw [h] <;> rfl
    refine .advance (fun t ht => congrArg Token.kind ht) hshared fun _ => ?_
    refine .current fun keyToken _ => .expectName fun key => ?_
    cases keep <;> exact .ite (fun _ => .pure rfl) fun _ => .call (ih _ _) rfl rfl

theorem viewFields_cons (keep : Bool) (field : Field) (fields : List Field) :
    viewFields keep (field :: fields) = field.view keep :: viewFields keep fields := by
  obtain ⟨loc, key, value⟩ := field
  cases keep <;> cases key <;> rfl

theorem viewTypes_append (keep : Bool) (types more : List Annotation) :
    viewTypes keep (types ++ more) = viewTypes keep types ++ viewTypes keep more := by
  cases keep <;> rfl

theorem mirrors_ensureAssignable (e : Expr) : Mirrors registry keep 0 0 (Expr.view keep) (ensureAssignable e)
      fun _ => ensureAssignable (e.view keep) := by
  have hsame : isAssignable (e.view keep) = isAssignable e := by
    cases keep <;> cases e <;> rfl
  simp only [ensureAssignable, hsame]
  exact .ite (fun _ => .pure rfl) fun _ => .failure

/-! ### Parts of routines -/

def argumentList (ctx : Context) (n : Nat) : Parse (List Expr) :=
  expect (.symbol .lparen) .arguments >>= fun _ => accept (.symbol .rparen) >>= fun b =>
    if b = true then pure [] else expressionList ctx n >>= fun args =>
      expect (.symbol .rparen) .closeArguments >>= fun _ => pure args

theorem expression_name (ctx : Context) (n level : Nat) (x : String) (p : Position)
    (ts : List Token) : expression ctx (n + 5) level (⟨.name x, p⟩ :: ts) =
      (suffixes ctx (n + 1) (.name (some p) x) >>= climb ctx (n + 4) level) ts := by
  have hprimary : primary ctx (n + 1) (⟨.name x, p⟩ :: ts) = .ok (.name (some p) x, ts) := by
    rw [primary, bind_run (current_run _)]
    exact bind_run (advance_run (by simp) p ts)
  have hunary : unary ctx (n + 4) (⟨.name x, p⟩ :: ts) = suffixes ctx (n + 1) (.name (some p) x) ts := by
    show simple ctx (n + 3) (⟨.name x, p⟩ :: ts) = _
    show suffixed ctx (n + 2) (⟨.name x, p⟩ :: ts) = _
    rw [suffixed, bind_run hprimary]
  show (unary ctx (n + 4) (⟨.name x, p⟩ :: ts)).bind (fun r => climb ctx (n + 4) level r.1 r.2) = _
  rfl

/-- An entry that starts with a name, from behind the name on: the next token decides. -/
def fieldAfterName (ctx : Context) (n : Nat) (x : String) (p : Position) : Parse Field := current >>= fun t =>
    if t.kind = .symbol .assign then
      advance >>= fun _ => expression ctx n 0 >>= fun value => pure (.mk (some p) (some (.string (some p) x)) value)
    else (fun ts => expression ctx n 0 (⟨.name x, p⟩ :: ts)) >>= fun value => pure (.mk (some p) none value)

theorem tableField_name (ctx : Context) (n : Nat) (x : String) (p : Position) (ts : List Token) :
    tableField ctx (n + 1) (⟨.name x, p⟩ :: ts) = fieldAfterName ctx n x p ts := by
  rw [tableField, fieldAfterName, bind_run (current_run _)]
  by_cases hassign : (head ts).kind = .symbol .assign
  · obtain ⟨⟨k, q⟩, rest, rfl, rfl⟩ := cons_of_head hassign (by simp)
    rw [if_pos hassign, bind_run (advance_run (by simp) _ _)]
    show (advance >>= fun _ => advance >>= fun _ => expression ctx n 0 >>= fun value =>
      pure (.mk (some p) (some (.string (some p) x)) value) : Parse Field) _ = _
    rw [bind_run (advance_run (by simp) _ _), bind_run (advance_run (by simp) _ _)]
  · have htail : tail (⟨.name x, p⟩ :: ts) = ts := rfl
    rw [if_neg hassign, bind_run (get_run _), htail]
    generalize (head ts).kind = kind at hassign
    cases kind with
    | symbol mark =>
      cases mark with
      | assign => exact absurd rfl hassign
      | _ => rfl
    | _ => rfl

def keyedField (ctx : Context) (n : Nat) : Parse Field :=
  current >>= fun first => advance >>= fun _ => expression ctx n 0 >>= fun key =>
    expect (.symbol .rbracket) .closeKey >>= fun _ => expect (.symbol .assign) .keyAssign >>= fun _ =>
      expression ctx n 0 >>= fun value => pure (.mk (some first.position) (some key) value)

theorem tableField_key (ctx : Context) (n : Nat) (h : (head ts).kind = .symbol .lbracket) :
    tableField ctx (n + 1) ts = keyedField ctx n ts := by
  rw [tableField, keyedField, bind_run (current_run _), bind_run (get_run _), h]

def plainField (ctx : Context) (n : Nat) : Parse Field := current >>= fun first => expression ctx n 0 >>= fun value =>
    pure (.mk (some first.position) none value)

theorem tableField_plain (ctx : Context) (n : Nat)
    (h : (head ts).kind ≠ .symbol .lbracket ∧ ∀ x, (head ts).kind ≠ .name x) :
    tableField ctx (n + 1) ts = plainField ctx n ts := by
  rw [tableField, plainField, bind_run (current_run _), bind_run (get_run _)]
  generalize (head ts).kind = kind at h
  cases kind with
  | name x => exact absurd rfl (h.2 x)
  | symbol mark =>
    cases mark with
    | lbracket => exact absurd rfl h.1
    | _ => rfl
  | _ => rfl

/-- What is done with a declared type behind the word that opens the declaration. -/
def declaration (ctx : Context) (n : Nat) : Parse Stmt :=
  suffixed ctx n >>= fun declared => expect (.symbol .assign) .declarationAssign >>= fun _ =>
    typeExpression ctx n >>= fun type =>
      match Annotation.compileDeclaration ctx.registry declared type with
      | .ok s => pure s
      | .error reason => throw (.malformed reason)

theorem expect_ok
    (hkind : kind ≠ .eof) (h : expect kind cause ts = .ok (t, rest)) : ts = t :: rest ∧ t.kind = kind := by
  by_cases hhead : (head ts).kind = kind
  · obtain ⟨⟨k, p⟩, mid, rfl, rfl⟩ := cons_of_head hhead hkind
    rw [expect_hit hkind] at h
    cases h
    exact ⟨rfl, rfl⟩
  · rw [expect, bind_run (check_run _ _), decide_eq_false hhead] at h
    cases h

def expressionStatement (ctx : Context) (n : Nat) (first : Token) : Parse Stmt :=
  suffixed ctx n >>= fun e => current >>= fun next =>
    if (next.kind == .symbol .assign || next.kind == .symbol .comma) = true then
      ensureAssignable e >>= fun target => moreTargets ctx n >>= fun targets =>
        expect (.symbol .assign) .assignmentAssign >>= fun _ => expressionList ctx n >>= fun values =>
          pure (.assign (some first.position) (target :: targets) values)
    else
      match e with
      | .call .. | .method .. => pure (.expr (some first.position) e)
      | _ => failure .statement

variable (ih : Mirrored registry n)

/-! ### Expressions -/

include ih

theorem mirrors_expression (level : Nat) : Recurs registry (n + 1) 1 5 Expr.view (expression · · level) := by
  intro keep ctx ctx' hfit
  refine .fuel ?_
  exact .bind (ih.unary hfit) rfl fun left => .call (ih.climb level left hfit) rfl rfl

theorem mirrors_climb (level : Nat) (left : Expr) (hfit : Fits registry keep ctx ctx') :
    Mirrors registry keep 0 1 (Expr.view keep) (climb ctx (n + 1) level left)
      (climb ctx' · level (left.view keep)) := by
  refine .fuel ?_
  refine .current fun mark _ => ?_
  cases hop : binaryOp? mark.kind with
  | none => exact .pure rfl
  | some found =>
    have hshared : isShared mark.kind = true := by
      refine isShared_iff.2 ⟨?_, ?_⟩ <;> intro hk <;> rw [hk] at hop <;> cases hop
    refine .ite (fun _ => .pure rfl) fun _ => ?_
    refine .advance (fun t ht => congrArg Token.kind ht) hshared fun mark => ?_
    refine .bind (ih.expression _ hfit) rfl fun right => ?_
    cases keep <;> exact .call (ih.climb level _ hfit) rfl rfl

theorem mirrors_unary : Recurs registry (n + 1) 1 4 Expr.view unary := by
  intro keep ctx ctx' hfit
  refine .fuel ?_
  refine .current fun first _ => ?_
  cases hop : unaryOp? first.kind with
  | none => exact .call (ih.simple hfit) rfl rfl
  | some op =>
    have hshared : isShared first.kind = true := by
      refine isShared_iff.2 ⟨?_, ?_⟩ <;> intro hk <;> rw [hk] at hop <;> cases hop
    refine .advance (fun t ht => congrArg Token.kind ht) hshared fun _ => ?_
    exact .bind (ih.expression _ hfit) rfl fun operand => .pure (by cases keep <;> rfl)

theorem mirrors_simple : Recurs registry (n + 1) 1 3 Expr.view simple := by
  intro keep ctx ctx' hfit
  refine .fuel ?_
  simp only [simple, hfit.inType]
  refine .current fun first _ => ?_
  generalize hk : first.kind = kind
  have hread : ∀ t, t = first → t.kind = kind := fun t ht => ht ▸ hk
  cases kind with
  | number value | string value => exact .advance hread rfl fun _ => .pure (by cases keep <;> rfl)
  | keyword word =>
    cases word with
    | nil_ | true_ | false_ => exact .advance hread rfl fun _ => .pure (by cases keep <;> rfl)
    | function_ =>
      refine .advance hread rfl fun _ => .ite (fun htype => ?_) fun _ => ?_
      · -- inside a type nothing is taken out
        obtain rfl : keep = true := by
          cases keep with
          | true => rfl
          | false => rw [hfit.plain rfl] at htype; cases htype
        exact .check fun _ => .ite (fun _ => .call (ih.functionSignature first hfit) rfl rfl) fun _ => .pure rfl
      · exact .bind (ih.functionBody first none false hfit) rfl fun f => .pure (by cases keep <;> rfl)
    | _ => exact .call (ih.suffixed hfit) rfl rfl
  | symbol mark =>
    cases mark with
    | ellipsis =>
      by_cases hvarargs : ctx.varargs = true
      · simp only [hvarargs, hfit.varargs hvarargs, if_true]
        exact .advance hread rfl fun _ => .pure (by cases keep <;> rfl)
      · simp only [if_neg hvarargs]
        exact .failure
    | lbrace => exact .call (ih.table hfit) rfl rfl
    | _ => exact .call (ih.suffixed hfit) rfl rfl
  | _ => exact .call (ih.suffixed hfit) rfl rfl

theorem mirrors_primary : Recurs registry (n + 1) 1 1 Expr.view primary := by
  intro keep ctx ctx' hfit
  refine .fuel ?_
  refine .current fun first _ => ?_
  generalize hk : first.kind = kind
  have hread : ∀ t, t = first → t.kind = kind := fun t ht => ht ▸ hk
  cases kind with
  | name text => exact .advance hread rfl fun _ => .pure (by cases keep <;> rfl)
  | symbol mark =>
    cases mark with
    | lparen =>
      refine .advance hread rfl fun _ => .bind (ih.expression _ hfit) rfl fun e => ?_
      exact .expect rfl fun _ => .pure (by cases keep <;> rfl)
    | _ => exact .failure
  | _ => exact .failure

theorem mirrors_suffixed : Recurs registry (n + 1) 1 2 Expr.view suffixed := by
  intro keep ctx ctx' hfit
  refine .fuel ?_
  exact .bind (ih.primary hfit) rfl fun e => .call (ih.suffixes e hfit) rfl rfl

theorem mirrors_suffixes (e : Expr) (hfit : Fits registry keep ctx ctx') :
    Mirrors registry keep 0 3 (Expr.view keep) (suffixes ctx (n + 1) e) (suffixes ctx' · (e.view keep)) := by
  refine .fuel ?_
  refine .current fun first _ => ?_
  generalize hk : first.kind = kind
  have hread : ∀ t, t = first → t.kind = kind := fun t ht => ht ▸ hk
  cases kind with
  | string value =>
    refine .bind (ih.callArguments hfit) rfl fun args => ?_
    cases keep <;> exact .call (ih.suffixes _ hfit) rfl rfl
  | symbol mark =>
    cases mark with
    | lparen | lbrace =>
      refine .bind (ih.callArguments hfit) rfl fun args => ?_
      cases keep <;> exact .call (ih.suffixes _ hfit) rfl rfl
    | dot =>
      refine .advance hread rfl fun _ => .current fun keyToken _ => .expectName fun key => ?_
      cases keep <;> exact .call (ih.suffixes _ hfit) rfl rfl
    | lbracket =>
      refine .advance hread rfl fun _ => .bind (ih.expression _ hfit) rfl fun key => .expect rfl fun _ => ?_
      cases keep <;> exact .call (ih.suffixes _ hfit) rfl rfl
    | colon =>
      refine .advance hread rfl fun _ => .expectName fun member => ?_
      refine .bind (ih.callArguments hfit) rfl fun args => ?_
      cases keep <;> exact .call (ih.suffixes _ hfit) rfl rfl
    | _ => exact .pure rfl
  | _ => exact .pure rfl

theorem mirrors_argumentList (hfit : Fits registry keep ctx ctx') {H : Token → Prop} :
    MirrorsFrom registry keep true H 1 1 (viewExprs keep) (argumentList ctx n) (argumentList ctx') := by
  refine .expect rfl fun _ => .accept rfl (.pure (by cases keep <;> rfl)) ?_
  exact .bind (ih.expressionList hfit) rfl fun args => .expect rfl fun _ => .pure rfl

theorem mirrors_callArguments : Recurs registry (n + 1) 1 2 viewExprs callArguments := by
  intro keep ctx ctx' hfit
  refine .fuel ?_
  refine .current fun first _ => ?_
  generalize hk : first.kind = kind
  have hread : ∀ t, t = first → t.kind = kind := fun t ht => ht ▸ hk
  cases kind with
  | string value => exact .advance hread rfl fun _ => .pure (by cases keep <;> rfl)
  | symbol mark =>
    cases mark with
    | lbrace => exact .bind (ih.table hfit) rfl fun e => .pure (by cases keep <;> rfl)
    | _ => exact mirrors_argumentList ih hfit
  | _ => exact mirrors_argumentList ih hfit

theorem mirrors_expressionList : Recurs registry (n + 1) 1 6 viewExprs expressionList := by
  intro keep ctx ctx' hfit
  refine .fuel ?_
  refine .bind (ih.expression _ hfit) rfl fun e => ?_
  refine .accept rfl ?_ (.pure (by cases keep <;> rfl))
  exact .bind (ih.expressionList hfit) rfl fun es => .pure (by cases keep <;> rfl)

theorem mirrors_table : Recurs registry (n + 1) 1 1 Expr.view table := by
  intro keep ctx ctx' hfit
  refine .fuel ?_
  refine .expect rfl fun first => .bind (ih.tableFields hfit) rfl fun fields => ?_
  exact .expect rfl fun _ => .pure (by cases keep <;> rfl)

theorem mirrors_tableFields : Recurs registry (n + 1) 0 7 viewFields tableFields := by
  intro keep ctx ctx' hfit
  refine .fuel ?_
  refine .check fun _ => .ite (fun _ => .pure (by cases keep <;> rfl)) fun _ => ?_
  refine .bind (ih.tableField hfit) rfl fun field => ?_
  -- Both separators lead to the same entries.
  have hmore : MirrorsFrom registry keep false (fun _ => True) 0 (6 + 16 * 1 + 16) (viewFields keep)
      (tableFields ctx n >>= fun fields => pure (field :: fields))
      fun m => tableFields ctx' m >>= fun fields => pure (field.view keep :: fields) :=
    .bind (ih.tableFields hfit) rfl fun fields => .pure (viewFields_cons keep field fields)
  refine .accept rfl hmore (.accept rfl hmore (.pure ?_))
  rw [viewFields_cons]
  cases keep <;> rfl

omit ih in
theorem mirrors_afterName (ih : ∀ k ≤ n, Mirrored registry k) (hfit : Fits registry keep ctx ctx')
    (x : String) (p : Position) :
    Mirrors registry keep 0 8 (Expr.view keep) (fun ts => expression ctx n 0 (⟨.name x, p⟩ :: ts))
      (fun m ts => expression ctx' m 0 (⟨.name x, p⟩ :: ts)) := by
  -- Five calls lie between an expression and its suffixes, and without fuel for them nothing is read.
  match n with
  | 0 | 1 | 2 | 3 | 4 =>
    intro ts a rest _ hrun
    cases hrun
  | k + 5 =>
    have hleft : (fun ts => expression ctx (k + 5) 0 (⟨.name x, p⟩ :: ts)) =
        (suffixes ctx (k + 1) (.name (some p) x) >>= climb ctx (k + 4) 0) :=
      funext fun ts => expression_name ctx k 0 x p ts
    have hright : (fun m ts => expression ctx' (m + 5) 0 (⟨.name x, p⟩ :: ts)) =
        fun m => suffixes ctx' (m + 1) (.name (some p) x) >>= climb ctx' (m + 4) 0 :=
      funext fun m => funext fun ts => expression_name ctx' m 0 x p ts
    have hsuffixes := MirrorsFrom.more 1 ((ih (k + 1) (by omega)).suffixes (.name (some p) x) hfit)
    rw [show (Expr.name (some p) x).view keep = .name (some p) x by cases keep <;> rfl] at hsuffixes
    refine .fuel <| .fuel <| .fuel <| .fuel <| .fuel ?_
    show Mirrors registry keep 0 3 (Expr.view keep) _ fun m ts => expression ctx' (m + 5) 0 (⟨.name x, p⟩ :: ts)
    rw [hleft, hright]
    refine .bind hsuffixes rfl fun e => ?_
    exact .call (.more 4 ((ih (k + 4) (by omega)).climb 0 e hfit)) rfl rfl

omit ih in
theorem mirrors_tableField (ih : ∀ k ≤ n, Mirrored registry k) :
    Recurs registry (n + 1) 1 6 Field.view tableField := by
  intro keep ctx ctx' hfit
  have hexpr := (ih n (Nat.le_refl n)).expression 0 hfit
  refine .fuel (.of_head fun ⟨kind, position⟩ _ => ?_)
  have hplain (hkind : kind ≠ .symbol .lbracket ∧ ∀ x, kind ≠ .name x) :
      MirrorsFrom registry keep true (· = ⟨kind, position⟩) 1 5 (Field.view keep) (tableField ctx (n + 1))
        fun m => tableField ctx' (m + 1) := by
    refine .congr (p := plainField ctx n) (q := plainField ctx') ?_
      (fun ts h => tableField_plain ctx n (h ▸ hkind)) fun m ts h => tableField_plain ctx' m (h ▸ hkind)
    exact .current fun first _ => .bind hexpr rfl fun value => .pure (by cases keep <;> rfl)
  cases kind with
  | name x =>
    refine .step (r := fieldAfterName ctx n x position) (s := (fieldAfterName ctx' · x position)) ?_ rfl
      (tableField_name ctx n x position) fun m => tableField_name ctx' m x position
    refine .current fun t _ => .ite (fun hkind => ?_) fun _ => ?_
    · refine .advance (fun t' ht' => ht' ▸ hkind) rfl fun _ => .bind hexpr rfl fun value => ?_
      exact .pure (by cases keep <;> rfl)
    · exact .bind (mirrors_afterName ih hfit x position) rfl fun value => .pure (by cases keep <;> rfl)
  | symbol mark =>
    by_cases hmark : mark = .lbracket
    · subst hmark
      refine .congr (p := keyedField ctx n) (q := keyedField ctx') ?_
        (fun ts h => tableField_key ctx n (h ▸ rfl)) fun m ts h => tableField_key ctx' m (h ▸ rfl)
      refine .current fun first hfirst => .advance (fun t ht => congrArg Token.kind (ht.trans hfirst)) rfl fun _ => ?_
      refine .bind hexpr rfl fun key => .expect rfl fun _ => .expect rfl fun _ => ?_
      exact .bind hexpr rfl fun value => .pure (by cases keep <;> rfl)
    · exact hplain (by simp [hmark])
  | _ => exact hplain (by simp)

/-! ### Statements -/

theorem mirrors_block : Recurs registry (n + 1) 0 5 Block.view block := by
  intro keep ctx ctx' hfit
  refine .fuel ?_
  exact .current fun first _ => .bind (ih.statements hfit) rfl fun stmts => .pure (by cases keep <;> rfl)

theorem mirrors_statements : Recurs registry (n + 1) 0 4 viewStmts statements := by
  intro keep ctx ctx' hfit
  refine .fuel ?_
  refine .current fun first _ => .ite (fun _ => .pure (by cases keep <;> rfl)) fun _ => ?_
  refine .accept rfl (.call (ih.statements hfit) rfl rfl) (.ite nofun fun _ => .ite (fun hreturn => ?_) fun _ => ?_)
  · exact .bind_of (ih.returnStatement hfit) (fun t ht => ht ▸ beq_iff_eq.1 hreturn) rfl fun s =>
      .pure (by cases keep <;> rfl)
  · refine .bind (ih.statement hfit) rfl fun s => ?_
    exact .bind (ih.statements hfit) rfl fun rest => .pure (by cases keep <;> rfl)

theorem mirrors_moreTargets : Recurs registry (n + 1) 0 1 viewExprs moreTargets := by
  intro keep ctx ctx' hfit
  refine .fuel ?_
  refine .accept rfl ?_ (.pure (by cases keep <;> rfl))
  refine .bind (ih.suffixed hfit) rfl fun e => .bind (mirrors_ensureAssignable e) rfl fun target => ?_
  exact .bind (ih.moreTargets hfit) rfl fun targets => .pure (by cases keep <;> rfl)

theorem mirrors_annotation (hfit : Fits registry keep ctx ctx') {α : Type} {E : α → α} {H : Token → Prop}
    {f : List Annotation → Parse α} {g : List Annotation → Nat → Parse α}
    (h : ∀ types, Mirrors registry keep least depth E (f types) (g (viewTypes keep types))) :
    MirrorsFrom registry keep false H least depth E (accept (.symbol .doubleColon) >>= fun b =>
        if b = true then typeExpression ctx n >>= fun type => f [.mk name type] else f [])
      fun m => accept (.symbol .doubleColon) >>= fun b =>
        if b = true then typeExpression ctx' m >>= fun type => g [.mk name type] m else g [] m := by
  refine .optionalType (ih.typeExpression hfit.registry hfit.same hfit.varargs)
    (ih.typeExpression hfit.registry hfit.registry.symm fun _ => rfl) ?_ ?_ ?_
  · rintro rfl type
    exact h [.mk name type]
  · rintro rfl type
    exact h [.mk name type]
  · have hnone := h []
    rwa [show viewTypes keep [] = [] by cases keep <;> rfl] at hnone

theorem mirrors_localNames : Recurs registry (n + 1) 1 1 (fun keep r => (r.1, viewTypes keep r.2)) localNames := by
  intro keep ctx ctx' hfit
  refine .fuel ?_
  simp only [localNames, pure_bind]
  refine .expectName fun name => mirrors_annotation ih hfit (f := namesAfter ctx n name)
    (g := fun types m => namesAfter ctx' m name types) fun types => ?_
  refine .accept rfl (.bind (ih.localNames hfit) rfl fun r => .pure ?_) (.pure rfl)
  rw [viewTypes_append]

theorem mirrors_parameters :
    Recurs registry (n + 1) 1 1 (fun keep r => (r.1, viewTypes keep r.2.1, r.2.2)) parameters := by
  intro keep ctx ctx' hfit
  refine .fuel ?_
  simp only [parameters, pure_bind]
  refine .accept rfl (.pure (by cases keep <;> rfl)) (.expectName fun name => ?_)
  refine mirrors_annotation ih hfit (f := parametersAfter ctx n name)
    (g := fun types m => parametersAfter ctx' m name types) fun types => ?_
  refine .accept rfl (.bind (ih.parameters hfit) rfl fun r => .pure ?_) (.pure rfl)
  rw [viewTypes_append]

theorem mirrors_elseifClauses : Recurs registry (n + 1) 0 1 viewClauses elseifClauses := by
  intro keep ctx ctx' hfit
  refine .fuel ?_
  refine .accept rfl ?_ (.pure (by cases keep <;> rfl))
  refine .bind (ih.expression _ hfit) rfl fun condition => .expect rfl fun _ => ?_
  refine .bind (ih.block hfit) rfl fun body => .bind (ih.elseifClauses hfit) rfl fun clauses => ?_
  exact .pure (by cases keep <;> rfl)

omit ih in
theorem mirrors_returnLast (first : Token) (values : List Expr) {H : Token → Prop} :
    MirrorsFrom registry keep strict H 0 depth (Stmt.view keep) (returnLast first values)
      fun _ => returnLast first (viewExprs keep values) :=
  .current fun t _ => .ite (fun _ => .pure (by cases keep <;> rfl)) fun _ => .failure

theorem mirrors_returnStatement (hfit : Fits registry keep ctx ctx') :
    MirrorsFrom registry keep true (·.kind = .keyword .return_) 1 1 (Stmt.view keep)
      (returnStatement ctx (n + 1)) (returnStatement ctx') := by
  refine .fuel ?_
  simp only [returnStatement, pure_bind]
  refine .advance (fun t ht => ht) rfl fun first => .current fun next _ => .ite (fun _ => ?_) fun _ => ?_
  · cases keep <;> exact .accept rfl (mirrors_returnLast first []) (mirrors_returnLast first [])
  · refine .bind (ih.expressionList hfit) rfl fun values => ?_
    exact .accept rfl (mirrors_returnLast first values) (mirrors_returnLast first values)

theorem mirrors_typeExpression (hreg : ctx.registry = registry) (hsame : ctx'.registry = ctx.registry)
    (hvarargs : ctx.varargs = true → ctx'.varargs = true) :
    Mirrors registry true 1 6 id (typeExpression ctx (n + 1)) (typeExpression ctx') := by
  refine .fuel ?_
  have hfit : Fits registry true { ctx with inType := true } { ctx' with inType := true } :=
    ⟨hreg, hsame, rfl, hvarargs, nofun⟩
  exact .call (ih.expression 0 hfit) rfl rfl

theorem mirrors_functionSignature (first : Token) (hfit : Fits registry true ctx ctx') :
    Mirrors registry true 1 1 id (functionSignature ctx (n + 1) first) (functionSignature ctx' · first) := by
  refine .fuel ?_
  have hend (params : List Expr) : Mirrors registry true 0 16 id (signatureEnd ctx n first params)
      (signatureEnd ctx' · first params) := by
    refine .expect rfl fun _ => .bind (ih.block hfit) rfl fun body => ?_
    exact .expect rfl fun _ => .pure rfl
  refine .expect rfl fun _ => .check fun _ => .ite (fun _ => .call (hend []) rfl rfl) fun _ => ?_
  exact .bind (ih.expressionList hfit) rfl fun params => .call (hend params) rfl rfl

theorem mirrors_functionBody (first : Token) (label : Option String) (isMethod : Bool) :
    Recurs registry (n + 1) 1 1 Function.view (functionBody · · first label isMethod) := by
  intro keep ctx ctx' hfit
  refine .fuel ?_
  simp only [functionBody_succ]
  have hend (r : List String × List Annotation × Bool) (type type' : Option Expr)
      (htype : type' = bif keep then type else none) :
      Mirrors registry keep 0 16 (Function.view keep) (functionEnd ctx n first label isMethod r type)
        (functionEnd ctx' · first label isMethod (r.1, viewTypes keep r.2.1, r.2.2) type') := by
    subst htype
    have hinner : Fits registry keep ⟨ctx.registry, ctx.inType, r.2.2⟩ ⟨ctx'.registry, ctx'.inType, r.2.2⟩ :=
      ⟨hfit.registry, hfit.same, hfit.inType, id, hfit.plain⟩
    refine .bind (ih.block hinner) rfl fun body => .expect rfl fun _ => ?_
    exact .pure (by cases keep <;> rfl)
  have hres (r : List String × List Annotation × Bool) :
      Mirrors registry keep 0 16 (Function.view keep) (functionResult ctx n first label isMethod r)
        (functionResult ctx' · first label isMethod (r.1, viewTypes keep r.2.1, r.2.2)) := by
    refine .expect rfl fun _ => ?_
    refine .optionalType (ih.typeExpression hfit.registry hfit.same hfit.varargs)
      (ih.typeExpression hfit.registry hfit.registry.symm fun _ => rfl) ?_ ?_ ?_
    · rintro rfl type
      exact .call (hend r (some type) _ rfl) rfl rfl
    · rintro rfl type
      exact .call (hend r (some type) _ rfl) rfl rfl
    · exact .call (hend r none none (by cases keep <;> rfl)) rfl rfl
  refine .expect rfl fun _ => .check fun _ => .ite (fun _ => ?_) fun _ => ?_
  · have hnone := hres ([], [], false)
    rw [show viewTypes keep ([], [], false).2.1 = [] by cases keep <;> rfl] at hnone
    exact .call hnone rfl rfl
  · exact .bind (ih.parameters hfit) rfl fun r => .call (hres r) rfl rfl

theorem mirrors_declaration_kept (hfit : Fits registry true ctx ctx') :
    Mirrors registry true 1 17 (Stmt.view true) (declaration ctx n) (declaration ctx') := by
  refine .bind (ih.suffixed hfit) rfl fun declared => .expect rfl fun _ => ?_
  refine .bind (ih.typeExpression hfit.registry hfit.same hfit.varargs) rfl fun type => ?_
  show Mirrors registry true _ _ _ _ fun m =>
    match Annotation.compileDeclaration ctx'.registry declared type with
      | .ok s => pure s
      | .error reason => throw (.malformed reason)
  rw [hfit.same]
  cases Annotation.compileDeclaration ctx.registry declared type with
  | ok s => exact .pure rfl
  | error reason => exact .throw

theorem plainDeclaration_type (hfit : Fits registry false ctx ctx')
    (hdeclared : suffixed ctx n (u ++ assign :: (v ++ rest)) = .ok (declared, assign :: (v ++ rest)))
    (hassign : assign.kind = .symbol .assign) (htype : typeExpression ctx n (v ++ rest) = .ok (type, rest))
    (hplain : (Token.Kind.keyword .newtype_ != .keyword .newtype_ ||
      plainDeclaration registry (u ++ assign :: (v ++ rest))) = true) : ∀ t ∈ v, t.kind ≠ .symbol .doubleColon := by
  have hkeep : Fits registry true ctx (.outermost registry) :=
    ⟨hfit.registry, hfit.registry.symm, (hfit.plain rfl).symm, fun _ => rfl, nofun⟩
  obtain ⟨w, hw, -, himage⟩ := ih.suffixed hkeep _ _ _ trivial hdeclared
  obtain rfl : u = w := List.append_cancel_right hw
  obtain ⟨u', hu', -, -, hrun⟩ := himage nofun
  obtain rfl : u' = u := hu'
  have htail : tail (assign :: (v ++ rest)) = v ++ rest := by
    rw [tail, hassign]
    rfl
  have hall : plainDeclaration registry (u' ++ assign :: (v ++ rest)) = true := by simpa using hplain
  rw [plainDeclaration, hrun _ _ rfl (by simp [depthBound]; omega)] at hall
  have hlen := typeLength_eq (ih.typeExpression hfit.registry hfit.registry.symm fun _ => rfl) htype
  simp only [htail, hlen, List.take_left', List.all_eq_true, bne_iff_ne] at hall
  exact hall

theorem mirrors_declaration (hfit : Fits registry keep ctx ctx')
    {first : Token} (hfirst : first.kind = .keyword .newtype_) :
    MirrorsFrom registry keep true (· = first) 1 2 (Stmt.view keep)
      (advance >>= fun _ => declaration ctx n) fun m => advance >>= fun _ => declaration ctx' m := by
  cases keep with
  | true =>
    refine .advance (fun t ht => ht ▸ hfirst) rfl fun _ => ?_
    exact .call (mirrors_declaration_kept ih hfit) rfl rfl
  | false =>
    -- The declared type is not an annotation, so it is read again as it is; the rules for steps do not say this.
    intro ts s rest hhead hrun
    obtain ⟨⟨k, position⟩, post, rfl, rfl⟩ := cons_of_head (k := .keyword .newtype_) (by rw [hhead, hfirst]) (by simp)
    rw [bind_run (advance_run (by simp) position post), declaration] at hrun
    obtain ⟨declared, mid, hdeclared, hrun1⟩ := bind_ok hrun
    obtain ⟨assign, after, hassign, hrun2⟩ := bind_ok hrun1
    obtain ⟨type, rest', htype, hrun3⟩ := bind_ok hrun2
    obtain ⟨rfl, hkind⟩ := expect_ok (by simp) hassign
    obtain ⟨hcomp, rfl⟩ : Annotation.compileDeclaration registry declared type = .ok s ∧ rest' = rest := by
      rw [hfit.registry] at hrun3
      cases hcomp : Annotation.compileDeclaration registry declared type with
      | ok s' =>
        rw [hcomp] at hrun3
        cases hrun3
        exact ⟨rfl, rfl⟩
      | error reason =>
        rw [hcomp] at hrun3
        cases hrun3
    obtain ⟨herase, hs⟩ := erase_declaration (typeExpression_isType htype _ congruent_erase) hcomp
    obtain ⟨u, rfl, -, himage⟩ := ih.suffixed hfit post declared _ trivial hdeclared
    obtain ⟨v, rfl, -, himage'⟩ := ih.typeExpression hfit.registry hfit.same hfit.varargs after type
      rest' trivial htype
    refine ⟨⟨.keyword .newtype_, position⟩ :: (u ++ assign :: v), by simp, by simp, fun hadm => ?_⟩
    obtain ⟨hdirective, hplain, -⟩ := hadm rfl
    rw [plainDeclarations, Bool.and_eq_true] at hplain
    have hv := plainDeclaration_type ih hfit hdeclared hkind htype hplain.1
    obtain ⟨u', hu', -, -, hdeclared'⟩ := himage fun _ =>
      ⟨fun t ht => hdirective t (List.mem_cons_of_mem _ ht), hplain.2, by simp [head, hkind]⟩
    obtain ⟨v', hv', -, -, htype'⟩ := himage' fun h => by cases h
    obtain rfl : v' = v := hv'
    refine ⟨⟨.keyword .newtype_, position⟩ :: (u' ++ assign :: v'), ?_, by simp, by simp, ?_⟩
    · have himage : Image registry false v' v' rest' := withoutTypes_plain rest' hv
      exact Image.cons (by simp) (Image.append hu' (Image.cons (by simp [hkind]) himage))
    · intro m rest hrest hm
      simp only [List.length_cons, List.length_append] at hm
      have hexpect : expect (.symbol .assign) .declarationAssign (assign :: (v' ++ rest)) =
          .ok (assign, v' ++ rest) := by
        obtain ⟨k, q⟩ := assign
        obtain rfl : k = .symbol .assign := hkind
        exact expect_hit (by simp) _ _ _
      have hview : declared.view false = declared := herase
      have hview' : s.view false = s := hs
      have happend : u' ++ assign :: v' ++ rest = u' ++ (assign :: (v' ++ rest)) := by simp
      beta_reduce
      rw [List.cons_append, bind_run (advance_run (by simp) _ _), declaration, happend,
        bind_run (hdeclared' m (assign :: (v' ++ rest)) rfl (by omega)), bind_run hexpect,
        bind_run (htype' m rest hrest (by omega)), hview, id, hfit.same, hfit.registry, hcomp, hview']
      rfl

theorem mirrors_expressionStatement (first : Token) (hfit : Fits registry keep ctx ctx') :
    MirrorsFrom registry keep true (· = first) 1 2 (Stmt.view keep)
      (expressionStatement ctx n first) (expressionStatement ctx' · first) := by
  refine .bind (ih.suffixed hfit) rfl fun e => .current fun next _ => ?_
  refine .ite (fun _ => ?_) fun _ => ?_
  · refine .bind (mirrors_ensureAssignable e) rfl fun target => ?_
    refine .bind (ih.moreTargets hfit) rfl fun targets => ?_
    refine .expect rfl fun _ => .bind (ih.expressionList hfit) rfl fun values => ?_
    exact .pure (by cases keep <;> rfl)
  · cases e with
    | call loc callee args => cases keep <;> exact .pure rfl
    | method loc object member args => cases keep <;> exact .pure rfl
    | _ => exact .failure

theorem mirrors_statement : Recurs registry (n + 1) 1 3 Stmt.view statement := by
  intro keep ctx ctx' hfit
  refine .fuel ?_
  simp only [statement, pure_bind, map_eq_pure_bind, bind_assoc]
  refine .current fun first _ => ?_
  have hother := mirrors_expressionStatement ih first hfit
  generalize hk : first.kind = kind
  have hread : ∀ t, t = first → t.kind = kind := fun t ht => ht ▸ hk
  cases kind with
  | keyword word =>
    cases word with
    | local_ =>
      refine .advance hread rfl fun _ => .accept rfl ?_ ?_
      · refine .expectName fun name => .bind (ih.functionBody _ _ _ hfit) rfl fun f => ?_
        exact .pure (by cases keep <;> rfl)
      · refine .bind (ih.localNames hfit) rfl fun r => .accept rfl ?_ ?_
        · exact .bind (ih.expressionList hfit) rfl fun values =>
            .pure (by cases keep <;> rfl)
        · exact .pure (by cases keep <;> rfl)
    | function_ =>
      refine .advance hread rfl fun _ => .current fun nameToken _ => ?_
      refine .expectName fun name => ?_
      have hpath : Mirrors registry keep 0 1 (fun r => (r.1.view keep, r.2))
          (functionPath n (.name (some nameToken.position) name) name)
          (functionPath · (.name (some nameToken.position) name) name) := by
        have hname : (Expr.name (some nameToken.position) name).view keep = .name (some nameToken.position) name := by
          cases keep <;> rfl
        have hpath := @mirrors_functionPath registry keep n (.name (some nameToken.position) name) name
        rwa [hname] at hpath
      refine .bind hpath rfl fun r => .bind (ih.functionBody _ _ _ hfit) rfl fun f => ?_
      exact .pure (by cases keep <;> rfl)
    | if_ =>
      refine .advance hread rfl fun _ => ?_
      refine .bind (ih.expression _ hfit) rfl fun condition => .expect rfl fun _ => ?_
      refine .bind (ih.block hfit) rfl fun body => ?_
      refine .bind (ih.elseifClauses hfit) rfl fun clauses => .accept rfl ?_ ?_
      · refine .bind (ih.block hfit) rfl fun otherwise => ?_
        exact .expect rfl fun _ => .pure (by cases keep <;> rfl)
      · exact .expect rfl fun _ => .pure (by cases keep <;> rfl)
    | while_ =>
      refine .advance hread rfl fun _ => ?_
      refine .bind (ih.expression _ hfit) rfl fun condition => .expect rfl fun _ => ?_
      refine .bind (ih.block hfit) rfl fun body => ?_
      exact .expect rfl fun _ => .pure (by cases keep <;> rfl)
    | do_ =>
      refine .advance hread rfl fun _ => ?_
      refine .bind (ih.block hfit) rfl fun body => ?_
      exact .expect rfl fun _ => .pure (by cases keep <;> rfl)
    | for_ =>
      refine .advance hread rfl fun _ => .expectName fun name => ?_
      refine .accept rfl ?_ ?_
      · refine .bind (ih.expression _ hfit) rfl fun start => .expect rfl fun _ => ?_
        refine .bind (ih.expression _ hfit) rfl fun stop => ?_
        refine .accept rfl ?_ ?_
        · refine .bind (ih.expression _ hfit) rfl fun step => .expect rfl fun _ => ?_
          refine .bind (ih.block hfit) rfl fun body => ?_
          exact .expect rfl fun _ => .pure (by cases keep <;> rfl)
        · refine .expect rfl fun _ => .bind (ih.block hfit) rfl fun body => ?_
          exact .expect rfl fun _ => .pure (by cases keep <;> rfl)
      · refine .bind (mirrors_moreLoopNames n) rfl fun names => .expect rfl fun _ => ?_
        refine .bind (ih.expressionList hfit) rfl fun iterators => ?_
        refine .expect rfl fun _ => .bind (ih.block hfit) rfl fun body => ?_
        exact .expect rfl fun _ => .pure (by cases keep <;> rfl)
    | repeat_ =>
      refine .advance hread rfl fun _ => ?_
      refine .bind (ih.block hfit) rfl fun body => .expect rfl fun _ => ?_
      exact .bind (ih.expression _ hfit) rfl fun condition => .pure (by cases keep <;> rfl)
    | break_ => exact .advance hread rfl fun _ => .pure (by cases keep <;> rfl)
    | newtype_ => exact mirrors_declaration ih hfit hk
    | _ => exact hother
  | _ => exact hother

end Routines

theorem mirrored (registry : String) (n : Nat) : Mirrored registry n := by
  induction n using Nat.strongRecOn with
  | ind n ih =>
    match n with
    | 0 => constructor <;> dsimp -failIfUnchanged only [Recurs] <;> intros <;> exact .throw
    | n + 1 =>
      have hall : ∀ k ≤ n, Mirrored registry k := fun k hk => ih k (by omega)
      have hn := hall n (Nat.le_refl n)
      exact {
        block := mirrors_block hn
        statements := mirrors_statements hn
        statement := mirrors_statement hn
        moreTargets := mirrors_moreTargets hn
        localNames := mirrors_localNames hn
        elseifClauses := mirrors_elseifClauses hn
        returnStatement := mirrors_returnStatement hn
        parameters := mirrors_parameters hn
        functionBody := mirrors_functionBody hn
        functionSignature _ := mirrors_functionSignature hn _
        typeExpression := mirrors_typeExpression hn
        expressionList := mirrors_expressionList hn
        expression := mirrors_expression hn
        climb _ _ := mirrors_climb hn _ _
        unary := mirrors_unary hn
        simple := mirrors_simple hn
        primary := mirrors_primary hn
        suffixed := mirrors_suffixed hn
        suffixes _ := mirrors_suffixes hn _
        callArguments := mirrors_callArguments hn
        table := mirrors_table hn
        tableFields := mirrors_tableFields hn
        tableField := mirrors_tableField hall }

end Parser

end TypedLua
