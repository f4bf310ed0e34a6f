import TypedLua.Proofs.Parsing.Steps
import TypedLua.Proofs.Syntax.Induction

/-!
# Reading expressions back

Specifications of what the parser does on the tokens of a canonical expression, and one lemma for
each form of expression that derives its specification from those of its parts.
-/

namespace TypedLua.Parser

/-! ## Specifications -/

/-- Reading the expression leads to the loop over operators, with the expression as left operand. -/
def Climbs (ctx : Context) (e : Expr) : Prop :=
  ∀ (ts rest : List Token) (n level : Nat), ts.map Token.kind = e.kinds ctx.inType →
    16 * ts.length ≤ n → Follows e rest → (e.isUnary = true ∨ level < e.level) →
    ∃ e' m, e'.unlocated = e.unlocated ∧ 0 < ts.length ∧ n ≤ m + ts.length ∧
      expression ctx n level (ts ++ rest) = climb ctx m level e' rest

def Chains (ctx : Context) (e : Expr) : Prop :=
  ∀ (ts rest : List Token) (n : Nat), ts.map Token.kind = e.kinds ctx.inType → 16 * ts.length ≤ n + 8 →
    ∃ e' m, e'.unlocated = e.unlocated ∧ 0 < ts.length ∧ n ≤ m + ts.length ∧
      suffixed ctx n (ts ++ rest) = suffixes ctx m e' rest

structure Reads (e : Expr) : Prop where
  climbs : ∀ ctx : Context, e.canonical ctx.inType ctx.varargs = true → Climbs ctx e
  chains : ∀ ctx : Context, e.canonical ctx.inType ctx.varargs = true → e.isBase ctx.inType = true → Chains ctx e

abbrev SameExpr (e e' : Expr) : Prop := e'.unlocated = e.unlocated

variable {e object : Expr} {ctx : Context} {t : Bool} {n : Nat} {ts rest : List Token}
  {k : Token.Kind} {ks : List Token.Kind} {loc : Loc} {args : List Expr}

theorem Reads.whole (h : Reads e) (hctx : ctx.inType = t) (hc : e.canonical t ctx.varargs = true) (n : Nat) :
    Recovers n 0 (endsExpression · = true) (e.kinds t) (SameExpr e) (expression ctx n 0) := by
  subst hctx
  intro ts rest hts hn hrest
  obtain ⟨e', m, he, hpos, hm, hrun⟩ :=
    h.climbs ctx hc ts rest n 0 hts hn (follows_of_ends hrest e) (Or.inr (level_pos e))
  refine ⟨e', he, ?_⟩
  rw [hrun]
  exact climb_stop (by omega) (stops_of_ends hrest 0) e'

theorem Reads.base (h : Reads e) (hctx : ctx.inType = t) (hb : e.isBase t = true)
    (hc : e.canonical t ctx.varargs = true) (n : Nat) :
    Recovers n 0 (startsSuffix · = false) (e.kinds t) (SameExpr e) (suffixed ctx n) := by
  subst hctx
  intro ts rest hts hn hrest
  obtain ⟨e', m, he, hpos, hm, hrun⟩ := h.chains ctx hc hb ts rest n hts (by omega)
  refine ⟨e', he, ?_⟩
  rw [hrun]
  exact suffixes_stop (by omega) hrest e'

/-! ## From simple expressions to expressions -/

theorem expression_of_unary (h : unary ctx n ts = .ok (e, rest)) :
    expression ctx (n + 1) level ts = climb ctx n level e rest := by
  exact bind_run h

theorem unary_of_simple (hop : unaryOp? (head ts).kind = none) (h : simple ctx n ts = .ok (e, rest)) :
    unary ctx (n + 1) ts = .ok (e, rest) := by
  rw [unary, bind_run (current_run _), hop]
  exact h

theorem climbs_of_simple (h : ∀ (ts rest : List Token) (n : Nat), ts.map Token.kind = e.kinds ctx.inType →
      16 * ts.length ≤ n + 2 → startsSuffix (head rest).kind = false →
      ∃ e', e'.unlocated = e.unlocated ∧ 0 < ts.length ∧
        unaryOp? (head (ts ++ rest)).kind = none ∧ simple ctx n (ts ++ rest) = .ok (e', rest)) :
    Climbs ctx e := by
  intro ts rest n level hts hn hfollow _
  obtain ⟨e', he, hpos, hop, hrun⟩ := h ts rest (n - 2) hts (by omega) hfollow.1
  obtain ⟨n, rfl⟩ : ∃ k, n = k + 2 := ⟨n - 2, by omega⟩
  exact ⟨e', n + 1, he, hpos, by omega, expression_of_unary (unary_of_simple hop hrun)⟩

theorem climbs_of_chains (hstart : ∀ ts rest : List Token, ts.map Token.kind = e.kinds ctx.inType →
      unaryOp? (head (ts ++ rest)).kind = none ∧
        ∀ n, simple ctx (n + 1) (ts ++ rest) = suffixed ctx n (ts ++ rest)) (h : Chains ctx e) :
    Climbs ctx e := by
  apply climbs_of_simple
  intro ts rest n hts hn hrest
  obtain ⟨hop, hsimple⟩ := hstart ts rest hts
  obtain ⟨e', m, he, hpos, hm, hrun⟩ := h ts rest (n - 1) hts (by omega)
  obtain ⟨n, rfl⟩ : ∃ k, n = k + 1 := ⟨n - 1, by omega⟩
  refine ⟨e', he, hpos, hop, ?_⟩
  rw [hsimple]
  exact hrun.trans (suffixes_stop (by omega) hrest e')

theorem climbs_of_first (p : Nat → Position → Parse Expr) (hkinds : e.kinds ctx.inType = k :: ks)
    (hop : unaryOp? k = none) (hrun : ∀ n q ts, simple ctx (n + 2) (⟨k, q⟩ :: ts) = p n q ts)
    (h : ∀ n q, Recovers n 8 (startsSuffix · = false) ks (SameExpr e) (p n q)) : Climbs ctx e := by
  apply climbs_of_simple
  intro ts rest n hts hn hrest
  rw [hkinds] at hts
  obtain ⟨q, ts, rfl, htail⟩ := spells_cons hts
  simp only [List.length_cons] at hn ⊢
  obtain ⟨n, rfl⟩ : ∃ k, n = k + 2 := ⟨n - 2, by omega⟩
  obtain ⟨e', he, hp⟩ := h n q ts rest htail (by omega) hrest
  exact ⟨e', he, by omega, hop, (hrun n q _).trans hp⟩

theorem Reads.of_climbs (hb : ∀ t, e.isBase t = false)
    (h : ∀ ctx : Context, e.canonical ctx.inType ctx.varargs = true → Climbs ctx e) : Reads e :=
  ⟨h, fun ctx _ hbase => absurd hbase (by rw [hb]; simp)⟩

/-! ## Literals -/

theorem Reads.literal (at_ : Position → Expr) (hkinds : ∀ t, e.kinds t = [k])
    (hbase : ∀ t, e.isBase t = false) (hop : unaryOp? k = none) (hsame : ∀ q, SameExpr e (at_ q))
    (h : ∀ (ctx : Context) n q ts, e.canonical ctx.inType ctx.varargs = true →
      simple ctx (n + 1) (⟨k, q⟩ :: ts) = .ok (at_ q, ts)) : Reads e :=
  .of_climbs hbase fun ctx hc => climbs_of_first (fun _ q => pure (at_ q)) (hkinds _) hop
    (fun n q ts => h ctx (n + 1) q ts hc) fun _ q => .pure (hsame q)

theorem Reads.nil (loc : Loc) : Reads (.nil loc) := by
  refine .literal (fun q => .nil (some q)) (fun _ => rfl) (fun _ => rfl) rfl (fun _ => rfl) fun ctx n q ts _ => ?_
  rw [simple, bind_run (current_run _)]
  exact bind_run (advance_run (by decide) q ts)

theorem Reads.bool (loc : Loc) (b : Bool) : Reads (.bool loc b) := by
  refine .literal (fun q => .bool (some q) b) (fun _ => rfl) (fun _ => rfl) (by cases b <;> rfl) (fun _ => rfl)
    fun ctx n q ts _ => ?_
  rw [simple, bind_run (current_run _)]
  cases b <;> exact bind_run (advance_run (by decide) q ts)

theorem Reads.number (loc : Loc) (x : Number) : Reads (.number loc x) := by
  refine .literal (fun q => .number (some q) x) (fun _ => rfl) (fun _ => rfl) rfl (fun _ => rfl)
    fun ctx n q ts _ => ?_
  rw [simple, bind_run (current_run _)]
  exact bind_run (advance_run (by simp) q ts)

theorem Reads.string (loc : Loc) (s : String) : Reads (.string loc s) := by
  refine .literal (fun q => .string (some q) s) (fun _ => rfl) (fun _ => rfl) rfl (fun _ => rfl)
    fun ctx n q ts _ => ?_
  rw [simple, bind_run (current_run _)]
  exact bind_run (advance_run (by simp) q ts)

theorem Reads.vararg (loc : Loc) : Reads (.vararg loc) := by
  refine .literal (fun q => .vararg (some q)) (fun _ => rfl) (fun _ => rfl) rfl (fun _ => rfl) fun ctx n q ts hc => ?_
  have hvarargs : ctx.varargs = true := hc
  rw [simple, bind_run (current_run _)]
  rw [if_pos hvarargs]
  exact bind_run (advance_run (by decide) q ts)

/-! ## Names and what follows them -/

theorem suffixed_of_primary (h : primary ctx n ts = .ok (e, rest)) :
    suffixed ctx (n + 1) ts = suffixes ctx n e rest := by
  exact bind_run h

theorem simple_eq_suffixed (ts : List Token)
    (h : (∃ x, (head ts).kind = .name x) ∨ (head ts).kind = .symbol .lparen) : unaryOp? (head ts).kind = none ∧
      ∀ (ctx : Context) (n : Nat), simple ctx (n + 1) ts = suffixed ctx n ts := by
  rcases h with ⟨x, h⟩ | h
  · rw [h]
    refine ⟨rfl, fun ctx n => ?_⟩
    rw [simple, bind_run (current_run _), h]
  · rw [h]
    refine ⟨rfl, fun ctx n => ?_⟩
    rw [simple, bind_run (current_run _), h]

theorem nameKind_of_isBase (h : (Expr.name loc x).isBase t = true) : nameKind t x = .name x := by
  rw [Expr.isBase, Bool.not_eq_true'] at h
  rw [nameKind, h]
  rfl

theorem kinds_of_isBase : ∀ e : Expr, e.isBase t = true → e.canonical t v = true →
    ∃ k ks, e.kinds t = k :: ks ∧ ((∃ x, k = .name x) ∨ k = .symbol .lparen)
  | .name loc x, hb, _ => ⟨.name x, [], by rw [Expr.kinds, nameKind_of_isBase hb], Or.inl ⟨x, rfl⟩⟩
  | .paren _ inner, _, _ => ⟨_, _, rfl, Or.inr rfl⟩
  | .index _ object key, _, hc => by
    simp only [Expr.canonical, Bool.and_eq_true] at hc
    obtain ⟨k, ks, hk, hstart⟩ := kinds_of_isBase object hc.1.1 hc.1.2
    exact ⟨k, _, by rw [Expr.kinds, hk]; rfl, hstart⟩
  | .call _ callee args, _, hc => by
    simp only [Expr.canonical, Bool.and_eq_true] at hc
    obtain ⟨k, ks, hk, hstart⟩ := kinds_of_isBase callee hc.1.1 hc.1.2
    exact ⟨k, _, by rw [Expr.kinds, hk]; rfl, hstart⟩
  | .method _ object member args, _, hc => by
    simp only [Expr.canonical, Bool.and_eq_true] at hc
    obtain ⟨k, ks, hk, hstart⟩ := kinds_of_isBase object hc.1.1 hc.1.2
    exact ⟨k, _, by rw [Expr.kinds, hk]; rfl, hstart⟩
  | .nil _, hb, _ | .bool .., hb, _ | .number .., hb, _ | .string .., hb, _ | .vararg _, hb, _
  | .function _, hb, _ | .signature .., hb, _ | .table .., hb, _ | .binary .., hb, _
  | .unary .., hb, _ | .block .., hb, _ => by simp [Expr.isBase] at hb

theorem Chains.climbs (hb : e.isBase ctx.inType = true)
    (hc : e.canonical ctx.inType ctx.varargs = true) (h : Chains ctx e) : Climbs ctx e := by
  refine climbs_of_chains (fun ts rest hts => ?_) h
  obtain ⟨k, ks, hk, hstart⟩ := kinds_of_isBase e hb hc
  rw [hk] at hts
  obtain ⟨p, ts', rfl, _⟩ := spells_cons hts
  have := simple_eq_suffixed (⟨k, p⟩ :: ts' ++ rest) (by simpa [head] using hstart)
  exact ⟨this.1, this.2 ctx⟩

theorem Reads.of_chains (hb : ∀ t, e.isBase t = true)
    (h : ∀ ctx : Context, e.canonical ctx.inType ctx.varargs = true → Chains ctx e) : Reads e :=
  ⟨fun ctx hc => (h ctx hc).climbs (hb _) hc, fun ctx hc _ => h ctx hc⟩

theorem chains_of_primary {p : Nat → Position → Parse Expr} (hkinds : e.kinds ctx.inType = k :: ks)
    (hrun : ∀ n q ts, primary ctx (n + 1) (⟨k, q⟩ :: ts) = p n q ts)
    (h : ∀ n q, Recovers n 0 (fun _ => True) ks (SameExpr e) (p n q)) : Chains ctx e := by
  intro ts rest n hts hn
  rw [hkinds] at hts
  obtain ⟨q, ts, rfl, htail⟩ := spells_cons hts
  simp only [List.length_cons] at hn ⊢
  obtain ⟨n, rfl⟩ : ∃ k, n = k + 2 := ⟨n - 2, by omega⟩
  obtain ⟨e', he, hp⟩ := h n q ts rest htail (by omega) trivial
  exact ⟨e', n + 1, he, by omega, by omega, suffixed_of_primary ((hrun n q _).trans hp)⟩

/-- What is read behind the word `function` inside a type: a function type, or nothing more. -/
def typeWord (ctx : Context) (n : Nat) (q : Position) : Parse Expr := do
  if ← check (.symbol .lparen) then functionSignature ctx (n + 1) ⟨.keyword .function_, q⟩
  else return .name (some q) "function"

theorem simple_typeWord (htype : ctx.inType = true) (n : Nat) (q : Position) (ts : List Token) :
    simple ctx (n + 2) (⟨.keyword .function_, q⟩ :: ts) = typeWord ctx n q ts := by
  rw [simple, bind_run (current_run _)]
  simp only [head]
  rw [bind_run (advance_run (by decide) q ts), if_pos htype]
  rfl

theorem Reads.name (loc : Loc) (x : String) : Reads (.name loc x) := by
  have hchain : ∀ ctx : Context, (Expr.name loc x).isBase ctx.inType = true → Chains ctx (.name loc x) := by
    intro ctx hb
    have hkinds : (Expr.name loc x).kinds ctx.inType = [.name x] := by rw [Expr.kinds, nameKind_of_isBase hb]
    refine chains_of_primary hkinds (p := fun _ q => pure (.name (some q) x)) (fun n q ts => ?_) fun _ _ => .pure rfl
    rw [primary, bind_run (current_run _)]
    exact bind_run (advance_run (by simp) q ts)
  refine ⟨fun ctx hc => ?_, fun ctx _ hb => hchain ctx hb⟩
  by_cases hb : (Expr.name loc x).isBase ctx.inType = true
  · exact (hchain ctx hb).climbs hb hc
  · -- the bare word `function` inside a type
    have hword : ctx.inType = true ∧ x = "function" := by simpa [Expr.isBase] using hb
    obtain ⟨htype, rfl⟩ := hword
    refine climbs_of_first (typeWord ctx) (by rw [Expr.kinds, htype]; rfl) rfl (simple_typeWord htype)
      fun n q => .check (fun k hk => ?_) (.pure rfl)
    rintro rfl
    cases hk

theorem Reads.paren {inner : Expr} (h : Reads inner) : Reads (.paren loc inner) := by
  refine Reads.of_chains (fun _ => rfl) fun ctx hc => ?_
  refine chains_of_primary (p := fun n q => do
    let e ← expression ctx n 0
    let _ ← expect (.symbol .rparen) .closeParen
    return .paren (some q) e) rfl (fun n q ts => ?_) fun n q => ?_
  · rw [primary, bind_run (current_run _)]
    exact bind_run (advance_run (by decide) q ts)
  · refine .bind (h.whole rfl hc n) rfl (fun _ _ => rfl) fun e he => .expect rfl fun _ => .pure ?_
    rw [SameExpr, Expr.unlocated, he, Expr.unlocated]

/-! ## How expressions start -/

def startsExpression : Token.Kind → Bool
  | .keyword .nil_ | .keyword .true_ | .keyword .false_ | .keyword .not_ | .keyword .function_
  | .number _ | .string _ | .name _ | .symbol .ellipsis | .symbol .lbrace | .symbol .minus
  | .symbol .hash | .symbol .lparen => true
  | _ => false

/-- A canonical expression starts with a token that starts expressions, and it is not a name with an
assignment. -/
def Starts (ks : List Token.Kind) : Prop := ∃ k ks', ks = k :: ks' ∧ startsExpression k = true ∧
    ∀ x, k = .name x → ks'.head? ≠ some (.symbol .assign)

theorem Starts.append (h : Starts ks) (hk : k ≠ .symbol .assign) (ls : List Token.Kind) : Starts (ks ++ k :: ls) := by
  obtain ⟨k0, ks', rfl, hstart, hname⟩ := h
  refine ⟨k0, ks' ++ k :: ls, rfl, hstart, fun x hx => ?_⟩
  cases ks' with
  | nil => simpa using hk
  | cons k' ks' => exact hname x hx

theorem starts_of_kind (ks : List Token.Kind) (h : startsExpression k = true)
    (hname : ∀ x, k ≠ .name x) : Starts (k :: ks) :=
  ⟨k, ks, rfl, h, fun x hx => absurd hx (hname x)⟩

theorem starts_kinds : ∀ e : Expr, e.canonical t v = true → Starts (e.kinds t)
  | .nil _, _ | .number .., _ | .string .., _ | .vararg _, _ | .function _, _
  | .signature _ _ (.mk _ _), _ | .table .., _ | .paren .., _ => starts_of_kind _ rfl (by simp)
  | .bool _ b, _ => by cases b <;> exact starts_of_kind _ rfl (by simp)
  | .unary _ op _, _ => by cases op <;> exact starts_of_kind _ rfl (by simp [UnaryOp.kind])
  | .name _ x, _ => by
    refine ⟨nameKind t x, [], rfl, ?_, fun _ _ => by simp⟩
    rw [nameKind]
    split <;> rfl
  | .binary _ left op _, hc => by
    simp only [Expr.canonical, Bool.and_eq_true] at hc
    exact (starts_kinds left hc.1.2).append (by cases op <;> simp [BinaryOp.kind]) _
  | .call _ callee _, hc => by
    simp only [Expr.canonical, Bool.and_eq_true] at hc
    exact (starts_kinds callee hc.1.2).append (by simp) _
  | .method _ object _ _, hc => by
    simp only [Expr.canonical, Bool.and_eq_true] at hc
    exact (starts_kinds object hc.1.2).append (by simp) _
  | .index _ object _, hc => by
    simp only [Expr.canonical, Bool.and_eq_true] at hc
    exact (starts_kinds object hc.1.2).append (by simp) _
  | .block .., hc => by simp [Expr.canonical] at hc

theorem starts_listKinds (hc : canonicalExprs t v (e :: es) = true) : Starts (listKinds t (e :: es)) := by
  rw [canonicalExprs, Bool.and_eq_true] at hc
  cases es with
  | nil => simpa [listKinds, moreKinds] using starts_kinds e hc.1
  | cons e' es => exact (starts_kinds e hc.1).append (by simp) _

theorem Starts.headD_ne (h : Starts ks) (hk : startsExpression k = false) (ls : List Token.Kind)
    (k' : Token.Kind) : (ks ++ ls).headD k' ≠ k := by
  obtain ⟨k0, ks, rfl, hstart, -⟩ := h
  rintro rfl
  exact absurd hstart (by simpa using hk)

/-! ## Lists of expressions -/

abbrev SameExprs (es es' : List Expr) : Prop := unlocatedExprs es' = unlocatedExprs es

theorem expressionList_reads {ctx : Context} (hctx : ctx.inType = t) :
    ∀ (e : Expr) (es : List Expr), (∀ e' ∈ e :: es, Reads e') → canonicalExprs t ctx.varargs (e :: es) = true → ∀ n,
      Recovers n 1 (fun k => endsExpression k = true ∧ k ≠ .symbol .comma) (listKinds t (e :: es))
        (SameExprs (e :: es)) (expressionList ctx n)
  | e, [], hreads, hc => .step fun n => by
    rw [canonicalExprs, Bool.and_eq_true] at hc
    refine .bind ((hreads e (by simp)).whole hctx hc.1 n) rfl (fun _ h => h.1) fun e' he => ?_
    exact .refuse (fun _ h => h.2) (.pure (by simp only [SameExprs, unlocatedExprs, he]))
  | e, f :: es, hreads, hc => .step fun n => by
    rw [canonicalExprs, Bool.and_eq_true] at hc
    have hmore := expressionList_reads hctx f es (fun e' he' => hreads e' (List.mem_cons_of_mem e he')) hc.2 n
    refine .bind ((hreads e (by simp)).whole hctx hc.1 n) rfl (fun _ _ => rfl) fun e' he => ?_
    refine .accept rfl (.bind_last hmore rfl (fun _ => id) fun es' hes => .pure ?_)
    simp only [SameExprs, unlocatedExprs, he, hes]

theorem callArguments_reads (hreads : ∀ e ∈ args, Reads e)
    (hc : canonicalExprs ctx.inType ctx.varargs args = true) (n : Nat) :
    Recovers n 1 (fun _ => True) (.symbol .lparen :: (listKinds ctx.inType args ++ [.symbol .rparen]))
      (SameExprs args) (callArguments ctx n) := by
  refine .step (fun n => ?_) n
  refine .current fun p => .expect rfl fun _ => ?_
  cases args with
  | nil => exact .accept rfl (.pure rfl)
  | cons e es =>
    refine .refuse (fun k _ => (starts_listKinds hc).headD_ne rfl _ k) ?_
    refine .bind (expressionList_reads rfl e es hreads hc n) rfl (fun _ _ => ⟨rfl, by simp⟩) fun args' hargs => ?_
    exact .expect rfl fun _ => .pure hargs

/-! ## Suffixes -/

theorem Reads.of_suffix {ks : Bool → List Token.Kind}
    (p : Context → Nat → Expr → Position → Parse Expr) (hobj : Reads object)
    (hbase : ∀ t, e.isBase t = true) (hkinds : ∀ t, e.kinds t = object.kinds t ++ k :: ks t)
    (hcanon : ∀ {t v}, e.canonical t v = true → object.isBase t = true ∧ object.canonical t v = true)
    (hrun : ∀ ctx n object' q ts, suffixes ctx (n + 1) object' (⟨k, q⟩ :: ts) =
      (p ctx n object' q >>= suffixes ctx n) (⟨k, q⟩ :: ts))
    (h : ∀ ctx n object' q, e.canonical ctx.inType ctx.varargs = true → SameExpr object object' →
      Recovers n 1 (fun _ => True) (k :: ks ctx.inType) (SameExpr e) (p ctx n object' q)) :
    Reads e := by
  refine Reads.of_chains hbase fun ctx hc ts rest n hts hn => ?_
  rw [hkinds] at hts
  obtain ⟨ts1, ts2, rfl, hts1, hts2⟩ := spells_append hts
  obtain ⟨q, ts, rfl, -⟩ := spells_cons hts2
  simp only [List.length_append, List.length_cons] at hn ⊢
  obtain ⟨hb, hc'⟩ := hcanon hc
  -- The chain of the object ends in the loop over suffixes, which finds this one next.
  obtain ⟨object', m, hobj', hpos, hm, hchain⟩ :=
    hobj.chains ctx hc' hb ts1 (⟨k, q⟩ :: ts ++ rest) n hts1 (by omega)
  obtain ⟨m, rfl⟩ : ∃ k, m = k + 1 := ⟨m - 1, by omega⟩
  obtain ⟨e', he, hp⟩ := h ctx m object' q hc hobj' _ rest hts2 (by rw [List.length_cons]; omega) trivial
  refine ⟨e', m, he, by omega, by omega, ?_⟩
  rw [List.append_assoc, hchain, List.cons_append, hrun]
  exact bind_run hp

theorem Reads.index {key : Expr} (hobj : Reads object) (hkey : Reads key) : Reads (.index loc object key) := by
  refine .of_suffix (fun ctx n object q => do
    let _ ← advance
    let key ← expression ctx n 0
    let _ ← expect (.symbol .rbracket) .closeIndex
    return .index (some q) object key) hobj (fun _ => rfl) (fun _ => rfl) (fun hc => ?_)
    (fun ctx n object q ts => ?_) fun ctx n object' q hc ho => ?_
  · simp only [Expr.canonical, Bool.and_eq_true] at hc
    exact hc.1
  · rw [suffixes, bind_run (current_run _)]
    simp only [head, bind_assoc, pure_bind]
  · simp only [Expr.canonical, Bool.and_eq_true] at hc
    refine .advance rfl fun _ => .bind (hkey.whole rfl hc.2 n) rfl (fun _ _ => rfl) fun key' hkey' => ?_
    exact .expect rfl fun _ => .pure (by simp only [SameExpr, Expr.unlocated, ho, hkey'])

theorem Reads.call {callee : Expr} (hcallee : Reads callee) (hargs : ∀ e ∈ args, Reads e) :
    Reads (.call loc callee args) := by
  refine .of_suffix (fun ctx n callee q => .call (some q) callee <$> callArguments ctx n) hcallee (fun _ => rfl)
    (fun _ => rfl) (fun hc => ?_) (fun ctx n callee q ts => ?_) fun ctx n callee' q hc hcallee' => ?_
  · simp only [Expr.canonical, Bool.and_eq_true] at hc
    exact hc.1
  · rw [suffixes, bind_run (current_run _)]
    simp only [head, bind_map_left]
  · simp only [Expr.canonical, Bool.and_eq_true] at hc
    refine .map (callArguments_reads hargs hc.2 n) fun args' hargs' => ?_
    simp only [SameExpr, Expr.unlocated, hcallee', hargs']

theorem Reads.method (hobj : Reads object) (hargs : ∀ e ∈ args, Reads e) :
    Reads (.method loc object member args) := by
  refine .of_suffix (fun ctx n object q => do
    let _ ← advance
    let member ← expectName .methodName
    let args ← callArguments ctx n
    return .method (some q) object member args) hobj (fun _ => rfl) (fun _ => rfl) (fun hc => ?_)
    (fun ctx n object q ts => ?_) fun ctx n object' q hc ho => ?_
  · simp only [Expr.canonical, Bool.and_eq_true] at hc
    exact hc.1
  · rw [suffixes, bind_run (current_run _)]
    simp only [head, bind_assoc, pure_bind]
  · simp only [Expr.canonical, Bool.and_eq_true] at hc
    refine .advance rfl fun _ => .expectName (.bind_last (callArguments_reads hargs hc.2 n) rfl (fun _ => id)
      fun args' hargs' => .pure ?_)
    simp only [SameExpr, Expr.unlocated, ho, hargs']

/-! ## Operators -/

theorem isUnary_of_level (h : e.level = unaryLevel) : e.isUnary = true := by
  cases e with
  | unary => rfl
  | binary _ _ op _ => cases op <;> simp [Expr.level, BinaryOp.level, unaryLevel] at h
  | _ => simp [Expr.level, unaryLevel] at h

theorem stops_min (h : Stops (min a b) rest) : Stops a rest ∧ Stops b rest :=
  ⟨fun op l hop => (Nat.le_min.1 (h op l hop)).1, fun op l hop => (Nat.le_min.1 (h op l hop)).2⟩

theorem Reads.unary (h : Reads operand) : Reads (.unary loc op operand) := by
  refine Reads.of_climbs (fun _ => rfl) fun ctx hc ts rest n level hts hn hfollow _ => ?_
  simp only [Expr.canonical, Bool.and_eq_true, decide_eq_true_eq] at hc
  obtain ⟨p, ts, rfl, hoperand⟩ := spells_cons hts
  simp only [List.length_cons] at hn ⊢
  obtain ⟨n, rfl⟩ : ∃ k, n = k + 2 := ⟨n - 2, by omega⟩
  obtain ⟨hstop, hstops⟩ := stops_min hfollow.2
  -- An operand at the level of the operator can only be another unary expression.
  have hfits : operand.isUnary = true ∨ unaryLevel < operand.level := by
    rcases Nat.lt_or_eq_of_le hc.1 with hlt | heq
    · exact Or.inr hlt
    · exact Or.inl (isUnary_of_level heq.symm)
  obtain ⟨operand', m, hoperand', hpos, hm, hrun⟩ :=
    h.climbs ctx hc.2 ts rest n unaryLevel hoperand (by omega) ⟨hfollow.1, hstops⟩ hfits
  have hunary : Parser.unary ctx (n + 1) (⟨op.kind, p⟩ :: (ts ++ rest)) =
      .ok (.unary (some p) op operand', rest) := by
    rw [Parser.unary, bind_run (current_run _)]
    simp only [head, UnaryOp.unaryOp?_kind]
    rw [bind_run (advance_run (by cases op <;> decide) p _), bind_run (a := operand') (r := rest)]
    · rfl
    · rw [hrun]
      exact climb_stop (by omega) hstop operand'
  exact ⟨.unary (some p) op operand', n + 1, by simp only [Expr.unlocated, hoperand'], by omega,
    by omega, expression_of_unary hunary⟩

theorem Reads.binary (hleft : Reads left) (hright : Reads right) : Reads (.binary loc left op right) := by
  refine Reads.of_climbs (fun _ => rfl) fun ctx hc ts rest n level hts hn hfollow hlevel => ?_
  simp only [Expr.canonical, Bool.and_eq_true] at hc
  obtain ⟨⟨⟨hfitsLeft, hfitsRight⟩, hcleft⟩, hcright⟩ := hc
  obtain ⟨ts1, tail, rfl, hts1, htail⟩ := spells_append hts
  obtain ⟨p, ts2, rfl, hts2⟩ := spells_cons htail
  simp only [List.length_cons, List.length_append] at hn ⊢
  simp only [List.cons_append, List.append_assoc]
  have hop : level < op.level := by simpa [Expr.isUnary, Expr.level] using hlevel
  have hleftLevel : level < left.level := by
    simp only [Expr.fitsLeft, Bool.or_eq_true, decide_eq_true_eq, Bool.and_eq_true, beq_iff_eq] at hfitsLeft
    omega
  -- the left operand leaves the operator to the loop
  obtain ⟨left', m, hleft', hpos, hm, hrun⟩ :=
    hleft.climbs ctx hcleft ts1 (⟨op.kind, p⟩ :: (ts2 ++ rest)) n level hts1 (by omega)
      ⟨by cases op <;> rfl, fun op' l hl => by
        rw [head, BinaryOp.binaryOp?_kind] at hl
        cases hl
        exact level_le_tight hcleft hfitsLeft⟩ (Or.inr hleftLevel)
  obtain ⟨m, rfl⟩ : ∃ k, m = k + 1 := ⟨m - 1, by omega⟩
  -- the right operand is read one level lower if the operator associates to the right
  obtain ⟨hstop, hstops⟩ := stops_min hfollow.2
  have hfits : right.isUnary = true ∨ (if isRightAssociative op then op.level - 1 else op.level) < right.level := by
    simp only [Expr.fitsRight, Bool.or_eq_true, decide_eq_true_eq, Bool.and_eq_true, beq_iff_eq] at hfitsRight
    rcases hfitsRight with (hu | hlt) | ⟨heq, hassoc⟩
    · exact Or.inl hu
    · right
      split <;> omega
    · right
      rw [if_pos hassoc]
      omega
  obtain ⟨right', k, hright', _, hk, hrunRight⟩ :=
    hright.climbs ctx hcright ts2 rest m _ hts2 (by omega) ⟨hfollow.1, hstops⟩ hfits
  refine ⟨.binary (some p) left' op right', m, by simp only [Expr.unlocated, hleft', hright'], by omega, by omega, ?_⟩
  rw [hrun, climb, bind_run (current_run _)]
  simp only [head, BinaryOp.binaryOp?_kind]
  rw [if_neg (by omega), bind_run (advance_run (by cases op <;> decide) p _), bind_run (a := right') (r := rest)]
  rw [hrunRight]
  exact climb_stop (by omega) hstop right'

/-! ## Tables -/

abbrev SameField (f f' : Field) : Prop := unlocatedFields [f'] = unlocatedFields [f]

theorem unlocatedFields_cons (f : Field) (fields : List Field) :
    unlocatedFields (f :: fields) = unlocatedFields [f] ++ unlocatedFields fields := by
  cases f
  rfl

def fieldKinds (t : Bool) : Field → List Token.Kind
  | .mk _ none value => value.kinds t
  | .mk _ (some key) value =>
    .symbol .lbracket :: (key.kinds t ++ .symbol .rbracket :: .symbol .assign :: value.kinds t)

theorem fieldsKinds_cons (t : Bool) (f : Field) (fields : List Field) :
    fieldsKinds t (f :: fields) = fieldKinds t f ++ .symbol .comma :: fieldsKinds t fields := by
  obtain ⟨_, key, value⟩ := f
  cases key <;> simp [fieldsKinds, fieldKinds]

theorem tableField_positional (h : Reads value) (hc : value.canonical ctx.inType ctx.varargs = true) (n : Nat) :
    Recovers n 1 (· = .symbol .comma) (value.kinds ctx.inType) (SameField (.mk loc none value))
      (tableField ctx n) := by
  refine .step (fun n ts rest hts hn hrest => ?_) n
  obtain ⟨value', hval, hrun⟩ := h.whole rfl hc n ts rest hts hn (by rw [hrest]; rfl)
  obtain ⟨k, ks, hk, hstart, hname⟩ := starts_kinds value hc
  rw [hk] at hts
  obtain ⟨q, ts, rfl, hks⟩ := spells_cons hts
  refine ⟨.mk (some q) none value', by simp only [SameField, unlocatedFields, hval], ?_⟩
  -- A name with `=` behind it would be read as a key; canonical values do not start like that.
  have hnext : ∀ x, k = .name x → (head (ts ++ rest)).kind ≠ .symbol .assign := by
    intro x hx
    have hfirst := hname x hx
    rw [head_kind_append, hks, hrest]
    cases ks with
    | nil => simp
    | cons k' ks => simpa using hfirst
  have htail : tail (⟨k, q⟩ :: ts ++ rest) = ts ++ rest := by
    rw [List.cons_append, tail, if_neg]
    rintro rfl
    exact absurd hstart (by simp [startsExpression])
  rw [tableField, bind_run (get_run _), htail, show head (⟨k, q⟩ :: ts ++ rest) = ⟨k, q⟩ from rfl]
  generalize (head (ts ++ rest)).kind = next at hnext ⊢
  dsimp only
  split
  · exact absurd hstart (by simp [startsExpression])
  · exact absurd rfl (hnext _ rfl)
  · exact bind_run hrun

theorem tableField_reads {f : Field} (h : f.All Reads)
    (hc : canonicalFields ctx.inType ctx.varargs [f] = true) (n : Nat) :
    Recovers n 1 (· = .symbol .comma) (fieldKinds ctx.inType f) (SameField f) (tableField ctx n) := by
  obtain ⟨loc, key, value⟩ := f
  simp only [canonicalFields, Bool.and_eq_true] at hc
  cases key with
  | none => exact tableField_positional h.2 hc.1.2 n
  | some key =>
    refine .step (fun n => ?_) n
    refine .get fun ts hts => ?_
    simp only [hts]
    refine .advance rfl fun _ => .bind ((h.1 key rfl).whole rfl hc.1.1 n) rfl (fun _ _ => rfl) fun key' hkey => ?_
    refine .expect rfl fun _ => .expect rfl fun _ => ?_
    refine .bind_last (h.2.whole rfl hc.1.2 n) rfl (fun k hk => by rw [hk]; rfl) fun value' hval => .pure ?_
    simp only [SameField, unlocatedFields, unlocatedOption, hkey, hval]

theorem fieldKinds_headD (hc : canonicalFields t v [f] = true)
    (ls : List Token.Kind) (k : Token.Kind) : (fieldKinds t f ++ ls).headD k ≠ .symbol .rbrace := by
  obtain ⟨loc, key, value⟩ := f
  simp only [canonicalFields, Bool.and_eq_true] at hc
  cases key with
  | none => exact (starts_kinds value hc.1.2).headD_ne rfl ls k
  | some key => simp [fieldKinds]

theorem tableFields_reads {ctx : Context} : ∀ fields : List Field, (∀ f ∈ fields, f.All Reads) →
    canonicalFields ctx.inType ctx.varargs fields = true → ∀ n,
    Recovers n 2 (· = .symbol .rbrace) (fieldsKinds ctx.inType fields)
      (fun fields' => unlocatedFields fields' = unlocatedFields fields) (tableFields ctx n)
  | [], _, _ => .step fun n => by
    exact .checked (fun _ => id) (.pure rfl)
  | f :: fields, hreads, hc => .step fun n => by
    have hc' : canonicalFields ctx.inType ctx.varargs [f] = true ∧
        canonicalFields ctx.inType ctx.varargs fields = true := by
      obtain ⟨_, key, value⟩ := f
      simpa [canonicalFields] using hc
    have hmore := tableFields_reads fields (fun f hf => hreads f (List.mem_cons_of_mem _ hf)) hc'.2 n
    rw [tableFields, fieldsKinds_cons]
    refine .check (fun k _ => fieldKinds_headD hc'.1 _ k) ?_
    refine .bind (tableField_reads (hreads f List.mem_cons_self) hc'.1 n) rfl (fun _ _ => rfl) fun f' hf => ?_
    refine .accept rfl (.bind_last hmore rfl (fun _ => id) fun fields' hfields => .pure ?_)
    rw [unlocatedFields_cons f', unlocatedFields_cons f, hf, hfields]

theorem Reads.table (h : ∀ f ∈ fields, f.All Reads) : Reads (.table loc fields) := by
  refine .of_climbs (fun _ => rfl) fun ctx hc => ?_
  refine climbs_of_first (fun n q => do
    let fields ← tableFields ctx n
    let _ ← expect (.symbol .rbrace) .closeTable
    return .table (some q) fields) rfl rfl (fun n q ts => ?_) fun n q => ?_
  · rw [simple, bind_run (current_run _)]
    simp only [head]
    rw [Parser.table, bind_run (expect_hit (by decide) _ q _)]
  · refine .bind (tableFields_reads fields h hc n) rfl (fun _ _ => rfl) fun fields' hfields => ?_
    exact .expect rfl fun _ => .pure (by simp only [SameExpr, Expr.unlocated, hfields])

end TypedLua.Parser
