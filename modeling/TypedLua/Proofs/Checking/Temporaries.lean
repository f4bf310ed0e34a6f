import TypedLua.Proofs.Checking.Edits
import TypedLua.Proofs.Checking.Supply
import TypedLua.Proofs.Parsing.Results
import TypedLua.Proofs.Syntax.Occurrences

/-!
# Temporaries are fresh

A check of a term that cannot be read twice declares a temporary, in a block that stands in place of
the term.
-/

namespace TypedLua.Instrument

/-! ## Steps of the pass -/

/-- What a step makes declares the names that were declared before, some names out of predicates, and the next
names of the supply. -/
def Makes {α : Type} (O : String → Prop) (before : List String) (m : Pass α) (T : α → List String)
    (Q : α → Prop) : Prop :=
  ∀ ⦃st a st'⦄, m st = .ok (a, st') → Q a ∧ ∃ k ts, st'.names = st.names.after k ∧ (∀ t ∈ ts, O t) ∧
    (T a).Perm (before ++ (ts ++ st.names.freshMany k))

def Old (O : String → Prop) (p : Expr) : Prop := ∀ t ∈ p.temporaries, O t

section Steps

variable {α β : Type} {O : String → Prop} {before : List String} {registry : String} {ctx : Context}

namespace Makes

variable {m : Pass α} {f : α → Pass β} {T : α → List String} {U : β → List String} {P : α → Prop} {Q : β → Prop}

theorem pure {b : β} (hb : Q b) (h : (U b).Perm before) : Makes O before (pure b) U Q := by
  intro st b st' hrun
  cases hrun
  exact ⟨hb, 0, [], rfl, List.forall_mem_nil _, by rwa [Supply.freshMany, List.append_nil, List.append_nil]⟩

theorem done {b : β} (hb : Q b) : Makes O (U b) (Pure.pure b) U Q := pure hb (.refl _)

theorem still (h : ∀ ⦃st a st'⦄, m st = .ok (a, st') → P a ∧ st' = st) : Makes O before m (fun _ => before) P := by
  intro st a st' hrun
  obtain ⟨ha, rfl⟩ := h hrun
  exact ⟨ha, 0, [], rfl, List.forall_mem_nil _, by simp [Supply.freshMany]⟩

theorem seq (hm : Makes O before m T P) (hf : ∀ a, P a → Makes O (T a) (f a) U Q) : Makes O before (m >>= f) U Q := by
  intro st b st'' hrun
  obtain ⟨a, st', ha, hb⟩ := bind_ok hrun
  obtain ⟨hP, j, ts, hnames, hts, hT⟩ := hm ha
  obtain ⟨hQ, k, ts', hnames', hts', hU⟩ := hf a hP hb
  refine ⟨hQ, j + k, ts ++ ts', ?_, List.forall_mem_append.2 ⟨hts, hts'⟩, ?_⟩
  · rw [hnames', hnames, Supply.after_add]
    -- Names out of predicates and names of the supply alternate from step to step; sorted, they are two lists again.
  · refine (hU.trans (hT.append_right _)).trans ?_
    rw [hnames, Supply.freshMany_add]
    simp only [List.append_assoc]
    exact ((List.perm_append_comm_assoc ..).append_left _).append_left _

theorem frame (hm : Makes O before m T P) : Makes O (others ++ before) m (fun a => others ++ T a) P := by
  intro st a st' hrun
  obtain ⟨hP, k, ts, hnames, hts, hT⟩ := hm hrun
  refine ⟨hP, k, ts, hnames, hts, ?_⟩
  rw [List.append_assoc]
  exact hT.append_left others

theorem perm {before' : List String} (hm : Makes O before m T P) (h : before'.Perm before) :
    Makes O before' m T P := by
  intro st a st' hrun
  obtain ⟨hP, k, ts, hnames, hts, hT⟩ := hm hrun
  exact ⟨hP, k, ts, hnames, hts, hT.trans (h.symm.append_right _)⟩

/-! The parts of a tree are taken from the front; what becomes of them goes to the end. -/

variable {r s t : List String}

theorem bind (hm : Makes O before m T P) (hf : ∀ a, P a → Makes O (r ++ T a) (f a) U Q) :
    Makes O (before ++ r) (m >>= f) U Q :=
  (hm.frame.perm List.perm_append_comm).seq hf

theorem bind3 (hm : Makes O before m T P) (hf : ∀ a, P a → Makes O (r ++ s ++ T a) (f a) U Q) :
    Makes O (before ++ r ++ s) (m >>= f) U Q :=
  (hm.bind hf).perm (.of_eq (List.append_assoc ..))

theorem bind4 (hm : Makes O before m T P) (hf : ∀ a, P a → Makes O (r ++ s ++ t ++ T a) (f a) U Q) :
    Makes O (before ++ r ++ s ++ t) (m >>= f) U Q :=
  (hm.bind3 hf).perm (.of_eq (congrArg (· ++ t) (List.append_assoc ..)))

end Makes

theorem temporaries_of_isTrivial {e : Expr} (h : e.isTrivial = true) : e.temporaries = [] := by
  cases e <;> first | rfl | cases h

theorem makes_guard {p term : Expr} (hp : Old O p) :
    Makes O term.temporaries (guard p term) (·.temporaries) fun _ => True := by
  intro st e st' h
  have hrun : guard p term st = .ok ((Check.asExpression st.names p term).1,
      ⟨(Check.asExpression st.names p term).2, st.checks + 1⟩) := rfl
  rw [hrun] at h
  cases h
  unfold Check.asExpression
  -- A term that can be read twice is not bound to a name, so no name is taken for it.
  split
  · next h =>
    refine ⟨trivial, 0, p.temporaries, rfl, hp, ?_⟩
    simp [Check.yieldTrivial, Check.callStatement, Expr.temporaries, declaredNames, stmtsTemporaries,
      Stmt.temporaries, exprsTemporaries, temporaries_of_isTrivial h, Supply.freshMany]
  · refine ⟨trivial, 1, p.temporaries, rfl, hp, ?_⟩
    simp only [Check.yieldBound, Check.callStatement, Expr.temporaries, declaredNames, stmtsTemporaries,
      Stmt.temporaries, exprsTemporaries, List.append_nil, Supply.freshMany]
    rw [← List.append_assoc term.temporaries]
    exact List.perm_append_comm

theorem exprsTemporaries_append (es es' : List Expr) :
    exprsTemporaries (es ++ es') = exprsTemporaries es ++ exprsTemporaries es' := by
  induction es with
  | nil => rfl
  | cons e es ih => rw [List.cons_append, exprsTemporaries, exprsTemporaries, ih, List.append_assoc]

theorem exprsTemporaries_replicate (loc : Loc) (n : Nat) : exprsTemporaries (List.replicate n (.nil loc)) = [] := by
  induction n with
  | zero => rfl
  | succ n ih => rw [List.replicate_succ, exprsTemporaries, ih, Expr.temporaries, List.append_nil]

theorem exprsTemporaries_set (h : es[index]? = some e) :
    ∃ ts, (exprsTemporaries es).Perm (ts ++ e.temporaries) ∧
      ∀ e', (exprsTemporaries (es.set index e')).Perm (ts ++ e'.temporaries) := by
  induction es generalizing index with
  | nil => cases h
  | cons first es ih =>
    cases index with
    | zero =>
      cases h
      exact ⟨exprsTemporaries es, List.perm_append_comm, fun _ => List.perm_append_comm⟩
    | succ index =>
      obtain ⟨ts, hes, hset⟩ := ih h
      refine ⟨first.temporaries ++ ts, ?_, fun e' => ?_⟩
      all_goals rw [List.append_assoc]
      · exact hes.append_left _
      · exact (hset e').append_left _

theorem makes_guardAt (hp : Old O p) (loc : Loc) (index : Nat) (values : List Expr) :
    Makes O (exprsTemporaries values) (guardAt p loc index values) exprsTemporaries fun _ => True := by
  -- Values that are missing are filled up with `nil` before the one at the index is replaced.
  have hpadded : exprsTemporaries (values ++ List.replicate (index + 1 - values.length) (.nil loc)) =
      exprsTemporaries values := by
    rw [exprsTemporaries_append, exprsTemporaries_replicate, List.append_nil]
  rw [guardAt, ← hpadded]
  split
  · next value hval =>
    obtain ⟨ts, hbefore, hset⟩ := exprsTemporaries_set hval
    exact ((makes_guard hp).frame.perm hbefore).seq fun checked _ => .pure trivial (hset checked)
  · exact .pure trivial (.refl _)

theorem makes_guardLocals (hknown : ∀ x, ∀ p ∈ (List.lookup x known).join, Old O p)
    (names : List String) (index : Nat) (values : List Expr) :
    Makes O (exprsTemporaries values) (guardLocals known index names values) exprsTemporaries fun _ => True := by
  induction names generalizing index values with
  | nil => exact .pure trivial (.refl _)
  | cons x names ih =>
    rw [guardLocals]
    split
    · next p hp =>
      split
      · exact (makes_guardAt (hknown x p hp) none index values).seq fun _ _ => ih ..
      · exact ih ..
    · exact ih ..

theorem makes_guardTargets (hctx : ctx.All (Old O)) (targets : List Expr) (index : Nat) (values : List Expr) :
    Makes O (exprsTemporaries values) (guardTargets ctx index targets values) exprsTemporaries fun _ => True := by
  induction targets generalizing index values with
  | nil => exact .pure trivial (.refl _)
  | cons target targets ih =>
    cases target with
    | name loc x =>
      rw [guardTargets]
      split
      · next p hp => exact (makes_guardAt (hctx.scopes x p hp) loc index values).seq fun _ _ => ih ..
      · exact ih ..
    | _ => exact ih ..

theorem makes_entryChecks (loc : Loc) (hps : ∀ q ∈ ps, Old O q.2) :
    Makes O [] (entryChecks loc ps) stmtsTemporaries fun _ => True := by
  have htypes : ∀ t ∈ stmtsTemporaries (ps.map fun q => Check.asStatement q.2 (.name loc q.1)), O t := by
    induction ps with
    | nil => exact List.forall_mem_nil _
    | cons q ps ih =>
      obtain ⟨hq, hps⟩ := List.forall_mem_cons.1 hps
      refine List.forall_mem_append.2 ⟨?_, ih hps⟩
      simpa [Check.asStatement, Check.callStatement, Stmt.temporaries, Expr.temporaries,
        exprsTemporaries, Old] using hq
  intro st ss st' h
  cases h
  exact ⟨trivial, 0, _, rfl, htypes, by simp [Supply.freshMany]⟩

end Steps

/-! ## Trees -/

section Trees

variable {O : String → Prop} {registry : String}

theorem declaredNames_cons (s : Stmt) (ss : List Stmt) :
    declaredNames (s :: ss) = declaredNames [s] ++ declaredNames ss := by
  cases s <;> simp [declaredNames]

theorem stmtsTemporaries_append (ss ss' : List Stmt) :
    stmtsTemporaries (ss ++ ss') = stmtsTemporaries ss ++ stmtsTemporaries ss' := by
  induction ss with
  | nil => rfl
  | cons s ss ih => rw [List.cons_append, stmtsTemporaries, stmtsTemporaries, ih, List.append_assoc]

/-! What the pass makes of a tree declares old names and names of the supply, and a statement declares what it
declared before. -/

mutual

theorem expr_makes (hctx : Knowing registry (Old O) ctx) : ∀ e, CompileTo registry (Old O) (Expr.types e) →
    Makes O e.temporaries (expr ctx e) (·.temporaries) fun _ => True
  | .nil _, _ | .bool .., _ | .number .., _ | .string .., _ | .vararg _, _ | .name .., _ | .signature .., _ =>
    .done trivial
  | .function f, h => (function_makes hctx f h).seq fun _ _ => .done trivial
  | .table _ fields, h => (fields_make hctx fields h).seq fun _ _ => .done trivial
  | .binary _ left _ right, h => (expr_makes hctx left h.left).bind fun _ _ =>
    (expr_makes hctx right h.right).bind fun _ _ => .done trivial
  | .unary _ _ operand, h => (expr_makes hctx operand h).seq fun _ _ => .done trivial
  | .call _ callee args, h => (expr_makes hctx callee h.left).bind fun _ _ =>
    (exprs_make hctx args h.right).bind fun _ _ => .done trivial
  | .method _ object _ args, h => (expr_makes hctx object h.left).bind fun _ _ =>
    (exprs_make hctx args h.right).bind fun _ _ => .done trivial
  | .index _ object key, h => (expr_makes hctx object h.left).bind fun _ _ =>
    (expr_makes hctx key h.right).bind fun _ _ => .done trivial
  | .paren _ inner, h => (expr_makes hctx inner h).seq fun _ _ => .done trivial
  | .block _ ss value, h => by
    -- What the block declares itself is in the list, and the pass keeps it.
    refine (stmts_make hctx.unscoped ss h.left).frame.bind fun r hr => ?_
    refine (expr_makes hr.1 value h.right).bind fun value' _ => .pure trivial ?_
    rw [Expr.temporaries, hr.2]

theorem exprs_make (hctx : Knowing registry (Old O) ctx) : ∀ es, CompileTo registry (Old O) (exprsTypes es) →
    Makes O (exprsTemporaries es) (exprs ctx es) exprsTemporaries fun _ => True
  | [], _ => .done trivial
  | e :: es, h => (expr_makes hctx e h.left).bind fun _ _ => (exprs_make hctx es h.right).bind fun _ _ => .done trivial

theorem option_makes (hctx : Knowing registry (Old O) ctx) :
    ∀ e?, CompileTo registry (Old O) (optionTypes e?) →
      Makes O (optionTemporaries e?) (exprOption ctx e?) optionTemporaries fun _ => True
  | none, _ => .done trivial
  | some e, h => (expr_makes hctx e h).seq fun _ _ => .done trivial

theorem fields_make (hctx : Knowing registry (Old O) ctx) :
    ∀ fs, CompileTo registry (Old O) (fieldsTypes fs) →
    Makes O (fieldsTemporaries fs) (tableFields ctx fs) fieldsTemporaries fun _ => True
  | [], _ => .done trivial
  | .mk _ key value :: fs, h => by
    -- The value of an entry gets its checks before the key does.
    refine Makes.perm ?_ (List.perm_append_comm.append_right _)
    refine (expr_makes hctx value h.left.right).bind3 fun _ _ => (option_makes hctx key h.left.left).bind3 fun _ _ => ?_
    exact (fields_make hctx fs h.right).bind3 fun _ _ => .pure trivial (List.perm_append_comm.append_right _)

theorem function_makes (hctx : Knowing registry (Old O) ctx) :
    ∀ f, CompileTo registry (Old O) (Function.types f) →
      Makes O f.temporaries (function ctx f) (·.temporaries) fun _ => True
  | .mk loc params isVararg (.mk bodyLoc ss) types returnType label, h => by
    -- Annotations take no names; the body comes before the checks at its entry, which stand in front of it.
    refine (Makes.still (h.left.left.predicates_run hctx)).seq fun ps hps => ?_
    refine (Makes.still (h.left.right.result_run hctx)).seq fun result hres => ?_
    have hinside := (hctx.nested (allBindings_append params hps.2)).returning hres
    refine (stmts_make hinside ss h.right).seq fun r _ => ?_
    refine Makes.bind (makes_entryChecks loc hps.2) fun entry _ => .pure trivial ?_
    show (stmtsTemporaries (entry ++ r.1)).Perm (stmtsTemporaries r.1 ++ stmtsTemporaries entry)
    rw [stmtsTemporaries_append]
    exact List.perm_append_comm

theorem block_makes (hctx : Knowing registry (Old O) ctx) : ∀ b, CompileTo registry (Old O) (Block.types b) →
    Makes O b.temporaries (block ctx b) (·.temporaries) fun _ => True
  | .mk _ ss, h => (stmts_make hctx.unscoped ss h).seq fun _ _ => .done trivial

theorem otherwise_makes (hctx : Knowing registry (Old O) ctx) :
    ∀ b?, CompileTo registry (Old O) (otherwiseTypes b?) →
      Makes O (otherwiseTemporaries b?) (blockOption ctx b?) otherwiseTemporaries fun _ => True
  | none, _ => .done trivial
  | some b, h => (block_makes hctx b h).seq fun _ _ => .done trivial

theorem clauses_make (hctx : Knowing registry (Old O) ctx) :
    ∀ cs, CompileTo registry (Old O) (clausesTypes cs) →
      Makes O (clausesTemporaries cs) (clauses ctx cs) clausesTemporaries fun _ => True
  | [], _ => .done trivial
  | .mk condition body :: cs, h => (expr_makes hctx condition h.left.left).bind3 fun _ _ =>
    (block_makes hctx body h.left.right).bind3 fun _ _ => (clauses_make hctx cs h.right).bind3 fun _ _ => .done trivial

theorem stmts_make (hctx : Knowing registry (Old O) ctx) : ∀ ss, CompileTo registry (Old O) (stmtsTypes ss) →
    Makes O (stmtsTemporaries ss) (stmts ctx ss) (fun r => stmtsTemporaries r.1) fun r =>
      Knowing registry (Old O) r.2 ∧ declaredNames r.1 = declaredNames ss
  | [], _ => .done ⟨hctx, rfl⟩
  | s :: ss, h => by
    refine (stmt_makes hctx s h.left).bind fun r hr => (stmts_make hr.1 ss h.right).bind fun r' hr' => .done ⟨hr'.1, ?_⟩
    rw [declaredNames_cons, hr.2, hr'.2, ← declaredNames_cons]

theorem stmt_makes (hctx : Knowing registry (Old O) ctx) : ∀ s, CompileTo registry (Old O) (Stmt.types s) →
    Makes O s.temporaries (stmt ctx s) (·.1.temporaries) fun r =>
      Knowing registry (Old O) r.2 ∧ declaredNames [r.1] = declaredNames [s]
  | .localVars _ names values _, h => (exprs_make hctx values h.left).seq fun plain _ =>
    (Makes.still (h.right.predicates_run hctx)).seq fun _ hps =>
      have hbinds := allBindings_append names hps.2
      (makes_guardLocals hbinds.ofBindings names 0 plain).seq fun _ _ =>
        .done ⟨hctx.declaring_ofBindings hbinds, rfl⟩
  | .localFunction _ x f, h =>
    have hinside := hctx.declaring (allBindings_unknown [x])
    (function_makes hinside f h).seq fun _ _ => .done ⟨hinside, rfl⟩
  | .assign _ targets values, h => (exprs_make hctx targets h.left).bind fun targets' _ =>
    (exprs_make hctx values h.right).bind fun plain _ =>
      (makes_guardTargets hctx.all targets' 0 plain).frame.seq fun _ _ => .done ⟨hctx, rfl⟩
  | .expr _ e, h => (expr_makes hctx e h).seq fun _ _ => .done ⟨hctx, rfl⟩
  | .scope _ body, h => (block_makes hctx body h).seq fun _ _ => .done ⟨hctx, rfl⟩
  | .whileLoop _ condition body, h => (expr_makes hctx condition h.left).bind fun _ _ =>
    (block_makes hctx body h.right).bind fun _ _ => .done ⟨hctx, rfl⟩
  -- The condition of the loop sees what the body declares.
  | .repeatLoop _ (.mk _ ss) condition, h => (stmts_make hctx.unscoped ss h.left).bind fun _ hr =>
    (expr_makes hr.1 condition h.right).bind fun _ _ => .done ⟨hctx, rfl⟩
  | .ifElse _ condition body rest otherwise, h => (expr_makes hctx condition h.left.left.left).bind4 fun _ _ =>
    (block_makes hctx body h.left.left.right).bind4 fun _ _ => (clauses_make hctx rest h.left.right).bind4 fun _ _ =>
      (otherwise_makes hctx otherwise h.right).bind4 fun _ _ => .done ⟨hctx, rfl⟩
  | .numericFor _ counter start stop step body, h => (expr_makes hctx start h.left.left.left).bind4 fun _ _ =>
    (expr_makes hctx stop h.left.left.right).bind4 fun _ _ => (option_makes hctx step h.left.right).bind4 fun _ _ =>
      (block_makes (hctx.nested (allBindings_unknown [counter])) body h.right).bind4 fun _ _ => .done ⟨hctx, rfl⟩
  | .genericFor _ names iterators body, h => (exprs_make hctx iterators h.left).bind fun _ _ =>
    (block_makes (hctx.nested (allBindings_unknown names)) body h.right).bind fun _ _ => .done ⟨hctx, rfl⟩
  | .returnValues loc values, h => by
    refine (exprs_make hctx values h).seq fun plain _ => ?_
    split
    · next p hp => exact (makes_guardAt (hctx.all.result p hp) loc 0 plain).seq fun _ _ => .done ⟨hctx, rfl⟩
    · exact .done ⟨hctx, rfl⟩
  | .breakLoop _, _ => .done ⟨hctx, rfl⟩

end

/-- Blocks of a chunk with checks declare what blocks of the chunk declare, names out of predicates, and the
first names of the supply. -/
theorem chunk_made {c c' : Chunk}
    (htypes : CompileTo registry (Old O) c.types) (h : chunk registry stem c = .ok (c', checks)) :
    ∃ k ts, (∀ t ∈ ts, O t) ∧
      c'.temporaries.Perm (c.temporaries ++ (ts ++ Supply.freshMany k (.new stem c.names))) := by
  have hstart : Knowing registry (Old O) ⟨registry, none, []⟩ := ⟨rfl, nofun, nofun⟩
  rw [chunk] at h
  split at h
  · next body state hblock =>
    cases h
    obtain ⟨-, k, ts, -, hts, hperm⟩ := block_makes hstart c.body htypes hblock
    exact ⟨k, ts, hts, hperm⟩
  · cases h

end Trees

/-! ## Parsed chunks -/

/-- The names that checks introduce are the names of the supply with the first numbers whose names the chunk does
not mention. All other names that blocks of a chunk with checks declare are declared by blocks of the chunk or of
its predicates. The search for a name ends whatever names are taken. -/
theorem temporaries_introduced {registry stem : String} {c c' : Chunk} {checks : Nat}
    (h : chunk registry stem c = .ok (c', checks)) :
    (∃ introduced ts, c'.temporaries.Perm (c.temporaries ++ (ts ++ introduced)) ∧
      (∀ t ∈ ts, ∃ p, PredicateOf registry c p ∧ t ∈ p.temporaries) ∧
      introduced.Nodup ∧ (∀ t ∈ introduced, ¬c.Mentions t) ∧
      introduced = (List.range introduced.length).map fun i => Supply.nameAt stem
        (Nat.nth (fun n => 0 < n ∧ ¬c.Mentions (Supply.nameAt stem n)) i)) ∧
    ∀ used count, ∃ n, Supply.fresh ⟨stem, used, count⟩ = (Supply.nameAt stem n, ⟨stem, used, n⟩) ∧
      count < n ∧ n ≤ count + used.length + 1 ∧ Supply.nameAt stem n ∉ used ∧
      ∀ k, count < k → k < n → Supply.nameAt stem k ∈ used := by
  refine ⟨?_, fun used count => ?_⟩
  · have htypes : CompileTo registry (Old fun t => ∃ p, PredicateOf registry c p ∧ t ∈ p.temporaries) c.types :=
      fun type htype p hp t ht => ⟨p, ⟨type, htype, hp⟩, ht⟩
    obtain ⟨k, ts, hts, hperm⟩ := chunk_made htypes h
    refine ⟨_, ts, hperm, hts, Supply.nodup_freshMany .., fun t ht hmentions => ?_, ?_⟩
    · obtain ⟨n, -, -, hfree⟩ := Supply.mem_freshMany ht
      exact hfree (Chunk.mentions_iff.1 hmentions)
    · have hfree : Supply.Free stem c.names = fun n => 0 < n ∧ ¬c.Mentions (Supply.nameAt stem n) := by
        funext n
        rw [Supply.Free, Chunk.mentions_iff]
      rw [← hfree, Supply.length_freshMany]
      exact Supply.freshMany_new ..
  · obtain ⟨n, hfresh, hfree, hlt, hle, hskipped⟩ := Supply.fresh_spec ⟨stem, used, count⟩
    refine ⟨n, hfresh, hlt, hle, hfree.2, fun k hk hk' => ?_⟩
    exact of_not_not fun hnot => hskipped k hk hk' ⟨by omega, hnot⟩

def takenChunk : Chunk := ⟨none, .mk none [
    .localVars none ["_t1"] [.call none (.name none "f") []] [.mk "_t1" (.name none "number")]], none⟩

theorem temporaries_introduced_taken : ∃ c', chunk "types" "_t" takenChunk = .ok (c', 1) ∧
    c'.temporaries = ["_t2"] ∧ takenChunk.Mentions "_t1" ∧
    ∃ introduced ts, c'.temporaries.Perm (takenChunk.temporaries ++ (ts ++ introduced)) ∧
      ∀ t ∈ introduced, ¬takenChunk.Mentions t := by
  have hrun : ∃ c', chunk "types" "_t" takenChunk = .ok (c', 1) ∧ c'.temporaries = ["_t2"] :=
    ⟨_, rfl, by decide +kernel⟩
  obtain ⟨c', hc', hnames⟩ := hrun
  obtain ⟨introduced, ts, hperm, -, -, hfree, -⟩ := (temporaries_introduced hc').1
  exact ⟨c', hc', hnames, Chunk.mentions_iff.2 (by decide +kernel), introduced, ts, hperm, hfree⟩

end TypedLua.Instrument
