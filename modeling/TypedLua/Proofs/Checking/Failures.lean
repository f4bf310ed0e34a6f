import TypedLua.Proofs.Checking.Edits
import TypedLua.Proofs.Parsing.Results
import TypedLua.Proofs.Target.Totality

/-!
# Why a parsed chunk has no code

Whether checks are inserted or annotations erased, the code of a parsed chunk fails with its first
obstacle: a number that cannot be written, a function type, or a `break` outside of loops.
-/

namespace TypedLua.Target.Generate

open Instrument (ExprEdit ExprsEdit OptionEdit FieldsEdit FunctionEdit BlockEdit OtherwiseEdit ClausesEdit
  StmtsEdit StmtEdit Wraps Wrapped PredicateOf)

/-! ## Trees without annotations -/

mutual

theorem generates_erase : (e : TypedLua.Expr) → e.Written → Generates e.erase
  | .nil loc, _ => generates_nil loc
  | .bool .., _ | .string .., _ | .vararg _, _ => generates_literal rfl fun _ => ⟨_, rfl⟩
  | .number loc n, _ => generates_number loc n
  | .name loc x, _ => generates_name loc x
  | .function f, h => generates_function (functionGenerates_erase f h)
  | .signature loc params body, _ => generates_signature loc params body
  | .table _ fields, h => generates_table (fields_erase fields h)
  | .binary _ left _ right, h => generates_binary (generates_erase left h.1) (generates_erase right h.2)
  | .unary _ _ operand, h => generates_unary (generates_erase operand h)
  | .call _ callee args, h => generates_call (generates_erase callee h.1) (exprs_erase args h.2)
  | .method _ object _ args, h => generates_method (generates_erase object h.1) (exprs_erase args h.2)
  | .index _ object key, h => generates_index (generates_erase object h.1) (generates_erase key h.2)
  | .paren _ inner, h => generates_paren (generates_erase inner h)
  | .block .., h => h.elim

theorem exprs_erase : (es : List TypedLua.Expr) → exprsWritten es → ∀ e ∈ eraseExprs es, Generates e
  | [], _ => List.forall_mem_nil _
  | e :: es, h => List.forall_mem_cons.2 ⟨generates_erase e h.1, exprs_erase es h.2⟩

theorem option_erase : (e? : Option TypedLua.Expr) → optionWritten e? → ∀ e ∈ eraseOption e?, Generates e
  | none, _ => by simp [eraseOption]
  | some e, h => by simpa [eraseOption] using generates_erase e h

theorem fields_erase : (fs : List Field) → fieldsWritten fs → ∀ f ∈ eraseFields fs, f.All Generates
  | [], _ => List.forall_mem_nil _
  | .mk _ key value :: fs, h =>
    List.forall_mem_cons.2 ⟨⟨option_erase key h.1, generates_erase value h.2.1⟩, fields_erase fs h.2.2⟩

theorem target_erase : (e : TypedLua.Expr) → e.Written → Parser.isAssignable e = true → TargetGenerates e.erase
  | .name loc x, _, _ => targetGenerates_name loc x
  | .index _ object key, h, _ => targetGenerates_index (generates_erase object h.1) (generates_erase key h.2)
  | .nil _, _, ha | .bool .., _, ha | .number .., _, ha | .string .., _, ha | .vararg _, _, ha
  | .function _, _, ha | .signature .., _, ha | .table .., _, ha | .binary .., _, ha | .unary .., _, ha
  | .call .., _, ha | .method .., _, ha | .paren .., _, ha | .block .., _, ha => by cases ha

theorem targets_erase : (es : List TypedLua.Expr) → exprsWritten es → (∀ e ∈ es, Parser.isAssignable e = true) →
    ∀ e ∈ eraseExprs es, TargetGenerates e
  | [], _, _ => List.forall_mem_nil _
  | e :: es, h, ha => List.forall_mem_cons.2
    ⟨target_erase e h.1 (ha e List.mem_cons_self), targets_erase es h.2 fun e he => ha e (.tail _ he)⟩

theorem functionGenerates_erase : (f : TypedLua.Function) → f.Written → FunctionGenerates f.erase
  | .mk _ _ _ body _ _ _, h => functionGenerates (block_erase body h.1)

theorem block_erase : (b : TypedLua.Block) → b.Written → ∀ s ∈ b.erase.stmts, StmtGenerates s
  | .mk _ ss, h => stmts_erase ss h

theorem otherwise_erase : (b? : Option TypedLua.Block) → otherwiseWritten b? →
    ∀ b ∈ eraseOptionBlock b?, ∀ s ∈ b.stmts, StmtGenerates s
  | none, _ => by simp [eraseOptionBlock]
  | some b, h => by simpa [eraseOptionBlock] using block_erase b h

theorem clauses_erase : (cs : List Clause) → clausesWritten cs → ∀ c ∈ eraseClauses cs, c.All Generates StmtGenerates
  | [], _ => List.forall_mem_nil _
  | .mk condition body :: cs, h =>
    List.forall_mem_cons.2 ⟨⟨generates_erase condition h.1, block_erase body h.2.1⟩, clauses_erase cs h.2.2⟩

theorem stmts_erase : (ss : List TypedLua.Stmt) → stmtsWritten ss → ∀ s ∈ eraseStmts ss, StmtGenerates s
  | [], _ => List.forall_mem_nil _
  | s :: ss, h => List.forall_mem_cons.2 ⟨stmtGenerates_erase s h.1, stmts_erase ss h.2⟩

theorem stmtGenerates_erase : (s : TypedLua.Stmt) → s.Written → StmtGenerates s.erase
  | .localVars _ _ values _, h => stmtGenerates_localVars (exprs_erase values h.1)
  | .localFunction _ _ f, h => stmtGenerates_localFunction (functionGenerates_erase f h)
  | .assign _ targets values, h => stmtGenerates_assign (targets_erase targets h.1 h.2.1) (exprs_erase values h.2.2)
  | .expr _ e, h => stmtGenerates_expr (generates_erase e h)
  | .scope _ body, h => stmtGenerates_scope (block_erase body h)
  | .whileLoop _ condition body, h => stmtGenerates_whileLoop (generates_erase condition h.1) (block_erase body h.2)
  | .repeatLoop _ body condition, h => stmtGenerates_repeatLoop (block_erase body h.1) (generates_erase condition h.2)
  | .ifElse _ condition body clauses otherwise, h => stmtGenerates_ifElse (generates_erase condition h.1)
    (block_erase body h.2.1) (clauses_erase clauses h.2.2.1) (otherwise_erase otherwise h.2.2.2)
  | .numericFor _ _ start stop step body, h => stmtGenerates_numericFor (generates_erase start h.1)
    (generates_erase stop h.2.1) (option_erase step h.2.2.1) (block_erase body h.2.2.2)
  | .genericFor _ _ iterators body, h => stmtGenerates_genericFor (exprs_erase iterators h.1) (block_erase body h.2)
  | .returnValues _ values, h => stmtGenerates_returnValues (exprs_erase values h)
  | .breakLoop loc, _ => stmtGenerates_breakLoop loc

end

/-! ## Trees with checks -/

section Edits

variable {registry : String} {P : TypedLua.Expr → Prop} (hP : ∀ p, P p → Generates p)
include hP

theorem generates_wraps {v w : TypedLua.Expr} (hv : Generates v) (h : Wraps P v w) : Generates w := by
  cases h with
  | yielded hp _ => exact generates_yieldTrivial (hP _ hp) hv
  | bound hp _ => exact generates_yieldBound (hP _ hp) hv

theorem generates_wrapped {vs ws : List TypedLua.Expr} (h : Wrapped P vs ws n)
    (hvs : ∀ v ∈ vs, Generates v) : ∀ w ∈ ws, Generates w := by
  induction h with
  | nil => exact hvs
  | keep _ ih =>
    obtain ⟨hv, hrest⟩ := List.forall_mem_cons.1 hvs
    exact List.forall_mem_cons.2 ⟨hv, ih hrest⟩
  | check hw _ ih =>
    obtain ⟨hv, hrest⟩ := List.forall_mem_cons.1 hvs
    exact List.forall_mem_cons.2 ⟨generates_wraps hP hv hw, ih hrest⟩

omit hP in
theorem generates_nils {es : List TypedLua.Expr} (h : Instrument.Nils es) : ∀ e ∈ es, Generates e := by
  intro e he
  obtain ⟨loc, rfl⟩ := h e he
  exact generates_nil loc

theorem stmtGenerates_entryChecks (loc : Loc) {ps : List (String × TypedLua.Expr)} (hps : ∀ q ∈ ps, P q.2) :
    ∀ s ∈ Scoping.entryChecks loc ps, StmtGenerates s := by
  intro s hs
  obtain ⟨q, hq, rfl⟩ := List.mem_map.1 hs
  have harg : ∀ e ∈ [TypedLua.Expr.name loc q.1], Generates e := List.forall_mem_singleton.2 (generates_name _ _)
  exact stmtGenerates_expr (generates_call (hP _ (hps q hq)) harg)

-- Only some members of the block use what is included.
set_option linter.unusedSectionVars false

mutual

theorem generates_edit {e e0 e' n} : ExprEdit registry P e e0 e' n → e.Written → Generates e'
  | .nil, _ => generates_nil _
  | .bool, _ | .string, _ | .vararg, _ => generates_literal rfl fun _ => ⟨_, rfl⟩
  | .number, _ => generates_number _ _
  | .name, _ => generates_name _ _
  | .function he, h => generates_function (functionGenerates_edit he h)
  | .signature, _ => generates_signature _ _ _
  | .table he, h => generates_table (fields_edit he h)
  | .binary hl hr, h => generates_binary (generates_edit hl h.1) (generates_edit hr h.2)
  | .unary he, h => generates_unary (generates_edit he h)
  | .call he hes, h => generates_call (generates_edit he h.1) (exprs_edit hes h.2)
  | .method he hes, h => generates_method (generates_edit he h.1) (exprs_edit hes h.2)
  | .index he hkey, h => generates_index (generates_edit he h.1) (generates_edit hkey h.2)
  | .paren he, h => generates_paren (generates_edit he h)
  | .block _ _, h => h.elim

theorem exprs_edit {es es0 es' n} : ExprsEdit registry P es es0 es' n → exprsWritten es → ∀ e ∈ es', Generates e
  | .nil, _ => List.forall_mem_nil _
  | .cons he hes, h => List.forall_mem_cons.2 ⟨generates_edit he h.1, exprs_edit hes h.2⟩

theorem option_edit {e e0 e' n} : OptionEdit registry P e e0 e' n → optionWritten e → ∀ e ∈ e', Generates e
  | .none, _ => by simp
  | .some he, h => by simpa using generates_edit he h

theorem fields_edit {fs gs fs' n} : FieldsEdit registry P fs gs fs' n → fieldsWritten fs → ∀ f ∈ fs', f.All Generates
  | .nil, _ => List.forall_mem_nil _
  | .cons he hkey hfs, h =>
    List.forall_mem_cons.2 ⟨⟨option_edit hkey h.1, generates_edit he h.2.1⟩, fields_edit hfs h.2.2⟩

theorem target_edit {e e0 e' n} : ExprEdit registry P e e0 e' n → e.Written → Parser.isAssignable e = true →
    TargetGenerates e'
  | .name, _, _ => targetGenerates_name _ _
  | .index he hkey, h, _ => targetGenerates_index (generates_edit he h.1) (generates_edit hkey h.2)
  | .nil, _, ha | .bool, _, ha | .number, _, ha | .string, _, ha | .vararg, _, ha | .function _, _, ha
  | .signature, _, ha | .table _, _, ha | .binary _ _, _, ha | .unary _, _, ha | .call _ _, _, ha
  | .method _ _, _, ha | .paren _, _, ha | .block _ _, _, ha => by cases ha

theorem targets_edit {es es0 es' n} : ExprsEdit registry P es es0 es' n → exprsWritten es →
    (∀ e ∈ es, Parser.isAssignable e = true) → ∀ e ∈ es', TargetGenerates e
  | .nil, _, _ => List.forall_mem_nil _
  | .cons he hes, h, ha => List.forall_mem_cons.2
    ⟨target_edit he h.1 (ha _ List.mem_cons_self), targets_edit hes h.2 fun e he => ha e (.tail _ he)⟩

theorem functionGenerates_edit {f f0 f' n} : FunctionEdit registry P f f0 f' n → f.Written → FunctionGenerates f'
  | .mk _ hps hss, h =>
    functionGenerates (List.forall_mem_append.2 ⟨stmtGenerates_entryChecks hP _ hps, stmts_edit hss h.1⟩)

theorem block_edit {b b0 b' n} : BlockEdit registry P b b0 b' n → b.Written → ∀ s ∈ b'.stmts, StmtGenerates s
  | .mk hss, h => stmts_edit hss h

theorem otherwise_edit {b b0 b' n} : OtherwiseEdit registry P b b0 b' n → otherwiseWritten b →
    ∀ b ∈ b', ∀ s ∈ b.stmts, StmtGenerates s
  | .none, _ => by simp
  | .some hb, h => by simpa using block_edit hb h

theorem clauses_edit {cs cs0 cs' n} : ClausesEdit registry P cs cs0 cs' n → clausesWritten cs →
    ∀ c ∈ cs', c.All Generates StmtGenerates
  | .nil, _ => List.forall_mem_nil _
  | .cons he hb hcs, h =>
    List.forall_mem_cons.2 ⟨⟨generates_edit he h.1, block_edit hb h.2.1⟩, clauses_edit hcs h.2.2⟩

theorem stmts_edit {ss ss0 ss' n} : StmtsEdit registry P ss ss0 ss' n → stmtsWritten ss → ∀ s ∈ ss', StmtGenerates s
  | .nil, _ => List.forall_mem_nil _
  | .cons hs hss, h => List.forall_mem_cons.2 ⟨stmtGenerates_edit hs h.1, stmts_edit hss h.2⟩

theorem stmtGenerates_edit {s s0 s' n} : StmtEdit registry P s s0 s' n → s.Written → StmtGenerates s'
  | .localVars hes hws, h => stmtGenerates_localVars (generates_wrapped hP hws (exprs_edit hes h.1))
  | .localFunction hf, h => stmtGenerates_localFunction (functionGenerates_edit hf h)
  | .assign hts hes hnils hws, h => stmtGenerates_assign (targets_edit hts h.1 h.2.1)
    (generates_wrapped hP hws (List.forall_mem_append.2 ⟨exprs_edit hes h.2.2, generates_nils hnils⟩))
  | .expr he, h => stmtGenerates_expr (generates_edit he h)
  | .scope hb, h => stmtGenerates_scope (block_edit hb h)
  | .whileLoop he hb, h => stmtGenerates_whileLoop (generates_edit he h.1) (block_edit hb h.2)
  | .repeatLoop hb he, h => stmtGenerates_repeatLoop (block_edit hb h.1) (generates_edit he h.2)
  | .ifElse he hb hcs ho, h => stmtGenerates_ifElse (generates_edit he h.1) (block_edit hb h.2.1)
    (clauses_edit hcs h.2.2.1) (otherwise_edit ho h.2.2.2)
  | .numericFor h1 h2 hstep hb, h => stmtGenerates_numericFor (generates_edit h1 h.1) (generates_edit h2 h.2.1)
    (option_edit hstep h.2.2.1) (block_edit hb h.2.2.2)
  | .genericFor hes hb, h => stmtGenerates_genericFor (exprs_edit hes h.1) (block_edit hb h.2)
  | .returnValues hes, h => stmtGenerates_returnValues (exprs_edit hes h)
  | .returnChecked hes hw, h => by
    obtain ⟨hv, hrest⟩ := List.forall_mem_cons.1 (exprs_edit hes h)
    exact stmtGenerates_returnValues (List.forall_mem_cons.2 ⟨generates_wraps hP hv hw, hrest⟩)
  | .returnNil hw, _ =>
    stmtGenerates_returnValues (List.forall_mem_singleton.2 (generates_wraps hP (generates_nil _) hw))
  | .breakLoop, _ => stmtGenerates_breakLoop _

end

end Edits

theorem congruent_generates : Parser.Congruent Generates where
  nil := generates_nil
  bool _ _ := generates_literal rfl fun _ => ⟨_, rfl⟩
  number := generates_number
  string _ _ := generates_literal rfl fun _ => ⟨_, rfl⟩
  vararg _ := generates_literal rfl fun _ => ⟨_, rfl⟩
  name := generates_name
  signature := generates_signature
  table _ _ h := generates_table h
  binary _ _ _ _ hl hr := generates_binary hl hr
  unary _ _ _ h := generates_unary h
  call _ _ _ hc has := generates_call hc has
  method _ _ _ _ ho has := generates_method ho has
  index _ _ _ ho hk := generates_index ho hk
  paren _ _ h := generates_paren h

theorem prepare_generates (hparse : Parser.parse types tokens = .ok c)
    (hprepare : c.prepare typecheck registry stem = .ok (c', checks)) : ∀ s ∈ c'.body.stmts, StmtGenerates s := by
  have hP : ∀ p, PredicateOf registry c p → Generates p := by
    rintro p ⟨type, htype, hp⟩
    exact ((Parser.parse_tidy hparse).1 type htype _ congruent_generates).2 registry [] p hp
  have hwritten : c.body.Written := Parser.parse_written hparse
  rw [Chunk.prepare] at hprepare
  split at hprepare
  · obtain ⟨body', rfl, hbody'⟩ := Instrument.chunk_edit hprepare
    exact block_edit hP hbody' hwritten
  · cases hprepare
    exact block_erase c.body hwritten

end TypedLua.Target.Generate

namespace TypedLua.Target

theorem generate_error_iff {c : Chunk} (h : ∀ s ∈ c.body.stmts, Generate.StmtGenerates s)
    (failure : GenerateFailure) :
    generate c = .error failure ↔ c.obstacles.head?.map Obstacle.failure = some failure := by
  have hsuite := Generate.fails_blockSuite h ⟨[], 0, 0, false⟩ ⟨[], [], []⟩
  rw [generate]
  cases hrun : Generate.blockSuite ⟨[], 0, 0, false⟩ c.body ⟨[], [], []⟩ with
  | error failure' =>
    rw [hrun] at hsuite
    have hfirst : c.obstacles.head?.map Obstacle.failure = some failure' := hsuite
    rw [hfirst]
    exact ⟨fun heq => by cases heq; rfl, fun heq => by cases heq; rfl⟩
  | ok r =>
    rw [hrun] at hsuite
    have hnone : c.obstacles = [] := hsuite.1
    rw [hnone]
    exact ⟨fun heq => (nomatch heq), fun heq => (nomatch heq)⟩

/-- The code of a parsed chunk, with checks or without, fails at the first obstacle of the chunk and only
there. If every number can be written, it fails exactly if a function type or a `break` outside of loops is
left, and then for that reason. -/
theorem generate_fails_at_obstacle {types registry stem : String} {typecheck : Bool} {tokens : List Token}
    {c c' : Chunk} {checks : Nat} (hparse : Parser.parse types tokens = .ok c)
    (hprepare : c.prepare typecheck registry stem = .ok (c', checks)) :
    (∀ failure, generate c' = .error failure ↔ c'.obstacles.head?.map Obstacle.failure = some failure) ∧
      (.unwritable ∉ c'.obstacles → generate c' ≠ .error .unwritable ∧
        ((∃ cause loc, generate c' = .error (.invalid cause loc)) ↔ c'.obstacles ≠ [])) := by
  have hfirst : ∀ failure, generate c' = .error failure ↔ c'.obstacles.head?.map Obstacle.failure = some failure :=
    generate_error_iff (Generate.prepare_generates hparse hprepare)
  refine ⟨hfirst, fun hwritable => ⟨?_, ?_⟩⟩
  · intro hunwritable
    obtain ⟨obstacle, hobstacle, hfailure⟩ := Option.map_eq_some_iff.1 ((hfirst _).1 hunwritable)
    cases obstacle with
    | unwritable => exact hwritable (List.mem_of_mem_head? hobstacle)
    | functionType loc => cases hfailure
    | breakOutside loc => cases hfailure
  · constructor
    · rintro ⟨cause, loc, hfails⟩ hnone
      have hobstacle := (hfirst _).1 hfails
      rw [hnone] at hobstacle
      cases hobstacle
    · intro hobstacles
      obtain ⟨obstacle, rest, hlist⟩ := List.exists_cons_of_ne_nil hobstacles
      have hfails : generate c' = .error obstacle.failure := by
        rw [hfirst, hlist]
        rfl
      cases obstacle with
      | unwritable => exact absurd (hlist ▸ List.mem_cons_self) hwritable
      | functionType loc => exact ⟨.functionType, loc, hfails⟩
      | breakOutside loc => exact ⟨.breakOutside, loc, hfails⟩

/-- A function type in parentheses is not taken apart, and so it is left in the check:

```
local f :: (function() return number end) = g
break
```
-/
def parenthesisedTokens : List Token :=
  ([.keyword .local_, .name "f", .symbol .doubleColon, .symbol .lparen, .keyword .function_, .symbol .lparen,
    .symbol .rparen, .keyword .return_, .name "number", .keyword .end_, .symbol .rparen, .symbol .assign,
    .name "g", .keyword .break_, .eof] : List Token.Kind).map (⟨·, .start⟩)

theorem generate_fails_at_obstacle_parenthesised : ∃ c c', Parser.parse "types" parenthesisedTokens = .ok c ∧
    c.prepare true "types" "_v" = .ok (c', 1) ∧
    c'.obstacles = [.functionType (some .start), .breakOutside (some .start)] ∧
    generate c' = .error (.invalid .functionType (some .start)) := by
  have hstages : (Parser.parse "types" parenthesisedTokens).toOption.any (fun c =>
      (c.prepare true "types" "_v").toOption.any fun r =>
        r.2 == 1 && r.1.obstacles == [.functionType (some .start), .breakOutside (some .start)]) = true := by
    decide +kernel
  obtain ⟨c, hc, hstages⟩ := exists_ok hstages
  obtain ⟨⟨c', checks⟩, hc', hstages⟩ := exists_ok hstages
  obtain ⟨hchecks, hobstacles⟩ := Bool.and_eq_true_iff.1 hstages
  obtain rfl : checks = 1 := eq_of_beq hchecks
  have hobstacles := eq_of_beq hobstacles
  refine ⟨c, c', hc, hc', hobstacles, ((generate_fails_at_obstacle hc hc').1 _).2 ?_⟩
  rw [hobstacles]
  rfl

end TypedLua.Target
