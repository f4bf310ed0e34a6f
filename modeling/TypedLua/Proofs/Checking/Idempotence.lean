import TypedLua.Proofs.Checking.Consumption

/-!
# Nothing is inserted twice

Where the pass knows no predicate and meets no annotation it changes nothing: it gives the same tree
back, takes no name for a temporary and counts no check.
-/

namespace TypedLua.Instrument

/-- Nothing is known of any name, nor of the results. -/
abbrev Context.Unknowing (ctx : Context) : Prop := ctx.All fun _ => False

variable {ctx : Context} {st : State}

theorem unknown_lookup (h : ctx.Unknowing) (x : String) : ctx.scopes.lookup x = none :=
  Option.eq_none_iff_forall_not_mem.2 (h.scopes x)

theorem unknown_result (h : ctx.Unknowing) : ctx.result = none := Option.eq_none_iff_forall_not_mem.2 h.result

theorem guardTargets_unknown (h : ctx.Unknowing) (index : Nat) (targets values : List Expr) :
    guardTargets ctx index targets values st = .ok (values, st) := by
  induction targets generalizing index with
  | nil => rfl
  | cons target targets ih =>
    cases target with
    | name loc x =>
      rw [guardTargets, unknown_lookup h]
      exact ih (index + 1)
    | _ => exact ih (index + 1)

theorem guardLocals_unknown {known : Scope Expr} (h : ∀ x, (List.lookup x known).join = none) (index : Nat)
    (names : List String) (values : List Expr) : guardLocals known index names values st = .ok (values, st) := by
  induction names generalizing index with
  | nil => rfl
  | cons x names ih =>
    rw [guardLocals, h]
    exact ih (index + 1)

theorem allBindings_unannotated (names : List String) :
    AllBindings (fun _ => False) (names.map (·, none) ++ ([] : List (String × Expr)).map fun (x, p) => (x, some p)) :=
  allBindings_append names (List.forall_mem_nil _)

theorem lookup_unannotated (names : List String) (x : String) :
    (List.lookup x (Scope.ofBindings (names.map (·, none) ++ ([] : List (String × Expr)).map
      fun (x, p) => (x, some p)))).join = none := by
  exact Option.eq_none_iff_forall_not_mem.2 ((allBindings_unannotated names).ofBindings x)

/-! The parts of a bare tree are bare. -/

theorem bare_left {a b : Bool} (h : (a && b) = true) : a = true := (Bool.and_eq_true_iff.1 h).1

theorem bare_right {a b : Bool} (h : (a && b) = true) : b = true := (Bool.and_eq_true_iff.1 h).2

/-! The pass gives a bare tree back, and learns nothing from a bare statement. -/

mutual

theorem expr_fixed {ctx : Context} {st : State} (hctx : ctx.Unknowing) :
    ∀ e, Expr.bare false e = true → expr ctx e st = .ok (e, st)
  | .nil _, _ | .bool .., _ | .number .., _ | .string .., _ => rfl
  | .vararg _, _ | .name .., _ | .signature .., _ => rfl
  | .function f, h => bind_run (function_fixed hctx f h)
  | .table _ fields, h => bind_run (fields_fixed hctx fields h)
  | .binary _ left _ right, h =>
    (bind_run (expr_fixed hctx left (bare_left h))).trans (bind_run (expr_fixed hctx right (bare_right h)))
  | .unary _ _ operand, h => bind_run (expr_fixed hctx operand h)
  | .call _ callee args, h =>
    (bind_run (expr_fixed hctx callee (bare_left h))).trans (bind_run (exprs_fixed hctx args (bare_right h)))
  | .method _ object _ args, h =>
    (bind_run (expr_fixed hctx object (bare_left h))).trans (bind_run (exprs_fixed hctx args (bare_right h)))
  | .index _ object key, h =>
    (bind_run (expr_fixed hctx object (bare_left h))).trans (bind_run (expr_fixed hctx key (bare_right h)))
  | .paren _ inner, h => bind_run (expr_fixed hctx inner h)
  | .block _ ss value, h =>
    have ⟨_, hss, hinside⟩ := stmts_fixed hctx.unscoped ss (bare_left h) st
    (bind_run hss).trans (bind_run (expr_fixed hinside value (bare_right h)))

theorem exprs_fixed {ctx : Context} {st : State} (hctx : ctx.Unknowing) :
    ∀ es, exprsBare false es = true → exprs ctx es st = .ok (es, st)
  | [], _ => rfl
  | e :: es, h => (bind_run (expr_fixed hctx e (bare_left h))).trans (bind_run (exprs_fixed hctx es (bare_right h)))

theorem option_fixed {ctx : Context} {st : State} (hctx : ctx.Unknowing) :
    ∀ e?, optionBare false e? = true → exprOption ctx e? st = .ok (e?, st)
  | none, _ => rfl
  | some e, h => bind_run (expr_fixed hctx e h)

theorem fields_fixed {ctx : Context} {st : State} (hctx : ctx.Unknowing) :
    ∀ fs, fieldsBare false fs = true → tableFields ctx fs st = .ok (fs, st)
  | [], _ => rfl
  | .mk _ key value :: fs, h => (bind_run (expr_fixed hctx value (bare_right (bare_left h)))).trans
    ((bind_run (option_fixed hctx key (bare_left (bare_left h)))).trans
      (bind_run (fields_fixed hctx fs (bare_right h))))

theorem function_fixed {ctx : Context} {st : State} (hctx : ctx.Unknowing) :
    ∀ f, Function.bare false f = true → function ctx f st = .ok (f, st)
  | .mk loc params isVararg (.mk bodyLoc ss) types returnType label, h => by
    simp only [Function.bare, Bool.and_eq_true, Bool.false_or, List.isEmpty_iff, Option.isNone_iff_eq_none] at h
    obtain ⟨⟨⟨hss, rfl, rfl⟩, -⟩, -⟩ := h
    have hnone : ∀ p ∈ (none : Option Expr), False := by simp
    have hinside := (hctx.nested (allBindings_unannotated params)).returning hnone
    obtain ⟨ctx', hstmts, -⟩ := stmts_fixed hinside ss hss st
    have hps : predicates ctx [] st = .ok ([], st) := rfl
    have hres : predicate? ctx none st = .ok (none, st) := rfl
    rw [function, bind_run hps, bind_run hres]
    exact bind_run hstmts

theorem block_fixed {ctx : Context} {st : State} (hctx : ctx.Unknowing) :
    ∀ b, Block.bare false b = true → block ctx b st = .ok (b, st)
  | .mk _ ss, h =>
    have ⟨_, hss, _⟩ := stmts_fixed hctx.unscoped ss h st
    bind_run hss

theorem otherwise_fixed {ctx : Context} {st : State} (hctx : ctx.Unknowing) :
    ∀ b?, otherwiseBare false b? = true → blockOption ctx b? st = .ok (b?, st)
  | none, _ => rfl
  | some b, h => bind_run (block_fixed hctx b h)

theorem clauses_fixed {ctx : Context} {st : State} (hctx : ctx.Unknowing) :
    ∀ cs, clausesBare false cs = true → clauses ctx cs st = .ok (cs, st)
  | [], _ => rfl
  | .mk condition body :: cs, h => (bind_run (expr_fixed hctx condition (bare_left (bare_left h)))).trans
    ((bind_run (block_fixed hctx body (bare_right (bare_left h)))).trans
      (bind_run (clauses_fixed hctx cs (bare_right h))))

theorem stmts_fixed {ctx : Context} (hctx : ctx.Unknowing) : ∀ ss, stmtsBare false ss = true → ∀ st : State,
    ∃ ctx', stmts ctx ss st = .ok ((ss, ctx'), st) ∧ ctx'.Unknowing
  | [], _, _ => ⟨ctx, rfl, hctx⟩
  | s :: ss, h, st =>
    have ⟨_, hhead, hctx1⟩ := stmt_fixed hctx s (bare_left h) st
    have ⟨ctx2, htail, hctx2⟩ := stmts_fixed hctx1 ss (bare_right h) st
    ⟨ctx2, (bind_run hhead).trans (bind_run htail), hctx2⟩

theorem stmt_fixed {ctx : Context} (hctx : ctx.Unknowing) : ∀ s, Stmt.bare false s = true → ∀ st : State,
    ∃ ctx', stmt ctx s st = .ok ((s, ctx'), st) ∧ ctx'.Unknowing
  | .localVars loc names values types, h, st => by
    simp only [Stmt.bare, Bool.and_eq_true, Bool.false_or, List.isEmpty_iff] at h
    obtain ⟨⟨hplain, rfl⟩, -⟩ := h
    have hps : predicates ctx [] st = .ok ([], st) := rfl
    refine ⟨_, ?_, hctx.declaring_ofBindings (allBindings_unannotated names)⟩
    rw [stmt, bind_run (exprs_fixed hctx values hplain), bind_run hps]
    exact bind_run (guardLocals_unknown (fun x => lookup_unannotated names x) 0 names values)
  | .localFunction _ x f, h, _ =>
    have hdeclared := hctx.declaring (allBindings_unknown [x])
    ⟨_, bind_run (function_fixed hdeclared f h), hdeclared⟩
  | .assign _ targets values, h, _ => ⟨ctx, (bind_run (exprs_fixed hctx targets (bare_left h))).trans
    ((bind_run (exprs_fixed hctx values (bare_right h))).trans
      (bind_run (guardTargets_unknown hctx 0 targets values))), hctx⟩
  | .expr _ e, h, _ => ⟨ctx, bind_run (expr_fixed hctx e h), hctx⟩
  | .scope _ body, h, _ => ⟨ctx, bind_run (block_fixed hctx body h), hctx⟩
  | .whileLoop _ condition body, h, _ => ⟨ctx, (bind_run (expr_fixed hctx condition (bare_left h))).trans
    (bind_run (block_fixed hctx body (bare_right h))), hctx⟩
  | .repeatLoop _ (.mk _ ss) condition, h, st =>
    have ⟨_, hss, hinside⟩ := stmts_fixed hctx.unscoped ss (bare_left h) st
    ⟨ctx, (bind_run hss).trans (bind_run (expr_fixed hinside condition (bare_right h))), hctx⟩
  | .ifElse loc condition body rest otherwise, h, st => by
    simp only [Stmt.bare, Bool.and_eq_true] at h
    refine ⟨ctx, ?_, hctx⟩
    rw [stmt, bind_run (expr_fixed hctx condition h.1.1.1), bind_run (block_fixed hctx body h.1.1.2),
      bind_run (clauses_fixed hctx rest h.1.2), bind_run (otherwise_fixed hctx otherwise h.2)]
    rfl
  | .numericFor loc counter start stop step body, h, st => by
    simp only [Stmt.bare, Bool.and_eq_true] at h
    refine ⟨ctx, ?_, hctx⟩
    rw [stmt, bind_run (expr_fixed hctx start h.1.1.1), bind_run (expr_fixed hctx stop h.1.1.2),
      bind_run (option_fixed hctx step h.1.2)]
    exact bind_run (block_fixed (hctx.nested (allBindings_unknown [counter])) body h.2)
  | .genericFor _ names iterators body, h, _ => ⟨ctx, (bind_run (exprs_fixed hctx iterators (bare_left h))).trans
    (bind_run (block_fixed (hctx.nested (allBindings_unknown names)) body (bare_right h))), hctx⟩
  | .returnValues loc values, h, st => by
    refine ⟨ctx, ?_, hctx⟩
    rw [stmt, bind_run (exprs_fixed hctx values h), unknown_result hctx]
    rfl
  | .breakLoop _, _, _ => ⟨ctx, rfl, hctx⟩

end

theorem unknowing_start (registry : String) : Context.Unknowing ⟨registry, none, []⟩ := ⟨nofun, nofun⟩

theorem chunk_of_bare {registry stem : String} {c : Chunk} (h : c.bare false = true) :
    Instrument.chunk registry stem c = .ok (c, 0) := by
  have hblock : block ⟨registry, none, []⟩ c.body ⟨.new stem c.names, 0⟩ = .ok (c.body, ⟨.new stem c.names, 0⟩) :=
    block_fixed (unknowing_start registry) c.body h
  rw [Instrument.chunk, hblock]

theorem prepare_bare {c c' : Chunk} (hbare : c.bare true = true)
    (h : c.prepare typecheck registry stem = .ok (c', checks)) : c'.bare false = true := by
  rw [Chunk.prepare] at h
  split at h
  · obtain ⟨body', rfl, hedit⟩ := chunk_edit h
    refine hedit.bare ?_ (Chunk.erase_bare hbare)
    rintro p ⟨type, htype, hp⟩
    exact Annotation.compileType_bare (c.body.types_bare hbare type htype) hp
  · cases h
    exact Chunk.erase_bare hbare

/-- A chunk whose types hold no annotations has none left once it is prepared, with checks or without; to
insert checks into the result changes nothing and counts none, whatever the registry and the names for
temporaries. -/
theorem prepare_consumes {typecheck : Bool} {registry stem : String} {c c' : Chunk} {checks : Nat}
    (hbare : c.bare true = true) (h : c.prepare typecheck registry stem = .ok (c', checks)) : c'.bare false = true ∧
      ∀ registry' stem', c'.prepare true registry' stem' = .ok (c', 0) := by
  have hbare' := prepare_bare hbare h
  exact ⟨hbare', fun registry' stem' => chunk_of_bare hbare'⟩

/-- A local with a function type, which is checked where it is declared and where it is assigned:

```
local f :: function(number) return string end, g = h()
f = g
```
-/
def functionTypeChunk : Chunk :=
  let type : Expr := .signature none [.name none "number"]
    (.mk none [.returnValues none [.name none "string"]])
  ⟨none, .mk none [ .localVars none ["f", "g"] [.call none (.name none "h") []] [.mk "f" type],
    .assign none [.name none "f"] [.name none "g"]], none⟩

theorem prepare_consumes_functionType : functionTypeChunk.bare true = true ∧
    ∃ c', functionTypeChunk.prepare true "types" "_v" = .ok (c', 2) ∧ c'.bare false = true ∧
      c'.prepare true "types" "_v" = .ok (c', 0) := by
  have hbare : functionTypeChunk.bare true = true := rfl
  have hrun : ∃ c', functionTypeChunk.prepare true "types" "_v" = .ok (c', 2) := ⟨_, rfl⟩
  obtain ⟨c', hc'⟩ := hrun
  obtain ⟨hbare', hagain⟩ := prepare_consumes hbare hc'
  exact ⟨hbare, c', hc', hbare', hagain "types" "_v"⟩

end TypedLua.Instrument
