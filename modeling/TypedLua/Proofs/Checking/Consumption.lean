import TypedLua.Proofs.Checking.Edits
import TypedLua.Proofs.Syntax.Bare

/-!
# Annotations are consumed

A chunk that has passed through the insertion of checks, or through erasure, has no annotations left, also
not inside the checks: types are bare, so the predicates made of them are, and edits with bare predicates leave
the tree without annotations bare.
-/

namespace TypedLua

namespace Annotation

theorem fieldsBare_iff : fieldsBare false fields = true ↔ ∀ f ∈ fields, f.All (·.bare false = true) := by
  induction fields with
  | nil => simp [fieldsBare]
  | cons field fields ih =>
    obtain ⟨loc, key, value⟩ := field
    rw [List.forall_mem_cons, ← ih]
    cases key <;> simp [fieldsBare, optionBare, Field.All]

theorem builds_bare : Builds (·.bare false = true) where
  entry _ _ _ := rfl
  call _ _ _ hcallee hargs := by rw [Expr.bare, hcallee, exprsBare_iff.2 hargs]; rfl
  table _ _ hfields := fieldsBare_iff.2 hfields

theorem subtypes_bare {type d : Expr} (h : type.bare false = true) (hd : d ∈ subtypes type) :
    d.bare false = true := by
  cases type with
  | table loc fields =>
    obtain ⟨⟨floc, key, value⟩, hf, rfl⟩ := List.mem_map.1 hd
    exact (fieldsBare_iff.1 h _ hf).2
  | binary loc left op right =>
    rw [Expr.bare, Bool.and_eq_true] at h
    simp only [subtypes, List.mem_cons, List.not_mem_nil, or_false] at hd
    rcases hd with rfl | rfl
    · exact h.1
    · exact h.2
  | unary loc op operand => exact List.mem_singleton.1 hd ▸ h
  | signature loc params body =>
    rw [Expr.bare, Bool.and_eq_true, exprsBare_iff] at h
    rcases List.mem_append.1 hd with hd | hd
    · exact h.1 d hd
    · rw [Option.mem_toList] at hd
      unfold signatureResult? at hd
      split at hd
      · cases hd
        simpa [Block.bare, stmtsBare, Stmt.bare, exprsBare] using h.2
      · cases hd
  | call loc callee args =>
    rw [Expr.bare, Bool.and_eq_true, exprsBare_iff] at h
    rcases List.mem_cons.1 hd with rfl | hd
    · exact h.1
    · exact h.2 d hd
  | _ => cases hd

theorem compileType_bare {type p : Expr}
    (hbare : type.bare false = true) (h : compileType registry bound type = .ok p) : p.bare false = true := by
  refine builds_bare.compileType h hbare (fun k hk => ?_) fun d hd q hq => ?_
  · cases type with
    | table loc fields =>
      obtain ⟨⟨floc, key, value⟩, hf, hk⟩ := List.mem_flatMap.1 hk
      exact (fieldsBare_iff.1 hbare _ hf).1 k (Option.mem_toList.1 hk)
    | _ => cases hk
  · have := sizeOf_subtypes hd
    exact compileType_bare (subtypes_bare hbare hd) hq
termination_by sizeOf type

end Annotation

attribute [local grind =] Expr.bare exprsBare optionBare fieldsBare Function.bare Block.bare otherwiseBare
  clausesBare stmtsBare Stmt.bare annotationsBare Expr.types exprsTypes optionTypes fieldsTypes Function.types
  Block.types otherwiseTypes clausesTypes stmtsTypes Stmt.types

/-! ## Types -/

theorem annotationsBare_types {types : List Annotation} (h : annotationsBare types = true) :
    ∀ t ∈ types.map (·.type), t.bare false = true := by
  induction types with
  | nil => simp
  | cons a types ih =>
    obtain ⟨x, type⟩ := a
    rw [annotationsBare, Bool.and_eq_true] at h
    exact List.forall_mem_cons.2 ⟨h.1, ih h.2⟩

mutual

theorem Expr.types_bare : (e : Expr) → e.bare true = true → ∀ t ∈ e.types, t.bare false = true
  | .nil _ | .bool .. | .number .. | .string .. | .vararg _ | .name .. | .signature .. => by simp [Expr.types]
  | .function f => f.types_bare
  | .table _ fields => fieldsTypes_bare fields
  | .binary _ left _ right => by have := left.types_bare; have := right.types_bare; grind
  | .unary _ _ operand => operand.types_bare
  | .call _ callee args => by have := callee.types_bare; have := exprsTypes_bare args; grind
  | .method _ object _ args => by have := object.types_bare; have := exprsTypes_bare args; grind
  | .index _ object key => by have := object.types_bare; have := key.types_bare; grind
  | .paren _ inner => inner.types_bare
  | .block _ ss value => by have := stmtsTypes_bare ss; have := value.types_bare; grind

theorem exprsTypes_bare : (es : List Expr) → exprsBare true es = true → ∀ t ∈ exprsTypes es, t.bare false = true
  | [] => by simp [exprsTypes]
  | e :: es => by have := e.types_bare; have := exprsTypes_bare es; grind

theorem optionTypes_bare : (e? : Option Expr) → optionBare true e? = true → ∀ t ∈ optionTypes e?, t.bare false = true
  | none => by simp [optionTypes]
  | some e => e.types_bare

theorem fieldsTypes_bare : (fields : List Field) → fieldsBare true fields = true →
    ∀ t ∈ fieldsTypes fields, t.bare false = true
  | [] => by simp [fieldsTypes]
  | .mk _ key value :: fields => by
    have := optionTypes_bare key; have := value.types_bare; have := fieldsTypes_bare fields; grind

theorem Function.types_bare : (f : Function) → f.bare true = true → ∀ t ∈ f.types, t.bare false = true
  | .mk _ _ _ body types result _ => by
    have := body.types_bare; have := @annotationsBare_types types; cases result <;> grind

theorem Block.types_bare : (b : Block) → b.bare true = true → ∀ t ∈ b.types, t.bare false = true
  | .mk _ ss => stmtsTypes_bare ss

theorem otherwiseTypes_bare : (b? : Option Block) → otherwiseBare true b? = true →
    ∀ t ∈ otherwiseTypes b?, t.bare false = true
  | none => by simp [otherwiseTypes]
  | some b => b.types_bare

theorem clausesTypes_bare : (cs : List Clause) → clausesBare true cs = true →
    ∀ t ∈ clausesTypes cs, t.bare false = true
  | [] => by simp [clausesTypes]
  | .mk condition body :: cs => by
    have := condition.types_bare; have := body.types_bare; have := clausesTypes_bare cs; grind

theorem stmtsTypes_bare : (ss : List Stmt) → stmtsBare true ss = true → ∀ t ∈ stmtsTypes ss, t.bare false = true
  | [] => by simp [stmtsTypes]
  | s :: ss => by have := s.types_bare; have := stmtsTypes_bare ss; grind

theorem Stmt.types_bare : (s : Stmt) → s.bare true = true → ∀ t ∈ s.types, t.bare false = true
  | .localVars _ _ values types => by have := exprsTypes_bare values; have := @annotationsBare_types types; grind
  | .localFunction _ _ f => f.types_bare
  | .assign _ targets values => by have := exprsTypes_bare targets; have := exprsTypes_bare values; grind
  | .expr _ e => e.types_bare
  | .scope _ body => body.types_bare
  | .whileLoop _ condition body => by have := condition.types_bare; have := body.types_bare; grind
  | .repeatLoop _ body condition => by have := condition.types_bare; have := body.types_bare; grind
  | .ifElse _ condition body clauses otherwise => by
    have := condition.types_bare; have := body.types_bare; have := clausesTypes_bare clauses
    have := otherwiseTypes_bare otherwise; grind
  | .numericFor _ _ start stop step body => by
    have := start.types_bare; have := stop.types_bare; have := optionTypes_bare step; have := body.types_bare; grind
  | .genericFor _ _ iterators body => by have := exprsTypes_bare iterators; have := body.types_bare; grind
  | .returnValues _ values => exprsTypes_bare values
  | .breakLoop _ => by simp [Stmt.types]

end

namespace Instrument

/-! ## Edits -/

/-- A predicate without annotations. -/
abbrev IsBare (p : Expr) : Prop := p.bare false = true

variable {registry : String} {P : Expr → Prop} (hP : ∀ p, P p → IsBare p)
include hP

theorem Wraps.bare (h : Wraps P v w) (hv : IsBare v) : IsBare w := by
  cases h with
  | yielded hp _ =>
    simp_all [IsBare, Check.yieldTrivial, Check.callStatement, Expr.bare, stmtsBare, Stmt.bare, exprsBare]
  | bound hp _ =>
    simp_all [IsBare, Check.yieldBound, Check.callStatement, Expr.bare, stmtsBare, Stmt.bare, exprsBare,
      annotationsBare]

theorem Wrapped.bare (h : Wrapped P vs ws n) (hvs : exprsBare false vs = true) : exprsBare false ws = true := by
  induction h with
  | nil => rfl
  | keep _ ih => grind
  | check hw _ ih =>
    have := hw.bare hP
    grind

omit hP in
theorem Nils.bare (h : Nils es) : ∀ e ∈ es, IsBare e := by
  intro e he
  obtain ⟨loc, rfl⟩ := h e he
  rfl

theorem entryChecks_bare (loc : Loc) (hps : ∀ q ∈ ps, P q.2) :
    ∀ s ∈ Target.Scoping.entryChecks loc ps, s.bare false = true := by
  intro s hs
  obtain ⟨q, hq, rfl⟩ := List.mem_map.1 hs
  simp [Check.asStatement, Check.callStatement, Stmt.bare, Expr.bare, exprsBare, hP _ (hps q hq)]

-- Only some members of the block use what is included.
set_option linter.unusedSectionVars false

mutual

theorem ExprEdit.bare {e e0 e' n} : ExprEdit registry P e e0 e' n → e0.bare false = true → e'.bare false = true
  | .nil | .bool | .number | .string | .vararg | .name | .signature => id
  | .function h => h.bare
  | .table h => h.bare
  | .binary hl hr => by have := hl.bare; have := hr.bare; grind
  | .unary h => h.bare
  | .call he hes => by have := he.bare; have := hes.bare; grind
  | .method he hes => by have := he.bare; have := hes.bare; grind
  | .index he hkey => by have := he.bare; have := hkey.bare; grind
  | .paren h => h.bare
  | .block hss he => by have := hss.bare; have := he.bare; grind

theorem ExprsEdit.bare {es es0 es' n} : ExprsEdit registry P es es0 es' n → exprsBare false es0 = true →
    exprsBare false es' = true
  | .nil => id
  | .cons he hes => by have := he.bare; have := hes.bare; grind

theorem OptionEdit.bare {e e0 e' n} : OptionEdit registry P e e0 e' n → optionBare false e0 = true →
    optionBare false e' = true
  | .none => id
  | .some h => h.bare

theorem FieldsEdit.bare {fs gs fs' n} : FieldsEdit registry P fs gs fs' n → fieldsBare false gs = true →
    fieldsBare false fs' = true
  | .nil => id
  | .cons he hkey hfs => by have := he.bare; have := hkey.bare; have := hfs.bare; grind

theorem FunctionEdit.bare {f f0 f' n} : FunctionEdit registry P f f0 f' n → f0.bare false = true →
    f'.bare false = true
  | .mk _ hps hss => fun h => by
    have hbody := stmtsBare_iff.1 (hss.bare (by grind))
    exact Function.bare_of_body (stmtsBare_iff.2 (List.forall_mem_append.2 ⟨entryChecks_bare hP _ hps, hbody⟩))

theorem BlockEdit.bare {b b0 b' n} : BlockEdit registry P b b0 b' n → b0.bare false = true → b'.bare false = true
  | .mk h => h.bare

theorem OtherwiseEdit.bare {b b0 b' n} : OtherwiseEdit registry P b b0 b' n → otherwiseBare false b0 = true →
    otherwiseBare false b' = true
  | .none => id
  | .some h => h.bare

theorem ClausesEdit.bare {cs cs0 cs' n} : ClausesEdit registry P cs cs0 cs' n → clausesBare false cs0 = true →
    clausesBare false cs' = true
  | .nil => id
  | .cons he hb hcs => by have := he.bare; have := hb.bare; have := hcs.bare; grind

theorem StmtsEdit.bare {ss ss0 ss' n} : StmtsEdit registry P ss ss0 ss' n → stmtsBare false ss0 = true →
    stmtsBare false ss' = true
  | .nil => id
  | .cons hs hss => by have := hs.bare; have := hss.bare; grind

theorem StmtEdit.bare {s s0 s' n} : StmtEdit registry P s s0 s' n → s0.bare false = true → s'.bare false = true
  | .localVars hes hws => by have := hes.bare; have := hws.bare hP; grind
  | .localFunction h => h.bare
  | .assign hts hes hnils hws => by
    have := hts.bare; have := hes.bare; have := hws.bare hP; have := hnils.bare; grind [exprsBare_iff]
  | .expr h => h.bare
  | .scope h => h.bare
  | .whileLoop he hb => by have := he.bare; have := hb.bare; grind
  | .repeatLoop hb he => by have := he.bare; have := hb.bare; grind
  | .ifElse he hb hcs ho => by have := he.bare; have := hb.bare; have := hcs.bare; have := ho.bare; grind
  | .numericFor h1 h2 hstep hb => by have := h1.bare; have := h2.bare; have := hstep.bare; have := hb.bare; grind
  | .genericFor hes hb => by have := hes.bare; have := hb.bare; grind
  | .returnValues h => h.bare
  | .returnChecked h hw => by have := h.bare; have := hw.bare hP; grind
  | .returnNil hw => fun _ => by have := hw.bare hP rfl; grind
  | .breakLoop => id

end

end Instrument

end TypedLua
