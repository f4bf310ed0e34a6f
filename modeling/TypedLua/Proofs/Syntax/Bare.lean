import TypedLua.Annotation.Erase

/-!
# Trees without annotations

A tree is bare if it carries no annotations.
-/

namespace TypedLua

mutual

def Expr.bare (allowed : Bool) : Expr → Bool
  | .nil _ | .bool .. | .number .. | .string .. | .vararg _ | .name .. => true
  | .function f => f.bare allowed
  | .signature _ params body => exprsBare false params && body.bare false
  | .table _ fields => fieldsBare allowed fields
  | .binary _ left _ right => left.bare allowed && right.bare allowed
  | .unary _ _ operand => operand.bare allowed
  | .call _ callee args => callee.bare allowed && exprsBare allowed args
  | .method _ object _ args => object.bare allowed && exprsBare allowed args
  | .index _ object key => object.bare allowed && key.bare allowed
  | .paren _ inner => inner.bare allowed
  | .block _ ss value => stmtsBare allowed ss && value.bare allowed

def exprsBare (allowed : Bool) : List Expr → Bool
  | [] => true
  | e :: es => e.bare allowed && exprsBare allowed es

def optionBare (allowed : Bool) : Option Expr → Bool
  | none => true
  | some e => e.bare allowed

def fieldsBare (allowed : Bool) : List Field → Bool
  | [] => true
  | .mk _ key value :: fields => optionBare allowed key && value.bare allowed && fieldsBare allowed fields

def annotationsBare : List Annotation → Bool
  | [] => true
  | .mk _ type :: types => type.bare false && annotationsBare types

def Function.bare (allowed : Bool) : Function → Bool
  | .mk _ _ _ body paramTypes returnType _ =>
    body.bare allowed && (allowed || paramTypes.isEmpty && returnType.isNone) &&
      annotationsBare paramTypes && optionBare false returnType

def Block.bare (allowed : Bool) : Block → Bool
  | .mk _ ss => stmtsBare allowed ss

def otherwiseBare (allowed : Bool) : Option Block → Bool
  | none => true
  | some b => b.bare allowed

def clausesBare (allowed : Bool) : List Clause → Bool
  | [] => true
  | .mk condition body :: clauses => condition.bare allowed && body.bare allowed && clausesBare allowed clauses

def stmtsBare (allowed : Bool) : List Stmt → Bool
  | [] => true
  | s :: ss => s.bare allowed && stmtsBare allowed ss

def Stmt.bare (allowed : Bool) : Stmt → Bool
  | .localVars _ _ values types => exprsBare allowed values && (allowed || types.isEmpty) && annotationsBare types
  | .localFunction _ _ f => f.bare allowed
  | .assign _ targets values => exprsBare allowed targets && exprsBare allowed values
  | .expr _ e => e.bare allowed
  | .scope _ body => body.bare allowed
  | .whileLoop _ condition body => condition.bare allowed && body.bare allowed
  | .repeatLoop _ body condition => body.bare allowed && condition.bare allowed
  | .ifElse _ condition body clauses otherwise =>
    condition.bare allowed && body.bare allowed && clausesBare allowed clauses && otherwiseBare allowed otherwise
  | .numericFor _ _ start stop step body =>
    start.bare allowed && stop.bare allowed && optionBare allowed step && body.bare allowed
  | .genericFor _ _ iterators body => exprsBare allowed iterators && body.bare allowed
  | .returnValues _ values => exprsBare allowed values
  | .breakLoop _ => true

end

def Chunk.bare (allowed : Bool) (c : Chunk) : Bool := c.body.bare allowed

theorem exprsBare_iff : exprsBare allowed es = true ↔ ∀ e ∈ es, e.bare allowed = true := by
  induction es with
  | nil => simp [exprsBare]
  | cons e es ih => rw [exprsBare, Bool.and_eq_true, ih, List.forall_mem_cons]

theorem stmtsBare_iff : stmtsBare allowed ss = true ↔ ∀ s ∈ ss, s.bare allowed = true := by
  induction ss with
  | nil => simp [stmtsBare]
  | cons s ss ih => rw [stmtsBare, Bool.and_eq_true, ih, List.forall_mem_cons]

theorem Function.bare_of_body {loc bodyLoc : Loc} {params : List String} {isVararg : Bool}
    {ss : List Stmt} {label : Option String} (h : stmtsBare false ss = true) :
    (Function.mk loc params isVararg (.mk bodyLoc ss) [] none label).bare false = true := by
  rw [Function.bare, Block.bare, h]
  rfl

/-! ## Erasing -/

theorem and_imp_and (hl : a = true → c = true) (hr : b = true → d = true)
    (h : (a && b) = true) : (c && d) = true := by
  rw [Bool.and_eq_true] at h ⊢
  exact ⟨hl h.1, hr h.2⟩

mutual

theorem Expr.erase_bare : ∀ e : Expr, e.bare true = true → e.erase.bare false = true
  | .nil _, h | .bool .., h | .number .., h | .string .., h | .vararg _, h | .name .., h => h
  | .function f, h => f.erase_bare h
  | .signature .., h => h
  | .table _ fields, h => eraseFields_bare fields h
  | .binary _ e _ e', h | .index _ e e', h => and_imp_and e.erase_bare e'.erase_bare h
  | .unary _ _ e, h | .paren _ e, h => e.erase_bare h
  | .call _ e es, h | .method _ e _ es, h => and_imp_and e.erase_bare (eraseExprs_bare es) h
  | .block _ ss e, h => and_imp_and (eraseStmts_bare ss) e.erase_bare h

theorem eraseExprs_bare : ∀ es, exprsBare true es = true → exprsBare false (eraseExprs es) = true
  | [], h => h
  | e :: es, h => and_imp_and e.erase_bare (eraseExprs_bare es) h

theorem eraseOption_bare : ∀ e?, optionBare true e? = true → optionBare false (eraseOption e?) = true
  | none, h => h
  | some e, h => e.erase_bare h

theorem eraseFields_bare : ∀ fields, fieldsBare true fields = true → fieldsBare false (eraseFields fields) = true
  | [], h => h
  | .mk _ key value :: fields, h =>
    and_imp_and (and_imp_and (eraseOption_bare key) value.erase_bare) (eraseFields_bare fields) h

theorem Function.erase_bare : ∀ f : Function, f.bare true = true → f.erase.bare false = true
  | .mk _ _ _ body _ _ _, h => by
    simp only [Function.bare, Bool.and_eq_true] at h
    rw [Function.erase, Function.bare, body.erase_bare h.1.1.1]
    rfl

theorem Block.erase_bare : ∀ b : Block, b.bare true = true → b.erase.bare false = true
  | .mk _ ss, h => eraseStmts_bare ss h

theorem eraseOtherwise_bare : ∀ b?, otherwiseBare true b? = true → otherwiseBare false (eraseOptionBlock b?) = true
  | none, h => h
  | some b, h => b.erase_bare h

theorem eraseClauses_bare : ∀ clauses, clausesBare true clauses = true →
    clausesBare false (eraseClauses clauses) = true
  | [], h => h
  | .mk condition body :: clauses, h =>
    and_imp_and (and_imp_and condition.erase_bare body.erase_bare) (eraseClauses_bare clauses) h

theorem eraseStmts_bare : ∀ ss, stmtsBare true ss = true → stmtsBare false (eraseStmts ss) = true
  | [], h => h
  | s :: ss, h => and_imp_and s.erase_bare (eraseStmts_bare ss) h

theorem Stmt.erase_bare : ∀ s : Stmt, s.bare true = true → s.erase.bare false = true
  | .localVars _ _ values _, h => by
    simp only [Stmt.bare, Bool.and_eq_true] at h
    rw [Stmt.erase, Stmt.bare, eraseExprs_bare values h.1.1]
    rfl
  | .localFunction _ _ f, h => f.erase_bare h
  | .assign _ targets values, h => and_imp_and (eraseExprs_bare targets) (eraseExprs_bare values) h
  | .expr _ e, h => e.erase_bare h
  | .scope _ body, h => body.erase_bare h
  | .whileLoop _ condition body, h => and_imp_and condition.erase_bare body.erase_bare h
  | .repeatLoop _ body condition, h => and_imp_and body.erase_bare condition.erase_bare h
  | .ifElse _ condition body clauses otherwise, h =>
    and_imp_and (and_imp_and (and_imp_and condition.erase_bare body.erase_bare) (eraseClauses_bare clauses))
      (eraseOtherwise_bare otherwise) h
  | .numericFor _ _ start stop step body, h =>
    and_imp_and (and_imp_and (and_imp_and start.erase_bare stop.erase_bare) (eraseOption_bare step)) body.erase_bare h
  | .genericFor _ _ iterators body, h => and_imp_and (eraseExprs_bare iterators) body.erase_bare h
  | .returnValues _ values, h => eraseExprs_bare values h
  | .breakLoop _, h => h

end

theorem Chunk.erase_bare {c : Chunk} (h : c.bare true = true) : c.erase.bare false = true := c.body.erase_bare h

end TypedLua
