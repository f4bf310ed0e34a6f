import TypedLua.Proofs.Syntax.AnnotatedTypes
import TypedLua.Syntax.Names
import Mathlib.Logic.Relation
import Mathlib.Tactic.Common

/-!
# Where names occur

A tree is made of expressions, functions and statements, one below the other.
-/

namespace TypedLua

inductive Node where
  | expr (e : Expr)
  | function (f : Function)
  | stmt (s : Stmt)

namespace Node

def ofField : Field → List Node
  | .mk _ key value => (key.toList ++ [value]).map expr

def ofClause : Clause → List Node
  | .mk condition body => expr condition :: body.stmts.map stmt

def children : Node → List Node
  | expr (.function f) | stmt (.localFunction _ _ f) => [function f]
  | expr (.signature _ params body) => params.map expr ++ body.stmts.map stmt
  | expr (.table _ fields) => fields.flatMap ofField
  | expr (.binary _ e _ e') | expr (.index _ e e') => [expr e, expr e']
  | expr (.unary _ _ e) | expr (.paren _ e) | stmt (.expr _ e) => [expr e]
  | expr (.call _ e es) | expr (.method _ e _ es) => (e :: es).map expr
  | expr (.block _ ss value) => ss.map stmt ++ [expr value]
  | function (.mk _ _ _ body types result _) => (types.map (·.type) ++ result.toList).map expr ++ body.stmts.map stmt
  | stmt (.localVars _ _ values types) => (types.map (·.type) ++ values).map expr
  | stmt (.assign _ targets values) => (targets ++ values).map expr
  | stmt (.scope _ body) => body.stmts.map stmt
  | stmt (.whileLoop _ e body) => expr e :: body.stmts.map stmt
  | stmt (.repeatLoop _ body e) => body.stmts.map stmt ++ [expr e]
  | stmt (.ifElse _ e body clauses otherwise) =>
    expr e :: body.stmts.map stmt ++ clauses.flatMap ofClause ++ (otherwise.toList.flatMap (·.stmts)).map stmt
  | stmt (.numericFor _ _ start stop step body) => (start :: stop :: step.toList).map expr ++ body.stmts.map stmt
  | stmt (.genericFor _ _ iterators body) => iterators.map expr ++ body.stmts.map stmt
  | stmt (.returnValues _ values) => values.map expr
  | _ => []

/-- The names that a node is or binds by itself: names that are read or assigned, parameters, declared locals,
local functions and loop variables. -/
def own : Node → List String
  | expr (.name _ x) | stmt (.localFunction _ x _) | stmt (.numericFor _ x ..) => [x]
  | function (.mk _ xs ..) | stmt (.localVars _ xs ..) | stmt (.genericFor _ xs ..) => xs
  | _ => []

def Occurs (n : Node) (x : String) : Prop := ∃ m, Relation.ReflTransGen (fun n m => m ∈ n.children) n m ∧ x ∈ m.own

def names : Node → List String
  | expr e => e.names
  | function f => f.names
  | stmt s => s.names

end Node

section Lists

variable {x : String}

theorem mem_exprNames : x ∈ exprNames es ↔ ∃ e ∈ es, x ∈ e.names := by
  induction es with
  | nil => simp [exprNames]
  | cons e es ih => simp [exprNames, ih]

theorem mem_optionNames : x ∈ optionNames e? ↔ ∃ e ∈ e?, x ∈ e.names := by
  cases e? <;> simp [optionNames]

theorem mem_stmtNames : x ∈ stmtNames ss ↔ ∃ s ∈ ss, x ∈ s.names := by
  induction ss with
  | nil => simp [stmtNames]
  | cons s ss ih => simp [stmtNames, ih]

theorem Block.mem_names {b : Block} : x ∈ b.names ↔ ∃ s ∈ b.stmts, x ∈ s.names := by
  obtain ⟨loc, ss⟩ := b
  exact mem_stmtNames

theorem mem_optionBlockNames : x ∈ optionBlockNames b? ↔ ∃ s ∈ b?.toList.flatMap (·.stmts), x ∈ s.names := by
  cases b? <;> simp [optionBlockNames, Block.mem_names]

theorem mem_annotationNames : x ∈ annotationNames types ↔ ∃ a ∈ types, x ∈ a.type.names := by
  induction types with
  | nil => simp [annotationNames]
  | cons a types ih =>
    obtain ⟨y, type⟩ := a
    simp [annotationNames, ih, Annotation.type]

end Lists

namespace Node

variable {x : String}

@[simp]
theorem names_expr (e : Expr) : (expr e).names = e.names := rfl

@[simp]
theorem names_function (f : Function) : (function f).names = f.names := rfl

@[simp]
theorem names_stmt (s : Stmt) : (stmt s).names = s.names := rfl

theorem mem_fieldNames : x ∈ fieldNames fields ↔ ∃ n ∈ fields.flatMap ofField, x ∈ n.names := by
  induction fields with
  | nil => simp [fieldNames]
  | cons field fields ih =>
    obtain ⟨loc, key, value⟩ := field
    rw [fieldNames, List.mem_append, ih]
    simp [ofField, mem_optionNames, or_and_right, exists_or, or_assoc]

theorem mem_clauseNames : x ∈ clauseNames clauses ↔ ∃ n ∈ clauses.flatMap ofClause, x ∈ n.names := by
  induction clauses with
  | nil => simp [clauseNames]
  | cons c clauses ih =>
    obtain ⟨condition, body⟩ := c
    rw [clauseNames, List.mem_append, ih]
    simp [ofClause, Block.mem_names, or_and_right, exists_or, or_assoc]

theorem mem_names {n : Node} : x ∈ n.names ↔ x ∈ n.own ∨ ∃ m ∈ n.children, x ∈ m.names := by
  -- One case for each form of node; the lists below it are handled by the lemmas above.
  rcases n with e | f | s
  · cases e <;> simp [Expr.names, own, children, mem_exprNames, mem_fieldNames, Block.mem_names,
      mem_stmtNames, or_and_right, exists_or]
  · obtain ⟨loc, params, isVararg, body, types, result, label⟩ := f
    simp [Function.names, own, children, mem_annotationNames, mem_optionNames, Block.mem_names,
      or_and_right, exists_or]
  · cases s <;> simp [Stmt.names, own, children, mem_exprNames, mem_optionNames, mem_annotationNames,
      mem_clauseNames, mem_optionBlockNames, Block.mem_names, or_and_right, exists_or]

def Complete (n : Node) : Prop := ∀ x ∈ n.names, n.Occurs x

theorem Complete.of_children {n : Node} (h : ∀ m ∈ n.children, m.Complete) : n.Complete := by
  intro x hx
  rcases mem_names.1 hx with hown | ⟨m, hm, hx⟩
  · exact ⟨n, .refl, hown⟩
  · obtain ⟨k, hk, hown⟩ := h m hm x hx
    exact ⟨k, .head hm hk, hown⟩

theorem all_ofField {f : Field} : f.All (fun e => (expr e).Complete) ↔ ∀ n ∈ ofField f, n.Complete := by
  obtain ⟨loc, key, value⟩ := f
  simp [Field.All, ofField, or_imp, forall_and]

theorem all_ofClause {c : Clause} :
    c.All (fun e => (expr e).Complete) (fun s => (stmt s).Complete) ↔ ∀ n ∈ ofClause c, n.Complete := by
  obtain ⟨condition, body⟩ := c
  simp [Clause.All, ofClause]

theorem all_type {a : Annotation} : a.All (fun e => (expr e).Complete) ↔ (expr a.type).Complete := by
  obtain ⟨x, type⟩ := a
  rfl

theorem treeClosed_complete : TreeClosed (fun e => (expr e).Complete) (fun f => (function f).Complete)
    fun s => (stmt s).Complete := by
  constructor <;> intros <;> apply Complete.of_children <;>
    simp only [children, all_ofField, all_ofClause, all_type] at * <;> grind

theorem occurs_iff {n : Node} : n.Occurs x ↔ x ∈ n.names := by
  constructor
  · rintro ⟨m, hbelow, hown⟩
    induction hbelow using Relation.ReflTransGen.head_induction_on with
    | refl => exact mem_names.2 (.inl hown)
    | head hchild _ ih => exact mem_names.2 (.inr ⟨_, hchild, ih⟩)
  · intro hx
    cases n with
    | expr e => exact treeClosed_complete.ofExpr e x hx
    | function f => exact treeClosed_complete.ofFunction f x hx
    | stmt s => exact treeClosed_complete.ofStmt s x hx

end Node

def Chunk.Mentions (c : Chunk) (x : String) : Prop := ∃ s ∈ c.body.stmts, (Node.stmt s).Occurs x

theorem Chunk.mentions_iff {c : Chunk} : c.Mentions x ↔ x ∈ c.names := by
  rw [Chunk.names, Block.mem_names]
  exact exists_congr fun s => and_congr_right fun _ => Node.occurs_iff

end TypedLua
