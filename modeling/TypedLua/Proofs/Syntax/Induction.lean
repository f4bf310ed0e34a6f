import TypedLua.Syntax

/-!
# Induction on trees

Expressions, functions and statements contain each other through lists, options and blocks.
-/

namespace TypedLua

def Field.All (E : Expr → Prop) : Field → Prop
  | .mk _ key value => (∀ e ∈ key, E e) ∧ E value

def Annotation.All (E : Expr → Prop) : Annotation → Prop
  | .mk _ type => E type

def Clause.All (E : Expr → Prop) (S : Stmt → Prop) : Clause → Prop
  | .mk condition body => E condition ∧ ∀ s ∈ body.stmts, S s

def Stmt.AllValues (E : Expr → Prop) : Stmt → Prop
  | .expr _ e => E e
  | .localVars _ _ values _ => ∀ e ∈ values, E e
  | _ => True

def Expr.AllKeys (E : Expr → Prop) : Expr → Prop
  | .index _ object key => E object ∧ E key
  | _ => True

/-- Properties of expressions, functions and statements that pass from the parts of a tree to the
tree. -/
structure TreeClosed (E : Expr → Prop) (F : Function → Prop) (S : Stmt → Prop) : Prop where
  nil : ∀ loc, E (.nil loc)
  bool : ∀ loc b, E (.bool loc b)
  number : ∀ loc n, E (.number loc n)
  string : ∀ loc s, E (.string loc s)
  vararg : ∀ loc, E (.vararg loc)
  name : ∀ loc x, E (.name loc x)
  function : ∀ f, F f → E (.function f)
  signature : ∀ loc params body, (∀ e ∈ params, E e) → (∀ s ∈ body.stmts, S s) → E (.signature loc params body)
  table : ∀ loc fields, (∀ f ∈ fields, f.All E) → E (.table loc fields)
  binary : ∀ loc left op right, E left → E right → E (.binary loc left op right)
  unary : ∀ loc op operand, E operand → E (.unary loc op operand)
  call : ∀ loc callee args, E callee → (∀ e ∈ args, E e) → E (.call loc callee args)
  method : ∀ loc object member args, E object → (∀ e ∈ args, E e) → E (.method loc object member args)
  index : ∀ loc object key, E object → E key → E (.index loc object key)
  paren : ∀ loc inner, E inner → E (.paren loc inner)
  block : ∀ loc ss value, (∀ s ∈ ss, S s ∧ s.AllValues E) → E value → E (.block loc ss value)
  definition : ∀ loc params isVararg body paramTypes returnType label, (∀ s ∈ body.stmts, S s) →
    (∀ a ∈ paramTypes, a.All E) → (∀ e ∈ returnType, E e) →
    F (.mk loc params isVararg body paramTypes returnType label)
  localVars : ∀ loc names values types, (∀ e ∈ values, E e) → (∀ a ∈ types, a.All E) →
    S (.localVars loc names values types)
  localFunction : ∀ loc name f, F f → S (.localFunction loc name f)
  assign : ∀ loc targets values, (∀ e ∈ targets, E e ∧ e.AllKeys E) → (∀ e ∈ values, E e) →
    S (.assign loc targets values)
  expr : ∀ loc e, E e → S (.expr loc e)
  scope : ∀ loc body, (∀ s ∈ body.stmts, S s) → S (.scope loc body)
  whileLoop : ∀ loc condition body, E condition → (∀ s ∈ body.stmts, S s) → S (.whileLoop loc condition body)
  repeatLoop : ∀ loc body condition, (∀ s ∈ body.stmts, S s) → E condition → S (.repeatLoop loc body condition)
  ifElse : ∀ loc condition body clauses otherwise, E condition → (∀ s ∈ body.stmts, S s) →
    (∀ c ∈ clauses, c.All E S) → (∀ b ∈ otherwise, ∀ s ∈ b.stmts, S s) →
    S (.ifElse loc condition body clauses otherwise)
  numericFor : ∀ loc counter start stop step body, E start → E stop → (∀ e ∈ step, E e) →
    (∀ s ∈ body.stmts, S s) → S (.numericFor loc counter start stop step body)
  genericFor : ∀ loc names iterators body, (∀ e ∈ iterators, E e) → (∀ s ∈ body.stmts, S s) →
    S (.genericFor loc names iterators body)
  returnValues : ∀ loc values, (∀ e ∈ values, E e) → S (.returnValues loc values)
  breakLoop : ∀ loc, S (.breakLoop loc)

namespace TreeClosed

variable {E : Expr → Prop} {F : Function → Prop} {S : Stmt → Prop}

mutual

theorem ofExpr (h : TreeClosed E F S) : ∀ e, E e
  | .nil loc => h.nil loc
  | .bool loc b => h.bool loc b
  | .number loc n => h.number loc n
  | .string loc s => h.string loc s
  | .vararg loc => h.vararg loc
  | .name loc x => h.name loc x
  | .function f => h.function f (h.ofFunction f)
  | .signature loc params (.mk _ body) => h.signature loc params _ (h.ofExprs params) (h.ofStmts body)
  | .table loc fields => h.table loc fields (h.ofFields fields)
  | .binary loc left op right => h.binary loc left op right (h.ofExpr left) (h.ofExpr right)
  | .unary loc op operand => h.unary loc op operand (h.ofExpr operand)
  | .call loc callee args => h.call loc callee args (h.ofExpr callee) (h.ofExprs args)
  | .method loc object member args => h.method loc object member args (h.ofExpr object) (h.ofExprs args)
  | .index loc object key => h.index loc object key (h.ofExpr object) (h.ofExpr key)
  | .paren loc inner => h.paren loc inner (h.ofExpr inner)
  | .block loc ss value => h.block loc ss value (h.ofParts ss) (h.ofExpr value)

theorem ofExprs (h : TreeClosed E F S) : ∀ es : List Expr, ∀ e ∈ es, E e
  | [] => List.forall_mem_nil _
  | e :: es => List.forall_mem_cons.2 ⟨h.ofExpr e, h.ofExprs es⟩

theorem ofOption (h : TreeClosed E F S) : ∀ o : Option Expr, ∀ e ∈ o, E e
  | none => fun _ hmem => nomatch hmem
  | some e => fun _ hmem => Option.some.inj hmem ▸ h.ofExpr e

theorem ofFields (h : TreeClosed E F S) : ∀ fields : List Field, ∀ f ∈ fields, f.All E
  | [] => List.forall_mem_nil _
  | .mk _ key value :: fields => List.forall_mem_cons.2 ⟨⟨h.ofOption key, h.ofExpr value⟩, h.ofFields fields⟩

theorem ofAnnotations (h : TreeClosed E F S) : ∀ types : List Annotation, ∀ a ∈ types, a.All E
  | [] => List.forall_mem_nil _
  | .mk _ type :: types => List.forall_mem_cons.2 ⟨h.ofExpr type, h.ofAnnotations types⟩

theorem ofFunction (h : TreeClosed E F S) : ∀ f, F f
  | .mk loc params isVararg (.mk _ body) paramTypes returnType label =>
    h.definition loc params isVararg _ paramTypes returnType label (h.ofStmts body)
      (h.ofAnnotations paramTypes) (h.ofOption returnType)

theorem ofClauses (h : TreeClosed E F S) : ∀ clauses : List Clause, ∀ c ∈ clauses, c.All E S
  | [] => List.forall_mem_nil _
  | .mk condition (.mk _ body) :: clauses =>
    List.forall_mem_cons.2 ⟨⟨h.ofExpr condition, h.ofStmts body⟩, h.ofClauses clauses⟩

theorem ofOtherwise (h : TreeClosed E F S) : ∀ o : Option Block, ∀ b ∈ o, ∀ s ∈ b.stmts, S s
  | none => fun _ hmem => nomatch hmem
  | some (.mk _ body) => fun _ hmem => Option.some.inj hmem ▸ h.ofStmts body

theorem ofParts (h : TreeClosed E F S) : ∀ ss : List Stmt, ∀ s ∈ ss, S s ∧ s.AllValues E
  | [] => List.forall_mem_nil _
  | s :: ss => List.forall_mem_cons.2 ⟨⟨h.ofStmt s, h.ofValues s⟩, h.ofParts ss⟩

theorem ofValues (h : TreeClosed E F S) : ∀ s : Stmt, s.AllValues E
  | .expr _ e => h.ofExpr e
  | .localVars _ _ values _ => h.ofExprs values
  | .localFunction .. | .assign .. | .scope .. | .whileLoop .. | .repeatLoop .. | .ifElse ..
  | .numericFor .. | .genericFor .. | .returnValues .. | .breakLoop _ => trivial

theorem ofTargets (h : TreeClosed E F S) : ∀ es : List Expr, ∀ e ∈ es, E e ∧ e.AllKeys E
  | [] => List.forall_mem_nil _
  | e :: es => List.forall_mem_cons.2 ⟨⟨h.ofExpr e, h.ofKeys e⟩, h.ofTargets es⟩

theorem ofKeys (h : TreeClosed E F S) : ∀ e : Expr, e.AllKeys E
  | .index _ object key => ⟨h.ofExpr object, h.ofExpr key⟩
  | .nil _ | .bool .. | .number .. | .string .. | .vararg _ | .name .. | .function _
  | .signature .. | .table .. | .binary .. | .unary .. | .call .. | .method .. | .paren ..
  | .block .. => trivial

theorem ofStmts (h : TreeClosed E F S) : ∀ ss : List Stmt, ∀ s ∈ ss, S s
  | [] => List.forall_mem_nil _
  | s :: ss => List.forall_mem_cons.2 ⟨h.ofStmt s, h.ofStmts ss⟩

theorem ofStmt (h : TreeClosed E F S) : ∀ s, S s
  | .localVars loc names values types => h.localVars loc names values types (h.ofExprs values) (h.ofAnnotations types)
  | .localFunction loc name f => h.localFunction loc name f (h.ofFunction f)
  | .assign loc targets values => h.assign loc targets values (h.ofTargets targets) (h.ofExprs values)
  | .expr loc e => h.expr loc e (h.ofExpr e)
  | .scope loc (.mk _ body) => h.scope loc _ (h.ofStmts body)
  | .whileLoop loc condition (.mk _ body) => h.whileLoop loc condition _ (h.ofExpr condition) (h.ofStmts body)
  | .repeatLoop loc (.mk _ body) condition => h.repeatLoop loc _ condition (h.ofStmts body) (h.ofExpr condition)
  | .ifElse loc condition (.mk _ body) clauses otherwise =>
    h.ifElse loc condition _ clauses otherwise (h.ofExpr condition) (h.ofStmts body)
      (h.ofClauses clauses) (h.ofOtherwise otherwise)
  | .numericFor loc counter start stop step (.mk _ body) =>
    h.numericFor loc counter start stop step _ (h.ofExpr start) (h.ofExpr stop) (h.ofOption step) (h.ofStmts body)
  | .genericFor loc names iterators (.mk _ body) =>
    h.genericFor loc names iterators _ (h.ofExprs iterators) (h.ofStmts body)
  | .returnValues loc values => h.returnValues loc values (h.ofExprs values)
  | .breakLoop loc => h.breakLoop loc

end

end TreeClosed

end TypedLua
