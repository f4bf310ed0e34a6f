import TypedLua.Syntax.Parser
import TypedLua.Syntax.Unlocated
import Mathlib.Data.List.Basic

/-!
# Canonical trees and their tokens

A tree is canonical if its shape is one that the grammar itself can express: operands bind at least
as tightly as their operator asks for, only what can be followed by a suffix is followed by one, and
`...` stands only where extra arguments exist.
-/

namespace TypedLua

/-! ## Operators -/

namespace BinaryOp

def level : BinaryOp → Nat
  | or => 1
  | and => 2
  | eq | ne | lt | gt | le | ge => 3
  | concat => 4
  | add | sub => 5
  | mul | div | idiv | mod => 6
  | pow => 8

def kind : BinaryOp → Token.Kind
  | or => .keyword .or_
  | and => .keyword .and_
  | eq => .symbol .eq
  | ne => .symbol .ne
  | lt => .symbol .lt
  | gt => .symbol .gt
  | le => .symbol .le
  | ge => .symbol .ge
  | concat => .symbol .concat
  | add => .symbol .plus
  | sub => .symbol .minus
  | mul => .symbol .star
  | div => .symbol .slash
  | idiv => .symbol .doubleSlash
  | mod => .symbol .percent
  | pow => .symbol .caret

theorem binaryOp?_kind (op : BinaryOp) : Parser.binaryOp? op.kind = some (op, op.level) := by
  cases op <;> rfl

theorem isRightAssociative_iff (op : BinaryOp) :
    Parser.isRightAssociative op = true ↔ op.level = 4 ∨ op.level = 8 := by
  cases op <;> decide

end BinaryOp

def UnaryOp.kind : UnaryOp → Token.Kind
  | neg => .symbol .minus
  | not => .keyword .not_
  | len => .symbol .hash

theorem UnaryOp.unaryOp?_kind (op : UnaryOp) : Parser.unaryOp? op.kind = some op := by
  cases op <;> rfl

/-! ## Canonical trees -/

namespace Expr

def level : Expr → Nat
  | binary _ _ op _ => op.level
  | unary .. => Parser.unaryLevel
  | _ => 9

def isUnary : Expr → Bool
  | unary .. => true
  | _ => false

def fitsLeft (op : BinaryOp) (e : Expr) : Bool :=
  op.level < e.level || (op.level == e.level && !Parser.isRightAssociative op)

def fitsRight (op : BinaryOp) (e : Expr) : Bool :=
  e.isUnary || op.level < e.level || (op.level == e.level && Parser.isRightAssociative op)

def isBase (inType : Bool) : Expr → Bool
  | name _ x => !(inType && x == "function")
  | paren .. | index .. | call .. | method .. => true
  | _ => false

def isCall : Expr → Bool
  | call .. | method .. => true
  | _ => false

end Expr

def Annotation.name : Annotation → String
  | .mk name _ => name

def Stmt.isReturn : Stmt → Bool
  | .returnValues .. => true
  | _ => false

mutual

def Expr.canonical (inType varargs : Bool) : Expr → Bool
  | .nil _ | .bool .. | .number .. | .string .. | .name .. => true
  | .vararg _ => varargs
  | .function f => !inType && f.label.isNone && f.canonical varargs
  | .signature _ params (.mk _ [.returnValues _ [result]]) =>
    inType && canonicalExprs inType varargs params && result.canonical inType varargs
  | .signature .. => false
  | .table _ fields => canonicalFields inType varargs fields
  | .binary _ left op right =>
    left.fitsLeft op && right.fitsRight op && left.canonical inType varargs && right.canonical inType varargs
  | .unary _ _ operand => decide (Parser.unaryLevel ≤ operand.level) && operand.canonical inType varargs
  | .call _ callee args =>
    callee.isBase inType && callee.canonical inType varargs && canonicalExprs inType varargs args
  | .method _ object _ args =>
    object.isBase inType && object.canonical inType varargs && canonicalExprs inType varargs args
  | .index _ object key => object.isBase inType && object.canonical inType varargs && key.canonical inType varargs
  | .paren _ inner => inner.canonical inType varargs
  | .block .. => false

def canonicalExprs (inType varargs : Bool) : List Expr → Bool
  | [] => true
  | e :: es => e.canonical inType varargs && canonicalExprs inType varargs es

def canonicalOption (inType varargs : Bool) : Option Expr → Bool
  | none => true
  | some e => e.canonical inType varargs

def canonicalFields (inType varargs : Bool) : List Field → Bool
  | [] => true
  | .mk _ key value :: fields =>
    canonicalOption inType varargs key && value.canonical inType varargs && canonicalFields inType varargs fields

def canonicalTypes (varargs : Bool) : List Annotation → Bool
  | [] => true
  | .mk _ type :: types => type.canonical true varargs && canonicalTypes varargs types

def Function.canonical (varargs : Bool) : Function → Bool
  | .mk _ params isVararg (.mk _ body) paramTypes returnType _ =>
    (paramTypes.map Annotation.name).isSublist params && canonicalTypes varargs paramTypes &&
      canonicalOption true varargs returnType && canonicalStmts isVararg body

def Block.canonical (varargs : Bool) : Block → Bool
  | .mk _ stmts => canonicalStmts varargs stmts

def canonicalOptionBlock (varargs : Bool) : Option Block → Bool
  | none => true
  | some b => b.canonical varargs

def canonicalClauses (varargs : Bool) : List Clause → Bool
  | [] => true
  | .mk condition body :: rest =>
    condition.canonical false varargs && body.canonical varargs && canonicalClauses varargs rest

def canonicalStmts (varargs : Bool) : List Stmt → Bool
  | [] => true
  | s :: ss => s.canonical varargs && (ss.isEmpty || !s.isReturn) && canonicalStmts varargs ss

def Stmt.canonical (varargs : Bool) : Stmt → Bool
  | .localVars _ names values types =>
    !names.isEmpty && (types.map Annotation.name).isSublist names &&
      canonicalTypes varargs types && canonicalExprs false varargs values
  | .localFunction _ name f => f.label == some name && f.canonical varargs
  | .assign _ targets values =>
    !targets.isEmpty && !values.isEmpty && targets.all Parser.isAssignable &&
      canonicalExprs false varargs targets && canonicalExprs false varargs values
  | .expr _ e => e.isCall && e.canonical false varargs
  | .scope _ body => body.canonical varargs
  | .whileLoop _ condition body => condition.canonical false varargs && body.canonical varargs
  | .repeatLoop _ body condition => body.canonical varargs && condition.canonical false varargs
  | .ifElse _ condition body clauses otherwise =>
    condition.canonical false varargs && body.canonical varargs &&
      canonicalClauses varargs clauses && canonicalOptionBlock varargs otherwise
  | .numericFor _ _ start stop step body =>
    start.canonical false varargs && stop.canonical false varargs &&
      canonicalOption false varargs step && body.canonical varargs
  | .genericFor _ names iterators body =>
    !names.isEmpty && !iterators.isEmpty && canonicalExprs false varargs iterators && body.canonical varargs
  | .returnValues _ values => canonicalExprs false varargs values
  | .breakLoop _ => true

end

def Chunk.canonical (c : Chunk) : Bool := c.body.canonical true

/-! ## Printing -/

/-- The token of a name; inside a type the bare word `function` is a name too. -/
def nameKind (inType : Bool) (x : String) : Token.Kind :=
  if inType && x == "function" then .keyword .function_ else .name x

def moreNames : List String → List Token.Kind
  | [] => []
  | x :: xs => .symbol .comma :: .name x :: moreNames xs

def annotatedKinds (x : String) : List (String × List Token.Kind) → List Token.Kind
  | (y, type) :: _ => if x = y then .name x :: .symbol .doubleColon :: type else [.name x]
  | [] => [.name x]

def typesBehind (x : String) : List (String × List Token.Kind) → List (String × List Token.Kind)
  | (y, type) :: types => if x = y then types else (y, type) :: types
  | [] => []

def parameterKinds (isVararg : Bool) : List String → List (String × List Token.Kind) → List Token.Kind
  | [], _ => if isVararg then [.symbol .ellipsis] else []
  | [x], types => annotatedKinds x types ++ if isVararg then [.symbol .comma, .symbol .ellipsis] else []
  | x :: xs, types => annotatedKinds x types ++ .symbol .comma :: parameterKinds isVararg xs (typesBehind x types)

theorem annotatedKinds_start (x : String) (types : List (String × List Token.Kind)) :
    ∃ ks, annotatedKinds x types = .name x :: ks := by
  cases types with
  | nil => exact ⟨[], rfl⟩
  | cons a types =>
    rw [annotatedKinds]
    split <;> exact ⟨_, rfl⟩

theorem parameterKinds_cons (isVararg : Bool) (x : String) (xs : List String)
    (types : List (String × List Token.Kind)) : parameterKinds isVararg (x :: xs) types = annotatedKinds x types ++
      if xs = [] ∧ isVararg = false then []
      else .symbol .comma :: parameterKinds isVararg xs (typesBehind x types) := by
  cases xs with
  | nil => cases isVararg <;> rfl
  | cons y ys => rw [if_neg (by simp), parameterKinds]; simp

mutual

def Expr.kinds (inType : Bool) : Expr → List Token.Kind
  | .nil _ => [.keyword .nil_]
  | .bool _ b => [.keyword (if b then .true_ else .false_)]
  | .number _ n => [.number n]
  | .string _ s => [.string s]
  | .vararg _ => [.symbol .ellipsis]
  | .name _ x => [nameKind inType x]
  | .function f => .keyword .function_ :: f.kinds
  | .signature _ params (.mk _ stmts) =>
    .keyword .function_ :: .symbol .lparen :: (listKinds inType params ++
      .symbol .rparen :: .symbol .semicolon :: (stmtsKinds inType stmts ++ [.keyword .end_]))
  | .table _ fields => .symbol .lbrace :: (fieldsKinds inType fields ++ [.symbol .rbrace])
  | .binary _ left op right => left.kinds inType ++ op.kind :: right.kinds inType
  | .unary _ op operand => op.kind :: operand.kinds inType
  | .call _ callee args => callee.kinds inType ++ .symbol .lparen :: (listKinds inType args ++ [.symbol .rparen])
  | .method _ object member args =>
    object.kinds inType ++ .symbol .colon :: .name member :: .symbol .lparen ::
      (listKinds inType args ++ [.symbol .rparen])
  | .index _ object key => object.kinds inType ++ .symbol .lbracket :: (key.kinds inType ++ [.symbol .rbracket])
  | .paren _ inner => .symbol .lparen :: (inner.kinds inType ++ [.symbol .rparen])
  | .block _ stmts value => stmtsKinds inType stmts ++ value.kinds inType

def listKinds (inType : Bool) : List Expr → List Token.Kind
  | [] => []
  | e :: es => e.kinds inType ++ moreKinds inType es

def moreKinds (inType : Bool) : List Expr → List Token.Kind
  | [] => []
  | e :: es => .symbol .comma :: (e.kinds inType ++ moreKinds inType es)

def optionKinds (inType : Bool) (mark : Token.Kind) : Option Expr → List Token.Kind
  | none => []
  | some e => mark :: e.kinds inType

def fieldsKinds (inType : Bool) : List Field → List Token.Kind
  | [] => []
  | .mk _ none value :: fields => value.kinds inType ++ .symbol .comma :: fieldsKinds inType fields
  | .mk _ (some key) value :: fields =>
    .symbol .lbracket :: (key.kinds inType ++ .symbol .rbracket :: .symbol .assign ::
      (value.kinds inType ++ .symbol .comma :: fieldsKinds inType fields))

def typesKinds : List Annotation → List (String × List Token.Kind)
  | [] => []
  | .mk name type :: types => (name, type.kinds true) :: typesKinds types

def Function.kinds : Function → List Token.Kind
  | .mk _ params isVararg (.mk _ body) paramTypes returnType _ =>
    .symbol .lparen :: (parameterKinds isVararg params (typesKinds paramTypes) ++
      .symbol .rparen :: (optionKinds true (.symbol .doubleColon) returnType ++
        .symbol .semicolon :: (stmtsKinds false body ++ [.keyword .end_])))

def Block.kinds : Block → List Token.Kind
  | .mk _ stmts => stmtsKinds false stmts

def optionBlockKinds : Option Block → List Token.Kind
  | none => []
  | some b => .keyword .else_ :: b.kinds

def clausesKinds : List Clause → List Token.Kind
  | [] => []
  | .mk condition body :: rest =>
    .keyword .elseif_ :: (condition.kinds false ++ .keyword .then_ :: (body.kinds ++ clausesKinds rest))

def stmtsKinds (inType : Bool) : List Stmt → List Token.Kind
  | [] => []
  | s :: ss => s.kinds inType ++ .symbol .semicolon :: stmtsKinds inType ss

def Stmt.kinds (inType : Bool) : Stmt → List Token.Kind
  | .localVars _ names values types =>
    .keyword .local_ :: (parameterKinds false names (typesKinds types) ++ match values with
      | [] => []
      | e :: es => .symbol .assign :: (e.kinds false ++ moreKinds false es))
  | .localFunction _ name f => .keyword .local_ :: .keyword .function_ :: .name name :: f.kinds
  | .assign _ targets values => listKinds false targets ++ .symbol .assign :: listKinds false values
  | .expr _ e => e.kinds false
  | .scope _ body => .keyword .do_ :: (body.kinds ++ [.keyword .end_])
  | .whileLoop _ condition body =>
    .keyword .while_ :: (condition.kinds false ++ .keyword .do_ :: (body.kinds ++ [.keyword .end_]))
  | .repeatLoop _ body condition => .keyword .repeat_ :: (body.kinds ++ .keyword .until_ :: condition.kinds false)
  | .ifElse _ condition body clauses otherwise =>
    .keyword .if_ :: (condition.kinds false ++ .keyword .then_ :: (body.kinds ++
      (clausesKinds clauses ++ (optionBlockKinds otherwise ++ [.keyword .end_]))))
  | .numericFor _ counter start stop step body =>
    .keyword .for_ :: .name counter :: .symbol .assign :: (start.kinds false ++
      .symbol .comma :: (stop.kinds false ++ (optionKinds false (.symbol .comma) step ++
        .keyword .do_ :: (body.kinds ++ [.keyword .end_]))))
  | .genericFor _ [] iterators body =>
    .keyword .for_ :: .keyword .in_ :: (listKinds false iterators ++
      .keyword .do_ :: (body.kinds ++ [.keyword .end_]))
  | .genericFor _ (x :: xs) iterators body =>
    .keyword .for_ :: .name x :: (moreNames xs ++ .keyword .in_ ::
      (listKinds false iterators ++ .keyword .do_ :: (body.kinds ++ [.keyword .end_])))
  | .returnValues _ values => .keyword .return_ :: listKinds inType values
  | .breakLoop _ => [.keyword .break_]

end

def Chunk.kinds (c : Chunk) : List Token.Kind := c.typecheck.toList.map .directive ++ (c.body.kinds ++ [.eof])

def Chunk.unlocated (c : Chunk) : Chunk := ⟨none, c.body.unlocated, c.typecheck⟩

/-! ## Printed tokens are no directives -/

def isPlain : Token.Kind → Bool
  | .directive _ => false
  | _ => true

def plain (ks : List Token.Kind) : Bool := ks.all isPlain

@[simp]
theorem plain_nil : plain [] = true := rfl

@[simp]
theorem plain_cons (k : Token.Kind) (ks : List Token.Kind) : plain (k :: ks) = (isPlain k && plain ks) :=
  List.all_cons

@[simp]
theorem plain_append (ks ls : List Token.Kind) : plain (ks ++ ls) = (plain ks && plain ls) := List.all_append

theorem plain_moreNames : ∀ xs : List String, plain (moreNames xs) = true
  | [] => rfl
  | _ :: xs => plain_moreNames xs

theorem plain_annotated (x : String) (types : List (String × List Token.Kind)) (h : ∀ a ∈ types, plain a.2 = true) :
    plain (annotatedKinds x types) = true ∧ ∀ a ∈ typesBehind x types, plain a.2 = true := by
  cases types with
  | nil => exact ⟨rfl, by simp [typesBehind]⟩
  | cons a types =>
    rw [annotatedKinds, typesBehind]
    by_cases hx : x = a.1
    · rw [if_pos hx, if_pos hx]
      exact ⟨h a List.mem_cons_self, fun b hb => h b (List.mem_cons_of_mem _ hb)⟩
    · rw [if_neg hx, if_neg hx]
      exact ⟨rfl, h⟩

theorem plain_parameterKinds (isVararg : Bool) : ∀ (xs : List String)
    (types : List (String × List Token.Kind)), (∀ a ∈ types, plain a.2 = true) →
    plain (parameterKinds isVararg xs types) = true
  | [], _, _ => by cases isVararg <;> rfl
  | x :: xs, types, h => by
    obtain ⟨hx, hbehind⟩ := plain_annotated x types h
    rw [parameterKinds_cons, plain_append, hx, Bool.true_and]
    split
    · rfl
    · exact plain_parameterKinds isVararg xs _ hbehind

mutual

theorem plain_expr (t : Bool) : ∀ e : Expr, plain (e.kinds t) = true
  | .nil _ | .bool .. | .number .. | .string .. | .vararg _ => rfl
  | .name _ x => by
    rw [Expr.kinds, nameKind]
    split <;> rfl
  | .function f => plain_function f
  | .signature _ params (.mk _ stmts) => by simp [Expr.kinds, isPlain, plain_list t params, plain_stmts t stmts]
  | .table _ fields => by simp [Expr.kinds, isPlain, plain_fields t fields]
  | .binary _ left op right => by
    cases op <;> simp [Expr.kinds, isPlain, BinaryOp.kind, plain_expr t left, plain_expr t right]
  | .unary _ op operand => by
    cases op <;> simp [Expr.kinds, isPlain, UnaryOp.kind, plain_expr t operand]
  | .call _ callee args => by simp [Expr.kinds, isPlain, plain_expr t callee, plain_list t args]
  | .method _ object _ args => by simp [Expr.kinds, isPlain, plain_expr t object, plain_list t args]
  | .index _ object key => by simp [Expr.kinds, isPlain, plain_expr t object, plain_expr t key]
  | .paren _ inner => by simp [Expr.kinds, isPlain, plain_expr t inner]
  | .block _ stmts value => by simp [Expr.kinds, plain_stmts t stmts, plain_expr t value]

theorem plain_list (t : Bool) : ∀ es : List Expr, plain (listKinds t es) = true
  | [] => rfl
  | e :: es => by
    rw [listKinds, plain_append, plain_expr t e, plain_more t es]
    rfl

theorem plain_more (t : Bool) : ∀ es : List Expr, plain (moreKinds t es) = true
  | [] => rfl
  | e :: es => by simp [moreKinds, isPlain, plain_expr t e, plain_more t es]

theorem plain_fields (t : Bool) : ∀ fields : List Field, plain (fieldsKinds t fields) = true
  | [] => rfl
  | .mk _ none value :: fields => by simp [fieldsKinds, isPlain, plain_expr t value, plain_fields t fields]
  | .mk _ (some key) value :: fields => by
    simp [fieldsKinds, isPlain, plain_expr t key, plain_expr t value, plain_fields t fields]

theorem plain_types : ∀ types : List Annotation, ∀ a ∈ typesKinds types, plain a.2 = true
  | [] => List.forall_mem_nil _
  | .mk _ type :: types => List.forall_mem_cons.2 ⟨plain_expr true type, plain_types types⟩

theorem plain_function : ∀ f : Function, plain f.kinds = true
  | .mk _ params isVararg (.mk _ body) paramTypes none _ => by
    simp [Function.kinds, isPlain, optionKinds,
      plain_parameterKinds isVararg params _ (plain_types paramTypes), plain_stmts false body]
  | .mk _ params isVararg (.mk _ body) paramTypes (some type) _ => by
    simp [Function.kinds, isPlain, optionKinds,
      plain_parameterKinds isVararg params _ (plain_types paramTypes), plain_expr true type,
      plain_stmts false body]

theorem plain_clauses : ∀ clauses : List Clause, plain (clausesKinds clauses) = true
  | [] => rfl
  | .mk condition (.mk _ stmts) :: clauses => by
    simp [clausesKinds, isPlain, Block.kinds, plain_expr false condition,
      plain_stmts false stmts, plain_clauses clauses]

theorem plain_stmts (t : Bool) : ∀ ss : List Stmt, plain (stmtsKinds t ss) = true
  | [] => rfl
  | s :: ss => by simp [stmtsKinds, isPlain, plain_stmt t s, plain_stmts t ss]

theorem plain_stmt (t : Bool) : ∀ s : Stmt, plain (s.kinds t) = true
  | .localVars _ names [] types => by
    simp [Stmt.kinds, isPlain, plain_parameterKinds false names _ (plain_types types)]
  | .localVars _ names (e :: es) types => by
    simp [Stmt.kinds, isPlain, plain_parameterKinds false names _ (plain_types types),
      plain_expr false e, plain_more false es]
  | .localFunction _ _ f => plain_function f
  | .assign _ targets values => by simp [Stmt.kinds, isPlain, plain_list false targets, plain_list false values]
  | .expr _ e => plain_expr false e
  | .scope _ (.mk _ stmts) => by simp [Stmt.kinds, isPlain, Block.kinds, plain_stmts false stmts]
  | .whileLoop _ condition (.mk _ stmts) => by
    simp [Stmt.kinds, isPlain, Block.kinds, plain_expr false condition, plain_stmts false stmts]
  | .repeatLoop _ (.mk _ stmts) condition => by
    simp [Stmt.kinds, isPlain, Block.kinds, plain_expr false condition, plain_stmts false stmts]
  | .ifElse _ condition (.mk _ stmts) clauses none => by
    simp [Stmt.kinds, isPlain, Block.kinds, optionBlockKinds, plain_expr false condition,
      plain_stmts false stmts, plain_clauses clauses]
  | .ifElse _ condition (.mk _ stmts) clauses (some (.mk _ otherwise)) => by
    simp [Stmt.kinds, isPlain, Block.kinds, optionBlockKinds, plain_expr false condition,
      plain_stmts false stmts, plain_clauses clauses, plain_stmts false otherwise]
  | .numericFor _ _ start stop none (.mk _ stmts) => by
    simp [Stmt.kinds, isPlain, Block.kinds, optionKinds, plain_expr false start,
      plain_expr false stop, plain_stmts false stmts]
  | .numericFor _ _ start stop (some step) (.mk _ stmts) => by
    simp [Stmt.kinds, isPlain, Block.kinds, optionKinds, plain_expr false start,
      plain_expr false stop, plain_expr false step, plain_stmts false stmts]
  | .genericFor _ [] iterators (.mk _ stmts) => by
    simp [Stmt.kinds, isPlain, Block.kinds, plain_list false iterators, plain_stmts false stmts]
  | .genericFor _ (_ :: xs) iterators (.mk _ stmts) => by
    simp [Stmt.kinds, isPlain, Block.kinds, plain_moreNames xs, plain_list false iterators, plain_stmts false stmts]
  | .returnValues _ values => plain_list t values
  | .breakLoop _ => rfl

end

end TypedLua
