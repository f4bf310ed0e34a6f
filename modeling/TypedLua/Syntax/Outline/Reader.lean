import TypedLua.Syntax.Outline

/-!
# Trees from outlines

An outline is read back into the tree it shows.
-/

namespace TypedLua.Outline

inductive Part where
  | expr (e : Expr)
  | stmt (s : Stmt)
  | block (b : Block)
  | field (f : Field)
  | list (parts : List Part)
  | text (s : String)
  | number (n : Number)
  | flag (b : Bool)
  | absent

namespace Part

def expr? : Part → Option Expr
  | expr e => some e
  | _ => none

def stmt? : Part → Option Stmt
  | stmt s => some s
  | _ => none

def block? : Part → Option Block
  | block b => some b
  | _ => none

def field? : Part → Option Field
  | field f => some f
  | _ => none

def text? : Part → Option String
  | text s => some s
  | _ => none

def list? : Part → Option (List Part)
  | list parts => some parts
  | absent => some []
  | _ => none

def flag? : Part → Option Bool
  | flag b => some b
  | absent => some false
  | _ => none

def annotation? : Part → Option Annotation
  | list [text name, expr type] => some (.mk name type)
  | _ => none

def clause? : Part → Option Clause
  | list [expr condition, block body] => some (.mk condition body)
  | _ => none

def optional {α : Type} (read : Part → Option α) : Part → Option (Option α)
  | absent => some none
  | part => (read part).map some

def listOf {α : Type} (read : Part → Option α) (part : Part) : Option (List α) := do
  (← part.list?).mapM read

end Part

abbrev Parts := List (String × Part)

def Parts.part (parts : Parts) (key : String) : Part :=
  (parts.lookup key).getD .absent

def binaryOp? (part : Part) : Option BinaryOp := do
  let name ← part.text?
  BinaryOp.all.find? (·.text == name)

def unaryOp? (part : Part) : Option UnaryOp := do
  let name ← part.text?
  UnaryOp.all.find? (·.text == name)

def function? (p : Parts) : Option Function := do
  return .mk none (← (p.part "params").listOf Part.text?) (← (p.part "is_vararg").flag?)
    (← (p.part "body").block?) (← (p.part "param_types").listOf Part.annotation?)
    (← (p.part "return_type").optional Part.expr?) (← (p.part "name").optional Part.text?)

def expr? (label : String) (p : Parts) : Option Expr := do
  let expr (key : String) := (p.part key).expr?
  let exprs (key : String) := (p.part key).listOf Part.expr?
  match label with
  | "NilLiteral" => return .nil none
  | "BooleanLiteral" => return .bool none (← (p.part "value").flag?)
  | "NumberLiteral" =>
    match p.part "value" with
    | .number n => return .number none n
    | _ => none
  | "StringLiteral" => return .string none (← (p.part "value").text?)
  | "VarargExpression" => return .vararg none
  | "Identifier" => return .name none (← (p.part "name").text?)
  | "FunctionLiteral" => return .function (← function? p)
  | "FunctionSignature" =>
    return .signature none (← exprs "param_types") (← (p.part "body").block?)
  | "TableConstructor" => return .table none (← (p.part "fields").listOf Part.field?)
  | "BinaryExpression" =>
    return .binary none (← expr "left") (← binaryOp? (p.part "operator")) (← expr "right")
  | "UnaryExpression" => return .unary none (← unaryOp? (p.part "operator")) (← expr "operand")
  | "CallExpression" => return .call none (← expr "callee") (← exprs "arguments")
  | "MethodCall" =>
    return .method none (← expr "object") (← (p.part "method").text?) (← exprs "arguments")
  | "IndexExpression" => return .index none (← expr "object") (← expr "index")
  | "ParenExpression" => return .paren none (← expr "expression")
  | "BlockExpression" =>
    return .block none (← (p.part "statements").listOf Part.stmt?) (← expr "value")
  | _ => none

def stmt? (label : String) (p : Parts) : Option Stmt := do
  let expr (key : String) := (p.part key).expr?
  let exprs (key : String) := (p.part key).listOf Part.expr?
  let block (key : String) := (p.part key).block?
  let names := (p.part "names").listOf Part.text?
  match label with
  | "LocalDeclaration" =>
    return .localVars none (← names) (← exprs "values")
      (← (p.part "annotations").listOf Part.annotation?)
  | "LocalFunction" =>
    match p.part "function" with
    | .expr (.function f) => return .localFunction none (← (p.part "name").text?) f
    | _ => none
  | "Assignment" => return .assign none (← exprs "targets") (← exprs "values")
  | "ExpressionStatement" => return .expr none (← expr "expression")
  | "DoStatement" => return .scope none (← block "body")
  | "WhileStatement" => return .whileLoop none (← expr "condition") (← block "body")
  | "RepeatStatement" => return .repeatLoop none (← block "body") (← expr "condition")
  | "IfStatement" =>
    return .ifElse none (← expr "condition") (← block "then_block")
      (← (p.part "elseif_clauses").listOf Part.clause?)
      (← (p.part "else_block").optional Part.block?)
  | "NumericFor" =>
    return .numericFor none (← (p.part "variable").text?) (← expr "start") (← expr "stop")
      (← (p.part "step").optional Part.expr?) (← block "body")
  | "GenericFor" => return .genericFor none (← names) (← exprs "iterators") (← block "body")
  | "ReturnStatement" => return .returnValues none (← exprs "values")
  | "BreakStatement" => return .breakLoop none
  | _ => none

def assemble (label : String) (p : Parts) : Option Part :=
  match label with
  | "Block" => do return .block (.mk none (← (p.part "statements").listOf Part.stmt?))
  | "TableField" => do
    return .field (.mk none (← (p.part "key").optional Part.expr?) (← (p.part "value").expr?))
  | _ =>
    match stmt? label p with
    | some s => some (.stmt s)
    | none => (expr? label p).map .expr

mutual

def read : Outline → Option Part
  | node label _ fields => do assemble label (← readFields fields)
  | list items => do return .list (← readItems items)
  | text s => some (.text s)
  | word s => some (.text s)
  | number n => some (.number n)
  | flag b => some (.flag b)
  | absent => some .absent

def readFields : List (String × Outline) → Option Parts
  | [] => some []
  | (key, o) :: rest => do
    let part ← o.read
    let parts ← readFields rest
    return (key, part) :: parts

def readItems : List Outline → Option (List Part)
  | [] => some []
  | o :: rest => do
    let part ← o.read
    let parts ← readItems rest
    return part :: parts

end

def chunk? : Outline → Option Chunk
  | node "Chunk" _ fields => do
    let parts ← readFields fields
    let body ← (parts.part "body").block?
    match parts.part "typecheck" with
    | .flag b => return ⟨none, body, some b⟩
    | _ => return ⟨none, body, none⟩
  | _ => none

end TypedLua.Outline
