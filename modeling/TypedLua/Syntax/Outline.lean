import TypedLua.Syntax

/-!
# Outlines

An outline is a syntax tree in one uniform shape: nodes with a label and named fields.
-/

namespace TypedLua

inductive Outline where
  | node (label : String) (loc : Loc) (fields : List (String × Outline))
  | list (items : List Outline)
  | text (s : String)
  | word (s : String)
  | number (n : Number)
  | flag (b : Bool)
  | absent

namespace Outline

def ofNames (names : List String) : Outline :=
  .list (names.map .text)

def ofOption : Option Outline → Outline
  | some o => o
  | none => .absent

end Outline

mutual

def Expr.outline : Expr → Outline
  | .nil loc => .node "NilLiteral" loc []
  | .bool loc b => .node "BooleanLiteral" loc [("value", .flag b)]
  | .number loc n => .node "NumberLiteral" loc [("value", .number n)]
  | .string loc s => .node "StringLiteral" loc [("value", .text s)]
  | .vararg loc => .node "VarargExpression" loc []
  | .name loc x => .node "Identifier" loc [("name", .text x)]
  | .function f => f.outline
  | .signature loc params body => .node "FunctionSignature" loc [
      ("param_types", .list (exprOutlines params)), ("body", body.outline)]
  | .table loc fields => .node "TableConstructor" loc [("fields", .list (fieldOutlines fields))]
  | .binary loc left op right => .node "BinaryExpression" loc [
      ("left", left.outline), ("operator", .word op.text), ("right", right.outline)]
  | .unary loc op operand => .node "UnaryExpression" loc [
      ("operator", .word op.text), ("operand", operand.outline)]
  | .call loc callee args => .node "CallExpression" loc [
      ("callee", callee.outline), ("arguments", .list (exprOutlines args))]
  | .method loc object member args => .node "MethodCall" loc [
      ("object", object.outline), ("method", .text member),
      ("arguments", .list (exprOutlines args))]
  | .index loc object key => .node "IndexExpression" loc [
      ("object", object.outline), ("index", key.outline)]
  | .paren loc inner => .node "ParenExpression" loc [("expression", inner.outline)]
  | .block loc stmts value => .node "BlockExpression" loc [
      ("statements", .list (stmtOutlines stmts)), ("value", value.outline)]

def exprOutlines : List Expr → List Outline
  | [] => []
  | e :: es => e.outline :: exprOutlines es

def optionOutline : Option Expr → Outline
  | none => .absent
  | some e => e.outline

def fieldOutlines : List Field → List Outline
  | [] => []
  | .mk loc key value :: fields =>
    .node "TableField" loc [("value", value.outline), ("key", optionOutline key)]
      :: fieldOutlines fields

def annotationOutlines : List Annotation → List Outline
  | [] => []
  | .mk name type :: rest => .list [.text name, type.outline] :: annotationOutlines rest

def Function.outline : Function → Outline
  | .mk loc params isVararg body paramTypes returnType label => .node "FunctionLiteral" loc [
      ("params", .ofNames params), ("is_vararg", .flag isVararg), ("body", body.outline),
      ("param_types", .list (annotationOutlines paramTypes)),
      ("return_type", optionOutline returnType), ("name", .ofOption (label.map .text))]

def Block.outline : Block → Outline
  | .mk loc stmts => .node "Block" loc [("statements", .list (stmtOutlines stmts))]

def optionBlockOutline : Option Block → Outline
  | none => .absent
  | some b => b.outline

def clauseOutlines : List Clause → List Outline
  | [] => []
  | .mk condition body :: rest => .list [condition.outline, body.outline] :: clauseOutlines rest

def stmtOutlines : List Stmt → List Outline
  | [] => []
  | s :: ss => s.outline :: stmtOutlines ss

def Stmt.outline : Stmt → Outline
  | .localVars loc names values types => .node "LocalDeclaration" loc [
      ("names", .ofNames names), ("values", .list (exprOutlines values)),
      ("annotations", .list (annotationOutlines types))]
  | .localFunction loc name f => .node "LocalFunction" loc [
      ("name", .text name), ("function", f.outline)]
  | .assign loc targets values => .node "Assignment" loc [
      ("targets", .list (exprOutlines targets)), ("values", .list (exprOutlines values))]
  | .expr loc e => .node "ExpressionStatement" loc [("expression", e.outline)]
  | .scope loc body => .node "DoStatement" loc [("body", body.outline)]
  | .whileLoop loc condition body => .node "WhileStatement" loc [
      ("condition", condition.outline), ("body", body.outline)]
  | .repeatLoop loc body condition => .node "RepeatStatement" loc [
      ("body", body.outline), ("condition", condition.outline)]
  | .ifElse loc condition body clauses otherwise => .node "IfStatement" loc [
      ("condition", condition.outline), ("then_block", body.outline),
      ("elseif_clauses", .list (clauseOutlines clauses)),
      ("else_block", optionBlockOutline otherwise)]
  | .numericFor loc counter start stop step body => .node "NumericFor" loc [
      ("variable", .text counter), ("start", start.outline), ("stop", stop.outline),
      ("step", optionOutline step), ("body", body.outline)]
  | .genericFor loc names iterators body => .node "GenericFor" loc [
      ("names", .ofNames names), ("iterators", .list (exprOutlines iterators)),
      ("body", body.outline)]
  | .returnValues loc values => .node "ReturnStatement" loc [
      ("values", .list (exprOutlines values))]
  | .breakLoop loc => .node "BreakStatement" loc []

end

def Chunk.outline (c : Chunk) : Outline :=
  .node "Chunk" c.loc [
    ("body", c.body.outline), ("typecheck", .ofOption (c.typecheck.map .flag))]

namespace Outline

/-! ## Listings -/

/-- A leaf on one line; there is none for a number that cannot be written. -/
def leafText? : Outline → Option String
  | text s => some (Text.quote s)
  | word s => some s
  | number n => if n.isWritable then some n.exactText else none
  | flag true => some "True"
  | flag false => some "False"
  | _ => some "None"

def indented (indent : Nat) (line : String) : String :=
  String.ofList (List.replicate indent ' ') ++ line

mutual

def listing (indent : Nat) : Outline → List (Option String)
  | node label _ [] => [some (indented indent label)]
  | node label _ fields => some (indented indent (label ++ ":")) :: fieldLines (indent + 2) fields
  | other => [other.leafText?.map (indented indent)]

def fieldLines (indent : Nat) : List (String × Outline) → List (Option String)
  | [] => []
  | (key, .node label loc fields) :: rest =>
    some (indented indent (key ++ ":")) :: listing (indent + 2) (.node label loc fields)
      ++ fieldLines indent rest
  | (key, .list []) :: rest => some (indented indent (key ++ ": ()")) :: fieldLines indent rest
  | (key, .list (.text s :: items)) :: rest =>
    ((items.mapM leafText?).map fun texts =>
        indented indent (key ++ ": [" ++ ", ".intercalate (Text.quote s :: texts) ++ "]"))
      :: fieldLines indent rest
  | (key, .list items) :: rest =>
    some (indented indent (key ++ ": [")) :: itemLines (indent + 2) items
      ++ some (indented indent "]") :: fieldLines indent rest
  | (key, leaf) :: rest =>
    (leaf.leafText?.map fun text => indented indent (key ++ ": " ++ text)) :: fieldLines indent rest

def itemLines (indent : Nat) : List Outline → List (Option String)
  | [] => []
  | .list parts :: rest => partLines indent parts ++ itemLines indent rest
  | item :: rest => listing indent item ++ itemLines indent rest

def partLines (indent : Nat) : List Outline → List (Option String)
  | [] => []
  | part :: rest => listing indent part ++ partLines indent rest

end

end Outline

end TypedLua
