import TypedLua.Syntax

/-!
# Labels of statements

The names under which messages show the kinds of statements.
-/

namespace TypedLua

def Stmt.label : Stmt → String
  | .localVars .. => "LocalDeclaration"
  | .localFunction .. => "LocalFunction"
  | .assign .. => "Assignment"
  | .expr .. => "ExpressionStatement"
  | .scope .. => "DoStatement"
  | .whileLoop .. => "WhileStatement"
  | .repeatLoop .. => "RepeatStatement"
  | .ifElse .. => "IfStatement"
  | .numericFor .. => "NumericFor"
  | .genericFor .. => "GenericFor"
  | .returnValues .. => "ReturnStatement"
  | .breakLoop .. => "BreakStatement"

end TypedLua
