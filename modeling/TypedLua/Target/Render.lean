import TypedLua.Target

/-!
# The text of a module

Expressions are written on one line.
-/

namespace TypedLua.Target

/-- The items of a list, each followed by a comma and a blank except the last. -/
def commaList (items : List String) : String :=
  ", ".intercalate items

/-- A tuple in parentheses; a tuple of one has a comma behind its item. -/
def tuple : List String → String
  | [x] => "(" ++ x ++ ",)"
  | xs => "(" ++ commaList xs ++ ")"

/-- Targets of an assignment of several values; a single one has a comma behind it. -/
def targets : List String → String
  | [x] => x ++ ","
  | xs => commaList xs

def helper (name : String) (args : List String) : String :=
  "_rt." ++ name ++ "(" ++ commaList args ++ ")"

mutual

def Expr.text : Expr → String
  | .null => "None"
  | .bool true => "True"
  | .bool false => "False"
  | .number n => n.exactText
  | .infinity => "float('inf')"
  | .string s => Text.quote s
  | .var x => x
  | .global x => "_ENV[" ++ Text.quote x ++ "]"
  | .firstVararg => "(_varargs[0] if _varargs else None)"
  | .table items tail => helper "make_table" (tuple (itemTexts items) :: spreadTexts tail)
  | .binary op left right => helper op.text [left.text, right.text]
  | .andThen temp left right =>
    "(" ++ right.text ++ " if " ++ helper "truthy" ["(" ++ temp ++ " := " ++ left.text ++ ")"]
      ++ " else " ++ temp ++ ")"
  | .orElse temp left right =>
    "(" ++ temp ++ " if " ++ helper "truthy" ["(" ++ temp ++ " := " ++ left.text ++ ")"]
      ++ " else " ++ right.text ++ ")"
  | .negation operand => "(not " ++ helper "truthy" [operand.text] ++ ")"
  | .length operand => helper "length" [operand.text]
  | .minus operand => helper "neg" [operand.text]
  | .first call => helper "first" [call.text]
  | .index object key => helper "index" [object.text, key.text]
  | .last parts value => "(" ++ commaList (partTexts parts ++ [value.text]) ++ ")[-1]"

def Call.text : Call → String
  | .call callee args tail => helper "call" (callee.text :: (exprTexts args ++ tailTexts tail))
  | .invoke object member args tail =>
    helper "invoke" (object.text :: Text.quote member :: (exprTexts args ++ tailTexts tail))
  | .varargs => "_rt.MultiReturn(_varargs)"
  | .single value => value.text

def exprTexts : List Expr → List String
  | [] => []
  | e :: es => e.text :: exprTexts es

def tailTexts : Option Tail → List String
  | none => []
  | some .varargs => ["*_varargs"]
  | some (.expand call) => ["*" ++ helper "expand" [call.text]]

def spreadTexts : Option Tail → List String
  | none => []
  | some .varargs => ["_varargs"]
  | some (.expand call) => [helper "expand" [call.text]]

def partTexts : List Part → List String
  | [] => []
  | .run call :: parts => call.text :: partTexts parts
  | .bind x value :: parts => ("(" ++ x ++ " := " ++ value.text ++ ")") :: partTexts parts

def itemTexts : List Item → List String
  | [] => []
  | .keyed key value :: items => ("(" ++ key.text ++ ", " ++ value.text ++ ")") :: itemTexts items
  | .positional value :: items => ("(_rt.POSITIONAL, " ++ value.text ++ ")") :: itemTexts items

end

def listTexts (args : List Expr) (tail : Option Tail) : List String :=
  exprTexts args ++ tailTexts tail

def Cond.text : Cond → String
  | truthy value => helper "truthy" [value.text]
  | plain value => value.text

def Answer.text : Answer → String
  | call value => value.text
  | pack args tail => helper "pack" (listTexts args tail)

structure Line where
  level : Nat
  text : String
  deriving Repr, DecidableEq

def parameters (params : List String) : Rest → List String
  | .varargs => params.map (· ++ "=None") ++ ["*_varargs"]
  | .ignored => params.map (· ++ "=None") ++ ["*_rest"]
  | .none => params

/-- The line that names the assigned variables of enclosing definitions, if there are any. -/
def nonlocalLine (level : Nat) : List String → List Line
  | [] => []
  | names => [⟨level, "nonlocal " ++ commaList names⟩]

mutual

def Stmt.lines (level : Nat) : Stmt → List Line
  | .assignNull names => [⟨level, " = ".intercalate names ++ " = None"⟩]
  | .assign x value => [⟨level, x ++ " = " ++ value.text⟩]
  | .assignTuple names values => [⟨level, targets names ++ " = " ++ commaList (exprTexts values)⟩]
  | .assignAdjusted names args tail =>
    [⟨level, targets names ++ " = "
      ++ helper "adjust" (Number.textOfInt names.length :: listTexts args tail)⟩]
  | .setGlobal x value => [⟨level, "_ENV[" ++ Text.quote x ++ "] = " ++ value.text⟩]
  | .setIndex object key value => [⟨level, helper "setindex" [object.text, key.text, value.text]⟩]
  | .run call => [⟨level, call.text⟩]
  | .ifElse condition body otherwise =>
    ⟨level, "if " ++ condition.text ++ ":"⟩ :: (suiteLines (level + 1) body
      ++ otherwise.lines level)
  | .whileLoop condition body =>
    ⟨level, "while " ++ condition.text ++ ":"⟩ :: suiteLines (level + 1) body
  | .forever body => ⟨level, "while True:"⟩ :: suiteLines (level + 1) body
  | .forRange x start stop none body =>
    ⟨level, "for " ++ x ++ " in " ++ helper "lua_range" [start.text, stop.text] ++ ":"⟩
      :: suiteLines (level + 1) body
  | .forRange x start stop (some step) body =>
    ⟨level, "for " ++ x ++ " in " ++ helper "lua_range" [start.text, stop.text, step.text] ++ ":"⟩
      :: suiteLines (level + 1) body
  | .forEach names args tail body =>
    ⟨level, "for " ++ tuple names ++ " in _rt.iterate(" ++ Number.textOfInt names.length ++ ", "
      ++ commaList (listTexts args tail) ++ "):"⟩ :: suiteLines (level + 1) body
  | .define d => d.lines level
  | .iterate flow function args =>
    [⟨level, flow ++ " = " ++ function ++ "(" ++ commaList args ++ ")"⟩]
  | .breakOn flow =>
    [⟨level, "if " ++ flow ++ " is _rt.BREAK:"⟩, ⟨level + 1, "break"⟩]
  | .returnOn flow forward =>
    [⟨level, "if " ++ flow ++ " is not None:"⟩,
      ⟨level + 1, "return " ++ flow ++ if forward then "" else "[0]"⟩]
  | .answer false value => [⟨level, "return " ++ value.text⟩]
  | .answer true value => [⟨level, "return (" ++ value.text ++ ",)"⟩]
  | .answerBreak => [⟨level, "return _rt.BREAK"⟩]
  | .breakLoop => [⟨level, "break"⟩]
  | .pass => [⟨level, "pass"⟩]

def OrElse.lines (level : Nat) : OrElse → List Line
  | .none => []
  | .elseIf condition body otherwise =>
    ⟨level, "elif " ++ condition.text ++ ":"⟩ :: (suiteLines (level + 1) body
      ++ otherwise.lines level)
  | .otherwise body => ⟨level, "else:"⟩ :: suiteLines (level + 1) body

def Def.lines (level : Nat) : Def → List Line
  | .mk name params rest nonlocals body =>
    ⟨level, "def " ++ name ++ "(" ++ commaList (parameters params rest) ++ "):"⟩
      :: (nonlocalLine (level + 1) nonlocals ++ suiteLines (level + 1) body)

def suiteLines (level : Nat) : List Stmt → List Line
  | [] => []
  | s :: ss => s.lines level ++ suiteLines level ss

end

def Line.render (indent : Nat) (line : Line) : String :=
  if line.text.isEmpty then ""
  else String.ofList (List.replicate (line.level * indent) ' ') ++ line.text

def headerText (name : String) : String :=
  "# Generated by luatypes from " ++ name ++ ". Do not edit."

namespace Module

def lines (header : Option String) (m : Module) : List Line :=
  (header.map fun name => Line.mk 0 (headerText name)).toList
    ++ [⟨0, "import luatypes.runtime.lua as _rt"⟩, ⟨0, ""⟩, ⟨0, ""⟩,
      ⟨0, "def chunk(_ENV, *_varargs):"⟩]
    ++ suiteLines 1 m.body

def render (indent : Nat) (header : Option String) (m : Module) : String :=
  "\n".intercalate ((m.lines header).map (·.render indent)) ++ "\n"

end Module

end TypedLua.Target
