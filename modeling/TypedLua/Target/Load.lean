import TypedLua.Target
import TypedLua.Text.Identifier
import TypedLua.Text.Normal

/-!
# Loading modules

The target language reads the text of a module before it runs, and refuses a text that breaks its
rules.
-/

namespace TypedLua.Target

inductive LoadError where
  | nullName
  | illegal
  deriving Repr, DecidableEq

def readName? (word : String) : Option String :=
  let name := Text.normal word
  if Text.isIdentifier word && name != "__debug__" then some name else none

def readNames? : List String → Option (List String)
  | [] => some []
  | word :: words => do
    let name ← readName? word
    let names ← readNames? words
    return name :: names

def readTargets? : List String → Option (List String)
  | [] => none
  | words => readNames? words

mutual

def Expr.load? : Expr → Option Expr
  | .null => some .null
  | .bool b => some (.bool b)
  | .number n => some (.number n)
  | .infinity => some .infinity
  | .string s => some (.string s)
  | .var x => do
    let x ← readName? x
    return .var x
  | .global x => some (.global x)
  | .firstVararg => some .firstVararg
  | .table items tail => do
    let items ← loadItems? items
    let tail ← loadTail? tail
    return .table items tail
  | .binary op left right => do
    let left ← left.load?
    let right ← right.load?
    return .binary op left right
  | .andThen temp left right => do
    let temp ← readName? temp
    let left ← left.load?
    let right ← right.load?
    return .andThen temp left right
  | .orElse temp left right => do
    let temp ← readName? temp
    let left ← left.load?
    let right ← right.load?
    return .orElse temp left right
  | .negation operand => do
    let operand ← operand.load?
    return .negation operand
  | .length operand => do
    let operand ← operand.load?
    return .length operand
  | .minus operand => do
    let operand ← operand.load?
    return .minus operand
  | .first call => do
    let call ← call.load?
    return .first call
  | .index object key => do
    let object ← object.load?
    let key ← key.load?
    return .index object key
  | .last parts value => do
    let parts ← loadParts? parts
    let value ← value.load?
    return .last parts value

def Call.load? : Call → Option Call
  | .call callee args tail => do
    let callee ← callee.load?
    let args ← loadExprs? args
    let tail ← loadTail? tail
    return .call callee args tail
  | .invoke object member args tail => do
    let object ← object.load?
    let args ← loadExprs? args
    let tail ← loadTail? tail
    return .invoke object member args tail
  | .varargs => some .varargs
  | .single value => do
    let value ← value.load?
    return .single value

def loadExprs? : List Expr → Option (List Expr)
  | [] => some []
  | e :: es => do
    let e ← e.load?
    let es ← loadExprs? es
    return e :: es

def loadTail? : Option Tail → Option (Option Tail)
  | none => some none
  | some .varargs => some (some .varargs)
  | some (.expand call) => do
    let call ← call.load?
    return some (.expand call)

def loadParts? : List Part → Option (List Part)
  | [] => some []
  | .run call :: parts => do
    let call ← call.load?
    let parts ← loadParts? parts
    return .run call :: parts
  | .bind x value :: parts => do
    let x ← readName? x
    let value ← value.load?
    let parts ← loadParts? parts
    return .bind x value :: parts

def loadItems? : List Item → Option (List Item)
  | [] => some []
  | .keyed key value :: items => do
    let key ← key.load?
    let value ← value.load?
    let items ← loadItems? items
    return .keyed key value :: items
  | .positional value :: items => do
    let value ← value.load?
    let items ← loadItems? items
    return .positional value :: items

end

def Cond.load? : Cond → Option Cond
  | truthy value => value.load?.map truthy
  | plain value => value.load?.map plain

/-- The answer of a `return` with the variables that its words denote. -/
def Answer.load? : Answer → Option Answer
  | call value => value.load?.map call
  | pack args tail => do
    let args ← loadExprs? args
    let tail ← loadTail? tail
    return pack args tail

def Rest.params : Rest → List String
  | varargs => ["_varargs"]
  | ignored => ["_rest"]
  | none => []

/-- The parameters of a definition are distinct and belong to no enclosing definition. -/
def areParams (params : List String) (rest : Rest) (nonlocals : List String) : Bool :=
  let all := params ++ rest.params
  decide all.Nodup && all.all fun x => !nonlocals.contains x

mutual

def Stmt.load? : Stmt → Option Stmt
  | .assignNull names => do
    let names ← readTargets? names
    return .assignNull names
  | .assign x value => do
    let x ← readName? x
    let value ← value.load?
    return .assign x value
  | .assignTuple names values => do
    let names ← readTargets? names
    let values ← loadExprs? values
    return .assignTuple names values
  | .assignAdjusted names args tail => do
    let names ← readTargets? names
    let args ← loadExprs? args
    let tail ← loadTail? tail
    return .assignAdjusted names args tail
  | .setGlobal x value => do
    let value ← value.load?
    return .setGlobal x value
  | .setIndex object key value => do
    let object ← object.load?
    let key ← key.load?
    let value ← value.load?
    return .setIndex object key value
  | .run call => do
    let call ← call.load?
    return .run call
  | .ifElse condition body otherwise => do
    let condition ← condition.load?
    let body ← loadStmts? body
    let otherwise ← otherwise.load?
    return .ifElse condition body otherwise
  | .whileLoop condition body => do
    let condition ← condition.load?
    let body ← loadStmts? body
    return .whileLoop condition body
  | .forever body => do
    let body ← loadStmts? body
    return .forever body
  | .forRange x start stop none body => do
    let x ← readName? x
    let start ← start.load?
    let stop ← stop.load?
    let body ← loadStmts? body
    return .forRange x start stop none body
  | .forRange x start stop (some step) body => do
    let x ← readName? x
    let start ← start.load?
    let stop ← stop.load?
    let step ← step.load?
    let body ← loadStmts? body
    return .forRange x start stop (some step) body
  | .forEach names args tail body => do
    let names ← readNames? names
    let args ← loadExprs? args
    let tail ← loadTail? tail
    let body ← loadStmts? body
    return .forEach names args tail body
  | .define d => do
    let d ← d.load?
    return .define d
  | .iterate flow function args => do
    let flow ← readName? flow
    let function ← readName? function
    let args ← readNames? args
    return .iterate flow function args
  | .breakOn flow => do
    let flow ← readName? flow
    return .breakOn flow
  | .returnOn flow forward => do
    let flow ← readName? flow
    return .returnOn flow forward
  | .answer boxed value => do
    let value ← value.load?
    return .answer boxed value
  | .answerBreak => some .answerBreak
  | .breakLoop => some .breakLoop
  | .pass => some .pass

/-- What follows the first block of a conditional, with the variables that its words denote. -/
def OrElse.load? : OrElse → Option OrElse
  | .none => some .none
  | .elseIf condition body otherwise => do
    let condition ← condition.load?
    let body ← loadStmts? body
    let otherwise ← otherwise.load?
    return .elseIf condition body otherwise
  | .otherwise body => do
    let body ← loadStmts? body
    return .otherwise body

def Def.load? : Def → Option Def
  | .mk name params rest nonlocals body => do
    let name ← readName? name
    let params ← readNames? params
    let nonlocals ← readNames? nonlocals
    let body ← loadStmts? body
    if areParams params rest nonlocals then return .mk name params rest nonlocals body else none

def loadStmts? : List Stmt → Option (List Stmt)
  | [] => some []
  | s :: ss => do
    let s ← s.load?
    let ss ← loadStmts? ss
    return s :: ss

end

/-! ## The opening comment -/

def isLineBlank (c : Char) : Bool :=
  c == ' ' || c == '\t' || c == '\x0c'

def isIdle (line : List Char) : Bool :=
  match line.dropWhile isLineBlank with
  | [] | '#' :: _ => true
  | _ => false

/-- What follows the first line of a text keeps to lines without code; `line` is what was read of the
line so far, last character first, and `first` holds in the first line. -/
def restIsIdle (first : Bool) (line : List Char) : List Char → Bool
  | [] => first || isIdle line.reverse
  | c :: cs =>
    if c == '\n' || c == '\r' then (first || isIdle line.reverse) && restIsIdle false [] cs
    else restIsIdle first (c :: line) cs

/-- The name of a unit can stand in a comment that goes on behind it. -/
def fitsComment (name : String) : Bool :=
  restIsIdle true [] (name.toList ++ ['.'])

/-- A module as the target language reads its text: `file` names the unit, and `header` holds if a
comment with that name opens the text. -/
def Module.load (file : String) (header : Bool) (m : Module) : Except LoadError Module :=
  if file.toList.contains '\x00' then .error .nullName
  else if header && !fitsComment file then .error .illegal
  else
    match loadStmts? m.body with
    | some body => .ok ⟨body⟩
    | none => .error .illegal

end TypedLua.Target
