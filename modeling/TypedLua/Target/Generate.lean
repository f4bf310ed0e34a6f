import TypedLua.Syntax.Closures
import TypedLua.Syntax.Label
import TypedLua.Target

/-!
# Generating code

A chunk becomes a module of the target language.
-/

namespace TypedLua.Target

inductive GenerateCause where
  | functionType
  | insideExpression (label : String)
  | notAssignable
  | breakOutside
  deriving Repr, DecidableEq

def GenerateCause.message : GenerateCause → String
  | functionType => "Function type outside of an annotation"
  | insideExpression label => "Cannot use " ++ label ++ " inside an expression"
  | notAssignable => "Cannot assign to this expression"
  | breakOutside => "'break' outside a loop"

inductive GenerateFailure where
  | invalid (cause : GenerateCause) (loc : Loc)
  | unwritable
  deriving Repr, DecidableEq

namespace Generate

def reservedWords : List String := [
  "False", "None", "True", "and", "as", "assert", "async", "await", "break", "class", "continue",
  "def", "del", "elif", "else", "except", "finally", "for", "from", "global", "if", "import", "in",
  "is", "lambda", "nonlocal", "not", "or", "pass", "raise", "return", "try", "while", "with",
  "yield"]

def reservedNames : List String := ["_ENV", "_rt", "_varargs", "_rest", "chunk", "float"]

/-- A declared name: its name in the module, and the depth of the definition that holds it. -/
structure Binding where
  name : String
  depth : Nat
  deriving Repr, DecidableEq

/-- What one scope declares; later declarations come first. -/
abbrev Names := List (String × Binding)

structure Context where
  scopes : List Names
  /-- The depth of the definition being generated; the chunk has depth zero. -/
  depth : Nat
  loops : Nat
  inIteration : Bool

structure State where
  used : List String
  suite : List Stmt
  /-- The names of enclosing definitions that the definition being generated assigns. -/
  nonlocals : List String

abbrev Gen (α : Type) := StateT State (Except GenerateFailure) α

def fail {α : Type} (cause : GenerateCause) (loc : Loc) : Gen α :=
  throw (.invalid cause loc)

def emit (s : Stmt) : Gen Unit :=
  modify fun st => { st with suite := st.suite ++ [s] }

def capture {α : Type} (step : Gen α) : Gen (List Stmt × α) := do
  let before ← get
  set { before with suite := [] }
  let result ← step
  let after ← get
  set { after with suite := before.suite }
  return (after.suite, result)

/-- A base that is no reserved word and no name of the generated code itself. -/
def unreserved (base : String) : String :=
  if reservedWords.contains base || reservedNames.contains base then base ++ "_" else base

def candidate (base : String) : Nat → String
  | 0 => base
  | n + 1 => base ++ "_" ++ String.ofList (Nat.toDigits 10 (n + 1))

/-- The first number from `n` on whose candidate is free, within a number of trials. -/
def searchFree (used : List String) (base : String) : (trials n : Nat) → Nat
  | 0, n => n
  | trials + 1, n =>
    if used.contains (candidate base n) then searchFree used base trials (n + 1) else n

def freshName (used : List String) (base : String) : String :=
  let base := unreserved base
  candidate base (searchFree used base (used.length + 1) 0)

def unique (base : String) : Gen String := do
  let st ← get
  let name := freshName st.used base
  set { st with used := name :: st.used }
  return name

def temporaries : Nat → Gen (List String)
  | 0 => return []
  | n + 1 => do
    let x ← unique "_v"
    let xs ← temporaries n
    return x :: xs

namespace Context

def nested (ctx : Context) : Context :=
  { ctx with scopes := [] :: ctx.scopes }

def declaring (ctx : Context) (name : String) (b : Binding) : Context :=
  match ctx.scopes with
  | [] => { ctx with scopes := [[(name, b)]] }
  | scope :: rest => { ctx with scopes := ((name, b) :: scope) :: rest }

def lookup (ctx : Context) (name : String) : Option Binding :=
  ctx.scopes.findSome? (List.lookup name ·)

end Context

/-- Declares a name in the innermost scope and answers its name in the module. -/
def declare (ctx : Context) (name : String) : Gen (String × Context) := do
  let fresh ← unique name
  return (fresh, ctx.declaring name ⟨fresh, ctx.depth⟩)

def declareAll (ctx : Context) : List String → Gen (List String × Context)
  | [] => return ([], ctx)
  | x :: xs => do
    let (fresh, ctx) ← declare ctx x
    let (rest, ctx) ← declareAll ctx xs
    return (fresh :: rest, ctx)

def functionBase : Option String → String
  | none => "_fn"
  | some label =>
    if label.isEmpty then "_fn"
    else "_fn_" ++ String.ofList (label.toList.map fun c => if Text.isWordChar c then c else '_')

def addNonlocal (name : String) : Gen Unit :=
  modify fun st =>
    if st.nonlocals.contains name then st else { st with nonlocals := name :: st.nonlocals }

def assignName (ctx : Context) (x : String) (value : Expr) : Gen Stmt := do
  match ctx.lookup x with
  | none => return .setGlobal x value
  | some b =>
    if b.depth < ctx.depth then addNonlocal b.name
    return .assign b.name value

def definition (name : String) (params : List String) (rest : Rest) (body : Gen Unit) :
    Gen Unit := do
  let before ← get
  set { before with nonlocals := [] }
  let (suite, _) ← capture body
  let after ← get
  set { after with nonlocals := before.nonlocals }
  emit (.define (.mk name params rest (after.nonlocals.mergeSort (· ≤ ·)) suite))

/-- A break of the innermost loop, inline or from inside an iteration. -/
def breakStmt (ctx : Context) : Stmt :=
  if ctx.loops > 0 then .breakLoop else .answerBreak

/-- The surroundings of the function that runs one iteration; the loop variables are its
parameters. -/
def iterationContext (ctx : Context) (loopNames : List (String × String)) : Context :=
  let inner : Context :=
    { scopes := [] :: ctx.scopes, depth := ctx.depth + 1, loops := 0, inIteration := true }
  loopNames.foldl (fun c (name, fresh) => c.declaring name ⟨fresh, ctx.depth + 1⟩) inner

def loopSuite (ctx : Context) (loopNames : List (String × String)) (closures : Bool)
    (statements : Context → Gen Unit) : Gen (List Stmt) := do
  if closures then
    let function ← unique "_loop"
    let flow ← unique "_flow"
    let params := loopNames.map (·.2)
    let (suite, _) ← capture do
      definition function params .none (statements (iterationContext ctx loopNames))
      emit (.iterate flow function params)
      emit (.breakOn flow)
      emit (.returnOn flow ctx.inIteration)
    return suite
  else
    let (suite, _) ← capture (statements { ctx with loops := ctx.loops + 1 })
    return suite

def fillSuite : Gen Unit := do
  if (← get).suite.isEmpty then emit .pass

def cut : Call → Expr
  | .single value => value
  | .varargs => .firstVararg
  | call => .first call

def toCond (e : TypedLua.Expr) (value : Expr) : Cond :=
  match e with
  | .bool .. | .unary _ .not _ => .plain value
  | .binary _ _ op _ => if op.isComparison then .plain value else .truthy value
  | _ => .truthy value

def toTail : Call → Option Tail
  | .varargs => some .varargs
  | call => some (.expand call)

def consItem (call : Call) (rest : List Expr × Option Tail) : List Expr × Option Tail :=
  (cut call :: rest.1, rest.2)

/-- A list of one item, which keeps all its values if it has several. -/
def lastItem (e : TypedLua.Expr) (call : Call) : List Expr × Option Tail :=
  if e.isMultiValued then ([], toTail call) else ([cut call], none)

/-- The number literal of a value; both infinities are written as the positive one. -/
def numberLiteral : Number → Expr
  | .float x => if Binary64.isInfinite x then .infinity else .number (.float x)
  | n => .number n

inductive Adjusted where
  | exact (values : List Expr)
  | adjust (args : List Expr) (tail : Option Tail)

def Adjusted.assign (names : List String) : Adjusted → Stmt
  | exact values => .assignTuple names values
  | adjust args tail => .assignAdjusted names args tail

/-- The values of a statement with `count` targets, from the code of its expressions: as they are
if there is one for each of at least two targets and the last has one value. -/
def toAdjusted (count : Nat) (es : List TypedLua.Expr) (list : List Expr × Option Tail) :
    Adjusted :=
  if count > 1 && es.length = count && !(es.getLast?.any (·.isMultiValued)) then .exact list.1
  else .adjust list.1 list.2

mutual

def raw (ctx : Context) : TypedLua.Expr → Gen Call
  | .nil _ => return .single .null
  | .bool _ b => return .single (.bool b)
  | .number _ n => if n.isWritable then return .single (numberLiteral n) else throw .unwritable
  | .string _ s => return .single (.string s)
  | .vararg _ => return .varargs
  | .name _ x =>
    return match ctx.lookup x with
      | some b => .single (.var b.name)
      | none => .single (.global x)
  | .function f => do
    let name ← unique (functionBase f.label)
    function ctx name f
    return .single (.var name)
  | .signature loc _ _ => fail .functionType loc
  | .table _ fields => do
    let (items, tail) ← tableItems ctx fields
    return .single (.table items tail)
  | .binary _ left op right => do
    let left ← raw ctx left
    match op with
    | .and =>
      let temp ← unique "_v"
      let right ← raw ctx right
      return .single (.andThen temp (cut left) (cut right))
    | .or =>
      let temp ← unique "_v"
      let right ← raw ctx right
      return .single (.orElse temp (cut left) (cut right))
    | op =>
      let right ← raw ctx right
      return .single (.binary op (cut left) (cut right))
  | .unary _ op operand => do
    let operand ← raw ctx operand
    match op with
    | .not => return .single (.negation (cut operand))
    | .len => return .single (.length (cut operand))
    | .neg => return .single (.minus (cut operand))
  | .call _ callee args => do
    let callee ← raw ctx callee
    let (args, tail) ← exprList ctx args
    return .call (cut callee) args tail
  | .method _ object member args => do
    let object ← raw ctx object
    let (args, tail) ← exprList ctx args
    return .invoke (cut object) member args tail
  | .index _ object key => do
    let object ← raw ctx object
    let key ← raw ctx key
    return .single (.index (cut object) (cut key))
  | .paren _ inner => do
    let inner ← raw ctx inner
    return .single (cut inner)
  | .block _ ss value => do
    let (parts, inside) ← blockParts ctx.nested ss
    let value ← raw inside value
    return .single (.last parts (cut value))

/-- The code of an expression list, whose last item keeps all its values. -/
def exprList (ctx : Context) : List TypedLua.Expr → Gen (List Expr × Option Tail)
  | [] => return ([], none)
  | [e] => do
    let call ← raw ctx e
    return lastItem e call
  | e :: es => do
    let call ← raw ctx e
    let rest ← exprList ctx es
    return consItem call rest

/-- The code of table entries; a positional item at the end keeps all its values. -/
def tableItems (ctx : Context) : List Field → Gen (List Item × Option Tail)
  | [] => return ([], none)
  | .mk _ (some key) value :: fields => do
    let key ← raw ctx key
    let value ← raw ctx value
    let (items, tail) ← tableItems ctx fields
    return (.keyed (cut key) (cut value) :: items, tail)
  | [.mk _ none value] => do
    let call ← raw ctx value
    let (values, tail) := lastItem value call
    return (values.map .positional, tail)
  | .mk _ none value :: fields => do
    let value ← raw ctx value
    let (items, tail) ← tableItems ctx fields
    return (.positional (cut value) :: items, tail)

/-- The code of the statements of a block inside an expression: calls, and locals with one name and
at most one value. -/
def blockParts (ctx : Context) : List TypedLua.Stmt → Gen (List Part × Context)
  | [] => return ([], ctx)
  | .expr _ e :: ss => do
    let call ← raw ctx e
    let (parts, ctx) ← blockParts ctx ss
    return (.run call :: parts, ctx)
  | .localVars _ [name] [] _ :: ss => do
    let (fresh, ctx) ← declare ctx name
    let (parts, ctx) ← blockParts ctx ss
    return (.bind fresh .null :: parts, ctx)
  | .localVars _ [name] [value] _ :: ss => do
    let value ← raw ctx value
    let (fresh, ctx) ← declare ctx name
    let (parts, ctx) ← blockParts ctx ss
    return (.bind fresh (cut value) :: parts, ctx)
  | s :: _ => fail (.insideExpression s.label) s.loc

def function (ctx : Context) (name : String) : TypedLua.Function → Gen Unit
  | .mk _ params isVararg (.mk _ body) _ _ _ => do
    let inner : Context :=
      { scopes := [] :: ctx.scopes, depth := ctx.depth + 1, loops := 0, inIteration := false }
    let (params, inner) ← declareAll inner params
    definition name params (if isVararg then .varargs else .ignored) do
      let _ ← stmts inner.nested body
      fillSuite

def blockSuite (ctx : Context) : TypedLua.Block → Gen (List Stmt)
  | .mk _ ss => do
    let (suite, _) ← capture do
      let _ ← stmts ctx.nested ss
      fillSuite
    return suite

/-- The last block of a conditional; a block without statements is left out. -/
def otherwiseSuite (ctx : Context) : Option TypedLua.Block → Gen OrElse
  | none => return .none
  | some (.mk loc ss) =>
    if ss.isEmpty then return .none
    else do
      let suite ← blockSuite ctx (.mk loc ss)
      return .otherwise suite

/-- What follows the first block of a conditional, ending with the given last block. -/
def orElse (ctx : Context) (final : Gen OrElse) : List Clause → Gen OrElse
  | [] => final
  | .mk condition body :: rest => do
    let (hoisted, call) ← capture (raw ctx condition)
    let test := toCond condition (cut call)
    let suite ← blockSuite ctx body
    let other ← orElse ctx final rest
    if hoisted.isEmpty then return .elseIf test suite other
    else return .otherwise (hoisted ++ [.ifElse test suite other])

/-- Emits the code of statements and answers the surroundings behind them. -/
def stmts (ctx : Context) : List TypedLua.Stmt → Gen Context
  | [] => return ctx
  | s :: ss => do
    let ctx ← stmt ctx s
    stmts ctx ss

def assignTo (ctx : Context) (value : Expr) : TypedLua.Expr → Gen Unit
  | .name _ x => do
    let s ← assignName ctx x value
    emit s
  | .index _ object key => do
    let object ← raw ctx object
    let key ← raw ctx key
    emit (.setIndex (cut object) (cut key) value)
  | e => fail .notAssignable e.loc

/-- Emits the assignments of temporaries to targets, one after the other. -/
def assignEach (ctx : Context) : List TypedLua.Expr → List String → Gen Unit
  | target :: targets, temp :: temps => do
    assignTo ctx (.var temp) target
    assignEach ctx targets temps
  | _, _ => return ()

/-- Emits the code of a statement and answers the surroundings behind it. -/
def stmt (ctx : Context) : TypedLua.Stmt → Gen Context
  | .localVars _ names [] _ => do
    let (fresh, ctx) ← declareAll ctx names
    emit (.assignNull fresh)
    return ctx
  | .localVars _ [name] [value] _ => do
    let value ← raw ctx value
    let (fresh, ctx) ← declare ctx name
    emit (.assign fresh (cut value))
    return ctx
  | .localVars _ names values _ => do
    let list ← exprList ctx values
    let (fresh, ctx) ← declareAll ctx names
    emit ((toAdjusted names.length values list).assign fresh)
    return ctx
  | .localFunction _ name f => do
    let (fresh, ctx) ← declare ctx name
    function ctx fresh f
    return ctx
  | .assign _ [target] [value] => do
    let value ← raw ctx value
    assignTo ctx (cut value) target
    return ctx
  | .assign _ targets values => do
    let temps ← temporaries targets.length
    let list ← exprList ctx values
    emit ((toAdjusted targets.length values list).assign temps)
    assignEach ctx targets temps
    return ctx
  | .expr _ e => do
    let call ← raw ctx e
    emit (.run call)
    return ctx
  | .scope _ (.mk _ ss) => do
    let _ ← stmts ctx.nested ss
    return ctx
  | .whileLoop _ condition (.mk _ body) => do
    let call ← raw ctx condition
    let suite ← loopSuite ctx [] (stmtsHaveFunction body) fun inner => do
      let _ ← stmts inner.nested body
      fillSuite
    emit (.whileLoop (toCond condition (cut call)) suite)
    return ctx
  | .repeatLoop _ (.mk _ body) condition => do
    let closures := stmtsHaveFunction body || condition.hasFunction
    let suite ← loopSuite ctx [] closures fun inner => do
      let inside ← stmts inner.nested body
      fillSuite
      let call ← raw inside condition
      emit (.ifElse (toCond condition (cut call)) [breakStmt inner] .none)
    emit (.forever suite)
    return ctx
  | .ifElse _ condition body clauses otherwise => do
    let call ← raw ctx condition
    let suite ← blockSuite ctx body
    let other ← orElse ctx (otherwiseSuite ctx otherwise) clauses
    emit (.ifElse (toCond condition (cut call)) suite other)
    return ctx
  | .numericFor _ counter start stop step (.mk _ body) => do
    let start ← raw ctx start
    let stop ← raw ctx stop
    let step ← match step with
      | none => pure none
      | some e => do
        let call ← raw ctx e
        pure (some (cut call))
    let (fresh, inner) ← declare ctx.nested counter
    let suite ← loopSuite inner [(counter, fresh)] (stmtsHaveFunction body) fun inner => do
      let _ ← stmts inner.nested body
      fillSuite
    emit (.forRange fresh (cut start) (cut stop) step suite)
    return ctx
  | .genericFor _ names iterators (.mk _ body) => do
    let (args, tail) ← exprList ctx iterators
    let (fresh, inner) ← declareAll ctx.nested names
    let suite ← loopSuite inner (names.zip fresh) (stmtsHaveFunction body) fun inner => do
      let _ ← stmts inner.nested body
      fillSuite
    emit (.forEach fresh args tail suite)
    return ctx
  | .returnValues _ [] => do
    emit (.answer ctx.inIteration (.pack [] none))
    return ctx
  | .returnValues _ [e] => do
    let call ← raw ctx e
    emit (.answer ctx.inIteration (.call call))
    return ctx
  | .returnValues _ values => do
    let (args, tail) ← exprList ctx values
    emit (.answer ctx.inIteration (.pack args tail))
    return ctx
  | .breakLoop loc =>
    if ctx.loops = 0 && !ctx.inIteration then fail .breakOutside loc
    else do
      emit (breakStmt ctx)
      return ctx

end

section Equations

-- The equations of these functions are made here, so that the proofs that open them need not wait.
attribute [local simp] raw exprList tableItems blockParts function blockSuite otherwiseSuite orElse stmts
  assignTo assignEach stmt

end Equations

end Generate

def generate (c : Chunk) : Except GenerateFailure Module :=
  let start : Generate.Context := { scopes := [], depth := 0, loops := 0, inIteration := false }
  match Generate.blockSuite start c.body ⟨[], [], []⟩ with
  | .ok (suite, _) => .ok ⟨suite⟩
  | .error e => .error e

end TypedLua.Target
