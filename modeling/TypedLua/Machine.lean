import TypedLua.Library

/-!
# Running modules

The meaning of the target language.
-/

namespace TypedLua

/-- What is done around a call that is made for its effect, when its values are dropped. -/
abbrev Watch := Target.Call → Run Result → Run Result

/-- What running code may use: a bound on the rounds of a loop, the means to call a value, the means
to enter a definition, and a watch on the calls whose values are dropped. -/
structure Machine where
  bound : Nat
  call : Caller
  enter : Closure → List Value → Run Flow
  watch : Watch

inductive Signal where
  | next
  | leave
  | done (flow : Flow)
  deriving Repr, DecidableEq

namespace Machine

/-! ## Variables -/

/-- What a variable holds in the innermost of some enclosing frames that has it. -/
def lookupOuter (x : String) : List Nat → Run Slot
  | [] => Run.trap (.undefinedName x)
  | frame :: frames => do
    match ← Run.slot? frame x with
    | some .unset => Run.trap (.unbound x)
    | some content => return content
    | none => lookupOuter x frames

def lookup (x : String) : List Nat → Run Slot
  | [] => Run.trap (.undefinedName x)
  | frame :: frames => do
    match ← Run.slot? frame x with
    | some .unset => Run.trap (.unassigned x)
    | some content => return content
    | none => lookupOuter x frames

def readVar (env : Env) (x : String) : Run Value := do
  match ← lookup x env.frames with
  | .value v => return v
  | .flow _ | .iteration _ | .unset => return .nil

def assignHolder (x : String) (content : Slot) : List Nat → Run Unit
  | [] => Run.trap (.unbound x)
  | frame :: frames => do
    match ← Run.slot? frame x with
    | some _ => Run.putSlot frame x content
    | none => assignHolder x content frames

def assign (env : Env) (x : String) (v : Value) : Run Unit :=
  assignHolder x (.value v) env.frames

def assignAll (env : Env) : List String → List Value → Run Unit
  | x :: xs, v :: vs => do
    assign env x v
    assignAll env xs vs
  | _, _ => return ()

/-! ## Expressions -/

/-- The last component of a tuple with nothing in front of it: the value itself is taken apart. -/
def lastOf : Value → Run Value
  | .table id => Run.getRaw id (.int (-1))
  | .string s =>
    match s.toList.getLast? with
    | some c => return .string c.toString
    | none => Run.trap .emptyText
  | v => Run.trap (.notSubscriptable v.kindName)

mutual

def evalExpr (m : Machine) (env : Env) : Target.Expr → Run Value
  | .null => return .nil
  | .bool b => return .bool b
  | .number (.float x) =>
    -- A literal that is no number would be written as a name, which no module has.
    if Binary64.isNaN x then Run.trap (.undefinedName "nan") else return .number (.float x)
  | .number n => return .number n
  | .infinity => return .number (.float Binary64.infinity)
  | .string s => return .string s
  | .var x => readVar env x
  | .global x => Run.getRaw env.globals (.string x)
  | .firstVararg => return env.varargs.headD .nil
  | .table items tail => do
    let entries ← evalItems m env items
    let tail ← evalTail m env tail
    Access.makeTable entries tail
  | .binary op left right => do
    let a ← evalExpr m env left
    let b ← evalExpr m env right
    Run.lift (Operator.binary op a b)
  | .andThen temp left right => do
    let a ← evalExpr m env left
    assign env temp a
    if a.truthy then evalExpr m env right else return a
  | .orElse temp left right => do
    let a ← evalExpr m env left
    assign env temp a
    if a.truthy then return a else evalExpr m env right
  | .negation operand => do
    let a ← evalExpr m env operand
    return .bool !a.truthy
  | .length operand => do
    let a ← evalExpr m env operand
    Access.length a
  | .minus operand => do
    let a ← evalExpr m env operand
    Run.lift (Operator.neg a)
  | .first call => do
    let r ← evalCall m env call
    return r.first
  | .index object key => do
    let o ← evalExpr m env object
    let k ← evalExpr m env key
    Access.index m.call o k
  | .last [] value => do
    let v ← evalExpr m env value
    lastOf v
  | .last parts value => do
    evalParts m env parts
    evalExpr m env value

def evalCall (m : Machine) (env : Env) : Target.Call → Run Result
  | .call callee args tail => do
    let f ← evalExpr m env callee
    let args ← evalExprs m env args
    let tail ← evalTail m env tail
    m.call f (args ++ tail)
  | .invoke object member args tail => do
    let o ← evalExpr m env object
    let args ← evalExprs m env args
    let tail ← evalTail m env tail
    Access.invoke m.call o member (args ++ tail)
  | .varargs => return .many env.varargs
  | .single value => do
    let v ← evalExpr m env value
    return .one v

def evalExprs (m : Machine) (env : Env) : List Target.Expr → Run (List Value)
  | [] => return []
  | e :: es => do
    let v ← evalExpr m env e
    let vs ← evalExprs m env es
    return v :: vs

def evalTail (m : Machine) (env : Env) : Option Target.Tail → Run (List Value)
  | none => return []
  | some .varargs => return env.varargs
  | some (.expand call) => do
    let r ← evalCall m env call
    return r.toList

def evalParts (m : Machine) (env : Env) : List Target.Part → Run Unit
  | [] => return ()
  | .run call :: parts => do
    let _ ← m.watch call (evalCall m env call)
    evalParts m env parts
  | .bind x value :: parts => do
    let v ← evalExpr m env value
    assign env x v
    evalParts m env parts

def evalItems (m : Machine) (env : Env) : List Target.Item → Run (List Access.Entry)
  | [] => return []
  | .keyed key value :: items => do
    let k ← evalExpr m env key
    let v ← evalExpr m env value
    let rest ← evalItems m env items
    return .keyed k v :: rest
  | .positional value :: items => do
    let v ← evalExpr m env value
    let rest ← evalItems m env items
    return .positional v :: rest

end

def evalList (m : Machine) (env : Env) (args : List Target.Expr) (tail : Option Target.Tail) :
    Run (List Value) := do
  let vs ← evalExprs m env args
  let rest ← evalTail m env tail
  return vs ++ rest

def evalCond (m : Machine) (env : Env) : Target.Cond → Run Bool
  | .truthy value => do
    let v ← evalExpr m env value
    return v.truthy
  | .plain value => do
    let v ← evalExpr m env value
    return v.truthy

def evalAnswer (m : Machine) (env : Env) : Target.Answer → Run Result
  | .call value => evalCall m env value
  | .pack args tail => do
    let vs ← evalList m env args tail
    return .pack vs

/-! ## Loops -/

/-- Repeats a round until it answers how to go on, at most a number of times. -/
def rounds (round : Run (Option Signal)) : Nat → Run Signal
  | 0 => Run.exhausted
  | n + 1 => do
    match ← round with
    | some signal => return signal
    | none => rounds round n

/-- How a loop goes on after its body: with the next round, or behind the loop. -/
def afterBody : Signal → Option Signal
  | .next => none
  | .leave => some .next
  | .done flow => some (.done flow)

def counting (p : Operator.Progression) (body : Number → Run Signal) :
    (rounds : Nat) → Number → Run Signal
  | 0, _ => Run.exhausted
  | n + 1, value => do
    if p.within value then
      match afterBody (← body value) with
      | some signal => return signal
      | none =>
        let value ← Run.lift (Operator.advance value p.step)
        counting p body n value
    else return .next

/-- What drives a loop over an iterator: the function, its state and the control value. -/
structure Iterator where
  function : Value
  state : Value
  control : Value
  deriving Repr, DecidableEq

def Iterator.ofValues : List Value → Run Iterator
  | [] => Run.trap (.arity (.missing "iterate" ["function"]))
  | f :: rest => return ⟨f, rest.getD 0 .nil, rest.getD 1 .nil⟩

/-- Runs a body for the values of each call of an iterator, until the first of them is nil. -/
def iterating (call : Caller) (it : Iterator) (count : Nat) (body : List Value → Run Signal) :
    (rounds : Nat) → Value → Run Signal
  | 0, _ => Run.exhausted
  | n + 1, control => do
    let values := (← call it.function [it.state, control]).toList
    match values with
    | [] => return .next
    | v :: _ =>
      if v.isNil then return .next
      else match afterBody (← body (adjust count values)) with
        | some signal => return signal
        | none => iterating call it count body n v

/-! ## Statements -/

def define (env : Env) (d : Target.Def) : Run Unit :=
  match d with
  | .mk name _ .none _ _ => assignHolder name (.iteration (.make d env)) env.frames
  | .mk name .. => do
    let id ← Run.newClosure (.make d env)
    assign env name (.function (.closure id))

def readVars (env : Env) : List String → Run (List Value)
  | [] => return []
  | x :: xs => do
    let v ← readVar env x
    let vs ← readVars env xs
    return v :: vs

/-- Runs one iteration that is a definition of its own, and keeps how it ended. -/
def runIteration (m : Machine) (env : Env) (flow function : String) (args : List String) :
    Run Unit := do
  match ← lookup function env.frames with
  | .iteration c =>
    let vs ← readVars env args
    let f ← m.enter c vs
    assignHolder flow (.flow f) env.frames
  | .value v => Run.complain (.call v.typeName)
  | .flow _ | .unset => Run.complain (.call Value.nil.typeName)

def readFlow (env : Env) (flow : String) : Run Flow := do
  match ← lookup flow env.frames with
  | .flow f => return f
  | .value _ | .iteration _ | .unset => return .next

mutual

def execStmt (m : Machine) (env : Env) : Target.Stmt → Run Signal
  | .assignNull names => do
    assignAll env names (names.map fun _ => .nil)
    return .next
  | .assign x value => do
    let v ← evalExpr m env value
    assign env x v
    return .next
  | .assignTuple names values => do
    let vs ← evalExprs m env values
    assignAll env names vs
    return .next
  | .assignAdjusted names args tail => do
    let vs ← evalList m env args tail
    assignAll env names (adjust names.length vs)
    return .next
  | .setGlobal x value => do
    let v ← evalExpr m env value
    Run.setRaw env.globals (.string x) v
    return .next
  | .setIndex object key value => do
    let o ← evalExpr m env object
    let k ← evalExpr m env key
    let v ← evalExpr m env value
    Access.setIndex o k v
    return .next
  | .run call => do
    let _ ← m.watch call (evalCall m env call)
    return .next
  | .ifElse condition body otherwise => do
    if ← evalCond m env condition then execStmts m env body
    else execOrElse m env otherwise
  | .whileLoop condition body =>
    rounds (do
      if ← evalCond m env condition then return afterBody (← execStmts m env body)
      else return some .next) m.bound
  | .forever body => rounds (do return afterBody (← execStmts m env body)) m.bound
  | .forRange x start stop step body => do
    let start ← evalExpr m env start
    let stop ← evalExpr m env stop
    let step ← match step with
      | none => pure (.int 1)
      | some e => evalExpr m env e
    let p ← Run.lift (Operator.Progression.make start stop step)
    counting p (fun value => do
      assign env x (.number value)
      execStmts m env body) m.bound p.start
  | .forEach names args tail body => do
    let vs ← evalList m env args tail
    let it ← Iterator.ofValues vs
    iterating m.call it names.length (fun values => do
      assignAll env names values
      execStmts m env body) m.bound it.control
  | .define d => do
    define env d
    return .next
  | .iterate flow function args => do
    runIteration m env flow function args
    return .next
  | .breakOn flow => do
    match ← readFlow env flow with
    | .leave => return .leave
    | _ => return .next
  | .returnOn flow _ => do
    match ← readFlow env flow with
    | .next => return .next
    | f => return .done f
  | .answer _ value => do
    let r ← evalAnswer m env value
    return .done (.result r)
  | .answerBreak => return .done .leave
  | .breakLoop => return .leave
  | .pass => return .next

def execOrElse (m : Machine) (env : Env) : Target.OrElse → Run Signal
  | .none => return .next
  | .elseIf condition body otherwise => do
    if ← evalCond m env condition then execStmts m env body
    else execOrElse m env otherwise
  | .otherwise body => execStmts m env body

def execStmts (m : Machine) (env : Env) : List Target.Stmt → Run Signal
  | [] => return .next
  | s :: ss => do
    match ← execStmt m env s with
    | .next => execStmts m env ss
    | signal => return signal

end

/-! ## Definitions and calls -/

/-- Parameters bound to arguments; parameters without argument are nil. -/
def bindParams : List String → List Value → Frame
  | [], _ => []
  | x :: xs, [] => (x, .value .nil) :: bindParams xs []
  | x :: xs, v :: vs => (x, .value v) :: bindParams xs vs

def varargsOf (rest : Target.Rest) (outer : List Value) (extra : List Value) : List Value :=
  match rest with
  | .varargs => extra
  | .ignored | .none => outer

def runDefinition (m : Machine) (c : Closure) (args : List Value) : Run Flow :=
  match c.code with
  | .mk _ params rest _ body => do
    let frame ← Run.newFrame (bindParams params args ++ c.own.map (·, .unset))
    let varargs := varargsOf rest c.env.varargs (args.drop params.length)
    let env := { c.env with varargs, frames := frame :: c.env.frames }
    match ← execStmts m env body with
    | .done flow => return flow
    | .next | .leave => return .next

def resultOf : Flow → Result
  | .result r => r
  | .next | .leave => .one .nil

mutual

def enterWithin (watch : Watch) : Nat → Closure → List Value → Run Flow
  | 0, _, _ => Run.exhausted
  | n + 1, c, args => runDefinition ⟨n, callWithin watch n, enterWithin watch n, watch⟩ c args

def callWithin (watch : Watch) : Nat → Value → List Value → Run Result
  | 0, _, _ => Run.exhausted
  | n + 1, .function (.closure id), args => do
    let c ← Run.closure id
    let flow ← enterWithin watch n c args
    return resultOf flow
  | n + 1, .function (.builtin b), args => Library.apply (callWithin watch n) b args
  | n + 1, .function (.predicate id), args =>
    Library.silent (Library.applyPredicate (callWithin watch n) id (args.headD .nil))
  | _ + 1, .function (.traversal id), args => do
    Library.checkArity Library.traversalSignature args
    Library.traversalStep id
  | _ + 1, v, _ => Run.complain (.call v.typeName)

end

def fuel : Nat := 1000000000

/-- The watch under which programs run: it leaves every call as it is. -/
def unwatched : Watch := fun _ call => call

def callValue (f : Value) (args : List Value) : Run Result :=
  callWithin unwatched fuel f args

section Equations

-- The equations of these functions are made here, so that the proofs that open them need not wait.
attribute [local simp] lookupOuter lookup assignHolder assignAll evalExpr evalCall evalExprs evalTail evalParts
  evalItems rounds counting iterating readVars execStmt execOrElse execStmts bindParams

end Equations

end Machine

end TypedLua
