import TypedLua.Annotation.Check
import TypedLua.Annotation.Erase
import TypedLua.Annotation.Predicate
import TypedLua.Annotation.Scopes
import TypedLua.Syntax.Names

/-!
# Inserting checks

Annotations are turned into checks and disappear.
-/

namespace TypedLua.Instrument

structure State where
  names : Supply
  checks : Nat

abbrev Pass (α : Type) := StateT State (Except Malformed) α

structure Context where
  registry : String
  result : Option Expr
  scopes : Scopes Expr

namespace Context

def nested (ctx : Context) (bindings : List (String × Option Expr)) : Context :=
  { ctx with scopes := Scope.ofBindings bindings :: ctx.scopes }

def declaring (ctx : Context) (bindings : List (String × Option Expr)) : Context :=
  { ctx with scopes := ctx.scopes.declareAll bindings }

end Context

def predicate (ctx : Context) (type : Expr) : Pass Expr :=
  match Annotation.compileType ctx.registry [] type with
  | .ok p => pure p
  | .error e => throw e

def predicates (ctx : Context) : List Annotation → Pass (List (String × Expr))
  | [] => return []
  | .mk name type :: types => do
    let p ← predicate ctx type
    let ps ← predicates ctx types
    return (name, p) :: ps

def predicate? (ctx : Context) : Option Expr → Pass (Option Expr)
  | none => return none
  | some type => some <$> predicate ctx type

def guard (p term : Expr) : Pass Expr := do
  let s ← get
  let (e, names) := Check.asExpression s.names p term
  set (State.mk names (s.checks + 1))
  return e

/-- Checks on entry to a function, one for each annotated parameter. -/
def entryChecks (loc : Loc) (ps : List (String × Expr)) : Pass (List Stmt) := do
  modify fun s => { s with checks := s.checks + ps.length }
  return ps.map fun (name, p) => Check.asStatement p (.name loc name)

/-- The values, lengthened by nils if need be, with the one at an index checked. -/
def guardAt (p : Expr) (loc : Loc) (index : Nat) (values : List Expr) : Pass (List Expr) := do
  let padded := values ++ List.replicate (index + 1 - values.length) (.nil loc)
  match padded[index]? with
  | some value =>
    let checked ← guard p value
    return padded.set index checked
  | none => return padded

/-- Checks the initial values of annotated locals, from an index on. -/
def guardLocals (known : Scope Expr) : (index : Nat) → List String → List Expr → Pass (List Expr)
  | _, [], values => return values
  | index, name :: names, values => do
    match (List.lookup name known).join with
    | some p =>
      if index < values.length then
        guardLocals known (index + 1) names (← guardAt p none index values)
      else guardLocals known (index + 1) names values
    | none => guardLocals known (index + 1) names values

/-- Checks the values assigned to annotated names, from an index on. -/
def guardTargets (ctx : Context) : (index : Nat) → List Expr → List Expr → Pass (List Expr)
  | _, [], values => return values
  | index, .name loc x :: targets, values => do
    match ctx.scopes.lookup x with
    | some p => guardTargets ctx (index + 1) targets (← guardAt p loc index values)
    | none => guardTargets ctx (index + 1) targets values
  | index, _ :: targets, values => guardTargets ctx (index + 1) targets values

mutual

def expr (ctx : Context) : Expr → Pass Expr
  | .nil loc => return .nil loc
  | .bool loc b => return .bool loc b
  | .number loc n => return .number loc n
  | .string loc s => return .string loc s
  | .vararg loc => return .vararg loc
  | .name loc x => return .name loc x
  | .function f => do
    let f ← function ctx f
    return .function f
  | .signature loc params body => return .signature loc params body
  | .table loc fields => do
    let fields ← tableFields ctx fields
    return .table loc fields
  | .binary loc left op right => do
    let left ← expr ctx left
    let right ← expr ctx right
    return .binary loc left op right
  | .unary loc op operand => do
    let operand ← expr ctx operand
    return .unary loc op operand
  | .call loc callee args => do
    let callee ← expr ctx callee
    let args ← exprs ctx args
    return .call loc callee args
  | .method loc object member args => do
    let object ← expr ctx object
    let args ← exprs ctx args
    return .method loc object member args
  | .index loc object key => do
    let object ← expr ctx object
    let key ← expr ctx key
    return .index loc object key
  | .paren loc inner => do
    let inner ← expr ctx inner
    return .paren loc inner
  | .block loc ss value => do
    let (ss, inside) ← stmts (ctx.nested []) ss
    let value ← expr inside value
    return .block loc ss value

def exprs (ctx : Context) : List Expr → Pass (List Expr)
  | [] => return []
  | e :: es => do
    let e ← expr ctx e
    let es ← exprs ctx es
    return e :: es

def exprOption (ctx : Context) : Option Expr → Pass (Option Expr)
  | none => return none
  | some e => do
    let e ← expr ctx e
    return some e

/-- Table entries with checks; the value of an entry comes before its key. -/
def tableFields (ctx : Context) : List Field → Pass (List Field)
  | [] => return []
  | .mk loc key value :: fields => do
    let value ← expr ctx value
    let key ← exprOption ctx key
    let fields ← tableFields ctx fields
    return .mk loc key value :: fields

def function (ctx : Context) : Function → Pass Function
  | .mk loc params isVararg (.mk bodyLoc body) paramTypes returnType label => do
    let ps ← predicates ctx paramTypes
    let result ← predicate? ctx returnType
    let bindings := params.map (·, none) ++ ps.map fun (name, p) => (name, some p)
    let (body, _) ← stmts { ctx.nested bindings with result } body
    let entry ← entryChecks loc ps
    return .mk loc params isVararg (.mk bodyLoc (entry ++ body)) [] none label

def block (ctx : Context) : Block → Pass Block
  | .mk loc ss => do
    let (ss, _) ← stmts (ctx.nested []) ss
    return .mk loc ss

def blockOption (ctx : Context) : Option Block → Pass (Option Block)
  | none => return none
  | some b => do
    let b ← block ctx b
    return some b

def clauses (ctx : Context) : List Clause → Pass (List Clause)
  | [] => return []
  | .mk condition body :: rest => do
    let condition ← expr ctx condition
    let body ← block ctx body
    let rest ← clauses ctx rest
    return .mk condition body :: rest

def stmts (ctx : Context) : List Stmt → Pass (List Stmt × Context)
  | [] => return ([], ctx)
  | s :: ss => do
    let (s, ctx) ← stmt ctx s
    let (ss, ctx) ← stmts ctx ss
    return (s :: ss, ctx)

def stmt (ctx : Context) : Stmt → Pass (Stmt × Context)
  | .localVars loc names values types => do
    let values ← exprs ctx values
    let ps ← predicates ctx types
    let known := Scope.ofBindings (names.map (·, none) ++ ps.map fun (name, p) => (name, some p))
    let values ← guardLocals known 0 names values
    return (.localVars loc names values [], ctx.declaring known)
  | .localFunction loc name f => do
    let ctx := ctx.declaring [(name, none)]
    let f ← function ctx f
    return (.localFunction loc name f, ctx)
  | .assign loc targets values => do
    let targets ← exprs ctx targets
    let values ← exprs ctx values
    let values ← guardTargets ctx 0 targets values
    return (.assign loc targets values, ctx)
  | .expr loc e => do
    let e ← expr ctx e
    return (.expr loc e, ctx)
  | .scope loc body => do
    let body ← block ctx body
    return (.scope loc body, ctx)
  | .whileLoop loc condition body => do
    let condition ← expr ctx condition
    let body ← block ctx body
    return (.whileLoop loc condition body, ctx)
  | .repeatLoop loc (.mk bodyLoc body) condition => do
    let (body, inside) ← stmts (ctx.nested []) body
    let condition ← expr inside condition
    return (.repeatLoop loc (.mk bodyLoc body) condition, ctx)
  | .ifElse loc condition body rest otherwise => do
    let condition ← expr ctx condition
    let body ← block ctx body
    let rest ← clauses ctx rest
    let otherwise ← blockOption ctx otherwise
    return (.ifElse loc condition body rest otherwise, ctx)
  | .numericFor loc counter start stop step body => do
    let start ← expr ctx start
    let stop ← expr ctx stop
    let step ← exprOption ctx step
    let body ← block (ctx.nested [(counter, none)]) body
    return (.numericFor loc counter start stop step body, ctx)
  | .genericFor loc names iterators body => do
    let iterators ← exprs ctx iterators
    let body ← block (ctx.nested (names.map (·, none))) body
    return (.genericFor loc names iterators body, ctx)
  | .returnValues loc values => do
    let values ← exprs ctx values
    match ctx.result with
    | some p => return (.returnValues loc (← guardAt p loc 0 values), ctx)
    | none => return (.returnValues loc values, ctx)
  | .breakLoop loc => return (.breakLoop loc, ctx)

end

def chunk (registry stem : String) (c : Chunk) : Except Malformed (Chunk × Nat) :=
  match block ⟨registry, none, []⟩ c.body ⟨.new stem c.names, 0⟩ with
  | .ok (body, state) => .ok ({ c with body }, state.checks)
  | .error e => .error e

end TypedLua.Instrument

namespace TypedLua

/-- A chunk as it goes to code generation: with checks if they are on, and without annotations. -/
def Chunk.prepare (typecheck : Bool) (registry stem : String) (c : Chunk) :
    Except Malformed (Chunk × Nat) :=
  if typecheck then Instrument.chunk registry stem c else .ok (c.erase, 0)

end TypedLua
