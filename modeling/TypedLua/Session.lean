import TypedLua.Compilation
import TypedLua.Environment

/-!
# Sessions

A session compiles and runs units one after the other against one table of globals, so that a later
unit sees what an earlier one defined.
-/

namespace TypedLua

/-- A table of globals, and the options under which units are compiled. -/
structure Session where
  config : Config
  globals : Nat
  channel : Nat
  deriving Repr, DecidableEq

namespace Session

def start (config : Config) (channel : Nat) : Run Session := do
  let globals ← Environment.newGlobals channel
  let registry ← Environment.newRegistry
  Run.setRaw globals (.string config.registry) (.table registry)
  return ⟨config, globals, channel⟩

def get (session : Session) (name : String) : Run Value :=
  Run.getRaw session.globals (.string name)

def set (session : Session) (name : String) (v : Value) : Run Unit :=
  Run.setRaw session.globals (.string name) v

/-- The module of a unit as a function of the session; `file` names the unit. -/
def load (session : Session) (file : String) (m : Target.Module) : Run Value := do
  match m.load file session.config.header with
  | .error e => Run.trap (.load e)
  | .ok m =>
    let env : Env := { globals := session.globals, varargs := [], frames := [] }
    return .function (.closure (← Run.newClosure (.make (.mk "chunk" [] .varargs [] m.body) env)))

def run (session : Session) (file : String) (m : Target.Module) (args : List Value) :
    Run Result := do
  let chunk ← session.load file m
  Machine.callValue chunk args

/-- The values of a module that was run; a single nil counts as none. -/
def valuesOf : Result → List Value
  | .one .nil => []
  | r => r.toList

def execute (session : Session) (file : String) (m : Target.Module) (args : List Value) :
    Run (List Value) := do
  return valuesOf (← session.run file m args)

end Session

end TypedLua
