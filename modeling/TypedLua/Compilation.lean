import TypedLua.Annotation.Instrument
import TypedLua.Config
import TypedLua.Problem
import TypedLua.Target.Render

/-!
# Compilation

Compiling a unit reads its tokens and its chunk, inserts checks or erases annotations, and generates
a module.
-/

namespace TypedLua

inductive Compilation.Stage where
  | lexing | parsing | instrumenting | generating
  deriving Repr, DecidableEq

inductive Compilation.Event where
  | lexing (file : String)
  | parsing (file : String) (tokens : Nat)
  | directive (on : Bool)
  | erasing
  | inserted (checks : Nat)
  | generating (file : String)
  | failed (stage : Compilation.Stage) (message : String)
  deriving Repr, DecidableEq

/-- A compilation that was interrupted, because a number and its text cannot be turned into each
other. -/
structure Compilation.Interruption where
  error : Number.TextError
  log : List Compilation.Event
  deriving Repr, DecidableEq

structure Compilation where
  file : String
  chunk : Option Chunk := none
  prepared : Option Chunk := none
  typecheck : Bool := true
  checks : Nat := 0
  module? : Option Target.Module := none
  code : String := ""
  problem : Option Problem := none
  log : List Compilation.Event

namespace Compilation

def success (c : Compilation) : Bool :=
  c.problem.isNone

def problemTexts (c : Compilation) : List String :=
  (c.problem.map (·.text c.file)).toList

def failure (c : Compilation) : String :=
  "; ".intercalate c.problemTexts

def summary (c : Compilation) : String :=
  let flag := if c.typecheck then "on" else "off"
  let outcome := if c.success then "True" else "False"
  let problems := match c.problem with
    | none => []
    | some p => ["  Errors: 1", "    - " ++ p.message]
  "\n".intercalate ([
    "Compilation Result:",
    "  Success: " ++ outcome,
    s!"  Type Checks: {flag} ({c.checks} inserted)"] ++ problems
    ++ [s!"  Generated Code: {c.code.length} characters"])

def start (file : String) : Compilation :=
  { file, log := [.lexing file] }

def note (event : Event) (c : Compilation) : Compilation :=
  { c with log := c.log ++ [event] }

def fail (stage : Stage) (p : Problem) (c : Compilation) : Compilation :=
  { c.note (.failed stage p.message) with problem := some p }

def interrupt (error : Number.TextError) (c : Compilation) : Except Interruption Compilation :=
  .error ⟨error, c.log⟩

def noteDirective : Option Bool → Compilation → Compilation
  | none, c => c
  | some on, c => c.note (.directive on)

def generating (config : Config) (prepared : Chunk) (c : Compilation) :
    Except Interruption Compilation :=
  let c := c.note (.generating c.file)
  match Target.generate prepared with
  | .error (.invalid cause loc) => .ok (c.fail .generating (.ofGenerate cause loc))
  | .error .unwritable => c.interrupt .unwritable
  | .ok m =>
    let header := if config.header then some c.file else none
    .ok { c with module? := some m, code := m.render 4 header }

def preparing (config : Config) (generate : Bool) (chunk : Chunk) (c : Compilation) :
    Except Interruption Compilation :=
  let typecheck := config.resolve chunk.typecheck
  let c := noteDirective chunk.typecheck { c with chunk := some chunk, typecheck }
  let c := if typecheck then c else c.note .erasing
  match chunk.prepare typecheck config.registry config.stem with
  | .error reason => .ok (c.fail .instrumenting (.ofMalformed reason))
  | .ok (prepared, checks) =>
    let c := if typecheck then c.note (.inserted checks) else c
    let c := { c with prepared := some prepared, checks }
    if generate then c.generating config prepared else .ok c

def parsing (config : Config) (generate : Bool) (source : List Char) (tokens : List Token)
    (c : Compilation) : Except Interruption Compilation :=
  let c := c.note (.parsing c.file tokens.length)
  match readChunk config.registry source tokens with
  | .error e => c.interrupt e
  | .ok (.error p) => .ok (c.fail .parsing p)
  | .ok (.ok chunk) => c.preparing config generate chunk

end Compilation

def compile (config : Config) (file : String) (generate : Bool) (source : String) :
    Except Compilation.Interruption Compilation :=
  let c := Compilation.start file
  match readTokens source.toList with
  | .error e => c.interrupt e
  | .ok (.error p) => .ok (c.fail .lexing p)
  | .ok (.ok tokens) => c.parsing config generate source.toList tokens

def compilationFailed (reason : String) : String :=
  "Compilation failed: " ++ reason

def Compilation.result (c : Compilation) : Except String String :=
  if c.success then .ok c.code else .error (compilationFailed c.failure)

end TypedLua
