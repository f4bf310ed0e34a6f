import TypedLua.Compilation

/-!
# Diagnostics

A diagnostic shows a problem of a document in an editor.
-/

namespace TypedLua

structure Place where
  line : Nat
  character : Nat
  deriving Repr, DecidableEq

inductive Severity where
  | error | warning
  deriving Repr, DecidableEq

def Severity.level : Severity → Nat
  | error => 1
  | warning => 2

structure Diagnostic where
  start : Place
  stop : Place
  message : String
  severity : Severity := .error
  deriving Repr, DecidableEq

namespace Diagnostic

def source : String :=
  "luatypes"

def endsWord (c : Char) : Bool :=
  Text.isBlank c || "()[]\x7b\x7d,:;".contains c

def extent (line : List Char) (character : Nat) : Nat :=
  max 1 ((line.drop character).takeWhile (!endsWord ·)).length

def startOf (p : Problem) : Place :=
  match p.loc with
  | none => ⟨0, 0⟩
  | some position => ⟨position.line - 1, position.column - 1⟩

def ofProblem (p : Problem) : Diagnostic :=
  let start := startOf p
  { start
    stop := { start with character := start.character + extent p.line.toList start.character }
    message := p.message }

end Diagnostic

def diagnose (config : Config) (name source : String) :
    Except Compilation.Interruption (List Diagnostic) := do
  let c ← compile config name true source
  return c.problem.toList.map .ofProblem

end TypedLua
