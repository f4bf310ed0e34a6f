import TypedLua.Association
import TypedLua.Syntax

/-!
# Scopes

A stack of scopes, innermost first.
-/

namespace TypedLua

abbrev Scope (α : Type) := List (String × Option α)

namespace Scope

variable {α : Type}

def declare (name : String) (known : Option α) (scope : Scope α) : Scope α :=
  Association.put name known scope

def declareAll (bindings : List (String × Option α)) (scope : Scope α) : Scope α :=
  bindings.foldl (fun s (name, known) => s.declare name known) scope

def ofBindings (bindings : List (String × Option α)) : Scope α :=
  declareAll bindings []

end Scope

abbrev Scopes (α : Type) := List (Scope α)

namespace Scopes

variable {α : Type}

/-- What is known of a name in the innermost scope that declares it. -/
def lookup (name : String) : Scopes α → Option α
  | [] => none
  | scope :: rest =>
    match List.lookup name scope with
    | some known => known
    | none => lookup name rest

def declare? (name : String) (known : Option α) : Scopes α → Option (Scopes α)
  | [] => none
  | scope :: rest => some (scope.declare name known :: rest)

/-- Declares names in the innermost scope; one is opened if there is none. -/
def declareAll (bindings : List (String × Option α)) : Scopes α → Scopes α
  | [] => [Scope.ofBindings bindings]
  | scope :: rest => scope.declareAll bindings :: rest

end Scopes

end TypedLua
