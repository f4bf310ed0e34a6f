import TypedLua.Annotation.Supply
import TypedLua.Syntax

/-!
# Checks

A check applies a predicate to a term.
-/

namespace TypedLua.Check

def callStatement (loc : Loc) (predicate term : Expr) (callLoc : Loc) : Stmt :=
  .expr loc (.call callLoc predicate [term])

def asStatement (predicate term : Expr) : Stmt :=
  callStatement term.loc predicate term term.loc

def yieldTrivial (predicate term : Expr) : Expr :=
  .block term.loc [callStatement none predicate term term.loc] term

def yieldBound (temporary : String) (predicate term : Expr) : Expr :=
  let bound := Expr.name term.loc temporary
  .block term.loc
    [.localVars term.loc [temporary] [term] [], callStatement none predicate bound term.loc] bound

/-- A check that yields its term; a fresh name is taken only if one is needed. -/
def asExpression (names : Supply) (predicate term : Expr) : Expr × Supply :=
  if term.isTrivial then (yieldTrivial predicate term, names)
  else
    let (temporary, rest) := names.fresh
    (yieldBound temporary predicate term, rest)

inductive Place where
  | statement | expression
  deriving Repr, DecidableEq

inductive Built where
  | stmt (s : Stmt)
  | expr (e : Expr)

/-- The message if a check needs a fresh name and there is no supply of names. -/
def supplyRequired : String :=
  "a NameGenerator is required to check a non-trivial term"

def build? (names : Option Supply) (place : Place) (predicate term : Expr) :
    Option (Built × Option Supply) :=
  match place with
  | .statement => some (.stmt (asStatement predicate term), names)
  | .expression =>
    match names with
    | some supply =>
      let (e, rest) := asExpression supply predicate term
      some (.expr e, some rest)
    | none => if term.isTrivial then some (.expr (yieldTrivial predicate term), none) else none

end TypedLua.Check
