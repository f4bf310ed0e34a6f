import TypedLua.Table

/-!
# Predicates

A predicate is a type at run time: what it tests, and the description that messages show.
-/

namespace TypedLua

inductive Test where
  | any | nil | number | integer | string | boolean | table | function
  | literal (expected : Value)
  | shape (items : List Value) (fields : List (Key × Value))
  | union (left right : Value)
  | intersection (left right : Value)
  | complement (inner : Value)
  deriving Repr, DecidableEq

structure Predicate where
  description : String
  test : Test
  deriving Repr, DecidableEq

instance : Inhabited Predicate := ⟨"any", .any⟩

end TypedLua
