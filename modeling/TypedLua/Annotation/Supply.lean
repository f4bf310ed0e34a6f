import TypedLua.Number

/-!
# Fresh names

A supply of names that do not occur in a given list: a stem followed by a number that counts up from
one and skips the names that are taken.
-/

namespace TypedLua

structure Supply where
  stem : String
  used : List String
  count : Nat
  deriving Repr, DecidableEq

namespace Supply

def new (stem : String) (used : List String) : Supply := ⟨stem, used, 0⟩

def nameAt (stem : String) (n : Nat) : String :=
  stem ++ String.ofList (Nat.toDigits 10 n)

/-- The first number from `n` on whose name is free, within a number of trials. -/
def search (stem : String) (used : List String) : (trials n : Nat) → Nat
  | 0, n => n
  | trials + 1, n =>
    if used.contains (nameAt stem n) then search stem used trials (n + 1) else n

def fresh (s : Supply) : String × Supply :=
  let n := search s.stem s.used (s.used.length + 1) (s.count + 1)
  (nameAt s.stem n, { s with count := n })

def freshMany : Nat → Supply → List String
  | 0, _ => []
  | n + 1, s => s.fresh.1 :: freshMany n s.fresh.2

end Supply

end TypedLua
