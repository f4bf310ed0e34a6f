/-!
# Tables of code points

A class of characters beyond ASCII is a list of ranges of code points, ends included.
-/

namespace TypedLua.Text

def digitValue (c : Char) : Nat :=
  if c.isDigit then c.toNat - '0'.toNat else c.toNat - 'a'.toNat + 10

def hexCodePoint (digits : String) : Nat :=
  digits.toList.foldl (fun n c => 16 * n + digitValue c) 0

def rangeOf (word : String) : Nat × Nat :=
  let ends := (word.splitOn "-").map hexCodePoint
  (ends.headD 0, ends.getLastD 0)

def tableWords (lines : List String) : List String :=
  lines.flatMap (·.splitOn " ")

def rangeTable (start : Nat) : List Nat → List (Nat × Nat)
  | gap :: length :: lengths =>
    (start + gap, start + gap + length - 1) :: rangeTable (start + gap + length) lengths
  | _ => []

/-- Lengths from lines in which short lengths, written as digits, and single long ones take turns. -/
def lengthsOf (lines : List String) : List Nat :=
  (tableWords lines).zipIdx.flatMap fun (word, i) =>
    if i % 2 = 0 then word.toList.map digitValue else [(word.toNat?).getD 0]

def inRanges (ranges : List (Nat × Nat)) (c : Char) : Bool :=
  ranges.any fun r => r.1 ≤ c.toNat && c.toNat ≤ r.2

theorem inRanges_iff {ranges : List (Nat × Nat)} {c : Char} :
    inRanges ranges c = true ↔ ∃ r ∈ ranges, r.1 ≤ c.toNat ∧ c.toNat ≤ r.2 := by
  simp [inRanges]

end TypedLua.Text
