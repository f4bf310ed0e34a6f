/-!
# Code points

A text of a program is a sequence of code points, and a program can make every one of them, also the
surrogates, which are no characters.
-/

namespace TypedLua.Text

def firstSurrogate : Nat := 0xd800

def surrogates : Nat := 0x800

/-- The character that stands for the first surrogate; those of the other ones follow. -/
def firstStandIn : Nat := 0xe0800

def isStandIn (c : Char) : Bool :=
  decide (firstStandIn ≤ c.toNat ∧ c.toNat < firstStandIn + surrogates)

def codePoint (c : Char) : Nat :=
  if isStandIn c then c.toNat - firstStandIn + firstSurrogate else c.toNat

def ofCodePoint (n : Nat) : Char :=
  if firstSurrogate ≤ n ∧ n < firstSurrogate + surrogates then
    Char.ofNat (n - firstSurrogate + firstStandIn)
  else Char.ofNat n

@[simp] theorem ofCodePoint_codePoint (c : Char) : ofCodePoint (codePoint c) = c := by
  have valid : c.toNat < 0xd800 ∨ 0xdfff < c.toNat := c.valid.imp id And.left
  by_cases h : firstStandIn ≤ c.toNat ∧ c.toNat < firstStandIn + surrogates
  · have block := h
    simp only [firstStandIn, surrogates] at block
    rw [codePoint, isStandIn, decide_eq_true h, if_pos rfl, ofCodePoint,
      if_pos (by simp only [firstStandIn, firstSurrogate, surrogates]; omega),
      Nat.add_sub_cancel, Nat.sub_add_cancel h.1, Char.ofNat_toNat]
  · rw [codePoint, isStandIn, decide_eq_false h, if_neg Bool.false_ne_true, ofCodePoint,
      if_neg (by simp only [firstSurrogate, surrogates]; omega), Char.ofNat_toNat]

def codePoints (s : String) : List Nat :=
  s.toList.map codePoint

/-- A text comes before another one in the order of their code points. -/
def precedes (s t : String) : Bool :=
  decide (codePoints s < codePoints t)

structure SurrogateRun where
  position : Nat
  first : Char
  length : Nat
  deriving Repr, DecidableEq

def surrogateRun? (s : String) : Option SurrogateRun :=
  match s.toList.dropWhile (!isStandIn ·) with
  | [] => none
  | c :: rest => some
    { position := (s.toList.takeWhile (!isStandIn ·)).length
      first := c
      length := (rest.takeWhile isStandIn).length + 1 }

def SurrogateRun.message (run : SurrogateRun) : String :=
  let digits := String.ofList (Nat.toDigits 16 (codePoint run.first))
  let place :=
    if run.length = 1 then s!"character '\\u{digits}' in position {run.position}"
    else s!"characters in position {run.position}-{run.position + run.length - 1}"
  s!"'utf-8' codec can't encode {place}: surrogates not allowed"

end TypedLua.Text
