import TypedLua.Text.Composite
import TypedLua.Text.Folding
import TypedLua.Text.Mark

/-!
# The normal form of names

Two names that look alike may be written with different characters: a ligature or its letters, a
letter with an accent or the letter and a mark, marks in this order or that.
-/

namespace TypedLua.Text

/-! ## Syllables of Hangul -/

namespace Hangul

def syllable : Nat := 0xac00

def leading : Nat := 0x1100

def vowel : Nat := 0x1161

/-- The code point in front of the first of 27 trailing consonants. -/
def trailing : Nat := 0x11a7

def parts? (n : Nat) : Option (List Nat) :=
  if syllable ≤ n && n < syllable + 19 * 21 * 28 then
    let i := n - syllable
    let front := [leading + i / 28 / 21, vowel + i / 28 % 21]
    some (if i % 28 = 0 then front else front ++ [trailing + i % 28])
  else none

/-- A leading consonant and a vowel, or a syllable without trailing consonant and one, joined. -/
def join? (a b : Nat) : Option Nat :=
  if leading ≤ a && a < leading + 19 && vowel ≤ b && b < vowel + 21 then
    some (syllable + ((a - leading) * 21 + (b - vowel)) * 28)
  else if syllable ≤ a && a < syllable + 19 * 21 * 28 && (a - syllable) % 28 = 0
      && trailing < b && b < trailing + 28 then
    some (a + (b - trailing))
  else none

end Hangul

/-! ## Taking apart and joining -/

/-- The parts of a code point: of a syllable, of a composite, or of what it stands for. -/
def partsOf (n : Nat) : List Nat :=
  ((Hangul.parts? n).orElse fun _ => (formIn? composites n).orElse fun _ =>
    formIn? foldings n).getD [n]

def decompose (c : Char) : List Char :=
  if c.toNat < 128 then [c] else (partsOf c.toNat).map Char.ofNat

def compose? (a b : Char) : Option Char :=
  ((Hangul.join? a.toNat b.toNat).orElse fun _ =>
    withForm? composites (partsOf a.toNat ++ [b.toNat])).map Char.ofNat

/-- Puts a mark in front of ordered characters, behind the marks of lower classes. -/
def insertMark (c : Char) : List Char → List Char
  | [] => [c]
  | d :: ds =>
    if 0 < markClass d && markClass d < markClass c then d :: insertMark c ds else c :: d :: ds

/-- The characters with the marks behind each letter in the order of their classes. -/
def orderMarks (cs : List Char) : List Char :=
  cs.foldr insertMark []

/-- The starter can be joined with a character that stands behind the given marks. -/
def isReached (between : List Char) (c : Char) : Bool :=
  match between.getLast? with
  | none => true
  | some mark => markClass mark < markClass c

/-- Joins what follows a starter, behind the marks that could not be joined with it. -/
def composeFrom (starter : Char) (between : List Char) : List Char → List Char
  | [] => starter :: between
  | c :: cs =>
    match if isReached between c then compose? starter c else none with
    | some joined => composeFrom joined between cs
    | none =>
      if markClass c = 0 then starter :: between ++ composeFrom c [] cs
      else composeFrom starter (between ++ [c]) cs

/-- Joins what forms composites; marks in front of the first starter stay. -/
def composeAll : List Char → List Char
  | [] => []
  | c :: cs => if markClass c = 0 then composeFrom c [] cs else c :: composeAll cs

def normal (s : String) : String :=
  if s.toList.all (·.toNat < 128) then s
  else String.ofList (composeAll (orderMarks (s.toList.flatMap decompose)))

theorem normal_of_ascii {s : String} (h : s.toList.all (·.toNat < 128) = true) : normal s = s := by
  simp only [normal, h, if_true]

end TypedLua.Text
