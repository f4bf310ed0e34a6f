import TypedLua.Text.Digit

/-!
# Format directives

A format is text with directives.
-/

namespace TypedLua.Library

inductive Conversion where
  | decimal | octal | hex | hexUpper
  | scientific | scientificUpper | fixed | general | generalUpper
  | quoted | text | char | binaryExact | percent
  deriving Repr, DecidableEq

def Conversion.ofLetter? : Char → Option Conversion
  | 'd' | 'i' | 'u' => some decimal
  | 'o' => some octal
  | 'x' => some hex
  | 'X' => some hexUpper
  | 'e' => some scientific
  | 'E' => some scientificUpper
  | 'f' => some fixed
  | 'g' => some general
  | 'G' => some generalUpper
  | 'q' => some quoted
  | 's' => some text
  | 'c' => some char
  | 'a' => some binaryExact
  | '%' => some percent
  | _ => none

structure Directive where
  flags : List Char
  width : List Char
  precision : Option (List Char)
  conversion : Conversion
  deriving Repr, DecidableEq

inductive FormatPiece where
  | literal (c : Char)
  | directive (d : Directive)
  deriving Repr, DecidableEq

def isFlag (c : Char) : Bool :=
  c == '-' || c == '+' || c == ' ' || c == '#' || c == '0'

def readPrecision : List Char → Option (List Char) × List Char
  | '.' :: cs =>
    let digits := cs.takeWhile Text.isDecimal
    if digits.isEmpty then (none, '.' :: cs) else (some digits, cs.dropWhile Text.isDecimal)
  | cs => (none, cs)

/-- The directive behind a percent sign, if one is there, and the rest. -/
def readDirective (cs : List Char) : Option (Directive × List Char) :=
  let flags := cs.takeWhile isFlag
  let afterFlags := cs.dropWhile isFlag
  let width := afterFlags.takeWhile Text.isDecimal
  let (precision, rest) := readPrecision (afterFlags.dropWhile Text.isDecimal)
  match rest with
  | [] => none
  | letter :: rest =>
    (Conversion.ofLetter? letter).map fun conversion => (⟨flags, width, precision, conversion⟩, rest)

theorem length_dropWhile_le (p : Char → Bool) (cs : List Char) :
    (cs.dropWhile p).length ≤ cs.length :=
  (List.dropWhile_sublist p).length_le

theorem length_readPrecision_le (cs : List Char) : (readPrecision cs).2.length ≤ cs.length := by
  unfold readPrecision
  split
  · rename_i cs
    dsimp only
    split
    · exact Nat.le_refl _
    · have := length_dropWhile_le Text.isDecimal cs
      simp only [List.length_cons]; omega
  · exact Nat.le_refl _

theorem length_readDirective_lt {cs rest : List Char} {d : Directive}
    (h : readDirective cs = some (d, rest)) : rest.length < cs.length := by
  have h1 := length_dropWhile_le isFlag cs
  have h2 := length_dropWhile_le Text.isDecimal (cs.dropWhile isFlag)
  have h3 := length_readPrecision_le ((cs.dropWhile isFlag).dropWhile Text.isDecimal)
  simp only [readDirective] at h
  split at h
  · simp at h
  · rename_i letter rest' heq
    obtain ⟨c, _, hc⟩ := Option.map_eq_some_iff.1 h
    cases hc
    rw [heq] at h3
    simp only [List.length_cons] at h3
    omega

def formatPieces (cs : List Char) : List FormatPiece :=
  match cs with
  | [] => []
  | c :: cs =>
    if c = '%' then
      match h : readDirective cs with
      | some (d, rest) =>
        have : rest.length < cs.length := length_readDirective_lt h
        .directive d :: formatPieces rest
      | none => .literal c :: formatPieces cs
    else .literal c :: formatPieces cs
termination_by cs.length

end TypedLua.Library
