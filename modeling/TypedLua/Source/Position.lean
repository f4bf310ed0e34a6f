/-!
# Positions in source text

A position counts lines and columns from one and characters from zero.
-/

namespace TypedLua

structure Position where
  line : Nat
  column : Nat
  offset : Nat
  deriving Repr, DecidableEq, Inhabited

namespace Position

def start : Position := ⟨1, 1, 0⟩

def step (p : Position) (c : Char) : Position :=
  if c = '\n' then ⟨p.line + 1, 1, p.offset + 1⟩ else ⟨p.line, p.column + 1, p.offset + 1⟩

def advance (p : Position) (cs : List Char) : Position :=
  cs.foldl step p

@[simp] theorem advance_nil (p : Position) : p.advance [] = p := rfl

@[simp] theorem advance_cons (p : Position) (c : Char) (cs : List Char) :
    p.advance (c :: cs) = (p.step c).advance cs := rfl

theorem advance_append (p : Position) (xs ys : List Char) :
    p.advance (xs ++ ys) = (p.advance xs).advance ys := by
  simp [advance, List.foldl_append]

theorem offset_step (p : Position) (c : Char) : (p.step c).offset = p.offset + 1 := by
  unfold step; split <;> rfl

theorem offset_advance (p : Position) (cs : List Char) :
    (p.advance cs).offset = p.offset + cs.length := by
  induction cs generalizing p with
  | nil => rfl
  | cons c cs ih => simp [ih, offset_step]; omega

theorem line_advance (p : Position) (text : List Char) : (p.advance text).line = p.line + text.count '\n' := by
  induction text generalizing p with
  | nil => rfl
  | cons c text ih =>
    rw [advance_cons, ih, step, List.count_cons]
    by_cases hc : c = '\n'
    · simp only [hc, if_true, beq_self_eq_true]
      omega
    · simp [hc]

def lineStart (p : Position) : Nat :=
  p.offset - (p.column - 1)

/-- The place as written in messages, with the name of the file if it has one. -/
def text (file : Option String) (p : Position) : String :=
  let place := s!"{p.line}:{p.column}"
  match file with
  | some name => if name.isEmpty then place else s!"{name}:{place}"
  | none => place

end Position

/-- The text of the line that starts at an offset: everything before the next line feed. -/
def lineFrom (source : List Char) (offset : Nat) : List Char :=
  (source.drop offset).takeWhile (· != '\n')

end TypedLua
