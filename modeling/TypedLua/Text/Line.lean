import TypedLua.Text.Range

/-!
# Lines of free text

Free text breaks at more characters than the line feed: carriage return (alone or before a line
feed), the vertical tabulator and form feed, the three upper information separators, the next-line
control and the two Unicode separators.
-/

namespace TypedLua.Text

def breakRanges : List (Nat × Nat) := [
  (0xa, 0xc), (0x1c, 0x1e), (0x85, 0x85), (0x2028, 0x2029)]

/-- The lines of a text, where `line` is the one being read, last character first. -/
def linesFrom (line : List Char) : List Char → List (List Char)
  | [] => if line.isEmpty then [] else [line.reverse]
  | '\r' :: '\n' :: cs => line.reverse :: linesFrom [] cs
  | c :: cs =>
    if c == '\r' || inRanges breakRanges c then line.reverse :: linesFrom [] cs
    else linesFrom (c :: line) cs

def lines (cs : List Char) : List (List Char) :=
  linesFrom [] cs

/-- A text in which every carriage return, alone or before a line feed, became a line feed. -/
def unifyBreaks : List Char → List Char
  | [] => []
  | '\r' :: '\n' :: cs => '\n' :: unifyBreaks cs
  | '\r' :: cs => '\n' :: unifyBreaks cs
  | c :: cs => c :: unifyBreaks cs

theorem not_mem_unifyBreaks (cs : List Char) : '\r' ∉ unifyBreaks cs := by
  fun_induction unifyBreaks cs with
  | case1 => simp
  | case2 cs ih => simp [ih]
  | case3 cs _ ih => simp [ih]
  | case4 c cs _ h ih => simp [ih, Ne.symm h]

/-- A text in which every carriage return before a line feed is dropped. -/
def joinBreaks : List Char → List Char
  | [] => []
  | '\r' :: '\n' :: cs => '\n' :: joinBreaks cs
  | c :: cs => c :: joinBreaks cs

end TypedLua.Text
