import TypedLua.Library.Text

/-!
# Characters between two positions

The part of a text and the code points between two positions are taken from the same range.
-/

namespace TypedLua.Library

def selection (cs : List Char) (i j : Int) : List Char :=
  if (textRange cs.length i j).1 > (textRange cs.length i j).2 then []
  else slice cs ((textRange cs.length i j).1 - 1) (textRange cs.length i j).2

/-- Where the code points up to a position end: a position before the one in front of the text is moved
by the length of the text. -/
def byteEnd (size : Nat) (j : Int) : Int := if j < -(size + 1) then j + size else j

theorem one_le_textRange (size : Nat) (i j : Int) : 1 ≤ (textRange size i j).1 := by
  simp only [textRange]
  split
  · exact Int.le_max_right ..
  · split <;> omega

theorem slice_of_le (hstop : 0 ≤ stop) (h : stop ≤ start) : slice cs start stop = [] := by
  rw [slice, if_neg (Int.not_lt.2 hstop)]
  exact List.drop_eq_nil_of_le (Nat.le_trans (List.length_take_le ..) (Int.toNat_le_toNat h))

theorem slice_of_neg (hstop : stop < 0) : slice cs start stop = slice cs start (max (stop + cs.length) 0) := by
  rw [slice, slice, if_pos hstop, if_neg (Int.not_lt.2 (Int.le_max_right ..))]

theorem slice_textRange (cs : List Char) (i j : Int) :
    slice cs ((textRange cs.length i j).1 - 1) (textRange cs.length i j).2 =
      selection cs i (byteEnd cs.length j) := by
  have hstart := one_le_textRange cs.length i j
  rw [selection]
  by_cases hj : j < -(cs.length + 1)
  · have hrange : (textRange cs.length i j).2 = cs.length + j + 1 := by
      simp only [textRange]
      rw [if_pos (by omega)]
    have hmoved : (textRange cs.length i (j + cs.length)).2 = cs.length + (j + cs.length) + 1 := by
      simp only [textRange]
      rw [if_pos (by omega)]
    have hsame : (textRange cs.length i (j + cs.length)).1 = (textRange cs.length i j).1 := rfl
    rw [byteEnd, if_pos hj, hsame, hmoved, hrange, slice_of_neg (by omega)]
    split
    · exact slice_of_le (by omega) (by omega)
    · congr 1
      omega
  · rw [byteEnd, if_neg hj]
    split
    · -- the end is not in front of the text, so the cut is empty as well
      refine slice_of_le ?_ (by omega)
      simp only [textRange]
      split
      · omega
      · split <;> omega
    · rfl

theorem stringSub_run (s : String) (i j : Int) (st : Store) :
    stringSub (.string s) (some (.int i)) (some (.int j)) st =
      .ok (.string (String.ofList (selection s.toList i j))) st := by
  rw [selection, String.length_toList]
  show (if (textRange s.length i j).1 > (textRange s.length i j).2 then pure (.string "")
    else pure (.string (String.ofList (slice s.toList ((textRange s.length i j).1 - 1)
      (textRange s.length i j).2))) : Run Value) st = _
  split <;> rfl

def codes (text : String) : List Value := text.toList.map fun c => .int (Text.codePoint c)

theorem stringByte_run (s : String) (i : Int) (end? : Option Value) (j : Int) (st : Store)
    (hend : end? = some (.int j) ∨ end? = none ∧ j = i) : stringByte (.string s) (some (.int i)) end? st =
      .ok (.many (codes (String.ofList (selection s.toList i (byteEnd s.length j))))) st := by
  have hcut := slice_textRange s.toList i j
  rw [String.length_toList] at hcut
  rw [codes, String.toList_ofList, ← hcut]
  rcases hend with rfl | ⟨rfl, rfl⟩ <;> rfl

/-- The code points between two positions are those of the part of the text between them, in order, and
the code points at one position those of the part from it to itself, where an end before the position in
front of the text is moved by the length of the text. -/
theorem byte_selects_as_sub (s : String) (i : Int) (st : Store) :
    (∀ j, ∃ text, stringSub (.string s) (some (.int i)) (some (.int (byteEnd s.length j))) st =
        .ok (.string text) st ∧
      stringByte (.string s) (some (.int i)) (some (.int j)) st = .ok (.many (codes text)) st) ∧
    ∃ text, stringSub (.string s) (some (.int i)) (some (.int (byteEnd s.length i))) st = .ok (.string text) st ∧
      stringByte (.string s) (some (.int i)) none st = .ok (.many (codes text)) st :=
  ⟨fun j => ⟨_, stringSub_run s i _ st, stringByte_run s i _ j st (.inl rfl)⟩,
    _, stringSub_run s i _ st, stringByte_run s i none i st (.inr ⟨rfl, rfl⟩)⟩

end TypedLua.Library
