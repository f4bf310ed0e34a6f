import TypedLua.Source.Position

/-!
# A cursor in source text

What is left to read, with the position at which it starts.
-/

namespace TypedLua

structure Cursor where
  position : Position
  rest : List Char
  deriving Repr, DecidableEq

namespace Cursor

def start (source : List Char) : Cursor := ⟨.start, source⟩

def advance (c : Cursor) : Cursor :=
  match c.rest with
  | [] => c
  | x :: xs => ⟨c.position.step x, xs⟩

def drop (n : Nat) (c : Cursor) : Cursor :=
  ⟨c.position.advance (c.rest.take n), c.rest.drop n⟩

/-- The characters at the front that satisfy a test, and the cursor after them. -/
def takeWhile (p : Char → Bool) (c : Cursor) : List Char × Cursor :=
  let taken := c.rest.takeWhile p
  (taken, ⟨c.position.advance taken, c.rest.dropWhile p⟩)

def dropWhile (p : Char → Bool) (c : Cursor) : Cursor :=
  (c.takeWhile p).2

def skip (x : Char) (c : Cursor) : Cursor :=
  if c.rest.head? = some x then c.advance else c

def finish (c : Cursor) : Cursor :=
  ⟨c.position.advance c.rest, []⟩

/-! ## Moving forward -/

def Reads (c : Cursor) (text : List Char) (after : Cursor) : Prop :=
  c.rest = text ++ after.rest ∧ after.position = c.position.advance text

/-- The second cursor is the first, moved over some of its characters. -/
def Reaches (c after : Cursor) : Prop :=
  ∃ text, c.Reads text after

/-- The second cursor is the first, moved over at least one character. -/
def Passes (c after : Cursor) : Prop :=
  c.Reaches after ∧ after.rest.length < c.rest.length

def Sees (c : Cursor) (p : Position) : Prop :=
  ∃ after, c.Reaches after ∧ after.position = p

variable {c d e : Cursor} {text text' : List Char}

theorem Reads.nil (c : Cursor) : c.Reads [] c :=
  ⟨rfl, rfl⟩

theorem Reads.append (h : c.Reads text d) (h' : d.Reads text' e) : c.Reads (text ++ text') e := by
  refine ⟨?_, ?_⟩
  · rw [h.1, h'.1, List.append_assoc]
  · rw [h'.2, h.2, Position.advance_append]

theorem Reaches.refl (c : Cursor) : c.Reaches c :=
  ⟨[], .nil c⟩

theorem Reaches.trans (h : c.Reaches d) (h' : d.Reaches e) : c.Reaches e := by
  obtain ⟨text, htext⟩ := h
  obtain ⟨text', htext'⟩ := h'
  exact ⟨text ++ text', htext.append htext'⟩

theorem Reaches.length_le (h : c.Reaches d) : d.rest.length ≤ c.rest.length := by
  obtain ⟨text, hrest, -⟩ := h
  simp [hrest]

theorem Reaches.mem (h : c.Reaches d) {x : Char} (hx : x ∈ d.rest) : x ∈ c.rest := by
  obtain ⟨text, hrest, -⟩ := h
  rw [hrest]
  exact List.mem_append_right text hx

theorem Reaches.passes (h : c.Reaches d) (h' : d.Passes e) : c.Passes e :=
  ⟨h.trans h'.1, Nat.lt_of_lt_of_le h'.2 h.length_le⟩

theorem Passes.reaches (h : c.Passes d) (h' : d.Reaches e) : c.Passes e :=
  ⟨h.1.trans h', Nat.lt_of_le_of_lt h'.length_le h.2⟩

theorem Reaches.sees (h : c.Reaches d) : c.Sees d.position :=
  ⟨d, h, rfl⟩

theorem Sees.mono {p : Position} (h : d.Sees p) (hc : c.Reaches d) : c.Sees p := by
  obtain ⟨after, hafter, rfl⟩ := h
  exact (hc.trans hafter).sees

theorem reaches_step (p : Position) (x : Char) (cs : List Char) :
    Reaches ⟨p, x :: cs⟩ ⟨p.step x, cs⟩ :=
  ⟨[x], rfl, rfl⟩

theorem reads_advance {x : Char} {xs : List Char} (hc : c.rest = x :: xs) : c.Reads [x] c.advance := by
  rw [advance, hc]
  exact ⟨hc, rfl⟩

theorem reaches_advance (c : Cursor) : c.Reaches c.advance := by
  cases hc : c.rest with
  | nil =>
    rw [advance, hc]
    exact .refl c
  | cons x xs => exact ⟨[x], reads_advance hc⟩

theorem reaches_drop (n : Nat) (c : Cursor) : c.Reaches (c.drop n) :=
  ⟨c.rest.take n, (List.take_append_drop n c.rest).symm, rfl⟩

theorem reads_takeWhile (p : Char → Bool) (c : Cursor) : c.Reads (c.takeWhile p).1 (c.takeWhile p).2 :=
  ⟨List.takeWhile_append_dropWhile.symm, rfl⟩

theorem reaches_takeWhile (p : Char → Bool) (c : Cursor) : c.Reaches (c.takeWhile p).2 :=
  ⟨_, reads_takeWhile p c⟩

theorem reaches_skip (x : Char) (c : Cursor) : c.Reaches (c.skip x) := by
  unfold skip
  split
  · exact reaches_advance c
  · exact .refl c

theorem passes_drop {n : Nat} (hn : 0 < n) (hc : c.rest ≠ []) : c.Passes (c.drop n) := by
  refine ⟨reaches_drop n c, ?_⟩
  have hlength := List.length_pos_iff.2 hc
  simp only [drop, List.length_drop]
  omega

theorem passes_advance (hc : c.rest ≠ []) : c.Passes c.advance := by
  refine ⟨reaches_advance c, ?_⟩
  unfold advance
  split
  · contradiction
  · next x xs hrest => simp [hrest]

theorem passes_takeWhile {p : Char → Bool} {x : Char} {xs : List Char} (hc : c.rest = x :: xs)
    (hx : p x = true) : c.Passes (c.takeWhile p).2 := by
  refine ⟨reaches_takeWhile p c, ?_⟩
  have hlength := (List.dropWhile_sublist p (l := xs)).length_le
  simp only [takeWhile, hc, List.dropWhile_cons, hx, if_true, List.length_cons]
  omega

end Cursor

end TypedLua
