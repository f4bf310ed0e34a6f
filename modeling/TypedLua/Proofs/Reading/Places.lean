import Mathlib.Data.List.Induction
import TypedLua.Token.Tokenize

/-!
# Places of tokens

A place that reading comes to is the place behind some text at the front of the source.
-/

namespace TypedLua

namespace Position

/-- The line that an offset lies in starts at `start`: at the front of the text or right behind a line feed,
with no line feed from there to the offset. -/
structure IsLineStart (source : List Char) (offset start : Nat) : Prop where
  le : start ≤ offset
  opens : start = 0 ∨ source[start - 1]? = some '\n'
  unbroken : ∀ i, start ≤ i → i < offset → source[i]? ≠ some '\n'

/-- The place is one of the text, and it has the line and the column of its offset. -/
structure IsIn (source : List Char) (p : Position) : Prop where
  offset_le : p.offset ≤ source.length
  line_eq : p.line = 1 + (source.take p.offset).count '\n'
  column_eq : ∃ start, IsLineStart source p.offset start ∧ p.column = p.offset - start + 1

theorem advance_snoc (p : Position) (text : List Char) (c : Char) :
    p.advance (text ++ [c]) = (p.advance text).step c :=
  advance_append p text [c]

theorem column_advance (text rest : List Char) : ∃ start, IsLineStart (text ++ rest) text.length start ∧
      (Position.start.advance text).column = text.length - start + 1 := by
  induction text using List.reverseRecOn generalizing rest with
  | nil => exact ⟨0, ⟨Nat.le_refl 0, .inl rfl, fun _ _ h => absurd h (Nat.not_lt_zero _)⟩, rfl⟩
  | append_singleton text c ih =>
    rw [advance_snoc, step, List.length_append, List.length_singleton, List.append_assoc]
    by_cases hc : c = '\n'
    · refine ⟨text.length + 1, ⟨Nat.le_refl _, .inr ?_, fun i hi hi' => by omega⟩, by simp [hc]⟩
      simp [hc]
    · obtain ⟨start, hstart, hcolumn⟩ := ih (c :: rest)
      have hle := hstart.le
      refine ⟨start, ⟨by omega, hstart.opens, fun i hi hi' => ?_⟩, ?_⟩
      · by_cases hlast : i = text.length
        · simp [hlast, hc]
        · exact hstart.unbroken i hi (by omega)
      · simp only [hc, if_false, hcolumn]
        omega

theorem isIn_advance (text rest : List Char) : (Position.start.advance text).IsIn (text ++ rest) := by
  have hoffset : (Position.start.advance text).offset = text.length := by rw [offset_advance, start, Nat.zero_add]
  refine ⟨?_, ?_, ?_⟩
  · simp [hoffset]
  · rw [hoffset, List.take_left, line_advance, start]
  · rw [hoffset]
    exact column_advance text rest

end Position

namespace Cursor

variable {c d : Cursor} {p : Position}

theorem Sees.isIn (h : (Cursor.start source).Sees p) : p.IsIn source := by
  obtain ⟨after, ⟨text, hrest, hpos⟩, rfl⟩ := h
  rw [hpos, show source = text ++ after.rest from hrest]
  exact Position.isIn_advance text after.rest

theorem Sees.offset_le (h : c.Sees p) : c.position.offset ≤ p.offset := by
  obtain ⟨after, ⟨text, -, hpos⟩, rfl⟩ := h
  rw [hpos, Position.offset_advance]
  omega

theorem Passes.offset_lt (h : c.Passes d) : c.position.offset < d.position.offset := by
  obtain ⟨⟨text, hrest, hpos⟩, hlen⟩ := h
  rw [hrest, List.length_append] at hlen
  rw [hpos, Position.offset_advance]
  omega

theorem Reaches.offset_of_end (h : (Cursor.start source).Reaches d) (hd : d.rest = []) :
    d.position.offset = source.length := by
  obtain ⟨text, hrest, hpos⟩ := h
  rw [hd, List.append_nil] at hrest
  rw [hpos, Position.offset_advance, ← hrest]
  exact Nat.zero_add _

end Cursor

namespace Token

/-- Tokens that stand behind a cursor, one behind the other, up to the end of the text. -/
structure Lined (c : Cursor) (tokens : List Token) : Prop where
  ascending : tokens.Pairwise fun t t' => t.position.offset < t'.position.offset
  seen : ∀ t ∈ tokens, c.Sees t.position
  ends : ∃ finish, c.Reaches finish ∧ finish.rest = [] ∧ tokens.getLast? = some ⟨.eof, finish.position⟩

theorem Lined.cons {c start after : Cursor} {token : Option Token} {tokens : List Token}
    (hstart : c.Reaches start) (hafter : start.Passes after)
    (htoken : ∀ t ∈ token, t.position = start.position) (h : Lined after tokens) :
    Lined c (token.toList ++ tokens) := by
  have hreach := hstart.trans hafter.1
  refine ⟨?_, ?_, ?_⟩
  · refine List.pairwise_append.2 ⟨by cases token <;> simp, h.ascending, fun t ht t' ht' => ?_⟩
    rw [htoken t (by simpa using ht)]
    exact Nat.lt_of_lt_of_le hafter.offset_lt (h.seen t' ht').offset_le
  · intro t ht
    rcases List.mem_append.1 ht with ht | ht
    · rw [htoken t (by simpa using ht)]
      exact hstart.sees
    · exact (h.seen t ht).mono hreach
  · obtain ⟨finish, hfinish, hrest, hlast⟩ := h.ends
    exact ⟨finish, hreach.trans hfinish, hrest, by rw [List.getLast?_append, hlast]; rfl⟩

theorem tokensFrom_lined (c : Cursor) : match tokensFrom c with
    | .ok tokens => Lined c tokens
    | .error e => Located c e := by
  fun_induction tokensFrom c with
  | case1 c e h =>
    have hstep := step_follows c
    rw [h] at hstep
    exact hstep
  | case2 c token h =>
    have hstep := step_follows c
    rw [h] at hstep
    obtain ⟨finish, hfinish, hrest, rfl⟩ := hstep
    refine ⟨List.pairwise_singleton _ _, ?_, finish, hfinish, hrest, rfl⟩
    simpa using hfinish.sees
  | case3 c token after h hlt e hrest ih =>
    have hstep := step_follows c
    rw [h] at hstep
    obtain ⟨start, hstart, hafter, -⟩ := hstep
    rw [hrest] at ih
    exact Located.mono ih (hstart.trans hafter.1)
  | case4 c token after h hlt tokens hrest ih =>
    have hstep := step_follows c
    rw [h] at hstep
    obtain ⟨start, hstart, hafter, htoken⟩ := hstep
    rw [hrest] at ih
    exact Lined.cons hstart hafter htoken ih

theorem reaches_skipFirstLine (source : List Char) : (Cursor.start source).Reaches (skipFirstLine source) := by
  unfold skipFirstLine
  split
  · exact Cursor.reaches_takeWhile _ _
  · exact .refl _

/-- The tokens of a source have strictly increasing offsets, the last one is its end, and each stands at the
line and the column of its offset. A failure is located in the same way. -/
theorem tokenize_places_exact (source : List Char) : match tokenize source with
    | .ok tokens =>
      (tokens.map fun t => t.position.offset).Pairwise (· < ·) ∧
        (∃ last, tokens.getLast? = some last ∧ last.kind = .eof ∧ last.position.offset = source.length) ∧
        ∀ t ∈ tokens, t.position.IsIn source
    | .error (.invalid _ position reached) => position.IsIn source ∧ reached.IsIn source
    | .error (.digits _) => True := by
  have hfirst := reaches_skipFirstLine source
  have hlined := tokensFrom_lined (skipFirstLine source)
  rw [tokenize]
  split at hlined
  · next tokens htokens =>
    obtain ⟨finish, hfinish, hrest, hlast⟩ := hlined.ends
    rw [htokens]
    refine ⟨List.pairwise_map.2 hlined.ascending, ⟨_, hlast, rfl, ?_⟩, fun t ht => ?_⟩
    · exact (hfirst.trans hfinish).offset_of_end hrest
    · exact ((hlined.seen t ht).mono hfirst).isIn
  · next e he =>
    rw [he]
    cases e with
    | invalid => exact ⟨(hlined.1.mono hfirst).isIn, (hlined.2.1.mono hfirst).isIn⟩
    | digits => trivial

end Token

end TypedLua
