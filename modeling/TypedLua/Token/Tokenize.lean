import TypedLua.Token.Lexer

/-!
# The tokens of a text

A reader moves its cursor over text at the front, and the places of a failure are places it came to
(`Follows`).
-/

namespace TypedLua.Token

/-! ## Progress -/

/-- The numeral of a decimal number that may have a point and an exponent, with a class of digits. -/
inductive IsFraction (digit : Char → Bool) : List Char → Prop
  | mk {whole places exponent : List Char} (hwhole : ∀ x ∈ whole, digit x = true)
      (hplaces : places = [] ∨ ∃ ds, places = '.' :: ds ∧ ∀ x ∈ ds, digit x = true)
      (hexponent : exponent = [] ∨ ∃ mark sign ds, exponent = mark :: sign ++ ds ∧
        (mark = 'e' ∨ mark = 'E') ∧ (sign = [] ∨ sign = ['+'] ∨ sign = ['-']) ∧ ds ≠ [] ∧
          ∀ x ∈ ds, digit x = true)
      (hdigits : whole ≠ [] ∨ 2 ≤ places.length) : IsFraction digit (whole ++ places ++ exponent)

inductive Unreadable (text : List Char) : Number.TextError → Prop
  | whole {digits : List Char} {error : Number.TextError} (hne : digits ≠ [])
      (hdigits : ∀ x ∈ digits, x ∈ text ∧ Text.isDigit x = true)
      (h : integerOf digits = .error (.digits error)) : Unreadable text error
  | fraction {numeral : List Char} (hchars : ∀ x ∈ numeral, x ∈ text) (hshape : IsFraction Text.isDigit numeral)
      (h : Numeral.float? numeral = none) : Unreadable text (.fraction (String.ofList numeral))

def LexCause.isOpenEnded : LexCause → Bool
  | unterminatedLong _ | unterminatedString => true
  | _ => false

/-- A failure is located at places that are reached from the cursor, or comes from a numeral that
cannot be read. -/
def Located (c : Cursor) : LexFailure → Prop
  | .invalid cause position reached => c.Sees position ∧ c.Sees reached ∧
    (reached.line = position.line ∨ cause.isOpenEnded = true ∧ reached = c.position.advance c.rest)
  | .digits error => Unreadable c.rest error

/-- A reader that starts at the cursor answers a cursor with a property, or fails at places that it
came to. -/
def Follows {α : Type} (c : Cursor) (P : Cursor → Prop) : Except LexFailure (α × Cursor) → Prop
  | .ok (_, after) => P after
  | .error e => Located c e

section Readers

variable {c d : Cursor} {P Q : Cursor → Prop}

theorem Unreadable.mono {text text' : List Char} {error : Number.TextError} (h : Unreadable text error)
    (htext : text ⊆ text') : Unreadable text' error := by
  cases h with
  | whole hne hdigits h => exact .whole hne (fun x hx => ⟨htext (hdigits x hx).1, (hdigits x hx).2⟩) h
  | fraction hchars hshape h => exact .fraction (fun x hx => htext (hchars x hx)) hshape h

theorem Located.mono {e : LexFailure} (h : Located d e) (hd : c.Reaches d) : Located c e := by
  cases e with
  | invalid =>
    refine ⟨h.1.mono hd, h.2.1.mono hd, ?_⟩
    obtain ⟨text, hrest, hposition⟩ := hd
    rw [hrest, Position.advance_append, ← hposition]
    exact h.2.2
  | digits =>
    obtain ⟨text, hrest, -⟩ := hd
    exact Unreadable.mono h (hrest ▸ List.subset_append_right text d.rest)

theorem Located.unfinished {cause : LexCause} {p : Position} (hcause : cause.isOpenEnded = true) (hp : c.Sees p)
    (h : c.Reaches d) : Located c (.invalid cause p (d.position.advance d.rest)) := by
  obtain ⟨text, hrest, hposition⟩ := h
  have hend : d.position.advance d.rest = c.position.advance c.rest := by
    rw [hrest, Position.advance_append, ← hposition]
  exact ⟨hp, ⟨⟨_, []⟩, ⟨c.rest, by simp, rfl⟩, hend.symm⟩, .inr ⟨hcause, hend⟩⟩

theorem Follows.imp {α : Type} {r : Except LexFailure (α × Cursor)} (h : Follows d P r)
    (hd : c.Reaches d) (hP : ∀ after, P after → Q after) : Follows c Q r := by
  cases r with
  | ok found => exact hP found.2 h
  | error e => exact Located.mono h hd

theorem Follows.fail {α : Type} {cause : LexCause} (h : c.Reaches d) :
    Follows (α := α) c P (.error (.invalid cause d.position d.position)) :=
  ⟨h.sees, h.sees, .inl rfl⟩

theorem Follows.cases {α : Type} {r : Except LexFailure (α × Cursor)} (h : Follows c P r) :
    (∃ found after, r = .ok (found, after) ∧ P after) ∨ ∃ e, r = .error e ∧ Located c e := by
  match r, h with
  | .ok (found, after), h => exact .inl ⟨found, after, rfl, h⟩
  | .error e, h => exact .inr ⟨e, rfl, h⟩

theorem located_integerOf {digits : List Char} {e : LexFailure} (hne : digits ≠ [])
    (hdigits : ∀ x ∈ digits, x ∈ c.rest ∧ Text.isDigit x = true) (h : integerOf digits = .error e) :
    Located c e := by
  obtain ⟨error, rfl⟩ : ∃ error, e = .digits error := by
    unfold integerOf at h
    split at h <;> cases h <;> exact ⟨_, rfl⟩
  exact .whole hne hdigits h

theorem longBody_reaches (closing : List Char) (position : Position) (cs : List Char) :
    match longBody closing position cs with
    | .ok (_, after) => Cursor.Reaches ⟨position, cs⟩ after
    | .error reached => reached = position.advance cs := by
  induction cs generalizing position with
  | nil => rfl
  | cons x xs ih =>
    rw [longBody]
    by_cases hclosing : closing.isPrefixOf (x :: xs) = true
    · obtain ⟨rest, hrest⟩ := List.isPrefixOf_iff_prefix.1 hclosing
      rw [if_pos hclosing]
      exact ⟨closing, by simp [← hrest], rfl⟩
    · have hstep := Cursor.reaches_step position x xs
      have hrest := ih (position.step x)
      rw [if_neg hclosing]
      cases hfound : longBody closing (position.step x) xs with
      | ok found =>
        rw [hfound] at hrest
        exact hstep.trans hrest
      | error reached =>
        rw [hfound] at hrest
        exact hrest

theorem readLong_follows (what : LongKind) (level : Nat) (hc : c.rest ≠ []) :
    Follows c c.Passes (readLong what level c) := by
  have hopen : c.Passes (((c.drop (level + 2)).skip '\r').skip '\n') :=
    (Cursor.passes_drop (by omega) hc).reaches
      ((Cursor.reaches_skip _ _).trans (Cursor.reaches_skip _ _))
  have hbody := longBody_reaches (closingBracket level) (((c.drop (level + 2)).skip '\r').skip '\n').position
    (((c.drop (level + 2)).skip '\r').skip '\n').rest
  rw [readLong]
  split at hbody
  · next hfound =>
    simp only [hfound]
    exact hopen.reaches hbody
  · next hfound =>
    simp only [hfound, hbody]
    exact Located.unfinished rfl (Cursor.Reaches.refl c).sees hopen.1

theorem Follows.consChar {x : Char} {r : Except LexFailure (List Char × Cursor)} (h : Follows c P r) :
    Follows c P (consChar x r) := by
  match r, h with
  | .ok _, h => exact h
  | .error _, h => exact h

def StringMode.Holds (text : List Char) : StringMode → Prop
  | decimal digits => digits ≠ [] ∧ ∀ x ∈ digits, x ∈ text ∧ Text.isDigit x = true
  | _ => True

theorem StringMode.Holds.continue? {text : List Char} {mode mode' : StringMode} {x : Char}
    (h : mode.Holds text) (hx : x ∈ text) (hmode : mode.continue? x = some mode') : mode'.Holds text := by
  cases mode with
  | plain => cases hmode
  | skipping =>
    rw [StringMode.continue?] at hmode
    split at hmode <;> cases hmode
    trivial
  | decimal digits =>
    rw [StringMode.continue?] at hmode
    split at hmode <;> cases hmode
    next hdigit =>
    refine ⟨by simp, fun y hy => ?_⟩
    rcases List.mem_append.1 hy with hy | hy
    · exact h.2 y hy
    · obtain rfl := List.mem_singleton.1 hy
      exact ⟨hx, (Bool.and_eq_true_iff.1 hdigit).2⟩

theorem Follows.close {r : Except LexFailure (List Char × Cursor)} (h : Follows c P r)
    (hd : c.Reaches d) {mode : StringMode} (hmode : mode.Holds c.rest) :
    Follows c P (mode.close d.position r) := by
  cases mode with
  | plain => exact h
  | skipping => exact h
  | decimal digits =>
    rw [StringMode.close, decimalEscape]
    cases hint : integerOf digits with
    | error e => exact located_integerOf hmode.1 hmode.2 hint
    | ok code =>
      by_cases hcode : code > 255
      · simp only [if_pos hcode]
        exact .fail hd
      · simp only [if_neg hcode]
        exact h.consChar

theorem stringBody_follows {mark : Char} {opened : Position} {mode : StringMode} {position : Position}
    {cs : List Char} (hopened : c.Sees opened) (hc : c.Passes ⟨position, cs⟩) (hmode : mode.Holds c.rest) :
    Follows c c.Passes (stringBody mark opened mode position cs) := by
  fun_induction stringBody mark opened mode position cs with
  | case1 mode position =>
    have hend : Follows (α := List Char) c c.Passes
        (.error (.invalid .unterminatedString opened position)) := Located.unfinished rfl hopened hc.1
    exact hend.close hc.1 hmode
  | case2 mode position x cs next mode' hnext ih =>
    exact ih (hc.reaches (Cursor.reaches_step ..)) (hmode.continue? (hc.1.mem (by simp)) hnext)
  | case3 mode position x cs next hstop ihPlain ihEscape =>
    have hnext : c.Passes ⟨next, cs⟩ := hc.reaches (Cursor.reaches_step ..)
    refine .close ?_ hc.1 hmode
    split
    · exact .fail hc.1
    split
    · exact hnext
    split
    · exact (ihPlain hnext trivial).consChar
    split
    · exact .fail hnext.1
    · next a b rest =>
      have hx := hnext.reaches (Cursor.reaches_step next 'x' (a :: b :: rest))
      have hb := (hx.reaches (Cursor.reaches_step ..)).reaches (Cursor.reaches_step ..)
      split
      · exact (ihEscape hb trivial).consChar
      · exact .fail hx.1
    · next e es _ =>
      have he := hnext.reaches (Cursor.reaches_step next e es)
      simp only at ihEscape ⊢
      split
      · exact (ihEscape.1 he trivial).consChar
      split
      · exact .fail he.1
      split
      · exact ihEscape.2.1 he trivial
      split
      · next hdigit =>
        have hmem : e ∈ c.rest := hnext.1.mem (by simp)
        exact ihEscape.2.2 he ⟨by simp, by simp [hmem, hdigit]⟩
      · exact .fail hnext.1

theorem readHex_follows (hc : c.rest ≠ []) : Follows c c.Passes (readHex c) := by
  have hafter := (Cursor.passes_drop (n := 2) (by omega) hc).reaches
    (Cursor.reaches_takeWhile isHexDigit (c.drop 2))
  unfold readHex
  simp only
  split
  · split
    · exact .fail hafter.1
    · exact hafter
  · exact .fail hafter.1

theorem readPlaces_reads (c : Cursor) : c.Reads (readPlaces c).1 (readPlaces c).2 ∧
    ((readPlaces c).1 = [] ∨ ∃ ds, (readPlaces c).1 = '.' :: ds ∧ ∀ x ∈ ds, Text.isDigit x = true) := by
  unfold readPlaces
  split
  · next hrest =>
    split
    · exact ⟨.nil c, .inl rfl⟩
    · exact ⟨(Cursor.reads_advance hrest).append (Cursor.reads_takeWhile _ _),
        .inr ⟨_, rfl, List.all_eq_true.1 List.all_takeWhile⟩⟩
  · exact ⟨.nil c, .inl rfl⟩

theorem readSign_reads (c : Cursor) : c.Reads (readSign c).1 (readSign c).2 ∧
    ((readSign c).1 = [] ∨ (readSign c).1 = ['+'] ∨ (readSign c).1 = ['-']) := by
  unfold readSign
  split
  · next hrest =>
    split
    · next hsign =>
      refine ⟨Cursor.reads_advance hrest, .inr ?_⟩
      simpa using hsign
    · exact ⟨.nil c, .inl rfl⟩
  · exact ⟨.nil c, .inl rfl⟩

theorem readExponent_cases (c : Cursor) :
    (∃ exponent after, readExponent c = .ok (exponent, after) ∧ c.Reads exponent after ∧
      (exponent = [] ∨ ∃ mark sign ds, exponent = mark :: sign ++ ds ∧ (mark = 'e' ∨ mark = 'E') ∧
        (sign = [] ∨ sign = ['+'] ∨ sign = ['-']) ∧ ds ≠ [] ∧ ∀ x ∈ ds, Text.isDigit x = true)) ∨
      ∃ e, readExponent c = .error e ∧ Located c e := by
  unfold readExponent
  split
  · next mark _ hrest =>
    split
    · next hmark =>
      obtain ⟨hread, hshape⟩ := readSign_reads c.advance
      have hsign := (Cursor.reads_advance hrest).append hread
      simp only
      split
      · have hplace : c.Sees (readSign c.advance).2.position := Cursor.Reaches.sees ⟨_, hsign⟩
        exact .inr ⟨_, rfl, hplace, hplace, .inl rfl⟩
      · next hdigits =>
        refine .inl ⟨_, _, rfl, hsign.append (Cursor.reads_takeWhile Text.isDigit _), .inr ?_⟩
        exact ⟨mark, _, _, rfl, by simpa using hmark, hshape, by simpa using hdigits,
          List.all_eq_true.1 List.all_takeWhile⟩
    · exact .inl ⟨[], c, rfl, .nil c, .inl rfl⟩
  · exact .inl ⟨[], c, rfl, .nil c, .inl rfl⟩

theorem isDigit_dot : Text.isDigit '.' = false := by decide

/-- Where a number starts, it has a digit in front of the point or one behind it. -/
theorem digits_of_startsNumber (h : startsNumber c.rest = true) :
    (c.takeWhile Text.isDigit).1 ≠ [] ∨ 2 ≤ (readPlaces (c.takeWhile Text.isDigit).2).1.length := by
  obtain ⟨position, rest⟩ := c
  simp only at h
  unfold startsNumber at h
  split at h
  · next d cs =>
    have hd : d ≠ '.' := by
      rintro rfl
      rw [isDigit_dot] at h
      cases h
    refine .inr ?_
    simp [Cursor.takeWhile, isDigit_dot, readPlaces, hd, Cursor.advance, h]
  · exact .inl (by simp [Cursor.takeWhile, h])
  · cases h

theorem readDecimal_follows (hc : startsNumber c.rest = true) : Follows c c.Passes (readDecimal c) := by
  have hstart := digits_of_startsNumber hc
  have hwhole := Cursor.reads_takeWhile Text.isDigit c
  have hdigits : ∀ x ∈ (c.takeWhile Text.isDigit).1, Text.isDigit x = true :=
    List.all_eq_true.1 List.all_takeWhile
  unfold readDecimal
  generalize c.takeWhile Text.isDigit = whole at hstart hwhole hdigits
  obtain ⟨hplaces, hshape⟩ := readPlaces_reads whole.2
  rcases readExponent_cases (readPlaces whole.2).2 with
    ⟨exponent, after, hread, hexponent, hshape'⟩ | ⟨e, hread, he⟩
  · have htext : c.Reads (whole.1 ++ (readPlaces whole.2).1 ++ exponent) after :=
      (hwhole.append hplaces).append hexponent
    have hpasses : c.Passes after := by
      refine ⟨⟨_, htext⟩, ?_⟩
      rw [htext.1]
      simp only [List.length_append]
      rcases hstart with hstart | hstart
      · have := List.length_pos_iff.2 hstart
        omega
      · omega
    have hchars : ∀ x ∈ whole.1 ++ (readPlaces whole.2).1 ++ exponent, x ∈ c.rest := by
      intro x hx
      rw [htext.1]
      exact List.mem_append_left _ hx
    simp only [hread]
    split
    · exact .fail hpasses.1
    split
    · exact hpasses
    · next h =>
      rw [decimalNumber] at h
      split at h
      · split at h <;> cases h
        next hfloat => exact .fraction hchars ⟨hdigits, hshape, hshape', hstart⟩ hfloat
      · next hplain =>
        -- Without a point and an exponent the text is the digits in front.
        have hnone : (readPlaces whole.2).1 = [] ∧ exponent = [] := by simpa using hplain
        rw [hnone.1, hnone.2, List.append_nil, List.append_nil] at h hchars
        have hne : whole.1 ≠ [] := hstart.resolve_right (by simp [hnone.1])
        cases hint : integerOf whole.1 with
        | ok n => simp [hint, Except.map] at h
        | error e =>
          rw [hint] at h
          cases h
          exact located_integerOf hne (fun x hx => ⟨hchars x hx, hdigits x hx⟩) hint
  · simp only [hread]
    exact he.mono ⟨_, hwhole.append hplaces⟩

theorem readNumber_follows (hc : startsNumber c.rest = true) : Follows c c.Passes (readNumber c) := by
  unfold readNumber
  split
  · next hrest =>
    split
    · exact readHex_follows (by simp [hrest])
    · exact readDecimal_follows hc
  · exact readDecimal_follows hc

theorem isWordChar_of_isLetter {x : Char} (h : Text.isLetter x = true) :
    Text.isWordChar x = true := by
  unfold Text.isLetter at h
  unfold Text.isWordChar Text.isAlphanumeric
  split at h <;> simp_all [Char.isAlphanum]

theorem passes_readName {x : Char} {cs : List Char} (hc : c.rest = x :: cs)
    (hx : Text.isWordChar x = true) : c.Passes (readName c).2 := by
  unfold readName
  simp only
  split <;> exact Cursor.passes_takeWhile hc hx

theorem Symbol.length_chars_pos (s : Symbol) : 0 < s.chars.length := by
  cases s <;> decide

theorem readComment_follows {cs : List Char} (hc : c.rest = '-' :: '-' :: cs) :
    Follows c c.Passes (readComment c) := by
  have hbody := Cursor.passes_drop (c := c) (n := 2) (by omega) (by simp [hc])
  unfold readComment
  simp only
  split
  · next level hlevel =>
    have hne : (c.drop 2).rest ≠ [] := by
      intro hnil
      simp [hnil, longLevel?] at hlevel
    have hlong := (readLong_follows .comment level hne).imp hbody.1 fun _ => hbody.1.passes
    rcases hlong.cases with ⟨_, _, hread, h⟩ | ⟨_, hread, h⟩
    all_goals
      rw [hread]
      exact h
  · have hafter := hbody.reaches (Cursor.reaches_takeWhile (· != '\n') (c.drop 2))
    split
    · exact hafter
    · exact hafter
    · refine ⟨(Cursor.Reaches.refl c).sees, hafter.1.sees, .inl ?_⟩
      have hline : (cs.takeWhile (· != '\n')).count '\n' = 0 := List.count_eq_zero.2 fun hmem => by
        simpa using List.all_eq_true.1 List.all_takeWhile _ hmem
      simp [Cursor.takeWhile, Position.line_advance, hline, Cursor.drop, hc, Position.step]

theorem readToken_follows {first : Char} {cs : List Char} (hc : c.rest = first :: cs) :
    Follows c c.Passes (readToken first c) := by
  have hne : c.rest ≠ [] := by simp [hc]
  unfold readToken
  split
  · have hbody : Follows c c.Passes
        (stringBody first c.position .plain c.advance.position c.advance.rest) :=
      stringBody_follows (Cursor.Reaches.refl c).sees (Cursor.passes_advance hne) trivial
    rcases hbody.cases with ⟨_, _, hread, h⟩ | ⟨_, hread, h⟩
    all_goals
      simp only [hread]
      exact h
  split
  · next level _ =>
    rcases (readLong_follows .string level hne).cases with ⟨_, _, hread, h⟩ | ⟨_, hread, h⟩
    all_goals
      rw [hread]
      exact h
  split
  · next hnumber =>
    rcases (readNumber_follows hnumber).cases with ⟨_, _, hread, h⟩ | ⟨_, hread, h⟩
    all_goals
      rw [hread]
      exact h
  split
  · next hletter =>
    refine passes_readName hc ?_
    rcases Bool.or_eq_true_iff.1 hletter with hl | hu
    · exact isWordChar_of_isLetter hl
    · simp [Text.isWordChar, hu]
  split
  · next s _ => exact Cursor.passes_drop (Symbol.length_chars_pos s) hne
  · exact .fail (.refl c)

/-- A step goes to the start of what it reads, where its token has its place, and on from there; the last
step finds the end of the text. -/
def StepFollows (c : Cursor) : Except LexFailure (Option Token × Option Cursor) → Prop
  | .ok (token, some after) =>
    ∃ start, c.Reaches start ∧ start.Passes after ∧ ∀ t ∈ token, t.position = start.position
  | .ok (token, none) =>
    ∃ finish, c.Reaches finish ∧ finish.rest = [] ∧ token = some ⟨.eof, finish.position⟩
  | .error e => Located c e

theorem readComment_token {token : Option Token} {after : Cursor}
    (h : readComment c = .ok (token, after)) : ∀ t ∈ token, t.position = c.position := by
  unfold readComment at h
  simp only at h
  split at h
  · split at h <;> cases h
    simp
  · split at h <;> cases h <;> simp

theorem step_follows (c : Cursor) : StepFollows c (step c) := by
  have hblank : c.Reaches (c.dropWhile isSpace) := Cursor.reaches_takeWhile isSpace c
  unfold step
  generalize c.dropWhile isSpace = start at hblank
  simp only
  split
  · next hrest => exact ⟨start, hblank, hrest, rfl⟩
  · next hrest =>
    rcases (readComment_follows hrest).cases with
      ⟨token, after, hread, h⟩ | ⟨_, hread, h⟩
    · simp only [hread]
      exact ⟨start, hblank, h, readComment_token hread⟩
    · simp only [hread]
      exact h.mono hblank
  · next first cs _ hrest =>
    rcases (readToken_follows hrest).cases with ⟨kind, after, hread, h⟩ | ⟨_, hread, h⟩
    · simp only [hread]
      exact ⟨start, hblank, h, by simp⟩
    · simp only [hread]
      exact h.mono hblank

/-- A step that is not the last leaves less text than it found. -/
theorem step_shortens {after : Cursor} {token : Option Token} (h : step c = .ok (token, some after)) :
    after.rest.length < c.rest.length := by
  have hstep := step_follows c
  rw [h] at hstep
  obtain ⟨start, hstart, hafter, -⟩ := hstep
  exact (hstart.passes hafter).2

end Readers

/-! ## The whole text -/

def tokensFrom (c : Cursor) : Except LexFailure (List Token) :=
  match h : step c with
  | .error e => .error e
  | .ok (token, none) => .ok token.toList
  | .ok (token, some after) =>
    have : after.rest.length < c.rest.length := step_shortens h
    match tokensFrom after with
    | .error e => .error e
    | .ok tokens => .ok (token.toList ++ tokens)
termination_by c.rest.length

def skipFirstLine (source : List Char) : Cursor :=
  if ['#', '!'].isPrefixOf source then (Cursor.start source).dropWhile (· != '\n')
  else Cursor.start source

def tokenize (source : List Char) : Except LexFailure (List Token) :=
  tokensFrom (skipFirstLine source)

end TypedLua.Token
