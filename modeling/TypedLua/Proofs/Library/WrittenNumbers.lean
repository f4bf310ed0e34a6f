import TypedLua.Library.Basic
import TypedLua.Proofs.Reading.Printing

/-!
# Numerals in strings and in source text

The reader of strings and the reader of tokens accept the same numerals, up to a few spellings: strings allow
underscores between digits and no plus sign before a hexadecimal numeral, and decimals beyond the range are refused.
-/

namespace TypedLua

/-! ## The shapes of numerals -/

namespace Token

def isPointed (text : List Char) : Bool := text.any fun c => c == '.' || c == 'e' || c == 'E'

/-- A text of ASCII characters that writes a number, hexadecimal or decimal. -/
inductive Writes : List Char → Number → Prop
  | hex {mark : Char} {digits : List Char} {n : Nat} (hmark : mark = 'x' ∨ mark = 'X') (hne : digits ≠ [])
      (hval : Text.Quoted.hexNumber? digits = some n) : Writes ('0' :: mark :: digits) (.int n)
  | decimal {text : List Char} {v : Number} (h : IsFraction Char.isDigit text)
      (hval : decimalNumber (isPointed text) text = .ok v) : Writes text v

def IsNumeral (text : List Char) (v : Number) : Prop :=
  tokenize text = .ok [⟨.number v, .start⟩, ⟨.eof, Position.start.advance text⟩] ∧
    step (.start text) = .ok (some ⟨.number v, .start⟩, some ⟨Position.start.advance text, []⟩)

def IsExponent (digit : Char → Bool) (exponent : List Char) : Prop :=
  exponent = [] ∨ ∃ mark sign ds, exponent = mark :: sign ++ ds ∧ (mark = 'e' ∨ mark = 'E') ∧
    (sign = [] ∨ sign = ['+'] ∨ sign = ['-']) ∧ ds ≠ [] ∧ ∀ x ∈ ds, digit x = true

variable {c : Cursor} {text digits : List Char} {v : Number} {position : Position}

theorem forall_ascii {P : Char → Prop} (h : ∀ n < 128, P (Char.ofNat n)) {c : Char} (hc : c.toNat < 128) : P c :=
  Char.ofNat_toNat c ▸ h c.toNat hc

theorem isDigit_of_char {c : Char} (h : c.isDigit = true) : Text.isDigit c = true := by
  have hhigh : c.toNat ≤ 57 := (Char.isDigit_iff_toNat.1 h).2
  rwa [Text.isDigit_of_ascii (by omega)]

theorem takeWhile_append {p : Char → Bool} {rest : List Char} (h : ∀ c ∈ text, p c = true)
    (hrest : ∀ c ∈ rest.head?, p c = false) :
    Cursor.takeWhile p ⟨position, text ++ rest⟩ = (text, ⟨position.advance text, rest⟩) := by
  rw [Cursor.takeWhile, (Numeral.span_append h hrest).1, (Numeral.span_append h hrest).2]

theorem isPointed_shape {digit : Char → Bool} {whole places exponent : List Char}
    (hdigit : digit '.' = false ∧ digit 'e' = false ∧ digit 'E' = false) (hwhole : ∀ x ∈ whole, digit x = true)
    (hplaces : places = [] ∨ ∃ ds, places = '.' :: ds ∧ ∀ x ∈ ds, digit x = true)
    (hexp : IsExponent digit exponent) :
    isPointed (whole ++ places ++ exponent) = !(places.isEmpty && exponent.isEmpty) := by
  have hnone : isPointed whole = false := by
    simp only [isPointed, List.any_eq_false]
    intro x hx hmark
    have := hwhole x hx
    simp only [Bool.or_eq_true, beq_iff_eq] at hmark
    rcases hmark with (rfl | rfl) | rfl <;> simp_all
  rcases hplaces with rfl | ⟨ds, rfl, -⟩
  · rcases hexp with rfl | ⟨mark, sign, ds, rfl, rfl | rfl, -⟩ <;> simp_all [isPointed]
  · simp [isPointed]

theorem IsFraction.startsNumber (h : IsFraction Char.isDigit text) : startsNumber text = true := by
  obtain ⟨hwhole, hplaces, -, hdigits⟩ := h
  next whole places exponent =>
  cases whole with
  | cons x whole =>
    have hx := hwhole x List.mem_cons_self
    have hpoint : x ≠ '.' := by
      rintro rfl
      exact absurd hx (by decide)
    simp [Token.startsNumber, hpoint, isDigit_of_char hx]
  | nil =>
    rcases hplaces with rfl | ⟨_ | ⟨d, ds⟩, rfl, hds⟩
    · simp at hdigits
    · simp at hdigits
    · exact isDigit_of_char (hds d List.mem_cons_self)

/-! ## The reader of tokens -/

theorem isDigit_mark : Text.isDigit 'e' = false ∧ Text.isDigit 'E' = false := by decide

theorem readExponent_shape {exponent : List Char} (h : IsExponent Char.isDigit exponent) (position : Position) :
    readExponent ⟨position, exponent⟩ = .ok (exponent, ⟨position.advance exponent, []⟩) := by
  rcases h with rfl | ⟨mark, sign, ds, rfl, hmark, hsign, hne, hds⟩
  · rfl
  · have hmark' : (mark = 'e' || mark = 'E') = true := by simpa using hmark
    have hread : readSign ⟨position.step mark, sign ++ ds⟩ = (sign, ⟨(position.step mark).advance sign, ds⟩) := by
      rcases hsign with rfl | rfl | rfl
      · obtain ⟨d, rest, rfl⟩ := List.exists_cons_of_ne_nil hne
        have hd := Numeral.ne_of_isDigit (hds d List.mem_cons_self)
        simp [readSign, hd]
      · rfl
      · rfl
    have hdigits := @takeWhile_append ds ((position.step mark).advance sign) Text.isDigit []
      (fun x hx => isDigit_of_char (hds x hx)) (by simp)
    rw [List.append_nil] at hdigits
    have hsome : ds.isEmpty = false := by simpa using hne
    rw [readExponent]
    simp only [List.cons_append, if_pos hmark', Cursor.advance, hread, hdigits, hsome, Bool.false_eq_true, if_false,
      Position.advance_cons, Position.advance_append]

theorem readPlaces_shape {places exponent : List Char}
    (hplaces : places = [] ∨ ∃ ds, places = '.' :: ds ∧ ∀ x ∈ ds, x.isDigit = true)
    (hexp : ∀ x ∈ exponent.head?, Text.isDigit x = false ∧ x ≠ '.') (position : Position) :
    readPlaces ⟨position, places ++ exponent⟩ = (places, ⟨position.advance places, exponent⟩) := by
  rcases hplaces with rfl | ⟨ds, rfl, hds⟩
  · cases exponent with
    | nil => rfl
    | cons x exponent =>
      have hx := (hexp x rfl).2
      simp [readPlaces, hx]
  · have hpoint : (ds ++ exponent).head? ≠ some '.' := by
      cases ds with
      | nil => exact fun h => (hexp _ h).2 rfl
      | cons d ds =>
        rintro h
        cases h
        exact absurd (hds '.' List.mem_cons_self) (by decide)
    have hdigits := @takeWhile_append ds (position.step '.') Text.isDigit exponent
      (fun x hx => isDigit_of_char (hds x hx)) fun x hx => (hexp x hx).1
    simp only [List.cons_append, readPlaces, if_neg hpoint, Cursor.advance, hdigits, Position.advance_cons]

theorem readDecimal_fraction (h : IsFraction Char.isDigit text) (hval : decimalNumber (isPointed text) text = .ok v)
    (position : Position) : readDecimal ⟨position, text⟩ = .ok (v, ⟨position.advance text, []⟩) := by
  obtain ⟨hwhole, hplaces, hexp, -⟩ := h
  next whole places exponent =>
  have hmark : ∀ x ∈ exponent.head?, Text.isDigit x = false ∧ x ≠ '.' := by
    rcases hexp with rfl | ⟨mark, sign, ds, rfl, rfl | rfl, -⟩
    · simp
    · simp [isDigit_mark]
    · simp [isDigit_mark]
  have hrest : ∀ x ∈ (places ++ exponent).head?, Text.isDigit x = false := by
    rcases hplaces with rfl | ⟨ds, rfl, -⟩
    · exact fun x hx => (hmark x hx).1
    · simp [isDigit_dot]
  have hfirst := @takeWhile_append whole position Text.isDigit (places ++ exponent)
    (fun x hx => isDigit_of_char (hwhole x hx)) hrest
  rw [@isPointed_shape Char.isDigit _ _ _ (by decide) hwhole hplaces hexp] at hval
  rw [List.append_assoc] at hval ⊢
  simp only [readDecimal, hfirst, readPlaces_shape hplaces hmark, readExponent_shape hexp, adjoining?, List.head?_nil,
    Option.filter_none, List.append_assoc, hval, Position.advance_append]

theorem readDecimal_inv (hc : startsNumber c.rest = true) {after : Cursor} (h : readDecimal c = .ok (v, after))
    (hafter : after.rest = []) :
    IsFraction Text.isDigit c.rest ∧ decimalNumber (isPointed c.rest) c.rest = .ok v := by
  have hstart := digits_of_startsNumber hc
  have hwhole := Cursor.reads_takeWhile Text.isDigit c
  have hdigits : ∀ x ∈ (c.takeWhile Text.isDigit).1, Text.isDigit x = true :=
    List.all_eq_true.1 List.all_takeWhile
  unfold readDecimal at h
  generalize c.takeWhile Text.isDigit = whole at hstart hwhole hdigits h
  obtain ⟨hplaces, hshape⟩ := readPlaces_reads whole.2
  rcases readExponent_cases (readPlaces whole.2).2 with
    ⟨exponent, finish, hread, hexp, hshape'⟩ | ⟨e, hread, -⟩
  · simp only [hread] at h
    split at h
    · cases h
    · split at h
      · next hval =>
        cases h
        have htext := ((hwhole.append hplaces).append hexp).1
        rw [hafter, List.append_nil] at htext
        rw [htext, isPointed_shape ⟨isDigit_dot, isDigit_mark⟩ hdigits hshape hshape']
        exact ⟨⟨hdigits, hshape, hshape', hstart⟩, hval⟩
      · cases h
  · simp only [hread] at h
    cases h

theorem isHexDigit_of_hexNumber? {n : Nat} (h : Text.Quoted.hexNumber? digits = some n) :
    ∀ c ∈ digits, isHexDigit c = true := by
  suffices hfold : ∀ a, digits.foldlM (fun n c => (Text.Quoted.hexValue? c).map (16 * n + ·)) a = some n →
      ∀ c ∈ digits, isHexDigit c = true from hfold 0 h
  clear h
  induction digits with
  | nil => simp
  | cons c digits ih =>
    intro a h
    rw [List.foldlM_cons] at h
    obtain ⟨b, hb, hrest⟩ := Option.bind_eq_some_iff.1 h
    obtain ⟨d, hd, -⟩ := Option.map_eq_some_iff.1 hb
    exact List.forall_mem_cons.2 ⟨by rw [isHexDigit, hd]; rfl, ih b hrest⟩

theorem readHex_digits {mark : Char} {n : Nat} (hne : digits ≠ []) (h : Text.Quoted.hexNumber? digits = some n)
    (position : Position) : readHex ⟨position, '0' :: mark :: digits⟩ =
      .ok (.int n, ⟨position.advance ('0' :: mark :: digits), []⟩) := by
  have hdigits := @takeWhile_append digits ((position.step '0').step mark) isHexDigit []
    (isHexDigit_of_hexNumber? h) (by simp)
  rw [List.append_nil] at hdigits
  have hdrop : Cursor.drop 2 ⟨position, '0' :: mark :: digits⟩ = ⟨(position.step '0').step mark, digits⟩ := rfl
  have hsome : digits.isEmpty = false := by simpa using hne
  simp only [readHex, hdrop, hdigits, h, hsome, Bool.false_eq_true, if_false, Position.advance_cons]

theorem readHex_inv {mark : Char} {after : Cursor} (h : readHex ⟨position, '0' :: mark :: digits⟩ = .ok (v, after))
    (hafter : after.rest = []) : digits ≠ [] ∧ ∃ n : Nat, Text.Quoted.hexNumber? digits = some n ∧ v = .int n := by
  have hread := Cursor.reads_takeWhile isHexDigit (Cursor.drop 2 ⟨position, '0' :: mark :: digits⟩)
  unfold readHex at h
  generalize (Cursor.drop 2 ⟨position, '0' :: mark :: digits⟩).takeWhile isHexDigit = found at h hread
  simp only at h
  split at h
  · next n hval =>
    split at h
    · cases h
    · next hne =>
      cases h
      have htext : digits = found.1 := by simpa [hafter, Cursor.drop] using hread.1
      exact ⟨by simpa [htext] using hne, n, htext ▸ hval, rfl⟩
  · cases h

theorem readNumber_iff (hascii : ∀ c ∈ text, c.toNat < 128) (position : Position) :
    (startsNumber text = true ∧ readNumber ⟨position, text⟩ = .ok (v, ⟨position.advance text, []⟩)) ↔
      Writes text v := by
  constructor
  · rintro ⟨hstarts, hread⟩
    have hdecimal (h : readDecimal ⟨position, text⟩ = .ok (v, ⟨position.advance text, []⟩)) : Writes text v := by
      obtain ⟨hshape, hval⟩ := readDecimal_inv (c := ⟨position, text⟩) hstarts h rfl
      refine .decimal ?_ hval
      have hchars : IsFraction Char.isDigit (text.map id) :=
        hshape.map (fun x hx hdigit => (Text.isDigit_of_ascii (hascii x hx)).symm.trans hdigit) (by simp)
      rwa [List.map_id] at hchars
    unfold readNumber at hread
    split at hread
    · next mark digits hrest =>
      obtain rfl : text = '0' :: mark :: digits := hrest
      split at hread
      · next hmark =>
        obtain ⟨hne, n, hval, rfl⟩ := readHex_inv hread rfl
        exact .hex (by simpa using hmark) hne hval
      · exact hdecimal hread
    · exact hdecimal hread
  · intro h
    cases h with
    | @hex mark digits n hmark hne hval =>
      have hmark' : (mark = 'x' || mark = 'X') = true := by simpa using hmark
      exact ⟨isDigit_of_char (by decide), (if_pos hmark').trans (readHex_digits hne hval position)⟩
    | decimal h hval =>
      refine ⟨h.startsNumber, ?_⟩
      rw [← readDecimal_fraction h hval position, readNumber]
      split
      · next mark digits hrest =>
        refine if_neg fun hmark => ?_
        have hmem := h.mem mark (by simp [show text = '0' :: mark :: digits from hrest])
        simp only [Bool.or_eq_true, decide_eq_true_eq] at hmark
        rcases hmark with rfl | rfl <;> exact absurd hmem (by decide)
      · rfl

theorem readToken_number {first : Char} {after : Cursor} (h : readToken first c = .ok (.number v, after)) :
    startsNumber c.rest = true ∧ readNumber c = .ok (v, after) := by
  unfold readToken at h
  simp only at h
  split at h
  · split at h <;> cases h
  split at h
  · split at h <;> cases h
  split at h
  · next hstarts =>
    split at h
    · next hread =>
      cases h
      exact ⟨hstarts, hread⟩
    · cases h
  split at h
  · simp only [readName, Except.ok.injEq] at h
    split at h <;> cases h
  · split at h <;> cases h

theorem readComment_number {token : Token} {after : Cursor} (h : readComment c = .ok (some token, after)) :
    token.kind ≠ .number v := by
  unfold readComment at h
  simp only at h
  split at h
  · split at h <;> cases h
  · split at h <;> cases h
    simp

theorem isNumeral_iff (hascii : ∀ c ∈ text, c.toNat < 128) : IsNumeral text v ↔ Writes text v := by
  rw [← readNumber_iff hascii .start]
  constructor
  · rintro ⟨-, h⟩
    obtain ⟨htext, hposition⟩ : (Cursor.start text).Reads _ ((Cursor.start text).dropWhile isSpace) :=
      Cursor.reads_takeWhile isSpace (.start text)
    unfold step at h
    generalize (Cursor.start text).dropWhile isSpace = c at htext hposition h
    obtain ⟨first, hread, hstart⟩ : ∃ first, readToken first c = .ok (.number v, ⟨Position.start.advance text, []⟩) ∧
        c.position = .start := by
      simp only at h
      split at h
      · cases h
      · split at h
        · next hcomment =>
          cases h
          exact absurd rfl (readComment_number hcomment)
        · cases h
      · split at h
        · next hread =>
          simp only [Except.ok.injEq, Prod.mk.injEq, Option.some.injEq, Token.mk.injEq] at h
          obtain ⟨⟨rfl, hposition⟩, rfl⟩ := h
          exact ⟨_, hread, hposition⟩
        · cases h
    -- The token stands at the start, so there is no white space in front of it.
    have hlen := congrArg Position.offset (hposition.symm.trans hstart)
    rw [Position.offset_advance] at hlen
    have hnil : ((Cursor.start text).takeWhile isSpace).1 = [] :=
      List.eq_nil_of_length_eq_zero (Nat.add_eq_left.1 hlen)
    rw [hnil] at htext
    obtain ⟨position, rest⟩ := c
    obtain rfl : position = .start := hstart
    obtain rfl : text = rest := htext
    exact readToken_number hread
  · rintro ⟨hstarts, hread⟩
    obtain ⟨x, rest, rfl⟩ : ∃ x rest, text = x :: rest := by
      cases text with
      | nil => cases hstarts
      | cons x rest => exact ⟨x, rest, rfl⟩
    have hx : x.isDigit = true ∨ x = '.' := by
      rw [← Text.isDigit_of_ascii (hascii x List.mem_cons_self)]
      unfold startsNumber at hstarts
      split at hstarts
      · next hcons => exact .inr (List.cons.inj hcons).1
      · next hcons => exact .inl ((List.cons.inj hcons).1 ▸ hstarts)
      · cases hstarts
    have hfacts : isSpace x = false ∧ x ≠ '-' ∧ x ≠ '"' ∧ x ≠ '\'' ∧ x ≠ '[' ∧ x ≠ '#' := by
      rcases hx with hx | rfl
      · exact Numeral.forall_isDigit (P := fun x => isSpace x = false ∧ x ≠ '-' ∧ x ≠ '"' ∧ x ≠ '\'' ∧ x ≠ '[' ∧ x ≠ '#')
          (by decide) hx
      · decide
    obtain ⟨hspace, hdash, hquote, hsingle, hbracket, hhash⟩ := hfacts
    have hstep : step (.start (x :: rest)) =
        .ok (some ⟨.number v, .start⟩, some ⟨Position.start.advance (x :: rest), []⟩) := by
      have hskip : (Cursor.start (x :: rest)).dropWhile isSpace = ⟨.start, x :: rest⟩ := by
        simp [Cursor.dropWhile, Cursor.takeWhile, Cursor.start, hspace]
      have hlong : longLevel? (x :: rest) = none := by simp [longLevel?, hbracket]
      rw [step, hskip]
      simp [hdash, readToken, hquote, hsingle, hlong, hstarts, hread]
    exact ⟨by simpa using tokenize_of_step (by simpa using hhash) hstep, hstep⟩

end Token

/-! ## The reader of strings -/

namespace Numeral

open Token

variable {cs : List Char}

theorem mem_of_mem_trim {c : Char} (h : c ∈ Text.trim cs) : c ∈ cs := by
  have hrest := List.mem_reverse.1 ((List.dropWhile_sublist _).subset (List.mem_reverse.1 h))
  exact (List.dropWhile_sublist _).subset hrest

theorem dropWhile_of_head {p : Char → Bool} (h : ∀ c ∈ cs.head?, p c = false) : cs.dropWhile p = cs := by
  cases cs with
  | nil => rfl
  | cons c cs => simp [h c rfl]

theorem plain_trim (h : ∀ c ∈ cs, c.toNat < 128) : plain (Text.trim cs) = Text.trim cs := by
  have hblank {c : Char} (hc : c ∈ cs) : Text.isBlank c = false → isOuterBlank c = false :=
    forall_ascii (P := fun c => Text.isBlank c = false → isOuterBlank c = false) (by decide) (h c hc)
  have hhead (cs : List Char) : ∀ c ∈ (cs.dropWhile Text.isBlank).head?, Text.isBlank c = false := by
    intro c hc
    have := List.head?_dropWhile_not Text.isBlank cs
    rwa [hc] at this
  have hmap : (Text.trim cs).map plainChar = Text.trim cs :=
    (List.map_congr_left fun c hc => plainChar_of_ascii (h c (mem_of_mem_trim hc))).trans (List.map_id _)
  have hfront : ∀ c ∈ (Text.trim cs).head?, isOuterBlank c = false := by
    intro c hc
    refine hblank (mem_of_mem_trim (List.mem_of_head? hc)) (hhead cs c ?_)
    obtain ⟨rest, hrest⟩ : Text.trim cs <+: cs.dropWhile Text.isBlank := by
      rw [← List.reverse_suffix, Text.trim, List.reverse_reverse]
      exact List.dropWhile_suffix _
    rw [← hrest, List.head?_append, hc]
    rfl
  have hback : ∀ c ∈ (Text.trim cs).reverse.head?, isOuterBlank c = false := by
    intro c hc
    have hmem := List.mem_reverse.1 (List.mem_of_head? hc)
    rw [Text.trim, List.reverse_reverse] at hc
    exact hblank (mem_of_mem_trim hmem) (hhead _ c hc)
  rw [plain, hmap, dropWhile_of_head hfront, dropWhile_of_head hback, List.reverse_reverse]

def splitSign : List Char → List Char × List Char
  | '-' :: cs => (['-'], cs)
  | '+' :: cs => (['+'], cs)
  | cs => ([], cs)

theorem splitSign_of_head (h : ∀ c ∈ cs.head?, c ≠ '-' ∧ c ≠ '+') : splitSign cs = ([], cs) := by
  unfold splitSign
  split
  · exact absurd rfl (h '-' rfl).1
  · exact absurd rfl (h '+' rfl).2
  · rfl

theorem sign_cases (cs : List Char) : (∃ rest, cs = '-' :: rest) ∨ (∃ rest, cs = '+' :: rest) ∨
    ∀ c ∈ cs.head?, c ≠ '-' ∧ c ≠ '+' := by
  cases cs with
  | nil => simp
  | cons c cs =>
    by_cases hminus : c = '-'
    · exact .inl ⟨cs, hminus ▸ rfl⟩
    · by_cases hplus : c = '+'
      · exact .inr (.inl ⟨cs, hplus ▸ rfl⟩)
      · simp [hminus, hplus]

def signed (sign : List Char) (v : Number) : Number := if sign = ['-'] then v.neg else v

theorem map_int (base : Nat) (h : plain cs = cs) : (int? base cs).map Number.int =
    (unsigned base (splitSign cs).2).toOption.map fun n : Nat => signed (splitSign cs).1 (.int n) := by
  rw [int?]
  rcases sign_cases cs with ⟨rest, rfl⟩ | ⟨rest, rfl⟩ | hhead
  · rw [int, h]
    simp only [splitSign]
    cases unsigned base rest <;> rfl
  · rw [int, h]
    simp only [splitSign]
    cases unsigned base rest <;> rfl
  · rw [splitSign_of_head hhead, int_of_head base h hhead]
    cases unsigned base cs <;> rfl

theorem map_float (h : plain cs = cs) (hunderscore : '_' ∉ cs) : (float? cs).map Number.float =
    (magnitude? (splitSign cs).2).map fun x => signed (splitSign cs).1 (.float x) := by
  rcases sign_cases cs with ⟨rest, rfl⟩ | ⟨rest, rfl⟩ | hhead
  · rw [float?, h, dropUnderscores?_eq (by simp) hunderscore]
    simp only [Option.bind_eq_bind, Option.bind_some, splitSign]
    cases magnitude? rest <;> rfl
  · rw [float?, h, dropUnderscores?_eq (by simp) hunderscore]
    simp only [Option.bind_eq_bind, Option.bind_some, splitSign]
    cases magnitude? rest <;> rfl
  · rw [splitSign_of_head hhead, float?_of_head h hunderscore hhead]
    cases magnitude? cs <;> rfl

/-! ### Whole numbers -/

theorem natFrom_cons {base n : Nat} {c : Char} (hc : c ≠ '_') : natFrom base n (c :: cs) =
    ((digitValue? c).filter (· < base)).bind fun d => natFrom base (n * base + d) cs := by
  rw [natFrom]
  · cases digitValue? c with
    | none => rfl
    | some d => by_cases hd : d < base <;> simp [hd, Option.filter]
  · exact fun _ _ hcontra => absurd hcontra hc

theorem natFrom_sixteen (hascii : ∀ c ∈ cs, c.toNat < 128) (h : '_' ∉ cs) (n : Nat) : natFrom 16 n cs =
    cs.foldlM (fun n c => (Text.Quoted.hexValue? c).map (16 * n + ·)) n := by
  induction cs generalizing n with
  | nil => rfl
  | cons c cs ih =>
    have hval : (digitValue? c).filter (· < 16) = Text.Quoted.hexValue? c :=
      forall_ascii (P := fun c => (digitValue? c).filter (· < 16) = Text.Quoted.hexValue? c) (by decide)
        (hascii c List.mem_cons_self)
    obtain ⟨hc, hcs⟩ : '_' ≠ c ∧ '_' ∉ cs := by simpa using h
    rw [natFrom_cons hc.symm, hval, List.foldlM_cons]
    cases Text.Quoted.hexValue? c with
    | none => rfl
    | some d =>
      simp only [Option.bind_some, Option.map_some, Option.bind_eq_bind, Nat.mul_comm n 16]
      exact ih (fun c hc => hascii c (List.mem_cons_of_mem _ hc)) hcs _

theorem leadingDigits?_isSome {base n : Nat} (h : '_' ∉ cs) : (leadingDigits? base n cs).isSome = true := by
  fun_induction leadingDigits? base n cs <;> simp_all

theorem nat_eq (base : Nat) (h : '_' ∉ cs) : ∃ count, nat base cs =
    if !isUnlimited base && digitLimit < count then .error (.tooLong count)
    else (nat? base cs).elim (.error .malformed) .ok := by
  obtain ⟨count, hcount⟩ := Option.isSome_iff_exists.1 (@leadingDigits?_isSome cs base 0 h)
  refine ⟨count, ?_⟩
  unfold nat
  split
  · simp at h
  · simp only [hcount]
    cases nat? base cs <;> rfl

theorem nat?_eq_some {base n : Nat} (h : '_' ∉ cs) : nat? base cs = some n ↔ cs ≠ [] ∧ natFrom base 0 cs = some n := by
  unfold nat?
  split
  · simp
  · simp at h
  · next hne _ => exact (and_iff_right hne).symm

theorem nat_sixteen (hascii : ∀ c ∈ cs, c.toNat < 128) (h : '_' ∉ cs) {n : Nat} :
    nat 16 cs = .ok n ↔ cs ≠ [] ∧ Text.Quoted.hexNumber? cs = some n := by
  obtain ⟨count, hnat⟩ := nat_eq 16 h
  rw [hnat, if_neg (by simp [isUnlimited]), Text.Quoted.hexNumber?, ← natFrom_sixteen hascii h, ← nat?_eq_some h]
  cases nat? 16 cs <;> simp

theorem digits_of_nat (hascii : ∀ c ∈ cs, c.toNat < 128) (h : '_' ∉ cs) {n : Nat} (hn : nat 10 cs = .ok n) :
    cs ≠ [] ∧ ∀ c ∈ cs, c.isDigit = true := by
  obtain ⟨count, hnat⟩ := nat_eq 10 h
  have hsome : nat? 10 cs = some n := by
    rw [hnat] at hn
    split at hn
    · cases hn
    · cases hcs : nat? 10 cs <;> rw [hcs] at hn <;> cases hn
      rfl
  obtain ⟨hne, hfrom⟩ := (nat?_eq_some h).1 hsome
  refine ⟨hne, ?_⟩
  clear hn hnat hsome hne
  generalize 0 = a at hfrom
  induction cs generalizing a with
  | nil => simp
  | cons c cs ih =>
    obtain ⟨hc, hcs⟩ : '_' ≠ c ∧ '_' ∉ cs := by simpa using h
    obtain ⟨hcascii, hascii⟩ := List.forall_mem_cons.1 hascii
    rw [natFrom_cons hc.symm] at hfrom
    obtain ⟨d, hd, hrest⟩ := Option.bind_eq_some_iff.1 hfrom
    have hdigit : ((digitValue? c).filter (· < 10)).isSome = true → c.isDigit = true :=
      forall_ascii (P := fun c => ((digitValue? c).filter (· < 10)).isSome = true → c.isDigit = true) (by decide) hcascii
    exact List.forall_mem_cons.2 ⟨hdigit (by rw [hd]; rfl), ih hascii hcs _ hrest⟩

/-! ### Decimal numbers -/

theorem exponent_of_some {e : Int} (h : exponent? cs = some e) : IsExponent Char.isDigit cs := by
  unfold exponent? at h
  split at h
  · exact .inl rfl
  · next mark cs =>
    split at h
    · next hmark =>
      refine .inr ?_
      have hdigits {ds : List Char} {a b : Int} (h : (if (!ds.isEmpty && ds.all Char.isDigit) = true then some a else none) = some b) :
          ds ≠ [] ∧ ∀ x ∈ ds, x.isDigit = true := by
        split at h
        · next hds => simpa using hds
        · cases h
      rcases sign_cases cs with ⟨rest, rfl⟩ | ⟨rest, rfl⟩ | hhead
      · exact ⟨mark, ['-'], rest, rfl, by simpa using hmark, by simp, hdigits h⟩
      · exact ⟨mark, ['+'], rest, rfl, by simpa using hmark, by simp, hdigits h⟩
      · refine ⟨mark, [], cs, rfl, by simpa using hmark, by simp, ?_⟩
        cases cs with
        | nil => simp at h
        | cons c cs =>
          have hc := hhead c rfl
          simp only [hc, List.cons.injEq, false_and, imp_self, implies_true] at h
          exact hdigits h
    · cases h

theorem fraction_of_magnitude {x : Float} (h : magnitude? cs = some x) (hx : x ≠ Binary64.infinity)
    (hnan : x ≠ Binary64.notANumber) : IsFraction Char.isDigit cs := by
  unfold magnitude? at h
  simp only at h
  split at h
  · cases h
    exact absurd rfl hx
  split at h
  · cases h
    exact absurd rfl hnan
  have hcs : cs = (digitsAndRest cs).1 ++ (digitsAndRest cs).2 := (List.takeWhile_append_dropWhile).symm
  have hwhole : ∀ x ∈ (digitsAndRest cs).1, x.isDigit = true := List.all_eq_true.1 List.all_takeWhile
  generalize digitsAndRest cs = found at h hcs hwhole
  obtain ⟨whole, rest⟩ := found
  obtain rfl : cs = whole ++ rest := hcs
  have hshape (places tail : List Char) (hplaces : ∀ x ∈ places, x.isDigit = true)
      (h : (if (whole.isEmpty && places.isEmpty) = true then none else (exponent? tail).map fun e =>
        ofScientific (ofDigits (whole ++ places)) (e - places.length)) = some x) (point : List Char)
      (hpoint : point = [] ∧ places = [] ∨ point = ['.']) :
      IsFraction Char.isDigit (whole ++ (point ++ places) ++ tail) := by
    split at h
    · cases h
    · next hne =>
      obtain ⟨e, he, -⟩ := Option.map_eq_some_iff.1 h
      refine ⟨hwhole, ?_, exponent_of_some he, ?_⟩
      · rcases hpoint with ⟨rfl, rfl⟩ | rfl
        · exact .inl rfl
        · exact .inr ⟨places, rfl, hplaces⟩
      · rcases hpoint with ⟨rfl, rfl⟩ | rfl
        · exact .inl (by simpa using hne)
        · by_cases hwhole : whole = []
          · exact .inr (by cases places <;> simp_all)
          · exact .inl hwhole
  rcases rest with _ | ⟨c, rest⟩
  · have hfraction := hshape [] [] (by simp) h [] (.inl ⟨rfl, rfl⟩)
    rwa [List.append_nil, List.append_nil] at hfraction
  · by_cases hc : c = '.'
    · subst hc
      have hfraction := hshape (rest.takeWhile Char.isDigit) (rest.dropWhile Char.isDigit)
        (List.all_eq_true.1 List.all_takeWhile) h ['.'] (.inr rfl)
      rwa [List.append_assoc, List.append_assoc, List.takeWhile_append_dropWhile] at hfraction
    · simp only [hc, List.cons.injEq, false_and, imp_self, implies_true] at h
      have hfraction := hshape [] (c :: rest) (by simp) h [] (.inl ⟨rfl, rfl⟩)
      rwa [List.append_nil, List.append_nil] at hfraction

end Numeral

namespace Number

open Numeral Token

def isFinite : Number → Bool
  | int _ => true
  | float x => Binary64.isFinite x

def isHexadecimal (text : List Char) : Bool := ['0', 'x'].isPrefixOf (text.map Char.toLower)

/-- The string holds one numeral, as the reader of tokens takes it, between blanks and behind at most one sign.
The value is finite, and no plus sign stands before a hexadecimal numeral. -/
def HoldsNumeral (s : String) (n : Number) : Prop :=
  (∃ v, IsNumeral (splitSign (Text.trim s.toList)).2 v ∧ n = signed (splitSign (Text.trim s.toList)).1 v) ∧
    n.isFinite = true ∧
    ¬((splitSign (Text.trim s.toList)).1 = ['+'] ∧ isHexadecimal (splitSign (Text.trim s.toList)).2 = true)

def isFractional (text : List Char) : Bool :=
  text.any fun c => c == '.' || c == 'e' || c == 'E' || c == 'n' || c == 'N'

theorem ofText?_def (s : String) : ofText? s =
    if (['0', 'x'].isPrefixOf ((Text.trim s.toList).map Char.toLower) ||
        ['-', '0', 'x'].isPrefixOf ((Text.trim s.toList).map Char.toLower)) = true then
      (int? 16 (Text.trim s.toList)).map int
    else if isFractional (Text.trim s.toList) = true then ((float? (Text.trim s.toList)).map float).filter isFinite
    else (int? 10 (Text.trim s.toList)).map int := by
  unfold ofText?
  simp only [isFractional]
  congr 2
  cases float? (Text.trim s.toList) with
  | none => rfl
  | some x =>
    rw [Option.map_some, Option.filter_some]
    rfl

theorem ofText?_eq {s : String} {sign body : List Char} (hs : ∀ c ∈ s.toList, c.toNat < 128 ∧ c ≠ '_')
    (hsplit : splitSign (Text.trim s.toList) = (sign, body)) : ofText? s =
      if (!decide (sign = ['+']) && isHexadecimal body) = true then
        (unsigned 16 body).toOption.map fun n : Nat => signed sign (.int n)
      else if isFractional body = true then ((magnitude? body).map fun x => signed sign (.float x)).filter isFinite
      else (nat 10 body).toOption.map fun n : Nat => signed sign (.int n) := by
  have hascii : ∀ c ∈ Text.trim s.toList, c.toNat < 128 := fun c hc => (hs c (mem_of_mem_trim hc)).1
  have hunderscore : '_' ∉ Text.trim s.toList := fun hc => (hs _ (mem_of_mem_trim hc)).2 rfl
  have hplain := plain_trim fun c hc => (hs c hc).1
  rw [ofText?_def, map_int 16 hplain, map_int 10 hplain, map_float hplain hunderscore, hsplit, unsigned_ten]
  generalize Text.trim s.toList = cs at hsplit hascii
  have hsame : (['0', 'x'].isPrefixOf (cs.map Char.toLower) || ['-', '0', 'x'].isPrefixOf (cs.map Char.toLower)) =
      (!decide (sign = ['+']) && isHexadecimal body) ∧ isFractional cs = isFractional body := by
    rcases sign_cases cs with ⟨rest, rfl⟩ | ⟨rest, rfl⟩ | hhead
    · cases hsplit
      simp [List.isPrefixOf, isHexadecimal, isFractional]
    · cases hsplit
      simp [List.isPrefixOf, isHexadecimal, isFractional]
    · rw [splitSign_of_head hhead] at hsplit
      cases hsplit
      cases body with
      | nil => simp [isHexadecimal]
      | cons c cs =>
        have hlow : c ≠ '-' → ('-' == c.toLower) = false :=
          forall_ascii (P := fun c => c ≠ '-' → ('-' == c.toLower) = false) (by decide) (hascii c List.mem_cons_self)
        simp [List.isPrefixOf, isHexadecimal, hlow (hhead c rfl).1]
  rw [hsame.1, hsame.2]

theorem isHexadecimal_cases {body : List Char} (hascii : ∀ c ∈ body, c.toNat < 128) (h : isHexadecimal body = true) :
    ∃ mark digits, body = '0' :: mark :: digits ∧ (mark = 'x' ∨ mark = 'X') := by
  rcases body with _ | ⟨zero, _ | ⟨mark, digits⟩⟩
  · cases h
  · simp [isHexadecimal, List.isPrefixOf] at h
  · obtain ⟨hzero, hmark⟩ : '0' = zero.toLower ∧ 'x' = mark.toLower := by
      simpa [isHexadecimal] using h
    have hzero' : '0' = zero.toLower → zero = '0' :=
      forall_ascii (P := fun c => '0' = c.toLower → c = '0') (by decide) (hascii zero (by simp))
    have hmark' : 'x' = mark.toLower → mark = 'x' ∨ mark = 'X' :=
      forall_ascii (P := fun c => 'x' = c.toLower → c = 'x' ∨ c = 'X') (by decide) (hascii mark (by simp))
    exact ⟨mark, digits, by rw [hzero' hzero], hmark' hmark⟩

variable {body : List Char} {v : Number}

theorem not_isHexadecimal (hascii : ∀ c ∈ body, c.toNat < 128) (h : IsFraction Char.isDigit body) :
    isHexadecimal body = false := by
  refine Bool.eq_false_iff.2 fun hhex => ?_
  obtain ⟨mark, digits, rfl, hmark⟩ := isHexadecimal_cases hascii hhex
  have hmem := h.mem mark (by simp)
  rcases hmark with rfl | rfl <;> exact absurd hmem (by decide)

theorem writes_hexadecimal (hascii : ∀ c ∈ body, c.toNat < 128)
    (hunderscore : '_' ∉ body) (h : isHexadecimal body = true) :
    Writes body v ↔ ∃ n : Nat, unsigned 16 body = .ok n ∧ v = .int n := by
  obtain ⟨mark, digits, rfl, hmark⟩ := isHexadecimal_cases hascii h
  have hdigits : '_' ∉ digits := fun hmem => hunderscore (by simp [hmem])
  have hunsigned : unsigned 16 ('0' :: mark :: digits) = nat 16 digits := by
    have hdrop : dropUnderscore digits = digits := by
      unfold dropUnderscore
      split
      · simp at hdigits
      · rfl
    rcases hmark with rfl | rfl <;> exact congrArg (nat 16) hdrop
  rw [hunsigned]
  simp only [nat_sixteen (fun c hc => hascii c (by simp [hc])) hdigits]
  constructor
  · intro hwrites
    cases hwrites with
    | hex _ hne hval => exact ⟨_, ⟨hne, hval⟩, rfl⟩
    | decimal hfraction => exact absurd h (by simp [not_isHexadecimal hascii hfraction])
  · rintro ⟨n, ⟨hne, hval⟩, rfl⟩
    exact .hex hmark hne hval

theorem isFractional_eq (h : IsFraction Char.isDigit body) : isFractional body = isPointed body := by
  have hname : ∀ c ∈ body, c ≠ 'n' ∧ c ≠ 'N' := by
    intro c hc
    rcases h.mem c hc with hdigit | hmark
    · exact forall_isDigit (P := fun c => c ≠ 'n' ∧ c ≠ 'N') (by decide) hdigit
    · have hmarks : ∀ c ∈ fractionMarks, c ≠ 'n' ∧ c ≠ 'N' := by simp [fractionMarks]
      exact hmarks c hmark
  unfold isFractional isPointed
  rw [Bool.eq_iff_iff, List.any_eq_true, List.any_eq_true]
  exact exists_congr fun c => and_congr_right fun hc => by simp [hname c hc]

theorem writes_decimal (hascii : ∀ c ∈ body, c.toNat < 128) : (Writes body v ∧ isHexadecimal body = false) ↔
    IsFraction Char.isDigit body ∧ decimalNumber (isFractional body) body = .ok v := by
  constructor
  · rintro ⟨hwrites, hhex⟩
    cases hwrites with
    | hex hmark => rcases hmark with rfl | rfl <;> simp [isHexadecimal] at hhex
    | decimal h hval => exact ⟨h, isFractional_eq h ▸ hval⟩
  · rintro ⟨h, hval⟩
    exact ⟨.decimal h (isFractional_eq h ▸ hval), not_isHexadecimal hascii h⟩

theorem decimalNumber_eq (hascii : ∀ c ∈ body, c.toNat < 128) (h : IsFraction Char.isDigit body) :
    decimalNumber (isFractional body) body = .ok v ↔ if isFractional body = true then (magnitude? body).map float = some v
      else (nat 10 body).toOption.map (fun n : Nat => int n) = some v := by
  obtain ⟨hsolid, hhead⟩ := solid_of_fraction h
  have hmap : body.map plainChar = body :=
    (List.map_congr_left fun c hc => plainChar_of_ascii (hascii c hc)).trans (List.map_id _)
  have hplain : Numeral.plain body = body := by rw [plain_eq_map (hmap.symm ▸ fun c hc => (hsolid c hc).1), hmap]
  unfold decimalNumber integerOf
  split
  · rw [float?_of_head hplain (fun hmem => (hsolid _ hmem).2 rfl) hhead]
    cases magnitude? body <;> simp
  · rw [int_of_head 10 hplain hhead, unsigned_ten]
    cases nat 10 body with
    | ok n => simp [Except.map, Except.toOption]
    | error flaw => cases flaw <;> simp [Except.map, Except.toOption]

theorem isFinite_signed_int (sign : List Char) (n : Int) : (signed sign (.int n)).isFinite = true := by
  unfold signed
  split <;> rfl

theorem finite_of_signed {sign : List Char} {x : Float} (h : (signed sign (.float x)).isFinite = true) :
    x ≠ Binary64.infinity ∧ x ≠ Binary64.notANumber := by
  have hfour : Binary64.isFinite Binary64.infinity = false ∧ Binary64.isFinite (-Binary64.infinity) = false ∧
      Binary64.isFinite Binary64.notANumber = false ∧ Binary64.isFinite (-Binary64.notANumber) = false := by decide
  unfold signed at h
  constructor <;> rintro rfl <;> split at h <;> simp_all [isFinite, neg]

theorem decimal_iff {sign : List Char} {n : Number} (hascii : ∀ c ∈ body, c.toNat < 128) (hunderscore : '_' ∉ body) :
    (if isFractional body = true then ((magnitude? body).map fun x => signed sign (.float x)).filter isFinite
      else (nat 10 body).toOption.map fun k : Nat => signed sign (.int k)) = some n ↔
    (∃ v, (Writes body v ∧ isHexadecimal body = false) ∧ n = signed sign v) ∧ n.isFinite = true := by
  simp only [writes_decimal hascii]
  constructor
  · intro h
    split at h
    · next hfractional =>
      obtain ⟨hmap, hfinite⟩ := Option.filter_eq_some_iff.1 h
      obtain ⟨x, hx, rfl⟩ := Option.map_eq_some_iff.1 hmap
      obtain ⟨hinf, hnan⟩ := finite_of_signed hfinite
      have hshape := fraction_of_magnitude hx hinf hnan
      have hval : decimalNumber (isFractional body) body = .ok (.float x) :=
        (decimalNumber_eq hascii hshape).2 (by rw [if_pos hfractional, hx]; rfl)
      exact ⟨⟨_, ⟨hshape, hval⟩, rfl⟩, hfinite⟩
    · next hwhole =>
      obtain ⟨k, hk, rfl⟩ := Option.map_eq_some_iff.1 h
      have hnat : nat 10 body = .ok k := by
        cases hbody : nat 10 body <;> rw [hbody] at hk <;> cases hk
        rfl
      obtain ⟨hne, hdigits⟩ := digits_of_nat hascii hunderscore hnat
      have hshape : IsFraction Char.isDigit body := by
        have := @IsFraction.mk Char.isDigit body [] [] hdigits (.inl rfl) (.inl rfl) (.inl hne)
        simpa using this
      have hval : decimalNumber (isFractional body) body = .ok (.int k) :=
        (decimalNumber_eq hascii hshape).2 (by rw [if_neg hwhole, hnat]; rfl)
      exact ⟨⟨_, ⟨hshape, hval⟩, rfl⟩, isFinite_signed_int ..⟩
  · rintro ⟨⟨v, ⟨hshape, hval⟩, rfl⟩, hfinite⟩
    have hval := (decimalNumber_eq hascii hshape).1 hval
    split at hval
    · next hfractional =>
      obtain ⟨x, hx, rfl⟩ := Option.map_eq_some_iff.1 hval
      rw [if_pos hfractional, hx, Option.map_some, Option.filter_some, if_pos hfinite]
    · next hwhole =>
      obtain ⟨k, hk, rfl⟩ := Option.map_eq_some_iff.1 hval
      rw [if_neg hwhole, hk]
      rfl

theorem mem_of_mem_splitSign {cs : List Char} {c : Char} (h : c ∈ (splitSign cs).2) : c ∈ cs := by
  rcases sign_cases cs with ⟨rest, rfl⟩ | ⟨rest, rfl⟩ | hhead
  · exact List.mem_cons_of_mem _ h
  · exact List.mem_cons_of_mem _ h
  · rwa [splitSign_of_head hhead] at h

theorem ofText?_iff {s : String} (hs : ∀ c ∈ s.toList, c.toNat < 128 ∧ c ≠ '_') (n : Number) :
    ofText? s = some n ↔ HoldsNumeral s n := by
  have hbody (c : Char) (hc : c ∈ (splitSign (Text.trim s.toList)).2) := hs c (mem_of_mem_trim (mem_of_mem_splitSign hc))
  obtain ⟨sign, body, hsplit⟩ : ∃ sign body, splitSign (Text.trim s.toList) = (sign, body) := ⟨_, _, rfl⟩
  rw [hsplit] at hbody
  rw [ofText?_eq hs hsplit, HoldsNumeral, hsplit]
  have hascii : ∀ c ∈ body, c.toNat < 128 := fun c hc => (hbody c hc).1
  have hunderscore : '_' ∉ body := fun hc => (hbody _ hc).2 rfl
  simp only [isNumeral_iff hascii]
  by_cases hhex : isHexadecimal body = true
  · by_cases hplus : sign = ['+']
    · rw [if_neg (by simp [hplus]), decimal_iff hascii hunderscore]
      simp [hhex, hplus]
    · rw [if_pos (by simp [hhex, hplus])]
      simp only [writes_hexadecimal hascii hunderscore hhex]
      constructor
      · intro h
        obtain ⟨k, hk, rfl⟩ := Option.map_eq_some_iff.1 h
        refine ⟨⟨_, ⟨k, ?_, rfl⟩, rfl⟩, isFinite_signed_int .., fun hcontra => hplus hcontra.1⟩
        cases hbody : unsigned 16 body <;> rw [hbody] at hk <;> cases hk
        rfl
      · rintro ⟨⟨v, ⟨k, hk, rfl⟩, rfl⟩, -⟩
        rw [hk]
        rfl
  · rw [if_neg (by simp [hhex]), decimal_iff hascii hunderscore]
    simp [hhex]

end Number

/-- **Numerals in strings.** A string of ASCII characters without underscores becomes a number exactly if it
holds one numeral of the source text between blanks and behind at most one sign; the number has the value of
the numeral with that sign. Decimals beyond the range and hexadecimal numerals behind a plus sign are refused.
Arithmetic takes the same strings for numbers. -/
theorem strings_hold_numerals (s : String) (hs : ∀ c ∈ s.toList, c.toNat < 128 ∧ c ≠ '_') (n : Number) :
    (∀ store, Library.toNumber (.string s) none store = .ok (.number n) store ↔ n.HoldsNumeral s) ∧
      ∀ operation, Operator.operand operation (.string s) = .ok n ↔ n.HoldsNumeral s := by
  have hread := Number.ofText?_iff hs n
  refine ⟨fun store => ?_, fun operation => ?_⟩
  · rw [← hread]
    show EStateM.Result.ok (Library.ofNumber? (Number.ofText? s)) store = _ ↔ _
    cases Number.ofText? s <;> simp [Library.ofNumber?]
  · rw [← hread]
    have htext : Operator.toNumber? (.string s) = Number.ofText? s := rfl
    rw [Operator.operand, htext]
    cases Number.ofText? s <;> simp [Operator.complain]

theorem strings_hold_numerals_negative : Number.HoldsNumeral "\t-0X1f " (.int (-31)) ∧
    Library.toNumber (.string "\t-0X1f ") none {} = .ok (.number (.int (-31))) {} := by
  have hs : ∀ c ∈ "\t-0X1f ".toList, c.toNat < 128 ∧ c ≠ '_' := by simp
  have hread : Library.toNumber (.string "\t-0X1f ") none {} = .ok (.number (.int (-31))) {} := by
    with_unfolding_all rfl
  exact ⟨((strings_hold_numerals _ hs _).1 {}).1 hread, hread⟩

end TypedLua
