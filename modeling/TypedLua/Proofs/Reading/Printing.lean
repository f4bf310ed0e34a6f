import TypedLua.Proofs.Reading.Numerals

/-!
# Reading printed tokens

Tokens are printed with white space behind each of them: words and symbols by their spelling,
integers in decimal, and strings in double quotes with the backslash, the quote and the line feed
escaped.
-/

namespace TypedLua

/-! ## Classes of characters -/

namespace Text

variable {c : Char}

/-- Two ascending tables have no code point in common; the number bounds the comparisons. -/
def apart : Nat → List (Nat × Nat) → List (Nat × Nat) → Bool
  | 0, _, _ => false
  | _, [], _ | _, _, [] => true
  | n + 1, r :: rs, q :: qs => if r.2 < q.1 then apart n rs (q :: qs) else decide (q.2 < r.1) && apart n (r :: rs) qs

theorem lt_or_lt_of_apart (h : apart n rs qs = true)
    (hrs : rs.Pairwise (·.1 ≤ ·.1)) (hqs : qs.Pairwise (·.1 ≤ ·.1)) : ∀ r ∈ rs, ∀ q ∈ qs, r.2 < q.1 ∨ q.2 < r.1 := by
  fun_induction apart n rs qs with
  | case1 => cases h
  | case2 => simp
  | case3 => simp
  | case4 n r rs q qs hlt ih =>
    intro r' hr' q' hq'
    rcases List.mem_cons.1 hr' with rfl | hr'
    · rcases List.mem_cons.1 hq' with rfl | hq'
      · exact .inl hlt
      · exact .inl (Nat.lt_of_lt_of_le hlt (List.rel_of_pairwise_cons hqs hq'))
    · exact ih h hrs.of_cons hqs r' hr' q' hq'
  | case5 n r rs q qs hlt ih =>
    obtain ⟨hlt', htail⟩ := Bool.and_eq_true_iff.1 h
    intro r' hr' q' hq'
    rcases List.mem_cons.1 hq' with rfl | hq'
    · rcases List.mem_cons.1 hr' with rfl | hr'
      · exact .inr (by simpa using hlt')
      · exact .inr (Nat.lt_of_lt_of_le (by simpa using hlt') (List.rel_of_pairwise_cons hrs hr'))
    · exact ih htail hrs hqs.of_cons r' hr' q' hq'

theorem pairwise_of_isChain {rs : List (Nat × Nat)} (h : rs.IsChain (·.1 ≤ ·.1)) : rs.Pairwise (·.1 ≤ ·.1) :=
  have : IsTrans (Nat × Nat) (·.1 ≤ ·.1) := ⟨fun _ _ _ => Nat.le_trans⟩
  h.pairwise

theorem isDigit_of_isLetter (h : isLetter c = true) : isDigit c = false := by
  unfold isLetter at h
  unfold isDigit
  split at h
  · next hascii =>
    rw [if_pos hascii, ← Bool.not_eq_true]
    intro hdigit
    have hnone := Numeral.forall_isDigit (P := fun c => c.isAlpha = false) (by decide) hdigit
    rw [hnone] at h
    cases h
  · next hascii =>
    rw [if_neg hascii, ← Bool.not_eq_true, inRanges_iff]
    rintro ⟨q, hq, hlow, hhigh⟩
    obtain ⟨r, hr, hlow', hhigh'⟩ := inRanges_iff.1 h
    have hapart : apart 1000 letterRanges digitRanges = true := by decide +kernel
    have := lt_or_lt_of_apart hapart (pairwise_of_isChain (by decide +kernel))
      (pairwise_of_isChain (by decide +kernel)) r hr q hq
    omega

theorem isWordChar_of_isDigit (h : isDigit c = true) : isWordChar c = true := by
  unfold isDigit at h
  unfold isWordChar isAlphanumeric
  split at h
  · next hascii => simp [hascii, Char.isAlphanum, h]
  · next hascii =>
    have hwithin : digitRanges.all (fun q => numericRanges.any fun r => r.1 ≤ q.1 && q.2 ≤ r.2) = true := by
      decide +kernel
    obtain ⟨q, hq, hlow, hhigh⟩ := inRanges_iff.1 h
    obtain ⟨r, hr, hrq⟩ := List.any_eq_true.1 (List.all_eq_true.1 hwithin q hq)
    simp only [Bool.and_eq_true, decide_eq_true_eq] at hrq
    have hnumeric : inRanges numericRanges c = true := inRanges_iff.2 ⟨r, hr, by omega, by omega⟩
    simp [hascii, hnumeric]

end Text

namespace Token

theorem forall_isSpace {P : Char → Prop} (h : P ' ' ∧ P '\t' ∧ P '\r' ∧ P '\n' ∧ P '\x0c' ∧ P '\x0b')
    (hx : isSpace x = true) : P x := by
  have hcases : x = ' ' ∨ x = '\t' ∨ x = '\r' ∨ x = '\n' ∨ x = '\x0c' ∨ x = '\x0b' := by
    simpa [isSpace, or_assoc] using hx
  rcases hcases with rfl | rfl | rfl | rfl | rfl | rfl <;> simp only [h]

/-! ## Printed tokens -/

def escaped : Char → List Char
  | '\\' => ['\\', '\\']
  | '"' => ['\\', '"']
  | '\n' => ['\\', 'n']
  | c => [c]

/-- A letter or an underscore, and letters, digits and underscores behind it; but no reserved word. -/
structure IsName (name : String) : Prop where
  starts : ∃ first ∈ name.toList.head?, Text.isLetter first = true ∨ first = '_'
  goes : ∀ c ∈ name.toList, Text.isLetter c = true ∨ Text.isDigit c = true ∨ c = '_'
  free : ∀ word : Keyword, word.text ≠ name

inductive Printed : Kind → List Char → Prop
  | keyword (word : Keyword) : Printed (.keyword word) word.text.toList
  | symbol (mark : Symbol) : Printed (.symbol mark) mark.chars
  | name {name : String} (h : IsName name) : Printed (.name name) name.toList
  | int (n : Nat) : Printed (.number (.int n)) (Nat.toDigits 10 n)
  | string (value : String) : Printed (.string value) ('"' :: value.toList.flatMap escaped ++ ['"'])

inductive PrintedAll : List Kind → List Char → Prop
  | nil : PrintedAll [] []
  | cons {kind : Kind} {kinds : List Kind} {text rest : List Char} (gap : List Char) (h : Printed kind text)
      (hne : gap ≠ []) (hgap : ∀ c ∈ gap, isSpace c = true) (hrest : PrintedAll kinds rest) :
      PrintedAll (kind :: kinds) (text ++ gap ++ rest)

def Kind.excess? : Kind → Option Nat
  | number (.int n) =>
    let digits := (Nat.toDigits 10 n.toNat).length
    if Numeral.digitLimit < digits then some digits else none
  | _ => none

/-! ## Reading one token -/

/-- The text starts with no white space and no more than a dash or a hash sign of a comment, and reading it in
front of another text gives the token, unless it is an integer with too many digits. -/
def ReadsTo (kind : Kind) (position : Position) (text next : List Char) : Prop :=
  ∃ first cs, text = first :: cs ∧ isSpace first = false ∧ (first = '-' ∨ first = '#' → cs = []) ∧
    ∃ after, readToken first ⟨position, text ++ next⟩ =
      kind.excess?.elim (.ok (kind, ⟨after, next⟩)) fun digits => .error (.digits (.tooLong digits))

section Readers

variable {x : Char} (position : Position) (rest : List Char)

/-- A text in double quotes that stands for a character, whatever is behind it. -/
inductive StandsFor (c : Char) : List Char → Prop
  | plain (hline : c ≠ '\n') (hquote : c ≠ '"') (hslash : c ≠ '\\') : StandsFor c [c]
  | escape {e : Char} (h : plainEscape? e = some c) (hx : e ≠ 'x') : StandsFor c ['\\', e]

theorem stringBody_standsFor (h : StandsFor c text) (opened : Position) :
    ∃ next, stringBody '"' opened .plain position (text ++ rest) =
      consChar c (stringBody '"' opened .plain next rest) := by
  cases h with
  | plain hline hquote hslash =>
    refine ⟨position.step c, ?_⟩
    rw [stringBody.eq_def]
    simp [StringMode.continue?, StringMode.close, hline, hquote, hslash]
  | @escape e h hx =>
    exact ⟨(position.step '\\').step e, by simp [stringBody, StringMode.continue?, StringMode.close, h, hx]⟩

theorem stringBody_close (opened : Position) : ∃ after,
    stringBody '"' opened .plain position ('"' :: rest) = .ok ([], ⟨after, rest⟩) := by
  refine ⟨position.step '"', ?_⟩
  rw [stringBody.eq_def]
  simp [StringMode.continue?, StringMode.close]

theorem standsFor_escaped (c : Char) : StandsFor c (escaped c) := by
  fun_cases escaped c with
  | case1 => exact .escape rfl (by decide)
  | case2 => exact .escape rfl (by decide)
  | case3 => exact .escape rfl (by decide)
  | case4 c hslash hquote hline => exact .plain hline hquote hslash

theorem stringBody_escaped (opened : Position) (cs : List Char) :
    ∃ after, stringBody '"' opened .plain position (cs.flatMap escaped ++ '"' :: rest) = .ok (cs, ⟨after, rest⟩) := by
  induction cs generalizing position with
  | nil => exact stringBody_close position rest opened
  | cons c cs ih =>
    rw [List.flatMap_cons, List.append_assoc]
    obtain ⟨next, hread⟩ := stringBody_standsFor position _ (standsFor_escaped c) opened
    obtain ⟨after, h⟩ := ih next
    exact ⟨after, by rw [hread, h]; rfl⟩

theorem readNumber_digits (hne : ds ≠ []) (hds : ∀ d ∈ ds, d.isDigit = true)
    (hx : isSpace x = true) : readNumber ⟨position, ds ++ x :: rest⟩ =
      if Numeral.digitLimit < ds.length then .error (.digits (.tooLong ds.length))
      else .ok (.int (Nat.ofDigitChars 10 ds 0 : Nat), ⟨position.advance ds, x :: rest⟩) := by
  have hstop : Text.isDigit x = false := forall_isSpace (P := fun x => Text.isDigit x = false) (by decide) hx
  have hall : ∀ d ∈ ds, Text.isDigit d = true := fun d hd =>
    Numeral.forall_isDigit (P := fun d => Text.isDigit d = true) (by decide) (hds d hd)
  have hplain : ds.map Numeral.plainChar = ds :=
    (List.map_congr_left fun d hd => Numeral.plainChar_of_isDigit (hds d hd)).trans (List.map_id ds)
  have hint := Numeral.int_decimals hne fun d hd =>
    Numeral.forall_isDigit (P := fun d => Text.isDecimal d = true) (by decide) (hds d hd)
  have hwhole : Cursor.takeWhile Text.isDigit ⟨position, ds ++ x :: rest⟩ =
      (ds, ⟨position.advance ds, x :: rest⟩) := by
    simp [Cursor.takeWhile, List.takeWhile_append_of_pos hall, List.dropWhile_append_of_pos hall, hstop]
  have hnumber : readNumber ⟨position, ds ++ x :: rest⟩ = readDecimal ⟨position, ds ++ x :: rest⟩ := by
    unfold readNumber
    split
    · next mark _ hcons =>
      -- The second character is a digit or white space.
      have hmark : mark.isDigit = true ∨ isSpace mark = true := by
        rcases ds with _ | ⟨d, _ | ⟨e, ds⟩⟩
        · contradiction
        · obtain ⟨-, rfl, -⟩ := by simpa using hcons
          exact .inr hx
        · obtain ⟨-, rfl, -⟩ := by simpa using hcons
          exact .inl (hds e (by simp))
      refine if_neg ?_
      rcases hmark with hmark | hmark
      · exact Numeral.forall_isDigit (P := fun d => ¬(d = 'x' || d = 'X') = true) (by decide) hmark
      · exact forall_isSpace (P := fun d => ¬(d = 'x' || d = 'X') = true) (by decide) hmark
    · rfl
  have hends : x ≠ '.' ∧ x ≠ 'e' ∧ x ≠ 'E' ∧ x ≠ '_' ∧ Text.isLetter x = false := forall_isSpace
    (P := fun x => x ≠ '.' ∧ x ≠ 'e' ∧ x ≠ 'E' ∧ x ≠ '_' ∧ Text.isLetter x = false) (by decide) hx
  have hplaces (after : Position) : readPlaces ⟨after, x :: rest⟩ = ([], ⟨after, x :: rest⟩) := by
    simp [readPlaces, hends]
  have hexp (after : Position) : readExponent ⟨after, x :: rest⟩ = .ok ([], ⟨after, x :: rest⟩) := by
    simp [readExponent, hends]
  have hadjoining (after : Position) : adjoining? ⟨after, x :: rest⟩ = none := by simp [adjoining?, hends]
  rw [hnumber]
  simp only [readDecimal, hwhole, hplaces, hexp, hadjoining, decimalNumber, integerOf, List.append_nil, hint,
    hplain]
  by_cases hlimit : Numeral.digitLimit < ds.length <;> simp [hlimit, Except.map]

theorem readName_word (hcs : ∀ c ∈ cs, Text.isWordChar c = true) (hx : isSpace x = true) :
    readName ⟨position, cs ++ x :: rest⟩ =
      ((Keyword.ofText? (String.ofList cs)).elim (.name (String.ofList cs)) .keyword,
        ⟨position.advance cs, x :: rest⟩) := by
  have hstop : Text.isWordChar x = false := forall_isSpace (P := fun x => Text.isWordChar x = false) (by decide) hx
  have htake : Cursor.takeWhile Text.isWordChar ⟨position, cs ++ x :: rest⟩ =
      (cs, ⟨position.advance cs, x :: rest⟩) := by
    simp [Cursor.takeWhile, List.takeWhile_append_of_pos hcs, List.dropWhile_append_of_pos hcs, hstop]
  rw [readName, htake]
  cases h : Keyword.ofText? (String.ofList cs) <;> simp [h]

theorem readsTo_word {word : String} (hstarts : ∃ first ∈ word.toList.head?, Text.isLetter first = true ∨ first = '_')
    (hgoes : ∀ c ∈ word.toList, Text.isWordChar c = true) (hx : isSpace x = true) :
    ReadsTo ((Keyword.ofText? word).elim (.name word) .keyword) position word.toList (x :: rest) := by
  obtain ⟨first, hhead, hfirst⟩ := hstarts
  obtain ⟨cs, hcs⟩ := List.head?_eq_some_iff.1 hhead
  have hmark (mark : Char) (hmark : Text.isLetter mark = false ∧ mark ≠ '_') : first ≠ mark := by
    rintro rfl
    simp [hmark] at hfirst
  have hblank : isSpace first = false := by
    rw [← Bool.not_eq_true]
    intro hspace
    exact hmark first (forall_isSpace (P := fun x => Text.isLetter x = false ∧ x ≠ '_') (by decide) hspace) rfl
  have hdigit : Text.isDigit first = false := by
    rcases hfirst with hletter | rfl
    · exact Text.isDigit_of_isLetter hletter
    · decide
  have hlong : longLevel? (first :: cs ++ x :: rest) = none := by simp [longLevel?, hmark '[' (by decide)]
  have hnumber : startsNumber (first :: cs ++ x :: rest) = false := by
    simp [startsNumber, hmark '.' (by decide), hdigit]
  have hexcess : ((Keyword.ofText? word).elim (.name word) Kind.keyword).excess? = none := by
    cases Keyword.ofText? word <;> rfl
  have hcomment : ¬(first = '-' ∨ first = '#') := by simp [hmark '-' (by decide), hmark '#' (by decide)]
  refine ⟨first, cs, hcs, hblank, fun h => absurd h hcomment, position.advance word.toList, ?_⟩
  have hname := readName_word position rest hgoes hx
  rw [String.ofList_toList, hcs] at hname
  have hletter : (Text.isLetter first || first == '_') = true := by simpa using hfirst
  rw [hexcess, hcs, readToken]
  simp only [hlong, hnumber, hname, hletter, hmark '"' (by decide), hmark '\'' (by decide)]
  simp

theorem readsTo_symbol (mark : Symbol) : isSpace x = true →
    ReadsTo (.symbol mark) position mark.chars (x :: rest) := by
  -- A symbol is read by its own characters and one behind them, so all cases are closed.
  refine forall_isSpace (P := fun x => ReadsTo (.symbol mark) position mark.chars (x :: rest)) ?_
  refine ⟨?_, ?_, ?_, ?_, ?_, ?_⟩ <;> cases mark <;> exact ⟨_, _, rfl, rfl, by decide, _, rfl⟩

theorem readsTo_printed {kind : Kind} {text : List Char} (h : Printed kind text) (hx : isSpace x = true) :
    ReadsTo kind position text (x :: rest) := by
  cases h with
  | keyword word =>
    have hword : Keyword.ofText? word.text = some word := by cases word <;> rfl
    have hread := readsTo_word position rest
      (by cases word <;> exact ⟨_, rfl, .inl rfl⟩ : ∃ first ∈ word.text.toList.head?, _)
      (List.all_eq_true.1 (by cases word <;> decide)) hx
    rwa [hword] at hread
  | symbol mark => exact readsTo_symbol position rest mark hx
  | @name name h =>
    have hname : Keyword.ofText? name = none := by simpa [Keyword.ofText?] using fun word _ => h.free word
    have hread := readsTo_word position rest h.starts (fun c hc => ?_) hx
    · rwa [hname] at hread
    · rcases h.goes c hc with hletter | hdigit | rfl
      · exact isWordChar_of_isLetter hletter
      · exact Text.isWordChar_of_isDigit hdigit
      · decide
  | int n =>
    have hdigits : ∀ d ∈ Nat.toDigits 10 n, d.isDigit = true := fun d =>
      Nat.isDigit_of_mem_toDigits (by decide) (by decide)
    obtain ⟨d, ds, hds⟩ := List.exists_cons_of_ne_nil (Nat.toDigits_ne_nil (n := n) (b := 10))
    have hread := readNumber_digits position rest Nat.toDigits_ne_nil hdigits hx
    have hd : d.isDigit = true := hdigits d (by simp [hds])
    obtain ⟨hblank, hdigit, hmarks⟩ := Numeral.forall_isDigit (P := fun d => isSpace d = false ∧
      Text.isDigit d = true ∧ ¬(d = '-' ∨ d = '#') ∧ d ≠ '"' ∧ d ≠ '\'' ∧ d ≠ '[' ∧ d ≠ '.') (by decide) hd
    rw [Nat.ofDigitChars_toDigits (by decide) (by decide), hds] at hread
    refine ⟨d, ds, hds, hblank, fun h => absurd h hmarks.1, position.advance (d :: ds), ?_⟩
    have hlong : longLevel? (d :: ds ++ x :: rest) = none := by simp [longLevel?, hmarks]
    have hnumber : startsNumber (d :: ds ++ x :: rest) = true := by simp [startsNumber, hmarks, hdigit]
    rw [hds, readToken, if_neg (by simp [hmarks])]
    simp only [hlong, hnumber, hread, if_true, Kind.excess?, Int.toNat_natCast, hds]
    by_cases hlimit : Numeral.digitLimit < (d :: ds).length <;> simp only [hlimit, if_true, if_false] <;> rfl
  | string value =>
    obtain ⟨after, hbody⟩ := stringBody_escaped (position.step '"') (x :: rest) position value.toList
    refine ⟨'"', _, rfl, rfl, fun h => absurd h (by decide), after, ?_⟩
    simp [readToken, Cursor.advance, hbody, Kind.excess?]

end Readers

/-! ## Reading all tokens -/

theorem step_readsTo {kind : Kind} {text blank rest : List Char} {x : Char} {position : Position}
    (h : ReadsTo kind (position.advance blank) text (x :: rest)) (hblank : ∀ c ∈ blank, isSpace c = true)
    (hx : isSpace x = true) : ∃ after, step ⟨position, blank ++ (text ++ x :: rest)⟩ = kind.excess?.elim
      (.ok (some ⟨kind, position.advance blank⟩, some ⟨after, x :: rest⟩))
      fun digits => .error (.digits (.tooLong digits)) := by
  obtain ⟨first, cs, rfl, hfirst, hminus, after, hread⟩ := h
  have hskip : Cursor.dropWhile isSpace ⟨position, blank ++ (first :: cs ++ x :: rest)⟩ =
      ⟨position.advance blank, first :: cs ++ x :: rest⟩ := by
    simp [Cursor.dropWhile, Cursor.takeWhile, List.takeWhile_append_of_pos hblank,
      List.dropWhile_append_of_pos hblank, hfirst]
  refine ⟨after, ?_⟩
  simp only [step, hskip]
  split
  · next hnil => simp at hnil
  · next hdashes =>
    obtain ⟨hdash, htail⟩ := List.cons.inj hdashes
    rw [hminus (.inl hdash)] at htail
    obtain rfl := (List.cons.inj htail).1
    cases hx
  · next hcons =>
    obtain ⟨rfl, -⟩ := List.cons.inj hcons
    rw [hread]
    cases kind.excess? <;> rfl

/-- What reading printed tokens gives: the tokens, up to the first integer with too many digits. -/
def readBack (kinds : List Kind) : Except LexFailure (List Kind) := match kinds.findSome? Kind.excess? with
  | none => .ok (kinds ++ [.eof])
  | some digits => .error (.digits (.tooLong digits))

theorem tokensFrom_eq (c : Cursor) : tokensFrom c = match step c with
      | .error e => .error e
      | .ok (token, none) => .ok token.toList
      | .ok (token, some after) => (tokensFrom after).map (token.toList ++ ·) := by
  rw [tokensFrom]
  split
  · next h => rw [h]
  · next h => rw [h]
  · next after h =>
    simp only [h]
    cases tokensFrom after <;> rfl

theorem skipFirstLine_eq {text : List Char} (hfirst : text.head? ≠ some '#') : skipFirstLine text = .start text := by
  refine if_neg fun hprefix => hfirst ?_
  obtain ⟨rest, rfl⟩ := List.isPrefixOf_iff_prefix.1 hprefix
  rfl

theorem tokenize_of_step {text : List Char}
    (hfirst : text.head? ≠ some '#') (h : step (.start text) = .ok (token, some ⟨after, []⟩)) :
    tokenize text = .ok (token.toList ++ [⟨.eof, after⟩]) := by
  have hend : tokensFrom ⟨after, []⟩ = .ok [⟨.eof, after⟩] := by
    rw [tokensFrom_eq]
    rfl
  rw [tokenize, skipFirstLine_eq hfirst, tokensFrom_eq, h]
  simp only [hend]
  rfl

theorem tokensFrom_printed (h : PrintedAll kinds text)
    (hblank : ∀ c ∈ blank, isSpace c = true) (position : Position) :
    (tokensFrom ⟨position, blank ++ text⟩).map (List.map Token.kind) = readBack kinds := by
  induction h generalizing blank position with
  | nil =>
    have hskip : (Cursor.dropWhile isSpace ⟨position, blank ++ []⟩).rest = [] := List.dropWhile_append_of_pos hblank
    rw [tokensFrom_eq, step]
    simp only [hskip]
    rfl
  | @cons kind kinds text rest gap h hne hgap hrest ih =>
    obtain ⟨x, gap, rfl⟩ := List.exists_cons_of_ne_nil hne
    have hx : isSpace x = true := hgap x (by simp)
    obtain ⟨after, hstep⟩ := step_readsTo (readsTo_printed (position.advance blank) (gap ++ rest) h hx) hblank hx
    have hih := ih hgap after
    rw [List.append_assoc, List.cons_append, tokensFrom_eq, hstep]
    cases hexcess : kind.excess? with
    | some digits => simp [readBack, hexcess, Except.map]
    | none =>
      have hback : readBack (kind :: kinds) = (readBack kinds).map (kind :: ·) := by
        simp only [readBack, List.findSome?_cons, hexcess]
        cases kinds.findSome? Kind.excess? <;> rfl
      rw [hback, ← hih]
      simp only [Option.elim_none, List.cons_append]
      cases tokensFrom ⟨after, x :: (gap ++ rest)⟩ <;> rfl

/-- **Reading undoes printing**: the tokens of a printed text are the tokens that were printed and the end of
the text; only an integer with more digits than can be read makes reading fail, at the first one. -/
theorem tokenize_printed {kinds : List Kind} {text : List Char} (h : PrintedAll kinds text) :
    (tokenize text).map (List.map Token.kind) = match kinds.findSome? Kind.excess? with
      | none => .ok (kinds ++ [.eof])
      | some digits => .error (.digits (.tooLong digits)) := by
  have hfirst : ['#', '!'].isPrefixOf text = false := by
    cases h with
    | nil => rfl
    | @cons _ _ _ rest gap h hne hgap =>
      obtain ⟨x, gap, rfl⟩ := List.exists_cons_of_ne_nil hne
      have hx : isSpace x = true := hgap x (by simp)
      obtain ⟨first, cs, rfl, -, hhash, -⟩ := readsTo_printed .start (gap ++ rest) h hx
      by_cases hfirst : first = '#'
      · have hbang : '!' ≠ x := forall_isSpace (P := fun x => '!' ≠ x) (by decide) hx
        simp [List.isPrefixOf, hhash (.inr hfirst), hbang]
      · simp [List.isPrefixOf, Ne.symm hfirst]
  rw [tokenize, skipFirstLine, if_neg (by simp [hfirst])]
  exact tokensFrom_printed h (by simp : ∀ c ∈ [], isSpace c = true) .start

/-- A declaration with a name of letters and digits, a string with escapes, and integers. -/
theorem tokenize_printed_declaration :
    PrintedAll [.keyword .local_, .name "_é1", .symbol .assign, .string "say \"\\\n", .symbol .concat,
        .number (.int 10)] "local _é1\t= \"say \\\"\\\\\\n\"\r\n.. 10 ".toList ∧
      (tokenize "local _é1\t= \"say \\\"\\\\\\n\"\r\n.. 10 ".toList).map (List.map Token.kind) =
        .ok [.keyword .local_, .name "_é1", .symbol .assign, .string "say \"\\\n", .symbol .concat,
          .number (.int 10), .eof] := by
  have hletter : Text.isLetter 'é' = true ∧ Text.isDigit '1' = true := by decide
  have hname : IsName "_é1" := ⟨⟨'_', rfl, .inr rfl⟩, by simp [hletter], fun word => by cases word <;> decide⟩
  have h : PrintedAll [.keyword .local_, .name "_é1", .symbol .assign, .string "say \"\\\n", .symbol .concat,
      .number (.int 10)] "local _é1\t= \"say \\\"\\\\\\n\"\r\n.. 10 ".toList :=
    .cons [' '] (.keyword .local_) (by decide) (by simp [isSpace]) <|
      .cons ['\t'] (.name hname) (by decide) (by simp [isSpace]) <|
      .cons [' '] (.symbol .assign) (by decide) (by simp [isSpace]) <|
      .cons ['\r', '\n'] (.string "say \"\\\n") (by decide) (by simp [isSpace]) <|
      .cons [' '] (.symbol .concat) (by decide) (by simp [isSpace]) <|
      .cons [' '] (.int 10) (by decide) (by simp [isSpace]) .nil
  exact ⟨h, tokenize_printed h⟩

end Token

end TypedLua
