import Mathlib.Data.List.Basic
import TypedLua.Token.Tokenize

/-!
# Numerals of decimal digits

The readers of numbers take every numeral whose digits are decimal, in any script, up to the limit
on the number of digits.
-/

namespace TypedLua

namespace Token

theorem IsFraction.head {digit : Char → Bool} (h : IsFraction digit numeral) :
    ∃ x rest, numeral = x :: rest ∧ (digit x = true ∨ x = '.') := by
  obtain ⟨hwhole, hplaces, -, hdigits⟩ := h
  next whole places exponent =>
  cases whole with
  | cons x whole => exact ⟨x, _, rfl, .inl (hwhole x List.mem_cons_self)⟩
  | nil =>
    rcases hplaces with rfl | ⟨ds, rfl, -⟩
    · simp at hdigits
    · exact ⟨'.', _, rfl, .inr rfl⟩

def fractionMarks : List Char := ['.', 'e', 'E', '+', '-']

theorem IsFraction.mem {digit : Char → Bool} (h : IsFraction digit numeral) :
    ∀ c ∈ numeral, digit c = true ∨ c ∈ fractionMarks := by
  obtain ⟨hwhole, hplaces, hexp, -⟩ := h
  intro c hc
  rcases List.mem_append.1 hc with hc | hc
  · rcases List.mem_append.1 hc with hc | hc
    · exact .inl (hwhole c hc)
    · rcases hplaces with rfl | ⟨ds, rfl, hds⟩
      · cases hc
      · rcases List.mem_cons.1 hc with rfl | hc
        · exact .inr (by decide)
        · exact .inl (hds c hc)
  · rcases hexp with rfl | ⟨mark, sign, ds, rfl, hmark, hsign, -, hds⟩
    · cases hc
    · simp only [List.cons_append, List.mem_cons, List.mem_append] at hc
      rcases hc with rfl | hc | hc
      · rcases hmark with rfl | rfl <;> exact .inr (by decide)
      · rcases hsign with rfl | rfl | rfl
        · cases hc
        · rw [List.mem_singleton.1 hc]
          exact .inr (by decide)
        · rw [List.mem_singleton.1 hc]
          exact .inr (by decide)
      · exact .inl (hds c hc)

theorem IsFraction.map {digit digit' : Char → Bool} {f : Char → Char}
    (h : IsFraction digit numeral) (hf : ∀ c ∈ numeral, digit c = true → digit' (f c) = true)
    (hmarks : ∀ c ∈ fractionMarks, f c = c) : IsFraction digit' (numeral.map f) := by
  have himage {ds : List Char} (hsub : ∀ c ∈ ds, c ∈ numeral) (hds : ∀ c ∈ ds, digit c = true) :
      ∀ c ∈ ds.map f, digit' c = true := by
    simpa using fun c hc => hf c (hsub c hc) (hds c hc)
  obtain ⟨hwhole, hplaces, hexp, hdigits⟩ := h
  next whole places exponent =>
  rw [List.map_append, List.map_append]
  refine ⟨himage (by simp +contextual) hwhole, ?_, ?_, by simpa using hdigits⟩
  · rcases hplaces with rfl | ⟨ds, rfl, hds⟩
    · exact .inl rfl
    · exact .inr ⟨ds.map f, by rw [List.map_cons, hmarks '.' (by decide)], himage (by simp +contextual) hds⟩
  · rcases hexp with rfl | ⟨mark, sign, ds, rfl, hmark, hsign, hne, hds⟩
    · exact .inl rfl
    · have hmark' : f mark = mark := by rcases hmark with rfl | rfl <;> exact hmarks _ (by decide)
      have hsign' : sign.map f = sign := by
        rcases hsign with rfl | rfl | rfl
        · rfl
        · rw [List.map_singleton, hmarks '+' (by decide)]
        · rw [List.map_singleton, hmarks '-' (by decide)]
      refine .inr ⟨mark, sign, ds.map f, ?_, hmark, hsign, by simpa using hne, himage (by simp +contextual) hds⟩
      rw [List.map_append, List.map_cons, hmark', hsign']

end Token

namespace Numeral

open Token

/-! ## Digits -/

theorem forall_isDigit {P : Char → Prop} (h : ∀ d < 10, P (Char.ofNat (48 + d))) {c : Char}
    (hc : c.isDigit = true) : P c := by
  obtain ⟨hlow, hhigh⟩ : 48 ≤ c.toNat ∧ c.toNat ≤ 57 := Char.isDigit_iff_toNat.1 hc
  have hchar := h (c.toNat - 48) (by omega)
  rwa [Nat.add_sub_cancel' hlow, Char.ofNat_toNat] at hchar

theorem isOuterBlank_of_isDigit {c : Char} : c.isDigit = true → isOuterBlank c = false :=
  forall_isDigit (P := fun c => isOuterBlank c = false) (by decide)

theorem digitValue?_of_isDigit {c : Char} : c.isDigit = true →
    digitValue? c = some (c.toNat - '0'.toNat) ∧ c.toNat - '0'.toNat < 10 ∧ c ≠ '_' :=
  forall_isDigit (P := fun c => digitValue? c = some (c.toNat - '0'.toNat) ∧
    c.toNat - '0'.toNat < 10 ∧ c ≠ '_') (by decide)

theorem ne_of_isDigit {c : Char} : c.isDigit = true → c ≠ '-' ∧ c ≠ '+' ∧ c.toLower ≠ 'i' ∧ c.toLower ≠ 'n' :=
  forall_isDigit (P := fun c => c ≠ '-' ∧ c ≠ '+' ∧ c.toLower ≠ 'i' ∧ c.toLower ≠ 'n') (by decide)

theorem isDigit_plainChar (h : Text.isDecimal c = true) : (plainChar c).isDigit = true := by
  obtain ⟨v, hv⟩ := Option.isSome_iff_exists.1 h
  have hval := hv
  unfold Text.decimalValue? at hval
  unfold plainChar
  split at hval
  · next hascii =>
    split at hval
    · next hdigit => rwa [if_pos hascii]
    · cases hval
  · next hascii =>
    obtain ⟨base, hbase, rfl⟩ := Option.map_eq_some_iff.1 hval
    have hmem := List.mem_of_find?_eq_some hbase
    have hrange : base ≤ c.toNat ∧ c.toNat < base + 10 := by simpa using List.find?_some hbase
    have hblank : Text.isBlank c = false := by
      have hapart : ∀ b ∈ Text.decimalZeros, ∀ r ∈ Text.blankRanges, b + 10 ≤ r.1 ∨ r.2 < b := by decide
      rw [Text.isBlank, ← Bool.not_eq_true, Text.inRanges_iff]
      rintro ⟨r, hr, hlow, hhigh⟩
      have := hapart base hmem r hr
      omega
    rw [if_neg hascii, hblank, hv]
    have hten : ∀ d < 10, (Nat.digitChar d).isDigit = true := by decide
    exact hten _ (by omega)

theorem plainChar_of_ascii {c : Char} (h : c.toNat < 128) : plainChar c = c := if_pos h

theorem plainChar_of_isDigit {c : Char} (h : c.isDigit = true) : plainChar c = c := by
  have hhigh : c.toNat ≤ 57 := (Char.isDigit_iff_toNat.1 h).2
  exact plainChar_of_ascii (by omega)

theorem plain_eq_map {cs : List Char} (h : ∀ c ∈ cs.map plainChar, isOuterBlank c = false) :
    plain cs = cs.map plainChar := by
  have hdrop : ∀ xs : List Char, (∀ x ∈ xs, isOuterBlank x = false) → xs.dropWhile isOuterBlank = xs := by
    intro xs hxs
    cases xs with
    | nil => rfl
    | cons x xs => simp [hxs x List.mem_cons_self]
  rw [plain, hdrop _ h, hdrop _ fun x hx => h x (List.mem_reverse.1 hx), List.reverse_reverse]

/-! ## Whole numbers -/

variable {cs : List Char}

theorem natFrom_digits (h : ∀ c ∈ cs, c.isDigit = true) (n : Nat) :
    natFrom 10 n cs = some (Nat.ofDigitChars 10 cs n) := by
  induction cs generalizing n with
  | nil => rfl
  | cons c cs ih =>
    obtain ⟨hc, hcs⟩ := List.forall_mem_cons.1 h
    obtain ⟨hval, hlt, hne⟩ := digitValue?_of_isDigit hc
    rw [natFrom, hval, Nat.ofDigitChars_cons, Nat.mul_comm 10 n]
    · simp only [hlt, if_true]
      exact ih hcs _
    · exact fun _ _ hcontra => absurd hcontra hne

theorem leadingDigits?_digits (h : ∀ c ∈ cs, c.isDigit = true) (n : Nat) :
    leadingDigits? 10 n cs = some (n + cs.length) := by
  induction cs generalizing n with
  | nil => rfl
  | cons c cs ih =>
    obtain ⟨hc, hcs⟩ := List.forall_mem_cons.1 h
    obtain ⟨hval, hlt, hne⟩ := digitValue?_of_isDigit hc
    have hdigit : isDigitOf 10 c = true := by simpa [isDigitOf, hval] using hlt
    rw [leadingDigits?, if_pos hdigit, ih hcs, List.length_cons, Nat.add_right_comm, Nat.add_assoc]
    · exact fun hcontra => absurd hcontra hne
    · exact fun _ _ hcontra => absurd hcontra hne

theorem nat_digits (hne : cs ≠ []) (h : ∀ c ∈ cs, c.isDigit = true) :
    nat 10 cs = if digitLimit < cs.length then .error (.tooLong cs.length)
      else .ok (Nat.ofDigitChars 10 cs 0) := by
  obtain ⟨c, rest, rfl⟩ := List.exists_cons_of_ne_nil hne
  obtain ⟨-, -, hunderscore⟩ := digitValue?_of_isDigit (h c List.mem_cons_self)
  have hnat : nat? 10 (c :: rest) = some (Nat.ofDigitChars 10 (c :: rest) 0) := by
    rw [nat?, natFrom_digits h]
    · simp
    · exact fun _ hcontra => hunderscore (List.cons.inj hcontra).1
  rw [nat, leadingDigits?_digits h, Nat.zero_add]
  · simp [isUnlimited, hnat]
  · exact fun _ hcontra => hunderscore (List.cons.inj hcontra).1

theorem unsigned_ten (cs : List Char) : unsigned 10 cs = nat 10 cs := by
  unfold unsigned
  split
  · contradiction
  · contradiction
  · next mark _ _ =>
    have hmark : baseOfMark? mark ≠ some 10 := by
      unfold baseOfMark?
      split <;> simp
    rw [if_neg hmark]
  · rfl

theorem int_of_head (base : Nat) (h : plain cs = ds) (hhead : ∀ d ∈ ds.head?, d ≠ '-' ∧ d ≠ '+') :
    int base cs = (unsigned base ds).map fun n => (n : Int) := by
  rw [int, h]
  split
  · exact absurd rfl (hhead '-' rfl).1
  · exact absurd rfl (hhead '+' rfl).2
  · rfl

theorem int_decimals (hne : cs ≠ []) (h : ∀ c ∈ cs, Text.isDecimal c = true) :
    int 10 cs = if digitLimit < cs.length then .error (.tooLong cs.length)
      else .ok (Nat.ofDigitChars 10 (cs.map plainChar) 0 : Nat) := by
  have hdigits : ∀ c ∈ cs.map plainChar, c.isDigit = true := by simpa using fun c hc => isDigit_plainChar (h c hc)
  have hplain := plain_eq_map fun c hc => isOuterBlank_of_isDigit (hdigits c hc)
  have hhead : ∀ c ∈ (cs.map plainChar).head?, c ≠ '-' ∧ c ≠ '+' := fun c hc =>
    have hsign := ne_of_isDigit (hdigits c (List.mem_of_head? hc))
    ⟨hsign.1, hsign.2.1⟩
  rw [int_of_head 10 hplain hhead, unsigned_ten, nat_digits (by simpa using hne) hdigits, List.length_map]
  split <;> rfl

/-! ## Decimal numbers -/

theorem span_append {p : Char → Bool} {xs ys : List Char} (hxs : ∀ x ∈ xs, p x = true)
    (hys : ∀ y ∈ ys.head?, p y = false) : (xs ++ ys).takeWhile p = xs ∧ (xs ++ ys).dropWhile p = ys := by
  rw [List.takeWhile_append_of_pos hxs, List.dropWhile_append_of_pos hxs]
  cases ys with
  | nil => simp
  | cons y ys => simp [hys y rfl]

theorem digitsAndRest_append {xs ys : List Char} (hxs : ∀ x ∈ xs, x.isDigit = true)
    (hys : ∀ y ∈ ys.head?, y.isDigit = false) : digitsAndRest (xs ++ ys) = (xs, ys) := by
  rw [digitsAndRest, (span_append hxs hys).1, (span_append hxs hys).2]

theorem dropUnderscores?_eq (hbefore : before ≠ some '_') (h : '_' ∉ cs) :
    dropUnderscores? before cs = some cs := by
  induction cs generalizing before with
  | nil => rw [dropUnderscores?, if_neg hbefore]
  | cons c cs ih =>
    have hc : c ≠ '_' := fun hcontra => h (hcontra ▸ List.mem_cons_self)
    have hcs : '_' ∉ cs := fun hcontra => h (List.mem_cons_of_mem c hcontra)
    rw [dropUnderscores?]
    simp only [hc, if_false, hbefore, decide_false, Bool.false_and, Bool.false_eq_true]
    rw [ih (by simpa using hc) hcs]
    rfl

theorem exponent?_isSome (h : exponent = [] ∨ ∃ mark sign ds, exponent = mark :: sign ++ ds ∧
      (mark = 'e' ∨ mark = 'E') ∧ (sign = [] ∨ sign = ['+'] ∨ sign = ['-']) ∧ ds ≠ [] ∧ ∀ x ∈ ds, x.isDigit = true) :
    (exponent? exponent).isSome = true := by
  rcases h with rfl | ⟨mark, sign, ds, rfl, hmark, hsign, hne, hds⟩
  · rfl
  · have hmark' : (mark = 'e' || mark = 'E') = true := by simpa using hmark
    have hgood : (!ds.isEmpty && ds.all Char.isDigit) = true := by simpa [hne] using hds
    rcases hsign with rfl | rfl | rfl
    · obtain ⟨d, rest, rfl⟩ := List.exists_cons_of_ne_nil hne
      have hd := ne_of_isDigit (hds d List.mem_cons_self)
      show (exponent? (mark :: d :: rest)).isSome = true
      rw [exponent?, if_pos hmark', if_pos hgood]
      · rfl
      · exact fun _ hcontra => hd.1 (List.cons.inj hcontra).1
      · exact fun _ hcontra => hd.2.1 (List.cons.inj hcontra).1
    · show (exponent? (mark :: '+' :: ds)).isSome = true
      rw [exponent?, if_pos hmark', if_pos hgood]
      rfl
    · show (exponent? (mark :: '-' :: ds)).isSome = true
      rw [exponent?, if_pos hmark', if_pos hgood]
      rfl

theorem magnitude?_isSome (h : IsFraction Char.isDigit cs) : (magnitude? cs).isSome = true := by
  obtain ⟨x, rest, hcons, hx⟩ := h.head
  have hname (name : String) (hname : name.toList.head? = some 'i' ∨ name.toList.head? = some 'n') :
      String.ofList (cs.map Char.toLower) ≠ name := by
    rintro rfl
    have hlower : x.toLower ≠ 'i' ∧ x.toLower ≠ 'n' := by
      rcases hx with hx | rfl
      · exact (ne_of_isDigit hx).2.2
      · decide
    simp [hcons, hlower] at hname
  obtain ⟨hwhole, hplaces, hexp, hdigits⟩ := h
  next whole places exponent =>
  have hmark : ∀ y ∈ exponent.head?, y.isDigit = false ∧ y ≠ '.' := by
    rcases hexp with rfl | ⟨mark, sign, ds, rfl, rfl | rfl, -⟩
    · simp
    · simp
    · simp
  have hsome := exponent?_isSome hexp
  unfold magnitude?
  simp only [hname "inf" (by decide), hname "infinity" (by decide), hname "nan" (by decide),
    decide_false, Bool.or_self, Bool.false_eq_true, if_false]
  rw [List.append_assoc]
  rcases hplaces with rfl | ⟨ds, rfl, hds⟩
  · have hne : whole.isEmpty = false := by simpa using hdigits
    rw [List.nil_append, digitsAndRest_append hwhole fun y hy => (hmark y hy).1]
    rcases hexp with rfl | ⟨mark, sign, ds, rfl, rfl | rfl, -⟩
    all_goals simpa [hne] using hsome
  · have hne : (whole.isEmpty && ds.isEmpty) = false := by
      rcases hdigits with hdigits | hdigits
      · simp [hdigits]
      · cases ds with
        | nil => simp at hdigits
        | cons => simp
    rw [List.cons_append, digitsAndRest_append hwhole (by simp)]
    simp only [digitsAndRest_append hds fun y hy => (hmark y hy).1]
    simp [hne, hsome]

theorem float?_of_head (h : plain cs = ds) (hunderscore : '_' ∉ ds)
    (hhead : ∀ d ∈ ds.head?, d ≠ '-' ∧ d ≠ '+') : float? cs = magnitude? ds := by
  rw [float?, h, dropUnderscores?_eq (by simp) hunderscore]
  simp only [Option.bind_eq_bind, Option.bind_some]
  split
  · exact absurd rfl (hhead '-' rfl).1
  · exact absurd rfl (hhead '+' rfl).2
  · rfl

theorem solid_of_fraction (h : IsFraction Char.isDigit cs) : (∀ c ∈ cs, isOuterBlank c = false ∧ c ≠ '_') ∧
    ∀ c ∈ cs.head?, c ≠ '-' ∧ c ≠ '+' := by
  refine ⟨fun c hc => ?_, ?_⟩
  · rcases h.mem c hc with hdigit | hmark
    · exact ⟨isOuterBlank_of_isDigit hdigit, (digitValue?_of_isDigit hdigit).2.2⟩
    · have hmarks : ∀ c ∈ fractionMarks, isOuterBlank c = false ∧ c ≠ '_' := by simp [fractionMarks, isOuterBlank]
      exact hmarks c hmark
  · obtain ⟨x, rest, rfl, hx⟩ := h.head
    simp only [List.head?_cons, Option.mem_some_iff, forall_eq']
    rcases hx with hx | rfl
    · exact ⟨(ne_of_isDigit hx).1, (ne_of_isDigit hx).2.1⟩
    · decide

theorem float?_isSome (h : IsFraction Text.isDigit cs)
    (hdecimal : ∀ c ∈ cs, Text.isDigit c = true → Text.isDecimal c = true) : (float? cs).isSome = true := by
  have hplain : IsFraction Char.isDigit (cs.map plainChar) :=
    h.map (fun c hc hdigit => isDigit_plainChar (hdecimal c hc hdigit)) (by simp [fractionMarks, plainChar])
  obtain ⟨hsolid, hhead⟩ := solid_of_fraction hplain
  rw [float?_of_head (plain_eq_map fun c hc => (hsolid c hc).1) (fun hmem => (hsolid _ hmem).2 rfl) hhead]
  exact magnitude?_isSome hplain

theorem digitLimit_lt (h : int 10 cs = .error (.tooLong n)) : digitLimit < n := by
  have hnat (cs : List Char) (h : nat 10 cs = .error (.tooLong n)) : digitLimit < n := by
    unfold nat at h
    split at h
    · cases h
    · split at h
      · cases h
      · split at h
        · next hlimit =>
          cases h
          simpa [isUnlimited] using hlimit
        · split at h <;> cases h
  have hmap (cs : List Char) (f : Int → Int) (h : (unsigned 10 cs).map f = .error (.tooLong n)) : digitLimit < n := by
    rw [unsigned_ten] at h
    cases hcs : nat 10 cs with
    | ok m => rw [hcs] at h; cases h
    | error e =>
      rw [hcs] at h
      cases h
      exact hnat cs hcs
  unfold int at h
  split at h <;> exact hmap _ _ h

end Numeral

theorem Token.Unreadable.cases (h : Unreadable text error) :
    (∃ digits, error = .tooLong digits ∧ Numeral.digitLimit < digits) ∨
      (∃ numeral, error = .whole numeral ∨ error = .fraction numeral) ∧
        ∃ c ∈ text, Text.isDigit c = true ∧ Text.isDecimal c = false := by
  cases h with
  | whole hne hdigits h =>
    unfold integerOf at h
    split at h <;> cases h
    · next hint =>
      refine .inr ⟨⟨_, .inl rfl⟩, ?_⟩
      by_contra hcontra
      push Not at hcontra
      have hall := fun c hc => Bool.of_not_eq_false (hcontra c (hdigits c hc).1 (hdigits c hc).2)
      rw [Numeral.int_decimals hne hall] at hint
      split at hint <;> cases hint
    · next hint => exact .inl ⟨_, rfl, Numeral.digitLimit_lt hint⟩
  | fraction hchars hshape h =>
    refine .inr ⟨⟨_, .inr rfl⟩, ?_⟩
    by_contra hcontra
    push Not at hcontra
    have hsome := Numeral.float?_isSome hshape fun c hc hdigit =>
      Bool.of_not_eq_false (hcontra c (hchars c hc) hdigit)
    rw [h] at hsome
    cases hsome

end TypedLua
