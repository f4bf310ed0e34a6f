import TypedLua.Target.Generate
import TypedLua.Target.Render
import TypedLua.Text.Line

/-!
# String constants in the code

A string of the program stands in the code as a quoted text. The text is one line of printable characters, and
reading it back by the rules of quoted texts gives the string, whatever its characters are.
-/

namespace TypedLua

namespace Text

def isControl (c : Char) : Bool := c.toNat < 0x20 || (0x7f ≤ c.toNat && c.toNat ≤ 0x9f)

def isBreak (c : Char) : Bool := c == '\r' || inRanges breakRanges c

/-! ## One line without controls -/

theorem not_control_of_isPrintable {c : Char} (h : isPrintable c = true) : isControl c = false ∧ isBreak c = false := by
  have hcontrols : (0x80, 0xa0) ∈ unprintableRanges := List.mem_cons_self
  have hseparators : (0x2028, 0x202f) ∈ unprintableRanges := List.mem_cons_of_mem _ List.mem_cons_self
  unfold isPrintable at h
  split at h
  · next hascii =>
    simp only [Bool.and_eq_true, decide_eq_true_eq] at h
    have hreturn : c ≠ '\r' := by
      rintro rfl
      exact absurd h.1 (by decide)
    refine ⟨by simp [isControl]; omega, ?_⟩
    simp [isBreak, hreturn, inRanges, breakRanges]
    omega
  · next hascii =>
    have hout : ∀ r ∈ unprintableRanges, ¬(r.1 ≤ c.toNat ∧ c.toNat ≤ r.2) := fun r hr hin => by
      rw [inRanges_iff.2 ⟨r, hr, hin⟩] at h
      cases h
    have h1 := hout _ hcontrols
    have h2 := hout _ hseparators
    have hreturn : c ≠ '\r' := by
      rintro rfl
      exact hascii (by decide)
    refine ⟨by simp [isControl]; omega, ?_⟩
    simp [isBreak, hreturn, inRanges, breakRanges]
    omega

theorem linesFrom_of_unbroken {line cs : List Char} (h : ∀ c ∈ cs, isBreak c = false) (hne : line ≠ [] ∨ cs ≠ []) :
    linesFrom line cs = [line.reverse ++ cs] := by
  induction cs generalizing line with
  | nil =>
    have hline : line.isEmpty = false := by simpa using hne
    simp [linesFrom, hline]
  | cons c cs ih =>
    obtain ⟨hc, hcs⟩ := List.forall_mem_cons.1 h
    have hreturn : c ≠ '\r' := by
      rintro rfl
      exact absurd hc (by decide)
    rw [linesFrom, if_neg (by rw [← isBreak, hc]; exact Bool.false_ne_true), ih hcs (.inl (by simp))]
    · simp
    · rintro rest rfl
      exact absurd rfl hreturn

namespace Quoted

/-! ## Hexadecimal digits -/

theorem hexValue?_digitChar {n : Nat} (h : n < 16) : hexValue? n.digitChar = some n := by
  have hall : ∀ k < 16, hexValue? k.digitChar = some k := by decide
  exact hall n h

theorem hexNumber?_hexDigits (width n : Nat) : hexNumber? (hexDigits width n) = some (n % Nat.pow 16 width) := by
  induction width generalizing n with
  | zero => simp [hexDigits, hexNumber?, Nat.mod_one]
  | succ width ih =>
    have hhigh := ih (n / 16)
    rw [hexNumber?] at hhigh
    rw [hexDigits, hexNumber?, List.foldlM_append, hhigh]
    simp only [Option.bind_eq_bind, Option.bind_some, List.foldlM_cons, List.foldlM_nil,
      hexValue?_digitChar (Nat.mod_lt n (by decide)), Option.map_some, Option.pure_def, Option.some.injEq]
    have hpow : Nat.pow 16 (width + 1) = 16 * Nat.pow 16 width := Nat.pow_succ'
    rw [hpow, Nat.mod_mul, Nat.add_comm]

theorem codePoint_lt (c : Char) : codePoint c < 0x110000 := by
  have hvalid := c.valid
  unfold codePoint
  split
  · next h =>
    have hin := of_decide_eq_true h
    simp only [firstStandIn, surrogates] at hin
    simp only [firstStandIn, firstSurrogate]
    omega
  · rcases hvalid with h | h
    · exact Nat.lt_trans h (by decide)
    · exact h.2

/-! ## Reading back -/

def consText (c : Char) (found : List Char × List Char) : List Char × List Char := (c :: found.1, found.2)

variable {mark : Char}

theorem decodeFrom_numericEscape (c : Char) (rest : List Char) :
    decodeFrom mark (numericEscape (codePoint c) ++ rest) = (decodeFrom mark rest).map (consText c) := by
  have hlt := codePoint_lt c
  have hread (width : Nat) (h : codePoint c < Nat.pow 16 width) :
      hexNumber? (hexDigits width (codePoint c)) = some (codePoint c) := by
    rw [hexNumber?_hexDigits, Nat.mod_eq_of_lt h]
  unfold numericEscape
  split
  · next h =>
    have hval := hread 2 h
    simp only [hexDigits, List.nil_append, List.cons_append] at hval ⊢
    simp only [decodeFrom, hval, ofCodePoint_codePoint]
    rfl
  · split
    · next h =>
      have hval := hread 4 h
      simp only [hexDigits, List.nil_append, List.cons_append] at hval ⊢
      simp only [decodeFrom, hval, ofCodePoint_codePoint]
      rfl
    · have hval := hread 8 (Nat.lt_trans hlt (by decide))
      simp only [hexDigits, List.nil_append, List.cons_append] at hval ⊢
      simp only [decodeFrom, hval, ofCodePoint_codePoint]
      rfl

theorem decodeFrom_plain {c : Char} (hslash : c ≠ '\\') (hmark : c ≠ mark) (rest : List Char) :
    decodeFrom mark (c :: rest) = (decodeFrom mark rest).map (consText c) := by
  have hcons : (fun found : List Char × List Char => (c :: found.1, found.2)) = consText c := rfl
  rw [decodeFrom.eq_def]
  split <;> simp_all

theorem decodeFrom_encodeChar (hmark : mark = '\'' ∨ mark = '"') (c : Char) (rest : List Char) :
    decodeFrom mark (encodeChar mark c ++ rest) = (decodeFrom mark rest).map (consText c) := by
  unfold encodeChar
  split
  · next h =>
    simp only [Bool.or_eq_true, decide_eq_true_eq] at h
    rcases h with rfl | rfl
    · rfl
    · rcases hmark with rfl | rfl <;> rfl
  · next h =>
    simp only [Bool.or_eq_true, decide_eq_true_eq, not_or] at h
    split
    · next hc => subst hc; rfl
    split
    · next hc => subst hc; rfl
    split
    · next hc => subst hc; rfl
    split
    · exact decodeFrom_plain h.1 h.2 rest
    · exact decodeFrom_numericEscape c rest

theorem decodeFrom_encoded (hmark : mark = '\'' ∨ mark = '"') (cs : List Char) :
    decodeFrom mark (cs.flatMap (encodeChar mark) ++ [mark]) = some (cs, []) := by
  induction cs with
  | nil => rcases hmark with rfl | rfl <;> rfl
  | cons c cs ih =>
    rw [List.flatMap_cons, List.append_assoc, decodeFrom_encodeChar hmark, ih]
    rfl

theorem chooseMark_cases (cs : List Char) : chooseMark cs = '\'' ∨ chooseMark cs = '"' := by
  unfold chooseMark
  split
  · exact .inr rfl
  · exact .inl rfl

theorem decode_encode (cs : List Char) : decode (encode cs) = some (cs, []) := by
  rcases chooseMark_cases cs with h | h
  · rw [encode, h]
    exact decodeFrom_encoded (.inl rfl) cs
  · rw [encode, h]
    exact decodeFrom_encoded (.inr rfl) cs

/-! ## What is written -/

theorem isPrintable_hexDigits {c : Char} {width n : Nat} (h : c ∈ hexDigits width n) : isPrintable c = true := by
  have hdigits : ∀ k < 16, isPrintable k.digitChar = true := by decide
  induction width generalizing n with
  | zero => simp [hexDigits] at h
  | succ width ih =>
    rw [hexDigits, List.mem_append, List.mem_singleton] at h
    rcases h with h | rfl
    · exact ih h
    · exact hdigits _ (Nat.mod_lt n (by decide))

theorem isPrintable_numericEscape (n : Nat) : ∀ c ∈ numericEscape n, isPrintable c = true := by
  have hescape (mark : Char) (width : Nat) (hmark : isPrintable mark = true) :
      ∀ c ∈ '\\' :: mark :: hexDigits width n, isPrintable c = true :=
    List.forall_mem_cons.2 ⟨by decide, List.forall_mem_cons.2 ⟨hmark, fun _ => isPrintable_hexDigits⟩⟩
  unfold numericEscape
  split
  · exact hescape 'x' 2 (by decide)
  · split
    · exact hescape 'u' 4 (by decide)
    · exact hescape 'U' 8 (by decide)

theorem isPrintable_encodeChar (hmark : isPrintable mark = true) (c : Char) :
    ∀ d ∈ encodeChar mark c, isPrintable d = true := by
  have hshort (d : Char) (hd : isPrintable d = true) : ∀ x ∈ ['\\', d], isPrintable x = true :=
    List.forall_mem_cons.2 ⟨by decide, List.forall_mem_singleton.2 hd⟩
  unfold encodeChar
  split
  · next hc =>
    simp only [Bool.or_eq_true, decide_eq_true_eq] at hc
    exact hshort c (hc.elim (fun h => h ▸ by decide) fun h => h ▸ hmark)
  split
  · exact hshort 'n' (by decide)
  split
  · exact hshort 'r' (by decide)
  split
  · exact hshort 't' (by decide)
  split
  · next hprintable => exact List.forall_mem_singleton.2 hprintable
  · exact isPrintable_numericEscape _

theorem isPrintable_encode {cs : List Char} {c : Char} (h : c ∈ encode cs) : isPrintable c = true := by
  have hmark : isPrintable (chooseMark cs) = true := by rcases chooseMark_cases cs with h | h <;> rw [h] <;> decide
  simp only [encode, List.cons_append, List.mem_cons, List.mem_append, List.mem_flatMap, List.not_mem_nil, or_false] at h
  rcases h with rfl | ⟨d, -, h⟩ | rfl
  · exact hmark
  · exact isPrintable_encodeChar hmark d c h
  · exact hmark

end Quoted

/-- A quoted text that stands for a string: one line without controls, and reading it back gives the string and
leaves nothing. -/
structure Constant (s text : String) : Prop where
  reads : Quoted.decode text.toList = some (s.toList, [])
  line : lines text.toList = [text.toList]
  printable : ∀ c ∈ text.toList, isPrintable c = true ∧ isControl c = false

theorem constant_quote (s : String) : Constant s (quote s) := by
  have htext : (quote s).toList = Quoted.encode s.toList := String.toList_ofList
  have hprintable (c : Char) (hc : c ∈ (quote s).toList) : isPrintable c = true :=
    Quoted.isPrintable_encode (htext ▸ hc)
  refine ⟨?_, ?_, fun c hc => ?_⟩
  · rw [htext, Quoted.decode_encode]
  · rw [lines, linesFrom_of_unbroken (fun c hc => (not_control_of_isPrintable (hprintable c hc)).2)
      (.inr (by simp [htext, Quoted.encode])), List.reverse_nil, List.nil_append]
  · exact ⟨hprintable c hc, (not_control_of_isPrintable (hprintable c hc)).1⟩

end Text

namespace Target

/-- **String constants survive into the code.** Every string has one quoted text that reads back as the string. It
is the code of a constant, and it is what stands for the name of a global, the name of a method and the key of a
member. -/
theorem string_constants_survive (s : String) : ∃ text, Text.Constant s text ∧
    (∀ ctx loc state, ∃ e, Generate.raw ctx (.string loc s) state = .ok (.single e, state) ∧ e.text = text) ∧
    (∀ ctx loc state, ctx.lookup s = none → ∃ e, Generate.raw ctx (.name loc s) state = .ok (.single e, state) ∧
      e.text = "_ENV[" ++ text ++ "]") ∧
    (∀ level value, (Stmt.setGlobal s value).lines level = [⟨level, "_ENV[" ++ text ++ "] = " ++ value.text⟩]) ∧
    (∀ object args tail, (Call.invoke object s args tail).text =
      helper "invoke" (object.text :: text :: (exprTexts args ++ tailTexts tail))) ∧
    ∀ object, (Expr.index object (.string s)).text = helper "index" [object.text, text] := by
  refine ⟨Text.quote s, Text.constant_quote s, fun ctx loc state => ⟨.string s, ?_, ?_⟩,
    fun ctx loc state hglobal => ⟨.global s, ?_, ?_⟩, fun level value => ?_, fun object args tail => ?_, fun object => ?_⟩
  · rw [Generate.raw]
    rfl
  · rw [Expr.text]
  · rw [Generate.raw, hglobal]
    rfl
  · rw [Expr.text]
  · rw [Stmt.lines]
  · rw [Call.text]
  · rw [Expr.text, Expr.text]

end Target

end TypedLua
