import TypedLua.Proofs.Reading.Places
import TypedLua.Proofs.Reading.Printing

/-!
# Long brackets

A long bracket carries the text up to the first closing bracket of its level as it stands.
-/

namespace TypedLua.Token

def openingBracket (level : Nat) : List Char := '[' :: List.replicate level '=' ++ ['[']

def bracketed (level : Nat) (text : List Char) : List Char :=
  openingBracket level ++ '\n' :: (text ++ closingBracket level)

def ClosesAtEnd (closing text : List Char) : Prop := ∀ k < text.length, ¬closing <+: (text ++ closing).drop k

variable {level : Nat} {closing text : List Char} {position : Position} {what : LongKind}

theorem longBody_closed (hne : closing ≠ []) (h : ClosesAtEnd closing text) (position : Position) :
    longBody closing position (text ++ closing) = .ok (text, ⟨position.advance (text ++ closing), []⟩) := by
  induction text generalizing position with
  | nil =>
    obtain ⟨c, cs, rfl⟩ := List.exists_cons_of_ne_nil hne
    rw [List.nil_append, longBody, if_pos (List.isPrefixOf_iff_prefix.2 (List.prefix_refl _)), List.drop_length]
  | cons c text ih =>
    have hfirst : ¬closing.isPrefixOf (c :: (text ++ closing)) = true := fun hprefix =>
      h 0 (by simp) (List.isPrefixOf_iff_prefix.1 hprefix)
    rw [List.cons_append, longBody, if_neg hfirst, ih fun k hk => h (k + 1) (by simpa using hk)]
    rfl

theorem longBody_open (h : ¬closing <:+: text) (position : Position) :
    ∃ reached, longBody closing position text = .error reached := by
  induction text generalizing position with
  | nil => exact ⟨position, rfl⟩
  | cons c text ih =>
    obtain ⟨reached, hread⟩ := ih (fun hclosed => h (hclosed.trans (List.suffix_cons c text).isInfix)) (position.step c)
    have hfirst : ¬closing.isPrefixOf (c :: text) = true := fun hprefix =>
      h (List.isPrefixOf_iff_prefix.1 hprefix).isInfix
    exact ⟨reached, by rw [longBody, if_neg hfirst, hread]⟩

theorem drop_openingBracket : Cursor.drop (level + 2) ⟨position, openingBracket level ++ text⟩ =
    ⟨position.advance (openingBracket level), text⟩ := by
  have hlen : (openingBracket level).length = level + 2 := by simp [openingBracket]
  rw [Cursor.drop, List.take_left' hlen, List.drop_left' hlen]

theorem readLong_closed (h : ClosesAtEnd (closingBracket level) text) :
    readLong what level ⟨position, bracketed level text⟩ =
      .ok (text, ⟨position.advance (bracketed level text), []⟩) := by
  have hskip (p : Position) : ((Cursor.skip '\r' ⟨p, '\n' :: (text ++ closingBracket level)⟩).skip '\n') =
      ⟨p.step '\n', text ++ closingBracket level⟩ := rfl
  rw [readLong, bracketed, drop_openingBracket, hskip, longBody_closed (by simp [closingBracket]) h,
    Position.advance_append position]
  rfl

theorem readLong_open (what : LongKind) (position : Position) (h : ¬closingBracket level <:+: text) : ∃ reached,
    readLong what level ⟨position, openingBracket level ++ text⟩ =
      .error (.invalid (.unterminatedLong what) position reached) := by
  obtain ⟨front, hbody, -⟩ := (Cursor.reaches_skip '\r' ⟨position.advance (openingBracket level), text⟩).trans
    (Cursor.reaches_skip '\n' _)
  obtain ⟨reached, hread⟩ := longBody_open (fun hclosed => h (hclosed.trans ⟨front, [], by simpa using hbody.symm⟩))
    (Cursor.skip '\n' (Cursor.skip '\r' ⟨position.advance (openingBracket level), text⟩)).position
  exact ⟨reached, by rw [readLong, drop_openingBracket, hread]⟩

theorem longLevel?_openingBracket (level : Nat) (text : List Char) :
    longLevel? (openingBracket level ++ text) = some level := by
  simp [openingBracket, longLevel?]

theorem step_string : step ⟨position, openingBracket level ++ text⟩ =
    (readLong .string level ⟨position, openingBracket level ++ text⟩).map fun r =>
      (some ⟨.string (String.ofList r.1), position⟩, some r.2) := by
  have hlevel := longLevel?_openingBracket level text
  have hblank : Cursor.dropWhile isSpace ⟨position, openingBracket level ++ text⟩ =
      ⟨position, openingBracket level ++ text⟩ := rfl
  rw [step, hblank]
  simp only [readToken, hlevel]
  cases readLong .string level ⟨position, _⟩ <;> rfl

theorem step_comment : step ⟨position, '-' :: '-' :: (openingBracket level ++ text)⟩ =
    (readLong .comment level ⟨(position.step '-').step '-', openingBracket level ++ text⟩).map fun r =>
      (none, some r.2) := by
  have hlevel := longLevel?_openingBracket level text
  have hblank : Cursor.dropWhile isSpace ⟨position, '-' :: '-' :: (openingBracket level ++ text)⟩ =
      ⟨position, '-' :: '-' :: (openingBracket level ++ text)⟩ := rfl
  have hbody : Cursor.drop 2 ⟨position, '-' :: '-' :: (openingBracket level ++ text)⟩ =
      ⟨(position.step '-').step '-', openingBracket level ++ text⟩ := rfl
  rw [step, hblank]
  simp only [readComment, hbody, hlevel]
  cases readLong .comment level ⟨(position.step '-').step '-', _⟩ <;> rfl

theorem line_bracketed (level : Nat) (text : List Char) (position : Position) :
    (position.advance (bracketed level text)).line = position.line + 1 + text.count '\n' := by
  have hlevel : (List.replicate level '=').count '\n' = 0 := List.count_eq_zero.2 (by simp)
  have hcount : (bracketed level text).count '\n' = text.count '\n' + 1 := by
    simp [bracketed, openingBracket, closingBracket, hlevel]
  rw [Position.line_advance, hcount]
  omega

/-- A text in a long bracket behind a line feed is the value of one token, or no token if it is a
comment. -/
theorem long_brackets_verbatim (level : Nat) :
    (∀ s : String, ClosesAtEnd (closingBracket level) s.toList →
      (∃ finish, tokenize (bracketed level s.toList) = .ok [⟨.string s, .start⟩, ⟨.eof, finish⟩] ∧
        finish.offset = (bracketed level s.toList).length ∧ finish.line = 2 + s.toList.count '\n') ∧
      ∃ finish, tokenize ('-' :: '-' :: bracketed level s.toList) = .ok [⟨.eof, finish⟩] ∧
        finish.offset = ('-' :: '-' :: bracketed level s.toList).length ∧ finish.line = 2 + s.toList.count '\n') ∧
    ∀ text, ¬closingBracket level <:+: text →
      (∃ reached, tokenize (openingBracket level ++ text) =
        .error (.invalid (.unterminatedLong .string) .start reached)) ∧
      ∃ reached, tokenize ('-' :: '-' :: (openingBracket level ++ text)) =
        .error (.invalid (.unterminatedLong .comment) ⟨1, 3, 2⟩ reached) := by
  have hfail {text : List Char} {e : LexFailure} (hfirst : text.head? ≠ some '#') (h : step (.start text) = .error e) :
      tokenize text = .error e := by rw [tokenize, skipFirstLine_eq hfirst, tokensFrom_eq, h]
  refine ⟨fun s h => ⟨?_, ?_⟩, fun text h => ⟨?_, ?_⟩⟩
  · have hread : step (.start (bracketed level s.toList)) = _ := step_string
    rw [← bracketed, readLong_closed h, Except.map, String.ofList_toList] at hread
    refine ⟨_, tokenize_of_step (fun h => by cases h) hread, ?_, line_bracketed ..⟩
    rw [Position.offset_advance, Position.start, Nat.zero_add]
  · have hread : step (.start ('-' :: '-' :: bracketed level s.toList)) = _ := step_comment
    rw [← bracketed, readLong_closed h] at hread
    refine ⟨_, tokenize_of_step (by simp) hread, ?_, line_bracketed ..⟩
    rw [← Position.advance_cons, ← Position.advance_cons, Position.offset_advance]
    exact Nat.zero_add _
  · obtain ⟨reached, hread⟩ := readLong_open .string .start h
    exact ⟨reached, hfail (fun h => by cases h) (step_string.trans (by rw [hread]; rfl))⟩
  · obtain ⟨reached, hread⟩ := readLong_open .comment ((Position.start.step '-').step '-') h
    exact ⟨reached, hfail (by simp) (step_comment.trans (by rw [hread]; rfl))⟩

/-- A text that begins with a carriage return, with quotes, brackets of other levels and half a closing one. -/
theorem long_brackets_verbatim_level : ClosesAtEnd (closingBracket 1) "\r\n]]--'[=[]=\"]".toList ∧
    (∃ finish, tokenize (bracketed 1 "\r\n]]--'[=[]=\"]".toList) =
        .ok [⟨.string "\r\n]]--'[=[]=\"]", .start⟩, ⟨.eof, finish⟩] ∧ finish.line = 3) ∧
    ¬closingBracket 1 <:+: "]=".toList ∧ ∃ reached,
      tokenize (openingBracket 1 ++ "]=".toList) =
        .error (.invalid (.unterminatedLong .string) .start reached) := by
  have hclosed : ClosesAtEnd (closingBracket 1) "\r\n]]--'[=[]=\"]".toList := by
    unfold ClosesAtEnd
    decide
  have hopen : ¬closingBracket 1 <:+: "]=".toList := fun h => absurd h.length_le (by decide)
  obtain ⟨finish, htokens, -, hline⟩ := ((long_brackets_verbatim 1).1 _ hclosed).1
  exact ⟨hclosed, ⟨finish, htokens, hline⟩, hopen, ((long_brackets_verbatim 1).2 _ hopen).1⟩

end TypedLua.Token
