import TypedLua.Problem
import TypedLua.Proofs.Parsing.Results
import TypedLua.Proofs.Reading.Places

/-!
# Quoted lines

A problem quotes a line of the source under its message, with a caret below the column of its place. The line is
the one of the place, with two exceptions: a string or a long bracket without end quotes the last line, and the
problems of the grammar count lines by more characters than the line feed.
-/

namespace TypedLua

/-- The text of a line, where lines are separated by line feeds and counted from one. -/
def sourceLine (source : List Char) (number : Nat) : List Char := (source.splitOn '\n').getD (number - 1) []

/-- A quoted line is the line of a place, and what stands in it from the column of the place on is what stands
in the source from the place on. -/
structure Quotes (source : List Char) (p : Position) (line : List Char) : Prop where
  line_eq : line = sourceLine source p.line
  column_le : p.column ≤ line.length + 1
  under : line.drop (p.column - 1) = lineFrom source p.offset

/-! ## The line of a place -/

theorem Position.exists_line (text : List Char) : ∃ front line, text = front ++ line ∧ '\n' ∉ line ∧
    (front = [] ∨ ∃ before, front = before ++ ['\n']) ∧ (Position.start.advance text).line = front.count '\n' + 1 ∧
      (Position.start.advance text).column = line.length + 1 := by
  induction text using List.reverseRecOn with
  | nil => exact ⟨[], [], rfl, by simp, .inl rfl, rfl, rfl⟩
  | append_singleton text c ih =>
    obtain ⟨front, line, rfl, hline, hfront, hnumber, hcolumn⟩ := ih
    rw [advance_snoc, step]
    by_cases hc : c = '\n'
    · refine ⟨front ++ line ++ [c], [], by simp, by simp, .inr ⟨front ++ line, by rw [hc]⟩, ?_, ?_⟩
      · simp [hc, hnumber, List.count_eq_zero.2 hline]
      · simp [hc]
    · exact ⟨front, line ++ [c], by simp, by simp [hline, Ne.symm hc], hfront, by simp [hc, hnumber],
        by simp [hc, hcolumn]⟩

theorem length_splitOn (text : List Char) : (text.splitOn '\n').length = text.count '\n' + 1 := by
  induction text with
  | nil => rfl
  | cons c text ih =>
    rw [List.splitOn_cons_eq_if_modifyHead, List.count_cons]
    split <;> simp [*]

theorem head_splitOn (text : List Char) : (text.splitOn '\n').head? = some (text.takeWhile (· != '\n')) := by
  induction text with
  | nil => rfl
  | cons c text ih =>
    rw [List.splitOn_cons_eq_if_modifyHead, List.takeWhile_cons, bne]
    split <;> simp [*]

theorem sourceLine_append {front : List Char} (h : front = [] ∨ ∃ before, front = before ++ ['\n']) (rest : List Char) :
    sourceLine (front ++ rest) (front.count '\n' + 1) = rest.takeWhile (· != '\n') := by
  have hrest := head_splitOn rest
  rw [List.head?_eq_getElem?] at hrest
  rw [sourceLine, Nat.add_sub_cancel, List.getD_eq_getElem?_getD]
  rcases h with rfl | ⟨before, rfl⟩
  · simp [hrest]
  · rw [List.append_assoc, List.singleton_append, List.splitOn_append_cons_self, List.count_append,
      List.count_singleton_self, ← length_splitOn, List.getElem?_append_right (Nat.le_refl _), Nat.sub_self, hrest,
      Option.getD_some]

theorem Cursor.Sees.quotes {source : List Char} {p : Position} (h : (Cursor.start source).Sees p) :
    Quotes source p (lineFrom source p.lineStart) := by
  obtain ⟨after, ⟨text, hsource, hpos⟩, rfl⟩ := h
  obtain ⟨front, line, rfl, hline, hfront, hnumber, hcolumn⟩ := Position.exists_line text
  have hoffset : after.position.offset = front.length + line.length := by
    rw [hpos, Position.offset_advance, List.length_append]
    exact Nat.zero_add _
  replace hnumber : after.position.line = _ := hpos ▸ hnumber
  replace hcolumn : after.position.column = _ := hpos ▸ hcolumn
  replace hsource : source = front ++ (line ++ after.rest) := by rw [← List.append_assoc]; exact hsource
  have hquoted : lineFrom source after.position.lineStart = line ++ after.rest.takeWhile (· != '\n') := by
    rw [lineFrom, Position.lineStart, hoffset, hcolumn, Nat.add_sub_cancel, Nat.add_sub_cancel, hsource,
      List.drop_left, List.takeWhile_append_of_pos]
    exact fun c hc => bne_iff_ne.2 fun heq => hline (heq ▸ hc)
  have hunder : lineFrom source after.position.offset = after.rest.takeWhile (· != '\n') := by
    rw [lineFrom, hoffset, hsource, ← List.append_assoc, ← List.length_append, List.drop_left]
  refine ⟨?_, ?_, ?_⟩
  · rw [hnumber, hsource, sourceLine_append hfront, ← hsource, hquoted, List.takeWhile_append_of_pos]
    exact fun c hc => bne_iff_ne.2 fun heq => hline (heq ▸ hc)
  · rw [hcolumn, hquoted, List.length_append]
    omega
  · rw [hquoted, hunder, hcolumn, Nat.add_sub_cancel, List.drop_left]

/-! ## The lines of problems -/

def OnlyLineFeeds (source : List Char) : Prop :=
  ∀ c ∈ source, (c == '\r' || Text.inRanges Text.breakRanges c) = true → c = '\n'

theorem modifyHead_nil_append (lines : List (List Char)) : lines.modifyHead (fun line => line) = lines := by
  cases lines <;> rfl

theorem getD_linesFrom {cs : List Char} (h : OnlyLineFeeds cs) (line : List Char) (n : Nat) :
    (Text.linesFrom line cs).getD n [] = ((cs.splitOn '\n').modifyHead (line.reverse ++ ·)).getD n [] := by
  fun_induction Text.linesFrom line cs generalizing n with
  | case1 line hempty => cases n <;> simp_all
  | case2 line hempty => simp
  | case3 line cs ih => exact absurd (h '\r' (by simp) rfl) (by decide)
  | case4 line c cs _ hbreak ih =>
    obtain rfl := h c (by simp) hbreak
    rw [List.splitOn_cons_eq_if_modifyHead]
    cases n with
    | zero => simp
    | succ n => simpa [modifyHead_nil_append] using ih (fun d hd => h d (List.mem_cons_of_mem _ hd)) n
  | case5 line c cs _ hbreak ih =>
    have hc : c ≠ '\n' := by
      rintro rfl
      exact hbreak (by decide)
    rw [ih (fun d hd => h d (List.mem_cons_of_mem _ hd)), List.splitOn_cons_eq_if_modifyHead, if_neg (by simpa using hc)]
    simp [List.modifyHead_modifyHead, Function.comp_def]

theorem freeLine_eq {source : List Char} (h : OnlyLineFeeds source) (number : Nat) :
    (Problem.freeLine source number).toList = sourceLine source number := by
  have hlines := getD_linesFrom h [] (number - 1)
  rw [Problem.freeLine, String.toList_ofList, Text.lines, hlines]
  simp [sourceLine, modifyHead_nil_append]

namespace Token

theorem quotes_of_tokenize {source : List Char} {cause : LexCause} {position reached : Position}
    (h : tokenize source = .error (.invalid cause position reached)) :
    Quotes source position (lineFrom source reached.lineStart) ∨
      cause.isOpenEnded = true ∧ Quotes source (Position.start.advance source) (lineFrom source reached.lineStart) := by
  have hlined := tokensFrom_lined (skipFirstLine source)
  rw [show tokensFrom (skipFirstLine source) = _ from h] at hlined
  obtain ⟨hpos, hreached, hline | ⟨hcause, hend⟩⟩ := Located.mono hlined (reaches_skipFirstLine source)
  · have hsame : lineFrom source reached.lineStart = lineFrom source position.lineStart := by
      rw [hreached.quotes.line_eq, hpos.quotes.line_eq, hline]
    exact .inl (hsame ▸ hpos.quotes)
  · exact .inr ⟨hcause, hend ▸ hreached.quotes⟩

theorem seen_of_parse {source : List Char} {registry : String} {tokens : List Token} {cause : Parser.ParseCause}
    {near : Token} (htokens : tokenize source = .ok tokens)
    (h : Parser.parse registry tokens = .error (.invalid cause near)) : (Cursor.start source).Sees near.position := by
  have hlined := tokensFrom_lined (skipFirstLine source)
  have hcases := Parser.parse_cases registry tokens
  rw [show tokensFrom (skipFirstLine source) = _ from htokens] at hlined
  rw [h] at hcases
  obtain ⟨rest, ⟨used, hused, -, heof⟩, rfl⟩ := hcases.2 cause near rfl
  obtain ⟨finish, -, -, hlast⟩ := hlined.ends
  have hmem (t : Token) (ht : t ∈ rest) : t ∈ tokens :=
    List.mem_of_mem_filter (hused ▸ List.mem_append_right used ht : t ∈ Parser.withoutDirectives tokens)
  -- The end of the text is among the tokens that are left.
  have hend : ⟨.eof, finish.position⟩ ∈ used ++ rest :=
    hused ▸ List.mem_filter.2 ⟨List.mem_of_getLast? hlast, rfl⟩
  cases rest with
  | nil => exact absurd rfl (heof _ (by simpa using hend))
  | cons t rest => exact (hlined.seen t (hmem t (by simp))).mono (reaches_skipFirstLine source)

end Token

/-- The line that a problem quotes is the line of its place, with the caret under what stands there. A construct
that the text leaves open quotes the last line; problems of the grammar quote the right line if no other
character than the line feed breaks free text in the source. -/
theorem problem_quotes_line (source : List Char) :
    (∀ problem, readTokens source = .ok (.error problem) →
      ∃ cause position, problem.cause = .lex cause ∧ problem.loc = some position ∧
        (Quotes source position problem.line.toList ∨
          cause.isOpenEnded = true ∧ Quotes source (Position.start.advance source) problem.line.toList)) ∧
    ∀ registry tokens problem, readTokens source = .ok (.ok tokens) →
      readChunk registry source tokens = .ok (.error problem) → problem.line ≠ "" → OnlyLineFeeds source →
        ∃ position, problem.loc = some position ∧ Quotes source position problem.line.toList := by
  refine ⟨fun problem h => ?_, fun registry tokens problem htokens h hline hbreaks => ?_⟩
  · rw [readTokens] at h
    split at h <;> cases h
    next cause position reached herror =>
    refine ⟨cause, position, rfl, rfl, ?_⟩
    rw [Problem.ofLex, String.toList_ofList]
    exact Token.quotes_of_tokenize herror
  · have hread : Token.tokenize source = .ok tokens := by
      rw [readTokens] at htokens
      split at htokens <;> cases htokens
      assumption
    rw [readChunk] at h
    split at h
    · cases h
    · next failure hparse =>
      cases failure with
      | malformed reason => cases h; exact absurd rfl hline
      | outOfFuel => cases h; exact absurd rfl hline
      | invalid cause near =>
        rw [Problem.ofParse] at h
        split at h <;> cases h
        have hquotes := (Token.seen_of_parse hread hparse).quotes
        rw [hquotes.line_eq, ← freeLine_eq hbreaks] at hquotes
        exact ⟨_, rfl, hquotes⟩

/-- A character without meaning and a second equals sign, both in the second line. -/
theorem problem_quotes_line_second :
    (∃ problem, readTokens "x\n= ?".toList = .ok (.error problem) ∧ ∃ cause position,
      problem.cause = .lex cause ∧ problem.loc = some position ∧
        (Quotes "x\n= ?".toList position problem.line.toList ∨ cause.isOpenEnded = true ∧
          Quotes "x\n= ?".toList (Position.start.advance "x\n= ?".toList) problem.line.toList)) ∧
    ∃ tokens problem, readTokens "x\n= =".toList = .ok (.ok tokens) ∧
      readChunk "types" "x\n= =".toList tokens = .ok (.error problem) ∧ problem.line ≠ "" ∧
        OnlyLineFeeds "x\n= =".toList ∧
        ∃ position, problem.loc = some position ∧ Quotes "x\n= =".toList position problem.line.toList := by
  have hlex : readTokens "x\n= ?".toList = .ok (.error ⟨.lex (.unexpectedChar '?'), some ⟨2, 3, 4⟩, "= ?"⟩) := by
    with_unfolding_all rfl
  have htokens : readTokens "x\n= =".toList = .ok (.ok [⟨.name "x", ⟨1, 1, 0⟩⟩, ⟨.symbol .assign, ⟨2, 1, 2⟩⟩,
      ⟨.symbol .assign, ⟨2, 3, 4⟩⟩, ⟨.eof, ⟨2, 4, 5⟩⟩]) := by
    with_unfolding_all rfl
  have hchunk : readChunk "types" "x\n= =".toList [⟨.name "x", ⟨1, 1, 0⟩⟩, ⟨.symbol .assign, ⟨2, 1, 2⟩⟩,
      ⟨.symbol .assign, ⟨2, 3, 4⟩⟩, ⟨.eof, ⟨2, 4, 5⟩⟩] =
        .ok (.error ⟨.parse .unexpected (.symbol .assign), some ⟨2, 3, 4⟩, "= ="⟩) := by
    with_unfolding_all rfl
  have hbreaks : OnlyLineFeeds "x\n= =".toList := by simp [OnlyLineFeeds, Text.inRanges, Text.breakRanges]
  exact ⟨⟨_, hlex, (problem_quotes_line _).1 _ hlex⟩, _, _, htokens, hchunk, by decide, hbreaks,
    (problem_quotes_line _).2 _ _ _ htokens hchunk (by decide) hbreaks⟩

end TypedLua
