import TypedLua.Library.Format
import TypedLua.Proofs.Reading.Printing

/-!
# Quoted strings

The directive `%q` writes a string as a constant.
-/

namespace TypedLua

def ZerosApart (cs : List Char) : Prop :=
  ∀ front d back, cs = front ++ '\x00' :: d :: back → Text.isDigit d = false

namespace Token

open Library

variable (position : Position) (rest : List Char)

theorem standsFor_quoteChar (h : c ≠ '\x00') : StandsFor c (quoteChar c) := by
  fun_cases quoteChar c with
  | case5 => exact absurd rfl h
  | case6 c hslash hquote hline => exact .plain hline hquote hslash
  | _ => exact .escape rfl (by decide)

theorem stringBody_zero (hd : Text.isDigit d = false) (opened : Position) :
    ∃ next, stringBody '"' opened .plain position ('\\' :: '0' :: d :: rest) =
      consChar '\x00' (stringBody '"' opened .plain next (d :: rest)) := by
  refine ⟨(position.step '\\').step '0', ?_⟩
  have hzero : decimalEscape ['0'] ((position.step '\\').step '0') = .ok '\x00' := rfl
  have hdecimal : stringBody '"' opened (.decimal ['0']) ((position.step '\\').step '0') (d :: rest) =
      consChar '\x00' (stringBody '"' opened .plain ((position.step '\\').step '0') (d :: rest)) := by
    rw [stringBody.eq_def, stringBody.eq_def]
    simp [StringMode.continue?, StringMode.close, hd, hzero]
  have hescape : plainEscape? '0' = none ∧ Text.isDigit '0' = true := by decide
  rw [stringBody.eq_def]
  simp [StringMode.continue?, StringMode.close, hdecimal, hescape]

theorem head_quoted {cs : List Char} (h : ∀ c ∈ cs.head?, Text.isDigit c = false) :
    ∃ d body, cs.flatMap quoteChar ++ '"' :: rest = d :: body ∧ Text.isDigit d = false := by
  have hmarks : Text.isDigit '"' = false ∧ Text.isDigit '\\' = false := by decide
  cases cs with
  | nil => exact ⟨'"', rest, rfl, hmarks.1⟩
  | cons c cs =>
    rw [List.flatMap_cons, List.append_assoc]
    fun_cases quoteChar c with
    | case6 c => exact ⟨c, _, rfl, h c rfl⟩
    | _ => exact ⟨'\\', _, rfl, hmarks.2⟩

theorem stringBody_quoted (opened : Position) (h : ZerosApart cs) :
    ∃ after, stringBody '"' opened .plain position (cs.flatMap quoteChar ++ '"' :: rest) =
      .ok (cs, ⟨after, rest⟩) := by
  induction cs generalizing position with
  | nil => exact stringBody_close position rest opened
  | cons c cs ih =>
    have hread : ∃ next, stringBody '"' opened .plain position (quoteChar c ++ (cs.flatMap quoteChar ++ '"' :: rest)) =
        consChar c (stringBody '"' opened .plain next (cs.flatMap quoteChar ++ '"' :: rest)) := by
      by_cases hzero : c = '\x00'
      · subst hzero
        have hhead : ∀ d ∈ cs.head?, Text.isDigit d = false := fun d hd => by
          obtain ⟨back, rfl⟩ := List.head?_eq_some_iff.1 hd
          exact h [] d back rfl
        obtain ⟨d, body, heq, hd⟩ := head_quoted rest hhead
        rw [heq]
        exact stringBody_zero position body hd opened
      · exact stringBody_standsFor position _ (standsFor_quoteChar hzero) opened
    obtain ⟨next, hread⟩ := hread
    obtain ⟨after, hrest⟩ := ih next fun front d back heq => h (c :: front) d back (by rw [heq]; rfl)
    refine ⟨after, ?_⟩
    rw [List.flatMap_cons, List.append_assoc, hread, hrest]
    rfl

theorem tokenize_constant (h : ∀ opened position, ∃ after,
    stringBody '"' opened .plain position body = .ok (text, ⟨after, []⟩)) :
    (tokenize ('"' :: body)).map (List.map Token.kind) = .ok [.string (String.ofList text), .eof] := by
  obtain ⟨after, hbody⟩ := h .start (Position.start.step '"')
  have hspace : isSpace '"' = false := by decide
  have hstep : step (.start ('"' :: body)) =
      .ok (some ⟨.string (String.ofList text), .start⟩, some ⟨after, []⟩) := by
    simp [step, Cursor.start, Cursor.dropWhile, Cursor.takeWhile, hspace, readToken, Cursor.advance, hbody]
  rw [tokenize_of_step (by simp) hstep]
  rfl

end Token

namespace Library

theorem formatPieces_quoted : formatPieces ['%', 'q'] = [.directive ⟨[], [], none, .quoted⟩] := by
  have hread : readDirective ['q'] = some (⟨[], [], none, .quoted⟩, []) := by decide
  rw [formatPieces, if_pos rfl]
  split
  · next d rest h =>
    rw [hread] at h
    cases h
    rw [formatPieces]
  · next h =>
    cases h

/-- A string that `%q` has written is read back, unless one of its zeros stands in front of a digit. -/
theorem quoted_reads_back (call : Caller) (s : String) (h : ZerosApart s.toList) (store : Store) :
    ∃ text, stringFormat call (.string "%q") [.string s] store = .ok (.string text) store ∧
      (Token.tokenize text.toList).map (List.map Token.kind) = .ok [.string s, .eof] := by
  refine ⟨String.ofList ('"' :: s.toList.flatMap quoteChar ++ ['"']), ?_, ?_⟩
  · simp [stringFormat, checkString, formatPieces_quoted, formatPieceTexts, formatValue, quoteConstant]
    rfl
  · rw [String.toList_ofList, List.cons_append, Token.tokenize_constant fun opened position =>
      Token.stringBody_quoted position [] opened h, String.ofList_toList]

/-- A string with a zero in front of a letter. -/
theorem quoted_reads_back_zero : ZerosApart "\x00b1".toList ∧
    ∃ text, stringFormat (fun _ _ => Run.exhausted) (.string "%q") [.string "\x00b1"] {} = .ok (.string text) {} ∧
      (Token.tokenize text.toList).map (List.map Token.kind) = .ok [.string "\x00b1", .eof] := by
  have h : ZerosApart "\x00b1".toList := by
    intro front d back heq
    rcases front with _ | ⟨a, _ | ⟨b, _ | ⟨c, front⟩⟩⟩
    · obtain ⟨rfl, -⟩ := by simpa using heq
      decide
    all_goals simp at heq
  exact ⟨h, quoted_reads_back _ _ h _⟩

end Library

end TypedLua
