import TypedLua.Proofs.Parsing.Results

/-!
# Parsing makes progress

Every routine of the parser ends on every stream of tokens, from every place in it. It never reads beyond the end of
the text, and all but those that may read nothing, such as blocks and the loops behind a first item, read a token.
-/

namespace TypedLua.Parser

/-- A stream of tokens: the end of the text stands at its end and nowhere else. -/
def IsStream (ts : List Token) : Prop :=
  ∃ front last, ts = front ++ [last] ∧ last.kind = .eof ∧ ∀ t ∈ front, t.kind ≠ .eof

/-- With fuel for a stream that starts with a token that satisfies `H` the routine ends: it fails at a token or on a
declared type, or it leaves a place of the stream that is at least `least` tokens behind the start. -/
def AdvancesFrom {α : Type} (H : Token → Prop) (least : Nat) (p : Nat → Parse α) : Prop :=
  ∀ ts, IsStream ts → H (head ts) → ∀ n, depthBound ts.length ≤ n → match p n ts with
    | .ok (_, rest) => IsStream rest ∧ ∃ used, ts = used ++ rest ∧ least ≤ used.length
    | .error e => (∃ cause near, e = .invalid cause near) ∨ ∃ reason, e = .malformed reason

abbrev Advances {α : Type} (least : Nat) (p : Nat → Parse α) : Prop := AdvancesFrom (fun _ => True) least p

theorem ParseFailure.cases_of_ne {e : ParseFailure} (h : e ≠ .outOfFuel) :
    (∃ cause near, e = .invalid cause near) ∨ ∃ reason, e = .malformed reason := by
  cases e with
  | invalid cause near => exact .inl ⟨cause, near, rfl⟩
  | malformed reason => exact .inr ⟨reason, rfl⟩
  | outOfFuel => exact absurd rfl h

theorem IsStream.leaves {ts rest : List Token} (h : IsStream ts) (hrest : Leaves least ts rest) : IsStream rest := by
  obtain ⟨front, last, rfl, hlast, hfront⟩ := h
  obtain ⟨used, heq, -, hused⟩ := hrest
  rcases List.append_eq_append_iff.1 heq with ⟨more, hmore, hend⟩ | ⟨more, hmore, hend⟩
  · cases more with
    | nil =>
      rw [List.nil_append] at hend
      exact ⟨[], last, hend.symm, hlast, by simp⟩
    | cons t more =>
      obtain ⟨rfl, -⟩ := List.cons.inj hend
      exact absurd hlast (hused _ (by simp [hmore]))
  · exact ⟨more, last, hend, hlast, fun t ht => hfront t (by simp [hmore, ht])⟩

theorem AdvancesFrom.of_ensures {P : α → Prop} {p : Nat → Parse α} (h : ∀ n, EnsuresFrom n H least depth P (p n))
    (hdepth : depth.ble 16 = true) : AdvancesFrom H least p := by
  rw [Nat.ble_eq] at hdepth
  intro ts hts hhead n hn
  have hrun := h n ts hhead
  cases hp : p n ts with
  | ok r =>
    rw [hp] at hrun
    obtain ⟨used, hused, hleast, -⟩ := hrun.2
    exact ⟨hts.leaves hrun.2, used, hused, hleast⟩
  | error e =>
    rw [hp] at hrun
    exact ParseFailure.cases_of_ne (hrun.1 (by simp only [depthBound] at hn; omega))

/-- What the routines do from every place of a stream. The statement that ends a function is read only where it
starts, so not at the end of the text. -/
structure Progresses (ctx : Context) : Prop where
  block : Advances 0 (block ctx)
  statements : Advances 0 (statements ctx)
  statement : Advances 1 (statement ctx)
  returnStatement : AdvancesFrom (·.kind ≠ .eof) 1 (returnStatement ctx)
  localNames : Advances 1 (localNames ctx)
  moreTargets : Advances 0 (moreTargets ctx)
  moreLoopNames : Advances 0 moreLoopNames
  elseifClauses : Advances 0 (elseifClauses ctx)
  functionPath : ∀ target fullName, Advances 0 (functionPath · target fullName)
  parameters : Advances 1 (parameters ctx)
  functionBody : ∀ first label isMethod, Advances 1 (functionBody ctx · first label isMethod)
  functionSignature : ∀ first, Advances 1 (functionSignature ctx · first)
  typeExpression : Advances 1 (typeExpression ctx)
  expressionList : Advances 1 (expressionList ctx)
  expression : ∀ level, Advances 1 (expression ctx · level)
  climb : ∀ level left, Advances 0 (climb ctx · level left)
  unary : Advances 1 (unary ctx)
  simple : Advances 1 (simple ctx)
  primary : Advances 1 (primary ctx)
  suffixed : Advances 1 (suffixed ctx)
  suffixes : ∀ e, Advances 0 (suffixes ctx · e)
  callArguments : Advances 1 (callArguments ctx)
  table : Advances 1 (table ctx)
  tableFields : Advances 0 (tableFields ctx)
  tableField : Advances 1 (tableField ctx)

/-- **The parser always makes progress.** Every routine ends from every place of every stream and leaves a place at or
behind the start, which is behind the start where an item is read; so no loop of the parser repeats without
reading, and parsing ends with a chunk, at a token, or on a declared type. -/
theorem parsing_progresses : (∀ ctx, Progresses ctx) ∧ ∀ registry tokens,
    (∃ chunk, parse registry tokens = .ok chunk) ∨ (∃ cause near, parse registry tokens = .error (.invalid cause near)) ∨
      ∃ reason, parse registry tokens = .error (.malformed reason) := by
  refine ⟨fun ctx => ?_, fun registry tokens => ?_⟩
  · exact {
      block := .of_ensures (fun n => (delivers n).block) rfl
      statements := .of_ensures (fun n => (delivers n).statements) rfl
      statement := .of_ensures (fun n => (delivers n).statement) rfl
      returnStatement := .of_ensures (fun n => (delivers n).returnStatement) rfl
      localNames := .of_ensures (fun n => (delivers n).localNames) rfl
      moreTargets := .of_ensures (fun n => (delivers n).moreTargets) rfl
      moreLoopNames := .of_ensures ensures_moreLoopNames rfl
      elseifClauses := .of_ensures (fun n => (delivers n).elseifClauses) rfl
      functionPath target fullName := .of_ensures (fun n => ensures_functionPath n target fullName) rfl
      parameters := .of_ensures (fun n => (delivers n).parameters) rfl
      functionBody first label isMethod := .of_ensures (fun n => (delivers n).functionBody first label isMethod) rfl
      functionSignature first := .of_ensures (fun n => (delivers n).functionSignature first) rfl
      typeExpression := .of_ensures (fun n => (delivers n).typeExpression) rfl
      expressionList := .of_ensures (fun n => (delivers n).expressionList) rfl
      expression level := .of_ensures (fun n => (delivers n).expression level) rfl
      climb level left := .of_ensures (fun n => (delivers n).climb level left) rfl
      unary := .of_ensures (fun n => (delivers n).unary) rfl
      simple := .of_ensures (fun n => (delivers n).simple) rfl
      primary := .of_ensures (fun n => (delivers n).primary) rfl
      suffixed := .of_ensures (fun n => (delivers n).suffixed) rfl
      suffixes e := .of_ensures (fun n => (delivers n).suffixes e) rfl
      callArguments := .of_ensures (fun n => (delivers n).callArguments) rfl
      table := .of_ensures (fun n => (delivers n).table) rfl
      tableFields := .of_ensures (fun n => (delivers n).tableFields) rfl
      tableField := .of_ensures (fun n => (delivers n).tableField) rfl }
  · have hcases := parse_cases registry tokens
    cases hparse : parse registry tokens with
    | ok chunk => exact .inl ⟨chunk, rfl⟩
    | error e =>
      rw [hparse] at hcases
      refine .inr ((ParseFailure.cases_of_ne hcases.1).imp ?_ ?_)
      · rintro ⟨cause, near, rfl⟩
        exact ⟨cause, near, rfl⟩
      · rintro ⟨reason, rfl⟩
        exact ⟨reason, rfl⟩

end TypedLua.Parser
