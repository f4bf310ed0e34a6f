import TypedLua.Proofs.Parsing.Results
import TypedLua.Syntax.Closures

/-!
# Expressions in place of types

Types are read with the grammar of expressions, and all that the surroundings decide is what the
word `function` opens: a function, or a function type.
-/

namespace TypedLua.Parser

/-- Where the first routine delivers something with a property, a condition holds, and the second routine
delivers the same. -/
def Agrees {α : Type} (C : Prop) (M : α → Prop) (p q : Parse α) : Prop :=
  ∀ ts a rest, p ts = .ok (a, rest) → M a → C ∧ q ts = .ok (a, rest)

namespace Agrees

variable {α β : Type} {C : Prop} {M : β → Prop}

theorem pure {b : β} (h : M b → C) : Agrees C M (pure b) (pure b) := by
  intro ts b rest hrun hM
  cases hrun
  exact ⟨h hM, rfl⟩

theorem bind {N : α → Prop} {p q : Parse α} {f g : α → Parse β} (hp : Agrees True N p q)
    (hf : ∀ a, Agrees (C ∧ N a) M (f a) (g a)) : Agrees C M (p >>= f) (q >>= g) := by
  intro ts b rest hrun hM
  obtain ⟨a, mid, ha, hb⟩ := bind_ok hrun
  obtain ⟨⟨hC, hN⟩, hg⟩ := hf a mid b rest hb hM
  rw [bind_run (hp ts a mid ha hN).2]
  exact ⟨hC, hg⟩

theorem call {C' : Prop} {p q : Parse β} (hp : Agrees C' M p q) (h : C' → C) : Agrees C M p q :=
  fun ts b rest hrun hM => (hp ts b rest hrun hM).imp_left h

theorem shared {f g : α → Parse β} (hf : ∀ a, Agrees C M (f a) (g a)) : Agrees C M (p >>= f) (p >>= g) :=
  bind (N := fun _ => True) (fun _ _ _ h _ => ⟨trivial, h⟩) fun a ts b rest hrun hM =>
    ⟨⟨(hf a ts b rest hrun hM).1, trivial⟩, (hf a ts b rest hrun hM).2⟩

theorem never (h : ∀ ts b rest, p ts = .ok (b, rest) → ¬M b) : Agrees C M p q :=
  fun ts b rest hrun hM => absurd hM (h ts b rest hrun)

theorem failure : Agrees C M (failure cause) q := never fun _ _ _ hrun => nomatch hrun

theorem ite {b : Prop} [Decidable b] (hp : Agrees C M p q) (hq : Agrees C M p' q') :
    Agrees C M (if b then p else p') (if b then q else q') := by
  split
  · exact hp
  · exact hq

end Agrees

/-- What the routines for expressions deliver without functions in the first surroundings they deliver in the
second ones, too. -/
structure Turns (ctx ctx' : Context) (n : Nat) : Prop where
  expressionList : Agrees True (exprsHaveFunction · = false) (expressionList ctx n) (expressionList ctx' n)
  expression : ∀ level, Agrees True (·.hasFunction = false) (expression ctx n level) (expression ctx' n level)
  climb : ∀ level left, Agrees (left.hasFunction = false) (·.hasFunction = false) (climb ctx n level left)
    (climb ctx' n level left)
  unary : Agrees True (·.hasFunction = false) (unary ctx n) (unary ctx' n)
  simple : Agrees True (·.hasFunction = false) (simple ctx n) (simple ctx' n)
  primary : Agrees True (·.hasFunction = false) (primary ctx n) (primary ctx' n)
  suffixed : Agrees True (·.hasFunction = false) (suffixed ctx n) (suffixed ctx' n)
  suffixes : ∀ e, Agrees (e.hasFunction = false) (·.hasFunction = false) (suffixes ctx n e) (suffixes ctx' n e)
  callArguments : Agrees True (exprsHaveFunction · = false) (callArguments ctx n) (callArguments ctx' n)
  table : Agrees True (·.hasFunction = false) (table ctx n) (table ctx' n)
  tableFields : Agrees True (fieldsHaveFunction · = false) (tableFields ctx n) (tableFields ctx' n)
  tableField : Agrees True (fieldsHaveFunction [·] = false) (tableField ctx n) (tableField ctx' n)

theorem turns {ctx : Context} (hctx : ctx.inType = false) (n : Nat) : Turns ctx { ctx with inType := true } n := by
  induction n with
  | zero => constructor <;> intros <;> exact .never fun _ _ _ hrun => by cases hrun
  | succ n ih =>
    exact {
      expressionList := by
        refine .bind (ih.expression 0) fun e => .shared fun more => .ite ?_ (.pure ?_)
        · exact .bind ih.expressionList fun es => .pure (by simp [exprsHaveFunction])
        · simp [exprsHaveFunction]
      expression level := by
        exact .bind ih.unary fun left => .call (ih.climb level left) (by simp)
      climb level left := by
        refine .shared fun mark => ?_
        split
        · exact .pure id
        · refine .ite (.pure id) (.shared fun mark => .bind (ih.expression _) fun right => ?_)
          exact .call (ih.climb level _) (by simp [Expr.hasFunction])
      unary := by
        refine .shared fun first => ?_
        split
        · refine .shared fun _ => .bind (ih.expression _) fun operand => .pure (by simp [Expr.hasFunction])
        · exact ih.simple
      simple := by
        simp only [Parser.simple, hctx]
        refine .shared fun first => ?_
        split
        all_goals try exact .shared fun _ => .pure fun _ => trivial
        · exact .ite (.shared fun _ => .pure fun _ => trivial) .failure
        · refine .shared fun _ => .never fun ts e rest hrun => ?_
          -- Outside of a type the word opens a function, and this is what the expression must not have.
          obtain ⟨f, mid, -, hf⟩ := bind_ok hrun
          cases hf
          simp [Expr.hasFunction]
        · exact ih.table
        · exact ih.suffixed
      primary := by
        refine .shared fun first => ?_
        split
        · exact .shared fun _ => .pure fun _ => trivial
        · refine .shared fun _ => .bind (ih.expression 0) fun e => .shared fun _ => .pure (by simp [Expr.hasFunction])
        · exact .failure
      suffixed := by
        exact .bind ih.primary fun e => .call (ih.suffixes e) (by simp)
      suffixes e := by
        refine .shared fun first => ?_
        -- Three kinds of tokens open the arguments of a call.
        have hcall := Agrees.bind (C := e.hasFunction = false) ih.callArguments fun args =>
          .call (ih.suffixes (.call (some first.position) e args)) (by simp [Expr.hasFunction])
        split
        · refine .shared fun _ => .shared fun _ => .shared fun key => ?_
          exact .call (ih.suffixes _) (by simp [Expr.hasFunction])
        · refine .shared fun _ => .bind (ih.expression 0) fun key => .shared fun _ => ?_
          exact .call (ih.suffixes _) (by simp [Expr.hasFunction])
        · refine .shared fun _ => .shared fun member => .bind ih.callArguments fun args => ?_
          exact .call (ih.suffixes _) (by simp [Expr.hasFunction])
        · exact hcall
        · exact hcall
        · exact hcall
        · exact .pure id
      callArguments := by
        refine .shared fun first => ?_
        split
        · exact .shared fun _ => .pure fun _ => trivial
        · exact .bind ih.table fun e => .pure (by simp [exprsHaveFunction])
        · refine .shared fun _ => .shared fun _ => .ite (.pure fun _ => trivial) ?_
          exact .bind ih.expressionList fun args => .shared fun _ => .pure fun h => ⟨trivial, h⟩
      table := by
        refine .shared fun first => .bind ih.tableFields fun fields => .shared fun _ => .pure ?_
        simp [Expr.hasFunction]
      tableFields := by
        refine .shared fun _ => .ite (.pure fun _ => trivial) (.bind ih.tableField fun field => ?_)
        have hmore := Agrees.bind (C := True ∧ fieldsHaveFunction [field] = false) (β := List Field)
          (M := (fieldsHaveFunction · = false)) ih.tableFields fun fields => .pure (b := field :: fields) ?_
        · exact .shared fun _ => .ite hmore (.shared fun _ => .ite hmore (.pure fun h => ⟨trivial, h⟩))
        · obtain ⟨loc, key, value⟩ := field
          simp [fieldsHaveFunction]
      tableField := by
        simp only [Parser.tableField]
        refine .shared fun tokens => ?_
        split
        · refine .shared fun _ => .bind (ih.expression 0) fun key => .shared fun _ => .shared fun _ =>
            .bind (ih.expression 0) fun value => .pure ?_
          simp [fieldsHaveFunction, optionHasFunction]
        · refine .shared fun _ => .shared fun _ => .bind (ih.expression 0) fun value => .pure ?_
          simp [fieldsHaveFunction, optionHasFunction]
        · refine .bind (ih.expression 0) fun value => .pure ?_
          simp [fieldsHaveFunction, optionHasFunction] }

def EndsNames (rest : List Token) : Prop := (head rest).kind ≠ .symbol .comma ∧ (head rest).kind ≠ .symbol .assign

theorem statement_localType
    (h : typeExpression ctx n ts = .ok (type, rest)) (hrest : EndsNames rest) (x : String) (p q r : Position) :
    statement ctx (n + 2) (⟨.keyword .local_, p⟩ :: ⟨.name x, q⟩ :: ⟨.symbol .doubleColon, r⟩ :: ts) =
      .ok (.localVars (some p) [x] [] [.mk x type], rest) := by
  have hnames : localNames ctx (n + 1) (⟨.name x, q⟩ :: ⟨.symbol .doubleColon, r⟩ :: ts) =
      .ok (([x], [.mk x type]), rest) := by
    rw [localNames, bind_run (expectName_hit x _ q _), bind_run (accept_hit (by simp) r ts)]
    simp only [if_true]
    rw [bind_run h, pure_bind, bind_run (accept_miss hrest.1)]
    rfl
  rw [statement, bind_run (current_run _)]
  simp only [head]
  rw [bind_run (advance_run (by simp) p _), bind_run (accept_miss (by simp [head]))]
  simp only [Bool.false_eq_true, if_false]
  rw [bind_run hnames, bind_run (accept_miss hrest.2)]
  rfl

/-- An expression in parentheses without functions is the type of a local declaration as it is written. -/
theorem parenthesised_type_as_written {ctx : Context} {n : Nat} {ts rest : List Token} {loc : Loc} {e : Expr}
    (hctx : ctx.inType = false) (h : expression ctx n 0 ts = .ok (.paren loc e, rest)) (he : e.hasFunction = false) :
    typeExpression ctx (n + 1) ts = .ok (.paren loc e, rest) ∧ ∀ (x : String) (p q r : Position), EndsNames rest →
        statement ctx (n + 3) (⟨.keyword .local_, p⟩ :: ⟨.name x, q⟩ :: ⟨.symbol .doubleColon, r⟩ :: ts) =
          .ok (.localVars (some p) [x] [] [.mk x (.paren loc e)], rest) := by
  have htype : typeExpression ctx (n + 1) ts = .ok (.paren loc e, rest) :=
    (((turns hctx n).expression 0) ts _ rest h he).2
  exact ⟨htype, fun x p q r hrest => statement_localType htype hrest x p q r⟩

theorem parenthesised_type_as_written_call :
    typeExpression ⟨"types", false, true⟩ 20 [⟨.symbol .lparen, ⟨1, 1, 0⟩⟩, ⟨.name "check", ⟨1, 2, 1⟩⟩,
      ⟨.symbol .lparen, ⟨1, 7, 6⟩⟩, ⟨.name "even", ⟨1, 8, 7⟩⟩, ⟨.symbol .rparen, ⟨1, 12, 11⟩⟩,
      ⟨.symbol .rparen, ⟨1, 13, 12⟩⟩, ⟨.eof, ⟨1, 14, 13⟩⟩] =
    .ok (.paren (some ⟨1, 1, 0⟩) (.call (some ⟨1, 7, 6⟩) (.name (some ⟨1, 2, 1⟩) "check")
      [.name (some ⟨1, 8, 7⟩) "even"]), [⟨.eof, ⟨1, 14, 13⟩⟩]) :=
  (parenthesised_type_as_written rfl (by rfl) (by rfl)).1

end TypedLua.Parser
