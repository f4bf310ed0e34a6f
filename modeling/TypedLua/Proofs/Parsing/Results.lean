import TypedLua.Proofs.Parsing.Mirror
import TypedLua.Proofs.Parsing.Written

/-!
# What parsing can result in

What is parsed is written: no block stands inside an expression, an annotation names one of the
names that it stands with, and what is assigned to is a name or a member.
-/

namespace TypedLua.Parser

open Annotation

def ExprFits (inType : Bool) (e : Expr) : Prop := e.Written ∧ (inType = true → IsType e)

def StmtFits (inType : Bool) (s : Stmt) : Prop :=
  s.Written ∧ (inType = true → ∀ loc values, s = .returnValues loc values → ∀ e ∈ values, IsType e)

section Forms

variable {t : Bool} {loc : Loc} {e e' : Expr} {es : List Expr} {fields : List Field} {s : Stmt} {b : Block}

theorem written_exprs (h : ∀ e ∈ es, ExprFits t e) : exprsWritten es := exprsWritten_iff.2 fun e he => (h e he).1

theorem written_block (h : ∀ s ∈ b.stmts, StmtFits t s) : b.Written := Block.written_iff.2 fun s hs => (h s hs).1

theorem StmtFits.of_written (hs : s.Written) (hother : s.isReturn = false) : StmtFits t s :=
  ⟨hs, fun _ _ _ heq => by rw [heq] at hother; cases hother⟩

theorem StmtFits.returnValues (h : ∀ e ∈ es, ExprFits t e) : StmtFits t (.returnValues loc es) :=
  ⟨written_exprs h, fun ht _ _ heq => by cases heq; exact fun e he => (h e he).2 ht⟩

theorem StmtFits.declaration (htype : IsType e')
    (h : compileDeclaration registry e e' = .ok s) : StmtFits t s := by
  have hentry (loc : Loc) (x : String) : exprsWritten [registryEntry registry loc x] ∧
      ∀ e ∈ [registryEntry registry loc x], isAssignable e = true :=
    ⟨⟨⟨trivial, trivial⟩, trivial⟩, List.forall_mem_singleton.2 rfl⟩
  have hpred {bound : List String} {p : Expr} (hp : compileType registry bound e' = .ok p) :
      p.Written := (htype _ congruent_written).2 registry bound p hp
  rw [compileDeclaration.eq_def] at h
  split at h
  · obtain ⟨p, hp, h⟩ := except_bind_ok h
    cases h
    exact .of_written ⟨(hentry _ _).1, (hentry _ _).2, hpred hp, trivial⟩ rfl
  · split at h
    · obtain ⟨p, hp, h⟩ := except_bind_ok h
      cases h
      refine .of_written ⟨(hentry _ _).1, (hentry _ _).2, ⟨?_, List.forall_mem_nil _, by simp⟩, trivial⟩ rfl
      exact ⟨⟨hpred hp, trivial⟩, trivial⟩
    · cases h
  · cases h

namespace ExprFits

theorem nil : ExprFits t (.nil loc) := ⟨trivial, fun _ _ h => h.lasting (h.nil loc) nofun nofun⟩

theorem bool {b : Bool} : ExprFits t (.bool loc b) := ⟨trivial, fun _ _ h => h.lasting (h.bool loc b) nofun nofun⟩

theorem number : ExprFits t (.number loc n) := ⟨trivial, fun _ _ h => h.lasting (h.number loc n) nofun nofun⟩

theorem string : ExprFits t (.string loc text) :=
  ⟨trivial, fun _ _ h => h.lasting (h.string loc text) nofun nofun⟩

theorem vararg : ExprFits t (.vararg loc) := ⟨trivial, fun _ _ h => h.lasting (h.vararg loc) nofun nofun⟩

theorem name {x : String} : ExprFits t (.name loc x) := ⟨trivial, fun _ _ h => h.lasting (h.name loc x) nofun nofun⟩

theorem function {f : Function} (hf : f.Written) : ExprFits false (.function f) := ⟨hf, nofun⟩

theorem signature (hes : ∀ e ∈ es, ExprFits true e) (hb : ∀ s ∈ b.stmts, StmtFits true s) :
    ExprFits true (.signature loc es b) :=
  ⟨trivial, fun _ => .signature (fun e he => (hes e he).2 rfl) fun s hs => (hb s hs).2 rfl⟩

theorem table (hfields : ∀ f ∈ fields, f.All (ExprFits t)) : ExprFits t (.table loc fields) := by
  refine ⟨fieldsWritten_iff.2 ?_, fun ht => .table ?_⟩
  · rintro ⟨floc, key, value⟩ hf
    exact ⟨fun e he => ((hfields _ hf).1 e he).1, (hfields _ hf).2.1⟩
  · rintro ⟨floc, key, value⟩ hf
    exact ⟨fun e he => ((hfields _ hf).1 e he).2 ht, (hfields _ hf).2.2 ht⟩

theorem binary (he : ExprFits t e) (he' : ExprFits t e') : ExprFits t (.binary loc e op e') :=
  ⟨⟨he.1, he'.1⟩, fun ht P h => h.lasting (h.binary loc e op e' (he.2 ht P h).1 (he'.2 ht P h).1) nofun
    (by simpa [subtypes] using ⟨he.2 ht P h, he'.2 ht P h⟩)⟩

theorem unary (he : ExprFits t e) : ExprFits t (.unary loc op e) := ⟨he.1, fun ht P h =>
    h.lasting (h.unary loc op e (he.2 ht P h).1) nofun (by simpa [subtypes] using he.2 ht P h)⟩

theorem call (he : ExprFits t e) (hes : ∀ e ∈ es, ExprFits t e) : ExprFits t (.call loc e es) :=
  ⟨⟨he.1, written_exprs hes⟩, fun ht P h =>
    h.lasting (h.call loc e es (he.2 ht P h).1 fun d hd => ((hes d hd).2 ht P h).1) nofun
      (List.forall_mem_cons.2 ⟨he.2 ht P h, fun d hd => (hes d hd).2 ht P h⟩)⟩

theorem method (he : ExprFits t e) (hes : ∀ e ∈ es, ExprFits t e) : ExprFits t (.method loc e member es) :=
  ⟨⟨he.1, written_exprs hes⟩, fun ht P h =>
    h.lasting (h.method loc e member es (he.2 ht P h).1 fun d hd => ((hes d hd).2 ht P h).1) nofun nofun⟩

theorem index (he : ExprFits t e) (he' : ExprFits t e') : ExprFits t (.index loc e e') :=
  ⟨⟨he.1, he'.1⟩, fun ht P h => h.lasting (h.index loc e e' (he.2 ht P h).1 (he'.2 ht P h).1) nofun nofun⟩

theorem paren (he : ExprFits t e) : ExprFits t (.paren loc e) :=
  ⟨he.1, fun ht P h => h.lasting (h.paren loc e (he.2 ht P h).1) nofun nofun⟩

end ExprFits

end Forms

/-! ## Results of routines -/

/-- The rest of a stream behind at least `least` tokens, none of them the end of the text. -/
def Leaves (least : Nat) (ts rest : List Token) : Prop :=
  ∃ used, ts = used ++ rest ∧ least ≤ used.length ∧ ∀ t ∈ used, t.kind ≠ .eof

def ParseFailure.IsAt (ts : List Token) (e : ParseFailure) : Prop :=
  ∀ cause near, e = .invalid cause near → ∃ rest, Leaves 0 ts rest ∧ near = head rest

theorem Leaves.refl (ts : List Token) : Leaves 0 ts ts := ⟨[], rfl, Nat.le_refl 0, by simp⟩

theorem Leaves.trans (h : Leaves least ts mid)
    (h' : Leaves least' mid rest) (hle : total ≤ least + least') : Leaves total ts rest := by
  obtain ⟨used, rfl, hused, heof⟩ := h
  obtain ⟨more, rfl, hmore, heof'⟩ := h'
  refine ⟨used ++ more, (List.append_assoc ..).symm, ?_, List.forall_mem_append.2 ⟨heof, heof'⟩⟩
  rw [List.length_append]
  omega

theorem ParseFailure.IsAt.front (cause : ParseCause) (ts : List Token) : (invalid cause (head ts)).IsAt ts :=
  fun _ _ he => ⟨ts, .refl ts, (ParseFailure.invalid.inj he).2.symm⟩

/-- On a stream that starts with a token that satisfies `H` the routine reads at least `least`
tokens, and what it delivers has a property. -/
def EnsuresFrom {α : Type} (n : Nat) (H : Token → Prop) (least depth : Nat) (P : α → Prop) (p : Parse α) : Prop :=
  ∀ ts, H (head ts) → match p ts with
    | .ok (a, rest) => P a ∧ Leaves least ts rest
    | .error e => (16 * ts.length + depth ≤ n → e ≠ .outOfFuel) ∧ e.IsAt ts

abbrev Ensures {α : Type} (n least depth : Nat) (P : α → Prop) (p : Parse α) : Prop :=
  EnsuresFrom n (fun _ => True) least depth P p

namespace EnsuresFrom

variable {α β : Type} {n : Nat} {H H' : Token → Prop} {least least' depth depth' : Nat} {P : α → Prop} {Q : β → Prop}

theorem call_imp {p : Parse α} {P' : α → Prop} (h : Ensures n least' depth' P' p) (hP : ∀ a, P' a → P a)
    (hleast : least.ble least' = true) (hdepth : depth'.ble depth = true) : EnsuresFrom n H least depth P p := by
  rw [Nat.ble_eq] at hleast hdepth
  intro ts _
  have hrun := h ts trivial
  split at hrun
  · exact ⟨hP _ hrun.1, (Leaves.refl ts).trans hrun.2 (by omega)⟩
  · exact hrun.imp_left fun h hfuel => h (by omega)

theorem call {p : Parse α} (h : Ensures n least' depth' P p) (hleast : least.ble least' = true)
    (hdepth : depth'.ble depth = true) : EnsuresFrom n H least depth P p := h.call_imp (fun _ => id) hleast hdepth

theorem fuel (h : EnsuresFrom n H least depth P p) : EnsuresFrom (n + 1) H least (depth + 1) P p := by
  intro ts hhead
  have hrun := h ts hhead
  split at hrun
  · exact hrun
  · exact hrun.imp_left fun h hfuel => h (by omega)

theorem bind_of {f : α → Parse β} (hp : EnsuresFrom n H' least' depth' P p)
    (hH : ∀ t, H t → H' t) (hdepth : depth'.ble depth = true)
    (hf : ∀ a, P a → Ensures n (least - least') (depth + 16 * least') Q (f a)) :
    EnsuresFrom n H least depth Q (p >>= f) := by
  rw [Nat.ble_eq] at hdepth
  intro ts hhead
  have hrun := hp ts (hH _ hhead)
  cases hts : p ts with
  | error e =>
    rw [hts] at hrun
    rw [bind_error hts]
    exact hrun.imp_left fun h hfuel => h (by omega)
  | ok r =>
    rw [hts] at hrun
    have hrest := hf r.1 hrun.1 r.2 trivial
    rw [bind_run hts]
    split at hrest
    · exact ⟨hrest.1, hrun.2.trans hrest.2 (by omega)⟩
    · refine ⟨fun hfuel => hrest.1 ?_, fun cause near he => ?_⟩
      · obtain ⟨used, hused, hle, -⟩ := hrun.2
        rw [hused, List.length_append] at hfuel
        omega
      · obtain ⟨left, hleft, hnear⟩ := hrest.2 cause near he
        exact ⟨left, hrun.2.trans hleft (Nat.zero_le _), hnear⟩

theorem bind {p : Parse α} {f : α → Parse β} (hp : Ensures n least' depth' P p) (hdepth : depth'.ble depth = true)
    (hf : ∀ a, P a → Ensures n (least - least') (depth + 16 * least') Q (f a)) :
    EnsuresFrom n H least depth Q (p >>= f) :=
  bind_of hp (fun _ _ => trivial) hdepth hf

theorem pure {a : α} (ha : P a) : EnsuresFrom n H 0 depth P (pure a) :=
  fun ts _ => ⟨ha, .refl ts⟩

theorem malformed : EnsuresFrom n H least depth P (throw (.malformed reason)) :=
  fun _ _ => ⟨fun _ => nofun, fun _ _ => nofun⟩

theorem failure : EnsuresFrom n H least depth P (failure cause) :=
  fun ts _ => ⟨fun _ => nofun, .front cause ts⟩

theorem spent : EnsuresFrom 0 H least (depth + 1) P (MonadExcept.throw ParseFailure.outOfFuel) :=
  fun _ _ => ⟨fun hfuel => by omega, fun _ _ => nofun⟩

theorem ite {b : Prop} [Decidable b] (hp : b → EnsuresFrom n H least depth P p)
    (hq : ¬b → EnsuresFrom n H least depth P q) : EnsuresFrom n H least depth P (if b then p else q) := by
  by_cases h : b
  · rw [if_pos h]
    exact hp h
  · rw [if_neg h]
    exact hq h

/-! ### Single tokens -/

theorem current {f : Token → Parse β} (h : ∀ t, H t → EnsuresFrom n (· = t) least depth Q (f t)) :
    EnsuresFrom n H least depth Q (current >>= f) :=
  fun ts hhead => h (head ts) hhead ts rfl

theorem get {f : List Token → Parse β} (h : ∀ ts, H (head ts) → EnsuresFrom n (· = head ts) least depth Q (f ts)) :
    EnsuresFrom n H least depth Q (get >>= f) :=
  fun ts hhead => h ts hhead ts rfl

theorem advance {f : Token → Parse β} (hH : ∀ t, H t → t.kind ≠ .eof)
    (h : ∀ t, H t → Ensures n (least - 1) (depth + 16) Q (f t)) : EnsuresFrom n H least depth Q (advance >>= f) := by
  have hadvance : EnsuresFrom n H 1 0 H Parser.advance := by
    rintro (_ | ⟨t, ts⟩) hhead
    · exact absurd rfl (hH _ hhead)
    · rw [advance_run (hH t hhead)]
      exact ⟨hhead, [t], rfl, Nat.le_refl 1, List.forall_mem_singleton.2 (hH t hhead)⟩
  exact bind_of hadvance (fun _ => id) rfl h

theorem advance_any : Ensures n 0 0 (fun _ => True) Parser.advance := by
  rintro (_ | ⟨⟨k, p⟩, ts⟩) _
  · exact ⟨trivial, .refl []⟩
  · by_cases hk : k = .eof
    · have hstay : tail (⟨k, p⟩ :: ts) = ⟨k, p⟩ :: ts := if_pos hk
      exact ⟨trivial, [], hstay.symm, Nat.le_refl 0, by simp⟩
    · rw [advance_run hk]
      exact ⟨trivial, [⟨k, p⟩], rfl, Nat.zero_le 1, List.forall_mem_singleton.2 hk⟩

theorem check {kind : Token.Kind} {f : Bool → Parse β} (h : ∀ b, EnsuresFrom n H least depth Q (f b)) :
    EnsuresFrom n H least depth Q (check kind >>= f) :=
  fun ts hhead => h _ ts hhead

theorem accept {f : Bool → Parse β} (hkind : (kind == .eof) = false)
    (htrue : Ensures n (least - 1) (depth + 16) Q (f true))
    (hfalse : EnsuresFrom n H least depth Q (f false)) : EnsuresFrom n H least depth Q (accept kind >>= f) := by
  have hkind := ne_of_beq_false hkind
  intro ts hhead
  by_cases hk : (head ts).kind = kind
  · obtain ⟨⟨k, p⟩, mid, rfl, rfl⟩ := cons_of_head hk hkind
    have hadvance := advance (H := (· = ⟨k, p⟩)) (f := fun _ => f true) (by simpa using hkind) (fun _ _ => htrue)
      (⟨k, p⟩ :: mid) rfl
    rw [bind_run (advance_run hkind _ _)] at hadvance
    rwa [bind_run (accept_hit hkind _ _)]
  · rw [bind_run (accept_miss hk)]
    exact hfalse ts hhead

theorem expect {f : Token → Parse β}
    (hkind : (kind == .eof) = false) (h : ∀ t, Ensures n (least - 1) (depth + 16) Q (f t)) :
    EnsuresFrom n H least depth Q (expect kind cause >>= f) := by
  have hexpect : Ensures n 1 0 (fun _ => True) (Parser.expect kind cause) := by
    have hkind := ne_of_beq_false hkind
    intro ts _
    by_cases hk : (head ts).kind = kind
    · obtain ⟨⟨k, p⟩, mid, rfl, rfl⟩ := cons_of_head hk hkind
      rw [expect_hit hkind]
      exact ⟨trivial, [⟨k, p⟩], rfl, Nat.le_refl 1, List.forall_mem_singleton.2 hkind⟩
    · rw [Parser.expect, bind_run (check_run _ _), decide_eq_false hk]
      exact ⟨(fun _ h => by cases h), .front cause ts⟩
  exact bind hexpect rfl fun t _ => h t

theorem expectName {f : String → Parse β} (h : ∀ x, Ensures n (least - 1) (depth + 16) Q (f x)) :
    EnsuresFrom n H least depth Q (expectName cause >>= f) := by
  have hexpect : Ensures n 1 0 (fun _ => True) (Parser.expectName cause) := by
    intro ts _
    cases hk : (head ts).kind with
    | name x =>
      obtain ⟨⟨_, p⟩, mid, rfl, rfl⟩ := cons_of_head hk (by simp)
      exact ⟨trivial, [⟨.name x, p⟩], rfl, Nat.le_refl 1, by simp⟩
    | _ =>
      rw [Parser.expectName, bind_run (current_run _), hk]
      exact ⟨(fun _ h => by cases h), .front cause ts⟩
  exact bind hexpect rfl fun x _ => h x

end EnsuresFrom

structure Delivers (n : Nat) : Prop where
  block : ∀ {ctx}, Ensures n 0 5 (∀ s ∈ ·.stmts, StmtFits ctx.inType s) (block ctx n)
  statements : ∀ {ctx}, Ensures n 0 4 (∀ s ∈ ·, StmtFits ctx.inType s) (statements ctx n)
  statement : ∀ {ctx}, Ensures n 1 3 (StmtFits ctx.inType) (statement ctx n)
  moreTargets : ∀ {ctx}, Ensures n 0 1 (fun es => exprsWritten es ∧ ∀ e ∈ es, isAssignable e = true) (moreTargets ctx n)
  localNames : ∀ {ctx}, Ensures n 1 1 (fun r => ∀ a ∈ r.2, a.Written r.1) (localNames ctx n)
  elseifClauses : ∀ {ctx}, Ensures n 0 1 clausesWritten (elseifClauses ctx n)
  returnStatement : ∀ {ctx}, EnsuresFrom n (·.kind ≠ .eof) 1 1 (StmtFits ctx.inType) (returnStatement ctx n)
  parameters : ∀ {ctx}, Ensures n 1 1 (fun r => ∀ a ∈ r.2.1, a.Written r.1) (parameters ctx n)
  functionBody : ∀ {ctx} first label isMethod,
    Ensures n 1 1 Function.Written (functionBody ctx n first label isMethod)
  functionSignature : ∀ {ctx} first,
    Ensures n 1 1 (fun e => ctx.inType = true → ExprFits true e) (functionSignature ctx n first)
  typeExpression : ∀ {ctx}, Ensures n 1 6 (ExprFits true) (typeExpression ctx n)
  expressionList : ∀ {ctx}, Ensures n 1 6 (∀ e ∈ ·, ExprFits ctx.inType e) (expressionList ctx n)
  expression : ∀ {ctx} level, Ensures n 1 5 (ExprFits ctx.inType) (expression ctx n level)
  climb : ∀ {ctx} level left,
    Ensures n 0 1 (fun e => ExprFits ctx.inType left → ExprFits ctx.inType e) (climb ctx n level left)
  unary : ∀ {ctx}, Ensures n 1 4 (ExprFits ctx.inType) (unary ctx n)
  simple : ∀ {ctx}, Ensures n 1 3 (ExprFits ctx.inType) (simple ctx n)
  primary : ∀ {ctx}, Ensures n 1 1 (ExprFits ctx.inType) (primary ctx n)
  suffixed : ∀ {ctx}, Ensures n 1 2 (ExprFits ctx.inType) (suffixed ctx n)
  suffixes : ∀ {ctx} e, Ensures n 0 3 (fun e' => ExprFits ctx.inType e → ExprFits ctx.inType e') (suffixes ctx n e)
  callArguments : ∀ {ctx}, Ensures n 1 2 (∀ e ∈ ·, ExprFits ctx.inType e) (callArguments ctx n)
  table : ∀ {ctx}, Ensures n 1 1 (ExprFits ctx.inType) (table ctx n)
  tableFields : ∀ {ctx}, Ensures n 0 7 (∀ f ∈ ·, f.All (ExprFits ctx.inType)) (tableFields ctx n)
  tableField : ∀ {ctx}, Ensures n 1 6 (·.All (ExprFits ctx.inType)) (tableField ctx n)

theorem ensures_moreLoopNames (n : Nat) : Ensures n 0 1 (fun _ => True) (moreLoopNames n) := by
  induction n with
  | zero => exact .spent
  | succ n ih =>
    refine .fuel ?_
    exact .accept rfl (.expectName fun x => .bind ih rfl fun xs _ => .pure trivial) (.pure trivial)

section Routines

variable {n : Nat} {ctx : Context} (ih : Delivers n)

theorem ensures_functionPath (n : Nat) : ∀ target fullName, Ensures n 0 1
    (fun r => target.Written → isAssignable target = true → r.1.Written ∧ isAssignable r.1 = true)
      (functionPath n target fullName) := by
  induction n with
  | zero => exact fun _ _ => .spent
  | succ n ih =>
    intro target fullName
    refine .fuel ?_
    refine .current fun separator _ => .ite (fun hkind => ?_) fun _ => .pure fun ht ha => ⟨ht, ha⟩
    refine .advance ?_ fun _ _ => .current fun keyToken _ => .expectName fun key => ?_
    · rintro _ rfl heof
      simp [heof] at hkind
    · exact .ite (fun _ => .pure fun ht _ => ⟨⟨ht, trivial⟩, rfl⟩) fun _ =>
        .call_imp (ih _ _) (fun _ h ht _ => h ⟨ht, trivial⟩ rfl) rfl rfl

theorem ensures_ensureAssignable {e : Expr} (he : e.Written) :
    Ensures n 0 0 (fun target => target.Written ∧ isAssignable target = true) (ensureAssignable e) := by
  exact .ite (fun hassignable => .pure ⟨he, hassignable⟩) fun _ => .failure

include ih

/-! ### Expressions -/

theorem ensures_climb (level : Nat) (left : Expr) : Ensures (n + 1) 0 1
    (fun e => ExprFits ctx.inType left → ExprFits ctx.inType e) (climb ctx (n + 1) level left) := by
  refine .fuel ?_
  refine .current fun first _ => ?_
  split
  · exact .pure id
  · next hop =>
    refine .ite (fun _ => .pure id) fun _ => .advance ?_ fun mark _ => ?_
    · rintro _ rfl heof
      rw [heof] at hop
      cases hop
    · refine .bind (ih.expression _) rfl fun right hright => ?_
      exact .call_imp (ih.climb level _) (fun _ h hleft => h (ExprFits.binary hleft hright)) rfl rfl

theorem ensures_unary : Ensures (n + 1) 1 4 (ExprFits ctx.inType) (unary ctx (n + 1)) := by
  refine .fuel ?_
  refine .current fun first _ => ?_
  split
  · next hop =>
    refine .advance ?_ fun _ _ => .bind (ih.expression _) rfl fun operand hoperand => .pure ?_
    · rintro _ rfl heof
      rw [heof] at hop
      cases hop
    · exact ExprFits.unary hoperand
  · exact .call ih.simple rfl rfl

theorem ensures_simple : Ensures (n + 1) 1 3 (ExprFits ctx.inType) (simple ctx (n + 1)) := by
  refine .fuel ?_
  refine .current fun first _ => ?_
  split
  · exact .advance (by simp [*]) fun _ _ => .pure .nil
  · exact .advance (by simp [*]) fun _ _ => .pure .bool
  · exact .advance (by simp [*]) fun _ _ => .pure .bool
  · exact .advance (by simp [*]) fun _ _ => .pure .number
  · exact .advance (by simp [*]) fun _ _ => .pure .string
  · exact .ite (fun _ => .advance (by simp [*]) fun _ _ => .pure .vararg) fun _ => .failure
  · refine .advance (by simp [*]) fun _ _ => .ite (fun htype => ?_) fun htype => ?_
    · refine .check fun _ => .ite (fun _ => ?_) fun _ => .pure .name
      rw [htype]
      exact .call_imp (ih.functionSignature _) (fun _ h => h htype) rfl rfl
    · rw [Bool.not_eq_true] at htype
      rw [htype]
      exact .bind (ih.functionBody first none false) rfl fun f hf => .pure (.function hf)
  · exact .call ih.table rfl rfl
  · exact .call ih.suffixed rfl rfl

theorem ensures_primary : Ensures (n + 1) 1 1 (ExprFits ctx.inType) (primary ctx (n + 1)) := by
  refine .fuel ?_
  refine .current fun first _ => ?_
  split
  · exact .advance (by simp [*]) fun _ _ => .pure .name
  · refine .advance (by simp [*]) fun _ _ => .bind (ih.expression _) rfl fun e he => .expect rfl fun _ => .pure ?_
    exact ExprFits.paren he
  · exact .failure

theorem ensures_suffixes (e : Expr) : Ensures (n + 1) 0 3
    (fun e' => ExprFits ctx.inType e → ExprFits ctx.inType e') (suffixes ctx (n + 1) e) := by
  refine .fuel ?_
  refine .current fun first _ => ?_
  have hcall : EnsuresFrom n (· = first) 0 2 (fun e' => ExprFits ctx.inType e → ExprFits ctx.inType e')
      (callArguments ctx n >>= fun args => suffixes ctx n (.call (some first.position) e args)) :=
    .bind ih.callArguments rfl fun args hargs =>
      .call_imp (ih.suffixes _) (fun _ h he => h (ExprFits.call he hargs)) rfl rfl
  split
  · refine .advance (by simp [*]) fun _ _ => .current fun keyToken _ => .expectName fun key => ?_
    exact .call_imp (ih.suffixes _) (fun _ h he => h (ExprFits.index he .string)) rfl rfl
  · refine .advance (by simp [*]) fun _ _ => .bind (ih.expression _) rfl fun key hkey => .expect rfl fun _ => ?_
    exact .call_imp (ih.suffixes _) (fun _ h he => h (ExprFits.index he hkey)) rfl rfl
  · refine .advance (by simp [*]) fun _ _ => .expectName fun member => ?_
    refine .bind ih.callArguments rfl fun args hargs => ?_
    exact .call_imp (ih.suffixes _) (fun _ h he => h (ExprFits.method he hargs)) rfl rfl
  · exact hcall
  · exact hcall
  · exact hcall
  · exact .pure id

theorem ensures_callArguments : Ensures (n + 1) 1 2 (∀ e ∈ ·, ExprFits ctx.inType e) (callArguments ctx (n + 1)) := by
  refine .fuel ?_
  refine .current fun first _ => ?_
  split
  · exact .advance (by simp [*]) fun _ _ => .pure (by simpa using ExprFits.string)
  · exact .bind ih.table rfl fun e he => .pure (by simpa using he)
  · refine .expect rfl fun _ => .accept rfl (.pure (by simp)) ?_
    exact .bind ih.expressionList rfl fun args hargs => .expect rfl fun _ => .pure hargs

theorem ensures_tableFields :
    Ensures (n + 1) 0 7 (∀ f ∈ ·, f.All (ExprFits ctx.inType)) (tableFields ctx (n + 1)) := by
  refine .fuel ?_
  refine .check fun _ => .ite (fun _ => .pure (by simp)) fun _ => ?_
  refine .bind ih.tableField rfl fun field hfield => ?_
  have hmore : Ensures n 0 16 (∀ f ∈ ·, f.All (ExprFits ctx.inType))
      (tableFields ctx n >>= fun fields => pure (field :: fields)) :=
    .bind ih.tableFields rfl fun fields hfields => .pure (List.forall_mem_cons.2 ⟨hfield, hfields⟩)
  refine .accept rfl (.call hmore rfl rfl) (.accept rfl (.call hmore rfl rfl) (.pure ?_))
  simpa using hfield

theorem ensures_tableField : Ensures (n + 1) 1 6 (·.All (ExprFits ctx.inType)) (tableField ctx (n + 1)) := by
  refine .fuel ?_
  simp only [tableField]
  refine .get fun tokens _ => ?_
  split
  · refine .advance (by simp [*]) fun _ _ => .bind (ih.expression _) rfl fun key hkey => .expect rfl fun _ => ?_
    refine .expect rfl fun _ => .bind (ih.expression _) rfl fun value hval => .pure ?_
    exact ⟨by simpa using hkey, hval⟩
  · refine .advance (by simp [*]) fun _ _ => .bind .advance_any rfl fun _ _ =>
      .bind (ih.expression _) rfl fun value hval => ?_
    exact .pure ⟨by simpa using ExprFits.string, hval⟩
  · exact .bind (ih.expression _) rfl fun value hval => .pure ⟨by simp, hval⟩

/-! ### Statements -/

theorem ensures_statements : Ensures (n + 1) 0 4 (∀ s ∈ ·, StmtFits ctx.inType s) (statements ctx (n + 1)) := by
  refine .fuel ?_
  refine .current fun first _ => .ite (fun _ => .pure (by simp)) fun _ => .accept rfl (.call ih.statements rfl rfl) ?_
  refine .ite nofun fun _ => .ite (fun hreturn => ?_) fun _ => ?_
  · exact .bind_of ih.returnStatement (fun t ht => by simp [ht, beq_iff_eq.1 hreturn]) rfl fun s hs =>
      .pure (by simpa using hs)
  · refine .bind ih.statement rfl fun s hs => ?_
    refine .bind ih.statements rfl fun rest hrest => .pure ?_
    exact List.forall_mem_cons.2 ⟨hs, hrest⟩

omit ih in
theorem written_cons {name : String} {names : List String} {types moreTypes : List Annotation}
    (htypes : ∀ a ∈ types, a.Written [name]) (hmore : ∀ a ∈ moreTypes, a.Written names) :
    ∀ a ∈ types ++ moreTypes, a.Written (name :: names) := by
  refine List.forall_mem_append.2 ⟨fun a ha => ⟨?_, (htypes a ha).2⟩, fun a ha => ⟨?_, (hmore a ha).2⟩⟩
  · exact List.mem_cons.2 (.inl (List.mem_singleton.1 (htypes a ha).1))
  · exact List.mem_cons_of_mem _ (hmore a ha).1

theorem ensures_annotation {α : Type} {P : α → Prop} {name : String} {f : List Annotation → Parse α}
    (hf : ∀ types : List Annotation, (∀ a ∈ types, a.Written [name]) → Ensures n 0 16 P (f types)) :
    Ensures n 0 16 P (do
      if ← accept (.symbol .doubleColon) then f [.mk name (← typeExpression ctx n)] else f []) := by
  refine .accept rfl (.bind ih.typeExpression rfl fun type htype => .call (hf _ ?_) rfl rfl) (hf _ (by simp))
  exact List.forall_mem_singleton.2 ⟨List.mem_cons_self, htype.2 rfl⟩

theorem ensures_localNames : Ensures (n + 1) 1 1 (fun r => ∀ a ∈ r.2, a.Written r.1) (localNames ctx (n + 1)) := by
  refine .fuel ?_
  refine .expectName fun name => ensures_annotation ih (f := namesAfter ctx n name) fun types htypes => ?_
  exact .accept rfl (.bind ih.localNames rfl fun r hr => .pure (written_cons htypes hr)) (.pure htypes)

theorem ensures_parameters : Ensures (n + 1) 1 1 (fun r => ∀ a ∈ r.2.1, a.Written r.1) (parameters ctx (n + 1)) := by
  refine .fuel ?_
  refine .accept rfl (.pure (by simp)) (.expectName fun name => ?_)
  refine ensures_annotation ih (f := parametersAfter ctx n name) fun types htypes => ?_
  exact .accept rfl (.bind ih.parameters rfl fun r hr => .pure (written_cons htypes hr)) (.pure htypes)

theorem ensures_returnStatement :
    EnsuresFrom (n + 1) (·.kind ≠ .eof) 1 1 (StmtFits ctx.inType) (returnStatement ctx (n + 1)) := by
  refine .fuel ?_
  simp only [returnStatement, pure_bind]
  have hlast (first : Token) {depth : Nat} {H : Token → Prop} (values : List Expr)
      (hvals : ∀ e ∈ values, ExprFits ctx.inType e) :
      EnsuresFrom n H 0 depth (StmtFits ctx.inType) (returnLast first values) :=
    .current fun _ _ => .ite (fun _ => .pure (.returnValues hvals)) fun _ => .failure
  refine .advance (fun _ => id) fun first _ => .current fun _ _ => ?_
  refine .ite (fun _ => .accept rfl (hlast first [] (by simp)) (hlast first [] (by simp))) fun _ => ?_
  refine .bind ih.expressionList rfl fun values hvals => ?_
  exact .accept rfl (hlast first values hvals) (hlast first values hvals)

theorem ensures_functionBody (first : Token) (label : Option String) (isMethod : Bool) :
    Ensures (n + 1) 1 1 Function.Written (functionBody ctx (n + 1) first label isMethod) := by
  refine .fuel ?_
  simp only [functionBody_succ]
  have hend (r : List String × List Annotation × Bool)
      (hr : ∀ a ∈ r.2.1, a.Written r.1) (type : Option Expr) (htype : ∀ e ∈ type, IsType e) :
      Ensures n 0 16 Function.Written (functionEnd ctx n first label isMethod r type) := by
    refine .bind ih.block rfl fun body hbody => .expect rfl fun _ => .pure ?_
    refine ⟨written_block hbody, fun a ha => ⟨?_, (hr a ha).2⟩, htype⟩
    split
    · exact List.mem_cons_of_mem _ (hr a ha).1
    · exact (hr a ha).1
  have hres (r : List String × List Annotation × Bool) (hr : ∀ a ∈ r.2.1, a.Written r.1) :
      Ensures n 0 16 Function.Written (functionResult ctx n first label isMethod r) :=
    .expect rfl fun _ => .accept rfl (.bind ih.typeExpression rfl fun type htype =>
        .call (hend r hr (some type) (by simpa using htype.2 rfl)) rfl rfl)
      (.call (hend r hr none (by simp)) rfl rfl)
  refine .expect rfl fun _ => .check fun _ => ?_
  refine .ite (fun _ => .call (hres ([], [], false) (by simp)) rfl rfl) fun _ => ?_
  exact .bind ih.parameters rfl fun r hr => .call (hres r hr) rfl rfl

theorem ensures_functionSignature (first : Token) : Ensures (n + 1) 1 1
    (fun e => ctx.inType = true → ExprFits true e) (functionSignature ctx (n + 1) first) := by
  refine .fuel ?_
  have hrest (params : List Expr) (hparams : ∀ e ∈ params, ExprFits ctx.inType e) :
      Ensures n 0 16 (fun e => ctx.inType = true → ExprFits true e) (signatureEnd ctx n first params) :=
    .expect rfl fun _ => .bind ih.block rfl fun body hbody => .expect rfl fun _ =>
      .pure fun htype => .signature (htype ▸ hparams) (htype ▸ hbody)
  refine .expect rfl fun _ => .check fun _ => ?_
  refine .ite (fun _ => .call (hrest [] (by simp)) rfl rfl) fun _ => ?_
  exact .bind ih.expressionList rfl fun params hparams => .call (hrest params hparams) rfl rfl

theorem ensures_statement : Ensures (n + 1) 1 3 (StmtFits ctx.inType) (statement ctx (n + 1)) := by
  refine .fuel ?_
  simp only [statement, pure_bind, map_eq_pure_bind, bind_assoc]
  refine .current fun first _ => ?_
  split
  · refine .advance (by simp [*]) fun _ _ => .accept rfl ?_ ?_
    · refine .expectName fun name => .bind (ih.functionBody _ _ _) rfl fun f hf => .pure ?_
      exact .of_written hf rfl
    · refine .bind ih.localNames rfl fun r hr => ?_
      exact .accept rfl (.bind ih.expressionList rfl fun values hvals =>
        .pure (.of_written ⟨written_exprs hvals, hr⟩ rfl)) (.pure (.of_written ⟨trivial, hr⟩ rfl))
  · refine .advance (by simp [*]) fun _ _ => .current fun nameToken _ => .expectName fun name => ?_
    refine .bind (ensures_functionPath n _ _) rfl fun r hr => ?_
    obtain ⟨hwritten, hassignable⟩ := hr trivial rfl
    exact .bind (ih.functionBody _ _ _) rfl fun f hf =>
      .pure (.of_written ⟨⟨hwritten, trivial⟩, List.forall_mem_singleton.2 hassignable, hf, trivial⟩ rfl)
  · refine .advance (by simp [*]) fun _ _ => .bind (ih.expression _) rfl fun condition hcond => ?_
    refine .expect rfl fun _ => .bind ih.block rfl fun body hbody => ?_
    refine .bind ih.elseifClauses rfl fun clauses hclauses => ?_
    refine .accept rfl (.bind ih.block rfl fun otherwise hotherwise => ?_) ?_
    · exact .expect rfl fun _ =>
        .pure (.of_written ⟨hcond.1, written_block hbody, hclauses, written_block hotherwise⟩ rfl)
    · exact .expect rfl fun _ => .pure (.of_written ⟨hcond.1, written_block hbody, hclauses, trivial⟩ rfl)
  · refine .advance (by simp [*]) fun _ _ => .bind (ih.expression _) rfl fun condition hcond => ?_
    refine .expect rfl fun _ => .bind ih.block rfl fun body hbody => .expect rfl fun _ => .pure ?_
    exact .of_written ⟨hcond.1, written_block hbody⟩ rfl
  · refine .advance (by simp [*]) fun _ _ => .bind ih.block rfl fun body hbody => .expect rfl fun _ => .pure ?_
    exact .of_written (written_block hbody) rfl
  · refine .advance (by simp [*]) fun _ _ => .expectName fun name => .accept rfl ?_ ?_
    · refine .bind (ih.expression _) rfl fun start hstart => .expect rfl fun _ => ?_
      refine .bind (ih.expression _) rfl fun stop hstop => ?_
      have hloop (step : Option Expr) (hstep : optionWritten step) : Ensures n 0 16 (StmtFits ctx.inType) (do
            let _ ← expect (.keyword .do_) .numericDo
            let body ← block ctx n
            let _ ← expect (.keyword .end_) (.endOf "'for'")
            pure (Stmt.numericFor (some first.position) name start stop step body)) :=
        .expect rfl fun _ => .bind ih.block rfl fun body hbody => .expect rfl fun _ =>
          .pure (.of_written ⟨hstart.1, hstop.1, hstep, written_block hbody⟩ rfl)
      exact .accept rfl (.bind (ih.expression _) rfl fun step hstep =>
        .call (hloop step hstep.1) rfl rfl) (.call (hloop none trivial) rfl rfl)
    · refine .bind (ensures_moreLoopNames n) rfl fun names _ => .expect rfl fun _ => ?_
      refine .bind ih.expressionList rfl fun iterators hiters => .expect rfl fun _ => ?_
      refine .bind ih.block rfl fun body hbody => .expect rfl fun _ => .pure ?_
      exact .of_written ⟨written_exprs hiters, written_block hbody⟩ rfl
  · refine .advance (by simp [*]) fun _ _ => .bind ih.block rfl fun body hbody => .expect rfl fun _ => ?_
    exact .bind (ih.expression _) rfl fun condition hcond =>
      .pure (.of_written ⟨written_block hbody, hcond.1⟩ rfl)
  · exact .advance (by simp [*]) fun _ _ => .pure (.of_written trivial rfl)
  · refine .advance (by simp [*]) fun _ _ => .bind ih.suffixed rfl fun declared _ => .expect rfl fun _ => ?_
    refine .bind ih.typeExpression rfl fun type htype => ?_
    split
    · next s hs => exact .pure (.declaration (htype.2 rfl) hs)
    · exact .malformed
  · refine .bind ih.suffixed rfl fun e he => .current fun next _ => .ite (fun _ => ?_) fun _ => ?_
    · refine .bind (ensures_ensureAssignable he.1) rfl fun target htarget => ?_
      refine .bind ih.moreTargets rfl fun targets htargets => .expect rfl fun _ => ?_
      refine .bind ih.expressionList rfl fun values hvals => .pure ?_
      exact .of_written ⟨⟨htarget.1, htargets.1⟩, List.forall_mem_cons.2 ⟨htarget.2, htargets.2⟩,
        written_exprs hvals⟩ rfl
    · split
      · exact .pure (.of_written he.1 rfl)
      · exact .pure (.of_written he.1 rfl)
      · exact .failure

end Routines

theorem delivers (n : Nat) : Delivers n := by
  induction n with
  | zero => constructor <;> intros <;> exact .spent
  | succ n ih =>
    exact {
      block := by
        refine .fuel ?_
        exact .current fun _ _ => .bind ih.statements rfl fun stmts hstmts => .pure hstmts
      statements := ensures_statements ih
      statement := ensures_statement ih
      moreTargets := by
        refine .fuel ?_
        refine .accept rfl (.bind ih.suffixed rfl fun e he => ?_) (.pure ⟨trivial, by simp⟩)
        refine .bind (ensures_ensureAssignable he.1) rfl fun target ht => ?_
        exact .bind ih.moreTargets rfl fun targets hts => .pure ⟨⟨ht.1, hts.1⟩, List.forall_mem_cons.2 ⟨ht.2, hts.2⟩⟩
      localNames := ensures_localNames ih
      elseifClauses := by
        refine .fuel ?_
        refine .accept rfl (.bind (ih.expression _) rfl fun condition hcond => ?_) (.pure trivial)
        refine .expect rfl fun _ => .bind ih.block rfl fun body hbody => ?_
        refine .bind ih.elseifClauses rfl fun clauses hclauses => .pure ?_
        exact ⟨hcond.1, written_block hbody, hclauses⟩
      returnStatement := ensures_returnStatement ih
      parameters := ensures_parameters ih
      functionBody := ensures_functionBody ih
      functionSignature := ensures_functionSignature ih
      typeExpression := by
        refine .fuel ?_
        exact .call (ih.expression 0) rfl rfl
      expressionList := by
        refine .fuel ?_
        refine .bind (ih.expression _) rfl fun e he => .accept rfl ?_ (.pure (by simpa using he))
        exact .bind ih.expressionList rfl fun es hes => .pure (List.forall_mem_cons.2 ⟨he, hes⟩)
      expression level := by
        refine .fuel ?_
        exact .bind ih.unary rfl fun left hleft => .call_imp (ih.climb level left) (fun _ h => h hleft) rfl rfl
      climb := ensures_climb ih
      unary := ensures_unary ih
      simple := ensures_simple ih
      primary := ensures_primary ih
      suffixed := by
        refine .fuel ?_
        exact .bind ih.primary rfl fun e he => .call_imp (ih.suffixes e) (fun _ h => h he) rfl rfl
      suffixes := ensures_suffixes ih
      callArguments := ensures_callArguments ih
      table := by
        refine .fuel ?_
        refine .expect rfl fun first => .bind ih.tableFields rfl fun fields hfields => ?_
        exact .expect rfl fun _ => .pure (.table hfields)
      tableFields := ensures_tableFields ih
      tableField := ensures_tableField ih }

/-- Every chunk that is parsed is written, the bound on the depth of calls is never too small, and a failure
names a token. -/
theorem parse_cases (registry : String) (tokens : List Token) : match parse registry tokens with
    | .ok c => c.body.Written
    | .error e => e ≠ .outOfFuel ∧ e.IsAt (withoutDirectives tokens) := by
  have hchunk : Ensures (depthBound (withoutDirectives tokens).length) 0 5 Block.Written
      (chunkBody ⟨registry, false, true⟩ (depthBound (withoutDirectives tokens).length)) := by
    refine .bind (delivers _).block rfl fun body hbody => ?_
    exact .current fun _ _ => .ite (fun _ => .pure (written_block hbody)) fun _ => .failure
  have hrun := hchunk (withoutDirectives tokens) trivial
  rw [parse]
  split at hrun
  · next hbody =>
    rw [hbody]
    exact hrun.1
  · next hbody =>
    rw [hbody]
    exact hrun.imp_left fun h => h (by simp [depthBound]; omega)

theorem parse_written (h : parse registry tokens = .ok c) : c.body.Written := by
  have hcases := parse_cases registry tokens
  rwa [h] at hcases

theorem parse_tidy (h : parse registry tokens = .ok c) : Tidy c.body.types c.body.temporaries :=
  (parse_written h).tidy

theorem typeExpression_isType {ctx : Context} {n : Nat} {ts rest : List Token} {type : Expr}
    (h : typeExpression ctx n ts = .ok (type, rest)) : IsType type := by
  have htype := @(delivers n).typeExpression ctx ts trivial
  rw [h] at htype
  exact htype.1.2 rfl

end TypedLua.Parser
