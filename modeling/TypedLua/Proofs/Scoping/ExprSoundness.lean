import TypedLua.Proofs.Scoping.Places
import TypedLua.Proofs.Syntax.Induction

/-!
# The code of expressions

Each form of expression is generated as the scoping of modules demands, provided that its parts are.
-/

namespace TypedLua.Target

open Generate

/-! ## Variables bound by generated code -/

@[simp, grind =] theorem stmtsBound_append (code code' : List Stmt) :
    stmtsBound (code ++ code') = stmtsBound code ++ stmtsBound code' := by
  induction code with
  | nil => rfl
  | cons s code ih => simp [stmtsBound, ih]

@[simp, grind =] theorem cut_bound (call : Call) : (cut call).bound = call.bound := by
  cases call <;> rfl

@[simp, grind =] theorem toCond_bound (e : TypedLua.Expr) (value : Expr) : (toCond e value).bound = value.bound := by
  unfold toCond
  repeat' split
  all_goals rfl

@[simp, grind =] theorem toTail_bound (call : Call) : tailBound (toTail call) = call.bound := by
  cases call <;> rfl

@[simp, grind =] theorem lastItem_bound (e : TypedLua.Expr) (call : Call) :
    listBound (lastItem e call).1 (lastItem e call).2 = call.bound := by
  unfold lastItem
  split
  · simp [listBound, exprsBound]
  · simp [listBound, exprsBound, tailBound]

@[simp, grind =] theorem consItem_bound (call : Call) (list : List Expr × Option Tail) :
    listBound (consItem call list).1 (consItem call list).2 = call.bound ++ listBound list.1 list.2 := by
  simp [consItem, listBound, exprsBound]

@[simp, grind =] theorem itemsBound_positional (values : List Expr) :
    itemsBound (values.map .positional) = exprsBound values := by
  induction values with
  | nil => rfl
  | cons value values ih => simp [itemsBound, exprsBound, ih]

namespace Scoping

@[simp, grind =] theorem filled_bound (code : List Stmt) : stmtsBound (filled code) = stmtsBound code := by
  cases code with
  | nil => rfl
  | cons s code => rfl

attribute [local grind =] Expr.bound Call.bound partsBound itemsBound listBound stmtsBound

/-! ## Goals -/

variable [LoopForms]

def ExprEmits (e : TypedLua.Expr) : Prop :=
  ∀ ⦃ctx : Context⦄ ⦃st st' : State⦄ ⦃call : Call⦄, Ready ctx st → raw ctx e st = .ok (call, st') →
    ∃ code given, Emits ctx st st' code (stmtsBound code ++ call.bound) given fun p => ExprCode p e code call given

def FunctionEmits (f : TypedLua.Function) : Prop :=
  ∀ ⦃ctx : Context⦄ ⦃st st' : State⦄ ⦃name : String⦄ ⦃u : Unit⦄, Ready ctx st →
    function ctx name f st = .ok (u, st') →
    ∃ d given, d.name = name ∧ Emits ctx st st' [.define d] [] given fun p => FunctionCode p f d given

def StmtEmits (s : TypedLua.Stmt) : Prop :=
  ∀ ⦃ctx ctx' : Context⦄ ⦃st st' : State⦄, Ready ctx st → stmt ctx s st = .ok (ctx', st') →
    ∃ code given, EmitsTo ctx ctx' st st' code (stmtsBound code) given fun p p' => StmtCode p s code p' given

/-! ## Expressions without parts -/

section Forms

variable {loc : Loc} {ctx : Context} {st st' : State}

theorem ExprEmits.const {e : TypedLua.Expr} (hraw : ∀ ctx, raw ctx e = pure call)
    (hbound : call.bound = []) (hcode : ∀ p, ExprCode p e [] call []) : ExprEmits e := by
  intro ctx st st' call' hr h
  rw [hraw] at h
  obtain ⟨rfl, rfl⟩ := pure_ok h
  exact ⟨[], [], (Emits.refl ctx st).conv (by simp [stmtsBound, hbound]) fun p _ _ => hcode p⟩

theorem exprEmits_number (n : Number) : ExprEmits (.number loc n) := by
  intro ctx st st' call hr h
  rw [raw] at h
  split at h
  · obtain ⟨rfl, rfl⟩ := pure_ok h
    refine ⟨[], [], (Emits.refl ctx st).conv ?_ fun p _ _ => .number⟩
    unfold numberLiteral
    repeat' split
    all_goals simp [stmtsBound, Call.bound, Expr.bound]
  · cases h

theorem exprEmits_name (x : String) : ExprEmits (.name loc x) := by
  intro ctx st st' call hr h
  rw [raw] at h
  cases hx : ctx.lookup x with
  | none =>
    rw [hx] at h
    obtain ⟨rfl, rfl⟩ := pure_ok h
    exact ⟨[], [], (Emits.refl ctx st).conv (by simp [stmtsBound, Call.bound, Expr.bound])
      fun p hp _ => .global (hp.find_none hx)⟩
  | some b =>
    rw [hx] at h
    obtain ⟨rfl, rfl⟩ := pure_ok h
    refine ⟨[], [], (Emits.refl ctx st).conv (by simp [stmtsBound, Call.bound, Expr.bound]) fun p hp _ => ?_⟩
    exact .variable (hp.find_some hx) (hp.reaches (hp.find_some hx))

theorem exprEmits_signature (params : List TypedLua.Expr) (body : TypedLua.Block) :
    ExprEmits (.signature loc params body) := by
  intro ctx st st' call hr h
  cases h

/-! ## Expressions with parts -/

theorem exprEmits_function {f : TypedLua.Function} (hf : FunctionEmits f) : ExprEmits (.function f) := by
  intro ctx st st' call hr h
  obtain ⟨name, st1, hname, h1⟩ := bind_ok h
  obtain ⟨_, st2, hfn, h2⟩ := bind_ok h1
  obtain ⟨rfl, rfl⟩ := pure_ok h2
  have hn : Emits ctx st st1 [] [name] [name] _ := .unique hname
  obtain ⟨d, given, rfl, hd⟩ := hf (hn.ready hr) hfn
  refine ⟨[.define d], d.name :: given, (hn.and hd).conv ?_ ?_⟩
  · simp [stmtsBound, Stmt.bound, Call.bound, Expr.bound]
  · rintro p - ⟨hholds, hdef⟩
    exact .function hholds hdef

theorem exprEmits_binary {left right : TypedLua.Expr} (hleft : ExprEmits left)
    (hright : ExprEmits right) : ExprEmits (.binary loc left op right) := by
  intro ctx st st' call hr h
  obtain ⟨call1, st1, hl, h1⟩ := bind_ok h
  obtain ⟨code1, given1, e1⟩ := hleft hr hl
  have hr1 := e1.ready hr
  by_cases hop : op ≠ .and ∧ op ≠ .or
  · -- both operands are evaluated
    have h2 : (raw ctx right >>= fun call2 =>
        (pure (.single (.binary op (cut call1) (cut call2))) : Gen Call)) st1 = .ok (call, st') := by
      cases op <;> first | exact h1 | exact absurd rfl hop.1 | exact absurd rfl hop.2
    obtain ⟨call2, st2, hrt, h3⟩ := bind_ok h2
    obtain ⟨rfl, rfl⟩ := pure_ok h3
    obtain ⟨code2, given2, e2⟩ := hright hr1 hrt
    refine ⟨code1 ++ code2, given1 ++ given2, (e1.and e2).conv ?_ ?_⟩
    · grind
    · rintro p - ⟨hl, hr⟩
      exact .binary hop hl hr
  · have hcases : op = .and ∨ op = .or := by
      rcases Classical.not_and_iff_not_or_not.1 hop with h | h
      · exact Or.inl (not_not.1 h)
      · exact Or.inr (not_not.1 h)
    rcases hcases with rfl | rfl
    all_goals
      obtain ⟨temp, st2, htemp, h2⟩ := bind_ok h1
      obtain ⟨call2, st3, hrt, h3⟩ := bind_ok h2
      obtain ⟨rfl, rfl⟩ := pure_ok h3
      have et : Emits ctx st1 st2 [] [temp] [temp] _ := .unique htemp
      obtain ⟨code2, given2, e2⟩ := hright (et.ready hr1) hrt
      refine ⟨code1 ++ code2, given1 ++ temp :: given2, (e1.and (et.and e2)).conv ?_ ?_⟩
      · grind
      · rintro p - ⟨hl, ht, hr⟩
        first | exact .andThen ht hl hr | exact .orElse ht hl hr

theorem exprEmits_unary {operand : TypedLua.Expr} (hoperand : ExprEmits operand) :
    ExprEmits (.unary loc op operand) := by
  intro ctx st st' call hr h
  obtain ⟨call1, st1, ho, h1⟩ := bind_ok h
  obtain ⟨code, given, e⟩ := hoperand hr ho
  cases op
  all_goals
    obtain ⟨rfl, rfl⟩ := pure_ok h1
    refine ⟨code, given, e.conv (by simp [Call.bound, Expr.bound]) fun p _ h => ?_⟩
    first | exact .negation h | exact .length h | exact .minus h

theorem exprEmits_index {object key : TypedLua.Expr} (hobj : ExprEmits object)
    (hkey : ExprEmits key) : ExprEmits (.index loc object key) := by
  intro ctx st st' call hr h
  obtain ⟨call1, st1, ho, h1⟩ := bind_ok h
  obtain ⟨code1, given1, e1⟩ := hobj hr ho
  obtain ⟨call2, st2, hk, h2⟩ := bind_ok h1
  obtain ⟨code2, given2, e2⟩ := hkey (e1.ready hr) hk
  obtain ⟨rfl, rfl⟩ := pure_ok h2
  refine ⟨code1 ++ code2, given1 ++ given2, (e1.and e2).conv ?_ fun p _ h => .index h.1 h.2⟩
  grind

theorem exprEmits_paren {inner : TypedLua.Expr} (hinner : ExprEmits inner) : ExprEmits (.paren loc inner) := by
  intro ctx st st' call hr h
  obtain ⟨call1, st1, hi, h1⟩ := bind_ok h
  obtain ⟨code, given, e⟩ := hinner hr hi
  obtain ⟨rfl, rfl⟩ := pure_ok h1
  exact ⟨code, given, e.conv (by simp [Call.bound]) fun p _ h => .paren h⟩

/-! ## Lists -/

theorem exprList_emits {es : List TypedLua.Expr} (hes : ∀ e ∈ es, ExprEmits e)
    (hr : Ready ctx st) (h : exprList ctx es st = .ok (list, st')) :
    ∃ code given, Emits ctx st st' code (stmtsBound code ++ listBound list.1 list.2) given
      fun p => ListCode p es code list given := by
  induction es generalizing st list with
  | nil =>
    obtain ⟨rfl, rfl⟩ := pure_ok h
    exact ⟨[], [], (Emits.refl ctx st).conv (by simp [stmtsBound, listBound, exprsBound, tailBound])
      fun p _ _ => .nil⟩
  | cons e es ih =>
    cases es with
    | nil =>
      obtain ⟨call, st1, he, h1⟩ := bind_ok h
      obtain ⟨rfl, rfl⟩ := pure_ok h1
      obtain ⟨code, given, e1⟩ := hes e List.mem_cons_self hr he
      exact ⟨code, given, e1.conv (by simp) fun p _ h => .last h⟩
    | cons e' es =>
      rw [exprList] at h
      · obtain ⟨call, st1, he, h1⟩ := bind_ok h
        obtain ⟨code1, given1, e1⟩ := hes e List.mem_cons_self hr he
        obtain ⟨list2, st2, hes', h2⟩ := bind_ok h1
        obtain ⟨rfl, rfl⟩ := pure_ok h2
        obtain ⟨code2, given2, e2⟩ := ih (fun e he => hes e (List.mem_cons_of_mem _ he)) (e1.ready hr) hes'
        refine ⟨code1 ++ code2, given1 ++ given2, (e1.and e2).conv ?_ fun p _ h => .cons h.1 h.2⟩
        grind
      · simp

omit [LoopForms] in
theorem exprList_tail {es : List TypedLua.Expr} (hlast : es.getLast?.any (·.isMultiValued) = false)
    (h : exprList ctx es st = .ok (list, st')) : list.2 = none := by
  induction es generalizing st st' list with
  | nil =>
    obtain ⟨rfl, rfl⟩ := pure_ok h
    rfl
  | cons e es ih =>
    cases es with
    | nil =>
      obtain ⟨call, st1, he, h1⟩ := bind_ok h
      obtain ⟨rfl, rfl⟩ := pure_ok h1
      have hsingle : e.isMultiValued = false := by simpa using hlast
      simp [lastItem, hsingle]
    | cons e' es =>
      rw [exprList] at h
      · obtain ⟨call, st1, he, h1⟩ := bind_ok h
        obtain ⟨list2, st2, hes', h2⟩ := bind_ok h1
        have hnone : list2.2 = none := ih (by simpa [List.getLast?_cons_cons] using hlast) hes'
        obtain ⟨rfl, rfl⟩ := pure_ok h2
        exact hnone
      · simp

theorem exprEmits_call {callee : TypedLua.Expr} {args : List TypedLua.Expr} (hcallee : ExprEmits callee)
    (hargs : ∀ e ∈ args, ExprEmits e) : ExprEmits (.call loc callee args) := by
  intro ctx st st' call hr h
  obtain ⟨call1, st1, hc, h1⟩ := bind_ok h
  obtain ⟨code1, given1, e1⟩ := hcallee hr hc
  obtain ⟨list, st2, ha, h2⟩ := bind_ok h1
  obtain ⟨code2, given2, e2⟩ := exprList_emits hargs (e1.ready hr) ha
  obtain ⟨rfl, rfl⟩ := pure_ok h2
  refine ⟨code1 ++ code2, given1 ++ given2, (e1.and e2).conv ?_ fun p _ h => .call h.1 h.2⟩
  grind

theorem exprEmits_method {object : TypedLua.Expr} {args : List TypedLua.Expr}
    (hobj : ExprEmits object) (hargs : ∀ e ∈ args, ExprEmits e) : ExprEmits (.method loc object member args) := by
  intro ctx st st' call hr h
  obtain ⟨call1, st1, hc, h1⟩ := bind_ok h
  obtain ⟨code1, given1, e1⟩ := hobj hr hc
  obtain ⟨list, st2, ha, h2⟩ := bind_ok h1
  obtain ⟨code2, given2, e2⟩ := exprList_emits hargs (e1.ready hr) ha
  obtain ⟨rfl, rfl⟩ := pure_ok h2
  refine ⟨code1 ++ code2, given1 ++ given2, (e1.and e2).conv ?_ fun p _ h => .method h.1 h.2⟩
  grind

/-! ## Tables and blocks -/

theorem tableItems_emits (hfields : ∀ f ∈ fields, f.All ExprEmits)
    (hr : Ready ctx st) (h : tableItems ctx fields st = .ok (list, st')) :
    ∃ code given, Emits ctx st st' code (stmtsBound code ++ (itemsBound list.1 ++ tailBound list.2)) given
        fun p => ItemsCode p fields code list given := by
  induction fields generalizing st st' list with
  | nil =>
    obtain ⟨rfl, rfl⟩ := pure_ok h
    exact ⟨[], [], (Emits.refl ctx st).conv (by simp [stmtsBound, itemsBound, tailBound]) fun p _ _ => .nil⟩
  | cons field fields ih =>
    obtain ⟨loc, key, value⟩ := field
    obtain ⟨hkey, hval⟩ := hfields _ List.mem_cons_self
    have hrest := fun f hf => hfields f (List.mem_cons_of_mem _ hf)
    cases key with
    | some key =>
      obtain ⟨call1, st1, hk, h1⟩ := bind_ok h
      obtain ⟨code1, given1, e1⟩ := hkey key rfl hr hk
      obtain ⟨call2, st2, hv, h2⟩ := bind_ok h1
      obtain ⟨code2, given2, e2⟩ := hval (e1.ready hr) hv
      obtain ⟨list3, st3, hf, h3⟩ := bind_ok h2
      obtain ⟨code3, given3, e3⟩ := ih hrest (e2.ready (e1.ready hr)) hf
      obtain ⟨rfl, rfl⟩ := pure_ok h3
      refine ⟨_, _, (e1.and (e2.and e3)).conv ?_ fun p _ h => .keyed h.1 h.2.1 h.2.2⟩
      grind
    | none =>
      cases fields with
      | nil =>
        obtain ⟨call, st1, hv, h1⟩ := bind_ok h
        obtain ⟨code, given, e⟩ := hval hr hv
        have h2 : (pure ((lastItem value call).1.map .positional, (lastItem value call).2) :
            Gen (List Item × Option Tail)) st1 = .ok (list, st') := h1
        obtain ⟨rfl, rfl⟩ := pure_ok h2
        refine ⟨code, given, e.conv ?_ fun p _ h => .last h⟩
        intro x
        rw [← lastItem_bound value call]
        simp [listBound]
      | cons field fields =>
        rw [tableItems] at h
        · obtain ⟨call, st1, hv, h1⟩ := bind_ok h
          obtain ⟨code1, given1, e1⟩ := hval hr hv
          obtain ⟨list2, st2, hf, h2⟩ := bind_ok h1
          obtain ⟨code2, given2, e2⟩ := ih hrest (e1.ready hr) hf
          obtain ⟨rfl, rfl⟩ := pure_ok h2
          refine ⟨_, _, (e1.and e2).conv ?_ fun p _ h => .positional h.1 h.2⟩
          grind
        · simp

theorem exprEmits_table (hfields : ∀ f ∈ fields, f.All ExprEmits) : ExprEmits (.table loc fields) := by
  intro ctx st st' call hr h
  obtain ⟨list, st1, hitems, h1⟩ := bind_ok h
  obtain ⟨rfl, rfl⟩ := pure_ok h1
  obtain ⟨code, given, e⟩ := tableItems_emits hfields hr hitems
  exact ⟨code, given, e.conv (by simp [Call.bound, Expr.bound]) fun p _ h => .table h⟩

theorem blockParts_emits {ss : List TypedLua.Stmt} (hss : ∀ s ∈ ss, s.AllValues ExprEmits)
    (hr : Ready ctx st) (h : blockParts ctx ss st = .ok ((parts, ctx'), st')) :
    ∃ code given, EmitsTo ctx ctx' st st' code (stmtsBound code ++ partsBound parts) given
      fun p p' => PartsCode p ss code parts p' given := by
  induction ss generalizing ctx ctx' st st' parts with
  | nil =>
    obtain ⟨⟨rfl, rfl⟩, rfl⟩ := (pure_ok h).imp_left Prod.mk.inj
    refine ⟨[], [], (Emits.refl ctx st).stay.conv (by simp [stmtsBound, partsBound]) ?_⟩
    rintro p p' - ⟨rfl, -⟩
    exact .nil
  | cons s ss ih =>
    have hs := hss s List.mem_cons_self
    have hrest := fun s hs => hss s (List.mem_cons_of_mem _ hs)
    match s, hs, h with
    | .expr loc e, hs, h =>
      obtain ⟨call, st1, he, h1⟩ := bind_ok h
      obtain ⟨code1, given1, e1⟩ := hs hr he
      obtain ⟨⟨parts2, ctx2⟩, st2, hp, h2⟩ := bind_ok h1
      obtain ⟨code2, given2, e2⟩ := ih hrest (e1.ready hr) hp
      obtain ⟨⟨rfl, rfl⟩, rfl⟩ := (pure_ok h2).imp_left Prod.mk.inj
      refine ⟨_, _, (e1.stay.trans e2).conv ?_ ?_⟩
      · grind
      · rintro p p'' - ⟨p', -, ⟨rfl, he⟩, hrest⟩
        exact .run he hrest
    | .localVars loc [name] [] types, hs, h =>
      obtain ⟨⟨fresh, ctx1⟩, st1, hd, h1⟩ := bind_ok h
      have e1 := EmitsTo.declare hd
      obtain ⟨⟨parts2, ctx2⟩, st2, hp, h2⟩ := bind_ok h1
      obtain ⟨code2, given2, e2⟩ := ih hrest (e1.ready hr) hp
      obtain ⟨⟨rfl, rfl⟩, rfl⟩ := (pure_ok h2).imp_left Prod.mk.inj
      refine ⟨_, _, (e1.trans e2).conv ?_ ?_⟩
      · grind
      · rintro p p'' - ⟨p', -, ⟨hholds, rfl⟩, hrest⟩
        exact .bindNull hholds hrest
    | .localVars loc [name] [value] types, hs, h =>
      obtain ⟨call, st0, hv, h0⟩ := bind_ok h
      obtain ⟨code0, given0, e0⟩ := hs value List.mem_cons_self hr hv
      obtain ⟨⟨fresh, ctx1⟩, st1, hd, h1⟩ := bind_ok h0
      have e1 := EmitsTo.declare hd
      obtain ⟨⟨parts2, ctx2⟩, st2, hp, h2⟩ := bind_ok h1
      obtain ⟨code2, given2, e2⟩ := ih hrest (e1.ready (e0.ready hr)) hp
      obtain ⟨⟨rfl, rfl⟩, rfl⟩ := (pure_ok h2).imp_left Prod.mk.inj
      refine ⟨_, _, (e0.stay.trans (e1.trans e2)).conv ?_ ?_⟩
      · grind
      · rintro p p'' - ⟨p', -, ⟨rfl, hv⟩, p'', -, ⟨hholds, rfl⟩, hrest⟩
        exact .bind hv hholds hrest
    -- no other statement stands inside an expression
    | .localVars _ [] _ _, _, h | .localVars _ (_ :: _ :: _) _ _, _, h
    | .localVars _ [_] (_ :: _ :: _) _, _, h | .localFunction .., _, h | .assign .., _, h
    | .scope .., _, h | .whileLoop .., _, h | .repeatLoop .., _, h | .ifElse .., _, h
    | .numericFor .., _, h | .genericFor .., _, h | .returnValues .., _, h | .breakLoop _, _, h => cases h

theorem exprEmits_block {ss : List TypedLua.Stmt} {value : TypedLua.Expr}
    (hss : ∀ s ∈ ss, s.AllValues ExprEmits) (hval : ExprEmits value) : ExprEmits (.block loc ss value) := by
  intro ctx st st' call hr h
  obtain ⟨⟨parts, inside⟩, st1, hparts, h1⟩ := bind_ok h
  have hr' : Ready ctx.nested st := ⟨hr.fine, hr.sound.taken, hr.sound.depth, hr.sound.injective⟩
  obtain ⟨code1, given1, e1⟩ := blockParts_emits hss hr' hparts
  obtain ⟨call2, st2, hv, h2⟩ := bind_ok h1
  obtain ⟨code2, given2, e2⟩ := hval (e1.ready hr') hv
  obtain ⟨rfl, rfl⟩ := pure_ok h2
  refine ⟨_, _, (e1.trans e2.stay).nested.inner.conv ?_ ?_⟩
  · grind
  · rintro p - ⟨p'', p', -, hparts, rfl, hv⟩
    exact .block hparts hv

end Forms

end Scoping

end TypedLua.Target
