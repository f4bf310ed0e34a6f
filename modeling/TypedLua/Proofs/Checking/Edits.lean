import TypedLua.Proofs.Checking.Knowledge
import TypedLua.Proofs.Syntax.AnnotatedTypes

/-!
# What the pass may change

The pass that inserts checks changes a tree in three ways only.
-/

namespace TypedLua.Instrument

/-- A check in place of an expression: a block that yields the expression it checks, or a local that is
bound to it. -/
inductive Wraps (P : Expr → Prop) (v : Expr) : Expr → Prop
  | yielded {p : Expr} (hp : P p) (h : v.isTrivial) : Wraps P v (Check.yieldTrivial p v)
  | bound {temporary : String} {p : Expr} (hp : P p) (h : ¬v.isTrivial) : Wraps P v (Check.yieldBound temporary p v)

inductive Wrapped (P : Expr → Prop) : List Expr → List Expr → Nat → Prop
  | nil : Wrapped P [] [] 0
  | keep {v vs ws n} (h : Wrapped P vs ws n) : Wrapped P (v :: vs) (v :: ws) n
  | check {v w vs ws n} (hv : Wraps P v w) (h : Wrapped P vs ws n) : Wrapped P (v :: vs) (w :: ws) (n + 1)

def Nils (es : List Expr) : Prop := ∀ e ∈ es, ∃ loc, e = .nil loc

section Relations

variable (registry : String) (P : Expr → Prop)

mutual

/-- The edits of an expression: there are none but in the functions and the blocks inside of it. -/
inductive ExprEdit : Expr → Expr → Expr → Nat → Prop
  | nil {loc} : ExprEdit (.nil loc) (.nil loc) (.nil loc) 0
  | bool {loc b} : ExprEdit (.bool loc b) (.bool loc b) (.bool loc b) 0
  | number {loc k} : ExprEdit (.number loc k) (.number loc k) (.number loc k) 0
  | string {loc t} : ExprEdit (.string loc t) (.string loc t) (.string loc t) 0
  | vararg {loc} : ExprEdit (.vararg loc) (.vararg loc) (.vararg loc) 0
  | name {loc x} : ExprEdit (.name loc x) (.name loc x) (.name loc x) 0
  | function {f g f' n} (h : FunctionEdit f g f' n) : ExprEdit (.function f) (.function g) (.function f') n
  | signature {loc params body} : ExprEdit (.signature loc params body) (.signature loc params body)
      (.signature loc params body) 0
  | table {loc fields gs fields' n} (h : FieldsEdit fields gs fields' n) :
      ExprEdit (.table loc fields) (.table loc gs) (.table loc fields') n
  | binary {loc l l0 l' op r r0 r' n m} (hl : ExprEdit l l0 l' n) (hr : ExprEdit r r0 r' m) :
      ExprEdit (.binary loc l op r) (.binary loc l0 op r0) (.binary loc l' op r') (n + m)
  | unary {loc op e e0 e' n} (h : ExprEdit e e0 e' n) :
      ExprEdit (.unary loc op e) (.unary loc op e0) (.unary loc op e') n
  | call {loc e e0 e' es es0 es' n m} (he : ExprEdit e e0 e' n) (hes : ExprsEdit es es0 es' m) :
      ExprEdit (.call loc e es) (.call loc e0 es0) (.call loc e' es') (n + m)
  | method {loc e e0 e' member es es0 es' n m} (he : ExprEdit e e0 e' n) (hes : ExprsEdit es es0 es' m) :
      ExprEdit (.method loc e member es) (.method loc e0 member es0) (.method loc e' member es') (n + m)
  | index {loc e e0 e' key key0 key' n m} (he : ExprEdit e e0 e' n) (hkey : ExprEdit key key0 key' m) :
      ExprEdit (.index loc e key) (.index loc e0 key0) (.index loc e' key') (n + m)
  | paren {loc e e0 e' n} (h : ExprEdit e e0 e' n) : ExprEdit (.paren loc e) (.paren loc e0) (.paren loc e') n
  | block {loc ss ss0 ss' e e0 e' n m} (hss : StmtsEdit ss ss0 ss' n) (he : ExprEdit e e0 e' m) :
      ExprEdit (.block loc ss e) (.block loc ss0 e0) (.block loc ss' e') (n + m)

inductive ExprsEdit : List Expr → List Expr → List Expr → Nat → Prop
  | nil : ExprsEdit [] [] [] 0
  | cons {e e0 e' es es0 es' n m} (he : ExprEdit e e0 e' n) (hes : ExprsEdit es es0 es' m) :
      ExprsEdit (e :: es) (e0 :: es0) (e' :: es') (n + m)

inductive OptionEdit : Option Expr → Option Expr → Option Expr → Nat → Prop
  | none : OptionEdit none none none 0
  | some {e e0 e' n} (h : ExprEdit e e0 e' n) : OptionEdit (some e) (some e0) (some e') n

inductive FieldsEdit : List Field → List Field → List Field → Nat → Prop
  | nil : FieldsEdit [] [] [] 0
  | cons {loc key key0 key' e e0 e' fs gs fs' n m k} (he : ExprEdit e e0 e' n)
      (hkey : OptionEdit key key0 key' m) (hfs : FieldsEdit fs gs fs' k) :
      FieldsEdit (.mk loc key e :: fs) (.mk loc key0 e0 :: gs) (.mk loc key' e' :: fs') (n + m + k)

/-- The edits of a function: a check at its start for each annotated parameter, in order, and those of
its body. -/
inductive FunctionEdit : Function → Function → Function → Nat → Prop
  | mk {loc params isVararg bodyLoc ss ss0 ss' types ps returnType label n}
      (htypes : List.Forall₂ (Target.Scoping.Compiles registry) types ps) (hps : ∀ q ∈ ps, P q.2)
      (hss : StmtsEdit ss ss0 ss' n) :
      FunctionEdit (.mk loc params isVararg (.mk bodyLoc ss) types returnType label)
        (.mk loc params isVararg (.mk bodyLoc ss0) [] none label)
        (.mk loc params isVararg (.mk bodyLoc (Target.Scoping.entryChecks loc ps ++ ss')) [] none label)
        (n + types.length)

inductive BlockEdit : Block → Block → Block → Nat → Prop
  | mk {loc ss ss0 ss' n} (h : StmtsEdit ss ss0 ss' n) : BlockEdit (.mk loc ss) (.mk loc ss0) (.mk loc ss') n

inductive OtherwiseEdit : Option Block → Option Block → Option Block → Nat → Prop
  | none : OtherwiseEdit none none none 0
  | some {b b0 b' n} (h : BlockEdit b b0 b' n) : OtherwiseEdit (some b) (some b0) (some b') n

inductive ClausesEdit : List Clause → List Clause → List Clause → Nat → Prop
  | nil : ClausesEdit [] [] [] 0
  | cons {e e0 e' b b0 b' cs cs0 cs' n m k} (he : ExprEdit e e0 e' n) (hb : BlockEdit b b0 b' m)
      (hcs : ClausesEdit cs cs0 cs' k) :
      ClausesEdit (.mk e b :: cs) (.mk e0 b0 :: cs0) (.mk e' b' :: cs') (n + m + k)

inductive StmtsEdit : List Stmt → List Stmt → List Stmt → Nat → Prop
  | nil : StmtsEdit [] [] [] 0
  | cons {s s0 s' ss ss0 ss' n m} (hs : StmtEdit s s0 s' n) (hss : StmtsEdit ss ss0 ss' m) :
      StmtsEdit (s :: ss) (s0 :: ss0) (s' :: ss') (n + m)

inductive StmtEdit : Stmt → Stmt → Stmt → Nat → Prop
  | localVars {loc names es es0 es' ws types n m} (hes : ExprsEdit es es0 es' n) (hws : Wrapped P es' ws m) :
      StmtEdit (.localVars loc names es types) (.localVars loc names es0 []) (.localVars loc names ws []) (n + m)
  | localFunction {loc x f g f' n} (h : FunctionEdit f g f' n) :
      StmtEdit (.localFunction loc x f) (.localFunction loc x g) (.localFunction loc x f') n
  | assign {loc ts ts0 ts' es es0 es' nils ws n m k} (hts : ExprsEdit ts ts0 ts' n)
      (hes : ExprsEdit es es0 es' m) (hnils : Nils nils) (hws : Wrapped P (es' ++ nils) ws k) :
      StmtEdit (.assign loc ts es) (.assign loc ts0 es0) (.assign loc ts' ws) (n + m + k)
  | expr {loc e e0 e' n} (h : ExprEdit e e0 e' n) : StmtEdit (.expr loc e) (.expr loc e0) (.expr loc e') n
  | scope {loc b b0 b' n} (h : BlockEdit b b0 b' n) : StmtEdit (.scope loc b) (.scope loc b0) (.scope loc b') n
  | whileLoop {loc e e0 e' b b0 b' n m} (he : ExprEdit e e0 e' n) (hb : BlockEdit b b0 b' m) :
      StmtEdit (.whileLoop loc e b) (.whileLoop loc e0 b0) (.whileLoop loc e' b') (n + m)
  | repeatLoop {loc b b0 b' e e0 e' n m} (hb : BlockEdit b b0 b' n) (he : ExprEdit e e0 e' m) :
      StmtEdit (.repeatLoop loc b e) (.repeatLoop loc b0 e0) (.repeatLoop loc b' e') (n + m)
  | ifElse {loc e e0 e' b b0 b' cs cs0 cs' o o0 o' n m k l} (he : ExprEdit e e0 e' n)
      (hb : BlockEdit b b0 b' m) (hcs : ClausesEdit cs cs0 cs' k) (ho : OtherwiseEdit o o0 o' l) :
      StmtEdit (.ifElse loc e b cs o) (.ifElse loc e0 b0 cs0 o0) (.ifElse loc e' b' cs' o') (n + m + k + l)
  | numericFor {loc x e1 a1 e1' e2 a2 e2' step step0 step' b b0 b' n m k l}
      (h1 : ExprEdit e1 a1 e1' n) (h2 : ExprEdit e2 a2 e2' m) (hstep : OptionEdit step step0 step' k)
      (hb : BlockEdit b b0 b' l) :
      StmtEdit (.numericFor loc x e1 e2 step b) (.numericFor loc x a1 a2 step0 b0)
        (.numericFor loc x e1' e2' step' b') (n + m + k + l)
  | genericFor {loc names es es0 es' b b0 b' n m} (hes : ExprsEdit es es0 es' n) (hb : BlockEdit b b0 b' m) :
      StmtEdit (.genericFor loc names es b) (.genericFor loc names es0 b0) (.genericFor loc names es' b') (n + m)
  | returnValues {loc es es0 es' n} (h : ExprsEdit es es0 es' n) :
      StmtEdit (.returnValues loc es) (.returnValues loc es0) (.returnValues loc es') n
  | returnChecked {loc es es0 v w es' n} (h : ExprsEdit es es0 (v :: es') n) (hw : Wraps P v w) :
      StmtEdit (.returnValues loc es) (.returnValues loc es0) (.returnValues loc (w :: es')) (n + 1)
  | returnNil {loc w} (hw : Wraps P (.nil loc) w) :
      StmtEdit (.returnValues loc []) (.returnValues loc []) (.returnValues loc [w]) 1
  | breakLoop {loc} : StmtEdit (.breakLoop loc) (.breakLoop loc) (.breakLoop loc) 0

end

end Relations

/-! ## Checks of values -/

variable {P : Expr → Prop}

variable {p : Expr} {st st' : State} {index : Nat} {done rest out : List Expr}

theorem guard_wraps (hp : P p) (h : guard p v st = .ok (w, st')) :
    Wraps P v w ∧ st'.checks = st.checks + 1 := by
  have hw : Wraps P v (Check.asExpression st.names p v).1 := by
    rw [Check.asExpression]
    split
    · next htrivial => exact .yielded hp htrivial
    · next htrivial => exact .bound hp htrivial
  cases h
  exact ⟨hw, rfl⟩

theorem guardAt_present (hp : P p) (hindex : done.length = index)
    (h : guardAt p loc index (done ++ v :: rest) st = .ok (out, st')) :
    ∃ w, out = done ++ w :: rest ∧ Wraps P v w ∧ st'.checks = st.checks + 1 := by
  subst hindex
  have hlen : done.length + 1 - (done ++ v :: rest).length = 0 := by
    rw [List.length_append, List.length_cons]
    omega
  have hget : (done ++ v :: rest)[done.length]? = some v := by simp
  rw [guardAt, hlen, List.replicate_zero, List.append_nil] at h
  simp only [hget] at h
  obtain ⟨w, st1, hguard, h⟩ := bind_ok h
  cases h
  obtain ⟨hw, hchecks⟩ := guard_wraps hp hguard
  exact ⟨w, by simp, hw, hchecks⟩

theorem guardAt_missing {values : List Expr} (hp : P p) (hindex : values.length ≤ index)
    (h : guardAt p loc index values st = .ok (out, st')) :
    ∃ w, out = values ++ (List.replicate (index - values.length) (.nil loc) ++ [w]) ∧
      Wraps P (.nil loc) w ∧ st'.checks = st.checks + 1 := by
  have hsplit : values ++ List.replicate (index + 1 - values.length) (.nil loc) =
      (values ++ List.replicate (index - values.length) (.nil loc)) ++ .nil loc :: [] := by
    rw [show index + 1 - values.length = index - values.length + 1 by omega, List.replicate_succ', List.append_assoc]
  have hlen : (values ++ List.replicate (index - values.length) (Expr.nil loc)).length = index := by
    rw [List.length_append, List.length_replicate]
    omega
  have hsame : guardAt p loc index values st = guardAt p loc index
      ((values ++ List.replicate (index - values.length) (.nil loc)) ++ .nil loc :: []) st := by
    simp only [guardAt, ← hsplit, List.length_append, List.length_replicate]
    rw [show index + 1 - (values.length + (index + 1 - values.length)) = 0 by omega,
      List.replicate_zero, List.append_nil]
  obtain ⟨w, hout, hw, hchecks⟩ := guardAt_present hp hlen (hsame ▸ h)
  exact ⟨w, by rw [hout, List.append_assoc], hw, hchecks⟩

theorem Wrapped.keepAll (vs : List Expr) (h : Wrapped P ws ws' n) : Wrapped P (vs ++ ws) (vs ++ ws') n := by
  induction vs with
  | nil => exact h
  | cons v vs ih => exact .keep ih

theorem guardLocals_wrapped
    (hknown : ∀ x, ∀ p ∈ (List.lookup x known).join, P p) (hrest : rest ≠ [] → done.length = index)
    (hdone : done.length ≤ index) (h : guardLocals known index names (done ++ rest) st = .ok (out, st')) :
    ∃ ws n, out = done ++ ws ∧ Wrapped P rest ws n ∧ st'.checks = st.checks + n := by
  induction names generalizing index done rest st with
  | nil =>
    cases h
    exact ⟨rest, 0, rfl, by simpa using Wrapped.nil.keepAll rest, rfl⟩
  | cons x names ih =>
    rw [guardLocals] at h
    -- A name that is not checked keeps its value, if it has one.
    have hskip (h : guardLocals known (index + 1) names (done ++ rest) st = .ok (out, st')) :
        ∃ ws n, out = done ++ ws ∧ Wrapped P rest ws n ∧ st'.checks = st.checks + n := by
      cases rest with
      | nil => exact ih (fun h => absurd rfl h) (Nat.le_succ_of_le hdone) h
      | cons v rest =>
        have hlen : (done ++ [v]).length = index + 1 := by
          rw [List.length_append, hrest (List.cons_ne_nil _ _)]
          rfl
        rw [List.append_cons] at h
        obtain ⟨ws, n, rfl, hws, hchecks⟩ := ih (fun _ => hlen) (Nat.le_of_eq hlen) h
        exact ⟨v :: ws, n, by simp, .keep hws, hchecks⟩
    cases hp : (List.lookup x known).join with
    | none =>
      rw [hp] at h
      exact hskip h
    | some p =>
      simp only [hp] at h
      split at h
      · next hlt =>
        obtain ⟨mid, st1, hguard, h⟩ := bind_ok h
        cases rest with
        | nil =>
          rw [List.append_nil] at hlt
          omega
        | cons v rest =>
          have hindex := hrest (List.cons_ne_nil _ _)
          obtain ⟨w, rfl, hw, hchecks1⟩ := guardAt_present (hknown x p hp) hindex hguard
          have hlen : (done ++ [w]).length = index + 1 := by
            rw [List.length_append, hindex]
            rfl
          rw [List.append_cons] at h
          obtain ⟨ws, n, rfl, hws, hchecks⟩ := ih (fun _ => hlen) (Nat.le_of_eq hlen) h
          exact ⟨w :: ws, n + 1, by simp, .check hw hws, by omega⟩
      · exact hskip h

/-- From an index on, each value for an annotated name is checked, and what is missing before it is
filled up. -/
theorem guardTargets_wrapped {ctx : Context} (hctx : ctx.All P) (hrest : rest ≠ [] → done.length = index)
    (hdone : done.length ≤ index) (h : guardTargets ctx index targets (done ++ rest) st = .ok (out, st')) :
    ∃ nils ws n, out = done ++ ws ∧ Nils nils ∧ Wrapped P (rest ++ nils) ws n ∧ st'.checks = st.checks + n := by
  induction targets generalizing index done rest st with
  | nil =>
    cases h
    exact ⟨[], rest, 0, rfl, List.forall_mem_nil _, by simpa using Wrapped.nil.keepAll rest, rfl⟩
  | cons target targets ih =>
    have hskip (h : guardTargets ctx (index + 1) targets (done ++ rest) st = .ok (out, st')) :
        ∃ nils ws n, out = done ++ ws ∧ Nils nils ∧ Wrapped P (rest ++ nils) ws n ∧ st'.checks = st.checks + n := by
      cases rest with
      | nil => exact ih (fun h => absurd rfl h) (Nat.le_succ_of_le hdone) h
      | cons v rest =>
        have hlen : (done ++ [v]).length = index + 1 := by
          rw [List.length_append, hrest (List.cons_ne_nil _ _)]
          rfl
        rw [List.append_cons] at h
        obtain ⟨nils, ws, n, rfl, hnils, hws, hchecks⟩ := ih (fun _ => hlen) (Nat.le_of_eq hlen) h
        exact ⟨nils, v :: ws, n, by simp, hnils, .keep hws, hchecks⟩
    cases target with
    | name loc x =>
      rw [guardTargets] at h
      cases hp : ctx.scopes.lookup x with
      | none =>
        rw [hp] at h
        exact hskip h
      | some p =>
        rw [hp] at h
        obtain ⟨mid, st1, hguard, h⟩ := bind_ok h
        cases rest with
        | nil =>
          rw [List.append_nil] at hguard
          obtain ⟨w, rfl, hw, hchecks1⟩ := guardAt_missing (hctx.scopes x p hp) hdone hguard
          generalize hpad : List.replicate (index - done.length) (Expr.nil loc) = pad at h
          have hlen : (done ++ (pad ++ [w])).length = index + 1 := by
            rw [← hpad, List.length_append, List.length_append, List.length_replicate]
            simp only [List.length_cons, List.length_nil]
            omega
          rw [← List.append_nil (done ++ (pad ++ [w]))] at h
          obtain ⟨nils, ws, n, rfl, hnils, hws, hchecks⟩ := ih (fun h => absurd rfl h) (Nat.le_of_eq hlen) h
          refine ⟨pad ++ .nil loc :: nils, pad ++ w :: ws, n + 1, by simp, ?_,
            Wrapped.keepAll pad (.check hw hws), by omega⟩
          have hpads : Nils pad := fun e he => ⟨loc, List.eq_of_mem_replicate (hpad ▸ he)⟩
          exact List.forall_mem_append.2 ⟨hpads, List.forall_mem_cons.2 ⟨⟨loc, rfl⟩, hnils⟩⟩
        | cons v rest =>
          have hindex := hrest (List.cons_ne_nil _ _)
          obtain ⟨w, rfl, hw, hchecks1⟩ := guardAt_present (hctx.scopes x p hp) hindex hguard
          have hlen : (done ++ [w]).length = index + 1 := by
            rw [List.length_append, hindex]
            rfl
          rw [List.append_cons] at h
          obtain ⟨nils, ws, n, rfl, hnils, hws, hchecks⟩ := ih (fun _ => hlen) (Nat.le_of_eq hlen) h
          exact ⟨nils, w :: ws, n + 1, by simp, hnils, .check hw hws, by omega⟩
    | _ => exact hskip h

/-! ## Steps that count -/

/-- With some checks counted before, a step makes something and counts the checks in it. -/
def Counts {α : Type} (n : Nat) (m : Pass α) (R : α → Nat → Prop) : Prop :=
  ∀ ⦃st a st'⦄, m st = .ok (a, st') → ∃ k, R a k ∧ st'.checks + n = st.checks + k

namespace Counts

variable {α β : Type} {n : Nat} {m : Pass α} {f : α → Pass β} {R : α → Nat → Prop} {S : β → Nat → Prop}

theorem pure {b : β} (h : S b n) : Counts n (pure b) S := by
  intro st b st' hrun
  cases hrun
  exact ⟨n, h, rfl⟩

theorem next (hm : Counts 0 m R) (hf : ∀ a k, R a k → Counts (n + k) (f a) S) : Counts n (m >>= f) S := by
  intro st b st'' hrun
  obtain ⟨a, st', ha, hb⟩ := bind_ok hrun
  obtain ⟨j, hR, hj⟩ := hm ha
  obtain ⟨k, hS, hk⟩ := hf a j hR hb
  exact ⟨k, hS, by omega⟩

theorem bind (hm : Counts 0 m R) (hf : ∀ a k, R a k → Counts k (f a) S) : Counts 0 (m >>= f) S :=
  hm.next fun a k ha => (Nat.zero_add k).symm ▸ hf a k ha

theorem skip {Q : α → Prop} (hm : ∀ ⦃st a st'⦄, m st = .ok (a, st') → Q a ∧ st' = st)
    (hf : ∀ a, Q a → Counts n (f a) S) : Counts n (m >>= f) S := by
  intro st b st'' hrun
  obtain ⟨a, st', ha, hb⟩ := bind_ok hrun
  obtain ⟨hQ, rfl⟩ := hm ha
  exact hf a hQ hb

end Counts

theorem guardLocals_counts {known : Scope Expr} (hknown : ∀ x, ∀ p ∈ (List.lookup x known).join, P p)
    (names : List String) (values : List Expr) : Counts 0 (guardLocals known 0 names values) (Wrapped P values) := by
  intro st ws st' hrun
  have hstart : ([] : List Expr).length = 0 := rfl
  obtain ⟨ws, m, rfl, hws, hchecks⟩ := guardLocals_wrapped hknown (fun _ => hstart) (Nat.le_refl 0) hrun
  exact ⟨m, hws, hchecks⟩

theorem guardTargets_counts {ctx : Context} (hctx : ctx.All P) (targets values : List Expr) :
    Counts 0 (guardTargets ctx 0 targets values) fun ws k => ∃ nils, Nils nils ∧ Wrapped P (values ++ nils) ws k := by
  intro st ws st' hrun
  have hstart : ([] : List Expr).length = 0 := rfl
  obtain ⟨nils, ws, k, rfl, hnils, hws, hchecks⟩ := guardTargets_wrapped hctx (fun _ => hstart) (Nat.le_refl 0) hrun
  exact ⟨k, ⟨nils, hnils, hws⟩, hchecks⟩

/-! ## Every run of the pass is made of edits -/

section Runs

variable (registry : String) (P : Expr → Prop)

def CompileTo (types : List Expr) : Prop := ∀ type ∈ types, ∀ p, Annotation.compileType registry [] type = .ok p → P p

/-- The surroundings of a step refer to the registry, and the predicates they know have the property. -/
structure Knowing (ctx : Context) : Prop where
  registry : ctx.registry = registry
  all : ctx.All P

variable {registry P} {ctx : Context}

namespace CompileTo

theorem append :
    CompileTo registry P (types ++ others) ↔ CompileTo registry P types ∧ CompileTo registry P others :=
  List.forall_mem_append

theorem left {types others : List Expr} (h : CompileTo registry P (types ++ others)) : CompileTo registry P types :=
  (append.1 h).1

theorem right {types others : List Expr} (h : CompileTo registry P (types ++ others)) : CompileTo registry P others :=
  (append.1 h).2

theorem predicates {types : List Annotation} (h : CompileTo registry P (types.map (·.type)))
    (hps : List.Forall₂ (Target.Scoping.Compiles registry) types ps) : ∀ q ∈ ps, P q.2 := by
  intro q hq
  obtain ⟨type, hmem, hcomp⟩ := Target.Scoping.Compiles.source hps q hq
  exact h type (List.mem_map.2 ⟨_, hmem, rfl⟩) q.2 hcomp

theorem result {type result : Option Expr} (h : CompileTo registry P type.toList)
    (hresult : Target.Scoping.CompilesResult registry type result) : ∀ p ∈ result, P p := by
  intro p hp
  cases type with
  | none =>
    rw [hresult] at hp
    cases hp
  | some type =>
    obtain ⟨q, rfl, hq⟩ := hresult
    cases hp
    exact h type List.mem_cons_self p hq

theorem predicates_run {types : List Annotation} (h : CompileTo registry P (types.map (·.type)))
    (hctx : Knowing registry P ctx) ⦃st : State⦄ ⦃ps : List (String × Expr)⦄ ⦃st' : State⦄
    (hrun : Instrument.predicates ctx types st = .ok (ps, st')) :
    (List.Forall₂ (Target.Scoping.Compiles registry) types ps ∧ ∀ q ∈ ps, P q.2) ∧ st' = st := by
  have hcompiles := hctx.registry ▸ Target.Scoping.predicates_ok hrun
  exact ⟨⟨hcompiles, h.predicates hcompiles⟩, predicates_state hrun⟩

theorem result_run {type : Option Expr} (h : CompileTo registry P type.toList) (hctx : Knowing registry P ctx)
    ⦃st : State⦄ ⦃result : Option Expr⦄ ⦃st' : State⦄ (hrun : predicate? ctx type st = .ok (result, st')) :
    (∀ p ∈ result, P p) ∧ st' = st :=
  ⟨h.result (hctx.registry ▸ Target.Scoping.predicate?_ok hrun), predicate?_state hrun⟩

end CompileTo

namespace Knowing

variable {bindings : List (String × Option Expr)}

theorem nested (h : Knowing registry P ctx) (hbinds : AllBindings P bindings) :
    Knowing registry P (ctx.nested bindings) :=
  ⟨h.registry, h.all.nested hbinds⟩

theorem unscoped (h : Knowing registry P ctx) : Knowing registry P (ctx.nested []) := ⟨h.registry, h.all.unscoped⟩

theorem declaring_ofBindings (h : Knowing registry P ctx) (hbinds : AllBindings P bindings) :
    Knowing registry P (ctx.declaring (Scope.ofBindings bindings)) :=
  ⟨h.registry, h.all.declaring_ofBindings hbinds⟩

theorem declaring (h : Knowing registry P ctx) (hbinds : AllBindings P bindings) :
    Knowing registry P (ctx.declaring bindings) :=
  ⟨h.registry, h.all.declaring hbinds⟩

theorem returning (h : Knowing registry P ctx) (hresult : ∀ p ∈ result, P p) :
    Knowing registry P { ctx with result } :=
  ⟨h.registry, h.all.returning hresult⟩

end Knowing

theorem guardReturn_counts (hp : P p) (loc : Loc)
    (hn : ExprsEdit registry P values (eraseExprs values) values' n) :
    Counts 0 (guardAt p loc 0 values') fun ws k => StmtEdit registry P (.returnValues loc values)
      (.returnValues loc (eraseExprs values)) (.returnValues loc ws) (n + k) := by
  intro st ws st' hguard
  cases values' with
  | nil =>
    -- A return without values gives nil, and that is what is checked.
    obtain ⟨w, rfl, hw, hchecks⟩ := guardAt_missing hp (Nat.le_refl 0) hguard
    cases values with
    | nil =>
      cases hn
      exact ⟨1, .returnNil hw, hchecks⟩
    | cons e es => cases hn
  | cons v rest =>
    have hstart : ([] : List Expr).length = 0 := rfl
    obtain ⟨w, rfl, hw, hchecks⟩ := guardAt_present hp hstart hguard
    exact ⟨1, .returnChecked hn hw, hchecks⟩

/-! What the pass makes of a tree comes from edits, and it counts the checks they add. The induction follows the
pass; the predicates that are known behind a statement still have the property. -/

mutual

theorem expr_edit {ctx : Context} (hctx : Knowing registry P ctx) : ∀ e, CompileTo registry P (Expr.types e) →
    Counts 0 (expr ctx e) (ExprEdit registry P e e.erase)
  | .nil _, _ => .pure .nil
  | .bool .., _ => .pure .bool
  | .number .., _ => .pure .number
  | .string .., _ => .pure .string
  | .vararg _, _ => .pure .vararg
  | .name .., _ => .pure .name
  | .function f, h => (function_edit hctx f h).bind fun _ _ hf => .pure (.function hf)
  | .signature .., _ => .pure .signature
  | .table _ fields, h => (fields_edit hctx fields h).bind fun _ _ hfs => .pure (.table hfs)
  | .binary _ left _ right, h => (expr_edit hctx left h.left).bind fun _ _ hl =>
    (expr_edit hctx right h.right).next fun _ _ hr => .pure (.binary hl hr)
  | .unary _ _ operand, h => (expr_edit hctx operand h).bind fun _ _ ho => .pure (.unary ho)
  | .call _ callee args, h => (expr_edit hctx callee h.left).bind fun _ _ hc =>
    (exprs_edit hctx args h.right).next fun _ _ has => .pure (.call hc has)
  | .method _ object _ args, h => (expr_edit hctx object h.left).bind fun _ _ ho =>
    (exprs_edit hctx args h.right).next fun _ _ has => .pure (.method ho has)
  | .index _ object key, h => (expr_edit hctx object h.left).bind fun _ _ ho =>
    (expr_edit hctx key h.right).next fun _ _ hk => .pure (.index ho hk)
  | .paren _ inner, h => (expr_edit hctx inner h).bind fun _ _ hi => .pure (.paren hi)
  | .block _ ss value, h => (stmts_edit hctx.unscoped ss h.left).bind fun _ _ hss =>
    (expr_edit hss.2 value h.right).next fun _ _ hv => .pure (.block hss.1 hv)

theorem exprs_edit {ctx : Context} (hctx : Knowing registry P ctx) : ∀ es, CompileTo registry P (exprsTypes es) →
    Counts 0 (exprs ctx es) (ExprsEdit registry P es (eraseExprs es))
  | [], _ => .pure .nil
  | e :: es, h => (expr_edit hctx e h.left).bind fun _ _ he =>
    (exprs_edit hctx es h.right).next fun _ _ hes => .pure (.cons he hes)

theorem option_edit {ctx : Context} (hctx : Knowing registry P ctx) : ∀ e?, CompileTo registry P (optionTypes e?) →
    Counts 0 (exprOption ctx e?) (OptionEdit registry P e? (eraseOption e?))
  | none, _ => .pure .none
  | some e, h => (expr_edit hctx e h).bind fun _ _ he => .pure (.some he)

theorem fields_edit {ctx : Context} (hctx : Knowing registry P ctx) : ∀ fs, CompileTo registry P (fieldsTypes fs) →
    Counts 0 (tableFields ctx fs) (FieldsEdit registry P fs (eraseFields fs))
  | [], _ => .pure .nil
  | .mk _ key value :: fs, h => (expr_edit hctx value h.left.right).bind fun _ _ he =>
    (option_edit hctx key h.left.left).next fun _ _ hkey =>
      (fields_edit hctx fs h.right).next fun _ _ hfs => .pure (.cons he hkey hfs)

theorem function_edit {ctx : Context} (hctx : Knowing registry P ctx) :
    ∀ f, CompileTo registry P (Function.types f) → Counts 0 (function ctx f) (FunctionEdit registry P f f.erase)
  | .mk loc params isVararg (.mk bodyLoc ss) types returnType label, h => by
    refine .skip (h.left.left.predicates_run hctx) fun ps hps =>
      .skip (h.left.right.result_run hctx) fun result hres => ?_
    have hinside := (hctx.nested (allBindings_append params hps.2)).returning hres
    refine (stmts_edit hinside ss h.right).bind fun r n hss => ?_
    intro st f' st' hrun
    cases hrun
    refine ⟨n + types.length, .mk hps.1 hps.2 hss.1, ?_⟩
    show st.checks + ps.length + n = st.checks + (n + types.length)
    rw [hps.1.length_eq]
    omega

theorem block_edit {ctx : Context} (hctx : Knowing registry P ctx) : ∀ b, CompileTo registry P (Block.types b) →
    Counts 0 (block ctx b) (BlockEdit registry P b b.erase)
  | .mk _ ss, h => (stmts_edit hctx.unscoped ss h).bind fun _ _ hss => .pure (.mk hss.1)

theorem otherwise_edit {ctx : Context} (hctx : Knowing registry P ctx) :
    ∀ b?, CompileTo registry P (otherwiseTypes b?) →
      Counts 0 (blockOption ctx b?) (OtherwiseEdit registry P b? (eraseOptionBlock b?))
  | none, _ => .pure .none
  | some b, h => (block_edit hctx b h).bind fun _ _ hb => .pure (.some hb)

theorem clauses_edit {ctx : Context} (hctx : Knowing registry P ctx) : ∀ cs, CompileTo registry P (clausesTypes cs) →
      Counts 0 (clauses ctx cs) (ClausesEdit registry P cs (eraseClauses cs))
  | [], _ => .pure .nil
  | .mk condition body :: cs, h => (expr_edit hctx condition h.left.left).bind fun _ _ he =>
    (block_edit hctx body h.left.right).next fun _ _ hb =>
      (clauses_edit hctx cs h.right).next fun _ _ hcs => .pure (.cons he hb hcs)

theorem stmts_edit {ctx : Context} (hctx : Knowing registry P ctx) : ∀ ss, CompileTo registry P (stmtsTypes ss) →
    Counts 0 (stmts ctx ss) fun r n => StmtsEdit registry P ss (eraseStmts ss) r.1 n ∧ Knowing registry P r.2
  | [], _ => .pure ⟨.nil, hctx⟩
  | s :: ss, h => (stmt_edit hctx s h.left).bind fun _ _ hs =>
    (stmts_edit hs.2 ss h.right).next fun _ _ hss => .pure ⟨.cons hs.1 hss.1, hss.2⟩

theorem stmt_edit {ctx : Context} (hctx : Knowing registry P ctx) : ∀ s, CompileTo registry P (Stmt.types s) →
    Counts 0 (stmt ctx s) fun r n => StmtEdit registry P s s.erase r.1 n ∧ Knowing registry P r.2
  | .localVars _ names values _, h => (exprs_edit hctx values h.left).bind fun values' _ hn =>
    .skip (h.right.predicates_run hctx) fun _ hps =>
      have hbinds := allBindings_append names hps.2
      (guardLocals_counts hbinds.ofBindings names values').next fun _ _ hws =>
        .pure ⟨.localVars hn hws, hctx.declaring_ofBindings hbinds⟩
  | .localFunction _ x f, h =>
    have hinside := hctx.declaring (allBindings_unknown [x])
    (function_edit hinside f h).bind fun _ _ hf => .pure ⟨.localFunction hf, hinside⟩
  | .assign _ targets values, h => (exprs_edit hctx targets h.left).bind fun targets' _ hts =>
    (exprs_edit hctx values h.right).next fun values' _ hes =>
      (guardTargets_counts hctx.all targets' values').next fun _ _ ⟨_, hnils, hws⟩ =>
        .pure ⟨.assign hts hes hnils hws, hctx⟩
  | .expr _ e, h => (expr_edit hctx e h).bind fun _ _ he => .pure ⟨.expr he, hctx⟩
  | .scope _ body, h => (block_edit hctx body h).bind fun _ _ hb => .pure ⟨.scope hb, hctx⟩
  | .whileLoop _ condition body, h => (expr_edit hctx condition h.left).bind fun _ _ he =>
    (block_edit hctx body h.right).next fun _ _ hb => .pure ⟨.whileLoop he hb, hctx⟩
  | .repeatLoop _ (.mk _ ss) condition, h => (stmts_edit hctx.unscoped ss h.left).bind fun _ _ hss =>
    (expr_edit hss.2 condition h.right).next fun _ _ he => .pure ⟨.repeatLoop (.mk hss.1) he, hctx⟩
  | .ifElse _ condition body rest otherwise, h =>
    (expr_edit hctx condition h.left.left.left).bind fun _ _ he =>
      (block_edit hctx body h.left.left.right).next fun _ _ hb =>
        (clauses_edit hctx rest h.left.right).next fun _ _ hcs =>
          (otherwise_edit hctx otherwise h.right).next fun _ _ ho => .pure ⟨.ifElse he hb hcs ho, hctx⟩
  | .numericFor _ counter start stop step body, h =>
    (expr_edit hctx start h.left.left.left).bind fun _ _ h1 =>
      (expr_edit hctx stop h.left.left.right).next fun _ _ h2 =>
        (option_edit hctx step h.left.right).next fun _ _ hstep =>
          (block_edit (hctx.nested (allBindings_unknown [counter])) body h.right).next fun _ _ hb =>
            .pure ⟨.numericFor h1 h2 hstep hb, hctx⟩
  | .genericFor _ names iterators body, h => (exprs_edit hctx iterators h.left).bind fun _ _ hes =>
    (block_edit (hctx.nested (allBindings_unknown names)) body h.right).next fun _ _ hb =>
      .pure ⟨.genericFor hes hb, hctx⟩
  | .returnValues loc values, h => by
    refine (exprs_edit hctx values h).bind fun _ _ hes => ?_
    split
    · next p hp => exact (guardReturn_counts (hctx.all.result p hp) loc hes).next fun _ _ hr => .pure ⟨hr, hctx⟩
    · exact .pure ⟨.returnValues hes, hctx⟩
  | .breakLoop _, _ => .pure ⟨.breakLoop, hctx⟩

end

end Runs

def PredicateOf (registry : String) (c : Chunk) (p : Expr) : Prop :=
  ∃ type ∈ c.types, Annotation.compileType registry [] type = .ok p

theorem chunk_edit {registry stem : String} {c c' : Chunk} {checks : Nat}
    (h : Instrument.chunk registry stem c = .ok (c', checks)) : ∃ body', c' = { c with body := body' } ∧
      BlockEdit registry (PredicateOf registry c) c.body c.body.erase body' checks := by
  rw [Instrument.chunk] at h
  split at h
  · next body state hblock =>
    cases h
    have hctx : Knowing registry (PredicateOf registry c) ⟨registry, none, []⟩ := ⟨rfl, nofun, nofun⟩
    have htypes : CompileTo registry (PredicateOf registry c) c.body.types := fun type htype p hp => ⟨type, htype, hp⟩
    obtain ⟨n, hn, hchecks⟩ := block_edit hctx c.body htypes hblock
    have hcount : state.checks = n := hchecks.trans (Nat.zero_add n)
    exact ⟨body, rfl, hcount ▸ hn⟩
  · cases h

/-- A chunk with checks is the chunk without annotations, apart from the checks and the nils they need, and
the checks are counted. -/
theorem chunk_only_adds_checks {registry stem : String} {c c' : Chunk} {checks : Nat}
    (h : Instrument.chunk registry stem c = .ok (c', checks)) :
    BlockEdit registry (PredicateOf registry c) c.body c.erase.body c'.body checks ∧
      c'.loc = c.erase.loc ∧ c'.typecheck = c.erase.typecheck := by
  obtain ⟨body', rfl, hbody'⟩ := chunk_edit h
  exact ⟨hbody', rfl, rfl⟩

/-- A local with a call as its value, and a function that has one value for two annotated names and returns
none:

```
local x :: number = g()
local function f(y :: string) :: number
  x, y = true
  return
end
```
-/
def sparseChunk : Chunk :=
  let number := Expr.name none "number"
  ⟨none, .mk none [
    .localVars none ["x"] [.call none (.name none "g") []] [.mk "x" number],
    .localFunction none "f" (.mk none ["y"] false
      (.mk none [.assign none [.name none "x", .name none "y"] [.bool none true], .returnValues none []])
      [.mk "y" (.name none "string")] (some number) (some "f"))], none⟩

theorem chunk_only_adds_checks_sparse : ∃ c', Instrument.chunk "types" "_v" sparseChunk = .ok (c', 5) ∧
    BlockEdit "types" (PredicateOf "types" sparseChunk) sparseChunk.body sparseChunk.erase.body c'.body 5 := by
  have hrun : ∃ c', Instrument.chunk "types" "_v" sparseChunk = .ok (c', 5) := ⟨_, rfl⟩
  obtain ⟨c', hc'⟩ := hrun
  exact ⟨c', hc', (chunk_only_adds_checks hc').1⟩

end TypedLua.Instrument
