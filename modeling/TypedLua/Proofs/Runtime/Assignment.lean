import TypedLua.Proofs.Checking.Values
import TypedLua.Proofs.Runtime.Private
import TypedLua.Proofs.Scoping.Uses

/-!
# Assignments

A declaration or an assignment evaluates its values and then stores them, so an error in a value
leaves all targets alone.
-/

namespace TypedLua

namespace Target.Scoping

open Generate Machine

/-! ## Definitions in front of a statement -/

def OnlyDefines (code : List Stmt) : Prop := ∀ s ∈ code, ∃ d, s = .define d

variable {code : List Stmt} {given : List String}

theorem OnlyDefines.append (h : OnlyDefines code) (h' : OnlyDefines code') : OnlyDefines (code ++ code') :=
  List.forall_mem_append.2 ⟨h, h'⟩

theorem onlyDefines_nil : OnlyDefines [] := List.forall_mem_nil _

mutual

theorem ExprCode.defines {p e code call given} : ExprCode p e code call given → OnlyDefines code
  | .nil | .bool | .number | .string | .vararg | .global _ | .variable _ _ => onlyDefines_nil
  | .function _ _ => List.forall_mem_singleton.2 ⟨_, rfl⟩
  | .table h => h.defines
  | .binary _ h h' | .andThen _ h h' | .orElse _ h h' | .index h h' => h.defines.append h'.defines
  | .negation h | .length h | .minus h | .paren h => h.defines
  | .call h h' | .method h h' => h.defines.append h'.defines
  | .block h h' => h.defines.append h'.defines

theorem ListCode.defines {p es code list given} : ListCode p es code list given → OnlyDefines code
  | .nil => onlyDefines_nil
  | .last h => h.defines
  | .cons h h' => h.defines.append h'.defines

theorem ItemsCode.defines {p fields code list given} : ItemsCode p fields code list given → OnlyDefines code
  | .nil => onlyDefines_nil
  | .keyed h h' h'' => h.defines.append (h'.defines.append h''.defines)
  | .last h => h.defines
  | .positional h h' => h.defines.append h'.defines

theorem PartsCode.defines {p p' ss code parts given} : PartsCode p ss code parts p' given → OnlyDefines code
  | .nil => onlyDefines_nil
  | .run h h' => h.defines.append h'.defines
  | .bindNull _ h => h.defines
  | .bind h _ h' => h.defines.append h'.defines

end

variable {p p' : Place} {m : Machine} {env : Env} {s : Store}

theorem OnlyDefines.execStmts_append (h : OnlyDefines code) (rest : List Stmt) :
    execStmts m env (code ++ rest) = (execStmts m env code >>= fun _ => execStmts m env rest) := by
  induction code with
  | nil => simp [execStmts]
  | cons s code ih =>
    obtain ⟨⟨d, rfl⟩, hcode⟩ := List.forall_mem_cons.1 h
    rw [List.cons_append, execStmts_cons, execStmts_cons, execStmt]
    simp only [bind_assoc, pure_bind, proceed, ih hcode]

/-! ## What is evaluated first -/

/-- The values of a statement with a number of targets: one of them for one target, and otherwise all. -/
inductive ValuesCode (p : Place) :
    Nat → List TypedLua.Expr → List Stmt → List Expr × Option Tail → List String → Prop
  | one {value code call given} (h : ExprCode p value code call given) :
      ValuesCode p 1 [value] code ([cut call], none) given
  | many {n values code list given} (hmany : ¬(n = 1 ∧ values.length = 1))
      (h : ListCode p values code list given) : ValuesCode p n values code list given

/-- What a declaration or an assignment evaluates before it stores anything. -/
inductive Evaluated (p : Place) :
    TypedLua.Stmt → List Stmt → List Expr × Option Tail → List String → Prop
  | locals {loc names values types code list given} (h : ValuesCode p names.length values code list given) :
      Evaluated p (.localVars loc names values types) code list given
  | assign {loc targets values code list given} (h : ValuesCode p targets.length values code list given) :
      Evaluated p (.assign loc targets values) code list given
  | index {loc iloc object key value code1 call1 given1 code2 call2 given2 code3 call3 given3}
      (hvalue : ExprCode p value code1 call1 given1) (hobject : ExprCode p object code2 call2 given2)
      (hkey : ExprCode p key code3 call3 given3) :
      Evaluated p (.assign loc [.index iloc object key] [value]) (code1 ++ (code2 ++ code3))
        ([cut call2, cut call3, cut call1], none) (given1 ++ (given2 ++ given3))

theorem ValuesCode.bound {values : List TypedLua.Expr}
    (h : ValuesCode p n values code list given) : stmtsBound code ++ listBound list.1 list.2 ⊆ given := by
  cases h with
  | one h => simpa [listBound, exprsBound, tailBound] using h.uses.bound
  | many _ h => exact h.uses.bound

theorem Evaluated.bound {s : TypedLua.Stmt}
    (h : Evaluated p s code list given) : stmtsBound code ++ listBound list.1 list.2 ⊆ given := by
  cases h with
  | locals h => exact h.bound
  | assign h => exact h.bound
  | index hvalue hobject hkey =>
    have hall := (hvalue.uses.and (hobject.uses.and hkey.uses)).bound
    simp only [stmtsBound_append, listBound, exprsBound, tailBound, cut_bound, List.append_subset] at hall ⊢
    simp_all

def storesValues : TypedLua.Stmt → Bool
  | .localVars .. | .assign .. => true
  | _ => false

def evaluate (m : Machine) (env : Env) (front : List Stmt) (list : List Expr × Option Tail) : Run (List Value) := do
  let _ ← execStmts m env front
  evalList m env list.1 list.2

/-- Code evaluates a list and then goes on to store, and no variable of a declaration in scope behind it is
bound by the evaluation. -/
structure EvaluatesFirst (p : Place) (front : List Stmt) (list : List Expr × Option Tail) (code : List Stmt) :
    Prop where
  apart : ∀ {y d}, p.find y = some d → d.name ∉ stmtsBound front ++ listBound list.1 list.2
  order : ∀ (m : Machine) (env : Env), ∃ store : List Value → Run Signal,
    execStmts m env code = evaluate m env front list >>= store

/-- A declaration or an assignment evaluates its values first. If that fails, the statement fails in the same
way and in the same store: no target has been written. Nor does the evaluation itself write a variable
in scope, provided that the names of the statement are spared. -/
theorem failed_evaluation_stores_nothing {s : TypedLua.Stmt} {code : List Stmt} {given : List String}
    (h : StmtCode p s code p' given) (hs : storesValues s = true) (hspared : p.Spares given) :
    ∃ front list taken, Evaluated p s front list taken ∧ EvaluatesFirst p' front list code ∧
      ∀ (m : Machine) (env : Env) (t t' : Store) (e : Stop), evaluate m env front list t = .error e t' →
        execStmts m env code t = .error e t' := by
  -- It is enough to know what is evaluated; the rest of the code is what stores.
  suffices hfirst : ∃ front list taken, Evaluated p s front list taken ∧
      (∀ {y d}, p'.find y = some d → d.name ∉ taken) ∧ ∀ (m : Machine) (env : Env),
        ∃ store : List Value → Run Signal, execStmts m env code = evaluate m env front list >>= store by
    obtain ⟨front, list, taken, hev, hapart, horder⟩ := hfirst
    refine ⟨front, list, taken, hev, ⟨fun hd hmem => hapart hd (hev.bound hmem), horder⟩, fun m env t t' e he => ?_⟩
    obtain ⟨store, hstore⟩ := horder m env
    rw [hstore, Run.bind_error he]
  have hold : ∀ {taken : List String}, taken ⊆ given → ∀ {y d}, p.find y = some d → d.name ∉ taken :=
    fun hsub _ _ hd hmem => hspared.declared hd (hsub hmem)
  cases h with
  | localNull hlength hholds =>
    refine ⟨[], ([], none), [], .locals (.many (by simp) .nil), by simp,
      fun m env => ⟨fun _ => execStmts m env [.assignNull given], ?_⟩⟩
    simp [evaluate, execStmts, evalList, evalExprs, evalTail]
  | @localOne _ _ _ _ _ name front call taken h hholds =>
    refine ⟨front, _, taken, .locals (.one h), fun {y d} hd hmem => ?_,
      fun m env => ⟨fun vs => assign env name (vs.headD .nil) >>= fun _ => pure .next, ?_⟩⟩
    · rcases (Uses.declare hholds).scope y d hd with hx | hx
      · have := hspared.nodup
        grind
      · exact hold (by simp) hx hmem
    · simp [evaluate, h.defines.execStmts_append, execStmts_one, execStmt, evalList, evalExprs, evalTail]
  | @localMany _ _ names _ _ fresh front list taken _ hmany hlength h hholds =>
    refine ⟨front, list, taken, .locals (.many hmany h), fun {y d} hd hmem => ?_,
      fun m env => ⟨fun vs => assignAll env fresh (adjust fresh.length vs) >>= fun _ => pure .next, ?_⟩⟩
    -- A name in scope behind the declaration is declared by it or was in scope before.
    · rcases (Uses.declareAll hlength).scope y d hd with hx | hx
      · have := hspared.nodup
        grind
      · exact hold (by simp) hx hmem
    · rw [h.defines.execStmts_append, ← hlength, exec_adjusted h, evaluate, bind_assoc]
  | @assignOne _ _ _ _ front call taken _ _ hvalue htarget =>
    cases htarget with
    | @global _ _ x =>
      refine ⟨front, _, taken, .assign (.one hvalue), hold (by simp),
        fun m env => ⟨fun vs => Run.setRaw env.globals (.string x) (vs.headD .nil) >>= fun _ => pure .next, ?_⟩⟩
      simp [evaluate, hvalue.defines.execStmts_append, execStmts_one, execStmt, evalList, evalExprs, evalTail]
    | @«variable» _ _ _ d =>
      refine ⟨front, _, taken, .assign (.one hvalue), hold (by simp),
        fun m env => ⟨fun vs => assign env d.name (vs.headD .nil) >>= fun _ => pure .next, ?_⟩⟩
      simp [evaluate, hvalue.defines.execStmts_append, execStmts_one, execStmt, evalList, evalExprs, evalTail]
    | index hobject hkey =>
      -- The table and the key belong to what comes first: they are evaluated in front of the value.
      refine ⟨_, _, _, .index hvalue hobject hkey, hold (by simp), fun m env =>
        ⟨fun vs => Access.setIndex (vs.getD 0 .nil) (vs.getD 1 .nil) (vs.getD 2 .nil) >>= fun _ => pure .next, ?_⟩⟩
      simp [evaluate, hvalue.defines.execStmts_append, hobject.defines.execStmts_append, hkey.defines.execStmts_append,
        execStmts_one, execStmt, evalList, evalExprs, evalTail]
  | @assignMany _ _ _ _ temps front list taken rest _ hmany hlength _ hvalues _ =>
    refine ⟨front, list, taken, .assign (.many hmany hvalues), hold (by simp),
      fun m env => ⟨fun vs => assignAll env temps (adjust temps.length vs) >>= fun _ => execStmts m env rest, ?_⟩⟩
    rw [hvalues.defines.execStmts_append, ← hlength, exec_adjusted_cons hvalues, evaluate, bind_assoc]
  | _ => cases hs

/-! ## Several targets -/

/-- The code of a target: a variable, a global, or an index with the definitions in front of it. -/
inductive Destination where
  | var (x : String)
  | global (x : String)
  | field (front : List Stmt) (object key : Expr)

inductive Spot where
  | var (x : String)
  | global (x : String)
  | field (object key : Value)

def Spot.put (env : Env) (v : Value) : Spot → Run Unit
  | var x => assign env x v
  | global x => Run.setRaw env.globals (.string x) v
  | field object key => Access.setIndex object key v

namespace Destination

def locate (m : Machine) (env : Env) : Destination → Run Spot
  | var x => return .var x
  | global x => return .global x
  | field front object key => do
    let _ ← execStmts m env front
    let o ← evalExpr m env object
    let k ← evalExpr m env key
    return .field o k

def names : Destination → List String
  | var x => [x]
  | global _ => []
  | field front object key => stmtsNames front ++ (object.names ++ key.names)

end Destination

def storeInTurn (m : Machine) (env : Env) : List Destination → List Value → Run Unit
  | d :: ds, v :: vs => do
    let spot ← d.locate m env
    spot.put env v
    storeInTurn m env ds vs
  | _, _ => return ()

inductive Denotes (p : Place) : TypedLua.Expr → Destination → Prop
  | global {loc x} (hfind : p.find x = none) : Denotes p (.name loc x) (.global x)
  | var {loc x d} (hfind : p.find x = some d) (hreach : p.Reaches d) : Denotes p (.name loc x) (.var d.name)
  | field {loc object key code1 call1 given1 code2 call2 given2} (hobject : ExprCode p object code1 call1 given1)
      (hkey : ExprCode p key code2 call2 given2) :
      Denotes p (.index loc object key) (.field (code1 ++ code2) (cut call1) (cut call2))

def Holding (env : Env) (s : Store) (temps : List String) (vs : List Value) : Prop :=
  List.Forall₂ (fun x v => s.content (top env, x) = some (.value v)) temps vs

theorem spotted {d : Destination} {spot : Spot} {s' : Store} {all : List String}
    (h : d.locate m env s = .ok spot s') (hnames : ∀ x ∈ d.names, x ∉ all) : ∀ x, spot = .var x → x ∉ all := by
  rintro x rfl
  cases d with
  | var y =>
    cases h
    exact hnames x (List.mem_singleton_self x)
  | global y => cases h
  | field front object key =>
    obtain ⟨-, s1, -, h⟩ := Run.bind_eq_ok h
    obtain ⟨o, s2, -, h⟩ := Run.bind_eq_ok h
    obtain ⟨k, s3, -, h⟩ := Run.bind_eq_ok h
    cases h

namespace Private

variable {start s s' : Store} {temps : List String} {n : Nat}

theorem locate {d : Destination} (h : Private start env temps s) (hnames : ∀ x ∈ d.names, x ∉ temps)
    (hok : d.locate (within n) env s = .ok spot s') : Kept start env temps s s' := by
  let _ := keeping start env temps s
  refine h.keeps (fun w henv => ?_) hok
  cases d with
  | var x =>
    exact .pure _
  | global x =>
    exact .pure _
  | field front object key =>
    have hm := sameMachine_within (I := privateLedger start env temps) (Nat.le_refl n) w
    have hv : Views (privateLedger start env temps) w env env (stmtsNames front ++ (object.names ++ key.names)) :=
      views henv hnames
    exact (coupled_execStmts hm front hv.left).bind fun _ => (coupled_evalExpr hm object hv.right.left).bind fun _ =>
      (coupled_evalExpr hm key hv.right.right).bind fun _ => .pure _

theorem put {spot : Spot} {v : Value} {u : Unit} (h : Private start env temps s) (hx : ∀ x, spot = .var x → x ∉ temps)
    (hok : spot.put env v s = .ok u s') : Kept start env temps s s' := by
  let _ := keeping start env temps s
  refine h.keeps (fun w henv => ?_) hok
  cases spot with
  | var x =>
    have hv : Views (privateLedger start env temps) w env env [x] := views henv (by simpa using hx x rfl)
    exact coupled_assign hv v
  | global x =>
    rw [Spot.put]
    exact .setRaw _ _ _
  | field object key =>
    exact .setIndex _ _ _

theorem evalList {list : List Expr × Option Tail} {vs : List Value} (h : Private start env temps s)
    (hnames : ∀ x ∈ exprsNames list.1 ++ tailNames list.2, x ∉ temps)
    (hok : Machine.evalList (within n) env list.1 list.2 s = .ok vs s') : Kept start env temps s s' := by
  let _ := keeping start env temps s
  exact h.keeps (fun w henv =>
    coupled_evalList (sameMachine_within (Nat.le_refl n) w) list.1 list.2 (views henv hnames)) hok

theorem assignAll {vs : List Value} (h : Private start env temps s) (hsub : ∀ x ∈ xs, x ∈ temps)
    (hnodup : xs.Nodup) (hlength : vs.length = xs.length) :
    ∃ t, Machine.assignAll env xs vs s = .ok () t ∧ Private start env temps t ∧ Holding env t xs vs ∧
      ∀ y ∉ xs, t.content (top env, y) = s.content (top env, y) := by
  induction xs generalizing s vs with
  | nil =>
    cases List.length_eq_zero_iff.1 hlength
    exact ⟨s, rfl, h, .nil, fun _ _ => rfl⟩
  | cons x xs ih =>
    obtain ⟨v, vs, rfl⟩ := List.exists_cons_of_length_eq_add_one hlength
    obtain ⟨hx, hxs⟩ := List.forall_mem_cons.1 hsub
    obtain ⟨hnew, hnodup⟩ := List.nodup_cons.1 hnodup
    obtain ⟨hassign, hset, h1⟩ := h.assign hx v
    obtain ⟨t, hall, h2, hholding, hother⟩ := ih h1 hxs hnodup (Nat.succ.inj hlength)
    refine ⟨t, by rw [Machine.assignAll, Run.bind_ok hassign, hall], h2, .cons ((hother x hnew).trans hset) hholding, ?_⟩
    intro y hy
    rw [List.mem_cons, not_or] at hy
    rw [hother y hy.2, Store.content_put_of_ne fun hcell => hy.1 (congrArg Prod.snd hcell)]

end Private

theorem Kept.holding (h : Kept start env all s s') (hsub : ∀ x ∈ temps, x ∈ all)
    (hholding : Holding env s temps vs) : Holding env s' temps vs := by
  induction hholding with
  | nil => exact .nil
  | cons hx _ ih =>
    obtain ⟨hmem, hsub⟩ := List.forall_mem_cons.1 hsub
    exact .cons ((h.same _ hmem).trans hx) (ih hsub)

def Unknown (p : Place) (given : List String) (x : String) : Prop :=
  x ∉ given ∧ ∀ {y d}, p.find y = some d → d.name ≠ x

theorem TargetCode.run {target : TypedLua.Expr} {temp : String} (h : TargetCode p target (.var temp) code given) :
    ∃ d, Denotes p target d ∧ (∀ x, Unknown p given x → x ∉ d.names) ∧
      ∀ {start s : Store} {env : Env} {all : List String} {n : Nat} {v : Value} (rest : List Stmt),
        Private start env all s → temp ∈ all → (∀ x ∈ d.names, x ∉ all) →
        s.content (top env, temp) = some (.value v) → execStmts (within n) env (code ++ rest) s =
          (d.locate (within n) env >>= fun spot => spot.put env v >>= fun _ => execStmts (within n) env rest) s := by
  cases h with
  | @global _ _ x _ hfind =>
    refine ⟨.global x, .global hfind, fun _ _ => by simp [Destination.names], ?_⟩
    intro start s env all n v rest h _ _ hx
    rw [List.singleton_append, execStmts_cons, execStmt, evalExpr, Destination.locate, pure_bind, bind_assoc,
      Run.bind_ok (h.readVar hx)]
    simp only [Spot.put, bind_assoc, pure_bind, proceed]
  | @«variable» _ _ _ d _ hfind hreach =>
    refine ⟨.var d.name, .var hfind hreach, fun x hx => by simpa [Destination.names] using (hx.2 hfind).symm, ?_⟩
    intro start s env all n v rest h _ _ hx
    rw [List.singleton_append, execStmts_cons, execStmt, evalExpr, Destination.locate, pure_bind, bind_assoc,
      Run.bind_ok (h.readVar hx)]
    simp only [Spot.put, bind_assoc, pure_bind, proceed]
  | @index _ _ _ _ _ code1 call1 _ code2 call2 _ hobject hkey =>
    refine ⟨_, .field hobject hkey, fun x hx hmem => ?_, ?_⟩
    · refine (hobject.uses.and hkey.uses).avoids hx.1 (fun _ _ _ hd => hx.2 hd) ?_
      simp only [Destination.names, stmtsNames_append, cut_names, List.mem_append] at hmem ⊢
      tauto
    · intro start s env all n v rest h htemp hnames hx
      simp only [Destination.names, stmtsNames_append, List.forall_mem_append] at hnames
      simp only [List.append_assoc, hobject.defines.execStmts_append, hkey.defines.execStmts_append,
        Destination.locate, bind_assoc, pure_bind, List.singleton_append, execStmts_cons, execStmt]
      -- The temporary keeps its value while the table and the key are evaluated.
      refine Run.bind_steps fun _ s1 h1 => ?_
      have k1 := h.execStmts hnames.1.1 h1
      refine Run.bind_steps fun _ s2 h2 => ?_
      have k2 := k1.still.execStmts hnames.1.2 h2
      refine Run.bind_steps fun o s3 h3 => ?_
      have k3 := k2.still.evalExpr hnames.2.1 h3
      refine Run.bind_steps fun k s4 h4 => ?_
      have k4 := k3.still.evalExpr hnames.2.2 h4
      have hread := (k4.same _ htemp).trans ((k3.same _ htemp).trans ((k2.same _ htemp).trans
        ((k1.same _ htemp).trans hx)))
      rw [evalExpr, Run.bind_ok (k4.still.readVar hread)]
      simp only [Spot.put, proceed]

theorem TargetsCode.run {p targets temps code given} (h : TargetsCode p targets temps code given) :
    ∃ ds, List.Forall₂ (Denotes p) targets ds ∧ (∀ x, Unknown p given x → ∀ d ∈ ds, x ∉ d.names) ∧
      ∀ {start s : Store} {env : Env} {all : List String} {n : Nat} {vs : List Value}, Private start env all s →
        (∀ x ∈ temps, x ∈ all) → (∀ d ∈ ds, ∀ x ∈ d.names, x ∉ all) → Holding env s temps vs →
        execStmts (within n) env code s = (storeInTurn (within n) env ds vs >>= fun _ => pure .next) s := by
  induction targets generalizing temps code given with
  | nil =>
    cases h
    refine ⟨[], .nil, fun _ _ => List.forall_mem_nil _, fun _ _ _ hvs => ?_⟩
    cases hvs
    simp [execStmts, storeInTurn]
  | cons target targets ih =>
    obtain _ | ⟨h, ht⟩ := h
    obtain ⟨d, hd, hnames, hrun⟩ := h.run
    obtain ⟨ds, hds, hothers, hrest⟩ := ih ht
    refine ⟨d :: ds, .cons hd hds, fun x hx => ?_, ?_⟩
    · refine List.forall_mem_cons.2 ⟨hnames x ⟨fun hmem => hx.1 ?_, hx.2⟩, hothers x ⟨fun hmem => hx.1 ?_, hx.2⟩⟩
      · exact List.mem_append_left _ hmem
      · exact List.mem_append_right _ hmem
    · intro start s env all n vs hprivate hsub hall hvs
      obtain ⟨htemp, hsub⟩ := List.forall_mem_cons.1 hsub
      obtain ⟨hd', hall⟩ := List.forall_mem_cons.1 hall
      cases hvs with
      | cons hv hvs =>
        rw [hrun _ hprivate htemp hd' hv, storeInTurn]
        simp only [bind_assoc]
        -- Neither locating the first target nor storing to it touches the temporaries of the others.
        refine Run.bind_steps fun spot s1 hspot => ?_
        have k1 := hprivate.locate hd' hspot
        refine Run.bind_steps fun _ s2 hput => ?_
        have k2 := k1.still.put (spotted hspot hd') hput
        exact hrest k2.still hsub hall (k2.holding hsub (k1.holding hsub hvs))

/-! ## Targets that nothing disturbs -/

/-- The second store differs from the first in some variables and in tables. -/
def SameBut (written : List String) (s t : Store) : Prop := ∀ f, ∀ y ∉ written, t.content (f, y) = s.content (f, y)

theorem SameBut.holder (h : SameBut written s t) (hy : y ∉ written) :
    ∀ frames, Machine.holder t y frames = Machine.holder s y frames
  | [] => rfl
  | f :: frames => by rw [Machine.holder, Machine.holder, h f y hy, h.holder hy frames]

def Destination.written : Destination → List String
  | var x => [x]
  | global _ | field _ _ _ => []

/-- An expression that has a value whatever becomes of the written variables and of the tables. -/
inductive Steady (env : Env) (written : List String) (s : Store) : Expr → Value → Prop
  | var {y f v} (hy : y ∉ written) (hholder : holder s y env.frames = some f)
      (hv : s.content (f, y) = some (.value v)) : Steady env written s (.var y) v
  | string {text} : Steady env written s (.string text) (.string text)
  | int {i} : Steady env written s (.number (.int i)) (.int i)

/-- A target that is found at a spot whatever becomes of the written variables and of the tables. -/
inductive Located (env : Env) (written : List String) (s : Store) : Destination → Spot → Prop
  | var {x} : Located env written s (.var x) (.var x)
  | global {x} : Located env written s (.global x) (.global x)
  | field {object key o k} (hobject : Steady env written s object o) (hkey : Steady env written s key k) :
      Located env written s (.field [] object key) (.field o k)

section Located

variable {written : List String} {s t : Store}

variable {v : Value}

theorem Steady.eval (h : Steady env written s e v) (hsame : SameBut written s t) :
    evalExpr m env e t = .ok v t := by
  cases h with
  | @var y f _ hy hholder hv =>
    have hlookup : lookup y env.frames t = .ok (.value v) t :=
      lookup_of_holder ((hsame.holder hy env.frames).trans hholder) ((hsame f y hy).trans hv) (by simp)
    rw [evalExpr, readVar, Run.bind_ok hlookup]
    rfl
  | string =>
    rfl
  | int =>
    rw [evalExpr]
    · rfl
    · simp

theorem Located.locate (h : Located env written s d spot) (hsame : SameBut written s t) :
    d.locate m env t = .ok spot t := by
  cases h with
  | var => rfl
  | global => rfl
  | field hobject hkey =>
    rw [Destination.locate, execStmts, pure_bind, Run.bind_ok (hobject.eval hsame), Run.bind_ok (hkey.eval hsame)]
    rfl

theorem sameBut_setRaw {id : Nat} {key : Value} {u : Unit} (h : Run.setRaw id key v s = .ok u t) :
    SameBut written s t := by
  obtain ⟨table, s1, htable, h⟩ := Run.bind_eq_ok h
  cases htable
  cases hset : (s.tables.getD id {}).set key v with
  | ok table =>
    rw [hset] at h
    cases h
    exact fun _ _ _ => rfl
  | error e =>
    rw [hset] at h
    cases h

theorem Located.put (h : Located env written s d spot) (hsub : ∀ x ∈ d.written, x ∈ written)
    (hok : spot.put env v s1 = .ok u t) : SameBut written s1 t := by
  cases h with
  | @var x =>
    rw [Spot.put, assign] at hok
    cases hholder : Machine.holder s1 x env.frames with
    | none =>
      rw [assignHolder_of_none _ hholder] at hok
      cases hok
    | some f =>
      rw [assignHolder_of_holder _ hholder] at hok
      cases hok
      intro g y hy
      refine Store.content_put_of_ne fun hcell => hy (hsub y ?_)
      exact List.mem_singleton.2 (congrArg Prod.snd hcell)
  | global =>
    rw [Spot.put] at hok
    exact sameBut_setRaw hok
  | @field _ _ o k =>
    rw [Spot.put, Access.setIndex.eq_def] at hok
    split at hok
    · exact sameBut_setRaw hok
    · rw [Access.noFields] at hok
      obtain ⟨_, _, -, hok⟩ := Run.bind_eq_ok hok
      cases hok

end Located

def putAll (env : Env) : List Spot → List Value → Run Unit
  | spot :: spots, v :: vs => do
    spot.put env v
    putAll env spots vs
  | _, _ => return ()

def storeAtOnce (m : Machine) (env : Env) (ds : List Destination) (vs : List Value) : Run Unit := do
  let spots ← ds.mapM (Destination.locate m env)
  putAll env spots vs

variable {ds : List Destination} {spots : List Spot}

theorem mapM_locate (h : List.Forall₂ (Located env written s) ds spots) :
    ds.mapM (Destination.locate m env) s = .ok spots s := by
  induction h with
  | nil => rfl
  | cons h _ ih =>
    rw [List.mapM_cons, Run.bind_ok (h.locate fun _ _ _ => rfl), Run.bind_ok ih]
    rfl

theorem storeInTurn_eq_putAll (h : List.Forall₂ (Located env written s) ds spots)
    (hsub : ∀ d ∈ ds, ∀ x ∈ d.written, x ∈ written) (hsame : SameBut written s t) (vs : List Value) :
    storeInTurn m env ds vs t = putAll env spots vs t := by
  induction h generalizing t vs with
  | nil => rfl
  | cons h _ ih =>
    obtain ⟨hd, hsub⟩ := List.forall_mem_cons.1 hsub
    cases vs with
    | nil => rfl
    | cons v vs =>
      -- The store so far differs from the first one in written variables only, and one more is written.
      rw [storeInTurn, putAll, Run.bind_ok (h.locate hsame)]
      refine Run.bind_steps fun _ t' hput => ih hsub (fun f y hy => ?_) vs
      exact (h.put hd hput f y hy).trans (hsame f y hy)

theorem storeInTurn_eq_storeAtOnce (vs : List Value)
    (h : List.Forall₂ (Located env (ds.flatMap Destination.written) s) ds spots) :
    storeInTurn m env ds vs s = storeAtOnce m env ds vs s := by
  rw [storeAtOnce, Run.bind_ok (mapM_locate h)]
  exact storeInTurn_eq_putAll h (fun d hd x hx => List.mem_flatMap.2 ⟨d, hd, hx⟩) (fun _ _ _ => rfl) vs

theorem storeInTurn_key (h : Steady env [x] s object o) :
    storeInTurn m env [.var x, .field [] object (.var x)] [v, w] s =
      (assign env x v >>= fun _ => Access.setIndex o v w) s := by
  rw [storeInTurn, Destination.locate, pure_bind]
  refine Run.bind_steps fun _ s1 hassign => ?_
  have hsame : SameBut [x] s s1 := Located.put (d := .var x) (.var (s := s)) (fun _ => id) hassign
  have hread : evalExpr m env (.var x) s1 = .ok v s1 := by
    exact readVar_assign hassign
  rw [storeInTurn, Destination.locate, execStmts, pure_bind, bind_assoc, Run.bind_ok (h.eval hsame), bind_assoc,
    Run.bind_ok hread, pure_bind, storeInTurn, bind_pure]
  · rfl
  · simp

/-- A statement with several targets evaluates its values, keeps them, and stores them in turn. -/
theorem assignment_stores_in_turn {loc : Loc} {targets values : List TypedLua.Expr} {code : List Stmt}
    {given : List String} (h : StmtCode p (.assign loc targets values) code p' given)
    (hmany : ¬(targets.length = 1 ∧ values.length = 1)) (hspared : p.Spares given) :
    ∃ front list taken temps ds, ListCode p values front list taken ∧ List.Forall₂ (Denotes p) targets ds ∧
      (∀ (n : Nat) (env : Env) (s : Store), Reached s env p → New s env p temps →
        execStmts (within n) env code s = (do
          let vs ← evaluate (within n) env front list
          assignAll env temps (adjust ds.length vs)
          storeInTurn (within n) env ds (adjust ds.length vs)
          return Signal.next) s) ∧
      (∀ (m : Machine) (env : Env) (s : Store) (vs : List Value) (spots : List Spot),
        List.Forall₂ (Located env (ds.flatMap Destination.written) s) ds spots →
        storeInTurn m env ds vs s = storeAtOnce m env ds vs s) ∧
      ∀ (m : Machine) (env : Env) (s : Store) (x : String) (object : Expr) (o v w : Value),
        ds = [.var x, .field [] object (.var x)] → Steady env [x] s object o →
        storeInTurn m env ds [v, w] s = (assign env x v >>= fun _ => Access.setIndex o v w) s := by
  cases h with
  | assignOne => exact absurd ⟨rfl, rfl⟩ hmany
  | @assignMany _ _ _ _ temps front list taken rest given2 _ hlength hholds hvalues htargets =>
    obtain ⟨ds, hds, hnames, hrun⟩ := htargets.run
    have hsize : ds.length = temps.length := hds.length_eq.symm.trans hlength.symm
    have hnodup := List.nodup_append.1 hspared.nodup
    have hunknown : ∀ x ∈ temps, Unknown p (taken ++ given2) x := fun x hx =>
      ⟨fun hmem => hnodup.2.2 x hx x hmem rfl, fun hd heq => hspared.declared hd (heq ▸ List.mem_append_left _ hx)⟩
    refine ⟨front, list, taken, temps, ds, hvalues, hds, fun n env s hreached hnew => ?_,
      fun m env s vs spots hlocated => storeInTurn_eq_storeAtOnce vs hlocated,
      fun m env s x object o v w heq hobject => heq ▸ storeInTurn_key hobject⟩
    -- The temporaries are private to the statement: no value mentions them, and no target does.
    have hprivate := private_start hreached hnew hholds
    have hvalueNames : ∀ x ∈ stmtsNames front ++ (exprsNames list.1 ++ tailNames list.2), x ∉ temps := fun x hx hmem =>
      hvalues.uses.avoids (fun h => (hunknown x hmem).1 (List.mem_append_left _ h)) (fun _ _ _ => (hunknown x hmem).2) hx
    rw [List.forall_mem_append] at hvalueNames
    rw [hvalues.defines.execStmts_append, ← hlength, exec_adjusted_cons hvalues, evaluate, hsize]
    simp only [bind_assoc]
    refine Run.bind_steps fun _ s1 h1 => ?_
    have k1 := hprivate.execStmts hvalueNames.1 h1
    refine Run.bind_steps fun vs s2 h2 => ?_
    have k2 := k1.still.evalList hvalueNames.2 h2
    obtain ⟨s3, hassign, h3, hholding, -⟩ := k2.still.assignAll (fun _ => id) hnodup.1 (length_adjust temps.length vs)
    rw [Run.bind_ok hassign, Run.bind_ok hassign]
    refine hrun h3 (fun _ => id) (fun d hd x hx hmem => ?_) hholding
    exact hnames x ⟨fun h => (hunknown x hmem).1 (List.mem_append_right _ h), (hunknown x hmem).2⟩ d hd hx

def swap : TypedLua.Stmt := .assign none [.name none "a", .name none "b"] [.name none "b", .name none "a"]

def swapCode : List Stmt :=
  [(Adjusted.exact [.global "b", .global "a"]).assign ["_tmp1", "_tmp2"], .setGlobal "a" (.var "_tmp1"),
    .setGlobal "b" (.var "_tmp2")]

def swapPlace : Place := ⟨[chunkDef swapCode], [], 0, false⟩

theorem swap_code : StmtCode swapPlace swap swapCode swapPlace ["_tmp1", "_tmp2"] := by
  have hholds : swapPlace.Holds ["_tmp1", "_tmp2"] := by
    intro x hx
    exact resolve_chunkDef (by revert x; decide)
  exact .assignMany (by simp) rfl hholds (.cons (.global rfl) (.last (.global rfl)))
    (.cons (.global rfl) (.cons (.global rfl) .nil))

theorem swapPlace_spares : swapPlace.Spares ["_tmp1", "_tmp2"] := ⟨by simp, fun h => by cases h⟩

theorem failed_evaluation_stores_nothing_swap : ∃ front list taken, Evaluated swapPlace swap front list taken ∧
    ∀ (m : Machine) (env : Env) (t t' : Store) (e : Stop), evaluate m env front list t = .error e t' →
      execStmts m env swapCode t = .error e t' := by
  obtain ⟨front, list, taken, h, -, hfails⟩ := failed_evaluation_stores_nothing swap_code rfl swapPlace_spares
  exact ⟨front, list, taken, h, hfails⟩

theorem assignment_stores_in_turn_swap : ∃ front list temps ds, List.Forall₂ (Denotes swapPlace)
    [.name none "a", .name none "b"] ds ∧ ∀ n, execStmts (within n) ⟨0, [], [0]⟩ swapCode
      (nestingStore ["_tmp1", "_tmp2"]) = (do
        let vs ← evaluate (within n) ⟨0, [], [0]⟩ front list
        assignAll ⟨0, [], [0]⟩ temps (adjust ds.length vs)
        storeInTurn (within n) ⟨0, [], [0]⟩ ds (adjust ds.length vs)
        return Signal.next) (nestingStore ["_tmp1", "_tmp2"]) := by
  obtain ⟨front, list, taken, temps, ds, -, hds, hrun, -⟩ :=
    assignment_stores_in_turn swap_code (by simp) swapPlace_spares
  exact ⟨front, list, temps, ds, hds, fun n => hrun n _ _ (nestingStore_reached (by with_unfolding_all rfl))
    ⟨(fun h => by cases h), fun hc => absurd hc nestingStore_keeps⟩⟩

end Target.Scoping

end TypedLua
