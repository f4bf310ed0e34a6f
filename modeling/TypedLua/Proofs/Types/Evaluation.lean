import TypedLua.Proofs.Data.Steps
import TypedLua.Proofs.Types.Shape
import TypedLua.Session

/-!
# Types from text to predicate

A type is compiled to an expression over the registry, the expression gets code, and the code is
run: four layers lie between a type and the predicate that it becomes.
-/

namespace TypedLua

open Target Generate

/-! ## Stores that grow -/

structure Store.Grows (s s' : Store) : Prop where
  tables : s.tables.toList <+: s'.tables.toList
  predicates : s.predicates.toList <+: s'.predicates.toList

namespace Store.Grows

variable {s s' s'' : Store}

theorem refl (s : Store) : s.Grows s := ⟨List.prefix_rfl, List.prefix_rfl⟩

theorem trans (h : s.Grows s') (h' : s'.Grows s'') : s.Grows s'' :=
  ⟨h.tables.trans h'.tables, h.predicates.trans h'.predicates⟩

theorem table_eq (h : s.Grows s') {id : Nat} (hid : id < s.tables.size) :
    id < s'.tables.size ∧ s'.tables.getD id {} = s.tables.getD id {} := by
  obtain ⟨rest, hrest⟩ := h.tables
  have htables : s'.tables = s.tables ++ rest.toArray := by
    apply Array.ext'
    rw [← hrest, Array.toList_append]
  simp [htables, Array.getD, Array.getElem_append_left, hid, Nat.lt_add_right]

end Store.Grows

/-! ## The registry -/

namespace Environment

structure IsRegistry (t : Table) (predicates : Array Predicate) : Prop where
  basic : ∀ x p, (x, p) ∈ basicPredicates → ∃ i, t.find (.string x) = .function (.predicate i) ∧
    i < predicates.size ∧ predicates.getD i default = p
  constructors : ∀ x f, (x, f) ∈ typeConstructors → t.find (.string x) = f

def HasRegistry (name : String) (globals : Nat) (s : Store) : Prop :=
  globals < s.tables.size ∧ ∃ id, id < s.tables.size ∧ (s.tables.getD globals {}).find (.string name) = .table id ∧
    IsRegistry (s.tables.getD id {}) s.predicates

theorem HasRegistry.grows
    (h : HasRegistry name globals s) (hgrows : s.Grows s') : HasRegistry name globals s' := by
  obtain ⟨hglobals, id, hid, hfind, hbasic, hconstructors⟩ := h
  obtain ⟨hglobals', hsame⟩ := hgrows.table_eq hglobals
  obtain ⟨hid', hreg⟩ := hgrows.table_eq hid
  refine ⟨hglobals', id, hid', by rw [hsame, hfind], ?_, by rwa [hreg]⟩
  intro x p hmem
  obtain ⟨i, hi, hsize, hp⟩ := hbasic x p hmem
  have hle := Library.size_le_of_isPrefix hgrows.predicates
  refine ⟨i, by rw [hreg, hi], by omega, ?_⟩
  rw [Library.getD_of_isPrefix hgrows.predicates hsize, hp]

end Environment

/-! ## Constructing tables -/

def Row.entry : Row → Access.Entry
  | (none, v) => .positional v
  | (some k, v) => .keyed (.string k) v

namespace Table

theorem withRows_append (t : Table) (n : Int) (rows rows' : List Row) : t.withRows n (rows ++ rows') =
      (t.withRows n rows).withRows (n + (Row.items rows).length) rows' := by
  induction rows generalizing t n with
  | nil => simp [withRows, Row.items]
  | cons row rows ih =>
    obtain ⟨key, v⟩ := row
    cases key with
    | none =>
      have hitems : (Row.items ((none, v) :: rows)).length = (Row.items rows).length + 1 := rfl
      rw [List.cons_append, withRows, withRows, ih, hitems]
      congr 1
      omega
    | some k => exact ih _ _

theorem appendFrom_eq (t : Table) (n : Int) (vs : List Value) :
    t.appendFrom n vs = t.withRows n (vs.map (none, ·)) := by
  induction vs generalizing t n with
  | nil => rfl
  | cons v vs ih => exact ih _ _

end Table

namespace Access

theorem fill_entries (t : Table) (n : Int) (rows : List Row) :
    fill t n (rows.map Row.entry) = .ok (t.withRows n rows, n + (Row.items rows).length) := by
  induction rows generalizing t n with
  | nil => simp [fill, Table.withRows, Row.items]
  | cons row rows ih =>
    obtain ⟨key, v⟩ := row
    cases key with
    | none =>
      have hitems : (Row.items ((none, v) :: rows)).length = (Row.items rows).length + 1 := rfl
      rw [List.map_cons, Row.entry, fill, ih, Table.withRows, hitems]
      congr 2
      omega
    | some k =>
      rw [List.map_cons, Row.entry, fill]
      exact ih _ _

theorem makeTable_entries (rows : List Row) (vs : List Value) (s : Store) :
    makeTable (rows.map Row.entry) vs s = .ok (.table s.tables.size)
      { s with tables := s.tables.push (Table.ofRows (rows ++ vs.map (none, ·))) } := by
  rw [makeTable, fill_entries, Table.ofRows, Table.withRows_append, ← Table.appendFrom_eq]
  rfl

end Access

/-! ## Code that delivers a value -/

namespace Machine

open Annotation Environment Library

variable {registry : String} {m : Machine} {env : Env}

variable {s' : Store} {v : Value} {e : TypedLua.Expr} {fields : List Field} {watch : Watch}
  {n : Nat} {constructor : String} {b : Builtin}

theorem evalExpr_cut (h : evalCall m env code s = .ok (.one v) s') :
    evalExpr m env (cut code) s = .ok v s' := by
  cases code with
  | single e =>
    rw [evalCall] at h
    obtain ⟨a, s1, he, h⟩ := Run.bind_eq_ok h
    cases h
    exact he
  | varargs =>
    rw [evalCall] at h
    cases h
  | call callee args tail | invoke object member args tail =>
    rw [cut, evalExpr, Run.bind_ok h]
    · rfl
    · simp
    · simp

theorem raw_string (ctx : Context) (st : State) (loc : Loc) (text : String) :
    raw ctx (.string loc text) st = .ok (.single (.string text), st) := by
  rw [raw]
  rfl

theorem evalExpr_string (s : Store) (text : String) : evalExpr m env (.string text) s = .ok (.string text) s := by
  rw [evalExpr]
  rfl

/-- The computation makes one value with a property, and the store only grows. -/
def Makes (make : Run Result) (s : Store) (Q : Store → Value → Prop) : Prop :=
  ∃ v s', make s = .ok (.one v) s' ∧ s.Grows s' ∧ Q s' v

/-- An expression without local names of its own: its code takes no name and no statement, and wherever
the registry is at hand it delivers one value with a property. -/
def Gives (registry : String) (m : Machine) (env : Env) (Q : Store → Value → Prop) (e : TypedLua.Expr) : Prop :=
  ∃ code, (∀ ctx st, Context.lookup ctx registry = none → raw ctx e st = .ok (code, st)) ∧
    ∀ s, HasRegistry registry env.globals s → ∃ v s', evalCall m env code s = .ok (.one v) s' ∧ s.Grows s' ∧ Q s' v

def GivesList (registry : String) (m : Machine) (env : Env) (Qs : List (Store → Value → Prop))
    (es : List TypedLua.Expr) : Prop :=
  ∃ list, (∀ ctx st, Context.lookup ctx registry = none → exprList ctx es st = .ok (list, st)) ∧
    ∀ s, HasRegistry registry env.globals s →
      ∃ vs ws s1 s', evalExprs m env list.1 s = .ok vs s1 ∧ evalTail m env list.2 s1 = .ok ws s' ∧
        s.Grows s' ∧ List.Forall₂ (fun Q v => Q s' v) Qs (vs ++ ws)

def Lasting (Q : Store → Value → Prop) : Prop := ∀ ⦃s s' v⦄, s.Grows s' → Q s v → Q s' v

theorem evalTail_lastItem (h : evalCall m env code s = .ok (.one v) s') :
    ∃ vs ws s1, evalExprs m env (lastItem e code).1 s = .ok vs s1 ∧
      evalTail m env (lastItem e code).2 s1 = .ok ws s' ∧ vs ++ ws = [v] := by
  rw [lastItem]
  split
  · refine ⟨[], [v], s, rfl, ?_, rfl⟩
    cases code with
    | varargs =>
      rw [evalCall] at h
      cases h
    | single e | call callee args tail | invoke object member args tail =>
      rw [toTail, evalTail, Run.bind_ok h]
      · rfl
      · simp
  · refine ⟨[v], [], s', ?_, rfl, rfl⟩
    rw [evalExprs, Run.bind_ok (evalExpr_cut h)]
    rfl

theorem givesList {Qs : List (Store → Value → Prop)} {es : List TypedLua.Expr}
    (hlasting : ∀ Q ∈ Qs, Lasting Q) (h : List.Forall₂ (Gives registry m env) Qs es) :
    GivesList registry m env Qs es := by
  induction h with
  | nil => exact ⟨([], none), fun _ _ _ => rfl, fun s _ => ⟨[], [], s, s, rfl, rfl, .refl s, .nil⟩⟩
  | @cons Q e Qs es hhead htail ih =>
    obtain ⟨code, hraw, hrun⟩ := hhead
    cases htail with
    | nil =>
      refine ⟨lastItem e code, ?_, ?_⟩
      · intro ctx st hctx
        rw [exprList, bind_run (hraw ctx st hctx)]
        rfl
      · intro s hs
        obtain ⟨v, s', hv, hgrows, hQ⟩ := hrun s hs
        obtain ⟨vs, ws, s1, hvs, hws, hone⟩ := evalTail_lastItem (e := e) hv
        exact ⟨vs, ws, s1, s', hvs, hws, hgrows, hone ▸ .cons hQ .nil⟩
    | @cons Q' e' Qs' es' hnext hrest =>
      obtain ⟨list, hlist, hruns⟩ := ih fun Q hQ => hlasting Q (List.mem_cons_of_mem _ hQ)
      refine ⟨consItem code list, ?_, ?_⟩
      · intro ctx st hctx
        rw [exprList, bind_run (hraw ctx st hctx), bind_run (hlist ctx st hctx)]
        · rfl
        · simp
      · intro s hs
        obtain ⟨v, s1, hv, hgrows, hQ⟩ := hrun s hs
        obtain ⟨vs, ws, s2, s', hvs, hws, hgrows', hall⟩ := hruns s1 (hs.grows hgrows)
        refine ⟨v :: vs, ws, s2, s', ?_, hws, hgrows.trans hgrows', ?_⟩
        · rw [consItem, evalExprs, Run.bind_ok (evalExpr_cut hv), Run.bind_ok hvs]
          rfl
        · exact .cons (hlasting Q List.mem_cons_self hgrows' hQ) hall

/-! ## Shapes -/

def IsShape (fields : List Field) (s : Store) (v : Value) : Prop :=
  ∃ id rows, v = .table id ∧ id < s.tables.size ∧ s.tables.getD id {} = Table.ofRows rows ∧
    List.Forall₂ (Holds s.predicates) fields rows

def IsPredicate (type : TypedLua.Expr) (s : Store) (v : Value) : Prop := Represents s.predicates type v

theorem lasting_isPredicate (type : TypedLua.Expr) : Lasting (IsPredicate type) :=
  fun _ _ _ hgrows h => h.mono hgrows.predicates

theorem holds_grows {s : Store} (hgrows : s.Grows s')
    (h : List.Forall₂ (Holds s.predicates) fields rows) : List.Forall₂ (Holds s'.predicates) fields rows :=
  h.imp fun _ _ h => h.mono hgrows.predicates

theorem lasting_isShape (fields : List Field) : Lasting (IsShape fields) := by
  rintro s s' v hgrows ⟨id, rows, rfl, hid, htable, hrows⟩
  obtain ⟨hid', htable'⟩ := hgrows.table_eq hid
  exact ⟨id, rows, rfl, hid', htable'.trans htable, holds_grows hgrows hrows⟩

inductive Compiled (registry : String) (m : Machine) (env : Env) : Field → Field → Prop
  | item {loc type e} (h : Gives registry m env (IsPredicate type) e) :
      Compiled registry m env (.mk loc none type) (.mk loc none e)
  | keyed {loc keyLoc k type e} (h : Gives registry m env (IsPredicate type) e) :
      Compiled registry m env (.mk loc (some (.string keyLoc k)) type) (.mk loc (some (.string keyLoc k)) e)

theorem evalItems_positional (h : evalExprs m env values s = .ok vs s') :
    evalItems m env (values.map .positional) s = .ok ((vs.map (none, ·)).map Row.entry) s' := by
  induction values generalizing vs s with
  | nil =>
    rw [evalExprs] at h
    cases h
    rfl
  | cons e values ih =>
    rw [evalExprs] at h
    obtain ⟨v, s1, he, h⟩ := Run.bind_eq_ok h
    obtain ⟨ws, s2, hrest, h⟩ := Run.bind_eq_ok h
    cases h
    rw [List.map_cons, evalItems, Run.bind_ok he, Run.bind_ok (ih hrest)]
    rfl

theorem tableItems_gives (h : List.Forall₂ (Compiled registry m env) fields compiled) :
    ∃ list, (∀ ctx st, Context.lookup ctx registry = none → tableItems ctx compiled st = .ok (list, st)) ∧
      ∀ s, HasRegistry registry env.globals s →
        ∃ rows vs s1 s', evalItems m env list.1 s = .ok (rows.map Row.entry) s1 ∧
          evalTail m env list.2 s1 = .ok vs s' ∧ s.Grows s' ∧
          List.Forall₂ (Holds s'.predicates) fields (rows ++ vs.map (none, ·)) := by
  induction h with
  | nil => exact ⟨([], none), fun _ _ _ => rfl, fun s _ => ⟨[], [], s, s, rfl, rfl, .refl s, .nil⟩⟩
  | @cons field field' fields compiled hhead htail ih =>
    obtain ⟨list, hitems, hrest⟩ := ih
    cases hhead with
    | @keyed loc keyLoc k type e he =>
      obtain ⟨code, hraw, hrun⟩ := he
      refine ⟨(.keyed (.string k) (cut code) :: list.1, list.2), ?_, ?_⟩
      · intro ctx st hctx
        rw [tableItems, bind_run (raw_string ..), bind_run (hraw ctx st hctx), bind_run (hitems ctx st hctx)]
        rfl
      · intro s hs
        obtain ⟨v, s1, hv, hgrows, hQ⟩ := hrun s hs
        obtain ⟨rows, vs, s2, s', hrows, hvs, hgrows', hall⟩ := hrest s1 (hs.grows hgrows)
        refine ⟨(some k, v) :: rows, vs, s2, s', ?_, hvs, hgrows.trans hgrows', ?_⟩
        · rw [evalItems, Run.bind_ok (evalExpr_string ..), Run.bind_ok (evalExpr_cut hv), Run.bind_ok hrows]
          rfl
        · exact .cons (.keyed (Represents.mono hQ hgrows'.predicates)) hall
    | @item loc type e he =>
      obtain ⟨code, hraw, hrun⟩ := he
      cases htail with
      | nil =>
        refine ⟨((lastItem e code).1.map .positional, (lastItem e code).2), ?_, ?_⟩
        · intro ctx st hctx
          rw [tableItems, bind_run (hraw ctx st hctx)]
          rfl
        · intro s hs
          obtain ⟨v, s', hv, hgrows, hQ⟩ := hrun s hs
          obtain ⟨vs, ws, s1, hvs, hws, hone⟩ := evalTail_lastItem (e := e) hv
          refine ⟨vs.map (none, ·), ws, s1, s', evalItems_positional hvs, hws, hgrows, ?_⟩
          rw [← List.map_append, hone]
          exact .cons (.item hQ) .nil
      | @cons field2 field2' fields2 compiled2 hnext htail2 =>
        refine ⟨(.positional (cut code) :: list.1, list.2), ?_, ?_⟩
        · intro ctx st hctx
          rw [tableItems, bind_run (hraw ctx st hctx), bind_run (hitems ctx st hctx)]
          · rfl
          · simp
        · intro s hs
          obtain ⟨v, s1, hv, hgrows, hQ⟩ := hrun s hs
          obtain ⟨rows, vs, s2, s', hrows, hvs, hgrows', hall⟩ := hrest s1 (hs.grows hgrows)
          refine ⟨(none, v) :: rows, vs, s2, s', ?_, hvs, hgrows.trans hgrows', ?_⟩
          · rw [evalItems, Run.bind_ok (evalExpr_cut hv), Run.bind_ok hrows]
            rfl
          · exact .cons (.item (Represents.mono hQ hgrows'.predicates)) hall

theorem gives_table (loc : Loc) (h : List.Forall₂ (Compiled registry m env) fields compiled) :
    Gives registry m env (IsShape fields) (.table loc compiled) := by
  obtain ⟨list, hitems, hrun⟩ := tableItems_gives h
  refine ⟨.single (.table list.1 list.2), ?_, ?_⟩
  · intro ctx st hctx
    rw [raw, bind_run (hitems ctx st hctx)]
    rfl
  · intro s hs
    obtain ⟨rows, vs, s1, s', hrows, hvs, hgrows, hall⟩ := hrun s hs
    let made : Store := { s' with tables := s'.tables.push (Table.ofRows (rows ++ vs.map (none, ·))) }
    have hpush : s'.Grows made := by
      refine ⟨?_, List.prefix_rfl⟩
      rw [Array.toList_push]
      exact List.prefix_append _ _
    have htable : evalExpr m env (.table list.1 list.2) s = .ok (.table s'.tables.size) made := by
      rw [evalExpr, Run.bind_ok hrows, Run.bind_ok hvs, Access.makeTable_entries]
    refine ⟨.table s'.tables.size, made, ?_, hgrows.trans hpush, ?_⟩
    · rw [evalCall, Run.bind_ok htable]
      rfl
    · exact ⟨_, _, rfl, by simp [made], by simp [Array.getD, made], hall⟩

/-! ## Calls of constructors -/

theorem raw_registryEntry {ctx : Context} (hctx : ctx.lookup registry = none) (loc : Loc) (x : String) :
    raw ctx (registryEntry registry loc x) st = .ok (.single (.index (.global registry) (.string x)), st) := by
  have hname : raw ctx (.name loc registry) st = .ok (.single (.global registry), st) := by
    rw [raw, hctx]
    rfl
  rw [registryEntry, raw, bind_run hname, bind_run (raw_string ..)]
  rfl

theorem evalExpr_entry (hs : HasRegistry registry env.globals s) :
    ∃ t, IsRegistry t s.predicates ∧ ∀ x v, t.find (.string x) = v → v.isNil = false →
      evalExpr m env (.index (.global registry) (.string x)) s = .ok v s := by
  obtain ⟨-, id, -, hfind, hreg⟩ := hs
  refine ⟨_, hreg, ?_⟩
  intro x v hv hnil
  have hglobal : evalExpr m env (.global registry) s = .ok (.table id) s := by
    rw [evalExpr, Run.getRaw_run, ← hfind]
    rfl
  have hget : (s.tables.getD id {}).get (.string x) = v := hv
  rw [evalExpr, Run.bind_ok hglobal, Run.bind_ok (evalExpr_string ..)]
  show Access.indexFrom m.call (.string x) (s.tables.size + 1) (.table id) s = _
  rw [Access.indexFrom]
  show (if !((s.tables.getD id {}).get (.string x)).isNil then _ else _ : Run Value) s = _
  rw [hget, hnil]
  rfl

theorem gives_basic (hx : x ∈ basicPredicates.map (·.1)) (loc : Loc) :
    Gives registry m env (IsPredicate (.name loc x)) (registryEntry registry loc x) := by
  refine ⟨_, fun ctx st hctx => raw_registryEntry hctx loc x, ?_⟩
  intro s hs
  obtain ⟨t, hreg, heval⟩ := evalExpr_entry (m := m) hs
  obtain ⟨⟨x, p⟩, hmem, rfl⟩ := List.mem_map.1 hx
  obtain ⟨i, hi, hsize, hp⟩ := hreg.basic x p hmem
  refine ⟨.function (.predicate i), s, ?_, .refl s, represents_basic hmem hsize hp⟩
  rw [evalCall, Run.bind_ok (heval x _ hi rfl)]
  rfl

theorem gives_constructor (hcall : m.call = callWithin watch (n + 1))
    (hmem : ("__" ++ constructor, builtin b) ∈ typeConstructors) {Qs : List (Store → Value → Prop)}
    {args : List TypedLua.Expr} (hlasting : ∀ Q ∈ Qs, Lasting Q)
    (hargs : List.Forall₂ (Gives registry m env) Qs args) {Q : Store → Value → Prop}
    (happly : ∀ (call : Caller) s vs, List.Forall₂ (fun Q v => Q s v) Qs vs → Makes (apply call b vs) s Q)
    (loc : Loc) :
    Gives registry m env Q (constructorCall registry loc constructor args) := by
  obtain ⟨list, hlist, hruns⟩ := givesList hlasting hargs
  refine ⟨.call (.index (.global registry) (.string ("__" ++ constructor))) list.1 list.2, ?_, ?_⟩
  · intro ctx st hctx
    rw [constructorCall, raw, bind_run (raw_registryEntry hctx loc _), bind_run (hlist ctx st hctx)]
    rfl
  · intro s hs
    obtain ⟨t, hreg, heval⟩ := evalExpr_entry (m := m) hs
    obtain ⟨vs, ws, s1, s2, hvs, hws, hgrows, hall⟩ := hruns s hs
    obtain ⟨v, s', hv, hgrows', hQ⟩ := happly (callWithin watch n) s2 (vs ++ ws) hall
    refine ⟨v, s', ?_, hgrows.trans hgrows', hQ⟩
    rw [evalCall, Run.bind_ok (heval _ _ (hreg.constructors _ _ hmem) rfl), Run.bind_ok hvs,
      Run.bind_ok hws, hcall, builtin, callWithin]
    exact hv

theorem gives_constructor_one (hcall : m.call = callWithin watch (n + 1))
    (hmem : ("__" ++ constructor, builtin b) ∈ typeConstructors) {P Q : Store → Value → Prop}
    (hP : Lasting P) (he : Gives registry m env P e) (happly : ∀ (call : Caller) s v, P s v →
      Makes (apply call b [v]) s Q) (loc : Loc) :
    Gives registry m env Q (constructorCall registry loc constructor [e]) := by
  have hlasting : ∀ P' ∈ [P], Lasting P' := by simp [hP]
  refine gives_constructor hcall hmem hlasting (.cons he .nil) ?_ loc
  intro call s vs hvs
  obtain ⟨v, rest, hv, hrest, rfl⟩ := List.forall₂_cons_left_iff.1 hvs
  rw [List.forall₂_nil_left_iff.1 hrest]
  exact happly call s v hv

theorem gives_constructor_two (hcall : m.call = callWithin watch (n + 1))
    (hmem : ("__" ++ constructor, builtin b) ∈ typeConstructors) {P P' Q : Store → Value → Prop}
    {e' : TypedLua.Expr} (hP : Lasting P) (hP' : Lasting P') (he : Gives registry m env P e)
    (he' : Gives registry m env P' e') (happly : ∀ (call : Caller) s v v', P s v → P' s v' →
      Makes (apply call b [v, v']) s Q) (loc : Loc) :
    Gives registry m env Q (constructorCall registry loc constructor [e, e']) := by
  have hlasting : ∀ R ∈ [P, P'], Lasting R := by simp [hP, hP']
  refine gives_constructor hcall hmem hlasting (.cons he (.cons he' .nil)) ?_ loc
  intro call s vs hvs
  obtain ⟨v, rest, hv, hrest, rfl⟩ := List.forall₂_cons_left_iff.1 hvs
  obtain ⟨v', rest', hv', hrest', rfl⟩ := List.forall₂_cons_left_iff.1 hrest
  rw [List.forall₂_nil_left_iff.1 hrest']
  exact happly call s v v' hv hv'

/-! ## Descriptions -/

theorem describeType_run (v : Value) (s : Store) : ∃ d, describeType v s = .ok d s := by
  rw [describeType.eq_def]
  split
  · exact ⟨_, rfl⟩
  · exact ⟨_, rfl⟩

theorem describeTypes_run (vs : List Value) (s : Store) : ∃ ds, describeTypes vs s = .ok ds s := by
  induction vs with
  | nil => exact ⟨[], rfl⟩
  | cons v vs ih =>
    obtain ⟨d, hd⟩ := describeType_run v s
    obtain ⟨ds, hds⟩ := ih
    refine ⟨d :: ds, ?_⟩
    rw [describeTypes, Run.bind_ok hd, Run.bind_ok hds]
    rfl

theorem describeFields_run {fields : List (Key × Value)} (s : Store)
    (h : ∀ e ∈ fields, e.1.toValue.isWritable = true) : ∃ ds, describeFields fields s = .ok ds s := by
  induction fields with
  | nil => exact ⟨[], rfl⟩
  | cons e fields ih =>
    obtain ⟨key, v⟩ := e
    obtain ⟨d, hd⟩ := describeType_run v s
    obtain ⟨ds, hds⟩ := ih fun e he => h e (List.mem_cons_of_mem _ he)
    have hkey : Run.textOf key.toValue s = .ok key.toValue.text s := by
      rw [Run.textOf, if_pos (h _ List.mem_cons_self)]
      rfl
    rw [describeFields, Run.bind_ok hkey, Run.bind_ok hd, Run.bind_ok hds]
    exact ⟨_, rfl⟩

theorem shapeType_run {s : Store} {id : Nat} {t : Table} (ht : s.tables.getD id {} = t)
    (h : ∀ e ∈ t.fields, e.1.toValue.isWritable = true) :
    ∃ d, shapeType (.table id) s = Run.newPredicate ⟨d, .shape t.sequence t.fields⟩ s := by
  obtain ⟨ds, hds⟩ := describeFields_run s h
  obtain ⟨ds', hds'⟩ := describeTypes_run t.sequence s
  have hread : Run.table id s = .ok t s := by rw [Run.table, ht]
  rw [shapeType, Run.bind_ok hread, Run.bind_ok hds, Run.bind_ok hds']
  exact ⟨_, rfl⟩

/-! ## What constructors make -/

theorem grows_newPredicate (s : Store) (p : Predicate) : s.Grows { s with predicates := s.predicates.push p } :=
  ⟨List.prefix_rfl, isPrefix_push p⟩

variable {call : Caller} {s : Store} {loc : Loc} {type left right : TypedLua.Expr}

theorem single_newPredicate (hmake : ∃ d, make s = Run.newPredicate ⟨d, test⟩ s) (h : ∀ d, IsPredicate type
      { s with predicates := s.predicates.push ⟨d, test⟩ } (.function (.predicate s.predicates.size))) :
    Makes (single make) s (IsPredicate type) := by
  obtain ⟨d, hd⟩ := hmake
  refine ⟨_, _, ?_, grows_newPredicate s ⟨d, test⟩, h d⟩
  rw [single, Run.bind_ok hd]
  rfl

theorem apply_literalType (text : String) :
    Makes (apply call .literalType [.string text]) s (IsPredicate (.string loc text)) :=
  single_newPredicate ⟨_, rfl⟩ fun _ => represents_literal

theorem apply_unionType (hl : IsPredicate left s l) (hr : IsPredicate right s r) :
    Makes (apply call .unionType [l, r]) s (IsPredicate (.binary loc left .or right)) := by
  obtain ⟨d, hd⟩ := describeType_run l s
  obtain ⟨d', hd'⟩ := describeType_run r s
  have hmake : unionType l r s = Run.newPredicate ⟨d ++ " or " ++ d', .union l r⟩ s := by
    rw [unionType, Run.bind_ok hd, Run.bind_ok hd']
  exact single_newPredicate ⟨_, hmake⟩ fun _ => represents_union hl hr

theorem apply_intersectionType (hl : IsPredicate left s l) (hr : IsPredicate right s r) :
    Makes (apply call .intersectionType [l, r]) s (IsPredicate (.binary loc left .and right)) := by
  obtain ⟨d, hd⟩ := describeType_run l s
  obtain ⟨d', hd'⟩ := describeType_run r s
  have hmake : intersectionType l r s = Run.newPredicate ⟨d ++ " and " ++ d', .intersection l r⟩ s := by
    rw [intersectionType, Run.bind_ok hd, Run.bind_ok hd']
  exact single_newPredicate ⟨_, hmake⟩ fun _ => represents_intersection hl hr

theorem apply_complementType (h : IsPredicate type s v) :
    Makes (apply call .complementType [v]) s (IsPredicate (.unary loc .not type)) := by
  obtain ⟨d, hd⟩ := describeType_run v s
  have hmake : complementType v s = Run.newPredicate ⟨"not " ++ d, .complement v⟩ s := by
    rw [complementType, Run.bind_ok hd]
  exact single_newPredicate ⟨_, hmake⟩ fun _ => represents_complement h

theorem apply_shapeType (h : IsShape fields s v) :
    Makes (apply call .shapeType [v]) s (IsPredicate (.table loc fields)) := by
  obtain ⟨id, rows, rfl, -, htable, hrows⟩ := h
  refine single_newPredicate (shapeType_run htable ?_) fun _ => represents_shape hrows
  intro e he
  obtain ⟨k, hk, -⟩ := (Table.mem_fields_ofRows (isNil_of_holds hrows) e).1 he
  rw [hk]
  rfl

theorem apply_functionType {params : List TypedLua.Expr} {body : TypedLua.Block}
    (hv : IsShape fields s v) (hw : IsPredicate type s w) :
    Makes (apply call .functionType [v, w]) s (IsPredicate (.signature loc params body)) := by
  obtain ⟨id, rows, rfl, -⟩ := hv
  obtain ⟨i, rfl, -⟩ := hw
  obtain ⟨ds, hds⟩ := describeTypes_run (s.tables.getD id {}).sequence s
  have hmake : ∃ d, functionType (.table id) (.function (.predicate i)) s = Run.newPredicate ⟨d, .function⟩ s := by
    have hread : Run.table id s = .ok (s.tables.getD id {}) s := rfl
    rw [functionType, Run.bind_ok hread, pure_bind]
    beta_reduce
    rw [Run.bind_ok hds]
    exact ⟨_, rfl⟩
  exact single_newPredicate hmake fun _ => represents_function

/-! ## All types -/

theorem gives_string (loc : Loc) (text : String) :
    Gives registry m env (fun _ v => v = .string text) (.string loc text) := by
  refine ⟨.single (.string text), fun ctx st _ => raw_string .., fun s _ => ⟨.string text, s, ?_, .refl s, rfl⟩⟩
  rw [evalCall, Run.bind_ok (evalExpr_string ..)]
  rfl

section Types

variable {watch : Watch} {n : Nat}

mutual

theorem compileType_gives (hcall : m.call = callWithin watch (n + 1)) : (e : TypedLua.Expr) → e.isType →
    ∃ p, compileType registry [] e = .ok p ∧ Gives registry m env (IsPredicate e) p
  | .name loc x, h => by
    rw [Expr.isType, List.contains_iff_mem] at h
    exact ⟨_, rfl, gives_basic h loc⟩
  | .nil loc, _ => by
    have hbasic : Gives registry m env (IsPredicate (.name loc "nil")) (registryEntry registry loc "nil") :=
      gives_basic (by decide) loc
    obtain ⟨code, hraw, hrun⟩ := hbasic
    refine ⟨_, rfl, code, hraw, ?_⟩
    intro s hs
    obtain ⟨v, s', hv, hgrows, hQ⟩ := hrun s hs
    exact ⟨v, s', hv, hgrows, represents_nil hQ⟩
  | .string loc text, _ => by
    refine ⟨_, rfl, gives_constructor_one hcall (b := .literalType) (by decide)
      (fun _ _ _ _ h => h) (gives_string loc text) ?_ loc⟩
    rintro call s v rfl
    exact apply_literalType text
  | .table loc fields, h => by
    rw [Expr.isType] at h
    obtain ⟨compiled, hcompiled, hfields⟩ := compileFields_gives hcall fields h
    refine ⟨constructorCall registry loc "table" [.table loc compiled], ?_, ?_⟩
    · rw [compileType, hcompiled]
      rfl
    · exact gives_constructor_one hcall (b := .shapeType) (by decide) (lasting_isShape fields)
        (gives_table loc hfields) (fun _ _ _ => apply_shapeType) loc
  | .binary loc left op right, h => by
    rw [Expr.isType, Bool.and_eq_true, Bool.and_eq_true] at h
    obtain ⟨⟨hop, hleft⟩, hright⟩ := h
    obtain ⟨l, hl, hgivesl⟩ := compileType_gives hcall left hleft
    obtain ⟨r, hr, hgivesr⟩ := compileType_gives hcall right hright
    refine ⟨constructorCall registry loc op.text [l, r], ?_, ?_⟩
    · rw [compileType, hl, hr]
      rfl
    · simp only [Bool.or_eq_true, beq_iff_eq] at hop
      rcases hop with rfl | rfl
      · exact gives_constructor_two hcall (b := .unionType) (by decide) (lasting_isPredicate left)
          (lasting_isPredicate right) hgivesl hgivesr (fun _ _ _ _ => apply_unionType) loc
      · exact gives_constructor_two hcall (b := .intersectionType) (by decide)
          (lasting_isPredicate left) (lasting_isPredicate right) hgivesl hgivesr
          (fun _ _ _ _ => apply_intersectionType) loc
  | .unary loc op operand, h => by
    rw [Expr.isType, Bool.and_eq_true, beq_iff_eq] at h
    obtain ⟨rfl, hoperand⟩ := h
    obtain ⟨p, hp, hgives⟩ := compileType_gives hcall operand hoperand
    refine ⟨constructorCall registry loc "not" [p], ?_, ?_⟩
    · rw [compileType, hp]
      rfl
    · exact gives_constructor_one hcall (b := .complementType) (by decide)
        (lasting_isPredicate operand) hgives (fun _ _ _ => apply_complementType) loc
  | .signature loc params (.mk bodyLoc [.returnValues returnLoc [result]]), h => by
    rw [Expr.isType, Bool.and_eq_true] at h
    obtain ⟨ps, hps, hgives⟩ := compileTypes_gives hcall params h.1
    obtain ⟨p, hp, hres⟩ := compileType_gives hcall result h.2
    refine ⟨constructorCall registry loc "function" [.table loc (ps.map (.mk none none ·)), p], ?_, ?_⟩
    · rw [compileType, hps, hp]
      rfl
    · exact gives_constructor_two hcall (b := .functionType) (by decide) (lasting_isShape _)
        (lasting_isPredicate result) (gives_table loc hgives) hres
        (fun _ _ _ _ => apply_functionType) loc

theorem compileTypes_gives (hcall : m.call = callWithin watch (n + 1)) : (es : List TypedLua.Expr) → areTypes es →
    ∃ ps, compileTypes registry [] es = .ok ps ∧ List.Forall₂ (Compiled registry m env)
      (es.map (.mk none none ·)) (ps.map (.mk none none ·))
  | [], _ => ⟨[], rfl, .nil⟩
  | e :: es, h => by
    rw [areTypes, Bool.and_eq_true] at h
    obtain ⟨p, hp, hgives⟩ := compileType_gives hcall e h.1
    obtain ⟨ps, hps, hrest⟩ := compileTypes_gives hcall es h.2
    refine ⟨p :: ps, ?_, .cons (.item hgives) hrest⟩
    rw [compileTypes, hp, hps]
    rfl

theorem compileFields_gives (hcall : m.call = callWithin watch (n + 1)) : (fields : List Field) → areShape fields →
    ∃ compiled, compileFields registry [] fields = .ok compiled ∧
      List.Forall₂ (Compiled registry m env) fields compiled
  | [], _ => ⟨[], rfl, .nil⟩
  | .mk loc none type :: fields, h => by
    rw [areShape, Bool.and_eq_true] at h
    obtain ⟨p, hp, hgives⟩ := compileType_gives hcall type h.1
    obtain ⟨compiled, hcompiled, hrest⟩ := compileFields_gives hcall fields h.2
    refine ⟨.mk loc none p :: compiled, ?_, .cons (.item hgives) hrest⟩
    rw [compileFields, hp, hcompiled]
    rfl
  | .mk loc (some (.string keyLoc k)) type :: fields, h => by
    rw [areShape, Bool.and_eq_true] at h
    obtain ⟨p, hp, hgives⟩ := compileType_gives hcall type h.1
    obtain ⟨compiled, hcompiled, hrest⟩ := compileFields_gives hcall fields h.2
    refine ⟨.mk loc (some (.string keyLoc k)) p :: compiled, ?_, .cons (.keyed hgives) hrest⟩
    rw [compileFields, hp, hcompiled]
    rfl

end

end Types

end Machine

end TypedLua
