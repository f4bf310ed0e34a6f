import TypedLua.Annotation.Instrument
import TypedLua.Proofs.Checking.Hoists
import TypedLua.Proofs.Data.Association
import TypedLua.Proofs.Data.Steps

/-!
# Steps that insert checks

What the steps of the pass do to values, in terms of positions: a step that checks the value at one
position leaves the others alone, and so the value at each position is checked with the predicate of
its own target.
-/

namespace TypedLua

namespace Instrument

variable {α β : Type}

def Yields (m : Pass α) (Q : α → Prop) : Prop := ∀ ⦃st a st'⦄, m st = .ok (a, st') → Q a

theorem Yields.pure {Q : β → Prop} {b : β} (h : Q b) : Yields (pure b) Q := by
  intro st b st' hrun
  cases hrun
  exact h

theorem Yields.bind {P : α → Prop} {Q : β → Prop} {m : Pass α} {f : α → Pass β} (hm : Yields m P)
    (hf : ∀ a, P a → Yields (f a) Q) : Yields (m >>= f) Q := by
  intro st b st'' hrun
  obtain ⟨a, st', ha, hb⟩ := bind_ok hrun
  exact hf a (hm ha) hb

end Instrument

namespace Target.Scoping

open Instrument

/-! ## Widths -/

section Width

variable {α : Type}

theorem width_append_none (ps : List (Option α)) : width (ps ++ [none]) = width ps := by
  induction ps with
  | nil => rfl
  | cons p ps ih => rw [List.cons_append, width, width, ih]

theorem width_append_some (ps : List (Option α)) (p : α) : width (ps ++ [some p]) = ps.length + 1 := by
  induction ps with
  | nil => rfl
  | cons q ps ih => rw [List.cons_append, width, ih, List.length_cons, if_neg (Nat.succ_ne_zero _)]

theorem width_le_length (ps : List (Option α)) : width ps ≤ ps.length := by
  induction ps with
  | nil => exact Nat.le_refl 0
  | cons p ps ih =>
    rw [width, List.length_cons]
    have hp : p.toList.length ≤ 1 := by cases p <;> simp
    split <;> omega

theorem join_of_width_le (h : width ps ≤ i) : ps[i]?.join = none := by
  induction ps generalizing i with
  | nil => rfl
  | cons p ps ih =>
    rw [width] at h
    cases i with
    | zero =>
      cases p with
      | none => rfl
      | some p =>
        split at h
        · cases h
        · omega
    | succ i =>
      apply ih
      split at h <;> omega

theorem join_append (ps : List (Option α)) (p : Option α) (i : Nat) :
    (ps ++ [p])[i]?.join = if i = ps.length then p else ps[i]?.join := by
  by_cases hi : i = ps.length
  · subst hi
    simp
  · rw [if_neg hi]
    rcases Nat.lt_or_gt_of_ne hi with hlt | hgt
    · rw [List.getElem?_append_left hlt]
    · rw [List.getElem?_eq_none (by simp; omega), List.getElem?_eq_none (by omega)]

end Width

/-! ## Values at positions -/

namespace Guarded

variable {ps : List (Option TypedLua.Expr)} {values guarded : List TypedLua.Expr}

theorem refl (values : List TypedLua.Expr) : Guarded [] values values where
  length := (Nat.max_zero _).symm
  checked _ v' hv' := ⟨v', .value hv', .plain⟩

theorem skip (h : Guarded ps values guarded) : Guarded (ps ++ [none]) values guarded where
  length := by
    rw [width_append_none]
    exact h.length
  checked i v' hv' := by
    obtain ⟨v, hv, hchecked⟩ := h.checked i v' hv'
    refine ⟨v, hv, ?_⟩
    rw [join_append]
    split
    · next hi =>
      rw [join_of_width_le (hi ▸ width_le_length ps)] at hchecked
      exact hchecked
    · exact hchecked

theorem supplied_next (h : Guarded ps values guarded) {v : TypedLua.Expr}
    (hv : (guarded ++ List.replicate (ps.length + 1 - guarded.length) (.nil loc))[ps.length]? = some v) :
    Supplied values ps.length v := by
  rcases Nat.lt_or_ge ps.length guarded.length with hlt | hge
  · rw [List.getElem?_append_left hlt] at hv
    obtain ⟨v', hv', hchecked⟩ := h.checked _ _ hv
    rw [join_of_width_le (width_le_length ps)] at hchecked
    cases hchecked
    exact hv'
  · rw [List.getElem?_append_right hge, List.getElem?_replicate] at hv
    have hlen := h.length
    split at hv
    · cases hv
      exact .missing (by omega)
    · cases hv

theorem check (h : Guarded ps values guarded) {p : TypedLua.Expr} {loc : Loc}
    {guarded' : List TypedLua.Expr} {st st' : State}
    (hrun : guardAt p loc ps.length guarded st = .ok (guarded', st')) : Guarded (ps ++ [some p]) values guarded' := by
  have hlen := h.length
  have hwidth := width_le_length ps
  rw [guardAt] at hrun
  generalize hpadded : guarded ++ List.replicate (ps.length + 1 - guarded.length) (.nil loc) = padded at hrun
  have hsize : padded.length = max guarded.length (ps.length + 1) := by
    rw [← hpadded, List.length_append, List.length_replicate]
    omega
  have hget : padded[ps.length]? = some (padded.get ⟨ps.length, by omega⟩) := List.getElem?_eq_getElem _
  generalize padded.get ⟨ps.length, _⟩ = term at hget
  rw [hget] at hrun
  obtain ⟨checked, st1, hguard, hrun⟩ := bind_ok hrun
  cases hrun
  cases hguard
  refine ⟨by rw [List.length_set, width_append_some]; omega, ?_⟩
  intro i v' hv'
  rw [join_append]
  by_cases hi : i = ps.length
  · subst hi
    rw [List.getElem?_set_self (by omega)] at hv'
    cases hv'
    refine ⟨term, h.supplied_next (hpadded ▸ hget), ?_⟩
    rw [if_pos rfl]
    exact .check _
  · rw [List.getElem?_set_ne (Ne.symm hi), ← hpadded] at hv'
    rw [if_neg hi]
    rcases Nat.lt_or_ge i guarded.length with hin | hout
    · rw [List.getElem?_append_left hin] at hv'
      exact h.checked i v' hv'
    · -- A position that is filled up here has no predicate, since the width does not reach it.
      rw [List.getElem?_append_right hout, List.getElem?_replicate] at hv'
      rw [join_of_width_le (by omega)]
      split at hv'
      · cases hv'
        exact ⟨_, .missing (by omega), .plain⟩
      · cases hv'

end Guarded

/-! ## Names in scope -/

end Target.Scoping

namespace Scope

variable {α : Type}

theorem lookup_declareAll (bindings : List (String × Option α)) (scope : Scope α) (x : String) :
    List.lookup x (scope.declareAll bindings) = (bindings.reverse.lookup x).or (List.lookup x scope) := by
  induction bindings generalizing scope with
  | nil => rfl
  | cons binding bindings ih =>
    obtain ⟨y, known⟩ := binding
    change List.lookup x ((scope.declare y known).declareAll bindings) = _
    rw [ih, List.reverse_cons, List.lookup_append, declare]
    by_cases hy : x = y
    · subst hy
      cases bindings.reverse.lookup x <;> simp
    · rw [Association.lookup_put_of_ne hy, Association.lookup_cons_of_ne (Ne.symm hy)]
      cases bindings.reverse.lookup x <;> rfl

theorem lookup_ofBindings (bindings : List (String × Option α)) (x : String) :
    List.lookup x (ofBindings bindings) = bindings.reverse.lookup x := by
  rw [ofBindings, lookup_declareAll]
  exact Option.or_none

theorem nodup_declareAll (bindings : List (String × Option α)) {scope : Scope α}
    (h : (scope.map (·.1)).Nodup) : ((scope.declareAll bindings).map (·.1)).Nodup := by
  induction bindings generalizing scope with
  | nil => exact h
  | cons binding bindings ih => exact ih (Association.nodup_keys_put _ _ h)

end Scope

namespace Scopes

variable {α : Type}

theorem lookup_declareAll (bindings : List (String × Option α)) (scopes : Scopes α) (x : String) :
    (scopes.declareAll bindings).lookup x = (bindings.reverse.lookup x).getD (scopes.lookup x) := by
  cases scopes with
  | nil =>
    simp only [declareAll, lookup, Scope.lookup_ofBindings]
    cases bindings.reverse.lookup x <;> rfl
  | cons scope rest =>
    simp only [declareAll, lookup, Scope.lookup_declareAll]
    cases bindings.reverse.lookup x <;> rfl

theorem lookup_declareAll_ofBindings (bindings : List (String × Option α)) (scopes : Scopes α)
    (x : String) : (scopes.declareAll (Scope.ofBindings bindings)).lookup x =
      (bindings.reverse.lookup x).getD (scopes.lookup x) := by
  have hnil : (([] : Scope α).map (·.1)).Nodup := List.nodup_nil
  have hnodup : ((Scope.ofBindings bindings).map (·.1)).Nodup := Scope.nodup_declareAll bindings hnil
  rw [lookup_declareAll, Association.lookup_reverse hnodup, Scope.lookup_ofBindings]

theorem lookup_nested (bindings : List (String × Option α)) (scopes : Scopes α) (x : String) :
    lookup x (Scope.ofBindings bindings :: scopes) = (bindings.reverse.lookup x).getD (scopes.lookup x) := by
  rw [lookup, Scope.lookup_ofBindings]
  cases bindings.reverse.lookup x <;> rfl

end Scopes

namespace Target.Scoping

open Instrument

/-- The bindings of a construct: its names without predicates, and then those with annotations. -/
def bindings (names : List String) (ps : List (String × TypedLua.Expr)) : List (String × Option TypedLua.Expr) :=
  names.map (·, none) ++ ps.map fun q => (q.1, some q.2)

theorem lookup_bindings (names : List String) (ps : List (String × TypedLua.Expr)) (x : String) :
    (bindings names ps).reverse.lookup x = ((lastOf ps x).map some).or (if x ∈ names then some none else none) := by
  have hps (qs : List (String × TypedLua.Expr)) :
      (qs.map fun q => (q.1, some q.2)).lookup x = (qs.lookup x).map some := by
    induction qs with
    | nil => rfl
    | cons q qs ih =>
      rw [List.map_cons, List.lookup_cons, List.lookup_cons, ih]
      cases x == q.1 <;> rfl
  have hnames (ys : List String) : (ys.map fun y => (y, (none : Option TypedLua.Expr))).lookup x =
      if x ∈ ys then some none else none := by
    induction ys with
    | nil => rfl
    | cons y ys ih =>
      rw [List.map_cons, List.lookup_cons, ih]
      by_cases hy : x = y
      · simp [hy]
      · simp [hy, beq_false_of_ne hy]
  rw [bindings, List.reverse_append, List.lookup_append, ← List.map_reverse, ← List.map_reverse, hps, hnames, lastOf]
  simp only [List.mem_reverse]

namespace Site

theorem place_declareAll (s : Site) (known : String → Option TypedLua.Expr) (pairs : List (String × String)) :
    (s.declareAll known pairs).place = s.place.declareAll pairs := by
  induction pairs generalizing s with
  | nil => rfl
  | cons pair pairs ih => exact ih (s.declare pair.1 pair.2 (known pair.1))

theorem declareAll_result (s : Site) (known : String → Option TypedLua.Expr)
    (pairs : List (String × String)) : (s.declareAll known pairs).result = s.result := by
  induction pairs generalizing s with
  | nil => rfl
  | cons pair pairs ih => exact ih (s.declare pair.1 pair.2 (known pair.1))

theorem predicate_declare (s : Site) (x name : String) (known : Option TypedLua.Expr) (y : String) :
    (s.declare x name known).predicate y = if y = x then known else s.predicate y := by
  rw [predicate, find, declare, List.find?_cons]
  by_cases hy : y = x
  · simp [hy]
  · rw [beq_false_of_ne (Ne.symm hy), if_neg hy]
    rfl

theorem predicate_declareAll (s : Site) (known : String → Option TypedLua.Expr)
    {names fresh : List String} (hlen : fresh.length = names.length) (x : String) :
    (s.declareAll known (names.zip fresh)).predicate x = if x ∈ names then known x else s.predicate x := by
  induction names generalizing s fresh with
  | nil => rfl
  | cons y names ih =>
    cases fresh with
    | nil => cases hlen
    | cons name fresh =>
      change ((s.declare y name (known y)).declareAll known (names.zip fresh)).predicate x = _
      rw [ih _ (Nat.succ.inj hlen), predicate_declare]
      by_cases hmem : x ∈ names
      · rw [if_pos hmem, if_pos (List.mem_cons_of_mem _ hmem)]
      · rw [if_neg hmem]
        by_cases hy : x = y
        · rw [if_pos hy, if_pos (hy ▸ List.mem_cons_self), hy]
        · rw [if_neg hy, if_neg (by simp [hy, hmem])]

theorem find_place (s : Site) (x : String) : s.place.find x = (s.find x).map (·.1) := by
  rw [Place.find, find, place, List.find?_map]
  rfl

end Site

/-- The surroundings of a step of the pass know what the site says, and what they know are predicates
that need no definitions. -/
structure Knows (registry : String) (ctx : Context) (s : Site) : Prop where
  registry : ctx.registry = registry
  result : ctx.result = s.result
  scopes : ∀ x, ctx.scopes.lookup x = s.predicate x
  resultCodeless : ∀ q ∈ s.result, Codeless q
  codeless : ∀ x, ∀ q ∈ s.predicate x, Codeless q

namespace Knows

variable {registry : String} {ctx : Context} {s : Site}

theorem nested (h : Knows registry ctx s) : Knows registry (ctx.nested []) s :=
  ⟨h.registry, h.result, h.scopes, h.resultCodeless, h.codeless⟩

theorem inLoop (h : Knows registry ctx s) : Knows registry ctx s.inLoop :=
  ⟨h.registry, h.result, h.scopes, h.resultCodeless, h.codeless⟩

variable {names fresh : List String}

theorem declareAll (h : Knows registry ctx s) {scopes : Scopes TypedLua.Expr}
    {ps : List (String × TypedLua.Expr)} (hps : ∀ q ∈ ps, q.1 ∈ names ∧ Codeless q.2)
    (hlen : fresh.length = names.length) (hscopes : ∀ x, scopes.lookup x =
      ((bindings names ps).reverse.lookup x).getD (ctx.scopes.lookup x)) :
    Knows registry { ctx with scopes } (s.declareAll (lastOf ps) (names.zip fresh)) := by
  have hlast {x : String} {p : TypedLua.Expr} (hp : lastOf ps x = some p) : (x, p) ∈ ps :=
    List.mem_reverse.1 (Association.mem_of_lookup hp)
  refine ⟨h.registry, ?_, ?_, ?_, ?_⟩
  · rw [Site.declareAll_result]
    exact h.result
  · intro x
    rw [hscopes, lookup_bindings, Site.predicate_declareAll _ _ hlen, h.scopes]
    cases hx : lastOf ps x with
    | none => split <;> rfl
    | some p =>
      rw [if_pos (hps _ (hlast hx)).1, if_pos (hps _ (hlast hx)).1]
      rfl
  · rw [Site.declareAll_result]
    exact h.resultCodeless
  · intro x q hq
    rw [Site.predicate_declareAll _ _ hlen] at hq
    split at hq
    · exact (hps _ (hlast hq)).2
    · exact h.codeless x q hq

theorem declare (h : Knows registry ctx s) (x name : String) :
    Knows registry (ctx.declaring [(x, none)]) (s.declare x name none) := by
  have hlen : [name].length = [x].length := rfl
  exact h.declareAll (List.forall_mem_nil _) hlen fun y => Scopes.lookup_declareAll _ _ y

theorem header (h : Knows registry ctx s) (hlen : fresh.length = names.length) :
    Knows registry (ctx.nested (names.map (·, none))) (s.declareAll (fun _ => none) (names.zip fresh)) := by
  have hbinds : names.map (·, none) = bindings names [] := (List.append_nil _).symm
  rw [hbinds]
  exact h.declareAll (List.forall_mem_nil _) hlen fun x => Scopes.lookup_nested _ _ x

theorem inside (h : Knows registry ctx s) (d : Def) (inIteration : Bool) :
    Knows registry ctx (s.inside d inIteration) :=
  ⟨h.registry, h.result, h.scopes, h.resultCodeless, h.codeless⟩

theorem returning (h : Knows registry ctx s) {result : Option TypedLua.Expr}
    (hres : ∀ q ∈ result, Codeless q) : Knows registry { ctx with result } { s with result } :=
  ⟨h.registry, rfl, h.scopes, hres, h.codeless⟩

theorem again (h : Knows registry ctx s) (hlen : fresh.length = names.length)
    (hnames : ∀ x ∈ names, s.predicate x = none) (d : Def) :
    Knows registry ctx ((s.inside d true).declareAll (fun _ => none) (names.zip fresh)) := by
  have hpred : ∀ x, ((s.inside d true).declareAll (fun _ => none) (names.zip fresh)).predicate x =
      s.predicate x := by
    intro x
    rw [Site.predicate_declareAll _ _ hlen]
    split
    · next hx => exact (hnames x hx).symm
    · rfl
  refine ⟨h.registry, ?_, fun x => ?_, ?_, fun x => ?_⟩
  · rw [Site.declareAll_result]
    exact h.result
  · rw [hpred]
    exact h.scopes x
  · rw [Site.declareAll_result]
    exact h.resultCodeless
  · rw [hpred]
    exact h.codeless x

end Knows

/-! ## Checks of values -/

variable {ctx : Context} {st st' : State}

theorem guardTargets_guarded (hknows : Knows registry ctx s)
    {ps : List (Option TypedLua.Expr)} {targets values guarded guarded' : List TypedLua.Expr}
    (h : Guarded ps values guarded) (hrun : guardTargets ctx ps.length targets guarded st = .ok (guarded', st')) :
    Guarded (ps ++ targets.map s.targetPredicate) values guarded' := by
  induction targets generalizing ps guarded st with
  | nil =>
    cases hrun
    rw [List.map_nil, List.append_nil]
    exact h
  | cons target targets ih =>
    have hlen (q : Option TypedLua.Expr) : (ps ++ [q]).length = ps.length + 1 := List.length_append
    rw [List.map_cons, List.append_cons]
    cases target with
    | name loc x =>
      rw [guardTargets, hknows.scopes] at hrun
      rw [Site.targetPredicate]
      cases hx : s.predicate x with
      | none =>
        rw [hx] at hrun
        exact ih h.skip (by rw [hlen]; exact hrun)
      | some p =>
        rw [hx] at hrun
        obtain ⟨mid, st1, hguard, hrest⟩ := bind_ok hrun
        exact ih (h.check hguard) (by rw [hlen]; exact hrest)
    | _ => exact ih h.skip (by rw [hlen]; exact hrun)

theorem guardLocals_guarded {known : Scope TypedLua.Expr} {qs : String → Option TypedLua.Expr}
    (hknown : ∀ x, (List.lookup x known).join = qs x) {ps : List (Option TypedLua.Expr)}
    {values guarded guarded' : List TypedLua.Expr} (h : Guarded (ps.take values.length) values guarded)
    (hrun : guardLocals known ps.length names guarded st = .ok (guarded', st')) :
    Guarded ((ps ++ names.map qs).take values.length) values guarded' := by
  induction names generalizing ps guarded st with
  | nil =>
    cases hrun
    rw [List.map_nil, List.append_nil]
    exact h
  | cons x names ih =>
    have hlen (q : Option TypedLua.Expr) : (ps ++ [q]).length = ps.length + 1 := List.length_append
    have hsize : guarded.length = values.length := by
      have hwidth := width_le_length (ps.take values.length)
      rw [List.length_take] at hwidth
      rw [h.length]
      omega
    rw [List.map_cons, List.append_cons]
    rw [guardLocals, hknown] at hrun
    have htake (q : Option TypedLua.Expr) (hlt : ps.length < values.length) :
        (ps ++ [q]).take values.length = ps.take values.length ++ [q] := by
      rw [List.take_of_length_le (by rw [hlen]; omega), List.take_of_length_le (by omega)]
    have hbeyond (q : Option TypedLua.Expr) (hge : ¬ps.length < values.length) :
        (ps ++ [q]).take values.length = ps.take values.length :=
      List.take_append_of_le_length (by omega)
    have hskip (hq : qs x = none ∨ ¬ps.length < values.length) :
        Guarded ((ps ++ [qs x]).take values.length) values guarded := by
      by_cases hlt : ps.length < values.length
      · rw [htake _ hlt, hq.resolve_right (fun hge => hge hlt)]
        exact h.skip
      · rw [hbeyond _ hlt]
        exact h
    cases hx : qs x with
    | none =>
      rw [hx] at hrun
      exact ih (hx ▸ hskip (Or.inl hx)) (by rw [hlen]; exact hrun)
    | some p =>
      rw [hx] at hrun
      dsimp only at hrun
      split at hrun
      · next hlt =>
        obtain ⟨mid, st1, hguard, hrest⟩ := bind_ok hrun
        have hlt : ps.length < values.length := hsize ▸ hlt
        refine ih ?_ (by rw [hlen]; exact hrest)
        rw [htake _ hlt]
        apply h.check
        rw [List.length_take, Nat.min_eq_right (by omega)]
        exact hguard
      · next hge => exact ih (hx ▸ hskip (Or.inr (hsize ▸ hge))) (by rw [hlen]; exact hrun)

/-! ## Predicates -/

theorem predicate_ok {type p : TypedLua.Expr} (h : predicate ctx type st = .ok (p, st')) :
    Annotation.compileType ctx.registry [] type = .ok p := by
  rw [predicate] at h
  cases hcomp : Annotation.compileType ctx.registry [] type with
  | ok q =>
    rw [hcomp] at h
    cases h
    rfl
  | error e =>
    rw [hcomp] at h
    cases h

theorem predicates_ok {ps : List (String × TypedLua.Expr)}
    (h : predicates ctx types st = .ok (ps, st')) : List.Forall₂ (Compiles ctx.registry) types ps := by
  induction types generalizing ps st with
  | nil =>
    cases h
    exact .nil
  | cons a types ih =>
    obtain ⟨x, type⟩ := a
    obtain ⟨p, st1, hp, h⟩ := bind_ok h
    obtain ⟨qs, st2, hqs, h⟩ := bind_ok h
    cases h
    exact .cons ⟨rfl, predicate_ok hp⟩ (ih hqs)

theorem predicate?_ok {type result : Option TypedLua.Expr}
    (h : predicate? ctx type st = .ok (result, st')) : CompilesResult ctx.registry type result := by
  cases type with
  | none =>
    cases h
    rfl
  | some type =>
    rw [predicate?, map_eq_pure_bind] at h
    obtain ⟨p, st1, hp, h⟩ := bind_ok h
    cases h
    exact ⟨p, rfl, predicate_ok hp⟩

end Target.Scoping

end TypedLua
