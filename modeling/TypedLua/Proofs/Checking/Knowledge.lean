import TypedLua.Proofs.Checking.Guards

/-!
# What the pass knows

At every point the pass that inserts checks knows some predicates: that of the results of the
function around, and those of the names in scope.
-/

namespace TypedLua.Instrument

structure Context.All (P : Expr → Prop) (ctx : Context) : Prop where
  result : ∀ p ∈ ctx.result, P p
  scopes : ∀ x, ∀ p ∈ ctx.scopes.lookup x, P p

def AllBindings (P : Expr → Prop) (bindings : List (String × Option Expr)) : Prop := ∀ q ∈ bindings, ∀ p ∈ q.2, P p

section Knowledge

variable {P : Expr → Prop} {ctx : Context}

variable {bindings : List (String × Option Expr)}

theorem AllBindings.getD (h : AllBindings P bindings) (hknown : ∀ p ∈ known, P p) (x : String) :
    ∀ p ∈ (bindings.reverse.lookup x).getD known, P p := by
  cases hx : bindings.reverse.lookup x with
  | none => exact hknown
  | some found => exact h _ (List.mem_reverse.1 (Association.mem_of_lookup hx))

theorem AllBindings.join (h : AllBindings P bindings) (x : String) : ∀ p ∈ (bindings.reverse.lookup x).join, P p := by
  cases hx : bindings.reverse.lookup x with
  | none => exact fun p hp => nomatch hp
  | some found => exact h _ (List.mem_reverse.1 (Association.mem_of_lookup hx))

theorem AllBindings.ofBindings (h : AllBindings P bindings) (x : String) :
    ∀ p ∈ (List.lookup x (Scope.ofBindings bindings)).join, P p := by
  rw [Scope.lookup_ofBindings]
  exact h.join x

theorem allBindings_append (names : List String) {ps : List (String × Expr)} (h : ∀ q ∈ ps, P q.2) :
    AllBindings P (names.map (·, none) ++ ps.map fun (x, p) => (x, some p)) := by
  intro q hq p hp
  rcases List.mem_append.1 hq with hq | hq
  · obtain ⟨x, -, rfl⟩ := List.mem_map.1 hq
    cases hp
  · obtain ⟨r, hr, rfl⟩ := List.mem_map.1 hq
    cases hp
    exact h r hr

theorem allBindings_unknown (names : List String) : AllBindings P (names.map (·, none)) := by
  intro q hq p hp
  obtain ⟨x, -, rfl⟩ := List.mem_map.1 hq
  cases hp

namespace Context.All

variable {bindings : List (String × Option Expr)}

theorem nested (h : ctx.All P) (hbinds : AllBindings P bindings) : (ctx.nested bindings).All P where
  result := h.result
  scopes x := by
    rw [Context.nested, Scopes.lookup_nested]
    exact hbinds.getD (h.scopes x) x

theorem declaring (h : ctx.All P) (hbinds : AllBindings P bindings) : (ctx.declaring bindings).All P where
  result := h.result
  scopes x := by
    rw [Context.declaring, Scopes.lookup_declareAll]
    exact hbinds.getD (h.scopes x) x

theorem declaring_ofBindings (h : ctx.All P) (hbinds : AllBindings P bindings) :
    (ctx.declaring (Scope.ofBindings bindings)).All P where
  result := h.result
  scopes x := by
    rw [Context.declaring, Scopes.lookup_declareAll_ofBindings]
    exact hbinds.getD (h.scopes x) x

theorem returning (h : ctx.All P) {result : Option Expr} (hres : ∀ p ∈ result, P p) :
    Context.All P { ctx with result } :=
  ⟨hres, h.scopes⟩

theorem unscoped (h : ctx.All P) : (ctx.nested []).All P := h.nested (List.forall_mem_nil _)

end Context.All

end Knowledge

/-! ## Steps that only compile -/

section Compile

variable {ctx : Context} {st st' : State}

theorem predicate_state (h : predicate ctx type st = .ok (p, st')) : st' = st := by
  rw [predicate] at h
  cases hcomp : Annotation.compileType ctx.registry [] type with
  | ok q =>
    rw [hcomp] at h
    cases h
    rfl
  | error e =>
    rw [hcomp] at h
    cases h

theorem predicates_state (h : predicates ctx types st = .ok (ps, st')) : st' = st := by
  induction types generalizing ps st with
  | nil =>
    cases h
    rfl
  | cons a types ih =>
    obtain ⟨x, type⟩ := a
    obtain ⟨p, st1, hp, h⟩ := bind_ok h
    obtain ⟨qs, st2, hqs, h⟩ := bind_ok h
    cases h
    rw [ih hqs, predicate_state hp]

theorem predicate?_state (h : predicate? ctx type st = .ok (result, st')) : st' = st := by
  cases type with
  | none =>
    cases h
    rfl
  | some type =>
    rw [predicate?, map_eq_pure_bind] at h
    obtain ⟨p, st1, hp, h⟩ := bind_ok h
    cases h
    exact predicate_state hp

end Compile

end TypedLua.Instrument
