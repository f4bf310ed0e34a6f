import TypedLua.Proofs.Data.Steps
import TypedLua.Proofs.Scoping.Emission
import TypedLua.Proofs.Scoping.FreshNames

/-!
# Steps of the generator

A step of the generator takes names, appends statements and notes which names of enclosing
definitions it assigns.
-/

namespace TypedLua.Target

open Generate

/-! ## Inversion of steps -/

namespace Generate

variable {α β : Type}

variable {st st' : State} {u : Unit}

theorem emit_ok (h : emit s st = .ok (u, st')) : st' = { st with suite := st.suite ++ [s] } := by
  cases h
  rfl

theorem unique_ok (h : unique base st = .ok (x, st')) :
    x = freshName st.used base ∧ st' = { st with used := x :: st.used } := by
  cases h
  exact ⟨rfl, rfl⟩

theorem capture_ok {a : α} (h : capture step st = .ok ((suite, a), st')) :
    ∃ st1, step { st with suite := [] } = .ok (a, st1) ∧ suite = st1.suite ∧
      st' = { st1 with suite := st.suite } := by
  obtain ⟨before, _, hget, h1⟩ := bind_ok h
  cases hget
  obtain ⟨_, _, hset, h2⟩ := bind_ok h1
  cases hset
  obtain ⟨result, st1, hstep, h3⟩ := bind_ok h2
  cases h3
  exact ⟨st1, hstep, rfl, rfl⟩

theorem definition_ok (h : definition name params rest body st = .ok (u, st')) :
    ∃ st1, body { st with suite := [], nonlocals := [] } = .ok ((), st1) ∧
      st' = { used := st1.used, nonlocals := st.nonlocals, suite := st.suite ++
                [.define (.mk name params rest (st1.nonlocals.mergeSort (· ≤ ·)) st1.suite)] } := by
  obtain ⟨before, _, hget, h1⟩ := bind_ok h
  cases hget
  obtain ⟨_, _, hset, h2⟩ := bind_ok h1
  cases hset
  obtain ⟨⟨suite, _⟩, _, hcapture, h3⟩ := bind_ok h2
  obtain ⟨st1, hbody, rfl, rfl⟩ := capture_ok hcapture
  cases h3
  exact ⟨st1, hbody, rfl⟩

theorem declare_ok (h : declare ctx x st = .ok ((name, ctx'), st')) :
    unique x st = .ok (name, st') ∧ ctx' = ctx.declaring x ⟨name, ctx.depth⟩ := by
  obtain ⟨fresh, _, hunique, h1⟩ := bind_ok h
  cases h1
  exact ⟨hunique, rfl⟩

theorem fillSuite_ok (h : fillSuite st = .ok (u, st')) : st' = { st with suite := Scoping.filled st.suite } := by
  obtain ⟨got, _, hget, h1⟩ := bind_ok h
  cases hget
  rw [Scoping.filled]
  split at h1
  · next hempty =>
    have := emit_ok h1
    rw [List.isEmpty_iff] at hempty
    simpa [hempty] using this
  · next hempty =>
    cases h1
    simp [hempty]

end Generate

/-! ## Surroundings -/

namespace Generate.Context

/-- The surroundings behind declarations that a definition of some depth holds. -/
def declaringAll (ctx : Context) (depth : Nat) (pairs : List (String × String)) : Context :=
  pairs.foldl (fun c pair => c.declaring pair.1 ⟨pair.2, depth⟩) ctx

@[simp] theorem nested_lookup (ctx : Context) (s : String) : ctx.nested.lookup s = ctx.lookup s := rfl

@[simp] theorem declaring_depth (ctx : Context) (x : String) (b : Binding) :
    (ctx.declaring x b).depth = ctx.depth := by
  unfold declaring
  split <;> rfl

@[simp] theorem declaring_loops (ctx : Context) (x : String) (b : Binding) :
    (ctx.declaring x b).loops = ctx.loops := by
  unfold declaring
  split <;> rfl

@[simp] theorem declaring_inIteration (ctx : Context) (x : String) (b : Binding) :
    (ctx.declaring x b).inIteration = ctx.inIteration := by
  unfold declaring
  split <;> rfl

theorem declaring_lookup (ctx : Context) (x s : String) (b : Binding) :
    (ctx.declaring x b).lookup s = if s = x then some b else ctx.lookup s := by
  unfold declaring lookup
  split
  · next h =>
    rw [h, List.findSome?_cons, List.lookup_cons]
    by_cases hs : s = x
    · simp [hs]
    · simp [hs, beq_false_of_ne hs]
  · next h =>
    rw [h, List.findSome?_cons, List.findSome?_cons, List.lookup_cons]
    by_cases hs : s = x
    · simp [hs]
    · simp [hs, beq_false_of_ne hs]

@[simp] theorem declaringAll_depth (ctx : Context) (depth : Nat) (pairs : List (String × String)) :
    (ctx.declaringAll depth pairs).depth = ctx.depth := by
  induction pairs generalizing ctx with
  | nil => rfl
  | cons pair pairs ih => exact (ih _).trans (declaring_depth _ _ _)

@[simp] theorem declaringAll_loops (ctx : Context) (depth : Nat) (pairs : List (String × String)) :
    (ctx.declaringAll depth pairs).loops = ctx.loops := by
  induction pairs generalizing ctx with
  | nil => rfl
  | cons pair pairs ih => exact (ih _).trans (declaring_loops _ _ _)

@[simp] theorem declaringAll_inIteration (ctx : Context) (depth : Nat) (pairs : List (String × String)) :
    (ctx.declaringAll depth pairs).inIteration = ctx.inIteration := by
  induction pairs generalizing ctx with
  | nil => rfl
  | cons pair pairs ih => exact (ih _).trans (declaring_inIteration _ _ _)

theorem declaringAll_lookup (ctx : Context) (depth : Nat) (pairs : List (String × String)) (s : String) :
    (ctx.declaringAll depth pairs).lookup s = ((pairs.reverse.lookup s).map (⟨·, depth⟩)).or (ctx.lookup s) := by
  induction pairs generalizing ctx with
  | nil => rfl
  | cons pair pairs ih =>
    obtain ⟨x, name⟩ := pair
    change ((ctx.declaring x ⟨name, depth⟩).declaringAll depth pairs).lookup s = _
    rw [ih, List.reverse_cons, List.lookup_append, declaring_lookup, List.lookup_cons]
    cases pairs.reverse.lookup s with
    | some found => rfl
    | none =>
      by_cases hs : s = x
      · simp [hs]
      · simp [hs, beq_false_of_ne hs]

end Generate.Context

theorem declareAll_ok (h : declareAll ctx xs st = .ok ((names, ctx'), st')) :
    names.length = xs.length ∧ ctx' = ctx.declaringAll ctx.depth (xs.zip names) := by
  induction xs generalizing ctx names st with
  | nil => cases h; exact ⟨rfl, rfl⟩
  | cons x xs ih =>
    obtain ⟨⟨fresh, ctx1⟩, st1, hdecl, h1⟩ := bind_ok h
    obtain ⟨⟨rest, ctx2⟩, st2, hrest, h2⟩ := bind_ok h1
    cases h2
    obtain ⟨hlen, hctx⟩ := ih hrest
    obtain ⟨-, rfl⟩ := declare_ok hdecl
    refine ⟨congrArg (· + 1) hlen, ?_⟩
    rw [Context.declaring_depth] at hctx
    exact hctx

theorem mem_of_lookup_reverse {pairs : List (String × String)}
    (h : pairs.reverse.lookup s = some name) : (s, name) ∈ pairs := by
  induction pairs with
  | nil => cases h
  | cons pair pairs ih =>
    obtain ⟨x, n⟩ := pair
    rw [List.reverse_cons, List.lookup_append, List.lookup_cons] at h
    cases hfound : pairs.reverse.lookup s with
    | some found =>
      rw [hfound] at h
      exact List.mem_cons_of_mem _ (ih (hfound.trans h))
    | none =>
      rw [hfound] at h
      by_cases hs : s = x
      · subst hs
        simp at h
        simp [h]
      · simp [beq_false_of_ne hs] at h

namespace Scoping

structure Fine (used : List String) : Prop where
  nodup : used.Nodup
  free : ∀ x ∈ used, IsFree x

theorem Fine.fresh (h : Fine used) (base : String) : Fine (freshName used base :: used) where
  nodup := List.nodup_cons.2 ⟨freshName_notMem used base, h.nodup⟩
  free x hx := by
    rcases List.mem_cons.1 hx with rfl | hx
    · exact isFree_freshName used base
    · exact h.free x hx

/-- The declarations in scope have taken their names, are held by an enclosing definition, and no two
of them share a name. -/
structure Sound (ctx : Context) (used : List String) : Prop where
  taken : ∀ {s b}, ctx.lookup s = some b → b.name ∈ used
  depth : ∀ {s b}, ctx.lookup s = some b → b.depth ≤ ctx.depth
  injective : ∀ {s s' b b'}, ctx.lookup s = some b → ctx.lookup s' = some b' → b.name = b'.name → s = s'

namespace Sound

variable {ctx : Context} {used : List String}

theorem mono (h : Sound ctx used) (hsub : used ⊆ used') : Sound ctx used' :=
  ⟨fun hs => hsub (h.taken hs), h.depth, h.injective⟩

theorem declaring (h : Sound ctx used) (hname : name ∉ used) (x : String) :
    Sound (ctx.declaring x ⟨name, ctx.depth⟩) (name :: used) := by
  refine ⟨?_, ?_, ?_⟩
  · intro s b hs
    rw [Context.declaring_lookup] at hs
    split at hs
    · cases hs
      exact List.mem_cons_self
    · exact List.mem_cons_of_mem _ (h.taken hs)
  · intro s b hs
    rw [Context.declaring_lookup] at hs
    rw [Context.declaring_depth]
    split at hs
    · cases hs
      exact Nat.le_refl _
    · exact h.depth hs
  · intro s s' b b' hs hs' hb
    rw [Context.declaring_lookup] at hs hs'
    split at hs
    · next heq =>
      cases hs
      split at hs'
      · next heq' => rw [heq, heq']
      · exact absurd (by rw [show name = b'.name from hb]; exact h.taken hs') hname
    · split at hs'
      · cases hs'
        exact absurd (by rw [← show b.name = name from hb]; exact h.taken hs) hname
      · exact h.injective hs hs' hb

end Sound

structure Ready (ctx : Context) (st : State) : Prop where
  fine : Fine st.used
  sound : Sound ctx st.used

def IsOuter (ctx : Context) (x : String) : Prop := ∃ s b, ctx.lookup s = some b ∧ b.name = x ∧ b.depth < ctx.depth

def IsOwn (ctx : Context) (x : String) : Prop := ∃ s b, ctx.lookup s = some b ∧ b.name = x ∧ b.depth = ctx.depth

/-- The surroundings differ by declarations, of the definition itself, that were given names. -/
structure Extends (ctx ctx' : Context) (given : List String) : Prop where
  depth : ctx'.depth = ctx.depth
  lookup : ∀ {s b}, ctx'.lookup s = some b → ctx.lookup s = some b ∨ (b.depth = ctx.depth ∧ b.name ∈ given)

namespace Extends

variable {ctx ctx' ctx'' : Context} {given given' : List String}

theorem declaring (ctx : Context) (x name : String) : Extends ctx (ctx.declaring x ⟨name, ctx.depth⟩) [name] := by
  refine ⟨Context.declaring_depth _ _ _, ?_⟩
  intro s b hs
  rw [Context.declaring_lookup] at hs
  split at hs
  · cases hs
    exact Or.inr ⟨rfl, List.mem_cons_self⟩
  · exact Or.inl hs

theorem trans (h : Extends ctx ctx' given) (h' : Extends ctx' ctx'' given') :
    Extends ctx ctx'' (given ++ given') := by
  refine ⟨h'.depth.trans h.depth, ?_⟩
  intro s b hs
  rcases h'.lookup hs with hs | ⟨hd, hmem⟩
  · rcases h.lookup hs with hs | ⟨hd, hmem⟩
    · exact Or.inl hs
    · exact Or.inr ⟨hd, List.mem_append_left _ hmem⟩
  · exact Or.inr ⟨hd.trans h.depth, List.mem_append_right _ hmem⟩

end Extends

/-! ## What a step does to the names -/

/-- A step takes names and assigns variables: `given` holds the names it takes, in order, and `bound`
the variables that its code binds in the definition. -/
structure Piece (ctx : Context) (st st' : State) (bound given : List String) : Prop where
  used : st'.used = given.reverse ++ st.used
  fine : Fine st.used → Fine st'.used
  keeps : st.nonlocals ⊆ st'.nonlocals
  nodup : st.nonlocals.Nodup → st'.nonlocals.Nodup
  /-- Only outer variables that the code binds are added to those left to enclosing definitions. -/
  adds : ∀ x ∈ st'.nonlocals, x ∈ st.nonlocals ∨ (x ∈ bound ∧ IsOuter ctx x)
  /-- A variable that the code binds is new, or of the definition, or left to an enclosing one. -/
  binds : ∀ x ∈ bound, x ∈ given ∨ IsOwn ctx x ∨ (IsOuter ctx x ∧ x ∈ st'.nonlocals)

namespace Piece

variable {ctx ctx' : Context} {st st1 st2 st' : State} {bound bound' given given' : List String}

theorem refl (ctx : Context) (st : State) : Piece ctx st st [] [] where
  used := rfl
  fine := id
  keeps := List.Subset.refl _
  nodup := id
  adds _ hx := Or.inl hx
  binds _ hx := absurd hx List.not_mem_nil

theorem take (ctx : Context) (st : State) (base : String) :
    Piece ctx st { st with used := freshName st.used base :: st.used } [freshName st.used base]
      [freshName st.used base] where
  used := rfl
  fine h := h.fresh base
  keeps := List.Subset.refl _
  nodup := id
  adds _ hx := Or.inl hx
  binds _ hx := Or.inl hx

theorem subset (h : Piece ctx st st' bound given) : st.used ⊆ st'.used := by
  rw [h.used]
  exact List.subset_append_right _ _

theorem ready (h : Piece ctx st st' bound given) (hr : Ready ctx st) : Ready ctx st' :=
  ⟨h.fine hr.fine, hr.sound.mono h.subset⟩

theorem notMem_used (h : Piece ctx st st' bound given) (hr : Fine st.used) (hx : x ∈ given) : x ∉ st.used := by
  have hnodup := (h.fine hr).nodup
  rw [h.used, List.nodup_append] at hnodup
  exact fun hmem => hnodup.2.2 x (List.mem_reverse.2 hx) x hmem rfl

theorem trans (h : Piece ctx st st1 bound given) (hext : Extends ctx ctx' given)
    (h' : Piece ctx' st1 st2 bound' given') : Piece ctx st st2 (bound ++ bound') (given ++ given') where
  used := by rw [h'.used, h.used, List.reverse_append, List.append_assoc]
  fine hf := h'.fine (h.fine hf)
  keeps := List.Subset.trans h.keeps h'.keeps
  nodup hn := h'.nodup (h.nodup hn)
  adds x hx := by
    rcases h'.adds x hx with hx | ⟨hbound, s, b, hs, rfl, hdepth⟩
    · rcases h.adds x hx with hx | ⟨hbound, houter⟩
      · exact Or.inl hx
      · exact Or.inr ⟨List.mem_append_left _ hbound, houter⟩
    · rcases hext.lookup hs with hs' | ⟨heq, -⟩
      · exact Or.inr ⟨List.mem_append_right _ hbound, s, b, hs', rfl, hext.depth ▸ hdepth⟩
      · exact absurd hdepth (by rw [hext.depth, heq]; exact Nat.lt_irrefl _)
  binds x hx := by
    rcases List.mem_append.1 hx with hx | hx
    · rcases h.binds x hx with hgiven | hown | ⟨houter, hmem⟩
      · exact Or.inl (List.mem_append_left _ hgiven)
      · exact Or.inr (Or.inl hown)
      · exact Or.inr (Or.inr ⟨houter, h'.keeps hmem⟩)
    · rcases h'.binds x hx with hgiven | ⟨s, b, hs, rfl, hdepth⟩ | ⟨⟨s, b, hs, rfl, hdepth⟩, hmem⟩
      · exact Or.inl (List.mem_append_right _ hgiven)
      · rcases hext.lookup hs with hs' | ⟨-, hgiven⟩
        · exact Or.inr (Or.inl ⟨s, b, hs', rfl, hdepth.trans hext.depth⟩)
        · exact Or.inl (List.mem_append_left _ hgiven)
      · rcases hext.lookup hs with hs' | ⟨heq, -⟩
        · exact Or.inr (Or.inr ⟨⟨s, b, hs', rfl, hext.depth ▸ hdepth⟩, hmem⟩)
        · exact absurd hdepth (by rw [hext.depth, heq]; exact Nat.lt_irrefl _)

theorem congr (h : Piece ctx st st' bound given) (hbound : ∀ x, x ∈ bound ↔ x ∈ bound') :
    Piece ctx st st' bound' given where
  used := h.used
  fine := h.fine
  keeps := h.keeps
  nodup := h.nodup
  adds x hx := by simpa only [← hbound] using h.adds x hx
  binds x hx := h.binds x ((hbound x).2 hx)

theorem withSuite (h : Piece ctx st st' bound given) (suite suite' : List Stmt) :
    Piece ctx { st with suite } { st' with suite := suite' } bound given :=
  ⟨h.used, h.fine, h.keeps, h.nodup, h.adds, h.binds⟩

end Piece

end Scoping

end TypedLua.Target
