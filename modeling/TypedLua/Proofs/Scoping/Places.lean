import TypedLua.Proofs.Scoping.Pieces

/-!
# Steps and places

The surroundings of a step stand for a place of the module if they agree on the declarations in
scope and each of these is found where it was made.
-/

namespace TypedLua.Target

open Generate

/-! ## Owners -/

theorem Def.owns_iff (d : Def) (x : String) :
    d.owns x = true ↔ x ∈ d.params ∨ (x ∈ stmtsBound d.body ∧ x ∉ d.nonlocals) := by
  obtain ⟨name, params, rest, nonlocals, body⟩ := d
  by_cases hx : x ∈ params
  · simp [Def.owns, Def.params, hx]
  · simp [Def.owns, Def.own, Def.params, Def.nonlocals, Def.body, List.mem_eraseDups, hx]

namespace Scoping

theorem resolve_cons_of_owns {d : Def} (h : d.owns x = true) : resolve (d :: path) x = d :: path := by
  simp [resolve, h]

theorem resolve_cons_of_not_owns {d : Def} (h : d.owns x ≠ true) : resolve (d :: path) x = resolve path x := by
  simp [resolve, h]

/-! ## Places -/

namespace Place

theorem declare_find (p : Place) (x name s : String) :
    (p.declare x name).find s = if s = x then some ⟨x, name, p.path⟩ else p.find s := by
  simp only [find, declare, List.find?_cons]
  by_cases hs : s = x
  · simp [hs]
  · simp [hs, beq_false_of_ne (Ne.symm hs)]

@[simp] theorem declareAll_path (p : Place) (pairs : List (String × String)) :
    (p.declareAll pairs).path = p.path := by
  induction pairs generalizing p with
  | nil => rfl
  | cons pair pairs ih => exact ih _

@[simp] theorem declareAll_loops (p : Place) (pairs : List (String × String)) :
    (p.declareAll pairs).loops = p.loops := by
  induction pairs generalizing p with
  | nil => rfl
  | cons pair pairs ih => exact ih _

@[simp] theorem declareAll_inIteration (p : Place) (pairs : List (String × String)) :
    (p.declareAll pairs).inIteration = p.inIteration := by
  induction pairs generalizing p with
  | nil => rfl
  | cons pair pairs ih => exact ih _

theorem declareAll_find (p : Place) (pairs : List (String × String)) (s : String) : (p.declareAll pairs).find s =
      ((pairs.reverse.lookup s).map (⟨s, ·, p.path⟩)).or (p.find s) := by
  induction pairs generalizing p with
  | nil => rfl
  | cons pair pairs ih =>
    obtain ⟨x, name⟩ := pair
    change ((p.declare x name).declareAll pairs).find s = _
    rw [ih, List.reverse_cons, List.lookup_append, declare_find, List.lookup_cons]
    cases pairs.reverse.lookup s with
    | some found => rfl
    | none =>
      by_cases hs : s = x
      · simp [hs]
      · simp [hs, beq_false_of_ne hs]

end Place

structure Stands (ctx : Context) (p : Place) : Prop where
  length : p.path.length = ctx.depth + 1
  find : ∀ s, p.find s = (ctx.lookup s).map fun b => ⟨s, b.name, p.path.drop (ctx.depth - b.depth)⟩
  loops : p.loops = ctx.loops
  inIteration : p.inIteration = ctx.inIteration
  reaches : ∀ {s d}, p.find s = some d → p.Reaches d

def Rely (p : Place) (bound given : List String) : Prop := ∀ x ∈ bound, x ∈ given → resolve p.path x = p.path

namespace Stands

variable {ctx : Context} {p : Place}

theorem find_none (h : Stands ctx p) (hs : ctx.lookup s = none) : p.find s = none := by
  rw [h.find, hs]
  rfl

theorem find_some (h : Stands ctx p) (hs : ctx.lookup s = some b) :
    p.find s = some ⟨s, b.name, p.path.drop (ctx.depth - b.depth)⟩ := by
  rw [h.find, hs]
  rfl

theorem sees_iff (h : Stands ctx p) (name : String) : p.Sees name ↔ ∃ s b, ctx.lookup s = some b ∧ b.name = name := by
  constructor
  · rintro ⟨s, d, hs, rfl⟩
    rw [h.find] at hs
    obtain ⟨b, hb, rfl⟩ := Option.map_eq_some_iff.1 hs
    exact ⟨s, b, hb, rfl⟩
  · rintro ⟨s, b, hs, rfl⟩
    exact ⟨s, _, h.find_some hs, rfl⟩

theorem nested (h : Stands ctx p) : Stands ctx.nested p := ⟨h.length, h.find, h.loops, h.inIteration, h.reaches⟩

theorem breakCode (h : Stands ctx p) : p.breakCode = breakStmt ctx := by rw [Place.breakCode, breakStmt, h.loops]

theorem inLoop (h : Stands ctx p) : Stands { ctx with loops := ctx.loops + 1 } p.inLoop :=
  ⟨h.length, h.find, congrArg (· + 1) h.loops, h.inIteration, h.reaches⟩

theorem declare (h : Stands ctx p) (hname : p.Holds [name]) (x : String) :
    Stands (ctx.declaring x ⟨name, ctx.depth⟩) (p.declare x name) where
  length := by rw [Context.declaring_depth]; exact h.length
  find s := by
    rw [Place.declare_find, Context.declaring_lookup, Context.declaring_depth]
    by_cases hs : s = x
    · simp [hs, Place.declare]
    · rw [if_neg hs, if_neg hs]
      exact h.find s
  loops := by rw [Context.declaring_loops]; exact h.loops
  inIteration := by rw [Context.declaring_inIteration]; exact h.inIteration
  reaches := by
    intro s d hd
    rw [Place.declare_find] at hd
    split at hd
    · cases hd
      exact hname name List.mem_cons_self
    · exact h.reaches hd

end Stands

/-! ## Steps -/

structure Emits (ctx : Context) (st st' : State) (code : List Stmt) (bound given : List String)
    (J : Place → Prop) : Prop where
  suite : st'.suite = st.suite ++ code
  piece : Piece ctx st st' bound given
  code : ∀ p, Stands ctx p → Rely p bound given → J p

/-- A step that declares names appends code to the suite, and `J` holds between the places before and
behind it. -/
structure EmitsTo (ctx ctx' : Context) (st st' : State) (code : List Stmt)
    (bound given : List String) (J : Place → Place → Prop) : Prop where
  suite : st'.suite = st.suite ++ code
  piece : Piece ctx st st' bound given
  extend : Extends ctx ctx' given
  sound : Ready ctx st → Sound ctx' st'.used
  code : ∀ p, Stands ctx p → Rely p bound given → ∃ p', Stands ctx' p' ∧ p'.path = p.path ∧ J p p'

theorem Rely.left (h : Rely p (bound ++ bound') (given ++ given')) : Rely p bound given :=
  fun x hx hx' => h x (List.mem_append_left _ hx) (List.mem_append_left _ hx')

theorem Rely.right (h : Rely p (bound ++ bound') (given ++ given')) : Rely p bound' given' :=
  fun x hx hx' => h x (List.mem_append_right _ hx) (List.mem_append_right _ hx')

namespace Emits

variable {ctx : Context} {st st1 st2 st' : State} {code code' : List Stmt}
  {bound bound' given given' : List String} {J J' : Place → Prop}

theorem ready (h : Emits ctx st st' code bound given J) (hr : Ready ctx st) : Ready ctx st' := h.piece.ready hr

theorem and (h : Emits ctx st st1 code bound given J) (h' : Emits ctx st1 st2 code' bound' given' J') :
    Emits ctx st st2 (code ++ code') (bound ++ bound') (given ++ given') fun p => J p ∧ J' p where
  suite := by rw [h'.suite, h.suite, List.append_assoc]
  piece := h.piece.trans ⟨rfl, Or.inl⟩ h'.piece
  code p hp hrely := ⟨h.code p hp hrely.left, h'.code p hp hrely.right⟩

theorem conv (h : Emits ctx st st' code bound given J) (hbound : ∀ x, x ∈ bound ↔ x ∈ bound')
    (hJ : ∀ p, Stands ctx p → J p → J' p) : Emits ctx st st' code bound' given J' where
  suite := h.suite
  piece := h.piece.congr hbound
  code p hp hrely := hJ p hp (h.code p hp fun x hx => hrely x ((hbound x).1 hx))

theorem refl (ctx : Context) (st : State) : Emits ctx st st [] [] [] fun _ => True :=
  ⟨(List.append_nil _).symm, .refl _ _, fun _ _ _ => trivial⟩

theorem emit (h : Generate.emit s st = .ok (u, st')) : Emits ctx st st' [s] [] [] fun _ => True := by
  rw [emit_ok h]
  exact ⟨rfl, (Piece.refl ctx st).withSuite _ _, fun _ _ _ => trivial⟩

theorem unique (h : Generate.unique base st = .ok (x, st')) :
    Emits ctx st st' [] [x] [x] fun p => p.Holds [x] := by
  obtain ⟨rfl, rfl⟩ := unique_ok h
  exact ⟨(List.append_nil _).symm, .take ctx st base, fun p _ hrely x hx => hrely x hx hx⟩

theorem temporaries (h : Generate.temporaries n st = .ok (xs, st')) :
    xs.length = n ∧ Emits ctx st st' [] xs xs fun p => p.Holds xs := by
  induction n generalizing st xs with
  | zero =>
    obtain ⟨rfl, rfl⟩ := pure_ok h
    exact ⟨rfl, (refl ctx st).conv (by simp) fun p _ _ x hx => absurd hx List.not_mem_nil⟩
  | succ n ih =>
    obtain ⟨x, st1, hunique, h1⟩ := bind_ok h
    obtain ⟨xs, st2, hrest, h2⟩ := bind_ok h1
    cases h2
    obtain ⟨hlen, hxs⟩ := ih hrest
    refine ⟨congrArg (· + 1) hlen, ((unique hunique).and hxs).conv (by simp) ?_⟩
    rintro p - ⟨hx, hxs⟩ y hy
    rcases List.mem_cons.1 hy with rfl | hy
    · exact hx y List.mem_cons_self
    · exact hxs y hy

theorem captured (h : Emits ctx { st with suite := [] } st1 code bound given J) : st1.suite = code ∧
      Emits ctx st { st1 with suite := st.suite } [] bound given J :=
  ⟨h.suite, (List.append_nil _).symm, h.piece.withSuite st.suite st.suite, h.code⟩

theorem stay (h : Emits ctx st st' code bound given J) :
    EmitsTo ctx ctx st st' code bound given fun p p' => p' = p ∧ J p where
  suite := h.suite
  piece := h.piece
  extend := ⟨rfl, Or.inl⟩
  sound hr := (h.ready hr).sound
  code p hp hrely := ⟨p, hp, rfl, rfl, h.code p hp hrely⟩

end Emits

namespace EmitsTo

variable {ctx ctx' ctx'' : Context} {st st1 st2 st' : State} {code code' : List Stmt}
  {bound bound' given given' : List String} {J J' : Place → Place → Prop}

theorem ready (h : EmitsTo ctx ctx' st st' code bound given J) (hr : Ready ctx st) : Ready ctx' st' :=
  ⟨h.piece.fine hr.fine, h.sound hr⟩

theorem trans (h : EmitsTo ctx ctx' st st1 code bound given J)
    (h' : EmitsTo ctx' ctx'' st1 st2 code' bound' given' J') :
    EmitsTo ctx ctx'' st st2 (code ++ code') (bound ++ bound') (given ++ given')
      fun p p'' => ∃ p', Stands ctx' p' ∧ J p p' ∧ J' p' p'' where
  suite := by rw [h'.suite, h.suite, List.append_assoc]
  piece := h.piece.trans h.extend h'.piece
  extend := h.extend.trans h'.extend
  sound hr := h'.sound (h.ready hr)
  code p hp hrely := by
    obtain ⟨p', hp', hpath, hJ⟩ := h.code p hp hrely.left
    have hrely' : Rely p' bound' given' := by
      intro x hx hx'
      rw [hpath]
      exact hrely.right x hx hx'
    obtain ⟨p'', hp'', hpath', hJ'⟩ := h'.code p' hp' hrely'
    exact ⟨p'', hp'', hpath'.trans hpath, p', hp', hJ, hJ'⟩

theorem conv (h : EmitsTo ctx ctx' st st' code bound given J)
    (hbound : ∀ x, x ∈ bound ↔ x ∈ bound') (hJ : ∀ p p', Stands ctx p → J p p' → J' p p') :
    EmitsTo ctx ctx' st st' code bound' given J' where
  suite := h.suite
  piece := h.piece.congr hbound
  extend := h.extend
  sound := h.sound
  code p hp hrely := by
    obtain ⟨p', hp', hpath, hj⟩ := h.code p hp fun x hx => hrely x ((hbound x).1 hx)
    exact ⟨p', hp', hpath, hJ p p' hp hj⟩

theorem inner (h : EmitsTo ctx ctx' st st' code bound given J) :
    Emits ctx st st' code bound given fun p => ∃ p', J p p' where
  suite := h.suite
  piece := h.piece
  code p hp hrely := by
    obtain ⟨p', -, -, hJ⟩ := h.code p hp hrely
    exact ⟨p', hJ⟩

theorem nested (h : EmitsTo ctx.nested ctx' st st' code bound given J) :
    EmitsTo ctx ctx' st st' code bound given J where
  suite := h.suite
  piece := ⟨h.piece.used, h.piece.fine, h.piece.keeps, h.piece.nodup, h.piece.adds, h.piece.binds⟩
  extend := ⟨h.extend.depth, h.extend.lookup⟩
  sound hr := h.sound ⟨hr.fine, hr.sound.taken, hr.sound.depth, hr.sound.injective⟩
  code p hp := h.code p hp.nested

theorem declare (h : Generate.declare ctx x st = .ok ((name, ctx'), st')) :
    EmitsTo ctx ctx' st st' [] [name] [name] fun p p' => p.Holds [name] ∧ p' = p.declare x name := by
  obtain ⟨hunique, rfl⟩ := declare_ok h
  obtain ⟨hname, hst⟩ := unique_ok hunique
  have hemits : Emits ctx st st' [] [name] [name] fun p => p.Holds [name] := .unique hunique
  refine ⟨hemits.suite, hemits.piece, .declaring ctx x name, fun hr => ?_, fun p hp hrely => ?_⟩
  · rw [hst]
    exact hr.sound.declaring (hname ▸ freshName_notMem _ _) x
  · have hholds := hemits.code p hp hrely
    exact ⟨_, hp.declare hholds x, rfl, hholds, rfl⟩

theorem declareAll (h : Generate.declareAll ctx xs st = .ok ((names, ctx'), st')) :
    EmitsTo ctx ctx' st st' [] names names fun p p' => p.Holds names ∧ p' = p.declareAll (xs.zip names) := by
  induction xs generalizing ctx names st with
  | nil =>
    obtain ⟨⟨rfl, rfl⟩, rfl⟩ := (pure_ok h).imp_left Prod.mk.inj
    exact (Emits.refl ctx st).stay.conv (by simp) fun p p' _ hp' => ⟨fun x hx => absurd hx List.not_mem_nil, hp'.1⟩
  | cons x xs ih =>
    obtain ⟨⟨name, ctx1⟩, st1, hdeclare, h1⟩ := bind_ok h
    obtain ⟨⟨rest, ctx2⟩, st2, hrest, h2⟩ := bind_ok h1
    cases h2
    refine ((declare hdeclare).trans (ih hrest)).conv (by simp) ?_
    rintro p p'' - ⟨p', -, ⟨hname, rfl⟩, hnames, rfl⟩
    refine ⟨fun y hy => ?_, rfl⟩
    rcases List.mem_cons.1 hy with rfl | hy
    · exact hname y List.mem_cons_self
    · exact hnames y hy

end EmitsTo

/-! ## Definitions -/

def insideContext (ctx : Context) (inIteration : Bool) : Context :=
  { scopes := [] :: ctx.scopes, depth := ctx.depth + 1, loops := 0, inIteration }

/-- The declarations around a definition that are not hidden by its parameters have names other than
those of the parameters. -/
def Hides (ctx : Context) (pairs : List (String × String)) : Prop :=
  ∀ {s b}, ctx.lookup s = some b → pairs.reverse.lookup s = none → b.name ∉ pairs.map (·.2)

section Definition

variable {ctx : Context} {pairs : List (String × String)} {inIteration : Bool}

theorem inside_lookup (s : String) : ((insideContext ctx inIteration).declaringAll (ctx.depth + 1) pairs).lookup s =
      ((pairs.reverse.lookup s).map (⟨·, ctx.depth + 1⟩)).or (ctx.lookup s) :=
  Context.declaringAll_lookup _ _ _ _

/-- Inside a definition, a variable held by an enclosing one is a declaration around the definition
that its parameters do not hide. -/
theorem isOuter_inside (hsound : ∀ {s b}, ctx.lookup s = some b → b.depth ≤ ctx.depth) (x : String) :
    IsOuter ((insideContext ctx inIteration).declaringAll (ctx.depth + 1) pairs) x ↔
      ∃ s b, ctx.lookup s = some b ∧ pairs.reverse.lookup s = none ∧ b.name = x := by
  constructor
  · rintro ⟨s, b, hs, rfl, hdepth⟩
    rw [inside_lookup] at hs
    rw [Context.declaringAll_depth] at hdepth
    cases hfound : pairs.reverse.lookup s with
    | some name =>
      rw [hfound] at hs
      cases hs
      exact absurd hdepth (Nat.lt_irrefl _)
    | none =>
      rw [hfound] at hs
      exact ⟨s, b, hs, hfound, rfl⟩
  · rintro ⟨s, b, hs, hfound, rfl⟩
    refine ⟨s, b, ?_, rfl, ?_⟩
    · rw [inside_lookup, hfound]
      exact hs
    · rw [Context.declaringAll_depth]
      exact Nat.lt_succ_of_le (hsound hs)

theorem isOwn_inside (hsound : ∀ {s b}, ctx.lookup s = some b → b.depth ≤ ctx.depth)
    (h : IsOwn ((insideContext ctx inIteration).declaringAll (ctx.depth + 1) pairs) x) : x ∈ pairs.map (·.2) := by
  obtain ⟨s, b, hs, rfl, hdepth⟩ := h
  rw [inside_lookup] at hs
  rw [Context.declaringAll_depth] at hdepth
  cases hfound : pairs.reverse.lookup s with
  | some name =>
    rw [hfound] at hs
    cases hs
    exact List.mem_map.2 ⟨(s, name), mem_of_lookup_reverse hfound, rfl⟩
  | none =>
    rw [hfound] at hs
    have := hsound hs
    exact absurd hdepth (by change b.depth ≠ ctx.depth + 1; omega)

variable {st st' : State} {given : List String} {p : Place} {d : Def}

structure Closes (ctx : Context) (pairs : List (String × String)) (used given : List String)
    (d : Def) : Prop where
  params : d.params = pairs.map (·.2)
  hides : Hides ctx pairs
  sound : Sound ctx used
  fresh : ∀ x ∈ given, x ∉ used
  nodup : d.nonlocals.Nodup
  /-- What is left to enclosing definitions is bound in the body and declared around it. -/
  outer : ∀ x ∈ d.nonlocals, x ∈ stmtsBound d.body ∧
    ∃ s b, ctx.lookup s = some b ∧ pairs.reverse.lookup s = none ∧ b.name = x
  bound : ∀ x ∈ stmtsBound d.body, x ∈ given ∨ x ∈ d.params ∨ x ∈ d.nonlocals

theorem Closes.ofPiece {inIteration : Bool} {params : List String} {name : String} {rest : Rest}
    (hparams : params = pairs.map (·.2)) (hides : Hides ctx pairs) (hsound : Sound ctx st.used)
    (hfine : Fine st.used) (hnone : st.nonlocals = [])
    (hpiece : Piece ((insideContext ctx inIteration).declaringAll (ctx.depth + 1) pairs) st st'
      (stmtsBound st'.suite) given) :
    Closes ctx pairs st.used given (.mk name params rest (st'.nonlocals.mergeSort (· ≤ ·)) st'.suite) where
  params := hparams
  hides := hides
  sound := hsound
  fresh _ hx := hpiece.notMem_used hfine hx
  nodup := by
    have hnodup := hpiece.nodup (by rw [hnone]; exact List.nodup_nil)
    exact (List.mergeSort_perm _ _).nodup_iff.2 hnodup
  outer x hx := by
    have hx' : x ∈ st'.nonlocals := (List.mergeSort_perm _ _).mem_iff.1 hx
    rcases hpiece.adds x hx' with hmem | ⟨hbound, houter⟩
    · rw [hnone] at hmem
      cases hmem
    · exact ⟨hbound, (isOuter_inside hsound.depth x).1 houter⟩
  bound x hx := by
    rcases hpiece.binds x hx with hgiven | hown | ⟨-, hmem⟩
    · exact Or.inl hgiven
    · refine Or.inr (Or.inl ?_)
      rw [show (Def.mk name params rest _ _).params = _ from hparams]
      exact isOwn_inside hsound.depth hown
    · exact Or.inr (Or.inr ((List.mergeSort_perm _ _).mem_iff.2 hmem))

namespace Closes

variable {used : List String}

theorem notMem_of_visible (h : Closes ctx pairs used given d) (hs : ctx.lookup s = some b) : b.name ∉ given :=
  fun hmem => h.fresh _ hmem (h.sound.taken hs)

theorem owns_given (h : Closes ctx pairs used given d) (hbound : x ∈ stmtsBound d.body)
    (hx : x ∈ given) : d.owns x = true := by
  refine (d.owns_iff x).2 (Or.inr ⟨hbound, fun hmem => ?_⟩)
  obtain ⟨-, s, b, hs, -, rfl⟩ := h.outer x hmem
  exact h.notMem_of_visible hs hx

theorem not_owns (h : Closes ctx pairs used given d)
    (hs : ctx.lookup s = some b) (hfound : pairs.reverse.lookup s = none) : d.owns b.name ≠ true := by
  intro howns
  have hparams : b.name ∉ d.params := by
    rw [h.params]
    exact h.hides hs hfound
  rcases (d.owns_iff _).1 howns with hmem | ⟨hbound, hnonlocal⟩
  · exact hparams hmem
  · rcases h.bound _ hbound with hmem | hmem | hmem
    · exact h.notMem_of_visible hs hmem
    · exact hparams hmem
    · exact hnonlocal hmem

theorem rely (h : Closes ctx pairs used given d) (p : Place) (inIteration : Bool) :
    Rely ((p.inside d inIteration).declareAll pairs) (stmtsBound d.body) given := by
  intro x hbound hx
  rw [Place.declareAll_path]
  exact resolve_cons_of_owns (h.owns_given hbound hx)

theorem stands (h : Closes ctx pairs used given d) (hp : Stands ctx p) (inIteration : Bool) :
    Stands ((insideContext ctx inIteration).declaringAll (ctx.depth + 1) pairs)
      ((p.inside d inIteration).declareAll pairs) where
  length := by
    rw [Place.declareAll_path, Context.declaringAll_depth]
    exact congrArg (· + 1) hp.length
  find s := by
    rw [Place.declareAll_find, inside_lookup, Place.declareAll_path, Context.declaringAll_depth]
    cases pairs.reverse.lookup s with
    | some name => simp [insideContext]
    | none =>
      change p.find s = _
      rw [hp.find]
      cases hs : ctx.lookup s with
      | none => rfl
      | some b =>
        have hdepth := h.sound.depth hs
        simp only [Option.map_none, Option.none_or, Option.map_some, Option.some.injEq, Decl.mk.injEq, true_and]
        change _ = (d :: p.path).drop (ctx.depth + 1 - b.depth)
        rw [Nat.succ_sub hdepth, List.drop_succ_cons]
  loops := by rw [Place.declareAll_loops, Context.declaringAll_loops]; rfl
  inIteration := by rw [Place.declareAll_inIteration, Context.declaringAll_inIteration]; rfl
  reaches := by
    intro s decl hdecl
    rw [Place.declareAll_find] at hdecl
    rw [Place.Reaches, Place.declareAll_path]
    cases hfound : pairs.reverse.lookup s with
    | some name =>
      rw [hfound] at hdecl
      cases hdecl
      refine resolve_cons_of_owns ((d.owns_iff _).2 (Or.inl ?_))
      rw [h.params]
      exact List.mem_map.2 ⟨(s, name), mem_of_lookup_reverse hfound, rfl⟩
    | none =>
      rw [hfound] at hdecl
      have hdecl' : p.find s = some decl := hdecl
      have hreach := hp.reaches hdecl'
      rw [hp.find] at hdecl'
      obtain ⟨b, hb, rfl⟩ := Option.map_eq_some_iff.1 hdecl'
      exact (resolve_cons_of_not_owns (h.not_owns hb hfound)).trans hreach

theorem leavesOuter (h : Closes ctx pairs used given d) (hp : Stands ctx p) : LeavesOuter p d given where
  nodup := h.nodup
  mem_iff x := by
    rw [hp.sees_iff]
    constructor
    · intro hx
      obtain ⟨hbound, s, b, hs, hfound, rfl⟩ := h.outer x hx
      refine ⟨hbound, ?_, s, b, hs, rfl⟩
      rw [h.params]
      exact h.hides hs hfound
    · rintro ⟨hbound, hparams, s, b, hs, rfl⟩
      rcases h.bound _ hbound with hmem | hmem | hmem
      · exact absurd hmem (h.notMem_of_visible hs)
      · exact absurd hmem hparams
      · exact hmem
  disjoint x hx := by
    obtain ⟨-, s, b, hs, -, rfl⟩ := h.outer x hx
    exact h.notMem_of_visible hs

end Closes

end Definition

end Scoping

end TypedLua.Target
