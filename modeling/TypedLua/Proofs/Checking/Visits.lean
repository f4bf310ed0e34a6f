import TypedLua.Proofs.Checking.Origins

/-!
# Visiting all checks

What is asked of the checks of a chunk holds throughout it if it holds wherever checks can stand:
where the annotations stand further out than the checks, and each value is checked with the
predicate that is known for it.
-/

namespace TypedLua.Target.Scoping

/-! ## Sites and origins -/

namespace Site

theorem scope_declareAll (s : Site) (known : String → Option TypedLua.Expr)
    (pairs : List (String × String)) : s.place.scope <:+ (s.declareAll known pairs).place.scope := by
  induction pairs generalizing s with
  | nil => exact List.suffix_refl _
  | cons pair pairs ih =>
    have hone : s.place.scope <:+ (s.declare pair.1 pair.2 (known pair.1)).place.scope := List.suffix_cons _ _
    exact hone.trans (ih _)

end Site

/-- The annotations of all names in scope, and that of the result, stand further out than the site. -/
structure Origins.Within (o : Origins) (s : Site) : Prop where
  names : ∀ x, o.names x <:+ s.place.scope
  result : o.result <:+ s.place.scope

namespace Origins.Within

variable {o : Origins} {s s' : Site}

theorem inner (h : o.Within s) (hscope : s.place.scope <:+ s'.place.scope) : o.Within s' :=
  ⟨fun x => (h.names x).trans hscope, h.result.trans hscope⟩

theorem declare (h : o.Within s') (declared : List String)
    (hscope : scope <:+ s'.place.scope) : (o.declare declared scope).Within s' := by
  refine ⟨fun x => ?_, h.result⟩
  show (if x ∈ declared then scope else o.names x) <:+ _
  split
  · exact hscope
  · exact h.names x

theorem declareAll (h : o.Within s) (declared : List String) (known : String → Option TypedLua.Expr)
    (pairs : List (String × String)) : (o.declare declared s.place.scope).Within (s.declareAll known pairs) :=
  (h.inner (s.scope_declareAll known pairs)).declare declared (s.scope_declareAll known pairs)

theorem inside (h : o.Within s) (d : Def) (inIteration : Bool) : o.Within (s.inside d inIteration) :=
  ⟨h.names, h.result⟩

theorem function (h : o.Within s) (params : List String) (known : String → Option TypedLua.Expr)
    (pairs : List (String × String)) (d : Def) (result : Option TypedLua.Expr) :
    Within { o.declare params s.place.scope with result := s.place.scope }
      { (s.inside d false).declareAll known pairs with result } :=
  ⟨((h.inside d false).declareAll params known pairs).names, (s.inside d false).scope_declareAll known pairs⟩

end Origins.Within

/-- A statement as the checks of its values leave it: the annotations stand further out, and each value is
checked with the predicate that is known for it. -/
structure Guard.Proper (g : Guard) : Prop where
  within : ∀ k, some k ∈ g.known → k.origin <:+ g.site.place.scope
  guarded : Guarded (g.known.map (·.map (·.predicate))) g.plain g.guarded

def Entry.Proper (n : Entry) : Prop := ∀ q ∈ n.known, q.2.origin <:+ n.site.place.scope

theorem lastKnown_predicate (ps : List (String × TypedLua.Expr)) (scope : List Decl) (x : String) :
    (lastKnown ps scope x).map (·.predicate) = lastOf ps x := by
  rw [lastKnown, Option.map_map]
  exact Option.map_id_apply

theorem Origins.target_predicate (o : Origins) (s : Site) (target : TypedLua.Expr) :
    (o.target s target).map (·.predicate) = s.targetPredicate target := by
  cases target with
  | name loc x =>
    rw [Origins.target, Option.map_map, Site.targetPredicate]
    exact Option.map_id_apply
  | _ => rfl

variable {s : Site} {plain guarded : List TypedLua.Expr} {stmt : TypedLua.Stmt}

theorem properLocals {names : List String} {ps : List (String × TypedLua.Expr)}
    (h : Guarded ((names.map (lastOf ps)).take plain.length) plain guarded) :
    Guard.Proper ⟨s, (names.map (lastKnown ps s.place.scope)).take plain.length, plain, guarded, stmt⟩ where
  within k hk := by
    obtain ⟨x, -, hx⟩ := List.mem_map.1 (List.mem_of_mem_take hk)
    obtain ⟨p, -, rfl⟩ := Option.map_eq_some_iff.1 hx
    exact List.suffix_refl _
  guarded := by simpa only [List.map_take, List.map_map, Function.comp_def, lastKnown_predicate] using h

theorem properTargets {o : Origins} (ho : o.Within s) {targets : List TypedLua.Expr}
    (h : Guarded (targets.map s.targetPredicate) plain guarded) :
    Guard.Proper ⟨s, targets.map (o.target s), plain, guarded, stmt⟩ where
  within k hk := by
    obtain ⟨target, -, htarget⟩ := List.mem_map.1 hk
    cases target with
    | name loc x =>
      obtain ⟨p, -, rfl⟩ := Option.map_eq_some_iff.1 htarget
      exact ho.names x
    | _ => cases htarget
  guarded := by simpa only [List.map_map, Function.comp_def, Origins.target_predicate] using h

theorem properResult {o : Origins} (ho : o.Within s) (h : Guarded [s.result] plain guarded) :
    Guard.Proper ⟨s, [s.result.map (⟨·, o.result⟩)], plain, guarded, stmt⟩ where
  within k hk := by
    obtain ⟨p, -, rfl⟩ := Option.map_eq_some_iff.1 (List.mem_singleton.1 hk).symm
    exact ho.result
  guarded := by
    rw [List.map_singleton, Option.map_map]
    have hsame : s.result.map ((·.predicate) ∘ (⟨·, o.result⟩ : TypedLua.Expr → Known)) = s.result :=
      Option.map_id_apply
    rw [hsame]
    exact h

/-! ## Trees -/

section

variable {registry : String} {G : Guard → Prop} {N : Entry → Prop} (hguard : ∀ g : Guard, g.Proper → G g)
  (hentry : ∀ n : Entry, n.Proper → N n)
include hguard hentry

-- Only some members of the block use what is included.
set_option linter.unusedSectionVars false

mutual

theorem ExprAgrees.visits {s e e' code} : ExprAgrees registry s e e' code → ∀ {o : Origins}, o.Within s →
    ExprVisits registry G N s o e e'
  | .nil, _, _ => .nil
  | .bool, _, _ => .bool
  | .number, _, _ => .number
  | .string, _, _ => .string
  | .vararg, _, _ => .vararg
  | .name, _, _ => .name
  | .function h, _, ho => .function (h.visits ho)
  | .table h, _, ho => .table (h.visits ho)
  | .binary hleft hright, _, ho => .binary (hleft.visits ho) (hright.visits ho)
  | .unary h, _, ho => .unary (h.visits ho)
  | .call hcallee hargs, _, ho => .call (hcallee.visits ho) (hargs.visits ho)
  | .method hobj hargs, _, ho => .method (hobj.visits ho) (hargs.visits ho)
  | .index hobj hkey, _, ho => .index (hobj.visits ho) (hkey.visits ho)
  | .paren h, _, ho => .paren (h.visits ho)

theorem ExprsAgree.visits {s es es' code} : ExprsAgree registry s es es' code → ∀ {o : Origins}, o.Within s →
    ExprsVisit registry G N s o es es'
  | .nil, _, _ => .nil
  | .cons hhead htail, _, ho => .cons (hhead.visits ho) (htail.visits ho)

theorem OptionAgrees.visits {s e? e?' code} : OptionAgrees registry s e? e?' code → ∀ {o : Origins}, o.Within s →
    OptionVisits registry G N s o e? e?'
  | .none, _, _ => .none
  | .some h, _, ho => .some (h.visits ho)

theorem FieldsAgree.visits {s fields fields' code} : FieldsAgree registry s fields fields' code →
    ∀ {o : Origins}, o.Within s → FieldsVisit registry G N s o fields fields'
  | .nil, _, _ => .nil
  | .cons hkey hval htail, _, ho => .cons (hkey.visits ho) (hval.visits ho) (htail.visits ho)

theorem FunctionAgrees.visits {s f f' d} : FunctionAgrees registry s f f' d → ∀ {o : Origins}, o.Within s →
    FunctionVisits registry G N s o f f'
  | @FunctionAgrees.mk _ _ _ _ params _ _ _ _ _ _ _ ps result name names rest nonlocals entry code htypes
      hres hlen _ hbody, _, ho => by
    have hinner := ho.function params (lastOf ps) (params.zip names)
      (.mk name names rest nonlocals (filled (entry ++ code))) result
    obtain ⟨o', hvisit, -⟩ := hbody.visits hinner
    refine .mk htypes hres hlen rfl (hentry _ ?_) hvisit
    intro q hq
    obtain ⟨p, -, rfl⟩ := List.mem_map.1 hq
    exact hinner.result

theorem BlockAgrees.visits {s b b' suite} : BlockAgrees registry s b b' suite → ∀ {o : Origins}, o.Within s →
    BlockVisits registry G N s o b b'
  | .mk h, _, ho =>
    have ⟨_, hvisit, _⟩ := h.visits ho
    .mk hvisit

theorem OrElseAgrees.visits {s clauses final clauses' final' other} :
    OrElseAgrees registry s clauses final clauses' final' other → ∀ {o : Origins}, o.Within s →
      ClausesVisit registry G N s o clauses clauses' ∧ OtherwiseVisits registry G N s o final final'
  | .none, _, _ => ⟨.nil, .none⟩
  | .empty, _, _ => ⟨.nil, .some (.mk .nil)⟩
  | .otherwise h, _, ho => ⟨.nil, .some (h.visits ho)⟩
  | .elseIf hcond hbody htail, _, ho | .hoisted hcond hbody htail, _, ho =>
    ⟨.cons (hcond.visits ho) (hbody.visits ho) (htail.visits ho).1, (htail.visits ho).2⟩

theorem RoundAgrees.visits {s ss until? ss' until?' code} : RoundAgrees registry s ss until? ss' until?' code →
    ∀ {o : Origins}, o.Within s → RoundVisits registry G N s o ss until? ss' until?'
  | .plain h, _, ho =>
    have ⟨_, hvisit, _⟩ := h.visits ho
    .plain hvisit
  | .until h hcond, _, ho =>
    have ⟨_, hvisit, ho'⟩ := h.visits ho
    .until hvisit (hcond.visits ho')

theorem LoopAgrees.visits {s pairs ss until? ss' until?' code} :
    LoopAgrees registry s pairs ss until? ss' until?' code → ∀ {o : Origins}, o.Within s →
      LoopVisits registry G N s o pairs ss until? ss' until?'
  | .inline h, _, ho => .inline (h.visits (ho.inner (List.suffix_refl _)))
  | .iteration h, _, ho => .iteration (h.visits ((ho.inside _ true).declareAll _ _ _))

theorem TargetAgrees.visits {s target target' code} : TargetAgrees registry s target target' code →
    ∀ {o : Origins}, o.Within s → TargetVisits registry G N s o target target'
  | .global _, _, _ | .variable _ _, _, _ => .name
  | .index hobj hkey, _, ho => .index (hobj.visits ho) (hkey.visits ho)

theorem TargetsAgree.visits {s targets targets' code} : TargetsAgree registry s targets targets' code →
    ∀ {o : Origins}, o.Within s → TargetsVisit registry G N s o targets targets'
  | .nil, _, _ => .nil
  | .cons hhead htail, _, ho => .cons (hhead.visits ho) (htail.visits ho)

theorem StmtsAgree.visits {s ss ss' code s'} : StmtsAgree registry s ss ss' code s' → ∀ {o : Origins}, o.Within s →
    ∃ o', StmtsVisit registry G N s o ss ss' s' o' ∧ o'.Within s'
  | .nil, o, ho => ⟨o, .nil, ho⟩
  | .cons hhead htail, _, ho =>
    have ⟨_, hvisit, ho1⟩ := hhead.visits ho
    have ⟨o2, hrest, ho2⟩ := htail.visits ho1
    ⟨o2, .cons hvisit hrest, ho2⟩

theorem StmtAgrees.visits {s stmt stmt' code s'} : StmtAgrees registry s stmt stmt' code s' → ∀ {o : Origins},
    o.Within s → ∃ o', StmtVisits registry G N s o stmt stmt' s' o' ∧ o'.Within s'
  | .localVars htypes hvals hguards hlen _, _, ho =>
    ⟨_, .localVars htypes (hvals.visits ho) hlen (hguard _ (properLocals hguards)), ho.declareAll _ _ _⟩
  | @StmtAgrees.localFunction _ s _ x _ _ d h, o, ho =>
    have ho' : (o.declare [x] s.place.scope).Within (s.declare x d.name none) :=
      ho.declareAll [x] (fun _ => none) [(x, d.name)]
    ⟨_, .localFunction (h.visits ho'), ho'⟩
  | .assign hvals hguards _ htargets, o, ho =>
    ⟨o, .assign (hvals.visits ho) (htargets.visits ho) (hguard _ (properTargets ho hguards)), ho⟩
  | .expr h, o, ho => ⟨o, .expr (h.visits ho), ho⟩
  | .scope h, o, ho =>
    have ⟨_, hvisit, _⟩ := h.visits ho
    ⟨o, .scope hvisit, ho⟩
  | .whileLoop hcond hloop, o, ho => ⟨o, .whileLoop (hcond.visits ho) (hloop.visits ho), ho⟩
  | .repeatLoop h, o, ho => ⟨o, .repeatLoop (h.visits ho), ho⟩
  | .ifElse hcond hbody htail, o, ho =>
    ⟨o, .ifElse (hcond.visits ho) (hbody.visits ho) (htail.visits ho).1 (htail.visits ho).2, ho⟩
  | @StmtAgrees.numericFor _ s _ counter _ _ _ _ _ _ _ _ _ name _ _ _ _ _ _ _ hstart hstop hstep hloop, o, ho =>
    have ho' : (o.declare [counter] s.place.scope).Within (s.declare counter name none) :=
      ho.declareAll [counter] (fun _ => none) [(counter, name)]
    ⟨o, .numericFor (hstart.visits ho) (hstop.visits ho) (hstep.visits ho) (hloop.visits ho'), ho⟩
  | .genericFor hlist hlen hloop, o, ho =>
    ⟨o, .genericFor (hlist.visits ho) hlen (hloop.visits (ho.declareAll _ _ _)), ho⟩
  | .returnValues hvals hguards, o, ho =>
    ⟨o, .returnValues (hvals.visits ho) (hguard _ (properResult ho hguards)), ho⟩
  | .breakLoop, o, ho => ⟨o, .breakLoop, ho⟩

end

end

end TypedLua.Target.Scoping
