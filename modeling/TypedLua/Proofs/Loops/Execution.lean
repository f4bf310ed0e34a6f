import TypedLua.Proofs.Loops.Expressions

/-!
# Statements of two runs

How the codes of statements end, in two runs at the same place of a chunk: both go on behind the
statements, where the variables declared on the way are twins, or both leave the innermost loop, each
in its own way, or both answer the same result.
-/

namespace TypedLua

namespace Target.Scoping

open Generate Machine Coupling

def proceed (run : Run Signal) : Signal → Run Signal
  | .next => run
  | signal => pure signal

def Place.leaving (p : Place) : Signal := if p.loops > 0 then .leave else .done .leave

inductive Plain : Signal → Prop
  | next : Plain .next
  | result (r : Result) : Plain (.done (.result r))

inductive SameExit (p1 p2 : Place) : Signal → Signal → Prop
  | leave : SameExit p1 p2 p1.leaving p2.leaving
  | result (r : Result) : SameExit p1 p2 (.done (.result r)) (.done (.result r))

/-- The second ledger knows of more twins, all of which have names that were given to the code. -/
structure Grows (I I' : Ledger) (env1 env2 : Env) (given1 given2 : List String) : Prop where
  le : Ledger.Le I I'
  twins : ∀ {c1 c2}, I'.twins c1 c2 → I.twins c1 c2 ∨
    (∃ x ∈ given1, c1 = (top env1, x)) ∧ ∃ x ∈ given2, c2 = (top env2, x)

inductive Ends (I : Ledger) (w : Pairing) (p1 p2 q1 q2 : Place) (env1 env2 : Env)
    (given1 given2 : List String) : Signal → Signal → Store → Store → Prop
  | next {I' w' s1 s2} (hgrows : Grows I I' env1 env2 given1 given2)
      (hle : ∀ f1 f2, w f1 f2 → w' f1 f2) (hrel : Alike I' w' s1 s2)
      (hstage : Stage I' w' q1 q2 env1 env2) :
      Ends I w p1 p2 q1 q2 env1 env2 given1 given2 .next .next s1 s2
  | exit {signal1 signal2 s1 s2} (hexit : SameExit p1 p2 signal1 signal2) (hrel : Later I w s1 s2) :
      Ends I w p1 p2 q1 q2 env1 env2 given1 given2 signal1 signal2 s1 s2

/-- Two codes take runs from a place to a place, or out of the statements. -/
def ExecSim (nesting : Nat) (p1 p2 q1 q2 : Place) (given1 given2 : List String)
    (run1 run2 : Machine → Env → Run Signal) : Prop :=
  ∀ ⦃I w env1 env2 n N s1 s2⦄, n + nesting ≤ N → Stage I w p1 p2 env1 env2 → Spares I env1 env2 given1 given2 →
    Alike I w s1 s2 →
    Both (Ends I w p1 p2 q1 q2 env1 env2 given1 given2) (Later I w) (run1 (within n) env1 s1)
      (run2 (within N) env2 s2)

variable {I I' I'' : Ledger} {w w' : Pairing} {p1 p2 q1 q2 : Place} {env1 env2 : Env}
  {given1 given2 more1 more2 : List String} {s1 s2 : Store}

theorem Place.proceed_leaving (p : Place) (run : Run Signal) : proceed run p.leaving = pure p.leaving := by
  by_cases hloops : p.loops > 0
  · rw [Place.leaving, if_pos hloops]
    rfl
  · rw [Place.leaving, if_neg hloops]
    rfl

/-! ## Names of two runs -/

namespace Grows

theorem refl (I : Ledger) : Grows I I env1 env2 given1 given2 := ⟨.refl I, Or.inl⟩

theorem trans (h : Grows I I' env1 env2 given1 given2) (h' : Grows I' I'' env1 env2 given1 given2) :
    Grows I I'' env1 env2 given1 given2 :=
  ⟨h.le.trans h'.le, fun hc => (h'.twins hc).elim h.twins Or.inr⟩

theorem sub (h : Grows I I' env1 env2 given1 given2) (h1 : given1 ⊆ more1) (h2 : given2 ⊆ more2) :
    Grows I I' env1 env2 more1 more2 := by
  refine ⟨h.le, fun hc => (h.twins hc).imp_right ?_⟩
  rintro ⟨⟨x, hx, rfl⟩, y, hy, rfl⟩
  exact ⟨⟨x, h1 hx, rfl⟩, y, h2 hy, rfl⟩

theorem spares (h : Grows I I' env1 env2 given1 given2)
    (hspare : Spares I env1 env2 (given1 ++ more1) (given2 ++ more2)) : Spares I' env1 env2 more1 more2 := by
  refine ⟨fun x hx => ?_, fun x hx => ?_, hspare.right.nodup1, hspare.right.nodup2⟩
  · obtain ⟨hown, hfree⟩ := hspare.right.first x hx
    refine ⟨h.le.own1 hown, fun c hc => (h.twins hc).elim (hfree c) ?_⟩
    rintro ⟨⟨y, hy, heq⟩, -⟩
    cases heq
    exact (List.nodup_append.1 hspare.nodup1).2.2 _ hy _ hx rfl
  · obtain ⟨hown, hfree⟩ := hspare.right.second x hx
    refine ⟨h.le.own2 hown, fun c hc => (h.twins hc).elim (hfree c) ?_⟩
    rintro ⟨-, y, hy, heq⟩
    cases heq
    exact (List.nodup_append.1 hspare.nodup2).2.2 _ hy _ hx rfl

end Grows

def Hold (s : Store) (frame : Nat) (names : List String) (vs : List Value) : Prop :=
  List.Forall₂ (fun x v => s.content (frame, x) = some (.value v)) names vs

namespace Stage

theorem own_all (h : Stage I w p1 p2 env1 env2) {names1 names2 : List String} {vs : List Value}
    (hrel : Alike I w s1 s2) (hlen1 : names1.length = vs.length)
    (hlen2 : names2.length = vs.length) (hholds1 : p1.Holds names1) (hholds2 : p2.Holds names2)
    (hspare : Spares I env1 env2 names1 names2) :
    ∃ t1 t2, assignAll env1 names1 vs s1 = .ok () t1 ∧ assignAll env2 names2 vs s2 = .ok () t2 ∧
      Alike I w t1 t2 ∧ Hold t1 (top env1) names1 vs ∧ Hold t2 (top env2) names2 vs ∧
      (∀ x ∉ names1, t1.content (top env1, x) = s1.content (top env1, x)) ∧
      ∀ x ∉ names2, t2.content (top env2, x) = s2.content (top env2, x) := by
  induction vs generalizing names1 names2 s1 s2 with
  | nil =>
    have hnil1 := List.length_eq_zero_iff.1 hlen1
    have hnil2 := List.length_eq_zero_iff.1 hlen2
    subst hnil1 hnil2
    exact ⟨s1, s2, rfl, rfl, hrel, .nil, .nil, fun _ _ => rfl, fun _ _ => rfl⟩
  | cons v vs ih =>
    cases names1 with
    | nil => cases hlen1
    | cons x1 names1 =>
    cases names2 with
    | nil => cases hlen2
    | cons x2 names2 =>
    have hcons : Spares I env1 env2 ([x1] ++ names1) ([x2] ++ names2) := hspare
    have hholds : p1.Holds [x1] ∧ p2.Holds [x2] := ⟨hholds1.sub (by simp), hholds2.sub (by simp)⟩
    obtain ⟨u1, u2, ha1, ha2, hrel', hu1, hu2⟩ := h.own_both hrel hholds.1 hholds.2
      hcons.left.first hcons.left.second v
    obtain ⟨t1, t2, hb1, hb2, hrel'', hold1, hold2, hkeep1, hkeep2⟩ := ih hrel'
      (Nat.succ.inj hlen1) (Nat.succ.inj hlen2)
      (hholds1.sub (List.subset_cons_self ..)) (hholds2.sub (List.subset_cons_self ..)) hcons.right
    refine ⟨t1, t2, ?_, ?_, hrel'', .cons ?_ hold1, .cons ?_ hold2, fun y hy => ?_, fun y hy => ?_⟩
    · rw [assignAll, Run.bind_ok ha1]
      exact hb1
    · rw [assignAll, Run.bind_ok ha2]
      exact hb2
    · rw [hkeep1 x1 (List.nodup_cons.1 hspare.nodup1).1, hu1]
      exact Store.content_put_self (hrel.own1 (hspare.first x1 List.mem_cons_self).1)
    · rw [hkeep2 x2 (List.nodup_cons.1 hspare.nodup2).1, hu2]
      exact Store.content_put_self (hrel.own2 (hspare.second x2 List.mem_cons_self).1)
    · have hne : (top env1, y) ≠ (top env1, x1) := fun heq => hy (List.mem_cons.2 (Or.inl (Prod.mk.inj heq).2))
      rw [hkeep1 y fun hmem => hy (List.mem_cons_of_mem _ hmem), hu1, Store.content_put_of_ne hne]
    · have hne : (top env2, y) ≠ (top env2, x2) := fun heq => hy (List.mem_cons.2 (Or.inl (Prod.mk.inj heq).2))
      rw [hkeep2 y fun hmem => hy (List.mem_cons_of_mem _ hmem), hu2, Store.content_put_of_ne hne]

theorem twin_all (hrel : Alike I w s1 s2)
    (hold1 : Hold s1 (top env1) names1 vs) (hold2 : Hold s2 (top env2) names2 vs)
    (hspare : Spares I env1 env2 names1 names2) : ∃ I', Grows I I' env1 env2 names1 names2 ∧ Alike I' w s1 s2 ∧
      List.Forall₂ (fun x1 x2 => I'.twins (top env1, x1) (top env2, x2)) names1 names2 ∧
      ∀ (xs : List String) (p1 p2 : Place), xs.length = names1.length →
        Stage I w p1 p2 env1 env2 → Stage I' w (p1.declareAll (xs.zip names1))
          (p2.declareAll (xs.zip names2)) env1 env2 := by
  induction vs generalizing I names1 names2 with
  | nil =>
    cases hold1
    cases hold2
    refine ⟨I, .refl I, hrel, .nil, fun xs p1 p2 _ hstage => ?_⟩
    rw [List.zip_nil_right]
    exact hstage
  | cons v vs ih =>
    cases hold1 with
    | @cons x1 _ names1 _ hc1 hold1 =>
    cases hold2 with
    | @cons x2 _ names2 _ hc2 hold2 =>
    obtain ⟨hown1, hfree1⟩ := hspare.first x1 List.mem_cons_self
    obtain ⟨hown2, hfree2⟩ := hspare.second x2 List.mem_cons_self
    have htwin := hrel.twin hown1 hown2 hfree1 hfree2 hc1 hc2
    have hgrows : Grows I (I.twin hown1 hown2 hfree1 hfree2) env1 env2 [x1] [x2] := by
      refine ⟨Ledger.le_twin hown1 hown2 hfree1 hfree2, fun hc => hc.imp_right ?_⟩
      rintro ⟨rfl, rfl⟩
      exact ⟨⟨x1, List.mem_cons_self, rfl⟩, x2, List.mem_cons_self, rfl⟩
    obtain ⟨I', hgrows', hrel', htwins, hstage'⟩ := ih htwin hold1 hold2 (hgrows.spares hspare)
    refine ⟨I', (hgrows.sub (by simp) (by simp)).trans
      (hgrows'.sub (List.subset_cons_self ..) (List.subset_cons_self ..)), hrel',
      .cons (hgrows'.le.twins (Or.inr ⟨rfl, rfl⟩)) htwins, fun xs p1 p2 hlen hstage => ?_⟩
    cases xs with
    | nil => cases hlen
    | cons x xs => exact hstage' xs _ _ (Nat.succ.inj hlen) (hstage.declare hown1 hown2 hfree1 hfree2)

theorem store (h : Stage I w p1 p2 env1 env2) {xs names1 names2 : List String} {vs : List Value}
    (hrel : Alike I w s1 s2) (hxs : xs.length = vs.length) (hlen1 : names1.length = vs.length)
    (hlen2 : names2.length = vs.length) (hholds1 : p1.Holds names1) (hholds2 : p2.Holds names2)
    (hspare : Spares I env1 env2 names1 names2) :
    ∃ t1 t2 I', assignAll env1 names1 vs s1 = .ok () t1 ∧ assignAll env2 names2 vs s2 = .ok () t2 ∧
      Grows I I' env1 env2 names1 names2 ∧ Alike I' w t1 t2 ∧
      List.Forall₂ (fun x1 x2 => I'.twins (top env1, x1) (top env2, x2)) names1 names2 ∧
      Stage I' w (p1.declareAll (xs.zip names1)) (p2.declareAll (xs.zip names2)) env1 env2 := by
  obtain ⟨t1, t2, ha1, ha2, hrel', hold1, hold2, -, -⟩ := h.own_all hrel hlen1 hlen2 hholds1 hholds2 hspare
  obtain ⟨I', hgrows, hrel'', htwins, hdeclared⟩ := twin_all hrel' hold1 hold2 hspare
  exact ⟨t1, t2, I', ha1, ha2, hgrows, hrel'', htwins, hdeclared xs p1 p2 (hxs.trans hlen1.symm) h⟩

end Stage

/-! ## Composition -/

theorem SameExit.congr {p1' p2' : Place} (h : SameExit p1 p2 signal1 signal2) (h1 : p1'.loops = p1.loops)
    (h2 : p2'.loops = p2.loops) : SameExit p1' p2' signal1 signal2 := by
  cases h with
  | leave =>
    have hleave1 : p1.leaving = p1'.leaving := by rw [Place.leaving, Place.leaving, h1]
    have hleave2 : p2.leaving = p2'.leaving := by rw [Place.leaving, Place.leaving, h2]
    rw [hleave1, hleave2]
    exact .leave
  | result r => exact .result r

theorem Ends.later (h : Ends I' w' p1' p2' q1 q2 env1 env2 given1 given2 signal1 signal2 s1 s2)
    (hgrows : Grows I I' env1 env2 more1 more2) (hle : ∀ f1 f2, w f1 f2 → w' f1 f2)
    (hloops1 : p1.loops = p1'.loops) (hloops2 : p2.loops = p2'.loops) :
    Ends I w p1 p2 q1 q2 env1 env2 (more1 ++ given1) (more2 ++ given2) signal1 signal2 s1 s2 := by
  cases h with
  | next hgrows' hle' hrel hstage =>
    refine .next (Grows.trans (hgrows.sub (List.subset_append_left ..) (List.subset_append_left ..))
      (hgrows'.sub (List.subset_append_right ..) (List.subset_append_right ..)))
      (fun _ _ h => hle' _ _ (hle _ _ h)) hrel hstage
  | exit hexit hrel => exact .exit (hexit.congr hloops1 hloops2) (hrel.forget hgrows.le hle)

namespace ExecSim

variable {nesting nesting' : Nat} {run1 run2 next1 next2 : Machine → Env → Run Signal} {α : Type}

theorem mono (h : ExecSim nesting p1 p2 q1 q2 given1 given2 run1 run2) (hle : nesting ≤ nesting') :
    ExecSim nesting' p1 p2 q1 q2 given1 given2 run1 run2 :=
  fun _ _ _ _ _ _ _ _ hn => h (by omega)

theorem congr {run1' run2' : Machine → Env → Run Signal} (h : ExecSim nesting p1 p2 q1 q2 given1 given2 run1' run2')
    (h1 : ∀ n env, run1 (within n) env = run1' (within n) env)
    (h2 : ∀ n env, run2 (within n) env = run2' (within n) env) :
    ExecSim nesting p1 p2 q1 q2 given1 given2 run1 run2 := by
  intro I w env1 env2 n N
  rw [h1, h2]
  exact @h I w env1 env2 n N

theorem skip : ExecSim nesting p1 p2 p1 p2 given1 given2 (fun _ _ => pure .next) fun _ _ => pure .next :=
  fun I _ _ _ _ _ _ _ _ hstage _ hrel => .ok (.next (.refl I) (fun _ _ h => h) hrel hstage)

theorem exit (h : SameExit p1 p2 signal1 signal2) :
    ExecSim nesting p1 p2 q1 q2 given1 given2 (fun _ _ => pure signal1) fun _ _ => pure signal2 :=
  fun _ w _ _ _ _ _ _ _ _ _ hrel => .ok (.exit h ⟨w, fun _ _ h => h, hrel⟩)

theorem after {value1 value2 : Machine → Env → Run α} {next1 next2 : α → Machine → Env → Run Signal}
    (h : EvalSim p1 p2 given1 given2 value1 value2)
    (hnext : ∀ a, ExecSim nesting p1 p2 q1 q2 more1 more2 (next1 a) (next2 a)) :
    ExecSim nesting p1 p2 q1 q2 (given1 ++ more1) (given2 ++ more2)
      (fun m env => value1 m env >>= fun a => next1 a m env)
      fun m env => value2 m env >>= fun a => next2 a m env := by
  intro I w env1 env2 n N s1 s2 hn hstage hspare hrel
  have hval := both_of_agree (h (show n ≤ N by omega) hstage hspare.left (fun _ _ h => h) hrel)
  refine hval.bind fun {a b _ _} hQ => ?_
  obtain ⟨rfl, w', hle, hrel'⟩ := hQ
  have hgo := hnext a hn (hstage.mono hle) hspare.right hrel'
  exact hgo.imp (fun h => h.later (.refl I) hle rfl rfl) fun h => h.forget (.refl I) hle

theorem ofYields (h : ∀ ⦃I w env1 env2 n N⦄, n + nesting ≤ N → Stage I w p1 p2 env1 env2 →
    Spares I env1 env2 given1 given2 →
    I.coupling.Yields w Plain (run1 (within n) env1) (run2 (within N) env2)) :
    ExecSim nesting p1 p2 p1 p2 given1 given2 run1 run2 := by
  intro I w env1 env2 n N s1 s2 hn hstage hspare hrel
  have hyields := h hn hstage hspare
  have hboth := both_of_agree (hyields.coupled (fun _ _ h => h) hrel)
  have hplain (signal : Signal) (t : Store) (hrun : run1 (within n) env1 s1 = .ok signal t) :
      Plain signal := hyields.value (fun _ _ h => h) hrel hrun
  generalize run1 (within n) env1 s1 = o1 at hboth hplain
  generalize run2 (within N) env2 s2 = o2 at hboth
  cases hboth with
  | ok h =>
    obtain ⟨rfl, w', hle, hrel'⟩ := h
    cases hplain _ _ rfl with
    | next => exact .ok (.next (.refl I) hle hrel' (hstage.mono hle))
    | result r => exact .ok (.exit (.result r) ⟨w', hle, hrel'⟩)
  | fault h => exact .fault h
  | spent => exact .spent

theorem value {value1 value2 : Machine → Env → Run α}
    (h : EvalSim p1 p2 given1 given2 value1 value2) {f : α → Signal} (hf : ∀ a, Plain (f a)) :
    ExecSim nesting p1 p2 p1 p2 given1 given2 (fun m env => value1 m env >>= fun a => pure (f a))
      fun m env => value2 m env >>= fun a => pure (f a) := by
  refine ofYields fun I w env1 env2 n N hn hstage hspare => ?_
  exact yields_bind (h (by omega) hstage hspare).yields fun a _ => yields_pure (hf a)

theorem declaring {xs names1 names2 : List String} {vs : List Value}
    (hlen1 : names1.length = xs.length) (hlen2 : names2.length = xs.length)
    (hvs : vs.length = xs.length) (hholds1 : p1.Holds names1) (hholds2 : p2.Holds names2)
    (h : ExecSim nesting (p1.declareAll (xs.zip names1)) (p2.declareAll (xs.zip names2)) q1 q2
      given1 given2 run1 run2) :
    ExecSim nesting p1 p2 q1 q2 (names1 ++ given1) (names2 ++ given2)
      (fun m env => assignAll env names1 vs >>= fun _ => run1 m env)
      fun m env => assignAll env names2 vs >>= fun _ => run2 m env := by
  intro I w env1 env2 n N s1 s2 hn hstage hspare hrel
  obtain ⟨t1, t2, I', ha1, ha2, hgrows, hrel', -, hstage'⟩ := hstage.store hrel hvs.symm
    (hlen1.trans hvs.symm) (hlen2.trans hvs.symm) hholds1 hholds2 hspare.left
  have hgo := h hn hstage' (hgrows.spares hspare) hrel'
  show Both _ _ ((assignAll env1 names1 vs >>= fun _ => run1 (within n) env1) s1)
    ((assignAll env2 names2 vs >>= fun _ => run2 (within N) env2) s2)
  rw [Run.bind_ok ha1, Run.bind_ok ha2]
  exact hgo.imp (fun h => h.later hgrows (fun _ _ h => h) (by simp) (by simp))
    fun h => h.forget hgrows.le fun _ _ h => h

theorem seq (h : ExecSim nesting p1 p2 q1 q2 given1 given2 run1 run2) (hloops1 : p1.loops = q1.loops)
    (hloops2 : p2.loops = q2.loops) (hnext : ExecSim nesting q1 q2 r1 r2 more1 more2 next1 next2) :
    ExecSim nesting p1 p2 r1 r2 (given1 ++ more1) (given2 ++ more2)
      (fun m env => run1 m env >>= proceed (next1 m env))
      fun m env => run2 m env >>= proceed (next2 m env) := by
  intro I w env1 env2 n N s1 s2 hn hstage hspare hrel
  have hrun := h hn hstage hspare.left hrel
  refine hrun.bind fun hQ => ?_
  cases hQ with
  | next hgrows hle hrel' hstage' =>
    have hgo := hnext hn hstage' (hgrows.spares hspare) hrel'
    exact hgo.imp (fun h => h.later hgrows hle hloops1 hloops2) fun h => h.forget hgrows.le hle
  | exit hexit hlater =>
    cases hexit with
    | result r => exact .ok (.exit (.result r) hlater)
    | leave =>
      rw [p1.proceed_leaving, p2.proceed_leaving]
      exact .ok (.exit .leave hlater)

theorem block (h : ExecSim nesting p1 p2 q1 q2 given1 given2 run1 run2) :
    ExecSim nesting p1 p2 p1 p2 given1 given2 run1 run2 := by
  intro I w env1 env2 n N s1 s2 hn hstage hspare hrel
  refine (h hn hstage hspare hrel).imp (fun hends => ?_) id
  cases hends with
  | next hgrows hle hrel' _ => exact .next (.refl I) hle (hrel'.forget hgrows.le) (hstage.mono hle)
  | exit hexit hlater => exact .exit hexit hlater

end ExecSim

end Target.Scoping

end TypedLua
