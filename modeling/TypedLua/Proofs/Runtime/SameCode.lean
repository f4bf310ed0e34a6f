import TypedLua.Proofs.Runtime.Alike

/-!
# The same code in alike stores

Code that mentions no variable of one run alone does the same in alike stores: it finds its
variables in paired frames, and the functions that it makes and calls are the same again.
-/

namespace TypedLua

open Coupling

variable {I : Ledger} {w w' : Pairing} {s1 s2 : Store} {env1 env2 : Env}

structure Views (I : Ledger) (w : Pairing) (env1 env2 : Env) (names : List String) : Prop where
  env : SameEnv w env1 env2
  apart1 : Apart I.own1 env1.frames names
  apart2 : Apart I.own2 env2.frames names

theorem Apart.sub {own : Cell → Prop}
    (h : Apart own frames names) (hsub : names' ⊆ names) : Apart own frames names' :=
  fun f hf x hx => h f hf x (hsub hx)

theorem Apart.outer {own : Cell → Prop} (h : Apart own (f :: frames) names) : Apart own frames names :=
  fun _ hf => h _ (List.mem_cons_of_mem _ hf)

theorem Apart.push {own : Cell → Prop} (h : Apart own frames names) (hnew : ∀ x, ¬own (f, x)) :
    Apart own (f :: frames) names :=
  fun _ hf x hx => (List.mem_cons.1 hf).elim (fun heq => heq ▸ hnew x) fun hf => h _ hf x hx

namespace Views

variable {names names' : List String}

theorem mono (hle : ∀ f1 f2, w f1 f2 → w' f1 f2) (h : Views I w env1 env2 names) : Views I w' env1 env2 names :=
  ⟨h.env.mono hle, h.apart1, h.apart2⟩

theorem sub (h : Views I w env1 env2 names) (hsub : names' ⊆ names) : Views I w env1 env2 names' :=
  ⟨h.env, h.apart1.sub hsub, h.apart2.sub hsub⟩

theorem left (h : Views I w env1 env2 (names ++ names')) : Views I w env1 env2 names :=
  h.sub (List.subset_append_left ..)

theorem right (h : Views I w env1 env2 (names ++ names')) : Views I w env1 env2 names' :=
  h.sub (List.subset_append_right ..)

theorem tail (h : Views I w env1 env2 (x :: names)) : Views I w env1 env2 names :=
  h.sub (List.subset_cons_self ..)

theorem head (h : Views I w env1 env2 (x :: names)) : Views I w env1 env2 [x] := h.sub (by simp)

end Views

namespace Machine

/-! ## Variables -/

variable {x : String}

theorem holder_alike (h : Alike I w s1 s2)
    (hframes : List.Forall₂ w frames1 frames2) (hx1 : Apart I.own1 frames1 [x]) (hx2 : Apart I.own2 frames2 [x]) :
    (holder s1 x frames1 = none ∧ holder s2 x frames2 = none) ∨ ∃ f1 f2, w f1 f2 ∧ ¬I.own1 (f1, x) ∧ ¬I.own2 (f2, x) ∧
        holder s1 x frames1 = some f1 ∧ holder s2 x frames2 = some f2 := by
  induction hframes with
  | nil => exact .inl ⟨rfl, rfl⟩
  | @cons f1 f2 frames1 frames2 hf hframes ih =>
    have hown1 : ¬I.own1 (f1, x) := hx1 f1 List.mem_cons_self x (List.mem_singleton_self x)
    have hown2 : ¬I.own2 (f2, x) := hx2 f2 List.mem_cons_self x (List.mem_singleton_self x)
    have heq := (h.same hf x hown1 hown2).isSome_eq
    rw [holder, holder, ← heq]
    cases (s1.content (f1, x)).isSome with
    | true => exact .inr ⟨f1, f2, hf, hown1, hown2, rfl, rfl⟩
    | false => exact ih hx1.outer hx2.outer

/-- Two lookups fail alike, or find contents that are the same in both runs. -/
def FoundAlike (I : Ledger) (w : Pairing) (s1 s2 : Store) (find1 find2 : Run Slot) : Prop :=
  (∃ t, find1 s1 = .error (.fault (.trap t)) s1 ∧ find2 s2 = .error (.fault (.trap t)) s2) ∨
    ∃ slot1 slot2, find1 s1 = .ok slot1 s1 ∧ find2 s2 = .ok slot2 s2 ∧ SameSlot I w (some slot1) (some slot2)

theorem lookupIn_alike (h : Alike I w s1 s2) (hf : w f1 f2) (hx1 : Apart I.own1 (f1 :: frames1) [x])
    (hx2 : Apart I.own2 (f2 :: frames2) [x]) (unset : Trap) (houter : FoundAlike I w s1 s2 outer1 outer2) :
    FoundAlike I w s1 s2 (lookupIn f1 x unset outer1) (lookupIn f2 x unset outer2) := by
  have hsame := h.same hf x (hx1 f1 List.mem_cons_self x (List.mem_singleton_self x))
    (hx2 f2 List.mem_cons_self x (List.mem_singleton_self x))
  have hget1 : Run.slot? f1 x s1 = .ok (s1.content (f1, x)) s1 := rfl
  have hget2 : Run.slot? f2 x s2 = .ok (s2.content (f2, x)) s2 := rfl
  rw [FoundAlike, lookupIn, lookupIn, Run.bind_ok hget1, Run.bind_ok hget2]
  generalize s1.content (f1, x) = o1 at hsame
  generalize s2.content (f2, x) = o2 at hsame
  cases hsame with
  | none => exact houter
  | unset => exact .inl ⟨_, rfl, rfl⟩
  | value v => exact .inr ⟨_, _, rfl, rfl, .value v⟩
  | flow f => exact .inr ⟨_, _, rfl, rfl, .flow f⟩
  | iteration hc => exact .inr ⟨_, _, rfl, rfl, .iteration hc⟩

theorem lookupOuter_alike (h : Alike I w s1 s2) (hframes : List.Forall₂ w frames1 frames2)
    (hx1 : Apart I.own1 frames1 [x]) (hx2 : Apart I.own2 frames2 [x]) :
    FoundAlike I w s1 s2 (lookupOuter x frames1) (lookupOuter x frames2) := by
  induction hframes with
  | nil => exact .inl ⟨_, rfl, rfl⟩
  | cons hf hframes ih => exact lookupIn_alike h hf hx1 hx2 _ (ih hx1.outer hx2.outer)

theorem lookup_alike (h : Alike I w s1 s2) (hframes : List.Forall₂ w frames1 frames2)
    (hx1 : Apart I.own1 frames1 [x]) (hx2 : Apart I.own2 frames2 [x]) :
    FoundAlike I w s1 s2 (lookup x frames1) (lookup x frames2) := by
  cases hframes with
  | nil => exact .inl ⟨_, rfl, rfl⟩
  | cons hf hframes => exact lookupIn_alike h hf hx1 hx2 _ (lookupOuter_alike h hframes hx1.outer hx2.outer)

theorem SameClosure.make {d : Target.Def} (hv : Views I w env1 env2 d.names) :
    SameClosure I w (.make d env1) (.make d env2) :=
  ⟨rfl, rfl, hv.env, hv.apart1, hv.apart2⟩

variable [Tracking I]

theorem coupled_lookup {k1 k2 : Slot → Run α} (hv : Views I w env1 env2 [x])
    (hk : ∀ {w' slot1 slot2}, (∀ f1 f2, w f1 f2 → w' f1 f2) → SameSlot I w' (some slot1) (some slot2) →
      I.coupling.Coupled w' (k1 slot1) (k2 slot2)) :
    I.coupling.Coupled w (lookup x env1.frames >>= k1) (lookup x env2.frames >>= k2) := by
  intro w' s1 s2 hle hrel
  have hv' := hv.mono hle
  rcases lookup_alike (Tracking.alike hrel) hv'.env.frames hv'.apart1 hv'.apart2 with
    ⟨t, h1, h2⟩ | ⟨slot1, slot2, h1, h2, hsame⟩
  · rw [Run.bind_error h1, Run.bind_error h2]
    exact .fault (I.coupling.le_refl _) hrel
  · rw [Run.bind_ok h1, Run.bind_ok h2]
    exact hk hle hsame (I.coupling.le_refl _) hrel

theorem coupled_readVar (hv : Views I w env1 env2 [x]) : I.coupling.Coupled w (readVar env1 x) (readVar env2 x) :=
  coupled_lookup hv fun _ hsame => by cases hsame <;> exact .pure _

theorem coupled_readVars (hv : Views I w env1 env2 xs) :
    I.coupling.Coupled w (readVars env1 xs) (readVars env2 xs) := by
  induction xs with
  | nil => exact .pure _
  | cons x xs ih =>
    exact .bind (coupled_readVar hv.head) fun _ => .map (ih hv.tail)

theorem coupled_readFlow (hv : Views I w env1 env2 [x]) : I.coupling.Coupled w (readFlow env1 x) (readFlow env2 x) :=
  coupled_lookup hv fun _ hsame => by cases hsame <;> exact .pure _

theorem agree_assignHolder (h : Tracking.Rel I w s1 s2) (hv : Views I w env1 env2 [x])
    (hslot : SameSlot I w (some slot1) (some slot2)) (hset : slot1 ≠ .unset) :
    I.coupling.Agree w (assignHolder x slot1 env1.frames s1) (assignHolder x slot2 env2.frames s2) := by
  have halike := Tracking.alike h
  rcases holder_alike halike hv.env.frames hv.apart1 hv.apart2 with
    ⟨h1, h2⟩ | ⟨f1, f2, hf, hown1, hown2, h1, h2⟩
  · rw [assignHolder_of_none slot1 h1, assignHolder_of_none slot2 h2]
    exact .fault (I.coupling.le_refl _) h
  · rw [assignHolder_of_holder slot1 h1, assignHolder_of_holder slot2 h2]
    obtain ⟨-, old, hold⟩ := holder_some h1
    have hsome : (s1.content (f1, x)).isSome = true := by
      rw [hold]
      rfl
    exact .ok (I.coupling.le_refl _) (Tracking.put h hown1 hown2 (halike.put_both hf hown1 hown2 hsome hslot hset))

theorem coupled_assign (hv : Views I w env1 env2 [x]) (v : Value) :
    I.coupling.Coupled w (assign env1 x v) (assign env2 x v) :=
  fun _ _ _ hle hrel => agree_assignHolder hrel (hv.mono hle) (.value v) (by simp)

theorem coupled_assignAll (hv : Views I w env1 env2 xs) (vs : List Value) :
    I.coupling.Coupled w (assignAll env1 xs vs) (assignAll env2 xs vs) := by
  induction xs generalizing vs with
  | nil => exact .pure _
  | cons x xs ih =>
    cases vs with
    | nil => exact .pure _
    | cons v vs => exact .bind (coupled_assign hv.head v) fun _ => ih hv.tail vs

/-! ## Expressions -/

/-- Machines that do the same with the same functions, as far as the first has fuel. -/
structure SameMachine (I : Ledger) [Tracking I] (w : Pairing) (m1 m2 : Machine) : Prop where
  bound : m1.bound ≤ m2.bound
  call : ∀ f args, I.coupling.Coupled w (m1.call f args) (m2.call f args)
  enter : ∀ {w' c1 c2} args, (∀ f1 f2, w f1 f2 → w' f1 f2) → SameClosure I w' c1 c2 →
    I.coupling.Coupled w' (m1.enter c1 args) (m2.enter c2 args)
  watch1 : m1.watch = unwatched
  watch2 : m2.watch = unwatched

variable {m1 m2 : Machine}

theorem SameMachine.mono (hle : ∀ f1 f2, w f1 f2 → w' f1 f2) (h : SameMachine I w m1 m2) : SameMachine I w' m1 m2 :=
  ⟨h.bound, fun f args => (h.call f args).mono hle,
    fun args hle' => h.enter args fun _ _ hw => hle' _ _ (hle _ _ hw), h.watch1, h.watch2⟩

theorem coupled_lastOf (v : Value) : I.coupling.Coupled w (lastOf v) (lastOf v) := by
  unfold lastOf
  split
  · exact .getRaw ..
  · split
    · exact .pure _
    · exact .trap _
  · exact .trap _

mutual

theorem coupled_evalExpr (hm : SameMachine I w m1 m2) : ∀ (e : Target.Expr),
    Views I w env1 env2 e.names → I.coupling.Coupled w (evalExpr m1 env1 e) (evalExpr m2 env2 e)
  | .null, _ | .bool _, _ | .infinity, _ | .string _, _ | .number (.int _), _ => .pure _
  | .number (.float x), _ => .ite (.trap _) (.pure _)
  | .var x, hv => coupled_readVar hv
  | .global x, hv => by
    simp only [evalExpr, hv.env.globals]
    exact .getRaw ..
  | .firstVararg, hv => by
    simp only [evalExpr, hv.env.varargs]
    exact .pure _
  | .table items tail, hv =>
    .bind (coupled_evalItems hm items hv.left) fun _ =>
      .bind (coupled_evalTail hm tail hv.right) fun _ => .makeTable ..
  | .binary op left right, hv =>
    .bind (coupled_evalExpr hm left hv.left) fun _ =>
      .bind (coupled_evalExpr hm right hv.right) fun _ => .lift _
  | .andThen temp left right, hv =>
    .bind (coupled_evalExpr hm left hv.tail.left) fun a =>
      .bind (coupled_assign hv.head a) fun _ => .ite (coupled_evalExpr hm right hv.tail.right) (.pure _)
  | .orElse temp left right, hv =>
    .bind (coupled_evalExpr hm left hv.tail.left) fun a =>
      .bind (coupled_assign hv.head a) fun _ => .ite (.pure _) (coupled_evalExpr hm right hv.tail.right)
  | .negation operand, hv => .map (coupled_evalExpr hm operand hv)
  | .length operand, hv => .bind (coupled_evalExpr hm operand hv) fun _ => .length _
  | .minus operand, hv => .bind (coupled_evalExpr hm operand hv) fun _ => .lift _
  | .first call, hv => .map (coupled_evalCall hm call hv)
  | .index object key, hv =>
    .bind (coupled_evalExpr hm object hv.left) fun _ =>
      .bind (coupled_evalExpr hm key hv.right) fun _ => .index hm.call ..
  | .last [] value, hv => .bind (coupled_evalExpr hm value hv.right) fun _ => coupled_lastOf _
  | .last (part :: parts) value, hv =>
    .bind (coupled_evalParts hm (part :: parts) hv.left) fun _ => coupled_evalExpr hm value hv.right

theorem coupled_evalCall (hm : SameMachine I w m1 m2) : ∀ (call : Target.Call), Views I w env1 env2 call.names →
    I.coupling.Coupled w (evalCall m1 env1 call) (evalCall m2 env2 call)
  | .call callee args tail, hv =>
    .bind (coupled_evalExpr hm callee hv.left) fun _ =>
      .bind (coupled_evalExprs hm args hv.right.left) fun _ =>
        .bind (coupled_evalTail hm tail hv.right.right) fun _ => hm.call ..
  | .invoke object member args tail, hv =>
    .bind (coupled_evalExpr hm object hv.left) fun _ =>
      .bind (coupled_evalExprs hm args hv.right.left) fun _ =>
        .bind (coupled_evalTail hm tail hv.right.right) fun _ => .invoke hm.call ..
  | .varargs, hv => by
    simp only [evalCall, hv.env.varargs]
    exact .pure _
  | .single value, hv => .map (coupled_evalExpr hm value hv)

theorem coupled_evalExprs (hm : SameMachine I w m1 m2) : ∀ (es : List Target.Expr),
    Views I w env1 env2 (Target.exprsNames es) →
    I.coupling.Coupled w (evalExprs m1 env1 es) (evalExprs m2 env2 es)
  | [], _ => .pure _
  | e :: es, hv => .bind (coupled_evalExpr hm e hv.left) fun _ => .map (coupled_evalExprs hm es hv.right)

theorem coupled_evalTail (hm : SameMachine I w m1 m2) : ∀ (tail : Option Target.Tail),
    Views I w env1 env2 (Target.tailNames tail) →
    I.coupling.Coupled w (evalTail m1 env1 tail) (evalTail m2 env2 tail)
  | none, _ => .pure _
  | some .varargs, hv => by
    simp only [evalTail, hv.env.varargs]
    exact .pure _
  | some (.expand call), hv => .map (coupled_evalCall hm call hv)

theorem coupled_evalParts (hm : SameMachine I w m1 m2) : ∀ (parts : List Target.Part),
    Views I w env1 env2 (Target.partsNames parts) →
    I.coupling.Coupled w (evalParts m1 env1 parts) (evalParts m2 env2 parts)
  | [], _ => .pure _
  | .run call :: parts, hv => by
    simp only [evalParts, hm.watch1, hm.watch2, unwatched]
    exact .bind (coupled_evalCall hm call hv.left) fun _ => coupled_evalParts hm parts hv.right
  | .bind x value :: parts, hv =>
    .bind (coupled_evalExpr hm value hv.tail.left) fun v =>
      .bind (coupled_assign hv.head v) fun _ => coupled_evalParts hm parts hv.tail.right

theorem coupled_evalItems (hm : SameMachine I w m1 m2) : ∀ (items : List Target.Item),
    Views I w env1 env2 (Target.itemsNames items) →
    I.coupling.Coupled w (evalItems m1 env1 items) (evalItems m2 env2 items)
  | [], _ => .pure _
  | .keyed key value :: items, hv =>
    .bind (coupled_evalExpr hm key hv.left) fun _ =>
      .bind (coupled_evalExpr hm value hv.right.left) fun _ => .map (coupled_evalItems hm items hv.right.right)
  | .positional value :: items, hv =>
    .bind (coupled_evalExpr hm value hv.left) fun _ => .map (coupled_evalItems hm items hv.right)

end

theorem coupled_evalList (hm : SameMachine I w m1 m2) (args : List Target.Expr) (tail : Option Target.Tail)
    (hv : Views I w env1 env2 (Target.exprsNames args ++ Target.tailNames tail)) :
    I.coupling.Coupled w (evalList m1 env1 args tail) (evalList m2 env2 args tail) :=
  .bind (coupled_evalExprs hm args hv.left) fun _ => .map (coupled_evalTail hm tail hv.right)

theorem coupled_evalCond (hm : SameMachine I w m1 m2) (c : Target.Cond) (hv : Views I w env1 env2 c.names) :
    I.coupling.Coupled w (evalCond m1 env1 c) (evalCond m2 env2 c) := by
  cases c with
  | truthy value | plain value => exact .map (coupled_evalExpr hm value hv)

theorem coupled_evalAnswer (hm : SameMachine I w m1 m2) (a : Target.Answer) (hv : Views I w env1 env2 a.names) :
    I.coupling.Coupled w (evalAnswer m1 env1 a) (evalAnswer m2 env2 a) := by
  cases a with
  | call value => exact coupled_evalCall hm value hv
  | pack args tail => exact .map (coupled_evalList hm args tail hv)

end Machine

/-! ## Loops -/

namespace Machine

variable {C : Coupling} {v : C.World}

variable {n N : Nat}

theorem yields_rounds {P : Signal → Prop} (h : C.Yields v (∀ signal ∈ ·, P signal) round1 round2) (hn : n ≤ N) :
    C.Yields v P (rounds round1 n) (rounds round2 N) := by
  induction n generalizing N with
  | zero => exact yields_exhausted _
  | succ n ih =>
    obtain ⟨N, rfl⟩ : ∃ k, N = k + 1 := ⟨N - 1, by omega⟩
    refine yields_bind h fun signal hsignal => ?_
    cases signal with
    | none => exact ih (by omega)
    | some signal => exact yields_pure (hsignal signal rfl)

theorem yields_counting {P : Signal → Prop} (hnext : P .next) (p : Operator.Progression)
    {body1 body2 : Number → Run Signal}
    (h : ∀ value, C.Yields v (fun signal => ∀ after ∈ afterBody signal, P after) (body1 value)
      (body2 value)) (hn : n ≤ N) (value : Number) :
    C.Yields v P (counting p body1 n value) (counting p body2 N value) := by
  induction n generalizing N value with
  | zero => exact yields_exhausted _
  | succ n ih =>
    obtain ⟨N, rfl⟩ : ∃ k, N = k + 1 := ⟨N - 1, by omega⟩
    refine yields_ite (yields_bind (h value) fun signal hsignal => ?_) (yields_pure hnext)
    cases hafter : afterBody signal with
    | none => exact yields_bind (Coupled.lift _).yields fun _ _ => ih (by omega) _
    | some after => exact yields_pure (hsignal after hafter)

theorem yields_iterating {P : Signal → Prop} (hnext : P .next)
    (hcall : ∀ f args, C.Coupled v (call1 f args) (call2 f args)) (it : Iterator) (count : Nat)
    {body1 body2 : List Value → Run Signal} (h : ∀ values, values.length = count → C.Yields v
      (fun signal => ∀ after ∈ afterBody signal, P after) (body1 values) (body2 values)) (hn : n ≤ N) (control : Value) :
    C.Yields v P (iterating call1 it count body1 n control) (iterating call2 it count body2 N control) := by
  induction n generalizing N control with
  | zero => exact yields_exhausted _
  | succ n ih =>
    obtain ⟨N, rfl⟩ : ∃ k, N = k + 1 := ⟨N - 1, by omega⟩
    refine yields_bind (hcall ..).yields fun r _ => ?_
    cases r.toList with
    | nil => exact yields_pure hnext
    | cons first values =>
      refine yields_ite (yields_pure hnext) (yields_bind (h _ (by simp)) fun signal hsignal => ?_)
      cases hafter : afterBody signal with
      | none => exact ih (by omega) _
      | some after => exact yields_pure (hsignal after hafter)

theorem coupled_rounds (h : C.Coupled v round1 round2)
    (hn : n ≤ N) : C.Coupled v (rounds round1 n) (rounds round2 N) :=
  (yields_rounds (P := fun _ => True) ⟨h, fun _ _ _ _ _ _ _ _ _ _ => trivial⟩ hn).coupled

theorem coupled_counting (p : Operator.Progression) {body1 body2 : Number → Run Signal}
    (h : ∀ value, C.Coupled v (body1 value) (body2 value)) (hn : n ≤ N) (value : Number) :
    C.Coupled v (counting p body1 n value) (counting p body2 N value) :=
  (yields_counting (P := fun _ => True) trivial p
    (fun value => ⟨h value, fun _ _ _ _ _ _ _ _ _ _ => trivial⟩) hn value).coupled

theorem coupled_iterating (hcall : ∀ f args, C.Coupled v (call1 f args) (call2 f args)) (it : Iterator)
    (count : Nat) {body1 body2 : List Value → Run Signal}
    (h : ∀ values, C.Coupled v (body1 values) (body2 values)) (hn : n ≤ N) (control : Value) :
    C.Coupled v (iterating call1 it count body1 n control) (iterating call2 it count body2 N control) :=
  (yields_iterating (P := fun _ => True) trivial hcall it count
    (fun values _ => ⟨h values, fun _ _ _ _ _ _ _ _ _ _ => trivial⟩) hn control).coupled

theorem coupled_ofValues (vs : List Value) : C.Coupled v (Iterator.ofValues vs) (Iterator.ofValues vs) := by
  cases vs with
  | nil => exact .trap _
  | cons f rest => exact .pure _

end Machine

/-! ## Statements -/

namespace Machine

variable [Tracking I] {m1 m2 : Machine}

theorem coupled_define (d : Target.Def) (hv : Views I w env1 env2 d.names) :
    I.coupling.Coupled w (define env1 d) (define env2 d) := by
  intro w' s1 s2 hle hrel
  have hv' := hv.mono hle
  have hsame := SameClosure.make hv'
  rcases d with ⟨name, params, rest, nonlocals, body⟩
  have hname : Views I w' env1 env2 [name] := hv'.head
  cases rest with
  | none => exact agree_assignHolder hrel hname (.iteration hsame) (by simp)
  | varargs | ignored =>
    -- The new function has the same number in both runs.
    have hsize : s1.closures.size = s2.closures.size := by simpa using (Tracking.alike hrel).closures.length_eq
    have hrel' := Tracking.closure hrel ((Tracking.alike hrel).pushClosure hsame)
    have hassign := coupled_assign hname (.function (.closure s1.closures.size)) (I.coupling.le_refl _) hrel'
    have h1 : ∀ d : Target.Def, Run.newClosure (.make d env1) s1 =
        .ok s1.closures.size (s1.pushClosure (.make d env1)) := fun _ => rfl
    have h2 : ∀ d : Target.Def, Run.newClosure (.make d env2) s2 =
        .ok s2.closures.size (s2.pushClosure (.make d env2)) := fun _ => rfl
    unfold define
    dsimp only
    rw [Run.bind_ok (h1 _), Run.bind_ok (h2 _), ← hsize]
    exact hassign

theorem coupled_runIteration (hm : SameMachine I w m1 m2) (hv : Views I w env1 env2 (flow :: function :: args)) :
    I.coupling.Coupled w (runIteration m1 env1 flow function args) (runIteration m2 env2 flow function args) := by
  refine coupled_lookup hv.tail.head fun hle hsame => ?_
  cases hsame with
  | unset | flow | value => exact .complain _
  | iteration hc =>
    have hv' := hv.mono hle
    refine .bind (coupled_readVars hv'.tail.tail) fun vs => .bind (hm.enter vs hle hc) fun f => ?_
    exact fun _ _ _ hle' hrel => agree_assignHolder hrel (hv'.head.mono hle') (.flow f) (by simp)

mutual

theorem coupled_execStmt (hm : SameMachine I w m1 m2) : ∀ (s : Target.Stmt),
    Views I w env1 env2 s.names → I.coupling.Coupled w (execStmt m1 env1 s) (execStmt m2 env2 s)
  | .assignNull names, hv => .map (coupled_assignAll hv _)
  | .assign x value, hv => .bind (coupled_evalExpr hm value hv.tail) fun v => .map (coupled_assign hv.head v)
  | .assignTuple names values, hv =>
    .bind (coupled_evalExprs hm values hv.right) fun vs => .map (coupled_assignAll hv.left vs)
  | .assignAdjusted names args tail, hv =>
    .bind (coupled_evalList hm args tail hv.right) fun vs => .map (coupled_assignAll hv.left _)
  | .setGlobal x value, hv => by
    simp only [execStmt, hv.env.globals]
    exact .bind (coupled_evalExpr hm value hv) fun v => .map (.setRaw ..)
  | .setIndex object key value, hv =>
    .bind (coupled_evalExpr hm object hv.left) fun _ =>
      .bind (coupled_evalExpr hm key hv.right.left) fun _ =>
        .bind (coupled_evalExpr hm value hv.right.right) fun _ => .map (.setIndex ..)
  | .run call, hv => by
    simp only [execStmt, hm.watch1, hm.watch2, unwatched]
    exact .map (coupled_evalCall hm call hv)
  | .ifElse condition body otherwise, hv =>
    .bind (coupled_evalCond hm condition hv.left) fun _ =>
      .ite (coupled_execStmts hm body hv.right.left) (coupled_execOrElse hm otherwise hv.right.right)
  | .whileLoop condition body, hv => by
    refine coupled_rounds ?_ hm.bound
    exact .bind (coupled_evalCond hm condition hv.left) fun _ =>
      .ite (.map (coupled_execStmts hm body hv.right)) (.pure _)
  | .forever body, hv => coupled_rounds (.map (coupled_execStmts hm body hv)) hm.bound
  | .forRange x start stop none body, hv => by
    refine .bind (coupled_evalExpr hm start hv.tail.left) fun _ =>
      .bind (coupled_evalExpr hm stop hv.tail.right.left) fun _ =>
        .bind (.pure _) fun _ => .bind (.lift _) fun p => ?_
    exact coupled_counting p (fun value => .bind (coupled_assign hv.head _) fun _ =>
      coupled_execStmts hm body hv.tail.right.right.right) hm.bound _
  | .forRange x start stop (some step) body, hv => by
    have hstep : Views I w env1 env2 (step.names ++ []) := hv.tail.right.right.left
    refine .bind (coupled_evalExpr hm start hv.tail.left) fun _ =>
      .bind (coupled_evalExpr hm stop hv.tail.right.left) fun _ =>
        .bind (coupled_evalExpr hm step hstep.left) fun _ => .bind (.lift _) fun p => ?_
    exact coupled_counting p (fun value => .bind (coupled_assign hv.head _) fun _ =>
      coupled_execStmts hm body hv.tail.right.right.right) hm.bound _
  | .forEach names args tail body, hv => by
    have hlist : Views I w env1 env2 (Target.exprsNames args ++ Target.tailNames tail) := hv.right.sub (by simp)
    refine .bind (coupled_evalList hm args tail hlist) fun vs => .bind (coupled_ofValues vs) fun it => ?_
    exact coupled_iterating hm.call it _ (fun values =>
      .bind (coupled_assignAll hv.left values) fun _ => coupled_execStmts hm body hv.right.right.right) hm.bound _
  | .define d, hv => .map (coupled_define d hv)
  | .iterate flow function args, hv => .map (coupled_runIteration hm hv)
  | .breakOn flow, hv => by
    refine .bind (coupled_readFlow hv) fun f => ?_
    cases f <;> exact .pure _
  | .returnOn flow _, hv => by
    refine .bind (coupled_readFlow hv) fun f => ?_
    cases f <;> exact .pure _
  | .answer _ value, hv => .map (coupled_evalAnswer hm value hv)
  | .answerBreak, _ | .breakLoop, _ | .pass, _ => .pure _

theorem coupled_execOrElse (hm : SameMachine I w m1 m2) : ∀ (o : Target.OrElse), Views I w env1 env2 o.names →
    I.coupling.Coupled w (execOrElse m1 env1 o) (execOrElse m2 env2 o)
  | .none, _ => .pure _
  | .elseIf condition body otherwise, hv =>
    .bind (coupled_evalCond hm condition hv.left) fun _ =>
      .ite (coupled_execStmts hm body hv.right.left) (coupled_execOrElse hm otherwise hv.right.right)
  | .otherwise body, hv => coupled_execStmts hm body hv

theorem coupled_execStmts (hm : SameMachine I w m1 m2) : ∀ (ss : List Target.Stmt),
    Views I w env1 env2 (Target.stmtsNames ss) →
    I.coupling.Coupled w (execStmts m1 env1 ss) (execStmts m2 env2 ss)
  | [], _ => .pure _
  | s :: ss, hv => by
    refine .bind (coupled_execStmt hm s hv.left) fun signal => ?_
    cases signal with
    | next => exact coupled_execStmts hm ss hv.right
    | leave | done => exact .pure _

end

/-! ## Definitions and calls -/

def newVariables (params : List String) (args : List Value) (own : List String) : Frame :=
  bindParams params args ++ own.map (·, .unset)

omit [Tracking I] in
theorem sameSlot_newVariables (params : List String) (args : List Value) (own : List String) (x : String) :
    SameSlot I w ((newVariables params args own).lookup x) ((newVariables params args own).lookup x) := by
  unfold newVariables
  induction params generalizing args with
  | nil =>
    induction own with
    | nil => exact .none
    | cons y own ih =>
      simp only [bindParams, List.nil_append, List.map_cons, List.lookup_cons] at ih ⊢
      split
      · exact .unset
      · exact ih
  | cons y params ih =>
    cases args with
    | nil =>
      simp only [bindParams, List.cons_append, List.lookup_cons]
      split
      · exact .value _
      · exact ih []
    | cons a args =>
      simp only [bindParams, List.cons_append, List.lookup_cons]
      split
      · exact .value _
      · exact ih args

theorem coupled_runDefinition (hm : SameMachine I w m1 m2) (hc : SameClosure I w c1 c2) (args : List Value) :
    I.coupling.Coupled w (runDefinition m1 c1 args) (runDefinition m2 c2 args) := by
  rcases c1 with ⟨code, own, env1⟩
  rcases c2 with ⟨code2, own2, env2⟩
  have hcode : code = code2 := hc.code
  have hown : own = own2 := hc.own
  subst hcode hown
  rcases code with ⟨name, params, rest, nonlocals, body⟩
  intro w' s1 s2 hle hrel
  have hc' := hc.mono hle
  have henv : SameEnv w' env1 env2 := hc'.env
  have halike := Tracking.alike hrel
  have hrel' := Tracking.frame hrel (halike.pushFrame (sameSlot_newVariables params args own))
  have hle' : ∀ f1 f2, w' f1 f2 → w'.push s1.frames.size s2.frames.size f1 f2 := fun _ _ => Or.inl
  -- The frames are new, so that none of their variables belongs to one run alone.
  have hnew1 : Apart I.own1 (s1.frames.size :: env1.frames) (Target.stmtsNames body) :=
    (hc'.apart1.sub (List.subset_cons_self ..)).push fun _ hown => Nat.lt_irrefl _ (halike.own1 hown)
  have hnew2 : Apart I.own2 (s2.frames.size :: env2.frames) (Target.stmtsNames body) :=
    (hc'.apart2.sub (List.subset_cons_self ..)).push fun _ hown => Nat.lt_irrefl _ (halike.own2 hown)
  have hvarargs : varargsOf rest env1.varargs (args.drop params.length) =
      varargsOf rest env2.varargs (args.drop params.length) := by
    rw [henv.varargs]
  have hframes : List.Forall₂ (w'.push s1.frames.size s2.frames.size)
      (s1.frames.size :: env1.frames) (s2.frames.size :: env2.frames) :=
    .cons (Or.inr ⟨rfl, rfl⟩) (henv.frames.imp hle')
  have hbody : Views I (w'.push s1.frames.size s2.frames.size) { env1 with
        varargs := varargsOf rest env1.varargs (args.drop params.length)
        frames := s1.frames.size :: env1.frames }
      { env2 with
        varargs := varargsOf rest env2.varargs (args.drop params.length)
        frames := s2.frames.size :: env2.frames } (Target.stmtsNames body) :=
    ⟨⟨henv.globals, hvarargs, hframes⟩, hnew1, hnew2⟩
  have hexec := coupled_execStmts ((hm.mono hle).mono hle') body hbody
  have hframe (s : Store) : Run.newFrame (newVariables params args own) s =
      .ok s.frames.size (s.pushFrame (newVariables params args own)) := rfl
  unfold runDefinition
  dsimp only
  unfold newVariables at hframe hrel'
  rw [Run.bind_ok (hframe s1), Run.bind_ok (hframe s2)]
  refine Agree.later hle' (Coupled.bind hexec (fun signal => ?_) (I.coupling.le_refl _) hrel')
  cases signal <;> exact .pure _

def within (n : Nat) : Machine := ⟨n, callWithin unwatched n, enterWithin unwatched n, unwatched⟩

theorem coupled_runDefault (args : List Value) :
    I.coupling.Coupled w (runDefinition m1 default args) (runDefinition m2 default args) := by
  intro w' s1 s2 _ hrel
  have hplain : ∀ x, SameSlot I w' (List.lookup x ([] : Frame)) (List.lookup x ([] : Frame)) := fun _ => .none
  exact .ok (fun _ _ => Or.inl) (Tracking.frame hrel ((Tracking.alike hrel).pushFrame hplain))

theorem agree_closure {α : Type} (h : Tracking.Rel I w s1 s2) (id : Nat) {k1 k2 : Closure → Run α}
    (hk : ∀ c1 c2, SameClosure I w c1 c2 → I.coupling.Coupled w (k1 c1) (k2 c2))
    (hdefault : I.coupling.Coupled w (k1 default) (k2 default)) :
    I.coupling.Agree w ((Run.closure id >>= k1) s1) ((Run.closure id >>= k2) s2) := by
  have h1 : Run.closure id s1 = .ok (s1.closures.getD id default) s1 := rfl
  have h2 : Run.closure id s2 = .ok (s2.closures.getD id default) s2 := rfl
  rw [Run.bind_ok h1, Run.bind_ok h2]
  have hsize : s1.closures.size = s2.closures.size := by simpa using (Tracking.alike h).closures.length_eq
  by_cases hlt : id < s1.closures.size
  · have hlt2 : id < s2.closures.size := hsize ▸ hlt
    have hsame : SameClosure I w (s1.closures.getD id default) (s2.closures.getD id default) := by
      have hget := List.Forall₂.get (Tracking.alike h).closures (i := id) (by simpa using hlt) (by simpa using hlt2)
      simpa [Array.getD, hlt, hlt2] using hget
    exact hk _ _ hsame (I.coupling.le_refl _) h
  · have hlt2 : ¬id < s2.closures.size := hsize ▸ hlt
    simp only [Array.getD, hlt, hlt2, dite_false]
    exact hdefault (I.coupling.le_refl _) h

theorem sameMachine_within (hn : n ≤ N) (w : Pairing) : SameMachine I w (within n) (within N) := by
  induction n generalizing N w with
  | zero => exact ⟨hn, fun _ _ => .exhausted _, fun _ _ _ => .exhausted _, rfl, rfl⟩
  | succ n ih =>
    obtain ⟨N, rfl⟩ : ∃ k, N = k + 1 := ⟨N - 1, by omega⟩
    have hm (w : Pairing) : SameMachine I w (within n) (within N) := ih (by omega) w
    refine ⟨hn, fun f args => ?_, fun args _ hc => coupled_runDefinition (hm _) hc args, rfl, rfl⟩
    have hcall := (hm w).call
    show I.coupling.Coupled w (callWithin unwatched (n + 1) f args) (callWithin unwatched (N + 1) f args)
    cases f with
    | nil | bool | number | string | table =>
      simp only [callWithin]
      exact .complain _
    | function f =>
      cases f with
      | builtin b =>
        simp only [callWithin]
        exact .apply hcall b args
      | predicate id =>
        simp only [callWithin]
        exact .silent (.applyPredicate hcall id _)
      | traversal id =>
        simp only [callWithin]
        exact .bind (.checkArity ..) fun _ => .traversalStep id
      | closure id =>
        simp only [callWithin]
        intro w' s1 s2 hle hrel
        refine agree_closure hrel id (fun c1 c2 hc => ?_) ?_
        · exact .map ((hm w').enter args (fun _ _ h => h) hc)
        · refine .bind ?_ fun _ => .pure _
          show I.coupling.Coupled w' (enterWithin unwatched n default args) (enterWithin unwatched N default args)
          cases n with
          | zero => exact .exhausted _
          | succ n =>
            obtain ⟨N, rfl⟩ : ∃ k, N = k + 1 := ⟨N - 1, by omega⟩
            exact coupled_runDefault args

end Machine

end TypedLua
