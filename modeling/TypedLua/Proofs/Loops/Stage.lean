import TypedLua.Proofs.Loops.Ledger
import TypedLua.Proofs.Runtime.SameCode
import TypedLua.Proofs.Scoping.Places

/-!
# Two runs at the same place of a chunk

The code of a chunk finds the variable of a declaration in the frame of the definition that holds
it.
-/

namespace TypedLua

/-! ## Outcomes of two runs -/

inductive Both {α β : Type} (Q : α → β → Store → Store → Prop) (R : Store → Store → Prop) :
    EStateM.Result Stop Store α → EStateM.Result Stop Store β → Prop
  | ok {a b s1 s2} (h : Q a b s1 s2) : Both Q R (.ok a s1) (.ok b s2)
  | fault {f s1 s2} (h : R s1 s2) : Both Q R (.error (.fault f) s1) (.error (.fault f) s2)
  | spent {s1 o} : Both Q R (.error .outOfFuel s1) o

namespace Both

variable {α β γ δ : Type} {Q Q' : α → β → Store → Store → Prop} {R R' : Store → Store → Prop}

theorem imp {o1 : EStateM.Result Stop Store α} {o2 : EStateM.Result Stop Store β}
    (h : Both Q R o1 o2) (hQ : ∀ {a b s1 s2}, Q a b s1 s2 → Q' a b s1 s2)
    (hR : ∀ {s1 s2}, R s1 s2 → R' s1 s2) : Both Q' R' o1 o2 := by
  cases h with
  | ok h => exact .ok (hQ h)
  | fault h => exact .fault (hR h)
  | spent => exact .spent

theorem bind {Q' : γ → δ → Store → Store → Prop} {p1 : Run α} {p2 : Run β} {k1 : α → Run γ}
    {k2 : β → Run δ} {s1 s2 : Store} (h : Both Q R (p1 s1) (p2 s2))
    (hk : ∀ {a b t1 t2}, Q a b t1 t2 → Both Q' R (k1 a t1) (k2 b t2)) :
    Both Q' R ((p1 >>= k1) s1) ((p2 >>= k2) s2) := by
  show Both Q' R (EStateM.bind p1 k1 s1) (EStateM.bind p2 k2 s2)
  unfold EStateM.bind
  generalize p1 s1 = o1 at h
  generalize p2 s2 = o2 at h
  cases h with
  | ok h => exact hk h
  | fault h => exact .fault h
  | spent => exact .spent

end Both

def Later (I : Ledger) (w : Pairing) (s1 s2 : Store) : Prop :=
  ∃ w' : Pairing, (∀ f1 f2, w f1 f2 → w' f1 f2) ∧ Alike I w' s1 s2

variable {I : Ledger} {w : Pairing}

theorem Later.forget (hle : Ledger.Le I I')
    (hw : ∀ f1 f2, w f1 f2 → w' f1 f2) (h : Later I' w' s1 s2) : Later I w s1 s2 := by
  obtain ⟨w'', hw', hrel⟩ := h
  exact ⟨w'', fun _ _ h => hw' _ _ (hw _ _ h), hrel.forget hle⟩

theorem both_of_agree (h : I.coupling.Agree w o1 o2) :
    Both (fun a b s1 s2 => a = b ∧ Later I w s1 s2) (Later I w) o1 o2 := by
  cases h with
  | ok hle hrel => exact .ok ⟨rfl, _, hle, hrel⟩
  | fault hle hrel => exact .fault ⟨_, hle, hrel⟩
  | spent => exact .spent

namespace Target.Scoping

open Machine

/-! ## Frames of definitions -/

def frameOf (frames : List Nat) (home : List Def) : Nat := (frames.drop (frames.length - home.length)).headD 0

def Decl.cell (frames : List Nat) (d : Decl) : Cell := (frameOf frames d.home, d.name)

/-- The declaration was made in one of the definitions that have the frames. -/
def Decl.Placed (frames : List Nat) (d : Decl) : Prop := d.home ≠ [] ∧ d.home.length ≤ frames.length

def top (env : Env) : Nat := env.frames.headD 0

variable {frames : List Nat}

theorem frameOf_cons {home : List Def} (h : home.length ≤ frames.length) :
    frameOf (f :: frames) home = frameOf frames home := by
  have hdrop : (f :: frames).length - home.length = (frames.length - home.length) + 1 := by
    simp only [List.length_cons]
    omega
  rw [frameOf, frameOf, hdrop, List.drop_succ_cons]

theorem frameOf_self {path : List Def} (h : frames.length = path.length) : frameOf frames path = frames.headD 0 := by
  rw [frameOf, h, Nat.sub_self, List.drop_zero]

def Chain (vars : Nat → Option (String → Bool)) (frames : List Nat) (path : List Def) : Prop :=
  List.Forall₂ (fun f d => vars f = some d.owns) frames path

theorem resolve_length_le (path : List Def) (x : String) : (resolve path x).length ≤ path.length :=
  (List.dropWhile_sublist _).length_le

theorem holder_of_resolve {vars : Nat → Option (String → Bool)} {s : Store}
    {x : String} (hvars : ∀ {f has}, vars f = some has → ∀ x, (s.content (f, x)).isSome = has x)
    (hchain : Chain vars frames path) (hfound : resolve path x ≠ []) :
    holder s x frames = some (frameOf frames (resolve path x)) := by
  induction hchain with
  | nil => exact absurd rfl hfound
  | @cons f d frames path hf hchain ih =>
    rw [holder, hvars hf x]
    cases howns : d.owns x with
    | true =>
      rw [resolve_cons_of_owns howns, frameOf_self]
      · rfl
      · simp [List.Forall₂.length_eq hchain]
    | false =>
      have hnot : d.owns x ≠ true := by simp [howns]
      rw [resolve_cons_of_not_owns hnot] at hfound ⊢
      have hlen : (resolve path x).length ≤ frames.length := by
        rw [List.Forall₂.length_eq hchain]
        exact resolve_length_le path x
      rw [frameOf_cons hlen]
      exact ih hfound

/-! ## Places of two runs -/

/-- Variables of two runs that hold the same: both know them, or they are twins. -/
inductive Linked (I : Ledger) (w : Pairing) : Cell → Cell → Prop
  | shared {f1 f2 x} (hw : w f1 f2) (h1 : ¬I.own1 (f1, x)) (h2 : ¬I.own2 (f2, x))
      (hset : I.filled (f1, x) (f2, x)) : Linked I w (f1, x) (f2, x)
  | twins {c1 c2} (h : I.twins c1 c2) : Linked I w c1 c2

inductive Meets (I : Ledger) (w : Pairing) (frames1 frames2 : List Nat) :
    Option Decl → Option Decl → Prop
  | none : Meets I w frames1 frames2 none none
  | some {d1 d2} (h1 : d1.Placed frames1) (h2 : d2.Placed frames2)
      (h : Linked I w (d1.cell frames1) (d2.cell frames2)) :
      Meets I w frames1 frames2 (some d1) (some d2)

structure Stage (I : Ledger) (w : Pairing) (p1 p2 : Place) (env1 env2 : Env) : Prop where
  globals : env1.globals = env2.globals
  varargs : env1.varargs = env2.varargs
  chain1 : Chain I.vars1 env1.frames p1.path
  chain2 : Chain I.vars2 env2.frames p2.path
  inside1 : p1.path ≠ []
  inside2 : p2.path ≠ []
  meets : ∀ x, Meets I w env1.frames env2.frames (p1.find x) (p2.find x)

def SpareFirst (I : Ledger) (env : Env) (names : List String) : Prop :=
  ∀ x ∈ names, I.own1 (top env, x) ∧ ∀ c, ¬I.twins (top env, x) c

def SpareSecond (I : Ledger) (env : Env) (names : List String) : Prop :=
  ∀ x ∈ names, I.own2 (top env, x) ∧ ∀ c, ¬I.twins c (top env, x)

variable {frames1 frames2 : List Nat} {names names' : List String} {env : Env} {c1 c2 : Cell} {o1 o2 : Option Decl}

theorem Place.Holds.sub {p : Place} (h : p.Holds names) (hsub : names' ⊆ names) : p.Holds names' :=
  fun x hx => h x (hsub hx)

theorem SpareFirst.sub (h : SpareFirst I env names) (hsub : names' ⊆ names) : SpareFirst I env names' :=
  fun x hx => h x (hsub hx)

theorem SpareSecond.sub (h : SpareSecond I env names) (hsub : names' ⊆ names) : SpareSecond I env names' :=
  fun x hx => h x (hsub hx)

/-- The names are free for variables of the two runs, and no run gets one twice. -/
structure Spares (I : Ledger) (env1 env2 : Env) (names1 names2 : List String) : Prop where
  first : SpareFirst I env1 names1
  second : SpareSecond I env2 names2
  nodup1 : names1.Nodup
  nodup2 : names2.Nodup

variable {I I' : Ledger} {w w' : Pairing} {p1 p2 : Place} {env1 env2 : Env} {s1 s2 : Store}

namespace Spares

variable {names1 names2 more1 more2 : List String}

theorem left (h : Spares I env1 env2 (names1 ++ more1) (names2 ++ more2)) : Spares I env1 env2 names1 names2 :=
  ⟨h.first.sub (List.subset_append_left ..), h.second.sub (List.subset_append_left ..),
    (List.nodup_append.1 h.nodup1).1, (List.nodup_append.1 h.nodup2).1⟩

theorem right (h : Spares I env1 env2 (names1 ++ more1) (names2 ++ more2)) : Spares I env1 env2 more1 more2 :=
  ⟨h.first.sub (List.subset_append_right ..), h.second.sub (List.subset_append_right ..),
    (List.nodup_append.1 h.nodup1).2.1, (List.nodup_append.1 h.nodup2).2.1⟩

end Spares

theorem Linked.mono (hle : ∀ f1 f2, w f1 f2 → w' f1 f2) (h : Linked I w c1 c2) : Linked I w' c1 c2 := by
  cases h with
  | shared hw h1 h2 hset => exact .shared (hle _ _ hw) h1 h2 hset
  | twins h => exact .twins h

theorem Linked.le (hle : Ledger.Le I I') (hrel : Alike I' w s1 s2) (h : Linked I w c1 c2) : Linked I' w c1 c2 := by
  cases h with
  | shared hw h1 h2 hset =>
    exact .shared hw (fun hown => (hle.only1 hown).elim h1 (hrel.alone1 hw))
      (fun hown => (hle.only2 hown).elim h2 (hrel.alone2 hw)) (hle.filled hset)
  | twins h => exact .twins (hle.twins h)

theorem Meets.imp (hlinked : ∀ {c1 c2}, Linked I w c1 c2 → Linked I' w' c1 c2)
    (h : Meets I w frames1 frames2 o1 o2) : Meets I' w' frames1 frames2 o1 o2 := by
  cases h with
  | none => exact .none
  | some h1 h2 h => exact .some h1 h2 (hlinked h)

theorem Linked.swap (h : Linked I w c1 c2) : Linked I.swap (fun f2 f1 => w f1 f2) c2 c1 := by
  cases h with
  | shared hw h1 h2 hset => exact .shared hw h2 h1 hset
  | twins h => exact .twins h

theorem Meets.swap (h : Meets I w frames1 frames2 o1 o2) :
    Meets I.swap (fun f2 f1 => w f1 f2) frames2 frames1 o2 o1 := by
  cases h with
  | none => exact .none
  | some h1 h2 h => exact .some h2 h1 h.swap

theorem Meets.enter (f : Nat) (h : Meets I w frames1 frames2 o1 o2) : Meets I w (f :: frames1) frames2 o1 o2 := by
  cases h with
  | none => exact .none
  | some hplaced1 hplaced2 hlinked =>
    refine .some ⟨hplaced1.1, Nat.le_succ_of_le hplaced1.2⟩ hplaced2 ?_
    rw [Decl.cell, frameOf_cons hplaced1.2]
    exact hlinked

namespace Stage

theorem swap (h : Stage I w p1 p2 env1 env2) : Stage I.swap (fun f2 f1 => w f1 f2) p2 p1 env2 env1 :=
  ⟨h.globals.symm, h.varargs.symm, h.chain2, h.chain1, h.inside2, h.inside1, fun x => (h.meets x).swap⟩

theorem mono (hle : ∀ f1 f2, w f1 f2 → w' f1 f2) (h : Stage I w p1 p2 env1 env2) : Stage I w' p1 p2 env1 env2 :=
  { h with meets := fun x => (h.meets x).imp (Linked.mono hle) }

theorem le (hle : Ledger.Le I I') (hrel : Alike I' w s1 s2) (h : Stage I w p1 p2 env1 env2) :
    Stage I' w p1 p2 env1 env2 :=
  { h with
    chain1 := h.chain1.imp fun _ _ hf => hle.vars1 hf
    chain2 := h.chain2.imp fun _ _ hf => hle.vars2 hf
    meets := fun x => (h.meets x).imp (Linked.le hle hrel) }

theorem congr {q1 q2 : Place} (h : Stage I w p1 p2 env1 env2) (hpath1 : q1.path = p1.path)
    (hpath2 : q2.path = p2.path) (hfind1 : ∀ x, q1.find x = p1.find x)
    (hfind2 : ∀ x, q2.find x = p2.find x) : Stage I w q1 q2 env1 env2 :=
  { h with
    chain1 := hpath1 ▸ h.chain1
    chain2 := hpath2 ▸ h.chain2
    inside1 := hpath1 ▸ h.inside1
    inside2 := hpath2 ▸ h.inside2
    meets := fun x => by
      rw [hfind1, hfind2]
      exact h.meets x }

theorem holder_first (h : Stage I w p1 p2 env1 env2) (hrel : Alike I w s1 s2) {d : Decl}
    (hplaced : d.Placed env1.frames) (hreach : p1.Reaches d) :
    holder s1 d.name env1.frames = some (frameOf env1.frames d.home) := by
  have hfound : resolve p1.path d.name ≠ [] := by
    rw [hreach]
    exact hplaced.1
  have hholder := holder_of_resolve (fun hf => (hrel.vars1 hf).2) h.chain1 hfound
  rwa [hreach] at hholder

theorem holder_second (h : Stage I w p1 p2 env1 env2) (hrel : Alike I w s1 s2) {d : Decl}
    (hplaced : d.Placed env2.frames) (hreach : p2.Reaches d) :
    holder s2 d.name env2.frames = some (frameOf env2.frames d.home) :=
  h.swap.holder_first hrel.swap hplaced hreach

variable {x : String}

theorem read (h : Stage I w p1 p2 env1 env2) (hrel : Alike I w s1 s2)
    (hfind1 : p1.find x = some d1) (hfind2 : p2.find x = some d2) (hreach1 : p1.Reaches d1)
    (hreach2 : p2.Reaches d2) : ∃ v, readVar env1 d1.name s1 = .ok v s1 ∧ readVar env2 d2.name s2 = .ok v s2 := by
  have hmeets := h.meets x
  rw [hfind1, hfind2] at hmeets
  cases hmeets with
  | some hplaced1 hplaced2 hlinked =>
  have hholder1 := h.holder_first hrel hplaced1 hreach1
  have hholder2 := h.holder_second hrel hplaced2 hreach2
  unfold readVar
  unfold Decl.cell at hlinked
  generalize frameOf env1.frames d1.home = f1 at hlinked hholder1
  generalize frameOf env2.frames d2.home = f2 at hlinked hholder2
  generalize d1.name = x1 at hlinked hholder1
  generalize d2.name = x2 at hlinked hholder2
  cases hlinked with
  | twins hc =>
    obtain ⟨v, hv1, hv2⟩ := hrel.twins hc
    have hlookup1 := lookup_of_holder hholder1 hv1 (by simp)
    have hlookup2 := lookup_of_holder hholder2 hv2 (by simp)
    rw [Run.bind_ok hlookup1, Run.bind_ok hlookup2]
    exact ⟨v, rfl, rfl⟩
  | shared hw hown1 hown2 hset =>
    obtain ⟨⟨slot1, hslot1, hne1⟩, slot2, hslot2, hne2⟩ := hrel.filled hset
    have hsame := hrel.same hw _ hown1 hown2
    rw [hslot1, hslot2] at hsame
    have hlookup1 := lookup_of_holder hholder1 hslot1 hne1
    have hlookup2 := lookup_of_holder hholder2 hslot2 hne2
    rw [Run.bind_ok hlookup1, Run.bind_ok hlookup2]
    cases hsame with
    | unset => exact absurd rfl hne1
    | value v => exact ⟨v, rfl, rfl⟩
    | flow | iteration => exact ⟨.nil, rfl, rfl⟩

theorem write (h : Stage I w p1 p2 env1 env2) (hrel : Alike I w s1 s2) (hfind1 : p1.find x = some d1)
    (hfind2 : p2.find x = some d2) (hreach1 : p1.Reaches d1) (hreach2 : p2.Reaches d2) (v : Value) :
    ∃ t1 t2, assign env1 d1.name v s1 = .ok () t1 ∧ assign env2 d2.name v s2 = .ok () t2 ∧ Alike I w t1 t2 := by
  have hmeets := h.meets x
  rw [hfind1, hfind2] at hmeets
  cases hmeets with
  | some hplaced1 hplaced2 hlinked =>
  have hholder1 := h.holder_first hrel hplaced1 hreach1
  have hholder2 := h.holder_second hrel hplaced2 hreach2
  refine ⟨_, _, assignHolder_of_holder _ hholder1, assignHolder_of_holder _ hholder2, ?_⟩
  unfold Decl.cell at hlinked
  generalize frameOf env1.frames d1.home = f1 at hlinked hholder1
  generalize frameOf env2.frames d2.home = f2 at hlinked hholder2
  generalize d1.name = x1 at hlinked hholder1
  generalize d2.name = x2 at hlinked hholder2
  cases hlinked with
  | twins hc => exact hrel.put_twins hc v
  | shared hw hown1 hown2 hset =>
    obtain ⟨⟨slot1, hslot1, -⟩, -⟩ := hrel.filled hset
    have hsome : (s1.content (f1, x1)).isSome = true := by
      rw [hslot1]
      rfl
    exact hrel.put_both hw hown1 hown2 hsome (.value v) (by simp)

theorem enter (h : Stage I w p1 p2 env1 env2) (hle : Ledger.Le I I') (hrel : Alike I' w s1 s2)
    {d : Def} (hvars : I'.vars1 f = some d.owns) (inIteration : Bool) :
    Stage I' w (p1.inside d inIteration) p2 { env1 with frames := f :: env1.frames } env2 :=
  { h.le hle hrel with
    chain1 := .cons hvars (h.chain1.imp fun _ _ hf => hle.vars1 hf)
    inside1 := List.cons_ne_nil _ _
    meets := fun x => ((h.le hle hrel).meets x).enter f }

/-! ### Variables of one run -/

theorem top_first (h : Stage I w p1 p2 env1 env2) : frameOf env1.frames p1.path = top env1 :=
  frameOf_self (List.Forall₂.length_eq h.chain1)

theorem top_second (h : Stage I w p1 p2 env1 env2) : frameOf env2.frames p2.path = top env2 :=
  frameOf_self (List.Forall₂.length_eq h.chain2)

theorem own_first (h : Stage I w p1 p2 env1 env2) (hrel : Alike I w s1 s2) (hholds : p1.Holds [x]) :
    holder s1 x env1.frames = some (top env1) ∧ (s1.content (top env1, x)).isSome = true := by
  have hown := hholds x List.mem_cons_self
  have hholder := holder_of_resolve (fun hf => (hrel.vars1 hf).2) h.chain1 (x := x) (by rw [hown]; exact h.inside1)
  rw [hown, h.top_first] at hholder
  obtain ⟨-, slot, hslot⟩ := holder_some hholder
  exact ⟨hholder, by rw [hslot]; rfl⟩

theorem own_second (h : Stage I w p1 p2 env1 env2) (hrel : Alike I w s1 s2) (hholds : p2.Holds [x]) :
    holder s2 x env2.frames = some (top env2) ∧ (s2.content (top env2, x)).isSome = true :=
  h.swap.own_first hrel.swap hholds

theorem own_both (h : Stage I w p1 p2 env1 env2) (hrel : Alike I w s1 s2) (hholds1 : p1.Holds [x1])
    (hholds2 : p2.Holds [x2]) (hspare1 : SpareFirst I env1 [x1]) (hspare2 : SpareSecond I env2 [x2]) (v : Value) :
    ∃ t1 t2, assign env1 x1 v s1 = .ok () t1 ∧ assign env2 x2 v s2 = .ok () t2 ∧
      Alike I w t1 t2 ∧ t1 = s1.put (top env1, x1) (.value v) ∧
      t2 = s2.put (top env2, x2) (.value v) := by
  obtain ⟨hholder1, hsome1⟩ := h.own_first hrel hholds1
  obtain ⟨hholder2, hsome2⟩ := h.own_second hrel hholds2
  obtain ⟨hown1, hfree1⟩ := hspare1 x1 List.mem_cons_self
  obtain ⟨hown2, hfree2⟩ := hspare2 x2 List.mem_cons_self
  have hrel1 : Alike I w (s1.put (top env1, x1) (.value v)) s2 := hrel.put_first hown1 hfree1 hsome1 (by simp)
  have hrel2 : Alike I w (s1.put (top env1, x1) (.value v)) (s2.put (top env2, x2) (.value v)) :=
    hrel1.put_second hown2 hfree2 hsome2 (by simp)
  exact ⟨_, _, assignHolder_of_holder _ hholder1, assignHolder_of_holder _ hholder2, hrel2, rfl, rfl⟩

theorem declare (h : Stage I w p1 p2 env1 env2) (hown1 : I.own1 (top env1, x1)) (hown2 : I.own2 (top env2, x2))
    (hfree1 : ∀ c, ¬I.twins (top env1, x1) c) (hfree2 : ∀ c, ¬I.twins c (top env2, x2)) :
    Stage (I.twin hown1 hown2 hfree1 hfree2) w (p1.declare x x1) (p2.declare x x2) env1 env2 where
  globals := h.globals
  varargs := h.varargs
  chain1 := h.chain1
  chain2 := h.chain2
  inside1 := h.inside1
  inside2 := h.inside2
  meets y := by
    rw [Place.declare_find, Place.declare_find]
    split
    · have hlen1 := List.Forall₂.length_eq h.chain1
      have hlen2 := List.Forall₂.length_eq h.chain2
      refine .some ⟨h.inside1, Nat.le_of_eq hlen1.symm⟩ ⟨h.inside2, Nat.le_of_eq hlen2.symm⟩ ?_
      rw [Decl.cell, Decl.cell, h.top_first, h.top_second]
      exact .twins (Or.inr ⟨rfl, rfl⟩)
    · refine (h.meets y).imp fun hlinked => ?_
      cases hlinked with
      | shared hw h1 h2 hset => exact .shared hw h1 h2 hset
      | twins hc => exact .twins (Or.inl hc)

end Stage

end Target.Scoping

end TypedLua
