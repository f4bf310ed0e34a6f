import Mathlib.Data.List.Forall2
import TypedLua.Proofs.Runtime.Frames
import TypedLua.Proofs.Runtime.Library
import TypedLua.Proofs.Target.Mentions

/-!
# Stores that are alike

Two runs of the same functions, which differ in some variables that no function knows of.
-/

namespace TypedLua

structure Ledger where
  own1 : Cell → Prop
  own2 : Cell → Prop
  alone1 : Nat → Prop
  alone2 : Nat → Prop
  alone_own1 : ∀ {f}, alone1 f → ∀ x, own1 (f, x)
  alone_own2 : ∀ {f}, alone2 f → ∀ x, own2 (f, x)
  twins : Cell → Cell → Prop
  twins_own : ∀ {c1 c2}, twins c1 c2 → own1 c1 ∧ own2 c2
  twins_injective : ∀ {c1 c2 c1' c2'}, twins c1 c2 → twins c1' c2' → (c1 = c1' ↔ c2 = c2')
  vars1 : Nat → Option (String → Bool)
  vars2 : Nat → Option (String → Bool)
  filled : Cell → Cell → Prop

/-- Which frames of two runs go together. -/
abbrev Pairing := Nat → Nat → Prop

def Pairing.push (w : Pairing) (g1 g2 : Nat) : Pairing := fun f1 f2 => w f1 f2 ∨ f1 = g1 ∧ f2 = g2

def Apart (own : Cell → Prop) (frames : List Nat) (names : List String) : Prop :=
  ∀ f ∈ frames, ∀ x ∈ names, ¬own (f, x)

structure SameEnv (w : Pairing) (env1 env2 : Env) : Prop where
  globals : env1.globals = env2.globals
  varargs : env1.varargs = env2.varargs
  frames : List.Forall₂ w env1.frames env2.frames

structure SameClosure (I : Ledger) (w : Pairing) (c1 c2 : Closure) : Prop where
  code : c1.code = c2.code
  own : c1.own = c2.own
  env : SameEnv w c1.env c2.env
  apart1 : Apart I.own1 c1.env.frames c1.code.names
  apart2 : Apart I.own2 c2.env.frames c1.code.names

inductive SameSlot (I : Ledger) (w : Pairing) : Option Slot → Option Slot → Prop
  | none : SameSlot I w none none
  | unset : SameSlot I w (some .unset) (some .unset)
  | value (v : Value) : SameSlot I w (some (.value v)) (some (.value v))
  | flow (f : Flow) : SameSlot I w (some (.flow f)) (some (.flow f))
  | iteration {c1 c2 : Closure} (h : SameClosure I w c1 c2) :
      SameSlot I w (some (.iteration c1)) (some (.iteration c2))

def Store.IsSet (s : Store) (c : Cell) : Prop := ∃ slot, s.content c = some slot ∧ slot ≠ .unset

theorem Store.isSet_put {s : Store} (hlt : c.1 < s.frames.size)
    (hset : slot ≠ .unset) (h : s.IsSet c') : (s.put c slot).IsSet c' := by
  by_cases heq : c' = c
  · subst heq
    exact ⟨slot, content_put_self hlt, hset⟩
  · obtain ⟨old, hold, hne⟩ := h
    exact ⟨old, (content_put_of_ne heq).trans hold, hne⟩

theorem Store.isSet_pushFrame {s : Store} (frame : Frame) (h : s.IsSet c) : (s.pushFrame frame).IsSet c := by
  obtain ⟨slot, hslot, hne⟩ := h
  exact ⟨slot, (content_pushFrame_of_lt frame (lt_of_content hslot)).trans hslot, hne⟩

structure Alike (I : Ledger) (w : Pairing) (s1 s2 : Store) : Prop where
  heap : s1.heap = s2.heap
  bound : ∀ {f1 f2}, w f1 f2 → f1 < s1.frames.size ∧ f2 < s2.frames.size
  injective : ∀ {f1 f2 g1 g2}, w f1 f2 → w g1 g2 → (f1 = g1 ↔ f2 = g2)
  same : ∀ {f1 f2}, w f1 f2 → ∀ x, ¬I.own1 (f1, x) → ¬I.own2 (f2, x) →
    SameSlot I w (s1.content (f1, x)) (s2.content (f2, x))
  closures : List.Forall₂ (SameClosure I w) s1.closures.toList s2.closures.toList
  twins : ∀ {c1 c2}, I.twins c1 c2 → ∃ v, s1.content c1 = some (.value v) ∧ s2.content c2 = some (.value v)
  filled : ∀ {c1 c2}, I.filled c1 c2 → s1.IsSet c1 ∧ s2.IsSet c2
  vars1 : ∀ {f has}, I.vars1 f = some has → f < s1.frames.size ∧ ∀ x, (s1.content (f, x)).isSome = has x
  vars2 : ∀ {f has}, I.vars2 f = some has → f < s2.frames.size ∧ ∀ x, (s2.content (f, x)).isSome = has x
  own1 : ∀ {c}, I.own1 c → c.1 < s1.frames.size
  own2 : ∀ {c}, I.own2 c → c.1 < s2.frames.size
  alone1 : ∀ {f1 f2}, w f1 f2 → ¬I.alone1 f1
  alone2 : ∀ {f1 f2}, w f1 f2 → ¬I.alone2 f2

variable {I : Ledger} {w w' : Pairing} {s1 s2 : Store}

/-! ## Later worlds -/

theorem SameEnv.mono (hle : ∀ f1 f2, w f1 f2 → w' f1 f2) (h : SameEnv w env1 env2) : SameEnv w' env1 env2 :=
  ⟨h.globals, h.varargs, h.frames.imp hle⟩

theorem SameClosure.mono (hle : ∀ f1 f2, w f1 f2 → w' f1 f2)
    (h : SameClosure I w c1 c2) : SameClosure I w' c1 c2 :=
  ⟨h.code, h.own, h.env.mono hle, h.apart1, h.apart2⟩

theorem SameSlot.imp (hclosure : ∀ {c1 c2}, SameClosure I w c1 c2 → SameClosure I' w' c1 c2)
    (h : SameSlot I w o1 o2) : SameSlot I' w' o1 o2 := by
  cases h with
  | none => exact .none
  | unset => exact .unset
  | value v => exact .value v
  | flow f => exact .flow f
  | iteration h => exact .iteration (hclosure h)

theorem SameSlot.mono (hle : ∀ f1 f2, w f1 f2 → w' f1 f2) (h : SameSlot I w o1 o2) : SameSlot I w' o1 o2 :=
  h.imp fun hc => hc.mono hle

theorem SameSlot.ne_unset (h : SameSlot I w (some slot1) (some slot2))
    (hset : slot1 ≠ .unset) : slot2 ≠ .unset := by
  cases h with
  | unset => exact hset
  | value | flow | iteration => simp

theorem SameSlot.isSome_eq (h : SameSlot I w o1 o2) : o1.isSome = o2.isSome := by
  cases h <;> rfl

/-- What two runs know of their stores besides that these are alike. -/
class Tracking (I : Ledger) where
  Rel : Pairing → Store → Store → Prop
  alike : ∀ {w s1 s2}, Rel w s1 s2 → Alike I w s1 s2
  heap : ∀ {w s1 s2} (h : Heap), Rel w s1 s2 → Rel w (s1.withHeap h) (s2.withHeap h)
  put : ∀ {w s1 s2 c1 c2 slot1 slot2}, Rel w s1 s2 → ¬I.own1 c1 → ¬I.own2 c2 →
    Alike I w (s1.put c1 slot1) (s2.put c2 slot2) → Rel w (s1.put c1 slot1) (s2.put c2 slot2)
  closure : ∀ {w s1 s2 c1 c2}, Rel w s1 s2 → Alike I w (s1.pushClosure c1) (s2.pushClosure c2) →
    Rel w (s1.pushClosure c1) (s2.pushClosure c2)
  frame : ∀ {w w' s1 s2 frame}, Rel w s1 s2 → Alike I w' (s1.pushFrame frame) (s2.pushFrame frame) →
    Rel w' (s1.pushFrame frame) (s2.pushFrame frame)

theorem Alike.withHeap (h : Alike I w s1 s2) (heap : Heap) : Alike I w (s1.withHeap heap) (s2.withHeap heap) :=
  ⟨rfl, h.bound, h.injective, h.same, h.closures, h.twins, h.filled, h.vars1, h.vars2, h.own1, h.own2,
    h.alone1, h.alone2⟩

/-- Nothing more is known. -/
instance plainTracking (I : Ledger) : Tracking I where
  Rel := Alike I
  alike h := h
  heap heap h := h.withHeap heap
  put _ _ _ h := h
  closure _ h := h
  frame _ h := h

@[reducible] def Ledger.coupling (I : Ledger) [Tracking I] : Coupling where
  World := Pairing
  le w w' := ∀ f1 f2, w f1 f2 → w' f1 f2
  le_refl _ _ _ h := h
  le_trans h h' _ _ hw := h' _ _ (h _ _ hw)
  Rel := Tracking.Rel I
  heap_eq h := (Tracking.alike h).heap
  withHeap heap h := Tracking.heap heap h

/-! ## The other way round -/

def Ledger.swap (I : Ledger) : Ledger where
  own1 := I.own2
  own2 := I.own1
  alone1 := I.alone2
  alone2 := I.alone1
  alone_own1 := I.alone_own2
  alone_own2 := I.alone_own1
  twins c2 c1 := I.twins c1 c2
  twins_own h := (I.twins_own h).symm
  twins_injective h h' := (I.twins_injective h h').symm
  vars1 := I.vars2
  vars2 := I.vars1
  filled c2 c1 := I.filled c1 c2

theorem SameClosure.swap (h : SameClosure I w c1 c2) : SameClosure I.swap (fun f2 f1 => w f1 f2) c2 c1 :=
  ⟨h.code.symm, h.own.symm, ⟨h.env.globals.symm, h.env.varargs.symm, h.env.frames.flip⟩,
    h.code ▸ h.apart2, h.code ▸ h.apart1⟩

theorem SameSlot.swap (h : SameSlot I w o1 o2) : SameSlot I.swap (fun f2 f1 => w f1 f2) o2 o1 := by
  cases h with
  | none => exact .none
  | unset => exact .unset
  | value v => exact .value v
  | flow f => exact .flow f
  | iteration h => exact .iteration h.swap

theorem Alike.swap (h : Alike I w s1 s2) : Alike I.swap (fun f2 f1 => w f1 f2) s2 s1 where
  heap := h.heap.symm
  bound hw := (h.bound hw).symm
  injective hf hg := (h.injective hf hg).symm
  same hw x h2 h1 := (h.same hw x h1 h2).swap
  closures := h.closures.flip.imp fun _ _ hc => SameClosure.swap hc
  twins hc := by
    obtain ⟨v, h1, h2⟩ := h.twins hc
    exact ⟨v, h2, h1⟩
  filled hc := (h.filled hc).symm
  vars1 := h.vars2
  vars2 := h.vars1
  own1 := h.own2
  own2 := h.own1
  alone1 hw := h.alone2 hw
  alone2 hw := h.alone1 hw

namespace Alike

/-! ## Setting variables -/

theorem put_both (h : Alike I w s1 s2) (hw : w f1 f2) (hown1 : ¬I.own1 (f1, x)) (hown2 : ¬I.own2 (f2, x))
    (hsome : (s1.content (f1, x)).isSome = true) (hslot : SameSlot I w (some slot1) (some slot2))
    (hset : slot1 ≠ .unset) : Alike I w (s1.put (f1, x) slot1) (s2.put (f2, x) slot2) where
  heap := h.heap
  bound hg := by simpa using h.bound hg
  injective := h.injective
  same := by
    intro g1 g2 hg y hy1 hy2
    by_cases heq : (g1, y) = (f1, x)
    · cases heq
      have hg2 : g2 = f2 := (h.injective hg hw).1 rfl
      subst hg2
      rw [Store.content_put_self (h.bound hg).1, Store.content_put_self (h.bound hg).2]
      exact hslot
    · have hne : (g2, y) ≠ (f2, x) := by
        intro heq'
        cases heq'
        exact heq (by rw [(h.injective hg hw).2 rfl])
      rw [Store.content_put_of_ne heq, Store.content_put_of_ne hne]
      exact h.same hg y hy1 hy2
  closures := h.closures
  twins := by
    intro c1 c2 hc
    have hown := I.twins_own hc
    have hne1 : c1 ≠ (f1, x) := fun heq => hown1 (heq ▸ hown.1)
    have hne2 : c2 ≠ (f2, x) := fun heq => hown2 (heq ▸ hown.2)
    rw [Store.content_put_of_ne hne1, Store.content_put_of_ne hne2]
    exact h.twins hc
  filled hc := by
    obtain ⟨hc1, hc2⟩ := h.filled hc
    exact ⟨Store.isSet_put (h.bound hw).1 hset hc1, Store.isSet_put (h.bound hw).2 (hslot.ne_unset hset) hc2⟩
  vars1 := by
    intro g has hg
    obtain ⟨hlt, hhas⟩ := h.vars1 hg
    refine ⟨by simpa using hlt, fun y => ?_⟩
    by_cases heq : (g, y) = (f1, x)
    · cases heq
      rw [Store.content_put_self hlt, ← hhas, hsome]
      rfl
    · rw [Store.content_put_of_ne heq]
      exact hhas y
  vars2 := by
    intro g has hg
    obtain ⟨hlt, hhas⟩ := h.vars2 hg
    refine ⟨by simpa using hlt, fun y => ?_⟩
    by_cases heq : (g, y) = (f2, x)
    · cases heq
      rw [Store.content_put_self hlt, ← hhas, ← (h.same hw x hown1 hown2).isSome_eq, hsome]
      rfl
    · rw [Store.content_put_of_ne heq]
      exact hhas y
  own1 hc := by simpa using h.own1 hc
  own2 hc := by simpa using h.own2 hc
  alone1 := h.alone1
  alone2 := h.alone2

theorem put_first (h : Alike I w s1 s2) (hown : I.own1 c) (htwin : ∀ c2, ¬I.twins c c2)
    (hsome : (s1.content c).isSome = true) (hset : slot ≠ .unset) :
    Alike I w (s1.put c slot) s2 where
  heap := h.heap
  bound hg := by simpa using h.bound hg
  injective := h.injective
  same := by
    intro g1 g2 hg y hy1 hy2
    have hne : (g1, y) ≠ c := fun heq => hy1 (heq ▸ hown)
    rw [Store.content_put_of_ne hne]
    exact h.same hg y hy1 hy2
  closures := h.closures
  twins := by
    intro c1 c2 hc
    have hne : c1 ≠ c := fun heq => htwin c2 (heq ▸ hc)
    rw [Store.content_put_of_ne hne]
    exact h.twins hc
  filled hc := by
    obtain ⟨hc1, hc2⟩ := h.filled hc
    exact ⟨Store.isSet_put (h.own1 hown) hset hc1, hc2⟩
  vars1 := by
    intro g has hg
    obtain ⟨hlt, hhas⟩ := h.vars1 hg
    refine ⟨by simpa using hlt, fun y => ?_⟩
    by_cases heq : (g, y) = c
    · cases heq
      rw [Store.content_put_self hlt, ← hhas, hsome]
      rfl
    · rw [Store.content_put_of_ne heq]
      exact hhas y
  vars2 := h.vars2
  own1 hc := by simpa using h.own1 hc
  own2 := h.own2
  alone1 := h.alone1
  alone2 := h.alone2

theorem put_second (h : Alike I w s1 s2) (hown : I.own2 c) (htwin : ∀ c1, ¬I.twins c1 c)
    (hsome : (s2.content c).isSome = true) (hset : slot ≠ .unset) : Alike I w s1 (s2.put c slot) :=
  (h.swap.put_first hown htwin hsome hset).swap

/-! ## New functions and frames -/

theorem pushClosure (h : Alike I w s1 s2) (hc : SameClosure I w c1 c2) :
    Alike I w (s1.pushClosure c1) (s2.pushClosure c2) where
  heap := h.heap
  bound := h.bound
  injective := h.injective
  same := h.same
  closures := by
    simp only [Store.pushClosure, Array.toList_push]
    exact List.rel_append h.closures (.cons hc .nil)
  twins := h.twins
  filled := h.filled
  vars1 := h.vars1
  vars2 := h.vars2
  own1 := h.own1
  own2 := h.own2
  alone1 := h.alone1
  alone2 := h.alone2

theorem pushFrame (h : Alike I w s1 s2) {frame : Frame}
    (hplain : ∀ x, SameSlot I w (frame.lookup x) (frame.lookup x)) :
    Alike I (w.push s1.frames.size s2.frames.size) (s1.pushFrame frame) (s2.pushFrame frame) := by
  have hle : ∀ f1 f2, w f1 f2 → w.push s1.frames.size s2.frames.size f1 f2 := fun _ _ => Or.inl
  constructor
  case heap => exact h.heap
  case bound =>
    intro f1 f2 hf
    simp only [Store.size_pushFrame]
    rcases hf with hf | ⟨rfl, rfl⟩
    · have hlt := h.bound hf
      omega
    · omega
  case injective =>
    rintro f1 f2 g1 g2 (hf | ⟨rfl, rfl⟩) (hg | ⟨rfl, rfl⟩)
    · exact h.injective hf hg
    · have hlt := h.bound hf
      omega
    · have hlt := h.bound hg
      omega
    · exact ⟨fun _ => rfl, fun _ => rfl⟩
  case same =>
    rintro f1 f2 (hf | ⟨rfl, rfl⟩) x hx1 hx2
    · rw [Store.content_pushFrame_of_lt frame (h.bound hf).1, Store.content_pushFrame_of_lt frame (h.bound hf).2]
      exact (h.same hf x hx1 hx2).mono hle
    · rw [Store.content_pushFrame_self, Store.content_pushFrame_self]
      exact (hplain x).mono hle
  case closures => exact h.closures.imp fun _ _ hc => hc.mono hle
  case twins =>
    intro c1 c2 hc
    have hown := I.twins_own hc
    rw [Store.content_pushFrame_of_lt frame (h.own1 hown.1), Store.content_pushFrame_of_lt frame (h.own2 hown.2)]
    exact h.twins hc
  case filled =>
    intro c1 c2 hc
    exact (h.filled hc).imp (Store.isSet_pushFrame frame) (Store.isSet_pushFrame frame)
  case vars1 =>
    intro f has hf
    obtain ⟨hlt, hhas⟩ := h.vars1 hf
    refine ⟨by simp only [Store.size_pushFrame]; omega, fun x => ?_⟩
    rw [Store.content_pushFrame_of_lt frame hlt]
    exact hhas x
  case vars2 =>
    intro f has hf
    obtain ⟨hlt, hhas⟩ := h.vars2 hf
    refine ⟨by simp only [Store.size_pushFrame]; omega, fun x => ?_⟩
    rw [Store.content_pushFrame_of_lt frame hlt]
    exact hhas x
  case own1 =>
    intro c hc
    have hlt := h.own1 hc
    simp only [Store.size_pushFrame]
    omega
  case own2 =>
    intro c hc
    have hlt := h.own2 hc
    simp only [Store.size_pushFrame]
    omega
  case alone1 =>
    rintro f1 f2 (hf | ⟨rfl, rfl⟩) halone
    · exact h.alone1 hf halone
    · exact Nat.lt_irrefl _ (h.own1 (I.alone_own1 halone ""))
  case alone2 =>
    rintro f1 f2 (hf | ⟨rfl, rfl⟩) halone
    · exact h.alone2 hf halone
    · exact Nat.lt_irrefl _ (h.own2 (I.alone_own2 halone ""))

end Alike

end TypedLua
