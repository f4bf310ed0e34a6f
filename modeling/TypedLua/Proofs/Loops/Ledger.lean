import TypedLua.Proofs.Runtime.Alike

/-!
# Variables of two runs alone

While two runs go through different code for the same statements, each declares variables of its
own.
-/

namespace TypedLua

namespace Ledger

/-- The second ledger knows what the first one knows, and more of frames that one run has alone. -/
structure Le (I I' : Ledger) : Prop where
  own1 : ∀ {c}, I.own1 c → I'.own1 c
  own2 : ∀ {c}, I.own2 c → I'.own2 c
  only1 : ∀ {c}, I'.own1 c → I.own1 c ∨ I'.alone1 c.1
  only2 : ∀ {c}, I'.own2 c → I.own2 c ∨ I'.alone2 c.1
  alone1 : ∀ {f}, I.alone1 f → I'.alone1 f
  alone2 : ∀ {f}, I.alone2 f → I'.alone2 f
  twins : ∀ {c1 c2}, I.twins c1 c2 → I'.twins c1 c2
  vars1 : ∀ {f has}, I.vars1 f = some has → I'.vars1 f = some has
  vars2 : ∀ {f has}, I.vars2 f = some has → I'.vars2 f = some has
  filled : ∀ {c1 c2}, I.filled c1 c2 → I'.filled c1 c2

variable {I I' I'' : Ledger}

theorem Le.refl (I : Ledger) : Le I I := ⟨id, id, Or.inl, Or.inl, id, id, id, id, id, id⟩

theorem Le.trans (h : Le I I') (h' : Le I' I'') : Le I I'' where
  own1 hc := h'.own1 (h.own1 hc)
  own2 hc := h'.own2 (h.own2 hc)
  only1 hc := (h'.only1 hc).elim (fun hc => (h.only1 hc).imp_right h'.alone1) Or.inr
  only2 hc := (h'.only2 hc).elim (fun hc => (h.only2 hc).imp_right h'.alone2) Or.inr
  alone1 hf := h'.alone1 (h.alone1 hf)
  alone2 hf := h'.alone2 (h.alone2 hf)
  twins hc := h'.twins (h.twins hc)
  vars1 hf := h'.vars1 (h.vars1 hf)
  vars2 hf := h'.vars2 (h.vars2 hf)
  filled hc := h'.filled (h.filled hc)

theorem Le.swap (h : Le I I') : Le I.swap I'.swap :=
  ⟨h.own2, h.own1, h.only2, h.only1, h.alone2, h.alone1, h.twins, h.vars2, h.vars1, h.filled⟩

def twin (I : Ledger) {c1 c2 : Cell} (hown1 : I.own1 c1) (hown2 : I.own2 c2)
    (hfree1 : ∀ c, ¬I.twins c1 c) (hfree2 : ∀ c, ¬I.twins c c2) : Ledger where
  own1 := I.own1
  own2 := I.own2
  alone1 := I.alone1
  alone2 := I.alone2
  alone_own1 := I.alone_own1
  alone_own2 := I.alone_own2
  twins d1 d2 := I.twins d1 d2 ∨ d1 = c1 ∧ d2 = c2
  twins_own := by
    rintro d1 d2 (h | ⟨rfl, rfl⟩)
    · exact I.twins_own h
    · exact ⟨hown1, hown2⟩
  twins_injective := by
    rintro d1 d2 e1 e2 (hd | ⟨rfl, rfl⟩) (he | ⟨rfl, rfl⟩)
    · exact I.twins_injective hd he
    · exact ⟨fun heq => absurd (heq ▸ hd) (hfree1 _), fun heq => absurd (heq ▸ hd) (hfree2 _)⟩
    · exact ⟨fun heq => absurd (heq ▸ he) (hfree1 _), fun heq => absurd (heq ▸ he) (hfree2 _)⟩
    · exact ⟨fun _ => rfl, fun _ => rfl⟩
  vars1 := I.vars1
  vars2 := I.vars2
  filled := I.filled

theorem le_twin (hown1 : I.own1 c1) (hown2 : I.own2 c2)
    (hfree1 : ∀ c, ¬I.twins c1 c) (hfree2 : ∀ c, ¬I.twins c c2) : Le I (I.twin hown1 hown2 hfree1 hfree2) :=
  ⟨id, id, Or.inl, Or.inl, id, id, Or.inl, id, id, id⟩

def enter (I : Ledger) (f : Nat) (has : String → Bool) : Ledger where
  own1 c := I.own1 c ∨ c.1 = f
  own2 := I.own2
  alone1 g := I.alone1 g ∨ g = f
  alone2 := I.alone2
  alone_own1 h x := h.imp_left (I.alone_own1 · x)
  alone_own2 := I.alone_own2
  twins := I.twins
  twins_own h := (I.twins_own h).imp_left Or.inl
  twins_injective := I.twins_injective
  vars1 g := if g = f then some has else I.vars1 g
  vars2 := I.vars2
  filled := I.filled

end Ledger

variable {I I' : Ledger} {w : Pairing} {s1 s2 : Store}

theorem SameClosure.forget (hle : Ledger.Le I I') (h : SameClosure I' w c1 c2) : SameClosure I w c1 c2 :=
  ⟨h.code, h.own, h.env, fun f hf x hx hown => h.apart1 f hf x hx (hle.own1 hown),
    fun f hf x hx hown => h.apart2 f hf x hx (hle.own2 hown)⟩

namespace Alike

theorem frame_lt (h : Alike I w s1 s2)
    (hframes : List.Forall₂ w frames1 frames2) : ∀ f ∈ frames1, f < s1.frames.size := by
  induction hframes with
  | nil => simp
  | cons hf _ ih => exact List.forall_mem_cons.2 ⟨(h.bound hf).1, ih⟩

theorem forget (hle : Ledger.Le I I') (h : Alike I' w s1 s2) : Alike I w s1 s2 where
  heap := h.heap
  bound := h.bound
  injective := h.injective
  same := by
    intro f1 f2 hf x hx1 hx2
    have hx1' : ¬I'.own1 (f1, x) := fun hown => (hle.only1 hown).elim hx1 (h.alone1 hf)
    have hx2' : ¬I'.own2 (f2, x) := fun hown => (hle.only2 hown).elim hx2 (h.alone2 hf)
    exact (h.same hf x hx1' hx2').imp fun hc => hc.forget hle
  closures := h.closures.imp fun _ _ hc => hc.forget hle
  twins hc := h.twins (hle.twins hc)
  filled hc := h.filled (hle.filled hc)
  vars1 hf := h.vars1 (hle.vars1 hf)
  vars2 hf := h.vars2 (hle.vars2 hf)
  own1 hc := h.own1 (hle.own1 hc)
  own2 hc := h.own2 (hle.own2 hc)
  alone1 hf halone := h.alone1 hf (hle.alone1 halone)
  alone2 hf halone := h.alone2 hf (hle.alone2 halone)

theorem twin (h : Alike I w s1 s2) (hown1 : I.own1 c1) (hown2 : I.own2 c2) (hfree1 : ∀ c, ¬I.twins c1 c)
    (hfree2 : ∀ c, ¬I.twins c c2) (hc1 : s1.content c1 = some (.value v))
    (hc2 : s2.content c2 = some (.value v)) : Alike (I.twin hown1 hown2 hfree1 hfree2) w s1 s2 := by
  have hclosure {d1 d2 : Closure} (hd : SameClosure I w d1 d2) :
      SameClosure (I.twin hown1 hown2 hfree1 hfree2) w d1 d2 :=
    ⟨hd.code, hd.own, hd.env, hd.apart1, hd.apart2⟩
  exact {
    heap := h.heap
    bound := h.bound
    injective := h.injective
    same := fun hf x hx1 hx2 => (h.same hf x hx1 hx2).imp hclosure
    closures := h.closures.imp fun _ _ hd => hclosure hd
    twins := fun hd => hd.elim h.twins fun heq => ⟨v, heq.1 ▸ hc1, heq.2 ▸ hc2⟩
    filled := h.filled
    vars1 := h.vars1
    vars2 := h.vars2
    own1 := h.own1
    own2 := h.own2
    alone1 := h.alone1
    alone2 := h.alone2 }

theorem put_twins (h : Alike I w s1 s2) (hc : I.twins c1 c2) (v : Value) :
    Alike I w (s1.put c1 (.value v)) (s2.put c2 (.value v)) := by
  have hown := I.twins_own hc
  have hlt1 := h.own1 hown.1
  have hlt2 := h.own2 hown.2
  obtain ⟨old, hold1, hold2⟩ := h.twins hc
  constructor
  case heap => exact h.heap
  case bound =>
    intro f1 f2 hf
    simpa using h.bound hf
  case injective => exact h.injective
  case same =>
    intro f1 f2 hf x hx1 hx2
    have hne1 : (f1, x) ≠ c1 := fun heq => hx1 (heq ▸ hown.1)
    have hne2 : (f2, x) ≠ c2 := fun heq => hx2 (heq ▸ hown.2)
    rw [Store.content_put_of_ne hne1, Store.content_put_of_ne hne2]
    exact h.same hf x hx1 hx2
  case closures => exact h.closures
  case twins =>
    intro d1 d2 hd
    by_cases heq : d1 = c1
    · have heq2 : d2 = c2 := (I.twins_injective hd hc).1 heq
      subst heq heq2
      exact ⟨v, Store.content_put_self hlt1, Store.content_put_self hlt2⟩
    · have hne2 : d2 ≠ c2 := fun heq2 => heq ((I.twins_injective hd hc).2 heq2)
      rw [Store.content_put_of_ne heq, Store.content_put_of_ne hne2]
      exact h.twins hd
  case filled =>
    intro d1 d2 hd
    exact (h.filled hd).imp (Store.isSet_put hlt1 (by simp)) (Store.isSet_put hlt2 (by simp))
  case vars1 =>
    intro f has hf
    obtain ⟨hlt, hhas⟩ := h.vars1 hf
    refine ⟨by simpa using hlt, fun x => ?_⟩
    by_cases heq : (f, x) = c1
    · subst heq
      rw [Store.content_put_self hlt, ← hhas, hold1]
      rfl
    · rw [Store.content_put_of_ne heq]
      exact hhas x
  case vars2 =>
    intro f has hf
    obtain ⟨hlt, hhas⟩ := h.vars2 hf
    refine ⟨by simpa using hlt, fun x => ?_⟩
    by_cases heq : (f, x) = c2
    · subst heq
      rw [Store.content_put_self hlt, ← hhas, hold2]
      rfl
    · rw [Store.content_put_of_ne heq]
      exact hhas x
  case own1 =>
    intro c hc
    simpa using h.own1 hc
  case own2 =>
    intro c hc
    simpa using h.own2 hc
  case alone1 => exact h.alone1
  case alone2 => exact h.alone2

theorem agree_forget (hle : Ledger.Le I I') (h : I'.coupling.Agree w o1 o2) : I.coupling.Agree w o1 o2 := by
  cases h with
  | ok hw hrel => exact .ok hw (hrel.forget hle)
  | fault hw hrel => exact .fault hw (hrel.forget hle)
  | spent => exact .spent

theorem enter (h : Alike I w s1 s2) {frame : Frame} {has : String → Bool}
    (hhas : ∀ x, (frame.lookup x).isSome = has x) : Alike (I.enter s1.frames.size has) w (s1.pushFrame frame) s2 := by
  have hclosure {c1 c2 : Closure} (hc : SameClosure I w c1 c2) :
      SameClosure (I.enter s1.frames.size has) w c1 c2 := by
    refine ⟨hc.code, hc.own, hc.env, fun f hf x hx hown => ?_, hc.apart2⟩
    rcases hown with hown | heq
    · exact hc.apart1 f hf x hx hown
    · exact Nat.ne_of_lt (h.frame_lt hc.env.frames f hf) heq
  have hgrows : s1.frames.size < (s1.pushFrame frame).frames.size := by simp
  constructor
  case heap => exact h.heap
  case bound =>
    intro f1 f2 hf
    exact ⟨Nat.lt_trans (h.bound hf).1 hgrows, (h.bound hf).2⟩
  case injective => exact h.injective
  case same =>
    intro f1 f2 hf x hx1 hx2
    rw [Store.content_pushFrame_of_lt frame (h.bound hf).1]
    exact (h.same hf x (fun hown => hx1 (Or.inl hown)) hx2).imp hclosure
  case closures => exact h.closures.imp fun _ _ hc => hclosure hc
  case twins =>
    intro c1 c2 hc
    rw [Store.content_pushFrame_of_lt frame (h.own1 (I.twins_own hc).1)]
    exact h.twins hc
  case filled =>
    intro c1 c2 hc
    exact (h.filled hc).imp_left (Store.isSet_pushFrame frame)
  case vars1 =>
    intro f has' hf
    simp only [Ledger.enter] at hf
    split at hf
    · next heq =>
      cases hf
      subst heq
      exact ⟨hgrows, fun x => by rw [Store.content_pushFrame_self]; exact hhas x⟩
    · obtain ⟨hlt, hhas'⟩ := h.vars1 hf
      refine ⟨Nat.lt_trans hlt hgrows, fun x => ?_⟩
      rw [Store.content_pushFrame_of_lt frame hlt]
      exact hhas' x
  case vars2 => exact h.vars2
  case own1 =>
    rintro c (hc | hc)
    · exact Nat.lt_trans (h.own1 hc) hgrows
    · rw [hc]
      exact hgrows
  case own2 => exact h.own2
  case alone1 =>
    rintro f1 f2 hf (halone | rfl)
    · exact h.alone1 hf halone
    · exact Nat.lt_irrefl _ (h.bound hf).1
  case alone2 => exact h.alone2

end Alike

end TypedLua
