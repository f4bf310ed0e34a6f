import TypedLua.Library
import TypedLua.Proofs.Tables.Border

/-!
# Sorting

`table.sort` compares the values of a sequence with a function that may do anything but change the
table.
-/

namespace TypedLua.Library

/-! ## Orders -/

/-- An order on the values of a list, in which being incomparable is transitive. -/
structure StrictWeakOn (values : List Value) (less : Value → Value → Bool) : Prop where
  irrefl : ∀ a ∈ values, less a a = false
  trans : ∀ a ∈ values, ∀ b ∈ values, ∀ c ∈ values, less a b → less b c → less a c
  incomparable : ∀ a ∈ values, ∀ b ∈ values, ∀ c ∈ values, less a b = false → less b a = false →
    less b c = false → less c b = false → less a c = false

def equivalent (less : Value → Value → Bool) (a b : Value) : Bool := !less a b && !less b a

namespace StrictWeakOn

variable {values : List Value} {less : Value → Value → Bool} (h : StrictWeakOn values less) {a b c : Value}
  (ha : a ∈ values) (hb : b ∈ values) (hc : c ∈ values)

include h ha hb

theorem asymm (hab : less a b) : less b a = false := by
  by_contra hba
  have := h.trans a ha b hb a ha hab (by simpa using hba)
  simp [h.irrefl a ha] at this

include hc

theorem cut (hac : less a c) (hbc : less b c = false) : less a b := by
  by_contra hab
  rw [Bool.not_eq_true] at hab
  have hba : less b a = false := by
    by_contra hba
    simp [h.trans b hb a ha c hc (by simpa using hba) hac] at hbc
  have hcb : less c b = false := by
    by_contra hcb
    simp [h.trans a ha c hc b hb hac (by simpa using hcb)] at hab
  simp [h.incomparable a ha b hb c hc hab hba hbc hcb] at hac

omit ha hb hc

variable {l : List Value} {x : Value}

theorem less_of_head (hl : ∀ a ∈ c :: l, a ∈ values) (hx : x ∈ values) (hsorted : (c :: l).Pairwise fun a b => less b a = false)
    (hless : less x c) : ∀ b ∈ c :: l, less x b := by
  rw [List.forall_mem_cons] at hl
  refine List.forall_mem_cons.2 ⟨hless, fun b hb => ?_⟩
  exact h.cut hx (hl.2 b hb) hl.1 hless ((List.pairwise_cons.1 hsorted).1 b hb)

theorem not_less_of_last (hl : ∀ a ∈ l ++ [c], a ∈ values) (hx : x ∈ values)
    (hsorted : (l ++ [c]).Pairwise fun a b => less b a = false) (hless : less x c = false) :
    ∀ a ∈ l ++ [c], less x a = false := by
  intro a ha
  by_contra hxa
  rw [Bool.not_eq_false] at hxa
  rcases List.mem_append.1 ha with hfront | hlast
  · have hca := (List.pairwise_append.1 hsorted).2.2 a hfront c (List.mem_singleton_self c)
    simp [h.cut hx (hl c (by simp)) (hl a ha) hxa hca] at hless
  · simp [← List.mem_singleton.1 hlast, hxa] at hless

end StrictWeakOn

/-! ## Stability -/

section Stability

def arranged (falling : Bool) (run : List Value) : List Value := if falling then run.reverse else run

def Decides (values : List Value) (Answers : Value → Value → Bool → Prop) (order : Value → Value → Bool) : Prop :=
  StrictWeakOn values order ∧ ∀ a ∈ values, ∀ b ∈ values, ∀ r, Answers a b r → r = order a b

variable (values : List Value) (Answers : Value → Value → Bool → Prop)

/-- Some values in another order: sorted by the order of the answers, with equivalent values as they were. -/
structure StablySorted (old new : List Value) : Prop where
  perm : new.Perm old
  sorted : ∀ order, Decides values Answers order → new.Pairwise fun a b => order b a = false
  stable : ∀ order, Decides values Answers order → ∀ a ∈ values,
    new.filter (equivalent order a) = old.filter (equivalent order a)

/-- A value belongs behind one part of a list and in front of another part. -/
def BelongsAt (x : Value) (front back : List Value) : Prop :=
  ∀ order, Decides values Answers order → (∀ a ∈ front, order x a = false) ∧ ∀ b ∈ back, order x b

variable {values Answers} {old front back l : List Value} {x c : Value} (hx : x ∈ values)

include hx

theorem StablySorted.insert (h : StablySorted values Answers old (front ++ back)) (hold : ∀ a ∈ old, a ∈ values)
    (hplace : BelongsAt values Answers x front back) : StablySorted values Answers (old ++ [x]) (front ++ x :: back) where
  perm := List.perm_middle.trans ((h.perm.cons x).trans (List.perm_append_singleton x old).symm)
  sorted order horder := by
    have hmem (b : Value) (hb : b ∈ back) : b ∈ values := hold b (h.perm.subset (List.mem_append_right _ hb))
    obtain ⟨hfront, hback⟩ := hplace order horder
    obtain ⟨h1, h2, h3⟩ := List.pairwise_append.1 (h.sorted order horder)
    refine List.pairwise_append.2 ⟨h1, h2.cons fun b hb => horder.1.asymm hx (hmem b hb) (hback b hb), fun a ha b hb => ?_⟩
    rcases List.mem_cons.1 hb with rfl | hb
    · exact hfront a ha
    · exact h3 a ha b hb
  stable order horder a ha := by
    have hstable := h.stable order horder a ha
    rw [List.filter_append] at hstable
    rw [List.filter_append, List.filter_append, ← hstable, List.filter_cons]
    split
    · next hax =>
      -- What comes behind the value is not equivalent to it.
      have hnone : back.filter (equivalent order a) = [] := by
        refine List.filter_eq_nil_iff.2 fun b hb hab => ?_
        have hbv : b ∈ values := hold b (h.perm.subset (List.mem_append_right _ hb))
        simp only [equivalent, Bool.and_eq_true, Bool.not_eq_true'] at hax hab
        have hxb := horder.1.incomparable x hx a ha b hbv hax.2 hax.1 hab.1 hab.2
        simp [(hplace order horder).2 b hb] at hxb
      simp [hnone, hax]
    · next hax => simp [hax]

theorem belongsAt_front (hsorted : ∀ order, Decides values Answers order → (c :: l).Pairwise fun a b => order b a = false)
    (hl : ∀ a ∈ c :: l, a ∈ values) (hr : Answers x c true) : BelongsAt values Answers x [] (c :: l) :=
  fun order horder => ⟨by simp, horder.1.less_of_head hl hx (hsorted order horder)
    (horder.2 x hx c (hl c (by simp)) true hr).symm⟩

theorem belongsAt_back (hsorted : ∀ order, Decides values Answers order → (l ++ [c]).Pairwise fun a b => order b a = false)
    (hl : ∀ a ∈ l ++ [c], a ∈ values) (hr : Answers x c false) : BelongsAt values Answers x (l ++ [c]) [] :=
  fun order horder => ⟨horder.1.not_less_of_last hl hx (hsorted order horder)
    (horder.2 x hx c (hl c (by simp)) false hr).symm, by simp⟩

theorem StablySorted.grow (h : StablySorted values Answers (front ++ [c]) (arranged falling (front ++ [c])))
    (hold : ∀ a ∈ front ++ [c], a ∈ values) (hr : Answers x c falling) :
    StablySorted values Answers (front ++ [c] ++ [x]) (arranged falling (front ++ [c] ++ [x])) := by
  cases falling with
  | true =>
    rw [show arranged true (front ++ [c]) = [] ++ c :: front.reverse by simp [arranged]] at h
    have hnew := h.insert hx hold (belongsAt_front hx h.sorted (fun a ha => hold a (h.perm.subset ha)) hr)
    simpa [arranged] using hnew
  | false =>
    rw [show arranged false (front ++ [c]) = front ++ [c] ++ [] by simp [arranged]] at h
    have hnew := h.insert hx hold (belongsAt_back hx (by simpa using h.sorted) hold hr)
    simpa [arranged] using hnew

end Stability

/-! ## Comparisons -/

theorem insertIdx_eq_take_drop {α : Type} (l : List α) (hi : i ≤ l.length) (x : α) :
    l.insertIdx i x = l.take i ++ x :: l.drop i := by
  induction i generalizing l with
  | zero => rfl
  | succ i ih =>
    cases l with
    | nil => simp at hi
    | cons a l => simpa using ih l (Nat.le_of_succ_le_succ hi)

/-- From the stores of a set, a computation ends in the set with a value of some kind, or fails in some way. -/
def Ends {α : Type} (I : Store → Prop) (E : Stop → Store → Prop) (p : Run α) (Q : α → Prop) : Prop :=
  ∀ s, I s → (∃ a s', p s = .ok a s' ∧ I s' ∧ Q a) ∨ ∃ e s', p s = .error e s' ∧ E e s'

section Ends

variable {α β : Type} {I : Store → Prop} {E : Stop → Store → Prop} {p : Run α} {P : α → Prop}

theorem ends_pure {a : α} (h : P a) : Ends I E (pure a) P := fun s hs => .inl ⟨a, s, rfl, hs, h⟩

theorem Ends.bind {f : α → Run β} {R : β → Prop} (h : Ends I E p P) (hf : ∀ a, P a → Ends I E (f a) R) :
    Ends I E (p >>= f) R := by
  intro s hs
  rcases h s hs with ⟨a, s', hrun, hs', ha⟩ | ⟨e, s', hrun, he⟩
  · rw [Run.bind_ok hrun]
    exact hf a ha s' hs'
  · rw [Run.bind_error hrun]
    exact .inr ⟨e, s', rfl, he⟩

end Ends

section Comparisons

variable {I : Store → Prop} {E : Stop → Store → Prop} {values : List Value} {less : Value → Value → Run Bool}
  {Answers : Value → Value → Bool → Prop}
  (hless : ∀ a ∈ values, ∀ b ∈ values, Ends I E (less a b) (Answers a b))

include hless

theorem precedes_ends (ha : a ∈ values) (hb : b ∈ values) : Ends I E (precedes less a b) (Answers a b) := by
  refine (hless a ha b hb).bind fun r hr => ?_
  cases r with
  | true => exact ends_pure hr
  | false => exact (hless b hb a ha).bind fun _ _ => ends_pure hr

theorem takeRun_ends (hmem : ∀ a ∈ front ++ [last] ++ vs, a ∈ values)
    (h : StablySorted values Answers (front ++ [last]) (arranged falling (front ++ [last]))) :
    Ends I E (takeRun less falling last vs) fun r => r.1 ++ r.2 = vs ∧
      StablySorted values Answers (front ++ [last] ++ r.1) (arranged falling (front ++ [last] ++ r.1)) := by
  induction vs generalizing front last with
  | nil => exact ends_pure ⟨rfl, by rwa [List.append_nil]⟩
  | cons x xs ih =>
    have hx : x ∈ values := hmem x (by simp)
    refine (precedes_ends hless hx (hmem last (by simp))).bind fun r hr => ?_
    by_cases heq : r = falling
    · subst heq
      simp only [beq_self_eq_true, if_true]
      have hnew := h.grow hx (fun a ha => hmem a (List.mem_append_left _ ha)) hr
      rw [List.append_cons] at hmem
      exact (ih hmem hnew).bind fun rest hrest => ends_pure ⟨by simp [← hrest.1], by simpa using hrest.2⟩
    · simp only [beq_iff_eq, heq, if_false]
      exact ends_pure ⟨rfl, by rwa [List.append_nil]⟩

theorem firstRun_ends (hvs : ∀ a ∈ vs, a ∈ values) : Ends I E (firstRun less vs) fun r =>
    ∃ front, front ++ r.2 = vs ∧ StablySorted values Answers front r.1 := by
  have hone (x : Value) : StablySorted values Answers [x] [x] :=
    ⟨.refl _, fun _ _ => List.pairwise_singleton _ x, fun _ _ _ _ => rfl⟩
  rcases vs with _ | ⟨x, _ | ⟨y, vs⟩⟩
  · exact ends_pure ⟨[], rfl, .refl _, fun _ _ => .nil, fun _ _ _ _ => rfl⟩
  · exact ends_pure ⟨[x], rfl, hone x⟩
  · refine (precedes_ends hless (hvs y (by simp)) (hvs x (by simp))).bind fun falling hr => ?_
    have hstart : StablySorted values Answers ([] ++ [x]) (arranged falling ([] ++ [x])) := by
      cases falling <;> exact hone x
    have hpair := hstart.grow (hvs y (by simp)) (fun a ha => hvs a (by simp at ha; simp [ha])) hr
    refine (takeRun_ends hless (by simpa using hvs) hpair).bind fun r hr => ends_pure ?_
    exact ⟨x :: y :: r.1, by simp [← hr.1], hr.2⟩

variable {x : Value} (hx : x ∈ values)

include hx

theorem placeOf_ends {sorted : Array Value} (hl : ∀ a ∈ sorted.toList, a ∈ values)
    (hsorted : ∀ order, Decides values Answers order → sorted.toList.Pairwise fun a b => order b a = false)
    (hlow : low ≤ high) (hhigh : high ≤ sorted.size) (hsteps : high - low ≤ steps)
    (h : BelongsAt values Answers x (sorted.toList.take low) (sorted.toList.drop high)) :
    Ends I E (placeOf less x sorted steps low high) fun i =>
      i ≤ sorted.size ∧ BelongsAt values Answers x (sorted.toList.take i) (sorted.toList.drop i) := by
  induction steps generalizing low high with
  | zero =>
    obtain rfl : low = high := by omega
    exact ends_pure ⟨hhigh, h⟩
  | succ steps ih =>
    rw [placeOf]
    split
    · next hlt =>
      generalize hmiddle : low + (high - low) / 2 = m
      have hm : m < sorted.toList.length := by
        rw [Array.length_toList]
        omega
      have hget : sorted.getD m .nil = sorted.toList[m] := by
        rw [Array.length_toList] at hm
        simp [Array.getD, hm]
      show Ends I E (precedes less x (sorted.getD m .nil) >>= fun r => _) _
      rw [hget]
      refine (precedes_ends hless hx (hl _ (List.getElem_mem hm))).bind fun r hr => ?_
      cases r with
      | true =>
        have hdrop := List.drop_eq_getElem_cons hm
        have hback := belongsAt_front hx (fun order horder => hdrop ▸ (hsorted order horder).sublist (List.drop_sublist m _))
          (fun a ha => hl a (List.mem_of_mem_drop (hdrop ▸ ha))) hr
        rw [← hdrop] at hback
        exact ih (by omega) (by omega) (by omega) fun order horder => ⟨(h order horder).1, (hback order horder).2⟩
      | false =>
        have htake := List.take_succ_eq_append_getElem hm
        have hfront := belongsAt_back hx (fun order horder => htake ▸ (hsorted order horder).sublist (List.take_sublist _ _))
          (fun a ha => hl a (List.mem_of_mem_take (htake ▸ ha))) hr
        rw [← htake] at hfront
        exact ih (by omega) hhigh (by omega) fun order horder => ⟨(hfront order horder).1, (h order horder).2⟩
    · obtain rfl : low = high := by omega
      exact ends_pure ⟨hhigh, h⟩

omit hx

theorem sortOnto_ends (hmem : ∀ a ∈ old ++ xs, a ∈ values) {sorted : Array Value}
    (h : StablySorted values Answers old sorted.toList) :
    Ends I E (sortOnto less sorted xs) fun r => StablySorted values Answers (old ++ xs) r.toList := by
  induction xs generalizing old sorted with
  | nil => exact ends_pure (by rwa [List.append_nil])
  | cons x xs ih =>
    have hold (a : Value) (ha : a ∈ old) : a ∈ values := hmem a (List.mem_append_left _ ha)
    have hx : x ∈ values := hmem x (by simp)
    refine (placeOf_ends hless hx (fun a ha => hold a (h.perm.subset ha)) h.sorted (Nat.zero_le _)
      (Nat.le_refl _) (Nat.sub_le _ _) fun order _ => by simp [← Array.length_toList]).bind fun i hi => ?_
    have hinsert : (sorted.insertIdxIfInBounds i x).toList = sorted.toList.take i ++ x :: sorted.toList.drop i := by
      rw [Array.insertIdxIfInBounds, dif_pos hi.1, Array.toList_insertIdx, insertIdx_eq_take_drop _ hi.1]
    rw [List.append_cons] at hmem ⊢
    refine ih hmem ?_
    rw [hinsert]
    exact StablySorted.insert hx (by rwa [List.take_append_drop]) hold hi.2

theorem sortValues_ends : Ends I E (sortValues less values) (StablySorted values Answers values) := by
  refine (firstRun_ends hless fun _ ha => ha).bind fun r hr => ?_
  obtain ⟨front, hsplit, hfront⟩ := hr
  have hall : ∀ a ∈ front ++ r.2, a ∈ values := fun a ha => hsplit ▸ ha
  refine (sortOnto_ends hless hall hfront).bind fun sorted hsorted => ends_pure ?_
  rwa [hsplit] at hsorted

end Comparisons

/-! ## The sequence of a table -/

theorem appendFrom_metatable (t : Table) (n : Int) (vs : List Value) : (t.appendFrom n vs).metatable = t.metatable := by
  induction vs generalizing t n with
  | nil => rfl
  | cons v vs ih => rw [Table.appendFrom, ih, Table.update_metatable]

theorem find_appendFrom_of_ne {t : Table} {vs : List Value}
    (h : ∀ i : Nat, i < vs.length → k ≠ .int (n + i)) : (t.appendFrom n vs).find k = t.find k := by
  induction vs generalizing t n with
  | nil => rfl
  | cons v vs ih =>
    rw [Table.appendFrom, ih fun i hi => ?_, Table.find_update_of_ne _ (by simpa using h 0 (by simp))]
    simpa [Int.add_assoc, Int.add_comm 1] using h (i + 1) (by simpa using hi)

theorem find_appendFrom {t : Table} {vs : List Value} (hi : i < vs.length) :
    (t.appendFrom n vs).find (.int (n + i)) = vs.getD i .nil := by
  induction vs generalizing t n i with
  | nil => simp at hi
  | cons v vs ih =>
    rw [Table.appendFrom]
    cases i with
    | zero =>
      rw [find_appendFrom_of_ne fun j _ => by simp; omega]
      simp
    | succ i => simpa [Int.add_assoc, Int.add_comm 1] using ih (t := t.update (.int n) v) (n := n + 1) (Nat.lt_of_succ_lt_succ hi)

theorem rewritten_appendFrom (t : Table) (vs : List Value) : t.Rewritten (t.appendFrom 1 vs) vs.length vs where
  items i hi := by simpa [Int.add_comm 1] using find_appendFrom (t := t) (n := 1) hi
  others k hk := find_appendFrom_of_ne fun i hi => by simpa [Int.add_comm 1] using hk i hi
  metatable := appendFrom_metatable t 1 vs

def Answers (I : Store → Prop) (call : Caller) (comparator a b : Value) (r : Bool) : Prop :=
  ∃ s s', I s ∧ before call comparator a b s = .ok r s'

/-- A call of `table.sort` writes the values of a sequence back, sorted, or an error of a comparison stops it. -/
def Sorts (I : Store → Prop) (id : Nat) (t : Table) (call : Caller) (comparator : Value) : EStateM.Result Stop Store Result → Prop
  | .ok r s => r = .one .nil ∧ ∃ s' t' sorted, I s' ∧ s = { s' with tables := s'.tables.setIfInBounds id t' } ∧
      t.Rewritten t' t.border sorted ∧
      StablySorted t.sequence (Answers I call comparator) t.sequence sorted
  | .error e s => I s ∧ ∃ a ∈ t.sequence, ∃ b ∈ t.sequence, ∃ s', I s' ∧ before call comparator a b s' = .error e s

/-- Sorting is stable and leaves everything but the sequence alone, whatever the comparisons do, as long as they stay
in a set of stores with the same table. -/
theorem sort_stable_atomic (call : Caller) {comparator : Value} {I : Store → Prop} {id : Nat} {t : Table} {args : List Value}
    {s : Store} (hargs : args = [.table id, comparator] ∨ args = [.table id] ∧ comparator = .nil)
    (htable : ∀ s, I s → s.tables[id]? = some t)
    (hcompare : ∀ a ∈ t.sequence, ∀ b ∈ t.sequence, Ends I (fun _ => I) (before call comparator a b) fun _ => True)
    (hs : I s) : Sorts I id t call comparator (apply call .tableSort args s) := by
  have hget (s : Store) (hs : I s) : s.tables.getD id {} = t := by simp [htable s hs]
  have hless (a : Value) (ha : a ∈ t.sequence) (b : Value) (hb : b ∈ t.sequence) :
      Ends I (fun e s => I s ∧ ∃ a ∈ t.sequence, ∃ b ∈ t.sequence, ∃ s', I s' ∧ before call comparator a b s' = .error e s)
        (before call comparator a b) (Answers I call comparator a b) := by
    intro s hs
    rcases hcompare a ha b hb s hs with ⟨r, s', hrun, hs', -⟩ | ⟨e, s', hrun, hs'⟩
    · exact .inl ⟨r, s', hrun, hs', s, s', hs, hrun⟩
    · exact .inr ⟨e, s', hrun, hs', a, ha, b, hb, s, hs, hrun⟩
  have happly : apply call .tableSort args s = silent (do
      let sorted ← sortValues (before call comparator) t.sequence
      let t ← Run.table id
      Run.putTable id (t.appendFrom 1 sorted)) s := by
    rw [← hget s hs]
    rcases hargs with rfl | ⟨rfl, rfl⟩ <;> rfl
  rw [happly, silent, bind_assoc]
  rcases sortValues_ends hless s hs with ⟨sorted, s', hrun, hs', hsorted⟩ | ⟨e, s', hrun, he⟩
  · rw [Run.bind_ok hrun]
    have hlength : sorted.length = t.border := hsorted.perm.length_eq.trans Table.length_sequence
    refine ⟨rfl, s', t.appendFrom 1 sorted, sorted, hs', ?_, hlength ▸ rewritten_appendFrom t sorted, hsorted⟩
    rw [← hget s' hs']
  · rw [Run.bind_error hrun]
    exact he

/-- Numbers, sorted by their own order. -/
theorem sort_stable_atomic_numbers : Sorts (· = { tables := #[Table.ofList [.int 3, .int 1, .int 2]] }) 0
    (Table.ofList [.int 3, .int 1, .int 2]) (fun _ _ => Run.exhausted) .nil
    (apply (fun _ _ => Run.exhausted) .tableSort [.table 0] { tables := #[Table.ofList [.int 3, .int 1, .int 2]] }) := by
  refine sort_stable_atomic _ (.inr ⟨rfl, rfl⟩) (fun s hs => hs ▸ rfl) (fun a _ b _ s hs => ?_) rfl
  rw [before]
  cases hlt : Operator.lt a b with
  | ok r => exact .inl ⟨r, s, rfl, hs, trivial⟩
  | error f => exact .inr ⟨_, s, rfl, hs⟩

end TypedLua.Library
