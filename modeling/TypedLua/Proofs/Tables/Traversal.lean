import TypedLua.Machine
import TypedLua.Proofs.Tables.History

/-!
# Traversals of a table that changes

A program walks through a table and writes to it on the way.
-/

namespace TypedLua

/-- No entry holds nil, a key is the one that its value denotes, and none stands twice. -/
structure Table.WellFormed (t : Table) : Prop where
  filled : ∀ e ∈ t.entries, e.2 ≠ .nil
  canonical : ∀ key ∈ t.entries.map (·.1), Key.ofValue? key.toValue = some key
  nodup : (t.entries.map (·.1)).Nodup

def Table.assign (t : Table) (k v : Value) : Table := (t.set k v).toOption.getD t

theorem Table.assign_key {t : Table} (hk : Key.ofValue? k = some key) : t.assign k v = t.update key v := by
  rw [assign, set, hk]
  rfl

theorem Table.assign_keyless {t : Table} (hk : Key.ofValue? k = none) : t.assign k v = t := by
  rw [assign, set, hk]
  cases k.isNil <;> rfl

theorem Table.find_assign_of_ne {t : Table} (hk : Key.ofValue? k ≠ some key) :
    (t.assign k v).find key = t.find key := by
  cases hk' : Key.ofValue? k with
  | none => rw [assign_keyless hk']
  | some key' =>
    rw [assign_key hk', find_update_of_ne]
    exact fun h => hk (h ▸ hk')

theorem Table.get_toValue {t : Table} {key : Key} (hkey : Key.ofValue? key.toValue = some key) :
    t.get key.toValue = t.find key := by
  rw [get, hkey]

def Store.Holds (s : Store) (id : Nat) (t : Table) : Prop := id < s.tables.size ∧ s.tables.getD id {} = t

namespace Traversal

/-! ## Moves and events -/

inductive Move where
  | write (key v : Value)
  | advance (args : List Value) (fit : args.length ≤ 2)

inductive Event where
  | write (key v : Value)
  | answer (r : Result)

def walk (ask : List Value → Value → Run Result) (ends : Result → Bool) (id : Nat) :
    (control : Value) → List Move → Run (List Event)
  | _, [] => return []
  | control, .write k v :: moves => do
    let _ ← Run.attempt (Run.setRaw id k v)
    return .write k v :: (← walk ask ends id control moves)
  | control, .advance args _ :: moves => do
    let r ← ask args control
    if ends r then return [.answer r]
    else return .answer r :: (← walk ask ends id r.first moves)

def askIterator (watch : Watch) (n : Nat) (step : Value) (args : List Value) (_ : Value) : Run Result :=
  Machine.callWithin watch (n + 1) step args

def received (events : List Event) : List Value := events.filterMap fun
    | .answer (.many [k, _]) => some k
    | _ => none

def written (t : Table) : List Event → Table
  | [] => t
  | .write k v :: events => written (t.assign k v) events
  | .answer _ :: events => written t events

/-! ## Steps -/

variable {s : Store} {id it n : Nat} {t : Table} {ks : List Key} {watch : Watch}

theorem write_run (h : s.Holds id t) (k v : Value) :
    ∃ r s', Run.attempt (Run.setRaw id k v) s = .ok r s' ∧ s'.Holds id (t.assign k v) ∧
      s'.traversals = s.traversals := by
  obtain ⟨hid, rfl⟩ := h
  rw [Run.attempt]
  cases hk : Key.ofValue? k with
  | none =>
    obtain ⟨e, he⟩ := Run.setRaw_keyless id v s (Value.isKeyless_iff.2 hk)
    rw [he, Table.assign_keyless hk]
    exact ⟨_, s, rfl, ⟨hid, rfl⟩, rfl⟩
  | some key =>
    rw [Run.setRaw_key hk, Table.assign_key hk]
    exact ⟨_, _, rfl, ⟨by simpa using hid, by simp [Array.getD, hid]⟩, rfl⟩

def UnderWay (s : Store) (it id : Nat) (ks : List Key) : Prop :=
  it < s.traversals.size ∧ s.traversals.getD it default = ⟨id, ks⟩

def answer (t : Table) (ks : List Key) : Result × List Key := match Library.nextPresent t ks with
  | some (k, v, rest) => (.many [k.toValue, v], rest)
  | none => (.one .nil, [])

theorem step_run (watch : Watch) (n : Nat) {args : List Value} (fit : args.length ≤ 2) (h : s.Holds id t)
    (hit : UnderWay s it id ks) :
    ∃ s', Machine.callWithin watch (n + 1) (.function (.traversal it)) args s = .ok (answer t ks).1 s' ∧
      s'.Holds id t ∧ UnderWay s' it id (answer t ks).2 := by
  obtain ⟨hid, rfl⟩ := h
  obtain ⟨hlt, hks⟩ := hit
  have harity : Library.checkArity Library.traversalSignature args s = .ok () s := by
    have hmost : ¬ 2 < args.length := Nat.not_lt.2 fit
    rw [Library.checkArity, Signature.check, if_neg (by simp [Library.traversalSignature]),
      if_neg (by simpa [Library.traversalSignature, Signature.most] using hmost)]
    rfl
  have hread : Run.traversal it s = .ok ⟨id, ks⟩ s := by rw [Run.traversal, hks]
  rw [Machine.callWithin, Run.bind_ok harity, Library.traversalStep, Run.bind_ok hread,
    Run.bind_ok (show Run.table id s = .ok _ s from rfl), answer]
  have hput (ks' : List Key) : UnderWay { s with traversals := s.traversals.setIfInBounds it ⟨id, ks'⟩ }
      it id ks' := ⟨by simpa using hlt, by simp [Array.getD, hlt]⟩
  cases Library.nextPresent (s.tables.getD id {}) ks with
  | none => exact ⟨_, rfl, ⟨hid, rfl⟩, hput _⟩
  | some found => exact ⟨_, rfl, ⟨hid, rfl⟩, hput _⟩

theorem answer_cases (t : Table) (ks : List Key) : (answer t ks = (.one .nil, []) ∧ ∀ k ∈ ks, t.find k = .nil) ∨
      ∃ skipped k rest, ks = skipped ++ k :: rest ∧ (∀ k' ∈ skipped, t.find k' = .nil) ∧
        t.find k ≠ .nil ∧ answer t ks = (.many [k.toValue, t.find k], rest) := by
  induction ks with
  | nil => exact .inl ⟨rfl, by simp⟩
  | cons k ks ih =>
    rw [answer, Library.nextPresent]
    cases hv : t.find k with
    | nil =>
      rcases ih with ⟨hanswer, hnil⟩ | ⟨skipped, k', rest, rfl, hnil, hne, hanswer⟩
      · exact .inl ⟨hanswer, List.forall_mem_cons.2 ⟨hv, hnil⟩⟩
      · exact .inr ⟨k :: skipped, k', rest, rfl, List.forall_mem_cons.2 ⟨hv, hnil⟩, hne, hanswer⟩
    | _ => exact .inr ⟨[], k, ks, rfl, by simp, by simp [hv], by simp [hv, Value.isNil]⟩

/-! ## What a traversal answers -/

/-- Something holds at every answer, of the events before it, the answer and the events after it. -/
def AtAnswers (P : List Event → Result → List Event → Prop) (events : List Event) : Prop :=
  ∀ before r after, events = before ++ .answer r :: after → P before r after

section AtAnswers

variable {P : List Event → Result → List Event → Prop} {events : List Event}

theorem atAnswers_write : AtAnswers P (.write k v :: events) ↔
    AtAnswers (fun before => P (.write k v :: before)) events := by
  refine ⟨fun h before r after heq => h (.write k v :: before) r after (heq ▸ rfl), ?_⟩
  intro h before r after heq
  obtain ⟨rfl, h'⟩ | ⟨before, rfl, rfl⟩ := List.cons_eq_append_iff.1 heq
  · cases h'
  · exact h before r after rfl

theorem atAnswers_answer : AtAnswers P (.answer r :: events) ↔
    P [] r events ∧ AtAnswers (fun before => P (.answer r :: before)) events := by
  refine ⟨fun h => ⟨h [] r events rfl, fun before r' after heq => h (.answer r :: before) r' after (heq ▸ rfl)⟩, ?_⟩
  rintro ⟨hr, h⟩ before r' after heq
  obtain ⟨rfl, h'⟩ | ⟨before, rfl, rfl⟩ := List.cons_eq_append_iff.1 heq
  · cases h'
    exact hr
  · exact h before r' after rfl

theorem AtAnswers.imp {Q : List Event → Result → List Event → Prop} (h : AtAnswers P events)
    (hPQ : ∀ before r after, events = before ++ .answer r :: after → P before r after → Q before r after) :
    AtAnswers Q events :=
  fun before r after heq => hPQ before r after heq (h before r after heq)

end AtAnswers

structure Faithful (t : Table) (ks : List Value) (events : List Event) : Prop where
  order : (received events).Sublist ks
  /-- An answer is nil, or an entry with the value that the table has for it at that time. -/
  current : AtAnswers (fun before r _ =>
    r = .one .nil ∨ ∃ k v, r = .many [k, v] ∧ (written t before).get k = v ∧ v ≠ .nil) events
  /-- A key with a value that is never set to nil comes before the first nil. -/
  complete : AtAnswers (fun before r _ => r = .one .nil → ∀ k ∈ ks, t.get k ≠ .nil →
    (∀ k', .write k' .nil ∈ before → k'.eq k = false) → k ∈ received before) events
  final : AtAnswers (fun _ r after => r = .one .nil → ∀ r', .answer r' ∈ after → r' = .one .nil) events

namespace Faithful

variable {events : List Event} (hcanon : ∀ key ∈ ks, Key.ofValue? key.toValue = some key)

theorem nil (t : Table) (ks : List Value) : Faithful t ks [] where
  order := List.nil_sublist _
  current _ _ _ h := by simp at h
  complete _ _ _ h := by simp at h
  final _ _ _ h := by simp at h

include hcanon

theorem write (h : Faithful (t.assign k v) (ks.map Key.toValue) events) :
    Faithful t (ks.map Key.toValue) (.write k v :: events) := by
  refine ⟨h.order, atAnswers_write.2 h.current, atAnswers_write.2 (h.complete.imp ?_), atAnswers_write.2 h.final⟩
  intro before r _ _ hcomplete hr key hkey hval hwrites
  refine hcomplete hr key hkey ?_ fun k' hk' => hwrites k' (List.mem_cons_of_mem _ hk')
  obtain ⟨key, hmem, rfl⟩ := List.mem_map.1 hkey
  have hkey := hcanon key hmem
  rw [Table.get_toValue hkey] at hval ⊢
  by_cases hk : Key.ofValue? k = some key
  · -- the write was to this key, so it was not of nil
    rw [Table.assign_key hk, Table.find_update_self]
    rintro rfl
    have := hwrites k List.mem_cons_self
    rw [(Value.eq_iff_of_key hkey).2 hk] at this
    cases this
  · rwa [Table.find_assign_of_ne hk]

omit hcanon in
theorem answers_nil (h : Faithful t [] events) (hr : .answer r ∈ events) : r = .one .nil := by
  obtain ⟨before, after, rfl⟩ := List.append_of_mem hr
  rcases h.current before r after rfl with rfl | ⟨k, v, rfl, -⟩
  · rfl
  · have := List.sublist_nil.1 h.order
    simp [received] at this

theorem answer (h : Faithful t ((answer t ks).2.map Key.toValue) events) :
    Faithful t (ks.map Key.toValue) (.answer (answer t ks).1 :: events) := by
  have hval {key : Key} (hmem : key ∈ ks) := Table.get_toValue (t := t) (hcanon key hmem)
  rcases answer_cases t ks with ⟨hanswer, hnil⟩ | ⟨skipped, k, rest, rfl, hnil, hne, hanswer⟩
  · rw [hanswer] at h ⊢
    have hnone (k : Value) (hk : k ∈ ks.map Key.toValue) : t.get k = .nil := by
      obtain ⟨key, hmem, rfl⟩ := List.mem_map.1 hk
      rw [hval hmem, hnil key hmem]
    refine ⟨h.order.trans (List.nil_sublist _), atAnswers_answer.2 ⟨.inl rfl, h.current⟩,
      atAnswers_answer.2 ⟨fun _ k hk hget => absurd (hnone k hk) hget, h.complete.imp ?_⟩,
      atAnswers_answer.2 ⟨fun _ _ => h.answers_nil, h.final⟩⟩
    exact fun _ _ _ _ _ _ k hk hget => absurd (hnone k hk) hget
  · rw [hanswer] at h ⊢
    refine ⟨?_, atAnswers_answer.2 ⟨.inr ⟨_, _, rfl, hval (by simp), hne⟩, h.current⟩,
      atAnswers_answer.2 ⟨by simp, h.complete.imp ?_⟩,
      atAnswers_answer.2 ⟨by simp, h.final⟩⟩
    · rw [List.map_append, List.map_cons]
      exact (h.order.cons_cons k.toValue).trans (List.sublist_append_right _ _)
    · intro before r _ _ hcomplete hr key hkey hget hwrites
      obtain ⟨key, hmem, rfl⟩ := List.mem_map.1 hkey
      rcases List.mem_append.1 hmem with hskip | hrest
      · exact absurd ((hval hmem).trans (hnil key hskip)) hget
      · rcases List.mem_cons.1 hrest with rfl | hrest
        · exact List.mem_cons_self
        · exact List.mem_cons_of_mem _ (hcomplete hr _ (List.mem_map_of_mem hrest) hget
            fun k' hk' => hwrites k' (List.mem_cons_of_mem _ hk'))

end Faithful

theorem answer_subset (t : Table) (ks : List Key) : (answer t ks).2 ⊆ ks := by
  rcases answer_cases t ks with ⟨hanswer, -⟩ | ⟨skipped, k, rest, rfl, -, -, hanswer⟩ <;> rw [hanswer]
  · exact List.nil_subset _
  · exact fun _ hkey => List.mem_append_right _ (List.mem_cons_of_mem _ hkey)

theorem walk_faithful (watch : Watch) (n : Nat)
    (hcanon : ∀ key ∈ ks, Key.ofValue? key.toValue = some key) (moves : List Move)
    (control : Value) (h : s.Holds id t) (hit : UnderWay s it id ks) :
    ∃ events s', walk (askIterator watch n (.function (.traversal it))) (fun _ => false) id control moves s =
        .ok events s' ∧
      Faithful t (ks.map Key.toValue) events := by
  induction moves generalizing s t ks control with
  | nil => exact ⟨[], s, rfl, .nil _ _⟩
  | cons move moves ih =>
    cases move with
    | write k v =>
      obtain ⟨r, s1, hrun, h1, htraversals⟩ := write_run h k v
      have hit1 : UnderWay s1 it id ks := by rwa [UnderWay, htraversals]
      obtain ⟨events, s', hrest, hfaithful⟩ := ih hcanon control h1 hit1
      refine ⟨.write k v :: events, s', ?_, hfaithful.write hcanon⟩
      rw [walk, Run.bind_ok hrun, Run.bind_ok hrest]
      rfl
    | advance args fit =>
      obtain ⟨s1, hrun, h1, hit1⟩ := step_run watch n fit h hit
      obtain ⟨events, s', hrest, hfaithful⟩ := ih
        (fun key hkey => hcanon key (answer_subset t ks hkey)) (answer t ks).1.first h1 hit1
      refine ⟨.answer (answer t ks).1 :: events, s', ?_, hfaithful.answer hcanon⟩
      rw [walk, Run.bind_ok (show askIterator watch n _ args control s = _ from hrun), if_neg (by simp),
        Run.bind_ok hrest]
      rfl

theorem pairs_run (watch : Watch) (n : Nat) (h : s.Holds id t) :
    ∃ it s', Machine.callWithin watch (n + 1) (.function (.builtin .pairs)) [.table id] s =
        .ok (.many [.function (.traversal it), .table id, .nil]) s' ∧
      s'.Holds id t ∧ UnderWay s' it id (t.entries.map (·.1)) := by
  obtain ⟨hid, rfl⟩ := h
  exact ⟨s.traversals.size, _, rfl, ⟨hid, rfl⟩, by simp, by simp [Array.getD]⟩

/-- Whatever is written to a table on the way, `pairs` answers entries in the order that their keys had
when it was called, each key at most once and with its value at the time, until all keys that were never
set to nil have come, and then nothing but nil. -/
theorem pairs_faithful (watch : Watch) (n : Nat) (h : s.Holds id t) (ht : t.WellFormed) (moves : List Move) :
    ∃ step s₀ events s', Machine.callWithin watch (n + 1) (.function (.builtin .pairs)) [.table id] s =
        .ok (.many [step, .table id, .nil]) s₀ ∧
      walk (askIterator watch n step) (fun _ => false) id .nil moves s₀ = .ok events s' ∧
      (received events).Nodup ∧ Faithful t t.keys events := by
  obtain ⟨it, s₀, hpairs, h₀, hit⟩ := pairs_run watch n h
  obtain ⟨events, s', hwalk, hfaithful⟩ := walk_faithful watch n ht.canonical moves .nil h₀ hit
  rw [← Table.keys_eq_map] at hfaithful
  refine ⟨_, s₀, events, s', hpairs, hwalk, hfaithful.order.nodup ?_, hfaithful⟩
  rw [Table.keys_eq_map]
  refine ht.nodup.map_on fun a ha b hb hab => ?_
  exact Option.some.inj ((ht.canonical a ha).symm.trans (hab ▸ ht.canonical b hb))

def threeEntries : Table := { entries := [(.string "a", .int 1), (.bool true, .int 2), (.string "b", .int 3)] }

theorem threeEntries_wellFormed : threeEntries.WellFormed :=
  ⟨by simp [threeEntries, Value.int], by simp [threeEntries, Key.toValue, Key.ofValue?], by decide⟩

theorem holds_threeEntries : Store.Holds { tables := #[threeEntries] } 0 threeEntries := ⟨by decide, rfl⟩

/-- Between the steps, `true` is taken out and put in again, `b` is taken out, and `c` comes in. -/
theorem pairs_faithful_changing : threeEntries.WellFormed ∧
    ∃ step s₀ events s', Machine.callWithin Machine.unwatched 1 (.function (.builtin .pairs)) [.table 0]
        { tables := #[threeEntries] } = .ok (.many [step, .table 0, .nil]) s₀ ∧
      walk (askIterator Machine.unwatched 0 step) (fun _ => false) 0 .nil
        [.advance [] (by decide), .write (.bool true) .nil, .write (.bool true) (.int 7),
          .write (.string "b") .nil, .write (.string "c") (.int 5), .advance [] (by decide),
          .advance [] (by decide), .advance [] (by decide)] s₀ = .ok events s' ∧
      (received events).Nodup ∧ Faithful threeEntries threeEntries.keys events :=
  ⟨threeEntries_wellFormed, pairs_faithful Machine.unwatched 0 holds_threeEntries threeEntries_wellFormed _⟩

end Traversal

end TypedLua
