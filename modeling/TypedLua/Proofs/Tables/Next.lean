import TypedLua.Proofs.Tables.Traversal

/-!
# Walking from key to key

A loop that asks `next` for the entry behind the key it got last looks that key up in the table as
it is now.
-/

namespace TypedLua.Traversal

def Existing (t : Table) : List Move → Prop
  | [] => True
  | .write k v :: moves => t.get k ≠ .nil ∧ Existing (t.assign k v) moves
  | .advance .. :: moves => Existing t moves

/-- The key that was received last, a given one at first, has lost its value by some events. -/
def Stale (t : Table) (control : Value) (events : List Event) : Prop := (received events).getLastD control ≠ .nil ∧
    (written t events).get ((received events).getLastD control) = .nil

def Trimmed (t : Table) (ks : List Key) : Prop := t.entries.map (·.1) = ks.filter fun k => !(t.find k).isNil

variable {t : Table} {k : Key} {v : Value} {ks visited : List Key}

theorem isNil_eq_false : v.isNil = false ↔ v ≠ .nil := by
  cases v <;> simp [Value.isNil]

theorem trimmed_keys (ht : t.WellFormed) : Trimmed t (t.entries.map (·.1)) := by
  refine (List.filter_eq_self.2 fun key hkey => ?_).symm
  simpa [isNil_eq_false] using (Table.mem_keys_iff ht.filled).1 hkey

theorem mem_keys_of_find (h : t.find k ≠ .nil) : k ∈ t.entries.map (·.1) := by
  rw [Table.find] at h
  cases hk : t.entries.lookup k with
  | none =>
    rw [hk] at h
    exact absurd rfl h
  | some w => exact List.mem_map_of_mem (Association.mem_of_lookup hk)

theorem Trimmed.update (h : Trimmed t ks) (hk : t.find k ≠ .nil) (v : Value) : Trimmed (t.update k v) ks := by
  have hfind (key : Key) : (t.update k v).find key = if key = k then v else t.find key := by
    split
    · next heq => rw [heq, Table.find_update_self]
    · next hne => rw [Table.find_update_of_ne t hne]
  rw [Trimmed]
  simp only [hfind]
  cases hv : v.isNil with
  | true =>
    rw [Table.update, if_pos hv, Association.keys_discard, h, List.filter_filter]
    refine List.filter_congr fun key _ => ?_
    by_cases heq : key = k <;> simp [heq, hv]
  | false =>
    have hmem : (t.entries.map (·.1)).contains k = true := by simpa using mem_keys_of_find hk
    rw [Table.update, if_neg (by simp [hv]), Association.keys_put, if_pos hmem, h]
    refine List.filter_congr fun key _ => ?_
    by_cases heq : key = k <;> simp [heq, hv, isNil_eq_false.2 hk]

/-! ## One question -/

theorem following_eq_none {entries : List (Key × Value)} (h : k ∉ entries.map (·.1)) :
    Table.following k entries = none := by
  induction entries with
  | nil => rfl
  | cons e entries ih =>
    rw [List.map_cons, List.mem_cons, not_or] at h
    rw [Table.following, if_neg (Ne.symm h.1), ih h.2]

theorem following_append {before after : List (Key × Value)} (h : k ∉ before.map (·.1)) :
    Table.following k (before ++ (k, v) :: after) = some after.head? := by
  induction before with
  | nil => simp [Table.following]
  | cons e before ih =>
    rw [List.map_cons, List.mem_cons, not_or] at h
    rw [List.cons_append, Table.following, if_neg (Ne.symm h.1), ih h.2]

def entryResult : Option (Key × Value) → Result
  | none => .one .nil
  | some e => .many [e.1.toValue, e.2]

theorem answer_head {entries : List (Key × Value)} (hvals : ∀ e ∈ entries, t.find e.1 = e.2)
    (hkeys : entries.map (·.1) = ks.filter fun k => !(t.find k).isNil) :
    entryResult entries.head? = (answer t ks).1 := by
  rcases answer_cases t ks with ⟨hanswer, hnil⟩ | ⟨skipped, k, rest, rfl, hnil, hne, hanswer⟩
  · have hnone : entries = [] := by
      rw [← List.map_eq_nil_iff, hkeys, List.filter_eq_nil_iff]
      exact fun key hkey => by simp [hnil key hkey, Value.isNil]
    rw [hanswer, hnone]
    rfl
  · have hskipped : skipped.filter (fun k => !(t.find k).isNil) = [] :=
      List.filter_eq_nil_iff.2 fun key hkey => by simp [hnil key hkey, Value.isNil]
    rw [List.filter_append, hskipped, List.nil_append, List.filter_cons_of_pos (by simpa [isNil_eq_false] using hne)]
      at hkeys
    obtain ⟨e, after, rfl, rfl, -⟩ := List.map_eq_cons_iff.1 hkeys
    rw [hanswer, hvals e List.mem_cons_self]
    rfl

theorem isNil_toValue (k : Key) : k.toValue.isNil = false := by
  cases k <;> rfl

theorem next_key (hk : Key.ofValue? k.toValue = some k) : t.next k.toValue = Table.following k t.entries := by
  rw [Table.next, isNil_toValue, hk]
  rfl

def controlOf (visited : List Key) : Value := (visited.map Key.toValue).getLastD .nil

section Question

variable (h : Trimmed t (visited ++ ks)) (hcanon : ∀ key ∈ visited, Key.ofValue? key.toValue = some key)

include h hcanon

theorem next_current (hnodup : (visited ++ ks).Nodup) (hcurrent : ¬ Stale t (controlOf visited) []) :
    ∃ found, t.next (controlOf visited) = some found ∧ entryResult found = (answer t ks).1 := by
  have hkeys : (t.entries.map (·.1)).Nodup := h ▸ hnodup.filter _
  have hvals (e : Key × Value) (he : e ∈ t.entries) : t.find e.1 = e.2 := by
    rw [Table.find, Association.lookup_of_mem hkeys he]
    rfl
  rcases List.eq_nil_or_concat visited with rfl | ⟨before, k, rfl⟩
  · exact ⟨_, rfl, answer_head hvals h⟩
  · have hk := hcanon k (by simp)
    have hcontrol : controlOf (before.concat k) = k.toValue := by simp [controlOf]
    have hfind : t.find k ≠ .nil := by
      rw [hcontrol] at hcurrent
      exact fun hnil => hcurrent ⟨isNil_eq_false.1 (isNil_toValue k), (Table.get_toValue hk).trans hnil⟩
    rw [Trimmed, List.concat_append, List.filter_append, List.filter_cons_of_pos (by
      simpa [isNil_eq_false] using hfind)] at h
    obtain ⟨left, right, hentries, hleft, hright⟩ := List.map_eq_append_iff.1 h
    obtain ⟨e, after, rfl, rfl, hafter⟩ := List.map_eq_cons_iff.1 hright
    rw [hentries, List.map_append, List.map_cons] at hkeys
    refine ⟨after.head?, ?_, answer_head (fun e he => hvals e (by simp [hentries, he])) hafter⟩
    rw [hcontrol, next_key hk, hentries, following_append (v := e.2)]
    exact fun hmem => (List.nodup_append.1 hkeys).2.2 _ hmem _ List.mem_cons_self rfl

theorem next_stale (hstale : Stale t (controlOf visited) []) : t.next (controlOf visited) = none := by
  obtain ⟨hcontrol, hget⟩ := hstale
  rcases List.eq_nil_or_concat visited with rfl | ⟨before, k, rfl⟩
  · exact absurd rfl hcontrol
  · have hk := hcanon k (by simp)
    have heq : controlOf (before.concat k) = k.toValue := by simp [controlOf]
    have hfind : t.find k = .nil := by
      rw [← Table.get_toValue hk, ← heq]
      exact hget
    rw [heq, next_key hk, following_eq_none]
    rw [h]
    simp [hfind, Value.isNil]

end Question

/-! ## Loops -/

variable {t' : Table} {s s' : Store} {id it n : Nat} {watch : Watch} {control : Value}

def askNext (watch : Watch) (n id : Nat) (_ : List Value) (control : Value) : Run Result :=
  Machine.callWithin watch (n + 1) (.function (.builtin .next)) [.table id, control]

theorem askNext_run (watch : Watch) (n : Nat) (args : List Value) (control : Value) (h : s.Holds id t) :
    askNext watch n id args control s = match t.next control with
      | none => .error (.fault (.complaint .invalidNext)) s
      | some found => .ok (entryResult found) s := by
  obtain ⟨-, rfl⟩ := h
  show Library.next (.table id) control s = _
  rw [Library.next, Run.bind_ok (show Library.checkTable 1 "next" (.table id) s = .ok id s from rfl),
    Run.bind_ok (show Run.table id s = .ok (s.tables.getD id {}) s from rfl)]
  cases (s.tables.getD id {}).next control with
  | none => rfl
  | some found => cases found <;> rfl

def Fresh (t : Table) (control : Value) (events : List Event) : Prop :=
  AtAnswers (fun before _ _ => ¬ Stale t control before) events

/-- A walk tells the same events if all its questions are fresh, and fails otherwise. -/
def Follows (t : Table) (control : Value) (events : List Event)
    (outcome : EStateM.Result Stop Store (List Event)) : Prop :=
  (Fresh t control events → ∃ s, outcome = .ok events s) ∧
    (¬ Fresh t control events → ∃ s, outcome = .error (.fault (.complaint .invalidNext)) s)

theorem stale_answer {k : Value} {before : List Event} :
    Stale t control (.answer (.many [k, v]) :: before) ↔ Stale t k before := by
  have hreceived : received (.answer (.many [k, v]) :: before) = k :: received before := rfl
  rw [Stale, Stale, hreceived, List.getLastD_cons, written]

theorem Follows.cons {control' : Value} {e : Event} {events : List Event} {p : Run (List Event)}
    (hfresh : Fresh t control (e :: events) ↔ Fresh t' control' events) (h : Follows t' control' events (p s)) :
    Follows t control (e :: events) ((do return e :: (← p) : Run (List Event)) s) := by
  rw [Follows, hfresh]
  constructor
  · intro hok
    obtain ⟨s₂, hs₂⟩ := h.1 hok
    exact ⟨s₂, Run.bind_ok hs₂⟩
  · intro hstale
    obtain ⟨s₂, hs₂⟩ := h.2 hstale
    exact ⟨s₂, Run.bind_error hs₂⟩

theorem walk_next (watch : Watch) (n : Nat) (visited : List Key) (moves : List Move)
    (hs : s.Holds id t) (hit : UnderWay s it id ks) (hs' : s'.Holds id t)
    (h : Trimmed t (visited ++ ks)) (hnodup : (visited ++ ks).Nodup)
    (hcanon : ∀ key ∈ visited ++ ks, Key.ofValue? key.toValue = some key) (hmoves : Existing t moves) :
    ∃ events s₁, walk (askIterator watch n (.function (.traversal it))) (·.first.isNil) id (controlOf visited) moves s = .ok events s₁ ∧
      Follows t (controlOf visited) events
        (walk (askNext watch n id) (·.first.isNil) id (controlOf visited) moves s') := by
  induction moves generalizing s s' t ks visited with
  | nil => exact ⟨[], s, rfl, fun _ => ⟨s', rfl⟩, fun h => absurd (fun _ _ _ heq => by simp at heq) h⟩
  | cons move moves ih =>
    cases move with
    | write k v =>
      obtain ⟨key, hk, hfind⟩ : ∃ key, Key.ofValue? k = some key ∧ t.find key ≠ .nil := by
        have := hmoves.1
        rw [Table.get] at this
        cases hk : Key.ofValue? k with
        | none => exact absurd (by rw [hk]) this
        | some key => exact ⟨key, rfl, by rwa [hk] at this⟩
      obtain ⟨r, s1, hrun, hs1, htraversals⟩ := write_run hs k v
      obtain ⟨r', s1', hrun', hs1', -⟩ := write_run hs' k v
      have hit1 : UnderWay s1 it id ks := by rwa [UnderWay, htraversals]
      have h1 : Trimmed (t.assign k v) (visited ++ ks) := Table.assign_key hk ▸ h.update hfind v
      obtain ⟨events, s₁, hwalk, hnext⟩ := ih _ hs1 hit1 hs1' h1 hnodup hcanon hmoves.2
      refine ⟨.write k v :: events, s₁, ?_, ?_⟩
      · rw [walk, Run.bind_ok hrun, Run.bind_ok hwalk]
        rfl
      · rw [walk, Run.bind_ok hrun']
        exact .cons atAnswers_write hnext
    | advance args fit =>
      obtain ⟨s1, hrun, hs1, hit1⟩ := step_run watch n fit hs hit
      have hvisited key (hkey : key ∈ visited) := hcanon key (List.mem_append_left _ hkey)
      have hask := askNext_run watch n args (controlOf visited) hs'
      rw [walk, walk, Run.bind_ok (show askIterator watch n _ args _ s = _ from hrun)]
      -- the question fails if its key has lost its value, whatever the traversal answers
      have hstale {events : List Event} (hlost : Stale t (controlOf visited) [])
          (f : Result → Run (List Event)) : Follows t (controlOf visited) (.answer (answer t ks).1 :: events)
            ((askNext watch n id args (controlOf visited) >>= f) s') := by
        rw [next_stale h hvisited hlost] at hask
        exact ⟨fun hfresh => absurd hlost (atAnswers_answer.1 hfresh).1, fun _ => ⟨_, Run.bind_error hask⟩⟩
      have hcurrent (hlost : ¬ Stale t (controlOf visited) []) :
          askNext watch n id args (controlOf visited) s' = .ok (answer t ks).1 s' := by
        obtain ⟨found, hfound, hres⟩ := next_current h hvisited hnodup hlost
        rw [hask, hfound, ← hres]
      rcases answer_cases t ks with ⟨hanswer, -⟩ | ⟨skipped, k, rest, rfl, -, -, hanswer⟩
      · refine ⟨[.answer (answer t ks).1], s1, by rw [hanswer]; rfl, ?_⟩
        by_cases hlost : Stale t (controlOf visited) []
        · exact hstale hlost _
        · rw [Run.bind_ok (hcurrent hlost), hanswer]
          refine ⟨fun _ => ⟨s', rfl⟩, fun hnot => absurd (atAnswers_answer.2 ⟨hlost, ?_⟩) hnot⟩
          exact fun _ _ _ heq => by simp at heq
      · have hall : visited ++ (skipped ++ k :: rest) = (visited ++ skipped ++ [k]) ++ rest := by simp
        rw [hall] at h hnodup hcanon
        have hcontrol : controlOf (visited ++ skipped ++ [k]) = k.toValue := by simp [controlOf]
        rw [hanswer] at hit1
        obtain ⟨events, s₁, hwalk, hnext⟩ := ih _ hs1 hit1 hs' h hnodup hcanon hmoves
        have hends : ¬ (Result.many [k.toValue, t.find k]).first.isNil = true := by simp [Result.first, isNil_toValue]
        rw [hcontrol] at hwalk hnext
        refine ⟨.answer (answer t (skipped ++ k :: rest)).1 :: events, s₁, ?_, ?_⟩
        · rw [hanswer, if_neg hends]
          exact Run.bind_ok hwalk
        · by_cases hlost : Stale t (controlOf visited) []
          · exact hstale hlost _
          · rw [Run.bind_ok (hcurrent hlost), hanswer, if_neg hends]
            refine .cons ?_ hnext
            simp only [Fresh, atAnswers_answer, stale_answer, hlost, not_false_eq_true, true_and]

/-- A loop that asks `next` with the key it got last, while the program assigns only to fields that exist,
gets what `pairs` answers under the same writes, up to the first nil, if the key it got last has a value
whenever it asks. Otherwise `next` complains. -/
theorem next_follows_pairs (watch : Watch) (n : Nat) (hs : s.Holds id t) (ht : t.WellFormed)
    {moves : List Move} (hmoves : Existing t moves) :
    ∃ step s₀ events s₁, Machine.callWithin watch (n + 1) (.function (.builtin .pairs)) [.table id] s =
        .ok (.many [step, .table id, .nil]) s₀ ∧
      walk (askIterator watch n step) (·.first.isNil) id .nil moves s₀ = .ok events s₁ ∧
      (Fresh t .nil events → ∃ s₂, walk (askNext watch n id) (·.first.isNil) id .nil moves s = .ok events s₂) ∧
      (¬ Fresh t .nil events → ∃ s₂, walk (askNext watch n id) (·.first.isNil) id .nil moves s =
        .error (.fault (.complaint .invalidNext)) s₂) := by
  obtain ⟨it, s₀, hpairs, hs₀, hit⟩ := pairs_run watch n hs
  obtain ⟨events, s₁, hwalk, hnext⟩ := walk_next watch n [] moves hs₀ hit hs
    (trimmed_keys ht) ht.nodup ht.canonical hmoves
  exact ⟨_, s₀, events, s₁, hpairs, hwalk, hnext⟩

/-- The field `a` is changed when it was received, and `true` is taken out before its turn. -/
def changingMoves : List Move := [.advance [] (by decide), .write (.string "a") (.int 9), .write (.bool true) .nil,
    .advance [] (by decide), .advance [] (by decide)]

theorem next_follows_pairs_changing : threeEntries.WellFormed ∧ Existing threeEntries changingMoves ∧
    ∃ step s₀ events s₁ s₂, Machine.callWithin Machine.unwatched 1 (.function (.builtin .pairs)) [.table 0]
        { tables := #[threeEntries] } = .ok (.many [step, .table 0, .nil]) s₀ ∧
      walk (askIterator Machine.unwatched 0 step) (·.first.isNil) 0 .nil changingMoves s₀ = .ok events s₁ ∧
      Fresh threeEntries .nil events ∧ walk (askNext Machine.unwatched 0 0) (·.first.isNil) 0 .nil
        changingMoves { tables := #[threeEntries] } = .ok events s₂ := by
  have hmoves : Existing threeEntries changingMoves := ⟨by decide, by decide, trivial⟩
  obtain ⟨step, s₀, events, s₁, hpairs, hwalk, hfresh, hstale⟩ :=
    next_follows_pairs Machine.unwatched 0 holds_threeEntries threeEntries_wellFormed hmoves
  by_cases h : Fresh threeEntries .nil events
  · obtain ⟨s₂, hnext⟩ := hfresh h
    exact ⟨threeEntries_wellFormed, hmoves, step, s₀, events, s₁, s₂, hpairs, hwalk, h, hnext⟩
  · obtain ⟨s₂, hnext⟩ := hstale h
    cases hnext

end TypedLua.Traversal
