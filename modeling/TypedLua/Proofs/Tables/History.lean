import TypedLua.Proofs.Data.Association
import TypedLua.Proofs.Tables.Doubles
import TypedLua.Store

/-!
# Tables and the writes that made them

What is read from a table, and in which order, is told by the writes that were made to it: by the
value of the last write under an equal key, and by the write that made the key present.
-/

namespace TypedLua

/-! ## Equality and keys -/

theorem Key.ofValue?_float_eq_some_iff : Key.ofValue? (.number (.float x)) = some key ↔
      (∃ n, Binary64.toInt? x = some n ∧ key = .int n) ∨
        Binary64.toInt? x = none ∧ Binary64.isNaN x = false ∧ key = .float x := by
  rw [Key.ofValue?]
  cases Binary64.toInt? x with
  | some n => grind
  | none => cases Binary64.isNaN x <;> grind

theorem Key.isNumber_of_ofValue? (h : Key.ofValue? (.number a) = some key) :
    (∃ n, key = .int n) ∨ ∃ x, key = .float x := by
  cases a with
  | int n => exact .inl ⟨n, (Option.some.inj h).symm⟩
  | float x =>
    rcases Key.ofValue?_float_eq_some_iff.1 h with ⟨n, -, rfl⟩ | ⟨-, -, rfl⟩
    · exact .inl ⟨n, rfl⟩
    · exact .inr ⟨x, rfl⟩

theorem Key.canonical_of_ofValue? (h : Key.ofValue? k = some key) : Key.ofValue? key.toValue = some key := by
  cases k with
  | nil => cases h
  | number a =>
    cases a with
    | int n => cases h; rfl
    | float x =>
      rcases Key.ofValue?_float_eq_some_iff.1 h with ⟨n, -, rfl⟩ | ⟨-, -, rfl⟩
      · rfl
      · exact h
  | _ => cases h; rfl

theorem Number.eq_iff (a b : Number) : a.eq b = true ↔
    ∃ key, Key.ofValue? (.number a) = some key ∧ Key.ofValue? (.number b) = some key := by
  have hmixed (x : Float) (n : Int) : Binary64.compareInt x n = some .eq ↔
      ∃ key, Key.ofValue? (.number (.float x)) = some key ∧ some (Key.int n) = some key := by
    simp only [Binary64.compareInt_eq_iff, Key.ofValue?_float_eq_some_iff]
    grind
  rw [eq, beq_iff_eq]
  cases a with
  | int n =>
    cases b with
    | int n' => simp [compare?, Key.ofValue?, eq_comm (a := n)]
    | float y =>
      rw [compare?, Option.map_eq_some_iff, Key.ofValue?]
      refine Iff.trans ?_ ((hmixed y n).trans (exists_congr fun _ => and_comm))
      constructor
      · rintro ⟨o, ho, hswap⟩
        rwa [(Ordering.swap_eq_eq (o := o)).1 hswap] at ho
      · exact fun h => ⟨.eq, h, rfl⟩
  | float x =>
    cases b with
    | int n => exact hmixed x n
    | float y =>
      have hcompare : compare? (float x) (float y) = some .eq ↔ (x == y) = true := by
        rw [compare?]
        by_cases heq : (x == y) = true
        · simp [heq, Binary64.not_lt_of_beq heq]
        · grind
      rw [hcompare, Binary64.beq_iff]
      simp only [Key.ofValue?_float_eq_some_iff]
      constructor
      · rintro (⟨n, hx, hy⟩ | ⟨hx, hnan, rfl⟩)
        · exact ⟨.int n, .inl ⟨n, hx, rfl⟩, .inl ⟨n, hy, rfl⟩⟩
        · exact ⟨.float x, .inr ⟨hx, hnan, rfl⟩, .inr ⟨hx, hnan, rfl⟩⟩
      · rintro ⟨key, ⟨n, hx, rfl⟩ | ⟨hx, hnan, rfl⟩, ⟨n', hy, hkey⟩ | ⟨hy, -, hkey⟩⟩ <;> cases hkey
        · exact .inl ⟨n, hx, hy⟩
        · exact .inr ⟨hx, hnan, rfl⟩

namespace Value

def isKeyless : Value → Bool
  | .nil => true
  | .number (.float x) => Binary64.isNaN x
  | _ => false

variable {k k' : Value} {key : Key}

theorem isKeyless_iff : k.isKeyless = true ↔ Key.ofValue? k = none := by
  cases k with
  | number n =>
    cases n with
    | int n => simp [isKeyless, Key.ofValue?]
    | float x =>
      cases hx : Binary64.toInt? x with
      | none => simp [isKeyless, Key.ofValue?, hx]
      | some n =>
        have hnan : Binary64.isNaN x ≠ true := fun h => by
          rw [Binary64.isNaN_iff.1 h] at hx
          cases hx
        simp [isKeyless, Key.ofValue?, hx, hnan]
  | _ => simp [isKeyless, Key.ofValue?]

theorem eq_iff_of_key (h : Key.ofValue? k' = some key) : k.eq k' = true ↔ Key.ofValue? k = some key := by
  cases k with
  | number a =>
    cases k' with
    | number b =>
      rw [eq, Number.eq_iff]
      constructor
      · rintro ⟨key', ha, hb⟩
        rwa [Option.some.inj (h.symm.trans hb)]
      · exact fun ha => ⟨key, ha, h⟩
    | nil => cases h
    | _ =>
      cases h
      refine iff_of_false (by simp [eq]) fun ha => ?_
      rcases Key.isNumber_of_ofValue? ha with ⟨n, hn⟩ | ⟨x, hx⟩
      · cases hn
      · cases hx
  | _ =>
    cases k' with
    | number b => rcases Key.isNumber_of_ofValue? h with ⟨n, rfl⟩ | ⟨x, rfl⟩ <;> simp [eq, Key.ofValue?]
    | nil => cases h
    | _ =>
      cases h
      simp [eq, Key.ofValue?]

end Value

/-! ## Histories -/

namespace Table

/-- The value that the last write under an equal key left, where the last write comes first. -/
def lastValue (k : Value) : List (Value × Value) → Value
  | [] => .nil
  | (k', v) :: past => if !k'.isKeyless && k.eq k' then v else lastValue k past

/-- The number of the write that last made a key present, where the last write comes first. -/
def presentSince (k : Value) : List (Value × Value) → Nat
  | [] => 0
  | (k', _) :: past =>
    if !k'.isKeyless && k.eq k' && (lastValue k past).isNil then past.length + 1 else presentSince k past

structure Records (t : Table) (past : List (Value × Value)) : Prop where
  get : ∀ k, t.get k = lastValue k past
  /-- Every key with a value other than nil is listed once, and no other. -/
  once : ∀ k, t.keys.countP (k.eq ·) = if (lastValue k past).isNil then 0 else 1
  order : t.keys.Pairwise fun a b => presentSince a past < presentSince b past
  /-- No entry holds nil, and its key is the one that its value denotes: no whole number is kept as a
  double. -/
  stored : ∀ e ∈ t.entries, e.2 ≠ .nil ∧ Key.ofValue? e.1.toValue = some e.1 ∧
    ∀ x, e.1 = .float x → Binary64.toInt? x = none

structure Kept (t : Table) (past : List (Value × Value)) : Prop where
  find : ∀ ⦃k key⦄, Key.ofValue? k = some key → t.find key = lastValue k past
  none : ∀ ⦃k⦄, Key.ofValue? k = none → lastValue k past = .nil
  filled : ∀ e ∈ t.entries, e.2 ≠ .nil
  canonical : ∀ key ∈ t.entries.map (·.1), Key.ofValue? key.toValue = some key
  nodup : (t.entries.map (·.1)).Nodup
  order : (t.entries.map (·.1)).Pairwise fun a b => presentSince a.toValue past < presentSince b.toValue past
  bound : ∀ key ∈ t.entries.map (·.1), presentSince key.toValue past ≤ past.length

variable {t : Table} {past : List (Value × Value)} {k k' v : Value} {key key' : Key}

theorem hits_keyless (hk' : Key.ofValue? k' = .none) : (!k'.isKeyless && k.eq k') = false := by
  rw [Value.isKeyless_iff.2 hk']
  rfl

theorem hits_iff (hk' : Key.ofValue? k' = some key') :
    (!k'.isKeyless && k.eq k') = true ↔ Key.ofValue? k = some key' := by
  have hkeyed : k'.isKeyless = false := by
    rw [← Bool.not_eq_true, Value.isKeyless_iff, hk']
    exact Option.some_ne_none key'
  rw [hkeyed, Bool.not_false, Bool.true_and, Value.eq_iff_of_key hk']

theorem lastValue_cons_self (hk' : Key.ofValue? k' = some key') (hk : Key.ofValue? k = some key') :
    lastValue k ((k', v) :: past) = v := by
  rw [lastValue, if_pos ((hits_iff hk').2 hk)]

theorem lastValue_cons_of_ne (hk' : Key.ofValue? k' = some key') (hk : Key.ofValue? k ≠ some key') :
    lastValue k ((k', v) :: past) = lastValue k past := by
  rw [lastValue, if_neg fun h => hk ((hits_iff hk').1 h)]

theorem presentSince_cons_of_ne (hk' : Key.ofValue? k' = some key') (hk : Key.ofValue? k ≠ some key') :
    presentSince k ((k', v) :: past) = presentSince k past := by
  rw [presentSince, Bool.eq_false_iff.2 fun h => hk ((hits_iff hk').1 h)]
  simp

theorem keys_eq_map (t : Table) : t.keys = (t.entries.map (·.1)).map Key.toValue := by simp [keys]

theorem mem_keys_iff (hfilled : ∀ e ∈ t.entries, e.2 ≠ .nil) : key ∈ t.entries.map (·.1) ↔ t.find key ≠ .nil := by
  rw [find]
  cases h : t.entries.lookup key with
  | none =>
    refine iff_of_false (fun hmem => ?_) (by simp)
    obtain ⟨e, he, rfl⟩ := List.mem_map.1 hmem
    simpa using List.lookup_eq_none_iff.1 h e he
  | some w =>
    have hmem := Association.mem_of_lookup h
    exact iff_of_true (List.mem_map_of_mem hmem) (hfilled _ hmem)

theorem filled_update (hfilled : ∀ e ∈ t.entries, e.2 ≠ .nil) : ∀ e ∈ (t.update key' v).entries, e.2 ≠ .nil := by
  intro e he
  rw [update] at he
  split at he
  · exact hfilled e (List.mem_filter.1 he).1
  · next hv =>
    rcases Association.mem_put he with rfl | he
    · exact fun hnil => hv (by rw [show v = .nil from hnil]; rfl)
    · exact hfilled e he

theorem keys_update (t : Table) (key' : Key) (v : Value) :
    ((t.update key' v).entries.map (·.1)).Sublist (t.entries.map (·.1)) ∨
      (t.update key' v).entries.map (·.1) = t.entries.map (·.1) ++ [key'] ∧ key' ∉ t.entries.map (·.1) := by
  rw [update]
  split
  · rw [Association.keys_discard]
    exact .inl List.filter_sublist
  · simp only [Association.keys_put]
    split
    · exact .inl (List.Sublist.refl _)
    · next hnew => exact .inr ⟨rfl, by simpa using hnew⟩

namespace Kept

theorem empty : Kept {} [] where
  find _ _ _ := rfl
  none _ _ := rfl
  filled _ h := by cases h
  canonical _ h := by cases h
  nodup := .nil
  order := .nil
  bound _ h := by cases h

theorem keyless (h : Kept t past) (hk : Key.ofValue? k' = .none) : Kept t ((k', v) :: past) := by
  have hval (k : Value) : lastValue k ((k', v) :: past) = lastValue k past := by
    rw [lastValue, hits_keyless hk]
    rfl
  have hsince (k : Value) : presentSince k ((k', v) :: past) = presentSince k past := by
    rw [presentSince, hits_keyless hk]
    rfl
  refine ⟨fun _ _ hkey => ?_, fun _ hnone => ?_, h.filled, h.canonical, h.nodup, ?_, fun key hkey => ?_⟩
  · rw [hval, h.find hkey]
  · rw [hval, h.none hnone]
  · simpa only [hsince] using h.order
  · rw [hsince]
    exact (h.bound key hkey).trans (Nat.le_succ _)

theorem find_update (h : Kept t past) (hk' : Key.ofValue? k' = some key') (hk : Key.ofValue? k = some key) :
    (t.update key' v).find key = lastValue k ((k', v) :: past) := by
  by_cases heq : key = key'
  · subst heq
    rw [find_update_self, lastValue_cons_self hk' hk]
  · rw [find_update_of_ne t heq, lastValue_cons_of_ne hk' (by rw [hk]; simpa using heq), h.find hk]

theorem presentSince_kept (h : Kept t past) (hk' : Key.ofValue? k' = some key') (hkey : key ∈ t.entries.map (·.1)) :
    presentSince key.toValue ((k', v) :: past) = presentSince key.toValue past := by
  by_cases heq : key = key'
  · subst heq
    have hval := h.find (h.canonical key hkey)
    have hnil : (lastValue key.toValue past).isNil = false := by
      have := (mem_keys_iff h.filled).1 hkey
      rw [hval] at this
      revert this
      cases lastValue key.toValue past <;> simp [Value.isNil]
    rw [presentSince, hnil]
    simp
  · exact presentSince_cons_of_ne hk' (by rw [h.canonical key hkey]; simpa using heq)

theorem update (h : Kept t past) (hk' : Key.ofValue? k' = some key') : Kept (t.update key' v) ((k', v) :: past) := by
  have hnone (k : Value) (hk : Key.ofValue? k = .none) : lastValue k ((k', v) :: past) = .nil := by
    rw [lastValue_cons_of_ne hk' (by simp [hk]), h.none hk]
  have hsame {key : Key} (hkey : key ∈ t.entries.map (·.1)) := h.presentSince_kept (v := v) hk' hkey
  have horder : (t.entries.map (·.1)).Pairwise fun a b => presentSince a.toValue ((k', v) :: past) <
      presentSince b.toValue ((k', v) :: past) :=
    h.order.imp_of_mem fun ha hb hlt => by rwa [hsame ha, hsame hb]
  have hbound {key : Key} (hkey : key ∈ t.entries.map (·.1)) :
      presentSince key.toValue ((k', v) :: past) ≤ past.length := hsame hkey ▸ h.bound key hkey
  rcases keys_update t key' v with hsub | ⟨heq, hnew⟩
  · exact ⟨fun _ _ => h.find_update hk', hnone, filled_update h.filled,
      fun key hkey => h.canonical key (hsub.subset hkey), hsub.nodup h.nodup, horder.sublist hsub,
      fun key hkey => (hbound (hsub.subset hkey)).trans (Nat.le_succ _)⟩
  · have hcanon := Key.canonical_of_ofValue? hk'
    -- The new key had no value, so this write made it present.
    have habsent : lastValue key'.toValue past = .nil := by
      rw [← h.find hcanon]
      exact not_not.1 (mt (mem_keys_iff h.filled).2 hnew)
    have hlast : presentSince key'.toValue ((k', v) :: past) = past.length + 1 := by
      rw [presentSince, (hits_iff hk').2 hcanon, habsent]
      rfl
    refine ⟨fun _ _ => h.find_update hk', hnone, filled_update h.filled, ?_, ?_, ?_, ?_⟩ <;> rw [heq]
    · exact List.forall_mem_append.2 ⟨h.canonical, List.forall_mem_singleton.2 hcanon⟩
    · exact List.nodup_append.2 ⟨h.nodup, List.nodup_singleton _, fun a ha b hb hab =>
        hnew (List.mem_singleton.1 hb ▸ hab ▸ ha)⟩
    · refine List.pairwise_append.2 ⟨horder, List.pairwise_singleton _ _, fun a ha b hb => ?_⟩
      rw [List.mem_singleton.1 hb, hlast]
      exact Nat.lt_succ_of_le (hbound ha)
    · exact List.forall_mem_append.2 ⟨fun key hkey => (hbound hkey).trans (Nat.le_succ _),
        List.forall_mem_singleton.2 hlast.le⟩

theorem records (h : Kept t past) : Records t past where
  get k := by
    rw [get]
    cases hk : Key.ofValue? k with
    | none => exact (h.none hk).symm
    | some key => exact h.find hk
  once k := by
    rw [keys_eq_map, List.countP_map]
    cases hk : Key.ofValue? k with
    | none =>
      rw [h.none hk, Value.isNil, if_pos rfl, List.countP_eq_zero]
      intro key hkey heq
      rw [Function.comp, Value.eq_iff_of_key (h.canonical key hkey), hk] at heq
      cases heq
    | some key =>
      -- Keys that are kept are told apart by equality, so this counts one key in a list without repetition.
      have hcount : (t.entries.map (·.1)).countP ((k.eq ·) ∘ Key.toValue) = (t.entries.map (·.1)).count key := by
        refine List.countP_congr fun other hother => ?_
        rw [Function.comp, Value.eq_iff_of_key (h.canonical other hother), hk, beq_iff_eq]
        exact ⟨fun heq => (Option.some.inj heq).symm, fun heq => heq ▸ rfl⟩
      rw [hcount, ← h.find hk, h.nodup.count]
      simp only [mem_keys_iff h.filled]
      cases t.find key <;> simp [Value.isNil]
  order := by
    rw [keys_eq_map]
    exact List.pairwise_map.2 h.order
  stored e he := by
    have hcanon := h.canonical e.1 (List.mem_map_of_mem he)
    refine ⟨h.filled e he, hcanon, fun x hx => ?_⟩
    rw [hx] at hcanon
    rcases Key.ofValue?_float_eq_some_iff.1 hcanon with ⟨_, -, hint⟩ | ⟨hnone, -⟩
    · cases hint
    · exact hnone

end Kept

end Table

/-! ## Writes -/

/-- Writes to a table of the store, one after the other, whatever becomes of each of them. -/
def Run.writeEach (id : Nat) : List (Value × Value) → Run Unit
  | [] => return ()
  | (k, v) :: ws => do
    let _ ← Run.attempt (Run.setRaw id k v)
    writeEach id ws

namespace Run

variable {id : Nat} {k v : Value} {s : Store}

theorem setRaw_keyless (id : Nat) (v : Value) (s : Store) (hk : k.isKeyless = true) :
    ∃ e : KeyError, setRaw id k v s = .error (.fault e.toFault) s := by
  have hset : ∃ e : KeyError, (s.tables.getD id {}).set k v = .error e := by
    rw [Table.set, Value.isKeyless_iff.1 hk]
    cases k.isNil <;> exact ⟨_, rfl⟩
  obtain ⟨e, he⟩ := hset
  refine ⟨e, ?_⟩
  rw [setRaw, bind_ok (show table id s = .ok _ s from rfl), he]
  rfl

theorem setRaw_key (hk : Key.ofValue? k = some key) : setRaw id k v s =
      .ok () { s with tables := s.tables.setIfInBounds id ((s.tables.getD id {}).update key v) } := by
  rw [setRaw, bind_ok (show table id s = .ok _ s from rfl), Table.set, hk]
  rfl

theorem attempt_setRaw_kept (hid : id < s.tables.size)
    (h : Table.Kept (s.tables.getD id {}) past) : ∃ r s', attempt (setRaw id k v) s = .ok r s' ∧ id < s'.tables.size ∧
      Table.Kept (s'.tables.getD id {}) ((k, v) :: past) := by
  rw [attempt]
  cases hk : Key.ofValue? k with
  | none =>
    obtain ⟨e, he⟩ := setRaw_keyless id v s (Value.isKeyless_iff.2 hk)
    rw [he]
    exact ⟨_, s, rfl, hid, h.keyless hk⟩
  | some key =>
    rw [setRaw_key hk]
    refine ⟨_, _, rfl, by simpa using hid, ?_⟩
    simpa [Array.getD, hid] using h.update hk

theorem writeEach_kept (ws : List (Value × Value)) (hid : id < s.tables.size)
    (h : Table.Kept (s.tables.getD id {}) past) :
    ∃ s', writeEach id ws s = .ok () s' ∧ Table.Kept (s'.tables.getD id {}) (ws.reverse ++ past) := by
  induction ws generalizing s past with
  | nil => exact ⟨s, rfl, h⟩
  | cons w ws ih =>
    obtain ⟨k, v⟩ := w
    obtain ⟨r, s1, hrun, hid1, h1⟩ := attempt_setRaw_kept (k := k) (v := v) hid h
    obtain ⟨s', hrest, h'⟩ := ih hid1 h1
    refine ⟨s', ?_, by simpa using h'⟩
    rw [writeEach, bind_ok hrun, hrest]

/-- A table that starts empty is an ordered map under the equality of programs: after any writes it is
what its writes make of it, and the next write is refused, without effect, exactly if its key is nil or
the undefined number. -/
theorem writes_recorded (s : Store) (ws : List (Value × Value)) :
    ∃ id s', (do let id ← newTable {}; writeEach id ws; return id : Run Nat) s = .ok id s' ∧
      Table.Records (s'.tables.getD id {}) ws.reverse ∧
      ∀ k v : Value, if k.isKeyless then ∃ e : KeyError, setRaw id k v s' = .error (.fault e.toFault) s'
        else ∃ s'', setRaw id k v s' = .ok () s'' := by
  have hnew : newTable {} s = .ok s.tables.size { s with tables := s.tables.push {} } := rfl
  have hempty : Table.Kept ((s.tables.push {}).getD s.tables.size {}) [] := by
    simpa [Array.getD] using Table.Kept.empty
  obtain ⟨s', hrun, h⟩ := writeEach_kept ws (s := { s with tables := s.tables.push {} }) (by simp) hempty
  refine ⟨s.tables.size, s', ?_, by simpa using h.records, fun k v => ?_⟩
  · rw [bind_ok hnew, bind_ok hrun]
    rfl
  · split
    · next hk => exact setRaw_keyless _ v s' hk
    · next hk =>
      obtain ⟨key, hkey⟩ := Option.ne_none_iff_exists'.1 (mt Value.isKeyless_iff.2 hk)
      exact ⟨_, setRaw_key hkey⟩

end Run

end TypedLua
