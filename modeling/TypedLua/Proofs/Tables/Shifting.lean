import TypedLua.Library
import TypedLua.Proofs.Tables.Border

/-!
# Insertion into a sequence and removal from it

`table.insert` and `table.remove` move the values behind a position by one place, inside the table.
-/

namespace TypedLua

namespace Table

theorem update_nil_of_missing {t : Table} (h : t.entries.lookup k = none) : t.update k .nil = t := by
  have hentries : Association.discard k t.entries = t.entries := by
    refine List.filter_eq_self.2 fun e he => ?_
    simpa [bne_iff_ne, ne_comm] using List.lookup_eq_none_iff.1 h e he
  show { t with entries := Association.discard k t.entries } = t
  rw [hentries]

end Table

namespace Library

theorem setIfInBounds_getD {α : Type} (a : Array α) (i : Nat) (d : α) : a.setIfInBounds i (a.getD i d) = a := by
  by_cases hi : i < a.size <;> simp [Array.setIfInBounds, Array.getD, hi]

variable (t : Table) (p : Int) {c j : Nat} {k : Key}

theorem shiftUp_metatable (c : Nat) : (shiftUp t p c).metatable = t.metatable := by
  induction c generalizing t with
  | zero => rfl
  | succ c ih => rw [shiftUp, ih, Table.update_metatable]

theorem find_shiftUp_of_ne (h : ∀ j < c, k ≠ .int (p + j + 1)) : (shiftUp t p c).find k = t.find k := by
  induction c generalizing t with
  | zero => rfl
  | succ c ih =>
    rw [shiftUp, ih _ fun j hj => h j (Nat.lt_succ_of_lt hj), Table.find_update_of_ne _ (h c (Nat.lt_succ_self c))]

theorem find_shiftUp (hj : j < c) : (shiftUp t p c).find (.int (p + j + 1)) = t.find (.int (p + j)) := by
  induction c generalizing t with
  | zero => cases hj
  | succ c ih =>
    rw [shiftUp]
    rcases Nat.lt_succ_iff_lt_or_eq.1 hj with hlt | rfl
    · rw [ih _ hlt, Table.find_update_of_ne]
      simp only [ne_eq, Key.int.injEq]
      omega
    · rw [find_shiftUp_of_ne, Table.find_update_self]
      intro i hi
      simp only [ne_eq, Key.int.injEq]
      omega

theorem shiftDown_metatable (c : Nat) : (shiftDown t p c).metatable = t.metatable := by
  induction c generalizing t p with
  | zero => rfl
  | succ c ih => rw [shiftDown, ih, Table.update_metatable]

theorem find_shiftDown_of_ne (h : ∀ j < c, k ≠ .int (p + j)) : (shiftDown t p c).find k = t.find k := by
  induction c generalizing t p with
  | zero => rfl
  | succ c ih =>
    have hnext (j : Nat) : p + 1 + j = p + (j + 1 : Nat) := by omega
    rw [shiftDown, ih, Table.find_update_of_ne]
    · simpa using h 0 (Nat.zero_lt_succ c)
    · intro j hj
      exact hnext j ▸ h (j + 1) (Nat.succ_lt_succ hj)

theorem find_shiftDown (hj : j < c) : (shiftDown t p c).find (.int (p + j)) = t.find (.int (p + j + 1)) := by
  induction c generalizing t p j with
  | zero => cases hj
  | succ c ih =>
    rw [shiftDown]
    cases j with
    | zero =>
      rw [find_shiftDown_of_ne]
      · simp
      · intro i hi
        simp only [ne_eq, Key.int.injEq]
        omega
    | succ j =>
      have hnext : p + (j + 1 : Nat) = p + 1 + j := by omega
      rw [hnext, ih _ _ (Nat.lt_of_succ_lt_succ hj), Table.find_update_of_ne]
      simp only [ne_eq, Key.int.injEq]
      omega

theorem rewritten_insert {i : Nat} (v : Value) (hi : i ≤ t.border) :
    t.Rewritten ((shiftUp t (i + 1 : Nat) (t.border - i)).update (.int (i + 1 : Nat)) v) (t.border + 1)
      (t.sequence.insertIdx i v) where
  items j hj := by
    rw [List.getD_eq_getElem?_getD, List.getElem?_insertIdx, Table.length_sequence, Table.sequence_getElem?,
      Table.sequence_getElem?]
    -- Nothing moved in front of the place, and behind it each value comes from one place before.
    rcases Nat.lt_trichotomy j i with hlt | rfl | hgt
    · rw [Table.find_update_of_ne, find_shiftUp_of_ne, if_pos hlt, if_pos (by omega)]
      · rfl
      all_goals
        simp only [ne_eq, Key.int.injEq]
        omega
    · rw [Table.find_update_self, if_neg (Nat.lt_irrefl _), if_pos rfl, if_pos hi]
      rfl
    · have hkey : ((j + 1 : Nat) : Int) = (i + 1 : Nat) + (j - i - 1 : Nat) + 1 := by omega
      have hold : ((i + 1 : Nat) : Int) + (j - i - 1 : Nat) = (j - 1 : Nat) + 1 := by omega
      rw [Table.find_update_of_ne, hkey, find_shiftUp, hold, if_neg (by omega), if_neg (by omega), if_pos (by omega)]
      · rfl
      · omega
      · simp only [ne_eq, Key.int.injEq]
        omega
  others k hk := by
    rw [Table.find_update_of_ne _ (hk i (by omega)), find_shiftUp_of_ne]
    intro j hj
    have hnext : ((i + 1 : Nat) : Int) + j + 1 = (i + 1 + j + 1 : Nat) := by omega
    exact hnext ▸ hk (i + 1 + j) (by omega)
  metatable := by rw [Table.update_metatable, shiftUp_metatable]

theorem rewritten_remove (hi : i < t.border) :
    t.Rewritten ((shiftDown t (i + 1 : Nat) (t.border - (i + 1))).update (.int t.border) .nil) t.border
      (t.sequence.eraseIdx i) where
  items j hj := by
    rw [List.getD_eq_getElem?_getD, List.getElem?_eraseIdx, Table.sequence_getElem?, Table.sequence_getElem?]
    -- The last value is removed under its own key, so it does not stay behind the shorter list.
    by_cases hlast : j + 1 = t.border
    · rw [hlast, Table.find_update_self]
      by_cases hj : j < i
      · omega
      · simp [hj]
    rw [Table.find_update_of_ne]
    · rcases Nat.lt_or_ge j i with hlt | hge
      · rw [find_shiftDown_of_ne, if_pos hlt, if_pos (by omega)]
        · rfl
        · intro a ha
          simp only [ne_eq, Key.int.injEq]
          omega
      · have hkey : ((j + 1 : Nat) : Int) = (i + 1 : Nat) + (j - i : Nat) := by omega
        rw [hkey, find_shiftDown, ← hkey, if_neg (by omega), if_pos (by omega)]
        · rfl
        · omega
    · simp only [ne_eq, Key.int.injEq]
      omega
  others k hk := by
    obtain ⟨n, hn⟩ := Nat.exists_eq_add_of_lt hi
    rw [Table.find_update_of_ne _ (hn ▸ hk (i + n) (by omega)), find_shiftDown_of_ne]
    intro j hj
    have hnext : ((i + 1 : Nat) : Int) + j = (i + j + 1 : Nat) := by omega
    exact hnext ▸ hk (i + j) (by omega)
  metatable := by rw [Table.update_metatable, shiftDown_metatable]

/-! ## Calls -/

def positionOf (v : Value) : Option Int := (Operator.toNumber? v).bind Number.toInt?

/-- Where `table.insert` inserts what, into a table with a border: at the end if only the value is given. -/
def insertPlace (n : Nat) : List Value → Option (Int × Value)
  | [v] => some (n + 1, v)
  | [place, v] => (positionOf place).map (·, v)
  | _ => none

/-- Where `table.remove` removes from a table with a border: at the end if no position is given. -/
def removePlace (n : Nat) : List Value → Option Int
  | [] | [.nil] => some n
  | [place] => positionOf place
  | _ => none

/-- A call answers a value and replaces the values of a table under one to a number. -/
def Rewrites (s : Store) (id : Nat) (t : Table) (run : Run Result) (v : Value) (n : Nat) (vs : List Value) : Prop :=
  ∃ t', run s = .ok (.one v) { s with tables := s.tables.setIfInBounds id t' } ∧ t.Rewritten t' n vs

def Refused (s : Store) (run : Run Result) : Prop := ∃ f, run s = .error (.fault f) s

structure ActsAsList (call : Caller) (s : Store) (id : Nat) (t : Table) : Prop where
  insert : ∀ {args v} {i : Nat}, insertPlace t.border args = some (((i + 1 : Nat) : Int), v) → i ≤ t.border →
    Rewrites s id t (apply call .tableInsert (.table id :: args)) .nil (t.border + 1) (t.sequence.insertIdx i v)
  insert_refused : ∀ {args}, (∀ p v, insertPlace t.border args = some (p, v) → ¬(1 ≤ p ∧ p ≤ t.border + 1)) →
    Refused s (apply call .tableInsert (.table id :: args))
  remove : ∀ {args} {i : Nat}, removePlace t.border args = some ((i + 1 : Nat) : Int) → i < t.border →
    Rewrites s id t (apply call .tableRemove (.table id :: args)) (t.sequence.getD i .nil) t.border (t.sequence.eraseIdx i)
  /-- Behind the end, and in an empty sequence also at zero, there is nothing to remove. -/
  remove_nothing : ∀ {args p}, removePlace t.border args = some p → (p = t.border + 1 ∨ t.border = 0 ∧ p = 0) →
    apply call .tableRemove (.table id :: args) s = .ok (.one (t.find (.int p))) s
  remove_refused : ∀ {args}, (∀ p, removePlace t.border args = some p →
      ¬(1 ≤ p ∧ p ≤ t.border + 1) ∧ ¬(t.border = 0 ∧ p = 0)) → Refused s (apply call .tableRemove (.table id :: args))

section Calls

variable {s : Store} {id : Nat} {t} (call : Caller) {args : List Value}

theorem apply_tableInsert : apply call .tableInsert (.table id :: args) s = silent (tableInsert (.table id) args) s := by
  have harity : checkArity Builtin.tableInsert.signature (.table id :: args) s = .ok () s := by
    simp [checkArity, Signature.check, Builtin.signature]
    rfl
  rw [apply, Run.bind_ok harity]
  rfl

theorem checkInteger_some {function : String} {n : Nat} {place : Value} {p : Int} (h : positionOf place = some p) :
    checkInteger n function place s = .ok p s := by
  rw [checkInteger, show (Operator.toNumber? place).bind Number.toInt? = some p from h]
  rfl

theorem checkInteger_none {function : String} {n : Nat} {place : Value} (h : positionOf place = none) :
    ∃ f, checkInteger n function place s = .error (.fault f) s := by
  rw [checkInteger, show (Operator.toNumber? place).bind Number.toInt? = none from h]
  exact ⟨_, rfl⟩

theorem insert_rewrites (h : s.tables.getD id {} = t) {i : Nat} {v : Value}
    (hplace : insertPlace t.border args = some (((i + 1 : Nat) : Int), v)) (hi : i ≤ t.border) :
    Rewrites s id t (apply call .tableInsert (.table id :: args)) .nil (t.border + 1) (t.sequence.insertIdx i v) := by
  refine ⟨_, ?_, rewritten_insert t v hi⟩
  rw [apply_tableInsert]
  suffices htable : tableInsert (.table id) args s = .ok () { s with tables := s.tables.setIfInBounds id _ } by
    rw [silent, Run.bind_ok htable]
    rfl
  subst h
  rcases args with _ | ⟨place, _ | ⟨new, _ | ⟨more, args⟩⟩⟩
  · cases hplace
  · obtain ⟨hend, rfl⟩ := Prod.mk.inj (Option.some.inj hplace)
    obtain rfl : i = (s.tables.getD id {}).border := by omega
    rw [Nat.sub_self]
    rfl
  · obtain ⟨p, hp, heq⟩ := Option.map_eq_some_iff.1 hplace
    obtain ⟨rfl, rfl⟩ := Prod.mk.inj heq
    show (do
      let position ← checkInteger 2 "insert" place
      if 1 ≤ position && position ≤ _ then _ else _ : Run Unit) s = _
    rw [Run.bind_ok (checkInteger_some hp), if_pos (by rw [Bool.and_eq_true, decide_eq_true_eq, decide_eq_true_eq]; omega)]
    have hcount : (((s.tables.getD id {}).border : Int) + 1 - (i + 1 : Nat)).toNat = (s.tables.getD id {}).border - i := by
      omega
    rw [hcount]
    rfl
  · cases hplace

theorem insert_refused (h : s.tables.getD id {} = t)
    (hplace : ∀ p v, insertPlace t.border args = some (p, v) → ¬(1 ≤ p ∧ p ≤ t.border + 1)) :
    Refused s (apply call .tableInsert (.table id :: args)) := by
  suffices htable : ∃ f, tableInsert (.table id) args s = .error (.fault f) s by
    obtain ⟨f, htable⟩ := htable
    exact ⟨f, by rw [apply_tableInsert, silent, Run.bind_error htable]⟩
  subst h
  rcases args with _ | ⟨place, _ | ⟨new, _ | ⟨more, args⟩⟩⟩
  · exact ⟨_, rfl⟩
  · exact absurd (by omega) (hplace _ place rfl)
  · show ∃ f, (do
      let position ← checkInteger 2 "insert" place
      if 1 ≤ position && position ≤ _ then _ else badArgument 2 "insert" .positionBounds : Run Unit) s = _
    cases hp : positionOf place with
    | none =>
      obtain ⟨f, hf⟩ := checkInteger_none (s := s) hp
      exact ⟨f, by rw [Run.bind_error hf]⟩
    | some p =>
      rw [Run.bind_ok (checkInteger_some hp), if_neg]
      · exact ⟨_, rfl⟩
      · simpa using hplace p new (by rw [insertPlace, hp]; rfl)
  · exact ⟨_, rfl⟩

def removeAt (id : Nat) (t : Table) (p : Int) : Run Value := do
  if t.border = 0 && p = 0 then return t.find (.int 0)
  if 1 ≤ p && p ≤ t.border + 1 then
    Run.putTable id ((shiftDown t p (t.border - p).toNat).update (.int (p + (t.border - p).toNat)) .nil)
    return t.find (.int p)
  else badArgument 2 "remove" .positionBounds

theorem apply_tableRemove_one {place : Value} (hne : place ≠ .nil) :
    apply call .tableRemove [.table id, place] s =
      single (checkInteger 2 "remove" place >>= removeAt id (s.tables.getD id {})) s := by
  cases place with
  | nil => exact absurd rfl hne
  | _ => rfl

theorem apply_tableRemove {p : Int} (h : s.tables.getD id {} = t) (hplace : removePlace t.border args = some p) :
    apply call .tableRemove (.table id :: args) s = single (removeAt id t p) s := by
  subst h
  rcases args with _ | ⟨place, _ | ⟨more, args⟩⟩
  · cases hplace
    rfl
  · by_cases hnil : place = .nil
    · subst hnil
      cases hplace
      rfl
    · rw [removePlace] at hplace
      · rw [apply_tableRemove_one call hnil, single, bind_assoc, Run.bind_ok (checkInteger_some hplace)]
        rfl
      · exact hnil
  · simp [removePlace] at hplace

theorem remove_rewrites (h : s.tables.getD id {} = t) {i : Nat}
    (hplace : removePlace t.border args = some ((i + 1 : Nat) : Int)) (hi : i < t.border) :
    Rewrites s id t (apply call .tableRemove (.table id :: args)) (t.sequence.getD i .nil) t.border
      (t.sequence.eraseIdx i) := by
  refine ⟨_, ?_, rewritten_remove t hi⟩
  have hval : t.sequence.getD i .nil = t.find (.int (i + 1 : Nat)) := by
    rw [List.getD_eq_getElem?_getD, Table.sequence_getElem?, if_pos hi]
    rfl
  have hcount : ((t.border : Int) - (i + 1 : Nat)).toNat = t.border - (i + 1) := by omega
  have hlast : ((i + 1 : Nat) : Int) + (t.border - (i + 1) : Nat) = t.border := by omega
  rw [apply_tableRemove call h hplace, removeAt, if_neg, if_pos, hcount, hlast, hval]
  · rfl
  all_goals
    rw [Bool.and_eq_true, decide_eq_true_eq, decide_eq_true_eq]
    omega

theorem remove_nothing (h : s.tables.getD id {} = t) {p : Int} (hplace : removePlace t.border args = some p)
    (hp : p = t.border + 1 ∨ t.border = 0 ∧ p = 0) :
    apply call .tableRemove (.table id :: args) s = .ok (.one (t.find (.int p))) s := by
  rw [apply_tableRemove call h hplace, removeAt]
  rcases hp with rfl | ⟨hempty, rfl⟩
  · have hcount : ((t.border : Int) - (t.border + 1)).toNat = 0 := by omega
    rw [if_neg, if_pos, hcount]
    · have hsame : (shiftDown t (t.border + 1) 0).update (.int (t.border + 1 + (0 : Nat))) .nil = t :=
        Table.update_nil_of_missing Table.lookup_behind_border
      show EStateM.Result.ok _ { s with tables := s.tables.setIfInBounds id _ } = _
      rw [hsame, ← h, setIfInBounds_getD]
    all_goals
      rw [Bool.and_eq_true, decide_eq_true_eq, decide_eq_true_eq]
      omega
  · rw [if_pos (by simp [hempty])]
    rfl

theorem remove_refused (h : s.tables.getD id {} = t) (hplace : ∀ p, removePlace t.border args = some p →
    ¬(1 ≤ p ∧ p ≤ t.border + 1) ∧ ¬(t.border = 0 ∧ p = 0)) :
    Refused s (apply call .tableRemove (.table id :: args)) := by
  cases hp : removePlace t.border args with
  | some p =>
    obtain ⟨hbounds, hzero⟩ := hplace p hp
    rw [Refused, apply_tableRemove call h hp, removeAt, if_neg, if_neg]
    · exact ⟨_, rfl⟩
    all_goals rwa [Bool.and_eq_true, decide_eq_true_eq, decide_eq_true_eq]
  | none =>
    rcases args with _ | ⟨place, _ | ⟨more, args⟩⟩
    · cases hp
    · by_cases hnil : place = .nil
      · subst hnil
        cases hp
      · rw [removePlace] at hp
        · obtain ⟨f, hf⟩ := checkInteger_none (s := s) hp
          rw [Refused, apply_tableRemove_one call hnil, single, bind_assoc, Run.bind_error hf]
          exact ⟨f, rfl⟩
        · exact hnil
    · exact ⟨_, rfl⟩

/-- `table.insert` and `table.remove` act on the sequence of a table as on a list, and on nothing else. -/
theorem insert_remove_act_as_list (h : s.tables[id]? = some t) : ActsAsList call s id t := by
  have ht : s.tables.getD id {} = t := by simp [h]
  exact ⟨insert_rewrites call ht, insert_refused call ht, remove_rewrites call ht, remove_nothing call ht,
    remove_refused call ht⟩

end Calls

/-- A table with two values, a hole behind them, and a field. -/
theorem insert_remove_act_as_list_hole :
    ActsAsList (fun _ _ => Run.exhausted) { tables := #[⟨[(.int 1, .int 7), (.int 2, .int 8), (.int 4, .int 9),
      (.string "x", .bool true)], none⟩] } 0 ⟨[(.int 1, .int 7), (.int 2, .int 8), (.int 4, .int 9), (.string "x", .bool true)], none⟩ :=
  insert_remove_act_as_list _ rfl

end Library

end TypedLua
