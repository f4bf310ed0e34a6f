import Mathlib.Data.Fintype.Pigeonhole
import TypedLua.Access

/-!
# Chains of metatables

Reading a field goes from table to table along the `__index` entries of metatables, as long as the
key is missing.
-/

namespace TypedLua.Access

def Lacks (s : Store) (key : Value) (id : Nat) : Prop := (s.tables.getD id {}).get key = .nil

/-- The `__index` entry of the metatable of a table; nil without a metatable. -/
def handler (s : Store) (id : Nat) : Value :=
  match (s.tables.getD id {}).metatable with
  | some m => (s.tables.getD m {}).get (.string "__index")
  | none => .nil

/-- The tables on the way of a reading that starts at a table, with their numbers. -/
inductive OnChain (s : Store) (key : Value) (id : Nat) : Nat → Nat → Prop
  | start : OnChain s key id 0 id
  | next {i t next} (h : OnChain s key id i t) (hlacks : Lacks s key t) (hnext : handler s t = .table next) :
      OnChain s key id (i + 1) next

def Endless (s : Store) (key : Value) (id : Nat) : Prop := ∀ i, ∃ t, OnChain s key id i t

def ask (call : Caller) (id : Nat) (key : Value) : Value → Run Value
  | .function f => do return (← call (.function f) [.table id, key]).first
  | other => Run.trap (.notCallable other.kindName)

variable {s : Store} {key : Value} {id i j t : Nat}

namespace OnChain

theorem last (h : OnChain s key id (i + 1) t) :
    ∃ t', OnChain s key id i t' ∧ Lacks s key t' ∧ handler s t' = .table t := by
  cases h with
  | next h hlacks hnext => exact ⟨_, h, hlacks, hnext⟩

theorem earlier (h : OnChain s key id i t) (hj : j ≤ i) : ∃ t', OnChain s key id j t' := by
  induction h with
  | start => exact ⟨id, Nat.le_zero.1 hj ▸ .start⟩
  | @next i t u h hlacks hnext ih =>
    rcases Nat.le_succ_iff.1 hj with hj | rfl
    · exact ih hj
    · exact ⟨u, h.next hlacks hnext⟩

theorem unique (h : OnChain s key id i t) (h' : OnChain s key id i u) : t = u := by
  induction h generalizing u with
  | start => cases h'; rfl
  | next h hlacks hnext ih =>
    obtain ⟨t', h', -, hnext'⟩ := h'.last
    rw [← ih h', hnext] at hnext'
    exact Value.table.inj hnext'

theorem again (ha : OnChain s key id a t) (hb : OnChain s key id b t)
    (h : OnChain s key id (a + k) u) : OnChain s key id (b + k) u := by
  induction k generalizing u with
  | zero => exact ha.unique h ▸ hb
  | succ k ih =>
    obtain ⟨t', h, hlacks, hnext⟩ := h.last
    exact (ih h).next hlacks hnext

theorem endless (hij : i < j) (hi : OnChain s key id i t) (hj : OnChain s key id j t) : Endless s key id := by
  intro n
  induction n using Nat.strong_induction_on with
  | _ n ih =>
    rcases Nat.lt_or_ge j n with hlt | hle
    · obtain ⟨k, rfl⟩ := Nat.exists_eq_add_of_le hlt.le
      obtain ⟨u, hu⟩ := ih (i + k) (Nat.add_lt_add_right hij k)
      exact ⟨u, hi.again hj hu⟩
    · exact hj.earlier hle

theorem revisits (h : OnChain s key id (s.tables.size + 1) t) :
    ∃ i j t, i < j ∧ OnChain s key id i t ∧ OnChain s key id j t := by
  -- A table with a handler is one of the tables of the store.
  have hstored (i : Fin (s.tables.size + 1)) : ∃ t : Fin s.tables.size, OnChain s key id i t := by
    obtain ⟨u, hu⟩ := h.earlier (Nat.succ_le_of_lt i.2)
    obtain ⟨t', ht', -, hnext⟩ := hu.last
    refine ⟨⟨t', Nat.lt_of_not_le fun hge => ?_⟩, ht'⟩
    rw [handler, Array.getD_eq_getD_getElem?, Array.getElem?_eq_none hge] at hnext
    cases hnext
  choose tables htables using hstored
  obtain ⟨i, j, hne, heq⟩ := Fintype.exists_ne_map_eq_of_card_lt tables (by simp)
  rcases Nat.lt_or_gt_of_ne (Fin.val_ne_of_ne hne) with hlt | hlt
  · exact ⟨i, j, tables i, hlt, htables i, heq ▸ htables j⟩
  · exact ⟨j, i, tables i, hlt, heq ▸ htables j, htables i⟩

theorem le_size (h : OnChain s key id i t) (hstop : ∀ u, ¬OnChain s key id (i + 1) u) : i ≤ s.tables.size := by
  by_contra hlt
  obtain ⟨u, hu⟩ := h.earlier (Nat.lt_of_not_le hlt)
  obtain ⟨a, b, v, hab, ha, hb⟩ := hu.revisits
  obtain ⟨w, hw⟩ := ha.endless hab hb (i + 1)
  exact hstop w hw

theorem stops (h : OnChain s key id i t) (hstop : Lacks s key t → ∀ next, handler s t ≠ .table next) (u : Nat) :
    ¬OnChain s key id (i + 1) u := by
  intro hu
  obtain ⟨t', ht', hlacks, hnext⟩ := hu.last
  obtain rfl := h.unique ht'
  exact hstop hlacks u hnext

end OnChain

theorem endless_iff : Endless s key id ↔
    (∃ i j t, i < j ∧ OnChain s key id i t ∧ OnChain s key id j t) ∧ ∀ i t, OnChain s key id i t → Lacks s key t := by
  constructor
  · intro h
    obtain ⟨t, ht⟩ := h (s.tables.size + 1)
    refine ⟨ht.revisits, fun i t hi => ?_⟩
    obtain ⟨u, hu⟩ := h (i + 1)
    obtain ⟨t', ht', hlacks, -⟩ := hu.last
    exact hi.unique ht' ▸ hlacks
  · rintro ⟨⟨i, j, t, hij, hi, hj⟩, -⟩
    exact hi.endless hij hj

/-! ## Reading along a chain -/

def goOn (call : Caller) (key : Value) (n t : Nat) : Value → Run Value
  | .nil => return .nil
  | .table next => indexFrom call key n (.table next)
  | other => ask call t key other

variable (call : Caller)

theorem indexFrom_of_not_lacks (h : ¬Lacks s key t) :
    indexFrom call key (n + 1) (.table t) s = .ok ((s.tables.getD t {}).get key) s := by
  show (if !((s.tables.getD t {}).get key).isNil then _ else _ : Run Value) s = _
  rw [if_pos]
  · rfl
  · cases hv : (s.tables.getD t {}).get key with
    | nil => exact absurd hv h
    | _ => rfl

theorem indexFrom_of_lacks (h : Lacks s key t) :
    indexFrom call key (n + 1) (.table t) s = goOn call key n t (handler s t) s := by
  show (if !((s.tables.getD t {}).get key).isNil then _ else _ : Run Value) s = _
  rw [show (s.tables.getD t {}).get key = .nil from h, if_neg (by simp [Value.isNil]), handler]
  cases (s.tables.getD t {}).metatable with
  | none => rfl
  | some m =>
    dsimp only
    rw [Run.bind_ok (Run.getRaw_run m (.string "__index") s)]
    cases (s.tables.getD m {}).get (.string "__index") <;> rfl

theorem OnChain.indexFrom (h : OnChain s key id i t) (n : Nat) :
    indexFrom call key (n + i) (.table id) s = indexFrom call key n (.table t) s := by
  induction h generalizing n with
  | start => rfl
  | next h hlacks hnext ih =>
    rw [← Nat.add_assoc, Nat.add_right_comm, ih, indexFrom_of_lacks call hlacks, hnext, goOn]

theorem OnChain.index (h : OnChain s key id i t) (hi : i ≤ s.tables.size) :
    ∃ n, index call (.table id) key s = Access.indexFrom call key (n + 1) (.table t) s := by
  obtain ⟨n, hn⟩ := Nat.exists_eq_add_of_le' hi
  refine ⟨n, ?_⟩
  show Access.indexFrom call key (s.tables.size + 1) (.table id) s = _
  rw [hn, Nat.add_right_comm, h.indexFrom]

structure FollowsChain (call : Caller) (s : Store) (key : Value) (id : Nat) (reading : Run Value) : Prop where
  found : ∀ i t, OnChain s key id i t → ¬Lacks s key t → reading s = .ok ((s.tables.getD t {}).get key) s
  missing : ∀ i t, OnChain s key id i t → Lacks s key t → handler s t = .nil → reading s = .ok .nil s
  asked : ∀ i t, OnChain s key id i t → Lacks s key t → handler s t ≠ .nil →
    (∀ next, handler s t ≠ .table next) → reading s = ask call t key (handler s t) s
  /-- If calls end, the reading has no end exactly if the chain has none. -/
  endless : (∀ f args s1 s2, call f args s1 ≠ .error .outOfFuel s2) →
    ((∃ s', reading s = .error .outOfFuel s') ↔ Endless s key id)
  /-- A chain without end comes back to a table, and none of its tables has the key. -/
  revisits : Endless s key id ↔
    (∃ i j t, i < j ∧ OnChain s key id i t ∧ OnChain s key id j t) ∧ ∀ i t, OnChain s key id i t → Lacks s key t

theorem ask_ne_outOfFuel (hcall : ∀ f args s1 s2, call f args s1 ≠ .error .outOfFuel s2) (h : Value) (s' : Store) :
    ask call t key h s ≠ .error .outOfFuel s' := by
  cases h with
  | function f =>
    intro hask
    cases hrun : call (.function f) [.table t, key] s with
    | ok r s1 => rw [ask, Run.bind_ok hrun] at hask; cases hask
    | error e s1 =>
      rw [ask, Run.bind_error hrun] at hask
      cases hask
      exact hcall _ _ _ _ hrun
  | _ => intro hask; cases hask

/-- The reading of a field follows the chain of metatables, whatever the tables of the store are. -/
theorem index_follows_chain (s : Store) (key : Value) (id : Nat) :
    FollowsChain call s key id (index call (.table id) key) := by
  have hfound (i t : Nat) (h : OnChain s key id i t) (hhas : ¬Lacks s key t) :
      Access.index call (.table id) key s = .ok ((s.tables.getD t {}).get key) s := by
    obtain ⟨n, hn⟩ := h.index call (h.le_size (h.stops fun hlacks => absurd hlacks hhas))
    rw [hn, indexFrom_of_not_lacks call hhas]
  have hstop (i t : Nat) (h : OnChain s key id i t) (hlacks : Lacks s key t)
      (hnext : ∀ next, handler s t ≠ .table next) :
      ∃ n, Access.index call (.table id) key s = goOn call key n t (handler s t) s := by
    obtain ⟨n, hn⟩ := h.index call (h.le_size (h.stops fun _ => hnext))
    exact ⟨n, by rw [hn, indexFrom_of_lacks call hlacks]⟩
  refine ⟨hfound, fun i t h hlacks hnil => ?_, fun i t h hlacks hnil hnext => ?_, fun hcall => ⟨?_, fun hendless => ?_⟩,
    endless_iff⟩
  · obtain ⟨n, hn⟩ := hstop i t h hlacks (by simp [hnil])
    rw [hn, hnil]
    rfl
  · obtain ⟨n, hn⟩ := hstop i t h hlacks hnext
    rw [hn, goOn]
    · exact hnil
    · exact hnext
  · rintro ⟨s', hrun⟩ i
    induction i with
    | zero => exact ⟨id, .start⟩
    | succ i ih =>
      obtain ⟨t, h⟩ := ih
      by_cases hlacks : Lacks s key t
      · cases hnext : handler s t with
        | table next => exact ⟨next, h.next hlacks hnext⟩
        | function f =>
          obtain ⟨n, hn⟩ := hstop i t h hlacks (by simp [hnext])
          rw [hn, hnext] at hrun
          exact absurd (show ask call t key (.function f) s = _ from hrun) (ask_ne_outOfFuel call hcall _ s')
        | nil | bool | number | string =>
          obtain ⟨n, hn⟩ := hstop i t h hlacks (by simp [hnext])
          rw [hn, hnext] at hrun
          cases hrun
      · rw [hfound i t h hlacks] at hrun
        cases hrun
  · obtain ⟨t, ht⟩ := hendless (s.tables.size + 1)
    have hrun := ht.indexFrom call 0
    rw [Nat.zero_add] at hrun
    exact ⟨s, hrun⟩

end TypedLua.Access
