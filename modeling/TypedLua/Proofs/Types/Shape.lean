import TypedLua.Proofs.Types.Conformance
import TypedLua.Proofs.Tables.Border

/-!
# Tables of shapes

A shape is a table at run time: the predicates of its keyed types under their keys, the last one of
a key, and those of its positional types under one, two, and so on.
-/

namespace TypedLua

/-! ## Rows -/

/-- An entry of a shape at run time: its key, if it has one, and its predicate. -/
abbrev Row := Option String × Value

namespace Row

def items (rows : List Row) : List Value := rows.filterMap fun row => if row.1.isNone then some row.2 else none

def last (k : String) : List Row → Option Value
  | [] => none
  | (key, v) :: rows => (last k rows).or (if key = some k then some v else none)

end Row

namespace Table

/-- A table with rows put in one after the other; those without key count up from a number. -/
def withRows (t : Table) (n : Int) : List Row → Table
  | [] => t
  | (none, v) :: rows => withRows (t.update (.int n) v) (n + 1) rows
  | (some k, v) :: rows => withRows (t.update (.string k) v) n rows

section Equations

-- Made here, so that the proofs that open these functions need not wait for each other.
attribute [local simp] Row.last withRows

end Equations

variable {rows : List Row}

theorem update_of_not_nil {t : Table} {v : Value} (hv : v.isNil = false) :
    t.update k v = { t with entries := Association.put k v t.entries } := by
  rw [update, hv]
  rfl

theorem withRows_string (k : String) (t : Table) (n : Int) (hrows : ∀ row ∈ rows, row.2.isNil = false) :
    (t.withRows n rows).entries.lookup (.string k) = (Row.last k rows).or (t.entries.lookup (.string k)) := by
  induction rows generalizing t n with
  | nil => rfl
  | cons row rows ih =>
    obtain ⟨key, v⟩ := row
    obtain ⟨hv, hrest⟩ := List.forall_mem_cons.1 hrows
    cases key with
    | none =>
      rw [withRows, ih _ _ hrest, update_of_not_nil hv, Association.lookup_put_of_ne (by simp)]
      simp [Row.last]
    | some key =>
      rw [withRows, ih _ _ hrest, update_of_not_nil hv, Row.last]
      by_cases hkey : key = k
      · simp [hkey]
      · have hne : Key.string k ≠ Key.string key := by simpa using Ne.symm hkey
        rw [Association.lookup_put_of_ne hne]
        simp [hkey]

theorem withRows_int (t : Table) (n : Int) (hrows : ∀ row ∈ rows, row.2.isNil = false) (j : Int) :
    (t.withRows n rows).entries.lookup (.int j) =
      if n ≤ j then ((Row.items rows)[(j - n).toNat]?).or (t.entries.lookup (.int j))
      else t.entries.lookup (.int j) := by
  induction rows generalizing t n with
  | nil => simp [withRows, Row.items]
  | cons row rows ih =>
    obtain ⟨key, v⟩ := row
    obtain ⟨hv, hrest⟩ := List.forall_mem_cons.1 hrows
    cases key with
    | none =>
      have hitems : Row.items ((none, v) :: rows) = v :: Row.items rows := rfl
      rw [withRows, ih _ _ hrest, update_of_not_nil hv, hitems]
      by_cases hj : j = n
      · subst hj
        simp [show ¬(j + 1 ≤ j) by omega]
      · rw [Association.lookup_put_of_ne (by simpa using hj)]
        by_cases hle : n ≤ j
        · have hnat : (j - n).toNat = (j - (n + 1)).toNat + 1 := by omega
          rw [if_pos hle, if_pos (by omega), hnat, List.getElem?_cons_succ]
        · rw [if_neg hle, if_neg (by omega)]
    | some key =>
      have hitems : Row.items ((some key, v) :: rows) = Row.items rows := rfl
      rw [withRows, ih _ _ hrest, update_of_not_nil hv, hitems, Association.lookup_put_of_ne (by simp)]

theorem withRows_nodup (t : Table) (n : Int) (hrows : ∀ row ∈ rows, row.2.isNil = false)
    (h : (t.entries.map (·.1)).Nodup) : ((t.withRows n rows).entries.map (·.1)).Nodup := by
  induction rows generalizing t n with
  | nil => exact h
  | cons row rows ih =>
    obtain ⟨key, v⟩ := row
    obtain ⟨hv, hrest⟩ := List.forall_mem_cons.1 hrows
    cases key <;> rw [withRows, update_of_not_nil hv] <;> exact ih _ _ hrest (Association.nodup_keys_put _ _ h)

theorem withRows_keys (t : Table) (n : Int) (hrows : ∀ row ∈ rows, row.2.isNil = false)
    (he : e ∈ (t.withRows n rows).entries) : e ∈ t.entries ∨ (∃ k, e.1 = .string k) ∨
      ∃ i, e.1 = .int i ∧ n ≤ i ∧ i < n + (Row.items rows).length := by
  induction rows generalizing t n with
  | nil => exact Or.inl he
  | cons row rows ih =>
    obtain ⟨key, v⟩ := row
    obtain ⟨hv, hrest⟩ := List.forall_mem_cons.1 hrows
    cases key with
    | none =>
      have hitems : (Row.items ((none, v) :: rows)).length = (Row.items rows).length + 1 := rfl
      rw [withRows, update_of_not_nil hv] at he
      rcases ih _ _ hrest he with hold | hstring | ⟨i, hi, hle, hlt⟩
      · rcases Association.mem_put hold with rfl | hold
        · exact Or.inr (Or.inr ⟨n, rfl, by omega, by omega⟩)
        · exact Or.inl hold
      · exact Or.inr (Or.inl hstring)
      · exact Or.inr (Or.inr ⟨i, hi, by omega, by omega⟩)
    | some key =>
      rw [withRows, update_of_not_nil hv] at he
      rcases ih _ _ hrest he with hold | hrest
      · rcases Association.mem_put hold with rfl | hold
        · exact Or.inr (Or.inl ⟨key, rfl⟩)
        · exact Or.inl hold
      · exact Or.inr hrest

def ofRows (rows : List Row) : Table := withRows {} 1 rows

theorem ofRows_int (hrows : ∀ row ∈ rows, row.2.isNil = false) (i : Nat) :
    (ofRows rows).entries.lookup (.int (i + 1)) = (Row.items rows)[i]? := by
  rw [ofRows, withRows_int _ _ hrows, if_pos (by omega), show ((i : Int) + 1 - 1).toNat = i by omega]
  cases (Row.items rows)[i]? <;> rfl

theorem sequence_ofRows (hrows : ∀ row ∈ rows, row.2.isNil = false) : (ofRows rows).sequence = Row.items rows := by
  have hborder : (ofRows rows).border = (Row.items rows).length := by
    apply border_eq
    · rw [ofRows_int hrows]
      simp
    · intro i hi
      rw [ofRows_int hrows]
      simp [hi]
  apply List.ext_getElem?
  intro i
  rw [sequence, hborder]
  by_cases hi : i < (Row.items rows).length
  · have hfind : (ofRows rows).find (.int (i + 1)) = (Row.items rows)[i] := by
      rw [find, ofRows_int hrows]
      simp [hi]
    simp [hi, hfind]
  · simp [Nat.not_lt.1 hi]

/-- The entries that are not taken for items. -/
abbrev fields (t : Table) : List (Key × Value) := t.entries.filter fun e => !Library.isItemKey t.sequence.length e.1

theorem mem_fields_ofRows (hrows : ∀ row ∈ rows, row.2.isNil = false) (e : Key × Value) :
    e ∈ (ofRows rows).fields ↔ ∃ k, e.1 = .string k ∧ Row.last k rows = some e.2 := by
  have hnodup : ((ofRows rows).entries.map (·.1)).Nodup := withRows_nodup _ _ hrows List.nodup_nil
  rw [fields, sequence_ofRows hrows, List.mem_filter]
  constructor
  · rintro ⟨hmem, hitem⟩
    rcases withRows_keys _ _ hrows hmem with hnil | ⟨k, hk⟩ | ⟨i, hi, hle, hlt⟩
    · cases hnil
    · refine ⟨k, hk, ?_⟩
      have hlookup := Association.lookup_of_mem hnodup hmem
      rw [hk, ofRows, withRows_string k _ _ hrows] at hlookup
      simpa using hlookup
    · rw [hi] at hitem
      simp only [Library.isItemKey, Bool.not_eq_true', Bool.and_eq_false_iff, decide_eq_false_iff_not] at hitem
      omega
  · rintro ⟨k, hk, hlast⟩
    obtain ⟨key, v⟩ := e
    obtain rfl : key = .string k := hk
    refine ⟨Association.mem_of_lookup ?_, rfl⟩
    rw [ofRows, withRows_string k _ _ hrows, hlast]
    rfl

end Table

/-! ## Shapes as types -/

def Field.typeAt? (k : String) : Field → Option Expr
  | .mk _ (some (.string _ key)) type => if key = k then some type else none
  | _ => none

def lastType? (k : String) : List Field → Option Expr
  | [] => none
  | field :: fields => (lastType? k fields).or (field.typeAt? k)

def itemTypes (fields : List Field) : List Expr := fields.filterMap fun
    | .mk _ none type => some type
    | _ => none

namespace Library

inductive Holds (predicates : Array Predicate) : Field → Row → Prop
  | item {loc type f} (h : Represents predicates type f) : Holds predicates (.mk loc none type) (none, f)
  | keyed {loc keyLoc k type f} (h : Represents predicates type f) :
      Holds predicates (.mk loc (some (.string keyLoc k)) type) (some k, f)

variable {predicates later : Array Predicate} {fields : List Field} {rows : List Row}

theorem Holds.mono (h : Holds predicates field row)
    (hlater : predicates.toList <+: later.toList) : Holds later field row := by
  cases h with
  | item h => exact .item (h.mono hlater)
  | keyed h => exact .keyed (h.mono hlater)

theorem Represents.isNil (h : Represents predicates type f) : f.isNil = false := by
  obtain ⟨id, rfl, -⟩ := h
  rfl

theorem isNil_of_holds (h : List.Forall₂ (Holds predicates) fields rows) : ∀ row ∈ rows, row.2.isNil = false := by
  induction h with
  | nil => simp
  | cons hrow _ ih =>
    intro row hmem
    rcases List.mem_cons.1 hmem with rfl | hmem
    · cases hrow with
      | item h => exact h.isNil
      | keyed h => exact h.isNil
    · exact ih row hmem

theorem items_represent (h : List.Forall₂ (Holds predicates) fields rows) :
    List.Forall₂ (Represents predicates) (itemTypes fields) (Row.items rows) := by
  induction h with
  | nil => exact .nil
  | cons hrow _ ih =>
    cases hrow with
    | item h => exact .cons h ih
    | keyed h => exact ih

theorem exists_represented (h : List.Forall₂ (Represents predicates) types items) (hf : f ∈ items) :
    ∃ type, Represents predicates type f := by
  induction h with
  | nil => cases hf
  | cons hhead _ ih =>
    rcases List.mem_cons.1 hf with rfl | hf
    · exact ⟨_, hhead⟩
    · exact ih hf

theorem last_represents (h : List.Forall₂ (Holds predicates) fields rows) (k : String) :
    (Row.last k rows = none ∧ lastType? k fields = none) ∨
      ∃ f type, Row.last k rows = some f ∧ lastType? k fields = some type ∧ Represents predicates type f := by
  induction h with
  | nil => exact Or.inl ⟨rfl, rfl⟩
  | cons hrow _ ih =>
    rw [Row.last, lastType?]
    rcases ih with ⟨hlast, htype⟩ | ⟨g, type, hlast, htype, hg⟩
    · rw [hlast, htype, Option.none_or, Option.none_or]
      cases hrow with
      | item h => exact Or.inl ⟨rfl, rfl⟩
      | @keyed _ _ name type f h =>
        by_cases hk : name = k
        · exact Or.inr ⟨f, type, by simp [hk], by simp [Field.typeAt?, hk], h⟩
        · exact Or.inl ⟨by simp [hk], by simp [Field.typeAt?, hk]⟩
    · rw [hlast, htype]
      exact Or.inr ⟨g, type, rfl, rfl, hg⟩

theorem exists_field (h : List.Forall₂ (Holds predicates) fields rows) (hk : lastType? k fields = some type) :
    ∃ f, (.string k, f) ∈ (Table.ofRows rows).fields ∧ Represents predicates type f := by
  rcases last_represents h k with ⟨-, hnone⟩ | ⟨f, type', hlast, htype, hf⟩
  · cases hnone.symm.trans hk
  · cases htype.symm.trans hk
    exact ⟨f, (Table.mem_fields_ofRows (isNil_of_holds h) _).2 ⟨k, rfl, hlast⟩, hf⟩

theorem field_represents (h : List.Forall₂ (Holds predicates) fields rows) (he : e ∈ (Table.ofRows rows).fields) :
    ∃ k type, e.1 = .string k ∧ lastType? k fields = some type ∧ Represents predicates type e.2 := by
  obtain ⟨k, hk, hlast⟩ := (Table.mem_fields_ofRows (isNil_of_holds h) e).1 he
  rcases last_represents h k with ⟨hnone, -⟩ | ⟨f, type, hsome, htype, hf⟩
  · cases hnone.symm.trans hlast
  · cases hsome.symm.trans hlast
    exact ⟨k, type, hk, htype, hf⟩

/-! ## Conformance to a shape -/

variable {s : Store} {t : Table}

theorem isSome_lastType? (k : String) (fields : List Field) :
    (lastType? k fields).isSome = fields.any (·.hasKey k) := by
  induction fields with
  | nil => rfl
  | cons field fields ih =>
    have hfield : (field.typeAt? k).isSome = field.hasKey k := by
      obtain ⟨loc, key, type⟩ := field
      cases key with
      | none => rfl
      | some key =>
        cases key with
        | string _ name =>
          by_cases hk : name = k <;> simp [Field.typeAt?, Field.hasKey, hk]
        | _ => rfl
    rw [lastType?, List.any_cons, ← ih, ← hfield, Bool.or_comm]
    cases lastType? k fields <;> simp

theorem admitsKeyed_iff : admitsKeyed s t fields = true ↔
      ∀ k type, lastType? k fields = some type → type.admits s (t.find (.string k)) = true := by
  induction fields with
  | nil => simp [admitsKeyed, lastType?]
  | cons field fields ih =>
    obtain ⟨loc, key, type⟩ := field
    cases key with
    | none => simpa [admitsKeyed, lastType?, Field.typeAt?] using ih
    | some key =>
      cases key with
      | string _ name =>
        have hany := isSome_lastType? name fields
        rw [admitsKeyed, Bool.and_eq_true, ih, ← hany, Bool.or_eq_true]
        constructor
        · rintro ⟨hhead, htail⟩ k type' hlast
          rw [lastType?, Field.typeAt?] at hlast
          cases hrest : lastType? k fields with
          | some found =>
            rw [hrest] at hlast
            exact htail k type' (hrest.trans hlast)
          | none =>
            -- no later field has the key, so this one counts
            rw [hrest, Option.none_or] at hlast
            split at hlast
            · next hk =>
              cases hlast
              subst hk
              rw [hrest] at hhead
              simpa using hhead
            · cases hlast
        · intro h
          refine ⟨?_, fun k type' hlast => h k type' ?_⟩
          · cases hrest : lastType? name fields with
            | some found => exact Or.inl rfl
            | none => exact Or.inr (h name type (by simp [lastType?, Field.typeAt?, hrest]))
          · rw [lastType?, hlast]
            rfl
      | _ => simpa [admitsKeyed, lastType?, Field.typeAt?] using ih

theorem admitsEach_eq (vs : List Value) (fields : List Field) :
    admitsEach s vs fields = (itemTypes fields).all fun type => vs.all (type.admits s) := by
  induction fields with
  | nil => rfl
  | cons field fields ih =>
    obtain ⟨loc, key, type⟩ := field
    cases key with
    | none =>
      rw [admitsEach, ih]
      rfl
    | some key => exact ih

theorem countP_isPositional (fields : List Field) : fields.countP (·.isPositional) = (itemTypes fields).length := by
  induction fields with
  | nil => rfl
  | cons field fields ih =>
    obtain ⟨loc, key, type⟩ := field
    cases key with
    | none => simpa [Field.isPositional, itemTypes] using ih
    | some key => simpa [Field.isPositional, itemTypes] using ih

def Accepts (call : Caller) (n : Nat) (s : Store) (f v : Value) : Prop := conformsWithin call n f v s = .ok true s

section Shape

variable {n : Nat} {call : Caller} {f v : Value} {type : Expr}
  (hs : predicates.toList <+: s.predicates.toList) (hn : predicates.size ≤ n)

include hs hn

theorem Represents.accepts_iff (h : Represents predicates type f) :
    Accepts call n s f v ↔ type.admits s v = true := by
  rw [Accepts, h.conforms call v hs hn]
  simp

theorem Represents.settles (h : Represents predicates type f) (v : Value) :
    Settles (· = s) (conformsWithin call n f v) (Accepts call n s f v) := by
  rintro _ rfl
  exact ⟨_, _, h.conforms call v hs hn, rfl, (h.accepts_iff hs hn).symm⟩

theorem accepts_keyed_iff (h : List.Forall₂ (Holds predicates) fields rows) :
    (∀ e ∈ (Table.ofRows rows).fields, Accepts call n s e.2 (t.get e.1.toValue)) ↔ admitsKeyed s t fields = true := by
  rw [admitsKeyed_iff]
  constructor
  · intro hall k type htype
    obtain ⟨f, hmem, hf⟩ := exists_field h htype
    exact (hf.accepts_iff hs hn).1 (hall _ hmem)
  · intro hall e he
    obtain ⟨k, type, hk, htype, hf⟩ := field_represents h he
    rw [hf.accepts_iff hs hn, hk]
    exact hall k type htype

theorem meetInTurn_iff_admits (position : Int)
    (h : List.Forall₂ (Represents predicates) (itemTypes fields) items) :
    MeetInTurn (Accepts call n s) t position items ↔ admitsItems s t position fields = true := by
  induction fields generalizing items position with
  | nil =>
    cases h
    simp [MeetInTurn, admitsItems]
  | cons field fields ih =>
    obtain ⟨loc, key, type⟩ := field
    cases key with
    | some key =>
      rw [admitsItems]
      · exact ih position h
      · simp
    | none =>
      obtain ⟨f, rest, hf, hrest, rfl⟩ := List.forall₂_cons_left_iff.1 h
      rw [MeetInTurn, admitsItems, Bool.and_eq_true, ih _ hrest, hf.accepts_iff hs hn]
      rfl

theorem meetItems_iff_admits (h : List.Forall₂ (Represents predicates) (itemTypes fields) items) :
    MeetItems (Accepts call n s) t items ↔ (if fields.countP (·.isPositional) = 1 then admitsEach s t.sequence fields
        else admitsItems s t 1 fields) = true := by
  rw [countP_isPositional]
  by_cases hone : (itemTypes fields).length = 1
  · -- one positional type is the type of all items
    obtain ⟨type, htype⟩ := List.length_eq_one_iff.1 hone
    rw [htype] at h
    obtain ⟨f, rest, hf, hrest, rfl⟩ := List.forall₂_cons_left_iff.1 h
    cases hrest
    rw [if_pos hone, admitsEach_eq, htype, List.all_cons, List.all_nil, Bool.and_true, List.all_eq_true]
    exact forall₂_congr fun v _ => hf.accepts_iff hs hn
  · rw [if_neg hone, meetItems_of_ne (h.length_eq ▸ hone), meetInTurn_iff_admits hs hn 1 h]

end Shape

theorem represents_shape (h : List.Forall₂ (Holds predicates) fields rows) :
    Represents (predicates.push ⟨description, .shape (Table.ofRows rows).sequence (Table.ofRows rows).fields⟩)
      (.table loc fields) (.function (.predicate predicates.size)) := by
  apply represents_push
  intro call s v n hs hn
  cases v with
  | table id =>
    have hitems := items_represent h
    rw [← Table.sequence_ofRows (isNil_of_holds h)] at hitems
    have hfield (e) (he : e ∈ (Table.ofRows rows).fields) (v : Value) :
        Settles (· = s) (conformsWithin call n e.2 v) (Accepts call n s e.2 v) := by
      obtain ⟨_, _, -, -, hf⟩ := field_represents h he
      exact hf.settles hs hn v
    have hsettles := passes_settles (t := s.tables.getD id {}) (fun _ heq => by rw [heq]) hfield fun f hf v => by
      obtain ⟨type, htype⟩ := exists_represented hitems hf
      exact htype.settles hs hn v
    obtain ⟨b, _, hrun, rfl, hb⟩ := hsettles s rfl
    rw [accepts_keyed_iff hs hn h, meetItems_iff_admits hs hn hitems, ← Bool.and_eq_true, ← Bool.eq_iff_iff] at hb
    rw [hrun, hb]
    rfl
  | _ => rfl

end Library

end TypedLua
