/-!
# Association lists

Values under keys, in the order in which the keys came in.
-/

namespace TypedLua.Association

variable {κ α : Type} [BEq κ]

def put (k : κ) (v : α) : List (κ × α) → List (κ × α)
  | [] => [(k, v)]
  | (other, old) :: rest => if other == k then (k, v) :: rest else (other, old) :: put k v rest

def discard (k : κ) (entries : List (κ × α)) : List (κ × α) :=
  entries.filter fun e => e.1 != k

theorem keys_discard (k : κ) (entries : List (κ × α)) :
    (discard k entries).map (·.1) = (entries.map (·.1)).filter (· != k) := by
  simp [discard, List.filter_map, Function.comp_def]

variable [LawfulBEq κ]

theorem lookup_cons_of_ne {k other : κ} (h : other ≠ k) (v : α) (rest : List (κ × α)) :
    ((other, v) :: rest).lookup k = rest.lookup k := by
  have : (k == other) = false := by simpa using Ne.symm h
  simp [List.lookup_cons, this]

@[simp] theorem lookup_put_self (k : κ) (v : α) (entries : List (κ × α)) :
    (put k v entries).lookup k = some v := by
  induction entries with
  | nil => simp [put]
  | cons e rest ih =>
    obtain ⟨other, old⟩ := e
    by_cases h : other = k
    · simp [put, h]
    · simpa [put, h, lookup_cons_of_ne h] using ih

theorem lookup_put_of_ne {k other : κ} (h : other ≠ k) (v : α) (entries : List (κ × α)) :
    (put k v entries).lookup other = entries.lookup other := by
  induction entries with
  | nil => simp [put, lookup_cons_of_ne h.symm]
  | cons e rest ih =>
    obtain ⟨x, old⟩ := e
    by_cases hx : x = k
    · subst hx; simp [put, lookup_cons_of_ne h.symm]
    · simp [put, hx, List.lookup_cons, ih]

@[simp] theorem lookup_discard_self (k : κ) (entries : List (κ × α)) :
    (discard k entries).lookup k = none := by
  simp only [discard, List.lookup_eq_none_iff, List.mem_filter]
  intro e he
  have : e.1 ≠ k := by simpa using he.2
  simpa using this.symm

theorem lookup_discard_of_ne {k other : κ} (h : other ≠ k) (entries : List (κ × α)) :
    (discard k entries).lookup other = entries.lookup other := by
  induction entries with
  | nil => rfl
  | cons e rest ih =>
    obtain ⟨x, old⟩ := e
    by_cases hx : x = k
    · subst hx; simpa [discard, lookup_cons_of_ne h.symm] using ih
    · have : discard k ((x, old) :: rest) = (x, old) :: discard k rest := by simp [discard, hx]
      rw [this, List.lookup_cons, List.lookup_cons, ih]

/-- A key that is there keeps its place, and a new one goes to the end. -/
theorem keys_put (k : κ) (v : α) (entries : List (κ × α)) :
    (put k v entries).map (·.1) =
      if (entries.map (·.1)).contains k then entries.map (·.1) else entries.map (·.1) ++ [k] := by
  induction entries with
  | nil => simp [put]
  | cons e rest ih =>
    obtain ⟨other, old⟩ := e
    by_cases h : other = k
    · simp [put, h]
    · have hk : (k == other) = false := by simpa using Ne.symm h
      have ho : (other == k) = false := by simpa using h
      simp only [put, ho, Bool.false_eq_true, if_false, List.map_cons, ih, List.contains_cons, hk,
        Bool.false_or]
      split <;> simp

end TypedLua.Association
