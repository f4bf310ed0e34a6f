import Mathlib.Data.List.Nodup
import TypedLua.Association

/-!
# Keys of association lists

A key is put into an association list once.
-/

namespace TypedLua.Association

variable {κ α : Type} [BEq κ]

theorem mem_put {k : κ} {v : α} (h : e ∈ put k v entries) : e = (k, v) ∨ e ∈ entries := by
  induction entries with
  | nil => exact Or.inl (List.mem_singleton.1 h)
  | cons first rest ih =>
    obtain ⟨other, old⟩ := first
    rw [put] at h
    split at h
    · rcases List.mem_cons.1 h with h | h
      · exact Or.inl h
      · exact Or.inr (List.mem_cons_of_mem _ h)
    · rcases List.mem_cons.1 h with h | h
      · exact Or.inr (h ▸ List.mem_cons_self)
      · exact (ih h).imp_right (List.mem_cons_of_mem _)

variable [LawfulBEq κ]

theorem nodup_keys_put (k : κ) (v : α) {entries : List (κ × α)} (h : (entries.map (·.1)).Nodup) :
    ((put k v entries).map (·.1)).Nodup := by
  rw [keys_put]
  split
  · exact h
  · next hk =>
    have hnot : k ∉ entries.map (·.1) := by simpa using hk
    exact List.nodup_append.2 ⟨h, List.nodup_singleton k, fun a ha b hb =>
      fun hab => hnot (List.mem_singleton.1 hb ▸ hab ▸ ha)⟩

theorem lookup_of_mem {k : κ} {v : α}
    {entries : List (κ × α)} (hnodup : (entries.map (·.1)).Nodup) (h : (k, v) ∈ entries) :
    entries.lookup k = some v := by
  induction entries with
  | nil => cases h
  | cons first rest ih =>
    obtain ⟨other, old⟩ := first
    rw [List.map_cons, List.nodup_cons] at hnodup
    rcases List.mem_cons.1 h with h | h
    · cases h
      simp
    · have hne : other ≠ k := fun hk => hnodup.1 (hk ▸ List.mem_map_of_mem (f := (·.1)) h)
      rw [lookup_cons_of_ne hne]
      exact ih hnodup.2 h

theorem mem_of_lookup {k : κ} {v : α}
    {entries : List (κ × α)} (h : entries.lookup k = some v) : (k, v) ∈ entries := by
  obtain ⟨before, rest, rfl, -⟩ := List.lookup_eq_some_iff.1 h
  simp

theorem lookup_reverse {entries : List (κ × α)} (hnodup : (entries.map (·.1)).Nodup) (k : κ) :
    entries.reverse.lookup k = entries.lookup k := by
  induction entries with
  | nil => rfl
  | cons first rest ih =>
    obtain ⟨other, v⟩ := first
    rw [List.map_cons, List.nodup_cons] at hnodup
    rw [List.reverse_cons, List.lookup_append, ih hnodup.2]
    by_cases hk : other = k
    · subst hk
      have hrest : rest.lookup other = none := by
        rw [List.lookup_eq_none_iff]
        intro e he
        have hne : other ≠ e.1 := fun heq => hnodup.1 (heq ▸ List.mem_map_of_mem (f := (·.1)) he)
        simpa using hne
      rw [hrest]
      simp
    · rw [lookup_cons_of_ne hk, lookup_cons_of_ne hk]
      cases rest.lookup k <;> rfl

end TypedLua.Association
