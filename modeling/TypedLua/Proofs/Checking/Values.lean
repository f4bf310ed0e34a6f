import TypedLua.Proofs.Checking.Guards
import TypedLua.Proofs.Runtime.Completion

/-!
# Values that are checked

A check stands for the first value of its term.
-/

namespace TypedLua

open Target Target.Scoping Generate

/-! ## The code of a check -/

namespace Target.Generate

def boundCheck (x : String) (term predicate : Call) : Call :=
  .single (.last [.bind x (cut term), .run (.call (cut predicate) [.var x] none)] (.var x))

end Target.Generate

/-! ## The value of a check -/

namespace Machine

theorem holder_put (s : Store) (f : Nat) (x : String) (slot : Slot)
    (h : holder s x frames = some f) : holder (s.put (f, x) slot) x frames = some f := by
  obtain ⟨-, old, hold⟩ := holder_some h
  have hself : (s.put (f, x) slot).content (f, x) = some slot := Store.content_put_self (Store.lt_of_content hold)
  induction frames with
  | nil => cases h
  | cons g frames ih =>
    rw [holder] at h ⊢
    by_cases hg : g = f
    · subst hg
      rw [hself]
      rfl
    · -- A frame in front of the holder has no such variable, and the write leaves it alone.
      rw [Store.content_put_of_ne (fun heq => hg (congrArg Prod.fst heq))]
      split at h
      · exact absurd (Option.some.inj h) hg
      · next hnone =>
        rw [if_neg hnone]
        exact ih h

theorem readVar_assign (h : assign env x v s = .ok () s') : readVar env x s' = .ok v s' := by
  rw [assign] at h
  cases hholder : holder s x env.frames with
  | none =>
    rw [assignHolder_of_none _ hholder] at h
    cases h
  | some f =>
    rw [assignHolder_of_holder _ hholder] at h
    cases h
    obtain ⟨-, old, hold⟩ := holder_some hholder
    have hlookup := lookup_of_holder (holder_put s f x (.value v) hholder)
      (Store.content_put_self (Store.lt_of_content hold)) nofun
    rw [readVar, Run.bind_ok hlookup]
    rfl

end Machine

end TypedLua
