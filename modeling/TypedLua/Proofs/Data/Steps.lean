import TypedLua.Token

/-!
# Steps with a state

Parsing, the insertion of checks and the generation of code are sequences of steps that carry a
state along and may fail.
-/

namespace TypedLua

variable {σ ε α β : Type} {p : StateT σ (Except ε) α} {f : α → StateT σ (Except ε) β} {s r : σ}

theorem bind_run {a : α} (h : p s = .ok (a, r)) : (p >>= f) s = f a r := by
  simp only [bind, StateT.bind, Except.bind, h]

theorem bind_error {e : ε} (h : p s = .error e) : (p >>= f) s = .error e := by
  simp only [bind, StateT.bind, Except.bind, h]

theorem bind_ok {b : β} (h : (p >>= f) s = .ok (b, r)) : ∃ a s1, p s = .ok (a, s1) ∧ f a s1 = .ok (b, r) := by
  cases hp : p s with
  | ok r => exact ⟨r.1, r.2, rfl, bind_run (f := f) hp ▸ h⟩
  | error e =>
    rw [bind_error hp] at h
    cases h

theorem pure_ok {a b : α} (h : (pure a : StateT σ (Except ε) α) s = .ok (b, r)) : a = b ∧ s = r := by
  cases h
  exact ⟨rfl, rfl⟩

end TypedLua
