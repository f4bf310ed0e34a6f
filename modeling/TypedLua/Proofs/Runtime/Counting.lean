import TypedLua.Machine

/-!
# Counting loops

A loop over integers runs its body for the terms of an arithmetic progression, in order, up to the last one that is
not beyond the limit. It always ends. Bounds that are no numbers and a step of zero are refused before the first
round.
-/

namespace TypedLua

namespace Operator.Progression

/-- The number of terms from a start up to a limit; none if the limit is on the other side of the start. -/
def count (start stop step : Int) : Nat := (max 0 ((stop - start).fdiv step + 1)).toNat

def terms (start step : Int) (count : Nat) : List Number := (List.range count).map fun (k : Nat) => .int (start + k * step)

def Reaches (step value stop : Int) : Prop := (0 < step ∧ value ≤ stop) ∨ (step < 0 ∧ stop ≤ value)

variable {start stop step : Int}

theorem within_iff (value : Int) :
    within ⟨.int start, .int stop, .int step⟩ (.int value) = true ↔ Reaches step value stop := by
  have hlt (a b : Int) : (Number.int a).lt (.int b) = true ↔ a < b := by
    simp [Number.lt, Number.compare?, Int.compare_eq_lt]
  have hle (a b : Int) : (Number.int a).le (.int b) = true ↔ a ≤ b := by
    rw [Number.le, Number.compare?]
    rcases Int.lt_trichotomy a b with h | rfl | h
    · simp [Int.compare_eq_lt.2 h]
      omega
    · simp
    · simp [Int.compare_eq_gt.2 h]
      omega
  simp only [within, Bool.or_eq_true, Bool.and_eq_true, hlt, hle, Reaches]

theorem reaches_iff (hstep : step ≠ 0) (k : Nat) : Reaches step (start + k * step) stop ↔ k < count start stop step := by
  have hcount : k < count start stop step ↔ (k : Int) ≤ (stop - start).fdiv step := by
    unfold count
    omega
  rw [hcount, Reaches]
  rcases Int.lt_or_gt_of_ne hstep with h | h
  · -- Counting down is counting up on the other side of zero.
    rw [← Int.neg_fdiv_neg, Int.fdiv_eq_ediv_of_nonneg _ (by omega), Int.le_ediv_iff_mul_le (by omega), Int.mul_neg]
    omega
  · rw [Int.fdiv_eq_ediv_of_nonneg _ (by omega), Int.le_ediv_iff_mul_le h]
    omega

theorem within_term (hstep : step ≠ 0) (k : Nat) :
    within ⟨.int start, .int stop, .int step⟩ (.int (start + k * step)) = true ↔ k < count start stop step :=
  (within_iff _).trans (reaches_iff hstep k)

theorem advance_term (k : Nat) :
    advance (.int (start + k * step)) (.int step) = .ok (.int (start + (k + 1 : Nat) * step)) := by
  rw [Int.natCast_succ, Int.add_mul, Int.one_mul, ← Int.add_assoc]
  rfl

theorem valuesFrom_term (hstep : step ≠ 0) (limit k : Nat) :
    valuesFrom ⟨.int start, .int stop, .int step⟩ limit (.int (start + k * step)) =
      .ok ((List.range' k (min limit (count start stop step - k))).map fun (i : Nat) => .int (start + i * step),
        decide (limit < count start stop step - k)) := by
  induction limit generalizing k with
  | zero =>
    rw [valuesFrom, Nat.zero_min, Bool.eq_iff_iff.2 ((within_term hstep k).trans (by rw [decide_eq_true_iff]; omega) :
      _ ↔ decide (0 < count start stop step - k) = true)]
    rfl
  | succ limit ih =>
    rw [valuesFrom]
    by_cases hk : k < count start stop step
    · have hrest := ih (k + 1)
      rw [if_pos ((within_term hstep k).2 hk), advance_term]
      show (valuesFrom _ limit (.int (start + (k + 1 : Nat) * step))).bind _ = _
      rw [hrest, show min (limit + 1) (count start stop step - k) = min limit (count start stop step - (k + 1)) + 1 by omega,
        List.range'_succ]
      simp only [Except.bind, List.map_cons, pure, Except.pure, Except.ok.injEq, Prod.mk.injEq, true_and, decide_eq_decide]
      omega
    · rw [if_neg (fun h => hk ((within_term hstep k).1 h)), show count start stop step - k = 0 by omega]
      rfl

end Operator.Progression

namespace Machine

open Operator Progression

/-- Runs a body for values, one after the other, until it says how to go on. -/
def forEach (body : Number → Run Signal) : List Number → Run Signal
  | [] => return .next
  | v :: vs => do
    match afterBody (← body v) with
    | some signal => return signal
    | none => forEach body vs

def countingLoop (start stop step : Value) (body : Number → Run Signal) (bound : Nat) : Run Signal := do
  let p ← Run.lift (Progression.make start stop step)
  counting p body bound p.start

variable {start stop step : Int}

theorem counting_term (hstep : step ≠ 0) (body : Number → Run Signal) {n k : Nat} (hn : count start stop step - k < n) :
    counting ⟨.int start, .int stop, .int step⟩ body n (.int (start + k * step)) =
      forEach body ((List.range' k (count start stop step - k)).map fun (i : Nat) => .int (start + i * step)) := by
  induction n generalizing k with
  | zero => exact absurd hn (Nat.not_lt_zero _)
  | succ n ih =>
    rw [counting]
    by_cases hk : k < count start stop step
    · rw [if_pos ((within_term hstep k).2 hk), show count start stop step - k = count start stop step - (k + 1) + 1 by omega,
        List.range'_succ, List.map_cons, forEach]
      congr 1
      funext signal
      cases afterBody signal with
      | some signal => rfl
      | none =>
        simp only [advance_term]
        exact ih (by omega)
    · rw [if_neg (fun h => hk ((within_term hstep k).1 h)), show count start stop step - k = 0 by omega]
      rfl

theorem countingLoop_terms (hstep : step ≠ 0) (body : Number → Run Signal) {n : Nat} (hn : count start stop step < n)
    (store : Store) : countingLoop (.int start) (.int stop) (.int step) body n store =
      forEach body (terms start step (count start stop step)) store := by
  have hmake : Progression.make (.int start) (.int stop) (.int step) = .ok ⟨.int start, .int stop, .int step⟩ :=
    if_neg (by simpa [Number.isZero] using hstep)
  have hloop := @counting_term start stop step hstep body n 0 hn
  rw [countingLoop, hmake]
  show counting _ body n (.int start) store = _
  rw [Int.natCast_zero, Int.zero_mul, Int.add_zero] at hloop
  rw [hloop, terms, List.range_eq_range']
  rfl

/-- Bounds that no loop can have: one of them is no number, or the step is zero. -/
def IsNoLoop (start stop step : Value) : Prop :=
  (∀ n, start ≠ .number n) ∨ (∀ n, stop ≠ .number n) ∨ (∀ n, step ≠ .number n) ∨ ∃ n, step = .number n ∧ n.isZero = true

theorem make_of_isNoLoop {start stop step : Value} (h : IsNoLoop start stop step) :
    ∃ c, Progression.make start stop step = .error (.complaint c) := by
  have hbound (which : String) (v : Value) :
      (∃ n, v = .number n) ∨ loopBound which v = .error (.complaint (.loopBound which)) := by
    cases v with
    | number n => exact .inl ⟨n, rfl⟩
    | _ => exact .inr rfl
  unfold Progression.make
  rcases hbound "initial" start with ⟨a, rfl⟩ | hstart
  · rcases hbound "limit" stop with ⟨b, rfl⟩ | hstop
    · rcases hbound "step" step with ⟨c, rfl⟩ | hstep
      · have hzero : c.isZero = true := by
          rcases h with h | h | h | ⟨n, hn, hzero⟩
          · exact absurd rfl (h a)
          · exact absurd rfl (h b)
          · exact absurd rfl (h c)
          · cases hn
            exact hzero
        exact ⟨.loopStep, if_pos hzero⟩
      · exact ⟨_, by rw [hstep]; rfl⟩
    · exact ⟨_, by rw [hstop]; rfl⟩
  · exact ⟨_, by rw [hstart]; rfl⟩

/-- **Counting loops run an arithmetic progression.** A loop over integers with a step other than zero delivers the
terms `start`, `start + step`, ... up to the last one that is on the side of the start or equal to the limit, and
ends; its body runs for exactly these. A loop with bounds that are no numbers, or with a step of zero, fails before
its body runs. The loops of the code are such loops. -/
theorem loops_run_progressions :
    (∀ start stop step : Int, step ≠ 0 → ∃ p, Progression.make (.int start) (.int stop) (.int step) = .ok p ∧
      (∀ limit, p.values limit = .ok (terms start step (min limit (count start stop step)),
        decide (limit < count start stop step))) ∧
      (∀ k : Nat, k < count start stop step ↔ Reaches step (start + k * step) stop) ∧
      ∀ body n store, count start stop step < n → countingLoop (.int start) (.int stop) (.int step) body n store =
        forEach body (terms start step (count start stop step)) store) ∧
    (∀ start stop step : Value, IsNoLoop start stop step → ∃ c, Progression.make start stop step = .error (.complaint c) ∧
      ∀ body n store, countingLoop start stop step body n store = .error (.fault (.complaint c)) store) ∧
    ∀ m env x start stop step body, execStmt m env (.forRange x start stop step body) = (do
      let start ← evalExpr m env start
      let stop ← evalExpr m env stop
      let step ← (step.elim (pure (.int 1)) (evalExpr m env))
      countingLoop start stop step (fun value => do
        assign env x (.number value)
        execStmts m env body) m.bound) := by
  refine ⟨fun start stop step hstep => ⟨⟨.int start, .int stop, .int step⟩, if_neg (by simpa [Number.isZero] using hstep),
    fun limit => ?_, fun k => (reaches_iff hstep k).symm, fun body n store hn => countingLoop_terms hstep body hn store⟩,
    fun start stop step h => ?_, fun m env x start stop step body => ?_⟩
  · have hvalues := @valuesFrom_term start stop step hstep limit 0
    rw [Int.natCast_zero, Int.zero_mul, Int.add_zero, Nat.sub_zero, ← List.range_eq_range'] at hvalues
    exact hvalues
  · obtain ⟨c, hmake⟩ := make_of_isNoLoop h
    refine ⟨c, hmake, fun body n store => ?_⟩
    rw [countingLoop, hmake]
    rfl
  · rw [execStmt]
    cases step <;> rfl

/-- A loop that counts down and does not meet its limit, and one whose limit is a string. -/
theorem loops_run_progressions_down : (∃ p, Progression.make (.int 10) (.int 0) (.int (-3)) = .ok p ∧
    p.values 9 = .ok ([.int 10, .int 7, .int 4, .int 1], false)) ∧ IsNoLoop (.int 1) (.string "2") (.int 1) ∧
      ∃ c, Progression.make (.int 1) (.string "2") (.int 1) = .error (.complaint c) := by
  obtain ⟨p, hmake, hvalues, -⟩ := loops_run_progressions.1 10 0 (-3) (by decide)
  have hno : IsNoLoop (.int 1) (.string "2") (.int 1) := .inr (.inl fun _ h => by cases h)
  obtain ⟨c, hfail, -⟩ := loops_run_progressions.2.1 _ _ _ hno
  exact ⟨⟨p, hmake, hvalues 9⟩, hno, c, hfail⟩

end Machine

end TypedLua
