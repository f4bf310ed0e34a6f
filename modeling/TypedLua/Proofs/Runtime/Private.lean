import TypedLua.Proofs.Loops.Forms

/-!
# Variables that only the code at hand knows

A temporary of a statement is a variable of the innermost frame that no function mentions.
-/

namespace TypedLua

namespace Run

theorem bind_steps {α β : Type} {first : Run α} {next next' : α → Run β} {s : Store}
    (h : ∀ a s', first s = .ok a s' → next a s' = next' a s') : (first >>= next) s = (first >>= next') s := by
  cases hfirst : first s with
  | ok a s' => rw [Run.bind_ok hfirst, Run.bind_ok hfirst, h a s' hfirst]
  | error e s' => rw [Run.bind_error hfirst, Run.bind_error hfirst]

end Run

namespace Target.Scoping

open Generate Machine Coupling

abbrev privateLedger (start : Store) (env : Env) (temps : List String) : Ledger :=
  startLedger start start env temps temps

@[reducible] def keeping (start : Store) (env : Env) (temps : List String) (s : Store) :
    Tracking (privateLedger start env temps) where
  Rel w s1 s2 := Alike (privateLedger start env temps) w s1 s2 ∧
    ∀ x ∈ temps, s1.content (top env, x) = s.content (top env, x)
  alike h := h.1
  heap heap h := ⟨h.1.withHeap heap, h.2⟩
  put {_ _ _ c _ _ _} h hown _ halike := by
    refine ⟨halike, fun x hx => ?_⟩
    have hne : (top env, x) ≠ c := fun heq => hown (heq ▸ ⟨rfl, hx⟩)
    rw [Store.content_put_of_ne hne]
    exact h.2 x hx
  closure h halike := ⟨halike, h.2⟩
  frame h halike := ⟨halike, fun x hx => (Store.content_pushFrame_of_lt _ (h.1.own1 ⟨rfl, hx⟩)).trans (h.2 x hx)⟩

/-- A store on the way from the start of a statement, in which the temporaries are still private. -/
structure Private (start : Store) (env : Env) (temps : List String) (s : Store) : Prop where
  alike : ∃ w, SameEnv w env env ∧ Alike (privateLedger start env temps) w s s
  inside : env.frames ≠ []
  held : ∀ x ∈ temps, (s.content (top env, x)).isSome = true

variable {start s s' : Store} {env : Env} {temps : List String} {n : Nat} {α : Type}

theorem Reached.held (h : Reached s env p) (hx : p.Holds [x]) : (s.content (top env, x)).isSome = true := by
  have hframes := h.frames
  have hinside := h.inside
  have hresolve := hx x (List.mem_singleton_self x)
  unfold top
  generalize env.frames = frames at hframes
  generalize p.path = path at hframes hinside hresolve
  cases hframes with
  | nil => exact absurd rfl hinside
  | @cons f d frames path hf _ =>
    refine (hf.2 x).trans ?_
    by_contra hnot
    -- a definition that does not own the variable is skipped
    rw [resolve_cons_of_not_owns hnot] at hresolve
    have hlen := resolve_length_le path x
    rw [hresolve, List.length_cons] at hlen
    omega

theorem private_start (hreached : Reached s env p) (hnew : New s env p temps)
    (hholds : p.Holds temps) : Private s env temps s := by
  have hnew' : New s env p (temps ++ temps) := by
    refine ⟨fun hfind hmem => hnew.declared hfind (by simpa using hmem), fun hc htop x hx hmem => ?_⟩
    refine hnew.functions (hc.imp_right ?_) htop x hx (by simpa using hmem)
    rintro ⟨cell, hcell, hcontent⟩
    exact ⟨cell, fun hown => hcell (owned_left hown), hcontent⟩
  have hviews : Views (privateLedger s env temps) (startPairing s) env env [] :=
    views_start hreached (List.forall_mem_nil _)
  have halike := alike_start hreached hnew' ⟨rfl, rfl, rfl, fun _ => rfl⟩
  refine ⟨⟨startPairing s, hviews.env, halike⟩, ?_, ?_⟩
  · intro hnil
    have hframes := hreached.frames
    rw [hnil] at hframes
    exact hreached.inside (List.forall₂_nil_left_iff.1 hframes)
  · exact fun x hx => hreached.held (hholds.sub (by simpa using hx))

structure Kept (start : Store) (env : Env) (temps : List String) (s s' : Store) : Prop where
  still : Private start env temps s'
  same : ∀ x ∈ temps, s'.content (top env, x) = s.content (top env, x)

namespace Private

theorem views (h : SameEnv w env env) (hnames : ∀ x ∈ names, x ∉ temps) :
    Views (privateLedger start env temps) w env env names :=
  ⟨h, fun _ _ x hx hown => hnames x hx hown.2, fun _ _ x hx hown => hnames x hx hown.2⟩

theorem keeps {a : α} (h : Private start env temps s)
    (hrun : ∀ w, SameEnv w env env → (@Ledger.coupling _ (keeping start env temps s)).Steady w run)
    (hok : run s = .ok a s') : Kept start env temps s s' := by
  obtain ⟨w, henv, halike⟩ := h.alike
  have hagree := hrun w henv (fun _ _ hw => hw) (show _ ∧ _ from ⟨halike, fun _ _ => rfl⟩)
  rw [hok] at hagree
  cases hagree with
  | ok hle hrel =>
    refine ⟨⟨⟨_, henv.mono hle, hrel.1⟩, h.inside, fun x hx => ?_⟩, hrel.2⟩
    rw [hrel.2 x hx]
    exact h.held x hx

theorem evalExpr {e : Expr} (h : Private start env temps s) (hnames : ∀ x ∈ e.names, x ∉ temps)
    (hok : Machine.evalExpr (within n) env e s = .ok v s') : Kept start env temps s s' := by
  let _ := keeping start env temps s
  exact h.keeps (fun w henv => coupled_evalExpr (sameMachine_within (Nat.le_refl n) w) e (views henv hnames)) hok

theorem execStmts (h : Private start env temps s) (hnames : ∀ x ∈ stmtsNames code, x ∉ temps)
    (hok : Machine.execStmts (within n) env code s = .ok signal s') : Kept start env temps s s' := by
  let _ := keeping start env temps s
  exact h.keeps (fun w henv => coupled_execStmts (sameMachine_within (Nat.le_refl n) w) code (views henv hnames)) hok

theorem call {f : Value} {args : List Value} {r : Result} (h : Private start env temps s)
    (hok : (within n).call f args s = .ok r s') : Kept start env temps s s' := by
  let _ := keeping start env temps s
  exact h.keeps (fun w _ => (sameMachine_within (Nat.le_refl n) w).call f args) hok

theorem readVar (h : Private start env temps s)
    (hx : s.content (top env, x) = some (.value v)) : Machine.readVar env x s = .ok v s := by
  obtain ⟨f, frames, hframes⟩ := List.exists_cons_of_ne_nil h.inside
  have htop : top env = f := by rw [top, hframes]; rfl
  rw [htop] at hx
  have hget : Run.slot? f x s = .ok (some (.value v)) s := by
    rw [← hx]
    rfl
  rw [Machine.readVar, hframes, lookup, bind_assoc, Run.bind_ok hget]
  rfl

theorem assign (h : Private start env temps s) (hx : x ∈ temps) (v : Value) :
    Machine.assign env x v s = .ok () (s.put (top env, x) (.value v)) ∧
      (s.put (top env, x) (.value v)).content (top env, x) = some (.value v) ∧
      Private start env temps (s.put (top env, x) (.value v)) := by
  obtain ⟨w, henv, halike⟩ := h.alike
  obtain ⟨f, frames, hframes⟩ := List.exists_cons_of_ne_nil h.inside
  have htop : top env = f := by rw [top, hframes]; rfl
  have hsome := h.held x hx
  have hlt : top env < s.frames.size := halike.own1 (c := (top env, x)) ⟨rfl, hx⟩
  refine ⟨?_, Store.content_put_self hlt, ⟨w, henv, ?_⟩, h.inside, fun y hy => ?_⟩
  · refine assignHolder_of_holder _ ?_
    rw [hframes, holder, ← htop, if_pos hsome]
  · have hset : Slot.value v ≠ .unset := by simp
    have hfirst := halike.put_first ⟨rfl, hx⟩ (fun _ => id) hsome hset
    exact hfirst.put_second ⟨rfl, hx⟩ (fun _ => id) hsome hset
  · by_cases heq : y = x
    · rw [heq, Store.content_put_self hlt]
      rfl
    · rw [Store.content_put_of_ne fun hcell => heq (congrArg Prod.snd hcell)]
      exact h.held y hy

end Private

end Target.Scoping

end TypedLua
