import TypedLua.Proofs.Loops.Repetition
import TypedLua.Proofs.Scoping.Generation

/-!
# The two forms of a loop

The rounds of a loop may stand in its suite, or be definitions of their own that the suite enters.
-/

namespace TypedLua

namespace Target.Scoping

open Generate Machine Coupling

/-! ## Loops -/

inductive Header where
  | whenever (condition : Cond)
  | forever
  | range (x : String) (start stop : Expr) (step : Option Expr)
  | each (names : List String) (args : List Expr) (tail : Option Tail)

namespace Header

def vars : Header → List String
  | whenever _ | forever => []
  | range x .. => [x]
  | each names .. => names

def names : Header → List String
  | whenever condition => condition.names
  | forever => []
  | range _ start stop step => start.names ++ (stop.names ++ exprsNames step.toList)
  | each _ args tail => exprsNames args ++ tailNames tail

variable {I : Ledger} {w : Pairing} {env1 env2 : Env} {n N : Nat} {suite1 suite2 : List Stmt}

end Header

/-! ## States of a run -/

def Keeps (s : Store) (own : Cell → Prop) (c : Closure) : Prop :=
  c ∈ s.closures.toList ∨ ∃ cell, ¬own cell ∧ s.content cell = some (.iteration c)

def Owned (env : Env) (names : List String) (c : Cell) : Prop := c.1 = top env ∧ c.2 ∈ names

/-- The state of a run at a place of a module: every definition around the place has its frame, with the
variables that it owns, the declarations in scope have been set, and the frames that functions see
exist. -/
structure Reached (s : Store) (env : Env) (p : Place) : Prop where
  inside : p.path ≠ []
  frames : List.Forall₂ (fun f d => f < s.frames.size ∧ ∀ x, (s.content (f, x)).isSome = d.owns x) env.frames p.path
  declared : ∀ {x d}, p.find x = some d → d.Placed env.frames ∧ s.IsSet (d.cell env.frames)
  functions : ∀ {c}, Keeps s (fun _ => False) c → ∀ f ∈ c.env.frames, f < s.frames.size

/-- Names that are new in a state: no declaration in scope has one, and no function that sees the
innermost frame mentions one. -/
structure New (s : Store) (env : Env) (p : Place) (names : List String) : Prop where
  declared : ∀ {x d}, p.find x = some d → d.name ∉ names
  functions : ∀ {c}, Keeps s (Owned env names) c → top env ∈ c.env.frames → ∀ x ∈ c.code.names, x ∉ names

/-- Two stores are the same state, up to variables of the innermost frame with some names. -/
structure SameState (env : Env) (names : List String) (s1 s2 : Store) : Prop where
  heap : s1.heap = s2.heap
  closures : s1.closures = s2.closures
  size : s1.frames.size = s2.frames.size
  content : ∀ {c}, ¬Owned env names c → s1.content c = s2.content c

/-- What is known of the variables of two runs that start in the same state, where each is given
names for variables of its own. -/
def startLedger (s1 s2 : Store) (env : Env) (names1 names2 : List String) : Ledger where
  own1 := Owned env names1
  own2 := Owned env names2
  alone1 _ := False
  alone2 _ := False
  alone_own1 h := h.elim
  alone_own2 h := h.elim
  twins _ _ := False
  twins_own h := h.elim
  twins_injective h := h.elim
  vars1 f := if f < s1.frames.size then some fun x => (s1.content (f, x)).isSome else none
  vars2 f := if f < s2.frames.size then some fun x => (s2.content (f, x)).isSome else none
  filled c1 c2 := s1.IsSet c1 ∧ s2.IsSet c2

def startPairing (s : Store) : Pairing := fun f1 f2 => f1 = f2 ∧ f1 < s.frames.size

section Start

variable {s1 s2 : Store} {env : Env} {p1 p2 : Place} {names1 names2 : List String}

theorem owned_left (h : Owned env names1 c) : Owned env (names1 ++ names2) c :=
  ⟨h.1, List.mem_append_left _ h.2⟩

theorem not_owned_append (h1 : ¬Owned env names1 c) (h2 : ¬Owned env names2 c) :
    ¬Owned env (names1 ++ names2) c :=
  fun h => (List.mem_append.1 h.2).elim (fun hx => h1 ⟨h.1, hx⟩) fun hx => h2 ⟨h.1, hx⟩

theorem Reached.top_lt (h : Reached s1 env p1) : top env < s1.frames.size := by
  have hframes := h.frames
  have hinside := h.inside
  unfold top
  generalize env.frames = frames at hframes
  generalize p1.path = path at hframes hinside
  cases hframes with
  | nil => exact absurd rfl hinside
  | cons hf _ => exact hf.1

theorem sameClosure_start (h : Reached s1 env p1) (hnew : New s1 env p1 (names1 ++ names2))
    (hc : Keeps s1 (Owned env (names1 ++ names2)) c) :
    SameClosure (startLedger s1 s2 env names1 names2) (startPairing s1) c c := by
  have hkeeps : Keeps s1 (fun _ => False) c := hc.imp_right fun ⟨cell, _, hcell⟩ => ⟨cell, id, hcell⟩
  have hframes : List.Forall₂ (startPairing s1) c.env.frames c.env.frames :=
    List.forall₂_same.2 fun f hf => ⟨rfl, h.functions hkeeps f hf⟩
  refine ⟨rfl, rfl, ⟨rfl, rfl, hframes⟩, fun f hf x hx hown => ?_, fun f hf x hx hown => ?_⟩
  · have htop : f = top env := hown.1
    exact hnew.functions hc (htop ▸ hf) x hx (List.mem_append_left _ hown.2)
  · have htop : f = top env := hown.1
    exact hnew.functions hc (htop ▸ hf) x hx (List.mem_append_right _ hown.2)

theorem sameSlot_start (h : Reached s1 env p1) (hnew : New s1 env p1 (names1 ++ names2))
    (hc : ¬Owned env (names1 ++ names2) c) :
    SameSlot (startLedger s1 s2 env names1 names2) (startPairing s1) (s1.content c) (s1.content c) := by
  cases hcontent : s1.content c with
  | none => exact .none
  | some slot =>
    cases slot with
    | unset => exact .unset
    | value v => exact .value v
    | flow f => exact .flow f
    | iteration f => exact .iteration (sameClosure_start h hnew (.inr ⟨c, hc, hcontent⟩))

theorem alike_start (h : Reached s1 env p1) (hnew : New s1 env p1 (names1 ++ names2))
    (hsame : SameState env (names1 ++ names2) s1 s2) :
    Alike (startLedger s1 s2 env names1 names2) (startPairing s1) s1 s2 where
  heap := hsame.heap
  bound hf := ⟨hf.2, hsame.size ▸ hf.1 ▸ hf.2⟩
  injective := by
    rintro f1 f2 g1 g2 ⟨rfl, -⟩ ⟨rfl, -⟩
    exact Iff.rfl
  same := by
    rintro f1 f2 ⟨rfl, -⟩ x hx1 hx2
    have hx := not_owned_append hx1 hx2
    rw [← hsame.content hx]
    exact sameSlot_start h hnew hx
  closures := by
    rw [← hsame.closures]
    exact List.forall₂_same.2 fun c hc => sameClosure_start h hnew (.inl hc)
  twins hc := hc.elim
  filled hc := hc
  vars1 := by
    intro f has hf
    simp only [startLedger] at hf
    split at hf
    · next hlt =>
      cases hf
      exact ⟨hlt, fun _ => rfl⟩
    · cases hf
  vars2 := by
    intro f has hf
    simp only [startLedger] at hf
    split at hf
    · next hlt =>
      cases hf
      exact ⟨hlt, fun _ => rfl⟩
    · cases hf
  own1 hc := hc.1 ▸ h.top_lt
  own2 hc := hc.1 ▸ hsame.size ▸ h.top_lt
  alone1 _ halone := halone
  alone2 _ halone := halone

theorem views_start (h : Reached s1 env p1) (hnames : ∀ x ∈ names, x ∉ names1 ++ names2) :
    Views (startLedger s1 s2 env names1 names2) (startPairing s1) env env names where
  env := by
    have hframes : ∀ f ∈ env.frames, f < s1.frames.size := by
      have hall := h.frames
      generalize env.frames = frames at hall
      generalize p1.path = path at hall
      induction hall with
      | nil => exact List.forall_mem_nil _
      | cons hf _ ih => exact List.forall_mem_cons.2 ⟨hf.1, ih⟩
    exact ⟨rfl, rfl, List.forall₂_same.2 fun f hf => ⟨rfl, hframes f hf⟩⟩
  apart1 _ _ x hx hown := hnames x hx (List.mem_append_left _ hown.2)
  apart2 _ _ x hx hown := hnames x hx (List.mem_append_right _ hown.2)

end Start

/-! ## Both forms -/

/-- The store of the chunk before the loop, where its variables are not set. -/
def nestingStore (own : List String) : Store := { tables := #[{}], frames := #[own.map (·, .unset)] }

theorem nestingStore_content (own : List String) (c : Cell) :
    (nestingStore own).content c = if c.1 = 0 ∧ c.2 ∈ own then some .unset else none := by
  obtain ⟨f, x⟩ := c
  rw [Store.content]
  cases f with
  | zero =>
    change (own.map (·, Slot.unset)).lookup x = _
    induction own with
    | nil => simp
    | cons y own ih =>
      rw [List.map_cons, List.lookup_cons, ih]
      by_cases hx : x = y
      · simp [hx]
      · simp [hx, beq_false_of_ne hx]
  | succ f => simp [nestingStore]

theorem nestingStore_keeps {other : Cell → Prop} : ¬Keeps (nestingStore own) other c := by
  rintro (hc | ⟨cell, -, hc⟩)
  · simp [nestingStore] at hc
  · rw [nestingStore_content] at hc
    split at hc <;> cases hc

theorem nestingStore_reached (hown : (chunkDef body).own = own) :
    Reached (nestingStore own) ⟨0, [], [0]⟩ ⟨[chunkDef body], [], 0, false⟩ := by
  refine ⟨by simp, .cons ⟨by simp [nestingStore], fun x => ?_⟩ .nil, nofun, fun hc => absurd hc nestingStore_keeps⟩
  rw [nestingStore_content, Def.owns, hown]
  by_cases hx : x ∈ own <;> simp [hx, chunkDef, Def.params]

end Target.Scoping

end TypedLua
