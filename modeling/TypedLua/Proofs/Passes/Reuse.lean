import TypedLua.Annotation.Instrument
import TypedLua.Target.Generate
import TypedLua.Target.Render

/-!
# Objects that serve many units

The two passes are carried out by objects that are used again: one that inserts checks, and one that
generates the text of modules.
-/

namespace TypedLua

/-! ## Objects and what they answer -/

/-- An object takes inputs one after the other; `step` relates it to the outcome of an input and to the
object that is left. -/
inductive Reuse {σ ι ρ : Type} (step : σ → ι → ρ → σ → Prop) : σ → List ι → List ρ → σ → Prop where
  | done (o : σ) : Reuse step o [] [] o
  | next {o o1 o2 : σ} {x : ι} {r : ρ} {xs : List ι} {rs : List ρ} (first : step o x r o1)
      (rest : Reuse step o1 xs rs o2) : Reuse step o (x :: xs) (r :: rs) o2

namespace Reuse

variable {σ ι ρ : Type} {step : σ → ι → ρ → σ → Prop}

/-- Objects of a kind that a step preserves, and from which it answers the same for all of them, answer
the same over any sequence. -/
theorem outcomes {good : σ → Prop} {answer : ι → ρ}
    (hstep : ∀ o x r o', good o → step o x r o' → r = answer x ∧ good o') {o o' : σ}
    (ho : good o) (h : Reuse step o xs rs o') : rs = xs.map answer ∧ good o' := by
  induction h with
  | done o => exact ⟨rfl, ho⟩
  | next first rest ih =>
    obtain ⟨rfl, hmid⟩ := hstep _ _ _ _ ho first
    obtain ⟨rfl, hend⟩ := ih hmid
    exact ⟨rfl, hend⟩

theorem exists_run (hstep : ∀ o x, ∃ r o', step o x r o') (o : σ) (xs : List ι) : ∃ rs o', Reuse step o xs rs o' := by
  induction xs generalizing o with
  | nil => exact ⟨[], o, .done o⟩
  | cons x xs ih =>
    obtain ⟨r, o1, first⟩ := hstep o x
    obtain ⟨rs, o2, rest⟩ := ih o1
    exact ⟨r :: rs, o2, .next first rest⟩

end Reuse

/-! ## The object that inserts checks -/

inductive Instrumenter.Failure where
  | malformed (e : Malformed)
  /-- A walk came to its end with scopes or result types that nobody closed. -/
  | unbalanced

structure Instrumenter where
  enabled : Bool
  registry : String
  stem : String
  scopes : Scopes Expr
  results : List (Option Expr)
  checks : Nat
  names : Supply

namespace Instrumenter

def new (enabled : Bool) (registry stem : String) : Instrumenter := ⟨enabled, registry, stem, [], [], 0, .new stem []⟩

/-- The object before a walk over a chunk: the count and the names start anew. -/
def prepared (o : Instrumenter) (c : Chunk) : Instrumenter := { o with checks := 0, names := .new o.stem c.names }

/-- A walk over a chunk, with the scopes and result types that the object holds. -/
def walk (o : Instrumenter) (c : Chunk) : Except Failure (Chunk × Instrument.State) :=
  match Instrument.block ⟨o.registry, o.results.head?.join, o.scopes⟩ c.body ⟨o.names, o.checks⟩ with
  | .error e => .error (.malformed e)
  | .ok (body, st) => if o.scopes.isEmpty && o.results.isEmpty then .ok ({ c with body }, st) else .error .unbalanced

/-- The answer to a chunk: the chunk with checks and their number, or the chunk without annotations. -/
def outcome (o : Instrumenter) (c : Chunk) : Except Failure (Chunk × Nat) :=
  if o.enabled then ((o.prepared c).walk c).map fun r => (r.1, r.2.checks) else .ok (c.erase, o.checks)

/-- The object after a walk, wherever that ended: scopes and result types are dropped. -/
def closed (o : Instrumenter) : Instrumenter := { o with scopes := [], results := [] }

inductive Leaves (o : Instrumenter) (c : Chunk) : Instrumenter → Prop where
  | erased (h : o.enabled = false) : Leaves o c o
  | walked {c' : Chunk} {st : Instrument.State} (h : o.enabled = true)
      (hwalk : (o.prepared c).walk c = .ok (c', st)) :
      Leaves o c (closed { o with checks := st.checks, names := st.names })
  | failed {e : Failure} (h : o.enabled = true) (hwalk : (o.prepared c).walk c = .error e)
      (scopes : Scopes Expr) (results : List (Option Expr)) (checks : Nat) (names : Supply) :
      Leaves o c (closed { o with scopes, results, checks, names })

def Transforms (o : Instrumenter) (c : Chunk) (r : Except Failure (Chunk × Nat)) (o' : Instrumenter) : Prop :=
  r = o.outcome c ∧ o.Leaves c o'

structure Idle (enabled : Bool) (registry stem : String) (o : Instrumenter) : Prop where
  enabled_eq : o.enabled = enabled
  registry_eq : o.registry = registry
  stem_eq : o.stem = stem
  scopes_eq : o.scopes = []
  results_eq : o.results = []
  checks_eq : enabled = false → o.checks = 0

variable {enabled : Bool} {registry stem : String} {o o' : Instrumenter}

theorem idle_new : (new enabled registry stem).Idle enabled registry stem := ⟨rfl, rfl, rfl, rfl, rfl, fun _ => rfl⟩

theorem Idle.outcome (h : o.Idle enabled registry stem) (c : Chunk) :
    o.outcome c = (c.prepare enabled registry stem).mapError .malformed := by
  obtain ⟨enabled', registry', stem', scopes, results, checks, names⟩ := o
  obtain ⟨rfl, rfl, rfl, rfl, rfl, hchecks⟩ := h
  unfold Instrumenter.outcome Chunk.prepare
  cases enabled' with
  | false =>
    cases hchecks rfl
    rfl
  | true =>
    simp only [↓reduceIte, walk, prepared, Instrument.chunk, List.head?_nil, Option.join_none]
    cases Instrument.block ⟨registry', none, []⟩ c.body ⟨.new stem' c.names, 0⟩ <;> rfl

theorem Idle.leaves (h : o.Idle enabled registry stem) (hleaves : o.Leaves c o') :
    o'.Idle enabled registry stem := by
  -- The count of an object that only erases is never set.
  have hcount (hon : o.enabled = true) (n : Nat) (hoff : enabled = false) : n = 0 := by
    rw [h.enabled_eq, hoff] at hon
    cases hon
  cases hleaves with
  | erased => exact h
  | walked hon => exact ⟨h.enabled_eq, h.registry_eq, h.stem_eq, rfl, rfl, hcount hon _⟩
  | failed hon => exact ⟨h.enabled_eq, h.registry_eq, h.stem_eq, rfl, rfl, hcount hon _⟩

theorem exists_transforms (o : Instrumenter) (c : Chunk) : ∃ r o', o.Transforms c r o' := by
  refine ⟨o.outcome c, ?_⟩
  cases henabled : o.enabled with
  | false => exact ⟨o, rfl, .erased henabled⟩
  | true =>
    cases hwalk : (o.prepared c).walk c with
    | ok r => exact ⟨_, rfl, .walked henabled hwalk⟩
    | error e => exact ⟨_, rfl, .failed henabled hwalk o.scopes o.results o.checks o.names⟩

end Instrumenter

/-! ## The object that generates text -/

structure Generator.Open where
  depth : Nat
  nonlocals : List String
  loops : Nat
  inIteration : Bool

structure Generator where
  indent : Nat
  header : Bool
  level : Nat
  output : List String
  used : List String
  scopes : List Target.Generate.Names
  functions : List Generator.Open

namespace Generator

def new (indent : Nat) (header : Bool) : Generator := ⟨indent, header, 0, [], [], [], []⟩

def reset (g : Generator) : Generator :=
  { g with level := 0, output := [], used := [], scopes := [], functions := [] }

/-- The object at the start of a module: the definition being generated is the one of the chunk. -/
def started (g : Generator) : Generator := { g.reset with functions := [⟨0, [], 0, false⟩] }

/-- Writes the module of a chunk behind the lines that the object holds, inside the innermost of its
definitions. -/
def write (g : Generator) (c : Chunk) (name : String) :
    Except Target.GenerateFailure (List String × Target.Generate.State) :=
  let function := g.functions.headD ⟨0, [], 0, false⟩
  match Target.Generate.blockSuite ⟨g.scopes, function.depth, function.loops, function.inIteration⟩ c.body
      ⟨g.used, [], function.nonlocals⟩ with
  | .error e => .error e
  | .ok (suite, st) =>
    let lines := (Target.Module.mk suite).lines (if g.header then some name else none)
    .ok (g.output ++ lines.map fun line => Target.Line.render g.indent ⟨g.level + line.level, line.text⟩, st)

def outcome (g : Generator) (unit : Chunk × String) : Except Target.GenerateFailure String :=
  (g.started.write unit.1 unit.2).map fun r => "\n".intercalate r.1 ++ "\n"

inductive Leaves (g : Generator) (unit : Chunk × String) : Generator → Prop where
  | written {lines : List String} {st : Target.Generate.State}
      (hwrite : g.started.write unit.1 unit.2 = .ok (lines, st)) :
      Leaves g unit { g.reset with output := lines, used := st.used }
  /-- Nothing is known of where the generation of a module stopped that failed. -/
  | failed {e : Target.GenerateFailure} (hwrite : g.started.write unit.1 unit.2 = .error e) (level : Nat)
      (output used : List String) (scopes : List Target.Generate.Names) (functions : List Open) :
      Leaves g unit { g with level, output, used, scopes, functions }

def Generates (g : Generator) (unit : Chunk × String) (r : Except Target.GenerateFailure String)
    (g' : Generator) : Prop :=
  r = g.outcome unit ∧ g.Leaves unit g'

variable {g g' : Generator}

theorem outcome_eq (g : Generator) (unit : Chunk × String) : g.outcome unit = (Target.generate unit.1).map
      (·.render g.indent (if g.header then some unit.2 else none)) := by
  unfold outcome write started reset Target.generate
  dsimp only [List.headD_cons]
  cases Target.Generate.blockSuite ⟨[], 0, 0, false⟩ unit.1.body ⟨[], [], []⟩ with
  | error e => rfl
  | ok r => simp [Except.map, Target.Module.render]

theorem Leaves.settings (h : g.Leaves unit g') : g'.indent = g.indent ∧ g'.header = g.header := by
  cases h <;> exact ⟨rfl, rfl⟩

theorem exists_generates (g : Generator) (unit : Chunk × String) : ∃ r g', g.Generates unit r g' := by
  refine ⟨g.outcome unit, ?_⟩
  cases hwrite : g.started.write unit.1 unit.2 with
  | ok r => exact ⟨_, rfl, .written hwrite⟩
  | error e => exact ⟨g, rfl, .failed hwrite g.level g.output g.used g.scopes g.functions⟩

end Generator

/-! ## Nothing is carried over -/

/-- Over any sequence of chunks, some of which may fail, an object of either pass answers each as a new
object would, which is what the pass itself says of the chunk. After each chunk, failed or not, the object
that inserts checks has no scope open and no result type in wait. -/
theorem passes_carry_nothing (enabled : Bool) (registry stem : String) (indent : Nat) (header : Bool) :
    (∀ cs : List Chunk, (∃ rs o, Reuse Instrumenter.Transforms (.new enabled registry stem) cs rs o) ∧
      ∀ rs o, Reuse Instrumenter.Transforms (.new enabled registry stem) cs rs o →
        rs = cs.map (Instrumenter.new enabled registry stem).outcome ∧ o.scopes = [] ∧ o.results = []) ∧
    (∀ units : List (Chunk × String), (∃ rs g, Reuse Generator.Generates (.new indent header) units rs g) ∧
      ∀ rs g, Reuse Generator.Generates (.new indent header) units rs g →
        rs = units.map (Generator.new indent header).outcome) ∧
    (∀ c, (Instrumenter.new enabled registry stem).outcome c =
      (c.prepare enabled registry stem).mapError .malformed) ∧
    ∀ unit, (Generator.new indent header).outcome unit =
      (Target.generate unit.1).map (·.render indent (if header then some unit.2 else none)) := by
  refine ⟨?_, ?_, Instrumenter.idle_new.outcome, (Generator.new indent header).outcome_eq⟩
  · intro cs
    refine ⟨Reuse.exists_run Instrumenter.exists_transforms _ cs, ?_⟩
    intro rs o hrun
    have hstep (o : Instrumenter) (c : Chunk) (r : Except Instrumenter.Failure (Chunk × Nat))
        (o' : Instrumenter) (ho : o.Idle enabled registry stem) (h : o.Transforms c r o') :
        r = (Instrumenter.new enabled registry stem).outcome c ∧ o'.Idle enabled registry stem := by
      obtain ⟨rfl, hleaves⟩ := h
      exact ⟨by rw [ho.outcome, Instrumenter.idle_new.outcome], ho.leaves hleaves⟩
    obtain ⟨hrs, ho⟩ := Reuse.outcomes hstep Instrumenter.idle_new hrun
    exact ⟨hrs, ho.scopes_eq, ho.results_eq⟩
  · intro units
    refine ⟨Reuse.exists_run Generator.exists_generates _ units, ?_⟩
    intro rs g hrun
    -- the generator resets all that it reads, so its settings are all that has to last
    have hstep (g : Generator) (unit : Chunk × String) (r : Except Target.GenerateFailure String)
        (g' : Generator) (hg : g.indent = indent ∧ g.header = header) (h : g.Generates unit r g') :
        r = (Generator.new indent header).outcome unit ∧ g'.indent = indent ∧ g'.header = header := by
      obtain ⟨rfl, hleaves⟩ := h
      obtain ⟨hindent, hheader⟩ := hleaves.settings
      rw [Generator.outcome_eq, Generator.outcome_eq, hg.1, hg.2, hindent, hheader]
      exact ⟨rfl, hg⟩
    exact (Reuse.outcomes hstep ⟨rfl, rfl⟩ hrun).1

end TypedLua
