import TypedLua.Proofs.Scoping.Rename
import TypedLua.Proofs.Scoping.Uses

/-!
# Scoping under renaming

A module that respects scoping still does so when its variables are renamed, as long as the renaming
keeps the names that the module was given apart.
-/

namespace TypedLua.Target.Scoping

open Generate

def Decl.rename (f : String → String) (d : Decl) : Decl := ⟨d.source, f d.name, d.home.map (·.rename f)⟩

def Place.rename (f : String → String) (p : Place) : Place :=
  ⟨p.path.map (·.rename f), p.scope.map (·.rename f), p.loops, p.inIteration⟩

def ownNames (d : Def) : List String := d.params ++ (stmtsBound d.body ++ d.nonlocals)

/-- Names that a renaming keeps apart cover a place with code: the names that the code was given, the
declarations that it sees, and what the definitions around it bind. -/
structure Covers (f : String → String) (S : List String) (p : Place) (given : List String) : Prop where
  injective : Set.InjOn f {x | x ∈ S}
  given : given ⊆ S
  scope : ∀ {y d}, p.find y = some d → d.name ∈ S
  path : ∀ d ∈ p.path, ownNames d ⊆ S

section Names

variable {f : String → String} {S : List String}

theorem mem_map_iff_of_injOn (hf : Set.InjOn f {x | x ∈ S}) (hl : l ⊆ S)
    (hx : x ∈ S) : f x ∈ l.map f ↔ x ∈ l := by
  constructor
  · intro h
    obtain ⟨y, hy, heq⟩ := List.mem_map.1 h
    exact hf (hl hy) hx heq ▸ hy
  · exact List.mem_map_of_mem

theorem owns_rename (hf : Set.InjOn f {x | x ∈ S}) (hd : ownNames d ⊆ S)
    (hx : x ∈ S) : (d.rename f).owns (f x) = d.owns x := by
  simp only [ownNames, List.append_subset] at hd
  rw [Bool.eq_iff_iff, Def.owns_iff, Def.owns_iff, Def.rename_params, Def.rename_body,
    Def.rename_nonlocals, renameStmts_bound, mem_map_iff_of_injOn hf hd.1 hx,
    mem_map_iff_of_injOn hf hd.2.1 hx, mem_map_iff_of_injOn hf hd.2.2 hx]

theorem resolve_rename (hf : Set.InjOn f {x | x ∈ S}) (hpath : ∀ d ∈ path, ownNames d ⊆ S) (hx : x ∈ S) :
    resolve (path.map (·.rename f)) (f x) = (resolve path x).map (·.rename f) := by
  induction path with
  | nil => rfl
  | cons d path ih =>
    have howns := owns_rename hf (hpath d List.mem_cons_self) hx
    have ih' := ih fun d hd => hpath d (List.mem_cons_of_mem _ hd)
    by_cases h : d.owns x = true
    · rw [resolve_cons_of_owns h, List.map_cons, resolve_cons_of_owns (howns.trans h)]
    · rw [resolve_cons_of_not_owns h, List.map_cons, resolve_cons_of_not_owns (howns ▸ h), ih']

variable {p : Place}

theorem find_rename (p : Place) (x : String) : (p.rename f).find x = (p.find x).map (·.rename f) := by
  rw [Place.find, Place.find, Place.rename, List.find?_map]
  rfl

@[simp] theorem rename_inIteration (p : Place) : (p.rename f).inIteration = p.inIteration := rfl

@[simp] theorem declare_rename (p : Place) (x name : String) :
    (p.declare x name).rename f = (p.rename f).declare x (f name) :=
  rfl

theorem declareAll_rename (p : Place) (pairs : List (String × String)) :
    (p.declareAll pairs).rename f = (p.rename f).declareAll (pairs.map (Prod.map id f)) := by
  induction pairs generalizing p with
  | nil => rfl
  | cons pair pairs ih => exact ih _

theorem inside_rename (p : Place) (d : Def) (inIteration : Bool) :
    (p.inside d inIteration).rename f = (p.rename f).inside (d.rename f) inIteration :=
  rfl

theorem Place.Holds.rename (h : p.Holds names)
    (hp : Covers f S p names) : (p.rename f).Holds (names.map f) := by
  intro y hy
  obtain ⟨x, hx, rfl⟩ := List.mem_map.1 hy
  exact (resolve_rename hp.injective hp.path (hp.given hx)).trans (congrArg _ (h x hx))

theorem Place.Reaches.rename (h : p.Reaches d) (hfind : p.find x = some d) (hp : Covers f S p given) :
    (p.rename f).find x = some (d.rename f) ∧ (p.rename f).Reaches (d.rename f) := by
  refine ⟨by rw [find_rename, hfind, Option.map_some], ?_⟩
  exact (resolve_rename hp.injective hp.path (hp.scope hfind)).trans (congrArg _ h)

theorem sees_rename : (p.rename f).Sees y ↔ ∃ x, p.Sees x ∧ f x = y := by
  constructor
  · rintro ⟨s, d, hs, rfl⟩
    rw [find_rename] at hs
    obtain ⟨d', hd', rfl⟩ := Option.map_eq_some_iff.1 hs
    exact ⟨d'.name, ⟨s, d', hd', rfl⟩, rfl⟩
  · rintro ⟨x, ⟨s, d, hs, rfl⟩, rfl⟩
    exact ⟨s, d.rename f, by rw [find_rename, hs]; rfl, rfl⟩

theorem LeavesOuter.rename (h : LeavesOuter p d given)
    (hp : Covers f S p given) (hd : ownNames d ⊆ S) : LeavesOuter (p.rename f) (d.rename f) (given.map f) := by
  have hf := hp.injective
  simp only [ownNames, List.append_subset] at hd
  obtain ⟨hparams, hbound, hnonlocals⟩ := hd
  refine ⟨?_, fun y => ?_, fun y hy => ?_⟩
  · rw [Def.rename_nonlocals]
    exact h.nodup.map_on fun x hx y hy heq => hf (hnonlocals hx) (hnonlocals hy) heq
  · rw [Def.rename_nonlocals, Def.rename_body, Def.rename_params, renameStmts_bound, sees_rename]
    constructor
    · intro hy
      obtain ⟨x, hx, rfl⟩ := List.mem_map.1 hy
      obtain ⟨hb, hnot, hsees⟩ := (h.mem_iff x).1 hx
      refine ⟨List.mem_map_of_mem hb, ?_, x, hsees, rfl⟩
      rwa [mem_map_iff_of_injOn hf hparams (hnonlocals hx)]
    · rintro ⟨hb, hnot, x, hsees, rfl⟩
      have hx : x ∈ S := by
        obtain ⟨_, _, hs, rfl⟩ := hsees
        exact hp.scope hs
      rw [mem_map_iff_of_injOn hf hbound hx] at hb
      rw [mem_map_iff_of_injOn hf hparams hx] at hnot
      exact List.mem_map_of_mem ((h.mem_iff x).2 ⟨hb, hnot, hsees⟩)
  · rw [Def.rename_nonlocals] at hy
    obtain ⟨x, hx, rfl⟩ := List.mem_map.1 hy
    rw [mem_map_iff_of_injOn hf hp.given (hnonlocals hx)]
    exact h.disjoint x hx

end Names

namespace Covers

variable {f : String → String} {S : List String} {p p' : Place} {src g g1 g2 n b : List String}

theorem sub (h : Covers f S p g) (hsub : g1 ⊆ g) : Covers f S p g1 :=
  ⟨h.injective, fun _ hx => h.given (hsub hx), h.scope, h.path⟩

theorem after (h : Covers f S p g) (hu : Uses p p' src g1 n b) (h1 : g1 ⊆ g) (h2 : g2 ⊆ g) : Covers f S p' g2 := by
  refine ⟨h.injective, fun _ hx => h.given (h2 hx), fun hd => ?_, hu.path ▸ h.path⟩
  exact (hu.scope _ _ hd).elim (fun hx => h.given (h1 hx)) h.scope

theorem inside {pairs : List (String × String)} (h : Covers f S p g)
    (houter : LeavesOuter p d g2) (hparams : pairs.map (·.2) = d.params) (hpairs : d.params ⊆ S)
    (hu : Uses ((p.inside d inIteration).declareAll pairs) p' src g1 (stmtsNames d.body) b) (h1 : g1 ⊆ g) :
    ownNames d ⊆ S ∧ Covers f S ((p.inside d inIteration).declareAll pairs) g1 := by
  have hscope : ∀ {y decl}, ((p.inside d inIteration).declareAll pairs).find y = some decl → decl.name ∈ S := by
    intro y decl hdecl
    rcases (Uses.pairs pairs).scope y decl hdecl with hx | hx
    · exact hpairs (hparams ▸ hx)
    · exact h.scope hx
  have hbound : stmtsBound d.body ⊆ S := by
    intro x hx
    rcases hu.names x (stmtsBound_subset d.body hx) with hx | ⟨y, -, decl, hdecl, rfl⟩
    · exact h.given (h1 hx)
    · exact hscope hdecl
  have hd : ownNames d ⊆ S := by
    simp only [ownNames, List.append_subset]
    exact ⟨hpairs, hbound, fun x hx => hbound ((houter.mem_iff x).1 hx).1⟩
  refine ⟨hd, h.injective, fun _ hx => h.given (h1 hx), hscope, ?_⟩
  rw [Place.declareAll_path]
  exact List.forall_mem_cons.2 ⟨hd, h.path⟩

end Covers

theorem breakCode_rename {f : String → String} (p : Place) : (p.rename f).breakCode = p.breakCode.rename f := by
  unfold Place.breakCode
  rw [show (p.rename f).loops = p.loops from rfl]
  split <;> rfl

/-! ## Renamed code -/

section Renamed

attribute [local simp] Expr.rename Call.rename renameExprs renameTail renameParts renameItems Answer.rename
  Stmt.rename OrElse.rename renameStmts declareAll_rename

variable {f : String → String} {S : List String}

mutual

theorem ExprCode.rename {p e code call given} : ExprCode p e code call given → Covers f S p given →
    ExprCode (p.rename f) e (renameStmts f code) (call.rename f) (given.map f)
  | .nil, _ => .nil
  | .bool, _ => .bool
  | .number, _ => by simpa using ExprCode.number
  | .string, _ => .string
  | .vararg, _ => .vararg
  | .global hfind, _ => .global (by rw [find_rename, hfind, Option.map_none])
  | .variable hfind hreach, h =>
    have hvar := hreach.rename hfind h
    .variable hvar.1 hvar.2
  | .function hholds hdef, h => by
    simpa using ExprCode.function (by simpa using hholds.rename (h.sub (by simp))) (hdef.rename (h.sub (by simp)))
  | .table hitems, h => by simpa using ExprCode.table (hitems.rename h)
  | .binary hop hl hr, h => by
    simpa using ExprCode.binary hop (hl.rename (h.sub (by simp))) (hr.rename (h.sub (by simp)))
  | .andThen hholds hl hr, h => by
    simpa using ExprCode.andThen (hholds.rename (h.sub (by simp))) (hl.rename (h.sub (by simp)))
      (hr.rename (h.sub (by simp)))
  | .orElse hholds hl hr, h => by
    simpa using ExprCode.orElse (hholds.rename (h.sub (by simp))) (hl.rename (h.sub (by simp)))
      (hr.rename (h.sub (by simp)))
  | .negation h', h => by simpa using ExprCode.negation (h'.rename h)
  | .length h', h => by simpa using ExprCode.length (h'.rename h)
  | .minus h', h => by simpa using ExprCode.minus (h'.rename h)
  | .call hl hr, h => by simpa using ExprCode.call (hl.rename (h.sub (by simp))) (hr.rename (h.sub (by simp)))
  | .method hl hr, h => by simpa using ExprCode.method (hl.rename (h.sub (by simp))) (hr.rename (h.sub (by simp)))
  | .index hl hr, h => by simpa using ExprCode.index (hl.rename (h.sub (by simp))) (hr.rename (h.sub (by simp)))
  | .paren h', h => by simpa using ExprCode.paren (h'.rename h)
  | .block hparts hval, h => by
    simpa using ExprCode.block (hparts.rename (h.sub (by simp)))
      (hval.rename (h.after hparts.uses (by simp) (by simp)))

theorem ListCode.rename {p es code list given} : ListCode p es code list given → Covers f S p given →
    ListCode (p.rename f) es (renameStmts f code) (renameExprs f list.1, renameTail f list.2) (given.map f)
  | .nil, _ => .nil
  | .last h', h => by simpa [lastItem_rename] using ListCode.last (h'.rename h)
  | .cons h' ht, h => by
    simpa [consItem_rename] using ListCode.cons (h'.rename (h.sub (by simp))) (ht.rename (h.sub (by simp)))

theorem ItemsCode.rename {p fields code list given} : ItemsCode p fields code list given → Covers f S p given →
    ItemsCode (p.rename f) fields (renameStmts f code) (renameItems f list.1, renameTail f list.2) (given.map f)
  | .nil, _ => .nil
  | .keyed h1 h2 ht, h => by
    simpa using ItemsCode.keyed (h1.rename (h.sub (by simp))) (h2.rename (h.sub (by simp)))
      (ht.rename (h.sub (by simp)))
  | .last h', h => by simpa [lastItem_rename, renameItems_positional] using ItemsCode.last (h'.rename h)
  | .positional h' ht, h => by
    simpa using ItemsCode.positional (h'.rename (h.sub (by simp))) (ht.rename (h.sub (by simp)))

theorem PartsCode.rename {p p' ss code parts given} : PartsCode p ss code parts p' given → Covers f S p given →
    PartsCode (p.rename f) ss (renameStmts f code) (renameParts f parts) (p'.rename f) (given.map f)
  | .nil, _ => .nil
  | .run h' ht, h => by simpa using PartsCode.run (h'.rename (h.sub (by simp))) (ht.rename (h.sub (by simp)))
  | .bindNull hholds ht, h => by
    simpa using PartsCode.bindNull (hholds.rename (h.sub (by simp)))
      (ht.rename (h.after (Uses.declare hholds) (by simp) (by simp)))
  | .bind h' hholds ht, h => by
    simpa using PartsCode.bind (h'.rename (h.sub (by simp))) (hholds.rename (h.sub (by simp)))
      (ht.rename (h.after (Uses.declare hholds) (by simp) (by simp)))

theorem FunctionCode.rename {p fn d given} : FunctionCode p fn d given → Covers f S p given →
    FunctionCode (p.rename f) fn (d.rename f) (given.map f)
  | @FunctionCode.mk _ _ _ _ params _ _ _ _ _ _ _ names nonlocals code given hlen hbody houter, h => by
    have hparams := List.map_snd_zip (Nat.le_of_eq hlen)
    have hu := hbody.uses
    rw [← filled_names] at hu
    obtain ⟨hd, hin⟩ := h.inside houter hparams (fun _ hx => h.given (List.mem_append_left _ hx)) hu (by simp)
    have hj := hbody.rename hin
    have houter' := houter.rename h hd
    rw [declareAll_rename, inside_rename, ← List.zip_map_right] at hj
    simp only [Def.rename, ← filled_rename, List.map_append] at hj houter' ⊢
    exact .mk (by rw [List.length_map, hlen]) hj houter'

theorem BlockCode.rename {p b suite given} : BlockCode p b suite given → Covers f S p given →
    BlockCode (p.rename f) b (renameStmts f suite) (given.map f)
  | .mk h', h => by simpa [filled_rename] using BlockCode.mk (h'.rename h)

theorem OrElseCode.rename {p clauses final other given} : OrElseCode p clauses final other given →
    Covers f S p given → OrElseCode (p.rename f) clauses final (other.rename f) (given.map f)
  | .none, _ => .none
  | .empty, _ => .empty
  | .otherwise h', h => by simpa using OrElseCode.otherwise (h'.rename h)
  | .elseIf h1 h2 h3, h => by
    simpa using OrElseCode.elseIf (h1.rename (h.sub (by simp))) (h2.rename (h.sub (by simp)))
      (h3.rename (h.sub (by simp)))
  | .hoisted h1 h2 h3, h => by
    simpa using OrElseCode.hoisted (h1.rename (h.sub (by simp))) (h2.rename (h.sub (by simp)))
      (h3.rename (h.sub (by simp)))

theorem RoundCode.rename {p ss until? code given} : RoundCode p ss until? code given → Covers f S p given →
    RoundCode (p.rename f) ss until? (renameStmts f code) (given.map f)
  | .plain h', h => by simpa [filled_rename] using RoundCode.plain (h'.rename h)
  | .until h' hcond, h => by
    simpa [filled_rename, breakCode_rename] using RoundCode.until (h'.rename (h.sub (by simp)))
      (hcond.rename (h.after h'.uses (by simp) (by simp)))

theorem LoopCode.rename {p pairs ss until? suite given} : LoopCode p pairs ss until? suite given →
    Covers f S p (pairs.map (·.2) ++ given) →
    LoopCode (p.rename f) (pairs.map (Prod.map id f)) ss until? (renameStmts f suite) (given.map f)
  | .inline hform h', h => .inline hform (h'.rename ⟨h.injective, fun _ hx => h.given (by simp [hx]), h.scope, h.path⟩)
  | .iteration hform hholds h' houter, h => by
    obtain ⟨hd, hin⟩ := h.inside houter rfl (fun _ hx => h.given (List.mem_append_left _ hx)) h'.uses (by grind)
    have hj := h'.rename hin
    rw [declareAll_rename, inside_rename] at hj
    have hmap : (pairs.map (Prod.map id f)).map (·.2) = (pairs.map (·.2)).map f := by simp
    have houter' := houter.rename (h.sub (by grind)) hd
    simp only [Def.rename, ← hmap] at hj houter'
    simp only [renameStmts, Stmt.rename, Def.rename, ← hmap, List.map_cons]
    exact .iteration hform (hholds.rename (h.sub (by grind))) hj houter'

theorem TargetCode.rename {p target value code given} : TargetCode p target value code given → Covers f S p given →
    TargetCode (p.rename f) target (value.rename f) (renameStmts f code) (given.map f)
  | .global hfind, _ => .global (by rw [find_rename, hfind, Option.map_none])
  | .variable hfind hreach, h =>
    have hvar := hreach.rename hfind h
    .variable hvar.1 hvar.2
  | .index h1 h2, h => by simpa using TargetCode.index (h1.rename (h.sub (by simp))) (h2.rename (h.sub (by simp)))

theorem TargetsCode.rename {p targets temps code given} : TargetsCode p targets temps code given →
    Covers f S p given →
    TargetsCode (p.rename f) targets (temps.map f) (renameStmts f code) (given.map f)
  | .nil, _ => .nil
  | .cons h' ht, h => by simpa using TargetsCode.cons (h'.rename (h.sub (by simp))) (ht.rename (h.sub (by simp)))

theorem StepCode.rename {p step code step' given} : StepCode p step code step' given → Covers f S p given →
    StepCode (p.rename f) step (renameStmts f code) (step'.map (·.rename f)) (given.map f)
  | .none, _ => .none
  | .some h', h => by simpa using StepCode.some (h'.rename h)

theorem StmtsCode.rename {p p' ss code given} : StmtsCode p ss code p' given → Covers f S p given →
    StmtsCode (p.rename f) ss (renameStmts f code) (p'.rename f) (given.map f)
  | .nil, _ => .nil
  | .cons h' ht, h => by
    simpa using StmtsCode.cons (h'.rename (h.sub (by simp))) (ht.rename (h.after h'.uses (by simp) (by simp)))

theorem StmtCode.rename {p p' s code given} : StmtCode p s code p' given → Covers f S p given →
    StmtCode (p.rename f) s (renameStmts f code) (p'.rename f) (given.map f)
  | .localNull hlen hholds, h => by
    simpa [List.zip_map_right] using StmtCode.localNull (by rw [List.length_map, hlen]) (hholds.rename h)
  | .localOne h' hholds, h => by
    simpa using StmtCode.localOne (h'.rename (h.sub (by simp))) (hholds.rename (h.sub (by simp)))
  | .localMany hvals hmany hlen h' hholds, h => by
    simpa [List.zip_map_right, toAdjusted_rename] using StmtCode.localMany hvals hmany
      (by rw [List.length_map, hlen]) (h'.rename (h.sub (by simp))) (hholds.rename (h.sub (by simp)))
  | .localFunction hholds h', h => by
    have hd := h'.rename (h.after (Uses.declare hholds) (by simp) (by simp))
    have hholds' := hholds.rename (h.sub (by simp))
    simp only [declare_rename, List.map_cons, List.map_nil, ← Def.rename_name] at hd hholds' ⊢
    exact .localFunction hholds' hd
  | .assignOne hval htarget, h => by
    simpa using StmtCode.assignOne (hval.rename (h.sub (by simp))) (by simpa using htarget.rename (h.sub (by simp)))
  | .assignMany hmany hlen hholds hvals htargets, h => by
    simpa [toAdjusted_rename] using StmtCode.assignMany hmany (by rw [List.length_map, hlen])
      (hholds.rename (h.sub (by simp))) (hvals.rename (h.sub (by simp))) (htargets.rename (h.sub (by simp)))
  | .expr h', h => by simpa using StmtCode.expr (h'.rename h)
  | .scope h', h => .scope (h'.rename h)
  | .whileLoop hcond hloop, h => by
    simpa using StmtCode.whileLoop (hcond.rename (h.sub (by simp))) (hloop.rename (h.sub (by simp)))
  | .repeatLoop h', h => by simpa using StmtCode.repeatLoop (h'.rename h)
  | .ifElse h1 h2 h3, h => by
    simpa using StmtCode.ifElse (h1.rename (h.sub (by simp))) (h2.rename (h.sub (by simp)))
      (h3.rename (h.sub (by simp)))
  | .numericFor h1 h2 h3 hholds hloop, h => by
    simpa using StmtCode.numericFor (h1.rename (h.sub (by simp))) (h2.rename (h.sub (by simp)))
      (h3.rename (h.sub (by grind))) (hholds.rename (h.sub (by grind)))
      (hloop.rename (h.after (Uses.declare hholds) (by grind) (by grind)))
  | .genericFor hlist hlen hholds hloop, h => by
    have hfresh := List.map_snd_zip (Nat.le_of_eq hlen)
    have hj := hloop.rename (h.after (Uses.declareAll hlen) (by simp) (by simp [hfresh]))
    simp only [declareAll_rename, ← List.zip_map_right] at hj
    simpa using StmtCode.genericFor (hlist.rename (h.sub (by simp))) (by rw [List.length_map, hlen])
      (hholds.rename (h.sub (by simp))) hj
  | .returnNone, _ => .returnNone
  | .returnOne h', h => by simpa using StmtCode.returnOne (h'.rename h)
  | .returnMany h', h => by simpa using StmtCode.returnMany (h'.rename h)
  | .breakLoop hinside, _ => by
    rw [renameStmts, renameStmts, ← breakCode_rename]
    exact .breakLoop hinside

end

end Renamed

theorem ModuleCode.rename {f : String → String} (h : ModuleCode c m given) (hf : Set.InjOn f {x | x ∈ given})
    (hchunk : f "chunk" = "chunk") : ModuleCode c ⟨renameStmts f m.body⟩ (given.map f) := by
  obtain ⟨code, p, hbody, hcode⟩ := h
  have hbound : stmtsBound m.body ⊆ given := by
    intro x hx
    rw [hbody, filled_bound] at hx
    simpa [Place.find] using hcode.uses.names x (stmtsBound_subset code hx)
  have hcovers : Covers f given ⟨[chunkDef m.body], [], 0, false⟩ given := by
    refine ⟨hf, List.Subset.refl _, fun hd => by simp [Place.find] at hd, ?_⟩
    rintro d (_ | ⟨_, ⟨⟩⟩)
    simpa [ownNames, chunkDef, Def.params, Def.nonlocals, Def.body] using hbound
  refine ⟨renameStmts f code, p.rename f, by rw [hbody, filled_rename], ?_⟩
  have hj := hcode.rename hcovers
  rwa [Place.rename, List.map_cons, List.map_nil, chunkDef, Def.rename, hchunk] at hj

end TypedLua.Target.Scoping
