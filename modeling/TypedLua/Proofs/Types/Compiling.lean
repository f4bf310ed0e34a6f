import TypedLua.Proofs.Syntax.Induction
import TypedLua.Annotation.Predicate
import Mathlib.Logic.Relation
import Mathlib.Tactic.Common

/-!
# Which types compile

Compilation goes from a type to its parts, unless the type denotes a predicate already, and puts
together what they give.
-/

namespace TypedLua

theorem except_bind_ok {ε α β : Type} {x : Except ε α} {f : α → Except ε β} {b : β}
    (h : (x >>= f) = .ok b) : ∃ a, x = .ok a ∧ f a = .ok b := by
  cases x with
  | error e => cases h
  | ok a => exact ⟨a, rfl, h⟩

theorem exists_ok {ε α : Type} {x : Except ε α} {f : α → Bool} (h : x.toOption.any f = true) :
    ∃ a, x = .ok a ∧ f a = true := by
  cases x with
  | error e => cases h
  | ok a => exact ⟨a, rfl, h⟩

def Field.value : Field → Expr
  | .mk _ _ value => value

namespace Annotation

/-- The result of a function type with this body: the one value that its one statement returns. -/
def signatureResult? : Block → Option Expr
  | .mk _ [.returnValues _ [result]] => some result
  | _ => none

def IsSignature : Expr → Prop
  | .signature .. => True
  | _ => False

def IsMalformed : Expr → Prop
  | .signature _ _ body => signatureResult? body = none
  | _ => False

def subtypes : Expr → List Expr
  | .table _ fields => fields.map Field.value
  | .binary _ left _ right => [left, right]
  | .unary _ _ operand => [operand]
  | .signature _ params body => params ++ (signatureResult? body).toList
  | .call _ callee args => callee :: args
  | _ => []

def shapeKeys : Expr → List Expr
  | .table _ fields => fields.flatMap fun (.mk _ key _) => key.toList
  | _ => []

structure Builds (P : Expr → Prop) : Prop where
  entry : ∀ registry loc x, P (registryEntry registry loc x)
  call : ∀ loc callee args, P callee → (∀ e ∈ args, P e) → P (.call loc callee args)
  table : ∀ loc fields, (∀ f ∈ fields, f.All P) → P (.table loc fields)

theorem Builds.constructorCall {P : Expr → Prop} (h : Builds P) (registry : String) (loc : Loc)
    (constructor : String) (hargs : ∀ e ∈ args, P e) : P (constructorCall registry loc constructor args) :=
  h.call _ _ _ (h.entry ..) hargs

section Definitions

variable (registry : String)

def typeParts (e : Expr) : List Expr := if isCompiled registry e then [] else subtypes e

def Reaches : Expr → Expr → Prop := Relation.ReflTransGen fun e d => d ∈ typeParts registry e

/-- Where the first function type without a result stands: an expression comes before its parts, and the parts
come in order. -/
inductive FirstMalformed : Expr → Loc → Prop
  | here {e : Expr} (h : IsMalformed e) : FirstMalformed e e.loc
  | later {e d : Expr} {before after : List Expr} {loc : Loc} (he : ¬IsMalformed e)
      (hparts : typeParts registry e = before ++ d :: after)
      (hbefore : ∀ b ∈ before, ∀ s, Reaches registry b s → ¬IsMalformed s) (h : FirstMalformed d loc) :
      FirstMalformed e loc

variable (bound : List String)

/-- What the first expression may compile to, given what its parts compile to. -/
structure Settles (e : Expr) (ps : List Expr) (q : Expr) : Prop where
  same : compileTypes registry bound ps = .ok ps → compileType registry bound q = .ok q
  parts : typeParts registry q ⊆ ps
  plain : ¬IsSignature q
  made : ∀ P, Builds P → P e → (∀ k ∈ shapeKeys e, P k) → (∀ p ∈ ps, P p) → P q

def Follows (e : Expr) (parts : Except Malformed (List Expr)) (whole : Except Malformed Expr) : Prop :=
  match parts with
  | .error m => whole = .error m
  | .ok ps => ∃ q, whole = .ok q ∧ Settles registry bound e ps q

end Definitions

/-! ## Parts -/

-- The equations are made here once; the proofs below would all wait for them.
attribute [local grind =] compileType compileTypes compileFields

section Parts

variable {registry : String} {bound : List String}

variable {e : Expr} {ps es : List Expr}

theorem mem_subtypes (h : d ∈ typeParts registry e) : d ∈ subtypes e := by
  rw [typeParts] at h
  split at h
  · cases h
  · exact h

theorem sizeOf_subtypes (h : d ∈ subtypes e) : sizeOf d < sizeOf e := by
  cases e with
  | table loc fields =>
    obtain ⟨⟨floc, key, value⟩, hf, rfl⟩ := List.mem_map.1 h
    have := List.sizeOf_lt_of_mem hf
    simp only [Field.mk.sizeOf_spec, Field.value, Expr.table.sizeOf_spec] at this ⊢
    omega
  | binary loc left op right =>
    simp only [subtypes, List.mem_cons, List.not_mem_nil, or_false] at h
    rcases h with rfl | rfl <;> simp only [Expr.binary.sizeOf_spec] <;> omega
  | unary loc op operand =>
    cases List.mem_singleton.1 h
    simp only [Expr.unary.sizeOf_spec]
    omega
  | signature loc params body =>
    rcases List.mem_append.1 h with h | h
    · have := List.sizeOf_lt_of_mem h
      simp only [Expr.signature.sizeOf_spec]
      omega
    · rw [Option.mem_toList] at h
      unfold signatureResult? at h
      split at h
      · cases h
        simp
        omega
      · cases h
  | call loc callee args =>
    simp only [Expr.call.sizeOf_spec]
    rcases List.mem_cons.1 h with rfl | h
    · omega
    · have := List.sizeOf_lt_of_mem h
      omega
  | _ => cases h

theorem settles_of_isCompiled (h : isCompiled registry q = true)
    (hmade : ∀ P, Builds P → P e → (∀ k ∈ shapeKeys e, P k) → (∀ p ∈ ps, P p) → P q) :
    Settles registry bound e ps q where
  same _ := by
    cases q with
    | call loc callee args => rw [compileType, if_pos h]
    | index | paren => rfl
    | _ => cases h
  parts := by simp [typeParts, h]
  plain hq := by
    cases q with
    | signature => cases h
    | _ => exact hq
  made := hmade

theorem settles_constructorCall (loc : Loc) (constructor : String)
    (h : ∀ P, Builds P → P e → (∀ k ∈ shapeKeys e, P k) → (∀ p ∈ ps, P p) → ∀ a ∈ args, P a) :
    Settles registry bound e ps (constructorCall registry loc constructor args) :=
  settles_of_isCompiled (by simp [isCompiled, constructorCall, registryEntry, isConstructorCall,
    isConstructorName]) fun P hP he hkeys hps => hP.constructorCall _ _ _ (h P hP he hkeys hps)

theorem settles_call (e : Expr) (loc : Loc) (callee : Expr) (args : List Expr) :
    Settles registry bound e (callee :: args) (.call loc callee args) where
  same h := by
    rw [compileTypes] at h
    rw [compileType]
    split
    · rfl
    · obtain ⟨c, hc, h⟩ := except_bind_ok h
      obtain ⟨cs, hcs, h⟩ := except_bind_ok h
      cases h
      rw [hc, hcs]
      rfl
  parts := by
    rw [typeParts]
    split
    · exact List.nil_subset _
    · exact List.Subset.refl _
  plain := id
  made P hP _ _ hps := by
    obtain ⟨hcallee, hargs⟩ := List.forall_mem_cons.1 hps
    exact hP.call _ _ _ hcallee hargs

/-! ## Lists of types -/

theorem compileTypes_append (es : List Expr) (e : Expr) : compileTypes registry bound (es ++ [e]) = do
      let ps ← compileTypes registry bound es
      let p ← compileType registry bound e
      return ps ++ [p] := by
  induction es with
  | nil =>
    rw [List.nil_append, compileTypes, compileTypes]
    cases compileType registry bound e <;> rfl
  | cons d es ih =>
    rw [List.cons_append, compileTypes, compileTypes, ih]
    cases compileType registry bound d with
    | error m => rfl
    | ok q =>
      cases compileTypes registry bound es with
      | error m => rfl
      | ok qs => cases compileType registry bound e <;> rfl

theorem compileFields_follows (registry : String) (bound : List String) (fields : List Field) :
    match compileTypes registry bound (fields.map Field.value) with
    | .error m => compileFields registry bound fields = .error m
    | .ok ps => ∃ fs, compileFields registry bound fields = .ok fs ∧
        ∀ P : Expr → Prop, (∀ k ∈ shapeKeys (.table none fields), P k) → (∀ p ∈ ps, P p) → ∀ f ∈ fs, f.All P := by
  induction fields with
  | nil => exact ⟨[], rfl, fun _ _ _ => List.forall_mem_nil _⟩
  | cons field fields ih =>
    obtain ⟨loc, key, value⟩ := field
    rw [List.map_cons, compileTypes, compileFields, Field.value]
    cases compileType registry bound value with
    | error m => rfl
    | ok p =>
      cases hps : compileTypes registry bound (fields.map Field.value) with
      | error m =>
        rw [hps] at ih
        rw [show compileFields registry bound fields = _ from ih]
        rfl
      | ok ps =>
        rw [hps] at ih
        obtain ⟨fs, hfs, hall⟩ := ih
        rw [hfs]
        refine ⟨.mk loc key p :: fs, rfl, fun P hkeys hvals => ?_⟩
        simp only [shapeKeys, List.flatMap_cons, List.forall_mem_append, List.forall_mem_cons] at hkeys hvals ⊢
        exact ⟨⟨fun k hk => hkeys.1 k (Option.mem_toList.2 hk), hvals.1⟩, hall P hkeys.2 hvals.2⟩

theorem compileTypes_error (h : compileTypes registry bound es = .error m) :
    ∃ before d after, es = before ++ d :: after ∧ compileType registry bound d = .error m ∧
      ∀ b ∈ before, ∃ p, compileType registry bound b = .ok p := by
  induction es with
  | nil => cases h
  | cons e es ih =>
    rw [compileTypes] at h
    cases he : compileType registry bound e with
    | error m' =>
      rw [he] at h
      cases h
      exact ⟨[], e, es, rfl, he, List.forall_mem_nil _⟩
    | ok p =>
      cases hes : compileTypes registry bound es with
      | ok ps =>
        rw [he, hes] at h
        cases h
      | error m' =>
        rw [he, hes] at h
        cases h
        obtain ⟨before, d, after, rfl, hd, hbefore⟩ := ih hes
        exact ⟨e :: before, d, after, rfl, hd, List.forall_mem_cons.2 ⟨⟨p, he⟩, hbefore⟩⟩

theorem compileTypes_ok (h : compileTypes registry bound es = .ok ps) :
    (∀ e ∈ es, ∃ p, compileType registry bound e = .ok p) ∧
      ∀ p ∈ ps, ∃ e ∈ es, compileType registry bound e = .ok p := by
  induction es generalizing ps with
  | nil =>
    cases h
    simp
  | cons e es ih =>
    rw [compileTypes] at h
    obtain ⟨p, hp, h⟩ := except_bind_ok h
    obtain ⟨qs, hqs, h⟩ := except_bind_ok h
    cases h
    obtain ⟨hes, hback⟩ := ih hqs
    refine ⟨List.forall_mem_cons.2 ⟨⟨p, hp⟩, hes⟩, List.forall_mem_cons.2 ⟨⟨e, by simp, hp⟩, ?_⟩⟩
    intro q hq
    obtain ⟨d, hd, hdq⟩ := hback q hq
    exact ⟨d, List.mem_cons_of_mem _ hd, hdq⟩

theorem compileTypes_same (h : ∀ e ∈ es, compileType registry bound e = .ok e) :
    compileTypes registry bound es = .ok es := by
  induction es with
  | nil => rfl
  | cons e es ih =>
    obtain ⟨he, hes⟩ := List.forall_mem_cons.1 h
    rw [compileTypes, he, ih hes]
    rfl

theorem compileType_malformed (h : IsMalformed e) : compileType registry bound e = .error ⟨.functionType, e.loc⟩ := by
  cases e with
  | signature loc params body =>
    rw [compileType]
    · rfl
    · rintro bodyLoc returnLoc result rfl
      cases h
  | _ => cases h

end Parts

/-! ## One type -/

variable {e p : Expr}

theorem compileType_follows (registry : String) (bound : List String) (h : ¬IsMalformed e) :
    Follows registry bound e (compileTypes registry bound (typeParts registry e)) (compileType registry bound e) := by
  -- Expressions that are left as they are have no parts. They are settled at once, and the cases below refute this.
  by_cases hleaf : compileType registry bound e = .ok e ∧ typeParts registry e = [] ∧ ¬IsSignature e
  · obtain ⟨hsame, hparts, hplain⟩ := hleaf
    rw [hsame, hparts]
    exact ⟨e, rfl, fun _ => hsame, by simp [hparts], hplain, fun _ _ he _ _ => he⟩
  cases e with
  | name loc x =>
    rw [compileType]
    split
    · next hx => exact absurd ⟨by rw [compileType, if_pos hx], rfl, id⟩ hleaf
    · exact ⟨_, rfl, settles_of_isCompiled rfl fun P hP _ _ _ => hP.entry ..⟩
  | nil loc => exact ⟨_, rfl, settles_of_isCompiled rfl fun P hP _ _ _ => hP.entry ..⟩
  | string loc s => exact ⟨_, rfl, settles_constructorCall loc _ fun P _ he _ _ => by simpa using he⟩
  | table loc fields =>
    have hfields := compileFields_follows registry bound fields
    rw [compileType, show typeParts registry (.table loc fields) = fields.map Field.value from rfl]
    cases hps : compileTypes registry bound (fields.map Field.value) with
    | error m =>
      rw [hps] at hfields
      rw [show compileFields registry bound fields = _ from hfields]
      rfl
    | ok ps =>
      rw [hps] at hfields
      obtain ⟨fs, hfs, hall⟩ := hfields
      rw [hfs]
      refine ⟨_, rfl, settles_constructorCall loc _ fun P hP _ hkeys hps => ?_⟩
      simpa using hP.table loc fs (hall P hkeys hps)
  | binary loc left op right =>
    rw [compileType, show typeParts registry (.binary loc left op right) = [left, right] from rfl]
    simp only [compileTypes]
    cases compileType registry bound left with
    | error m => rfl
    | ok l =>
      cases compileType registry bound right with
      | error m => rfl
      | ok r => exact ⟨_, rfl, settles_constructorCall loc _ fun _ _ _ _ hps => hps⟩
  | unary loc op operand =>
    rw [compileType, show typeParts registry (.unary loc op operand) = [operand] from rfl]
    simp only [compileTypes]
    cases compileType registry bound operand with
    | error m => rfl
    | ok p => exact ⟨_, rfl, settles_constructorCall loc _ fun _ _ _ _ hps => hps⟩
  | signature loc params body =>
    obtain ⟨result, hres⟩ := Option.ne_none_iff_exists'.1 h
    rw [show typeParts registry (.signature loc params body) =
      params ++ (signatureResult? body).toList from rfl, hres, Option.toList_some, compileTypes_append]
    unfold signatureResult? at hres
    split at hres
    · cases hres
      rw [compileType]
      cases compileTypes registry bound params with
      | error m => rfl
      | ok ps =>
        cases compileType registry bound result with
        | error m => rfl
        | ok r =>
          refine ⟨_, rfl, settles_constructorCall loc _ fun P hP _ _ hps => ?_⟩
          obtain ⟨hparams, hr⟩ := List.forall_mem_append.1 hps
          have hshape := hP.table loc (ps.map fun p => .mk none none p) (by simpa [Field.All] using hparams)
          simpa using ⟨hshape, hr r (by simp)⟩
    · cases hres
  | call loc callee args =>
    by_cases hc : isCompiled registry (.call loc callee args) = true
    · exact absurd ⟨by rw [compileType, if_pos hc], if_pos hc, id⟩ hleaf
    rw [compileType, if_neg hc, show typeParts registry (.call loc callee args) = _ from if_neg hc, subtypes,
      compileTypes]
    cases compileType registry bound callee with
    | error m => rfl
    | ok c =>
      cases compileTypes registry bound args with
      | error m => rfl
      | ok cs => exact ⟨_, rfl, settles_call _ loc c cs⟩
  | _ => exact absurd ⟨rfl, by simp [typeParts, subtypes], id⟩ hleaf

variable {registry : String} {bound : List String}

theorem compileType_ok (h : compileType registry bound e = .ok p) :
    ¬IsMalformed e ∧ ∃ ps, compileTypes registry bound (typeParts registry e) = .ok ps ∧
      Settles registry bound e ps p := by
  have he : ¬IsMalformed e := fun he => by
    rw [compileType_malformed he] at h
    cases h
  have hfollows := compileType_follows registry bound he
  rw [h] at hfollows
  cases hps : compileTypes registry bound (typeParts registry e) with
  | error m =>
    rw [hps] at hfollows
    cases hfollows
  | ok ps =>
    rw [hps] at hfollows
    obtain ⟨q, hq, hsettles⟩ := hfollows
    cases hq
    exact ⟨he, ps, rfl, hsettles⟩

/-- A property of what is put together holds of what a type compiles to, if it holds of the type, of its keys and
of what its parts compile to. -/
theorem Builds.compileType {P : Expr → Prop} (hP : Builds P)
    (h : compileType registry bound e = .ok p) (he : P e) (hkeys : ∀ k ∈ shapeKeys e, P k)
    (hparts : ∀ d ∈ subtypes e, ∀ q, Annotation.compileType registry bound d = .ok q → P q) : P p := by
  obtain ⟨-, ps, hps, hsettles⟩ := compileType_ok h
  refine hsettles.made P hP he hkeys fun q hq => ?_
  obtain ⟨d, hd, hdq⟩ := (compileTypes_ok hps).2 q hq
  exact hparts d (mem_subtypes hd) q hdq

/-! ## Failure -/

theorem not_isMalformed_of_ok (h : compileType registry bound e = .ok p)
    (hs : Reaches registry e s) : ¬IsMalformed s := by
  induction hs using Relation.ReflTransGen.head_induction_on generalizing p with
  | refl => exact (compileType_ok h).1
  | head hstep _ ih =>
    obtain ⟨-, ps, hps, -⟩ := compileType_ok h
    obtain ⟨q, hq⟩ := (compileTypes_ok hps).1 _ hstep
    exact ih hq

theorem FirstMalformed.reaches (h : FirstMalformed registry e loc) :
    ∃ s, Reaches registry e s ∧ IsMalformed s := by
  induction h with
  | here h => exact ⟨_, .refl, h⟩
  | later _ hparts _ _ ih =>
    obtain ⟨s, hs, hmalformed⟩ := ih
    exact ⟨s, .head (by simp [hparts]) hs, hmalformed⟩

theorem firstMalformed_of_error {e : Expr} {m : Malformed} (h : compileType registry bound e = .error m) :
    m.cause = .functionType ∧ FirstMalformed registry e m.loc := by
  by_cases he : IsMalformed e
  · rw [compileType_malformed he] at h
    cases h
    exact ⟨rfl, .here he⟩
  · have hfollows := compileType_follows registry bound he
    rw [h] at hfollows
    cases hps : compileTypes registry bound (typeParts registry e) with
    | ok ps =>
      rw [hps] at hfollows
      obtain ⟨_, hp, -⟩ := hfollows
      cases hp
    | error m' =>
      rw [hps] at hfollows
      cases hfollows
      obtain ⟨before, d, after, hparts, hd, hbefore⟩ := compileTypes_error hps
      have hmem : d ∈ typeParts registry e := by simp [hparts]
      -- The recursion is on the part that fails first; the parts in front of it compile.
      have := sizeOf_subtypes (mem_subtypes hmem)
      obtain ⟨hcause, hfirst⟩ := firstMalformed_of_error hd
      refine ⟨hcause, .later he hparts (fun b hb s hs => ?_) hfirst⟩
      obtain ⟨p, hp⟩ := hbefore b hb
      exact not_isMalformed_of_ok hp hs
termination_by sizeOf e

/-! ## Success -/

theorem compileType_settles {e p : Expr} (h : compileType registry bound e = .ok p) :
    compileType registry bound p = .ok p ∧ ∀ s, Reaches registry p s → ¬IsSignature s := by
  obtain ⟨-, ps, hps, hsettles⟩ := compileType_ok h
  -- The parts of what comes out are among what the parts of the type compile to.
  have hparts : ∀ q ∈ ps, compileType registry bound q = .ok q ∧ ∀ s, Reaches registry q s → ¬IsSignature s := by
    intro q hq
    obtain ⟨d, hd, hdq⟩ := (compileTypes_ok hps).2 q hq
    have := sizeOf_subtypes (mem_subtypes hd)
    exact compileType_settles hdq
  refine ⟨hsettles.same (compileTypes_same fun q hq => (hparts q hq).1), fun s hs => ?_⟩
  rcases Relation.ReflTransGen.cases_head hs with rfl | ⟨q, hq, hs⟩
  · exact hsettles.plain
  · exact (hparts q (hsettles.parts hq)).2 s hs
termination_by sizeOf e

/-- Compiling a second time changes nothing. -/
theorem compileType_idempotent {registry : String} {bound : List String} {e p : Expr}
    (h : compileType registry bound e = .ok p) : compileType registry bound p = .ok p :=
  (compileType_settles h).1

theorem compileType_idempotent_list :
    compileType "types" ["T"] (.call none (registryEntry "types" none "list") [.name none "T"]) =
      .ok (.call none (registryEntry "types" none "list") [.name none "T"]) :=
  compileType_idempotent (e := .call none (.name none "list") [.name none "T"]) (by rfl)

/-- Compilation fails exactly if a function type without a result is reached, and with the place of the first
one; otherwise no function type is reached in what it gives. -/
theorem compileType_fails_iff (registry : String) (bound : List String) (e : Expr) :
    ((∃ m, compileType registry bound e = .error m) ↔ ∃ s, Reaches registry e s ∧ IsMalformed s) ∧
    (∀ m, compileType registry bound e = .error m → m.cause = .functionType ∧ FirstMalformed registry e m.loc) ∧
    ∀ p, compileType registry bound e = .ok p → ∀ s, Reaches registry p s → ¬IsSignature s := by
  refine ⟨⟨?_, ?_⟩, fun m => firstMalformed_of_error, fun p hp => (compileType_settles hp).2⟩
  · rintro ⟨m, hm⟩
    exact (firstMalformed_of_error hm).2.reaches
  · rintro ⟨s, hs, hmalformed⟩
    cases hp : compileType registry bound e with
    | ok p => exact absurd hmalformed (not_isMalformed_of_ok hp hs)
    | error m => exact ⟨m, rfl⟩

end Annotation

end TypedLua
