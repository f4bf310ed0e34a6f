import TypedLua.Annotation.Erase
import TypedLua.Proofs.Parsing.Steps

/-!
# Parsing two streams in step

A stream of tokens can be thinned out: every `::` goes, together with the type behind it.
-/

namespace TypedLua

def Token.isDirective (t : Token) : Bool := match t.kind with
  | .directive _ => true
  | _ => false

namespace Parser

variable {ts rest used : List Token} {registry : String} {keep : Bool}

/-! ## Parts of routines -/

/-- The names of a local declaration behind the first one and its annotations. -/
def namesAfter (ctx : Context) (n : Nat) (name : String) (types : List Annotation) :
    Parse (List String × List Annotation) := do
  if ← accept (.symbol .comma) then
    let r ← localNames ctx n
    return (name :: r.1, types ++ r.2)
  else return ([name], types)

def parametersAfter (ctx : Context) (n : Nat) (name : String) (types : List Annotation) :
    Parse (List String × List Annotation × Bool) := do
  if ← accept (.symbol .comma) then
    let r ← parameters ctx n
    return (name :: r.1, types ++ r.2.1, r.2.2)
  else return ([name], types, false)

def functionEnd (ctx : Context) (n : Nat) (first : Token) (label : Option String) (isMethod : Bool)
    (r : List String × List Annotation × Bool) (type : Option Expr) : Parse Function := do
  let body ← block ⟨ctx.registry, ctx.inType, r.2.2⟩ n
  let _ ← expect (.keyword .end_) (.endOf "function")
  return .mk (some first.position) (if isMethod then "self" :: r.1 else r.1) r.2.2 body r.2.1 type label

def functionResult (ctx : Context) (n : Nat) (first : Token) (label : Option String) (isMethod : Bool)
    (r : List String × List Annotation × Bool) : Parse Function := do
  let _ ← expect (.symbol .rparen) .closeParameters
  if ← accept (.symbol .doubleColon) then
    let type ← typeExpression ctx n
    functionEnd ctx n first label isMethod r (some type)
  else functionEnd ctx n first label isMethod r none

theorem functionBody_succ (ctx : Context) (n : Nat) (first : Token) (label : Option String) (isMethod : Bool) :
    functionBody ctx (n + 1) first label isMethod = (do
      let _ ← expect (.symbol .lparen) .openParameters
      if ← check (.symbol .rparen) then functionResult ctx n first label isMethod ([], [], false)
      else
        let r ← parameters ctx n
        functionResult ctx n first label isMethod r) := by
  simp only [functionBody, functionResult, functionEnd, pure_bind, map_eq_pure_bind, bind_assoc]

def returnLast (first : Token) (values : List Expr) : Parse Stmt := do
  if endsBlock (← current).kind then return .returnValues (some first.position) values
  else failure .returnNotLast

def signatureEnd (ctx : Context) (n : Nat) (first : Token) (params : List Expr) : Parse Expr := do
  let _ ← expect (.symbol .rparen) .closeSignature
  let body ← block ctx n
  let _ ← expect (.keyword .end_) (.endOf "function type")
  return .signature (some first.position) params body

/-! ## Thinning out streams -/

def Context.outermost (registry : String) : Context := ⟨registry, false, true⟩

def typeLength (registry : String) (ts : List Token) : Nat :=
  match typeExpression (.outermost registry) (depthBound ts.length) ts with
  | .ok (_, rest) => ts.length - rest.length
  | .error _ => 0

/-- The tokens without annotations: without every `::` and the type behind it. -/
def withoutTypes (registry : String) : (skip : Nat) → List Token → List Token
  | _, [] => []
  | 0, t :: ts =>
    if t.kind = .symbol .doubleColon then withoutTypes registry (typeLength registry (withoutDirectives ts)) ts
    else t :: withoutTypes registry 0 ts
  | skip + 1, t :: ts =>
    if t.isDirective then t :: withoutTypes registry (skip + 1) ts else withoutTypes registry skip ts

def plainDeclaration (registry : String) (ts : List Token) : Bool :=
  match suffixed (.outermost registry) (depthBound ts.length) ts with
  | .ok (_, mid) => ((tail mid).take (typeLength registry (tail mid))).all (·.kind != .symbol .doubleColon)
  | .error _ => true

def plainDeclarations (registry : String) : List Token → Bool
  | [] => true
  | t :: ts => (t.kind != .keyword .newtype_ || plainDeclaration registry ts) && plainDeclarations registry ts

theorem withoutTypes_cons {t : Token} (ht : t.kind ≠ .symbol .doubleColon) (ts : List Token) :
    withoutTypes registry 0 (t :: ts) = t :: withoutTypes registry 0 ts := by
  rw [withoutTypes, if_neg ht]

theorem plainDeclarations_append (h : plainDeclarations registry (used ++ rest) = true) :
    plainDeclarations registry rest = true := by
  induction used with
  | nil => exact h
  | cons t used ih =>
    rw [List.cons_append, plainDeclarations, Bool.and_eq_true] at h
    exact ih h.2

theorem withoutTypes_skip (rest : List Token) (h : ∀ t ∈ used, t.isDirective = false) :
    withoutTypes registry used.length (used ++ rest) = withoutTypes registry 0 rest := by
  induction used with
  | nil => rfl
  | cons t used ih =>
    rw [List.length_cons, List.cons_append, withoutTypes, h t List.mem_cons_self]
    exact ih fun t ht => h t (List.mem_cons_of_mem _ ht)

theorem withoutTypes_plain (rest : List Token) (h : ∀ t ∈ used, t.kind ≠ .symbol .doubleColon) :
    withoutTypes registry 0 (used ++ rest) = used ++ withoutTypes registry 0 rest := by
  induction used with
  | nil => rfl
  | cons t used ih =>
    rw [List.cons_append, withoutTypes_cons (h t List.mem_cons_self),
      ih fun t ht => h t (List.mem_cons_of_mem _ ht), List.cons_append]

theorem withoutDirectives_eq (h : ∀ t ∈ ts, t.isDirective = false) : withoutDirectives ts = ts := by
  rw [withoutDirectives, List.filter_eq_self]
  intro t ht
  have hd := h t ht
  rw [Token.isDirective] at hd
  cases hkind : t.kind with
  | directive => simp [hkind] at hd
  | _ => rfl

/-! ## The relation -/

/-- The second list of tokens is the image of the first one in front of a rest. -/
def Image (registry : String) (keep : Bool) (used used' rest : List Token) : Prop := if keep then used' = used
  else withoutTypes registry 0 (used ++ rest) = used' ++ withoutTypes registry 0 rest

/-- A stream that may be thinned out up to a rest: no directive is left in it, the types of its
declarations have no annotations, and it is not cut in front of an annotation. -/
def Admissible (registry : String) (keep : Bool) (ts rest : List Token) : Prop :=
  keep = false → (∀ t ∈ ts, t.isDirective = false) ∧ plainDeclarations registry ts = true ∧
    (head rest).kind ≠ .symbol .doubleColon

def isShared : Token.Kind → Bool
  | .eof | .symbol .doubleColon => false
  | _ => true

theorem isShared_iff : isShared kind = true ↔ kind ≠ .eof ∧ kind ≠ .symbol .doubleColon := by
  unfold isShared
  split <;> simp_all

/-- The second routine does on the image of a stream what the first one does on the stream, as long
as the stream starts with a token that satisfies `H`. -/
def MirrorsFrom {α β : Type} (registry : String) (keep strict : Bool) (H : Token → Prop)
    (least depth : Nat) (E : α → β) (p : Parse α) (q : Nat → Parse β) : Prop :=
  ∀ ts a rest, H (head ts) → p ts = .ok (a, rest) → ∃ used, ts = used ++ rest ∧
      (strict = true → ∀ t ∈ used.head?, t.kind ≠ .symbol .doubleColon) ∧
      (Admissible registry keep ts rest → ∃ used', Image registry keep used used' rest ∧ least ≤ used'.length ∧
          (strict = true → used'.head? = used.head?) ∧
          ∀ m rest', head rest' = head rest → 16 * used'.length + depth ≤ m → q m (used' ++ rest') = .ok (E a, rest'))

abbrev Mirrors {α β : Type} (registry : String) (keep : Bool) (least depth : Nat) (E : α → β) (p : Parse α)
    (q : Nat → Parse β) : Prop :=
  MirrorsFrom registry keep true (fun _ => True) least depth E p q

theorem head_append (used rest : List Token) : head (used ++ rest) = used.head?.getD (head rest) := by
  cases used <;> rfl

theorem Image.nil (registry : String) (keep : Bool) (rest : List Token) : Image registry keep [] [] rest := by
  cases keep
  · rfl
  · rfl

theorem Image.append (hu : Image registry keep u u' (v ++ rest))
    (hv : Image registry keep v v' rest) : Image registry keep (u ++ v) (u' ++ v') rest := by
  cases keep
  · have hu' : withoutTypes registry 0 (u ++ (v ++ rest)) = u' ++ withoutTypes registry 0 (v ++ rest) := hu
    have hv' : withoutTypes registry 0 (v ++ rest) = v' ++ withoutTypes registry 0 rest := hv
    show withoutTypes registry 0 (u ++ v ++ rest) = u' ++ v' ++ withoutTypes registry 0 rest
    rw [List.append_assoc, hu', hv', List.append_assoc]
  · have hu' : u' = u := hu
    have hv' : v' = v := hv
    show u' ++ v' = u ++ v
    rw [hu', hv']

theorem Image.cons {t : Token} {u u' : List Token} (ht : t.kind ≠ .symbol .doubleColon)
    (hu : Image registry keep u u' rest) : Image registry keep (t :: u) (t :: u') rest := by
  cases keep
  · have hu' : withoutTypes registry 0 (u ++ rest) = u' ++ withoutTypes registry 0 rest := hu
    show withoutTypes registry 0 (t :: (u ++ rest)) = t :: u' ++ withoutTypes registry 0 rest
    rw [withoutTypes_cons ht, hu']
    rfl
  · exact congrArg (t :: ·) hu

theorem Admissible.right (used : List Token)
    (h : Admissible registry keep (used ++ mid) rest) : Admissible registry keep mid rest := by
  intro hkeep
  obtain ⟨hdirective, hplain, hrest⟩ := h hkeep
  exact ⟨fun t ht => hdirective t (List.mem_append_right _ ht), plainDeclarations_append hplain, hrest⟩

theorem typeLength_eq
    (hlength : Mirrors registry true 1 6 id (typeExpression ctx n) (typeExpression (.outermost registry)))
    (h : typeExpression ctx n (used ++ rest) = .ok (type, rest)) :
    typeLength registry (used ++ rest) = used.length := by
  obtain ⟨u, hu, -, himage⟩ := hlength _ _ _ trivial h
  obtain rfl : used = u := List.append_cancel_right hu
  obtain ⟨u', hu', -, -, hrun⟩ := himage nofun
  obtain rfl : u' = used := hu'
  rw [typeLength, hrun _ rest rfl (by simp [depthBound]; omega)]
  simp

theorem cons_of_head (h : (head ts).kind = k) (hk : k ≠ .eof) : ∃ t mid, ts = t :: mid ∧ t.kind = k := by
  cases ts with
  | nil => exact absurd h.symm hk
  | cons t mid => exact ⟨t, mid, rfl, h⟩

namespace MirrorsFrom

variable {α β γ δ : Type} {registry : String} {keep strict : Bool} {H : Token → Prop}
  {least least' depth depth' : Nat} {E : α → β} {F : γ → δ} {p : Parse α} {q : Nat → Parse β}

theorem call (h : Mirrors registry keep least' depth' E p q) (hleast : least.ble least' = true)
    (hdepth : depth'.ble depth = true) : MirrorsFrom registry keep strict H least depth E p q := by
  rw [Nat.ble_eq] at hleast hdepth
  intro ts a rest _ hrun
  obtain ⟨used, hused, hstrict, himage⟩ := h ts a rest trivial hrun
  refine ⟨used, hused, fun _ => hstrict rfl, fun hadm => ?_⟩
  obtain ⟨used', himage, hle, hheads, hq⟩ := himage hadm
  refine ⟨used', himage, Nat.le_trans hleast hle, fun _ => hheads rfl, fun m rest' hrest' hm => ?_⟩
  exact hq m rest' hrest' (by omega)

theorem fuel (h : MirrorsFrom registry keep strict H least depth E p fun m => q (m + 1)) :
    MirrorsFrom registry keep strict H least (depth + 1) E p q := by
  intro ts a rest hH hrun
  obtain ⟨used, hused, hstrict, himage⟩ := h ts a rest hH hrun
  refine ⟨used, hused, hstrict, fun hadm => ?_⟩
  obtain ⟨used', himage, hle, hheads, hq⟩ := himage hadm
  refine ⟨used', himage, hle, hheads, fun m rest' hrest' hm => ?_⟩
  obtain ⟨m, rfl⟩ : ∃ k, m = k + 1 := ⟨m - 1, by omega⟩
  exact hq m rest' hrest' (by omega)

theorem more (k : Nat) (h : MirrorsFrom registry keep strict H least depth E p q) :
    MirrorsFrom registry keep strict H least depth E p fun m => q (m + k) := by
  intro ts a rest hH hrun
  obtain ⟨used, hused, hstrict, himage⟩ := h ts a rest hH hrun
  refine ⟨used, hused, hstrict, fun hadm => ?_⟩
  obtain ⟨used', himage, hle, hheads, hq⟩ := himage hadm
  exact ⟨used', himage, hle, hheads, fun m rest' hrest' hm => hq (m + k) rest' hrest' (by omega)⟩

theorem pure {a : α} {b : β} (hE : E a = b) :
    MirrorsFrom registry keep strict H 0 depth E (pure a) fun _ => pure b := by
  intro ts a' rest _ hrun
  cases hrun
  refine ⟨[], rfl, by simp, fun _ => ⟨[], Image.nil _ _ _, Nat.le_refl 0, by simp, ?_⟩⟩
  intro m rest' _ _
  rw [hE]
  rfl

theorem throw : MirrorsFrom registry keep strict H least depth E (throw e) q :=
  fun _ _ _ _ hrun => nomatch hrun

theorem failure : MirrorsFrom registry keep strict H least depth E (failure cause) q :=
  fun _ _ _ _ hrun => nomatch hrun

theorem ite {b : Prop} [Decidable b] {q' : Nat → Parse β}
    (hp : b → MirrorsFrom registry keep strict H least depth E p q)
    (hp' : ¬b → MirrorsFrom registry keep strict H least depth E p' q') :
    MirrorsFrom registry keep strict H least depth E (if b then p else p') fun m => if b then q m else q' m := by
  by_cases h : b
  · simp only [if_pos h]
    exact hp h
  · simp only [if_neg h]
    exact hp' h

theorem congr {q' : Nat → Parse β} (h : MirrorsFrom registry keep true H least depth E p q)
    (hp : ∀ ts, H (head ts) → p' ts = p ts) (hq : ∀ m ts, H (head ts) → q' m ts = q m ts) :
    MirrorsFrom registry keep strict H least depth E p' q' := by
  intro ts a rest hH hrun
  obtain ⟨used, rfl, hstrict, himage⟩ := h ts a rest hH (hp ts hH ▸ hrun)
  refine ⟨used, rfl, fun _ => hstrict rfl, fun hadm => ?_⟩
  obtain ⟨used', himage, hle, hheads, hrun'⟩ := himage hadm
  refine ⟨used', himage, hle, fun _ => hheads rfl, fun m rest' hrest' hm => ?_⟩
  have hhead : head (used' ++ rest') = head (used ++ rest) := by rw [head_append, head_append, hheads rfl, hrest']
  rw [hq m _ (hhead ▸ hH)]
  exact hrun' m rest' hrest' hm

theorem of_head (h : ∀ t, H t → MirrorsFrom registry keep strict (· = t) least depth E p q) :
    MirrorsFrom registry keep strict H least depth E p q :=
  fun ts a rest hH hrun => h (head ts) hH ts a rest rfl hrun

theorem bind_of {H' : Token → Prop} {f : α → Parse γ} {g : β → Nat → Parse δ}
    (hp : MirrorsFrom registry keep true H' least' depth' E p q) (hH : ∀ t, H t → H' t)
    (hdepth : depth'.ble depth = true)
    (hf : ∀ a, Mirrors registry keep (least - least') (depth + 16 * least') F (f a) (g (E a))) :
    MirrorsFrom registry keep strict H least depth F (p >>= f) fun m => q m >>= fun b => g b m := by
  rw [Nat.ble_eq] at hdepth
  intro ts c rest hhead hrun
  obtain ⟨a, mid, hpa, hfa⟩ := bind_ok hrun
  obtain ⟨u, rfl, hu, himage⟩ := hp ts a mid (hH _ hhead) hpa
  obtain ⟨v, rfl, hv, himage'⟩ := hf a mid c rest trivial hfa
  refine ⟨u ++ v, by rw [List.append_assoc], fun _ => ?_, fun hadm => ?_⟩
  · cases u with
    | nil => exact hv rfl
    | cons t u => exact hu rfl
  · have hmid : Admissible registry keep (u ++ (v ++ rest)) (v ++ rest) := by
      intro hkeep
      obtain ⟨hdirective, hplain, hrest⟩ := hadm hkeep
      refine ⟨hdirective, hplain, ?_⟩
      cases v with
      | nil => exact hrest
      | cons t v => exact hv rfl t rfl
    obtain ⟨u', hu', hle, hheads, hq⟩ := himage hmid
    obtain ⟨v', hv', hle', hheads', hg⟩ := himage' (Admissible.right u hadm)
    refine ⟨u' ++ v', hu'.append hv', ?_, fun _ => ?_, ?_⟩
    · rw [List.length_append]
      omega
    · rw [List.head?_append, List.head?_append, hheads rfl, hheads' rfl]
    · intro m rest' hrest' hm
      rw [List.length_append] at hm
      have hnext : head (v' ++ rest') = head (v ++ rest) := by rw [head_append, head_append, hheads' rfl, hrest']
      beta_reduce
      rw [List.append_assoc, bind_run (hq m (v' ++ rest') hnext (by omega))]
      exact hg m rest' hrest' (by omega)

theorem bind {f : α → Parse γ} {g : β → Nat → Parse δ} (hp : Mirrors registry keep least' depth' E p q)
    (hdepth : depth'.ble depth = true)
    (hf : ∀ a, Mirrors registry keep (least - least') (depth + 16 * least') F (f a) (g (E a))) :
    MirrorsFrom registry keep strict H least depth F (p >>= f) fun m => q m >>= fun b => g b m :=
  bind_of hp (fun _ _ => trivial) hdepth hf

/-! ### Reading single tokens -/

theorem step {t : Token} {s : Nat → Parse β}
    (hr : MirrorsFrom registry keep false (fun _ => True) (least - 1) (depth + 16) E r s)
    (ht : isShared t.kind = true) (hp : ∀ mid, p (t :: mid) = r mid) (hq : ∀ m mid, q m (t :: mid) = s m mid) :
    MirrorsFrom registry keep strict (· = t) least depth E p q := by
  obtain ⟨heof, hcolon⟩ := isShared_iff.1 ht
  intro ts c rest hH hrun
  obtain ⟨t', mid, rfl, -⟩ := cons_of_head (congrArg Token.kind hH) heof
  obtain rfl : t' = t := hH
  obtain ⟨u, rfl, -, himage⟩ := hr mid c rest trivial (hp mid ▸ hrun)
  refine ⟨t' :: u, rfl, fun _ t ht => ?_, fun hadm => ?_⟩
  · cases ht
    exact hcolon
  · obtain ⟨u', hu', hle, -, hrun'⟩ := himage (Admissible.right [t'] hadm)
    refine ⟨t' :: u', hu'.cons hcolon, ?_, fun _ => rfl, ?_⟩
    · rw [List.length_cons]
      omega
    · intro m rest' hrest' hm
      rw [List.length_cons] at hm
      rw [List.cons_append, hq]
      exact hrun' m rest' hrest' (by omega)

theorem current {f : Token → Parse γ} {g : Token → Nat → Parse δ}
    (h : ∀ t, H t → MirrorsFrom registry keep true (· = t) least depth F (f t) (g t)) :
    MirrorsFrom registry keep strict H least depth F (current >>= f) fun m => Parser.current >>= fun t => g t m :=
  of_head fun t ht => (h t ht).congr (fun _ hhead => hhead ▸ rfl) fun _ _ hhead => hhead ▸ rfl

theorem advance {f : Token → Parse γ} {g : Token → Nat → Parse δ}
    (hH : ∀ t, H t → t.kind = kind) (hkind : isShared kind = true)
    (h : ∀ t, MirrorsFrom registry keep false (fun _ => True) (least - 1) (depth + 16) F (f t) (g t)) :
    MirrorsFrom registry keep strict H least depth F (advance >>= f) fun m => Parser.advance >>= fun t => g t m := by
  refine of_head fun ⟨k, position⟩ ht => ?_
  obtain rfl : k = kind := hH _ ht
  have heof := (isShared_iff.1 hkind).1
  exact step (h _) hkind (fun mid => bind_run (advance_run heof _ _)) fun m mid => bind_run (advance_run heof _ _)

theorem expect {f : Token → Parse γ} {g : Token → Nat → Parse δ} (hkind : isShared kind = true)
    (h : ∀ t, MirrorsFrom registry keep false (fun _ => True) (least - 1) (depth + 16) F (f t) (g t)) :
    MirrorsFrom registry keep strict H least depth F (expect kind cause >>= f) fun m =>
      Parser.expect kind cause >>= fun t => g t m := by
  refine of_head fun ⟨k, position⟩ _ => ?_
  have heof := (isShared_iff.1 hkind).1
  by_cases hk : k = kind
  · subst hk
    exact step (h _) hkind (fun mid => bind_run (expect_hit heof _ _ _)) fun m mid => bind_run (expect_hit heof _ _ _)
  · intro ts c rest hhead hrun
    obtain ⟨a, mid, hexpect, -⟩ := bind_ok hrun
    rw [Parser.expect, bind_run (check_run _ _), hhead, decide_eq_false hk] at hexpect
    cases hexpect

theorem expectName {f : String → Parse γ} {g : String → Nat → Parse δ}
    (h : ∀ x, MirrorsFrom registry keep false (fun _ => True) (least - 1) (depth + 16) F (f x) (g x)) :
    MirrorsFrom registry keep strict H least depth F (expectName cause >>= f) fun m =>
      Parser.expectName cause >>= fun x => g x m := by
  refine of_head fun ⟨k, position⟩ _ => ?_
  cases k with
  | name x =>
    exact step (h x) rfl (fun mid => bind_run (expectName_hit _ _ _ _)) fun m mid => bind_run (expectName_hit _ _ _ _)
  | _ =>
    intro ts c rest hhead hrun
    obtain ⟨a, mid, hexpect, -⟩ := bind_ok hrun
    rw [Parser.expectName, bind_run (current_run _), hhead] at hexpect
    cases hexpect

theorem accept {f : Bool → Parse γ} {g : Bool → Nat → Parse δ} (hkind : isShared kind = true)
    (htrue : MirrorsFrom registry keep false (fun _ => True) (least - 1) (depth + 16) F (f true) (g true))
    (hfalse : MirrorsFrom registry keep true H least depth F (f false) (g false)) :
    MirrorsFrom registry keep strict H least depth F (accept kind >>= f) fun m =>
      Parser.accept kind >>= fun b => g b m := by
  refine of_head fun ⟨k, position⟩ ht => ?_
  have heof := (isShared_iff.1 hkind).1
  by_cases hk : k = kind
  · subst hk
    exact step htrue hkind (fun mid => bind_run (accept_hit heof _ _)) fun m mid => bind_run (accept_hit heof _ _)
  · have hmiss : MirrorsFrom registry keep true (· = ⟨k, position⟩) least depth F (f false) (g false) :=
      fun ts c rest hhead => hfalse ts c rest (hhead ▸ ht)
    exact hmiss.congr (fun ts hhead => bind_run (accept_miss (hhead ▸ hk)))
      fun m ts hhead => bind_run (accept_miss (hhead ▸ hk))

theorem check {kind : Token.Kind} {f : Bool → Parse γ} {g : Bool → Nat → Parse δ}
    (h : ∀ b, MirrorsFrom registry keep true H least depth F (f b) (g b)) :
    MirrorsFrom registry keep strict H least depth F (check kind >>= f) fun m =>
      Parser.check kind >>= fun b => g b m := by
  refine of_head fun t ht => ?_
  have hsame : MirrorsFrom registry keep true (· = t) least depth F (f (t.kind = kind)) (g (t.kind = kind)) :=
    fun ts c rest hhead => h _ ts c rest (hhead ▸ ht)
  exact hsame.congr (fun ts hhead => hhead ▸ rfl) fun m ts hhead => hhead ▸ rfl

theorem optionalType {f : Expr → Parse γ} {g : Expr → Nat → Parse δ} {r' : Nat → Parse δ}
    (htype : Mirrors registry true 1 6 id (typeExpression ctx n) (typeExpression ctx'))
    (hlength : Mirrors registry true 1 6 id (typeExpression ctx n) (typeExpression (.outermost registry)))
    (hkept : keep = true → ∀ type, Mirrors registry keep least depth F (f type) (g type))
    (hdropped : keep = false → ∀ type, Mirrors registry keep least depth F (f type) r')
    (hnone : Mirrors registry keep least depth F r r') : MirrorsFrom registry keep false H least depth F
      (Parser.accept (.symbol .doubleColon) >>= fun b => if b = true then typeExpression ctx n >>= f else r)
      fun m => Parser.accept (.symbol .doubleColon) >>= fun b =>
        if b = true then typeExpression ctx' m >>= fun type => g type m else r' m := by
  refine of_head fun t _ => ?_
  by_cases hhead : t.kind = .symbol .doubleColon
  · intro ts c rest hH hrun
    obtain ⟨⟨k, position⟩, mid, rfl, rfl⟩ := cons_of_head (k := .symbol .doubleColon) (hH ▸ hhead) nofun
    rw [bind_run (accept_hit (by simp) position mid), if_pos rfl] at hrun
    obtain ⟨type, after, htyped, hafter⟩ := bind_ok hrun
    obtain ⟨u, rfl, -, himage⟩ := htype mid type after trivial htyped
    cases keep with
    | true =>
      obtain ⟨v, rfl, hv, himage'⟩ := hkept rfl type after c rest trivial hafter
      refine ⟨⟨.symbol .doubleColon, position⟩ :: (u ++ v), by simp, nofun, fun hadm => ?_⟩
      obtain ⟨u', hu', -, hheads, hq⟩ := himage nofun
      obtain ⟨v', hv', hle, hheads', hg⟩ := himage' nofun
      obtain rfl : u' = u := hu'
      obtain rfl : v' = v := hv'
      refine ⟨⟨.symbol .doubleColon, position⟩ :: (u' ++ v'), rfl, by simp; omega, nofun, ?_⟩
      intro m rest' hrest' hm
      rw [List.length_cons, List.length_append] at hm
      have hnext : head (v' ++ rest') = head (v' ++ rest) := by rw [head_append, head_append, hrest']
      beta_reduce
      rw [List.cons_append, bind_run (accept_hit (by simp) position _), if_pos rfl,
        List.append_assoc, bind_run (hq m _ hnext (by omega))]
      exact hg m rest' hrest' (by omega)
    | false =>
      obtain ⟨v, rfl, hv, himage'⟩ := hdropped rfl type after c rest trivial hafter
      refine ⟨⟨.symbol .doubleColon, position⟩ :: (u ++ v), by simp, nofun, fun hadm => ?_⟩
      obtain ⟨hdirective, -, hrest⟩ := hadm rfl
      obtain ⟨v', hv', hle, hheads, hg⟩ := himage'
        (Admissible.right (⟨.symbol .doubleColon, position⟩ :: u) (by simpa using hadm))
      refine ⟨v', ?_, hle, nofun, ?_⟩
      · -- the type takes up exactly the tokens that were read for it
        have hu : ∀ t ∈ u, t.isDirective = false := fun t ht =>
          hdirective t (List.mem_cons_of_mem _ (List.mem_append_left _ ht))
        have hall : withoutDirectives (u ++ (v ++ rest)) = u ++ (v ++ rest) :=
          withoutDirectives_eq fun t ht => hdirective t (List.mem_cons_of_mem _ ht)
        have hlen : typeLength registry (u ++ (v ++ rest)) = u.length := typeLength_eq hlength htyped
        have hthin : withoutTypes registry 0 (⟨.symbol .doubleColon, position⟩ :: (u ++ (v ++ rest))) =
            withoutTypes registry 0 (v ++ rest) := by
          rw [withoutTypes, if_pos rfl, hall, hlen, withoutTypes_skip _ hu]
        have hv'' : withoutTypes registry 0 (v ++ rest) = v' ++ withoutTypes registry 0 rest := hv'
        show withoutTypes registry 0 (⟨.symbol .doubleColon, position⟩ :: (u ++ v) ++ rest) = _
        rw [List.cons_append, List.append_assoc, hthin, hv'']
      · intro m rest' hrest' hm
        have hnext : head (v' ++ rest') = head (v ++ rest) := by rw [head_append, head_append, hheads rfl, hrest']
        have hmiss : (head (v' ++ rest')).kind ≠ .symbol .doubleColon := by
          rw [hnext]
          cases v with
          | nil => exact hrest
          | cons t v => exact hv rfl t rfl
        beta_reduce
        rw [bind_run (accept_miss hmiss), if_neg nofun]
        exact hg m rest' hrest' hm
  · have hmiss : MirrorsFrom registry keep true (· = t) least depth F r r' := .call hnone (by simp) (by simp)
    exact hmiss.congr (fun ts h => bind_run (accept_miss (h ▸ hhead)))
      fun m ts h => bind_run (accept_miss (h ▸ hhead))

end MirrorsFrom

end Parser

end TypedLua
