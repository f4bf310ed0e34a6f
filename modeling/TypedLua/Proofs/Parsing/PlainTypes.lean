import TypedLua.Annotation.Erase
import TypedLua.Proofs.Types.Compiling

/-!
# Types are made of expressions

Inside a type the word `function` opens a function type, so a type has no functions, and hence no
annotations and no statements that run, outside of function types.
-/

namespace TypedLua.Parser

open Annotation

/-- A property of expressions that passes from the parts of an expression to the expression. -/
structure Congruent (P : Expr → Prop) : Prop where
  nil : ∀ loc, P (.nil loc)
  bool : ∀ loc b, P (.bool loc b)
  number : ∀ loc n, P (.number loc n)
  string : ∀ loc s, P (.string loc s)
  vararg : ∀ loc, P (.vararg loc)
  name : ∀ loc x, P (.name loc x)
  signature : ∀ loc params body, P (.signature loc params body)
  table : ∀ loc fields, (∀ f ∈ fields, f.All P) → P (.table loc fields)
  binary : ∀ loc left op right, P left → P right → P (.binary loc left op right)
  unary : ∀ loc op operand, P operand → P (.unary loc op operand)
  call : ∀ loc callee args, P callee → (∀ e ∈ args, P e) → P (.call loc callee args)
  method : ∀ loc object member args, P object → (∀ e ∈ args, P e) → P (.method loc object member args)
  index : ∀ loc object key, P object → P key → P (.index loc object key)
  paren : ∀ loc inner, P inner → P (.paren loc inner)

def Lasting (P : Expr → Prop) (e : Expr) : Prop :=
  P e ∧ ∀ registry bound p, compileType registry bound e = .ok p → P p

theorem Congruent.lasting {P : Expr → Prop} (h : Congruent P) (he : P e)
    (hkeys : ∀ k ∈ shapeKeys e, P k) (hparts : ∀ d ∈ subtypes e, Lasting P d) : Lasting P e := by
  refine ⟨he, fun registry bound p hp => ?_⟩
  have hbuilds : Builds P := ⟨fun _ _ _ => h.index _ _ _ (h.name _ _) (h.string _ _), h.call, h.table⟩
  exact hbuilds.compileType hp he hkeys fun d hd => (hparts d hd).2 registry bound

/-- The expression is built like a type: it has every property of this kind, also when it is compiled. -/
def IsType (e : Expr) : Prop := ∀ P, Congruent P → Lasting P e

theorem IsType.table (hfields : ∀ f ∈ fields, f.All IsType) : IsType (.table loc fields) := by
  intro P h
  refine h.lasting (h.table loc fields ?_) ?_ ?_
  · rintro ⟨floc, key, value⟩ hmem
    exact ⟨fun e he => ((hfields _ hmem).1 e he P h).1, ((hfields _ hmem).2 P h).1⟩
  · intro e he
    obtain ⟨⟨floc, key, value⟩, hmem, he⟩ := List.mem_flatMap.1 he
    exact ((hfields _ hmem).1 e (Option.mem_toList.1 he) P h).1
  · intro e he
    obtain ⟨⟨floc, key, value⟩, hmem, rfl⟩ := List.mem_map.1 he
    exact (hfields _ hmem).2 P h

theorem IsType.signature {loc : Loc} {body : Block} (hparams : ∀ e ∈ params, IsType e)
    (hbody : ∀ s ∈ body.stmts, ∀ loc values, s = .returnValues loc values → ∀ e ∈ values, IsType e) :
    IsType (.signature loc params body) := by
  intro P h
  refine h.lasting (h.signature loc params body) (List.forall_mem_nil _) (List.forall_mem_append.2 ⟨?_, ?_⟩)
  · exact fun e he => hparams e he P h
  · intro e he
    rw [Option.mem_toList] at he
    unfold signatureResult? at he
    split at he
    · exact hbody _ List.mem_cons_self _ _ rfl e (by simpa using he.symm) P h
    · cases he

/-! ## Erasing annotations -/

theorem eraseExprs_of_forall (h : ∀ e ∈ es, e.erase = e) : eraseExprs es = es := by
  induction es with
  | nil => rfl
  | cons e es ih =>
    obtain ⟨he, hes⟩ := List.forall_mem_cons.1 h
    rw [eraseExprs, he, ih hes]

theorem eraseFields_of_forall (h : ∀ f ∈ fields, f.All fun e => e.erase = e) : eraseFields fields = fields := by
  induction fields with
  | nil => rfl
  | cons field fields ih =>
    obtain ⟨hfield, hfields⟩ := List.forall_mem_cons.1 h
    obtain ⟨loc, key, value⟩ := field
    rw [eraseFields, hfield.2, ih hfields]
    cases key with
    | none => rfl
    | some key => rw [eraseOption, hfield.1 key rfl]

theorem congruent_erase : Congruent fun e => e.erase = e where
  nil _ := rfl
  bool _ _ := rfl
  number _ _ := rfl
  string _ _ := rfl
  vararg _ := rfl
  name _ _ := rfl
  signature _ _ _ := rfl
  table _ _ h := by rw [Expr.erase, eraseFields_of_forall h]
  binary _ _ _ _ hleft hright := by rw [Expr.erase, hleft, hright]
  unary _ _ _ h := by rw [Expr.erase, h]
  call _ _ _ hcallee hargs := by rw [Expr.erase, hcallee, eraseExprs_of_forall hargs]
  method _ _ _ _ hobj hargs := by rw [Expr.erase, hobj, eraseExprs_of_forall hargs]
  index _ _ _ hobj hkey := by rw [Expr.erase, hobj, hkey]
  paren _ _ h := by rw [Expr.erase, h]

theorem eraseExprs_of_namesOf? (h : namesOf? es = some xs) : eraseExprs es = es := by
  induction es generalizing xs with
  | nil => rfl
  | cons e es ih =>
    cases e with
    | name loc x =>
      rw [namesOf?, Option.map_eq_some_iff] at h
      obtain ⟨ys, hys, -⟩ := h
      rw [eraseExprs, ih hys]
      rfl
    | _ => cases h

theorem erase_declaration {type : Expr} (htype : Lasting (fun e => e.erase = e) type)
    (h : compileDeclaration registry declared type = .ok s) : declared.erase = declared ∧ s.erase = s := by
  rw [compileDeclaration.eq_def] at h
  split at h
  · obtain ⟨p, hp, h⟩ := except_bind_ok h
    cases h
    have hpred : p.erase = p := htype.2 _ _ p hp
    refine ⟨rfl, ?_⟩
    simp only [Stmt.erase, eraseExprs, hpred]
    rfl
  · split at h
    · next hnames =>
      obtain ⟨p, hp, h⟩ := except_bind_ok h
      cases h
      have hpred : p.erase = p := htype.2 _ _ p hp
      refine ⟨by rw [Expr.erase, eraseExprs_of_namesOf? hnames]; rfl, ?_⟩
      simp only [Stmt.erase, eraseExprs, Expr.erase, Function.erase, Block.erase, eraseStmts, hpred]
      rfl
    · cases h
  · cases h

end TypedLua.Parser
