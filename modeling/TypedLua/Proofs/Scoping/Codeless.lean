import TypedLua.Proofs.Parsing.PlainTypes
import TypedLua.Proofs.Scoping.Emission
import TypedLua.Proofs.Syntax.FunctionFree

/-!
# Expressions without definitions in front

A function in an expression needs a definition in front of the statement that the expression stands
in.
-/

namespace TypedLua.Target.Scoping

open Generate

variable [LoopForms]

def Codeless (e : TypedLua.Expr) : Prop := ∀ ⦃p code call given⦄, ExprCode p e code call given → code = []

theorem listCode_codeless {p : Place} {es : List TypedLua.Expr} {code : List Stmt}
    {list : List Expr × Option Tail} {given : List String} (hes : ∀ e ∈ es, Codeless e)
    (h : ListCode p es code list given) : code = [] := by
  induction es generalizing code list given with
  | nil =>
    cases h
    rfl
  | cons e es ih =>
    obtain ⟨he, hes⟩ := List.forall_mem_cons.1 hes
    cases h with
    | last h => exact he h
    | cons hhead htail => rw [he hhead, ih hes htail, List.append_nil]

theorem itemsCode_codeless (hfields : ∀ f ∈ fields, f.All Codeless)
    (h : ItemsCode p fields code list given) : code = [] := by
  induction fields generalizing code list given with
  | nil =>
    cases h
    rfl
  | cons field fields ih =>
    obtain ⟨hfield, hrest⟩ := List.forall_mem_cons.1 hfields
    cases h with
    | keyed hkey hval htail =>
      rw [hfield.1 _ rfl hkey, hfield.2 hval, ih hrest htail]
      rfl
    | last h => exact hfield.2 h
    | positional hval htail => rw [hfield.2 hval, ih hrest htail, List.append_nil]

theorem congruent_codeless : Parser.Congruent Codeless where
  nil _ _ _ _ _ h := by cases h; rfl
  bool _ _ _ _ _ _ h := by cases h; rfl
  number _ _ _ _ _ _ h := by cases h; rfl
  string _ _ _ _ _ _ h := by cases h; rfl
  vararg _ _ _ _ _ h := by cases h; rfl
  name _ _ _ _ _ _ h := by cases h <;> rfl
  signature _ _ _ _ _ _ _ h := by cases h
  table _ _ hfields _ _ _ _ h := by
    cases h with
    | table hitems => exact itemsCode_codeless hfields hitems
  binary _ _ _ _ hl hr _ _ _ _ h := by
    cases h with
    | binary _ hleft hright => rw [hl hleft, hr hright, List.append_nil]
    | andThen _ hleft hright => rw [hl hleft, hr hright, List.append_nil]
    | orElse _ hleft hright => rw [hl hleft, hr hright, List.append_nil]
  unary _ _ _ ho _ _ _ _ h := by
    cases h with
    | negation h => exact ho h
    | length h => exact ho h
    | minus h => exact ho h
  call _ _ _ hc has _ _ _ _ h := by
    cases h with
    | call hcallee hargs => rw [hc hcallee, listCode_codeless has hargs, List.append_nil]
  method _ _ _ _ ho has _ _ _ _ h := by
    cases h with
    | method hobj hargs => rw [ho hobj, listCode_codeless has hargs, List.append_nil]
  index _ _ _ ho hk _ _ _ _ h := by
    cases h with
    | index hobj hkey => rw [ho hobj, hk hkey, List.append_nil]
  paren _ _ hi _ _ _ _ h := by
    cases h with
    | paren h => exact hi h

end TypedLua.Target.Scoping
