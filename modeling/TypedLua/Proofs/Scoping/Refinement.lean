import TypedLua.Proofs.Scoping.Generation
import TypedLua.Proofs.Scoping.Stability

/-!
# Scoping of modules that are loaded

A generated module respects the scoping of its chunk, word by word.
-/

namespace TypedLua.Target.Scoping

open Generate

/-- The variables of a module are those of its chunk: each occurrence of a name in the chunk is the
variable of its innermost declaration, found in the definition that holds this declaration, and the
variables have distinct names that are free for them. -/
structure Refines (c : Chunk) (m : Module) (given : List String) : Prop where
  code : ModuleCode c m given
  nodup : given.Nodup
  free : ∀ x ∈ given, IsFree x

/-- The normal form keeps the words apart, and it keeps them free for variables. -/
structure Separates (words : List String) : Prop where
  injective : Set.InjOn Text.normal {x | x ∈ words}
  free : ∀ x ∈ words, IsFree (Text.normal x)

theorem normal_chunk : Text.normal "chunk" = "chunk" := Text.normal_of_ascii rfl

theorem Refines.load (h : Refines c m given) (hload : m.load file header = .ok m')
    (hwords : Separates given) : Refines c m' (given.map Text.normal) := by
  obtain ⟨body⟩ := m'
  obtain rfl := Module.load_eq hload
  refine ⟨h.code.rename hwords.injective normal_chunk, ?_, ?_⟩
  · exact h.nodup.map_on fun _ hx _ hy => hwords.injective hx hy
  · intro y hy
    obtain ⟨x, hx, rfl⟩ := List.mem_map.1 hy
    exact hwords.free x hx

theorem Refines.separates {words : List String} (h : Refines c m (words.map Text.normal)) :
    Separates words where
  injective := List.inj_on_of_nodup_map h.nodup
  free _ hx := h.free _ (List.mem_map_of_mem hx)

/-- The module of a chunk refines the scoping of the chunk, and what the target language reads of it
still does so exactly if the normal form separates the words that the module was given. -/
theorem generate_refines {c : Chunk} {m : Module} (h : generate c = .ok m) :
    ∃ given, Refines c m given ∧ ∀ file header m', m.load file header = .ok m' →
      (Refines c m' (given.map Text.normal) ↔ Separates given) := by
  obtain ⟨given, hcode, hnodup, hfree⟩ := generate_moduleCode h
  have hrefines : Refines c m given := ⟨hcode, hnodup, hfree⟩
  exact ⟨given, hrefines, fun file header m' hload => ⟨Refines.separates, hrefines.load hload⟩⟩

/-- A chunk whose words `fi` and `ﬁ`, the second one a single letter, have one normal form:

```
local fi = 'outer'
local function g() local ﬁ = 'inner' return fi end
return g()
```

What is read of its module takes the variable of `g` for that of the chunk. -/
def ligatureChunk : Chunk :=
  let name (x : String) : TypedLua.Expr := .name none x
  ⟨none, .mk none [
    .localVars none ["fi"] [.string none "outer"] [],
    .localFunction none "g" (.mk none [] false (.mk none [ .localVars none ["ﬁ"] [.string none "inner"] [],
      .returnValues none [name "fi"]]) [] none (some "g")),
    .returnValues none [.call none (name "g") []]], none⟩

def ligatureModule : Module := ⟨[.assign "fi" (.string "outer"), .define (.mk "g" [] .ignored [] [
      .assign "ﬁ" (.string "inner"),
      .answer false (.call (.single (.var "fi")))]),
    .answer false (.call (.call (.var "g") [] none))]⟩

theorem generate_refines_ligature : generate ligatureChunk = .ok ligatureModule ∧
    ∃ given, Refines ligatureChunk ligatureModule given ∧ ∀ file header m', ligatureModule.load file header = .ok m' →
        (Refines ligatureChunk m' (given.map Text.normal) ↔ Separates given) :=
  have hgenerate : generate ligatureChunk = .ok ligatureModule := by with_unfolding_all rfl
  ⟨hgenerate, generate_refines hgenerate⟩

end TypedLua.Target.Scoping
