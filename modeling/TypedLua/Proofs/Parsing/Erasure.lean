import TypedLua.Annotation.Instrument
import TypedLua.Proofs.Parsing.Stripping

/-!
# Disabling checks is deleting annotations

With checks turned off a chunk loses its annotations.
-/

namespace TypedLua.Parser

/-! ## Directives -/

theorem isDirective_of_mem : ∀ t ∈ withoutDirectives ts, t.isDirective = false := by
  intro t ht
  rw [withoutDirectives, List.mem_filter] at ht
  obtain ⟨kind, position⟩ := t
  cases kind with
  | directive on => exact absurd ht.2 (by simp)
  | _ => rfl

theorem withoutDirectives_cons (t : Token) (ts : List Token) :
    withoutDirectives (t :: ts) = if t.isDirective then withoutDirectives ts
      else t :: withoutDirectives ts := by
  obtain ⟨kind, position⟩ := t
  cases kind <;> rfl

theorem withoutDirectives_withoutTypes (registry : String) (skip : Nat) (ts : List Token) :
    withoutDirectives (withoutTypes registry skip ts) = withoutTypes registry skip (withoutDirectives ts) := by
  induction ts generalizing skip with
  | nil => cases skip <;> rfl
  | cons t ts ih =>
    rw [withoutDirectives_cons]
    cases hd : t.isDirective with
    | true =>
      have hkind : t.kind ≠ .symbol .doubleColon := by
        intro hkind
        rw [Token.isDirective, hkind] at hd
        cases hd
      cases skip with
      | zero => rw [withoutTypes_cons hkind, withoutDirectives_cons, hd, if_pos rfl, if_pos rfl, ih]
      | succ skip => rw [withoutTypes, hd, if_pos rfl, withoutDirectives_cons, hd, if_pos rfl, if_pos rfl, ih]
    | false =>
      rw [if_neg (by simp)]
      cases skip with
      | zero =>
        by_cases hkind : t.kind = .symbol .doubleColon
        · rw [withoutTypes, if_pos hkind, withoutTypes, if_pos hkind, ih, withoutDirectives_eq isDirective_of_mem]
        · rw [withoutTypes_cons hkind, withoutTypes_cons hkind, withoutDirectives_cons, hd, if_neg (by simp), ih]
      | succ skip => rw [withoutTypes, hd, if_neg (by simp), withoutTypes, hd, if_neg (by simp), ih]

def directive? (t : Token) : Option Bool := match t.kind with
  | .directive on => some on
  | _ => none

theorem foldl_directive {f : Option Bool → Token → Option Bool}
    (hf : ∀ found t, f found t = (directive? t).or found) (ts : List Token) (found : Option Bool) :
    ts.foldl f found = (ts.foldl f none).or found := by
  induction ts generalizing found with
  | nil => rfl
  | cons t ts ih => rw [List.foldl_cons, List.foldl_cons, ih, ih (f none t), hf, hf, Option.or_none, Option.or_assoc]

theorem lastDirective_cons (t : Token) (ts : List Token) :
    lastDirective (t :: ts) = (lastDirective ts).or (directive? t) := by
  rw [lastDirective, List.foldl_cons, foldl_directive]
  · obtain ⟨kind, position⟩ := t
    cases kind <;> rfl
  · rintro found ⟨kind, position⟩
    cases kind <;> rfl

theorem lastDirective_withoutTypes (registry : String) (skip : Nat) (ts : List Token) :
    lastDirective (withoutTypes registry skip ts) = lastDirective ts := by
  have hnone : ∀ t : Token, t.isDirective = false → directive? t = none := by
    rintro ⟨kind, position⟩ h
    cases kind with
    | directive on => cases h
    | _ => rfl
  induction ts generalizing skip with
  | nil => cases skip <;> rfl
  | cons t ts ih =>
    rw [lastDirective_cons]
    cases skip with
    | zero =>
      by_cases hkind : t.kind = .symbol .doubleColon
      · rw [withoutTypes, if_pos hkind, ih, hnone t (by rw [Token.isDirective, hkind]), Option.or_none]
      · rw [withoutTypes_cons hkind, lastDirective_cons, ih]
    | succ skip =>
      cases hd : t.isDirective with
      | true => rw [withoutTypes, hd, if_pos rfl, lastDirective_cons, ih]
      | false => rw [withoutTypes, hd, if_neg (by simp), ih, hnone t hd, Option.or_none]

/-! ## Chunks -/

theorem withoutTypes_head (h : (head ts).kind = .eof) : head (withoutTypes registry 0 ts) = head ts := by
  cases ts with
  | nil => rfl
  | cons t ts => rw [withoutTypes_cons (by rw [show t.kind = .eof from h]; simp)]; rfl

theorem chunkBody_withoutTypes
    (hdirective : ∀ t ∈ ts, t.isDirective = false) (hplain : plainDeclarations registry ts = true)
    (h : chunkBody (.outermost registry) n ts = .ok (body, rest)) : head (withoutTypes registry 0 ts) = head ts ∧
      chunkBody (.outermost registry) (depthBound (withoutTypes registry 0 ts).length)
        (withoutTypes registry 0 ts) = .ok (body.erase, withoutTypes registry 0 rest) := by
  obtain ⟨body', mid, hblock, h⟩ := bind_ok h
  rw [bind_run (current_run mid)] at h
  by_cases heof : (head mid).kind = .eof
  · rw [if_pos heof] at h
    cases h
    have hfit : Fits registry false (.outermost registry) (.outermost registry) := ⟨rfl, rfl, rfl, id, fun _ => rfl⟩
    obtain ⟨used, rfl, -, himage⟩ := (mirrored registry n).block hfit ts body rest trivial hblock
    obtain ⟨used', hused, -, hheads, hrun⟩ := himage fun _ => ⟨hdirective, hplain, by simp [heof]⟩
    have hthin : withoutTypes registry 0 (used ++ rest) = used' ++ withoutTypes registry 0 rest := hused
    have hrest : head (withoutTypes registry 0 rest) = head rest := withoutTypes_head heof
    have hbody := hrun (depthBound (used' ++ withoutTypes registry 0 rest).length) _ hrest
      (by simp [depthBound]; omega)
    rw [hthin]
    refine ⟨by rw [head_append, head_append, hheads rfl, hrest], ?_⟩
    rw [chunkBody, bind_run hbody, bind_run (current_run _), hrest, if_pos heof]
    rfl
  · rw [if_neg heof] at h
    cases h

/-- Parsing a chunk without its annotations gives the tree that is made of the chunk when checks are
off, if there are no annotations in the declared types. -/
theorem parse_withoutTypes {registry : String} {tokens : List Token} {c : Chunk}
    (hparse : parse registry tokens = .ok c)
    (hplain : plainDeclarations registry (withoutDirectives tokens) = true) (stem : String) :
    ∃ c', parse registry (withoutTypes registry 0 tokens) = .ok c' ∧ c.prepare false registry stem = .ok (c', 0) := by
  refine ⟨c.erase, ?_, rfl⟩
  simp only [parse] at hparse
  split at hparse
  · next body rest hbody =>
    cases hparse
    obtain ⟨hhead, hrun⟩ := chunkBody_withoutTypes isDirective_of_mem hplain hbody
    simp only [parse, withoutDirectives_withoutTypes, lastDirective_withoutTypes]
    have hrun' := hrun
    rw [Context.outermost] at hrun'
    rw [hrun', hhead]
    rfl
  · cases hparse

/-- `newtype Id = number or string local x :: {Id}, y :: function(a) return b end = f(...)`, with a
directive inside the first annotation. -/
def annotatedTokens : List Token :=
  ([.keyword .newtype_, .name "Id", .symbol .assign, .name "number", .keyword .or_, .name "string",
    .keyword .local_, .name "x", .symbol .doubleColon, .symbol .lbrace, .directive false, .name "Id",
    .symbol .rbrace, .symbol .comma, .name "y", .symbol .doubleColon, .keyword .function_,
    .symbol .lparen, .name "a", .symbol .rparen, .keyword .return_, .name "b", .keyword .end_,
    .symbol .assign, .name "f", .symbol .lparen, .symbol .ellipsis, .symbol .rparen, .eof] :
    List Token.Kind).map (⟨·, .start⟩)

theorem parse_withoutTypes_annotatedTokens : (withoutTypes "types" 0 annotatedTokens).map Token.kind =
      [.keyword .newtype_, .name "Id", .symbol .assign, .name "number", .keyword .or_, .name "string",
        .keyword .local_, .name "x", .directive false, .symbol .comma, .name "y", .symbol .assign,
        .name "f", .symbol .lparen, .symbol .ellipsis, .symbol .rparen, .eof] ∧
    ∃ c c', parse "types" annotatedTokens = .ok c ∧ parse "types" (withoutTypes "types" 0 annotatedTokens) = .ok c' ∧
      c.prepare false "types" "_v" = .ok (c', 0) := by
  have hplain : plainDeclarations "types" (withoutDirectives annotatedTokens) = true := by decide +kernel
  obtain ⟨c, hc⟩ : ∃ c, parse "types" annotatedTokens = .ok c := ⟨_, rfl⟩
  obtain ⟨c', hc'⟩ := parse_withoutTypes hc hplain "_v"
  exact ⟨by decide +kernel, c, c', hc, hc'⟩

end TypedLua.Parser
