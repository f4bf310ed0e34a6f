import TypedLua.Proofs.Checking.Temporaries
import TypedLua.Proofs.Checking.Visits

/-!
# What the names in a check refer to

The predicate of an annotation is evaluated where its checks stand, in the scope of that place.
-/

namespace TypedLua.Target.Scoping

/-! ## Scopes that extend each other -/

/-- Where a check at a place evaluates its predicate: at the place itself if the term can be read twice, and
behind the declaration of the temporary otherwise. -/
inductive CheckPlace (p : Place) (predicate : TypedLua.Expr) :
    TypedLua.Expr → TypedLua.Expr → Place → Prop
  | yielded {term} (hterm : term.isTrivial = true) : CheckPlace p predicate term (Check.yieldTrivial predicate term) p
  | bound {term temporary name} (hterm : term.isTrivial = false) :
      CheckPlace p predicate term (Check.yieldBound temporary predicate term) (p.declare temporary name)

theorem CheckPlace.suffix {predicate term check : TypedLua.Expr}
    (h : CheckPlace p predicate term check q) : p.scope <:+ q.scope := by
  cases h with
  | yielded => exact List.suffix_refl _
  | bound => exact List.suffix_cons _ _

/-! ## Chunks -/

end TypedLua.Target.Scoping
