import TypedLua.Proofs.Syntax.Induction
import TypedLua.Syntax.Closures

/-!
# Trees without functions

A list of trees is without functions if each of its members is.
-/

namespace TypedLua

end TypedLua
