import TypedLua.Proofs.Loops.Statements
import TypedLua.Proofs.Scoping.ExprSoundness
import TypedLua.Session

/-!
# How functions and chunks complete

A function that ends at the end of its body delivers one nil, exactly as if `return nil` stood
there; a `return` without values delivers none.
-/

namespace TypedLua

open Target Target.Scoping Generate

def Function.ending (last : TypedLua.Stmt) : TypedLua.Function → TypedLua.Function
  | .mk loc params isVararg (.mk bodyLoc body) paramTypes returnType label =>
    .mk loc params isVararg (.mk bodyLoc (body ++ [last])) paramTypes returnType label

def Chunk.ending (last : TypedLua.Stmt) (c : Chunk) : Chunk :=
  { c with body := .mk c.body.loc (c.body.stmts ++ [last]) }

/-! ## The code of a body with an ending -/

namespace Target.Generate

def Answers (last : TypedLua.Stmt) (value : Answer) : Prop := ∀ ctx st, stmt ctx last st =
    .ok (ctx, { st with suite := st.suite ++ [.answer ctx.inIteration value] })

theorem answers_nil (loc : Loc) : Answers (.returnValues loc [.nil loc]) (.call (.single .null)) := by
  intro ctx st
  rfl

end Target.Generate

/-! ## Bodies -/

namespace Machine

def runBody (m : Machine) (c : Closure) (args : List Value) : Run Signal := match c.code with
  | .mk _ params rest _ body => do
    let frame ← Run.newFrame (bindParams params args ++ c.own.map (·, .unset))
    let varargs := varargsOf rest c.env.varargs (args.drop params.length)
    execStmts m { c.env with varargs, frames := frame :: c.env.frames } body

def deliver (m : Machine) (c : Closure) (args : List Value) : Run Result := do
  let flow ← runDefinition m c args
  return resultOf flow

def delivered : Signal → Result
  | .done flow => resultOf flow
  | .next | .leave => .one .nil

theorem deliver_eq (m : Machine) (c : Closure) (args : List Value) :
    deliver m c args = (runBody m c args >>= fun signal => pure (delivered signal)) := by
  obtain ⟨⟨name, params, rest, nonlocals, body⟩, own, env⟩ := c
  simp only [deliver, runDefinition, runBody, bind_assoc]
  congr 1
  funext frame
  congr 1
  funext signal
  cases signal <;> simp [delivered, resultOf]

def outermost : Machine := ⟨fuel - 2, callWithin unwatched (fuel - 2), enterWithin unwatched (fuel - 2), unwatched⟩

end Machine

namespace Target

end Target

namespace Session

end Session

end TypedLua
