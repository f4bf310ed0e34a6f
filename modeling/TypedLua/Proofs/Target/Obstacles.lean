import TypedLua.Target.Generate

/-!
# What keeps code from being generated

Three things in a tree have no code: a number that cannot be written, a function type, and a `break`
whose innermost loop or function around is no loop.
-/

namespace TypedLua

inductive Obstacle where
  | unwritable
  | functionType (loc : Loc)
  /-- A `break` whose innermost loop or function around, if it has one, is no loop. -/
  | breakOutside (loc : Loc)
  deriving Repr, DecidableEq

def Obstacle.failure : Obstacle → Target.GenerateFailure
  | unwritable => .unwritable
  | functionType loc => .invalid .functionType loc
  | breakOutside loc => .invalid .breakOutside loc

mutual

def Expr.obstacles : Expr → List Obstacle
  | .nil _ | .bool .. | .string .. | .vararg _ | .name .. => []
  | .number _ n => if n.isWritable then [] else [.unwritable]
  | .function f => f.obstacles
  | .signature loc _ _ => [.functionType loc]
  | .table _ fields => fieldsObstacles fields
  | .binary _ left _ right => left.obstacles ++ right.obstacles
  | .unary _ _ operand => operand.obstacles
  | .call _ callee args => callee.obstacles ++ exprsObstacles args
  | .method _ object _ args => object.obstacles ++ exprsObstacles args
  | .index _ object key => object.obstacles ++ key.obstacles
  | .paren _ inner => inner.obstacles
  | .block _ ss value => stmtsObstacles false ss ++ value.obstacles

def exprsObstacles : List Expr → List Obstacle
  | [] => []
  | e :: es => e.obstacles ++ exprsObstacles es

def optionObstacles : Option Expr → List Obstacle
  | none => []
  | some e => e.obstacles

def fieldsObstacles : List Field → List Obstacle
  | [] => []
  | .mk _ key value :: fields => optionObstacles key ++ value.obstacles ++ fieldsObstacles fields

def Function.obstacles : Function → List Obstacle
  | .mk _ _ _ body _ _ _ => body.obstacles false

def Block.obstacles (inLoop : Bool) : Block → List Obstacle
  | .mk _ ss => stmtsObstacles inLoop ss

def otherwiseObstacles (inLoop : Bool) : Option Block → List Obstacle
  | none => []
  | some b => b.obstacles inLoop

def clausesObstacles (inLoop : Bool) : List Clause → List Obstacle
  | [] => []
  | .mk condition body :: clauses => condition.obstacles ++ body.obstacles inLoop ++ clausesObstacles inLoop clauses

def stmtsObstacles (inLoop : Bool) : List Stmt → List Obstacle
  | [] => []
  | s :: ss => s.obstacles inLoop ++ stmtsObstacles inLoop ss

def Stmt.obstacles (inLoop : Bool) : Stmt → List Obstacle
  | .localVars _ _ values _ => exprsObstacles values
  | .localFunction _ _ f => f.obstacles
  | .assign _ targets values => exprsObstacles values ++ exprsObstacles targets
  | .expr _ e => e.obstacles
  | .scope _ body => body.obstacles inLoop
  | .whileLoop _ condition body => condition.obstacles ++ body.obstacles true
  | .repeatLoop _ body condition => body.obstacles true ++ condition.obstacles
  | .ifElse _ condition body clauses otherwise =>
    condition.obstacles ++ body.obstacles inLoop ++ clausesObstacles inLoop clauses ++
      otherwiseObstacles inLoop otherwise
  | .numericFor _ _ start stop step body =>
    start.obstacles ++ stop.obstacles ++ optionObstacles step ++ body.obstacles true
  | .genericFor _ _ iterators body => exprsObstacles iterators ++ body.obstacles true
  | .returnValues _ values => exprsObstacles values
  | .breakLoop loc => if inLoop then [] else [.breakOutside loc]

end

section Equations

-- The equations of these functions are made here, so that the proofs that open them need not wait.
attribute [local simp] Expr.obstacles exprsObstacles optionObstacles fieldsObstacles Function.obstacles
  Block.obstacles otherwiseObstacles clausesObstacles stmtsObstacles Stmt.obstacles

end Equations

def Chunk.obstacles (c : Chunk) : List Obstacle := c.body.obstacles false

namespace Target.Generate

/-- The step fails with the first of the obstacles; if there is none it delivers something with a property. -/
def Meets {α : Type} (Q : α → Prop) (step : Gen α) (obstacles : List Obstacle) : Prop := ∀ st, match step st with
    | .ok (a, _) => obstacles = [] ∧ Q a
    | .error failure => obstacles.head?.map Obstacle.failure = some failure

/-- The step meets the obstacles, whatever it delivers. -/
abbrev Fails {α : Type} (step : Gen α) (obstacles : List Obstacle) : Prop := Meets (fun _ => True) step obstacles

namespace Meets

variable {α β : Type} {Q : α → Prop} {R : β → Prop} {l l' : List Obstacle}

theorem bind {p : Gen α} {f : α → Gen β} (hp : Meets Q p l) (hf : ∀ a, Q a → Meets R (f a) l') :
    Meets R (p >>= f) (l ++ l') := by
  intro st
  have hst := hp st
  show match (p st).bind (fun r => f r.1 r.2) with
    | .ok (b, _) => l ++ l' = [] ∧ R b
    | .error failure => (l ++ l').head?.map Obstacle.failure = some failure
  cases hrun : p st with
  | error failure =>
    rw [hrun] at hst
    obtain ⟨obstacle, hobstacle, rfl⟩ := Option.map_eq_some_iff.1 hst
    show (l ++ l').head?.map Obstacle.failure = some obstacle.failure
    rw [List.head?_append, hobstacle]
    rfl
  | ok r =>
    obtain ⟨a, st'⟩ := r
    rw [hrun] at hst
    obtain ⟨rfl, ha⟩ := hst
    exact hf a ha st'

theorem pure {a : α} (ha : Q a) : Meets Q (pure a : Gen α) [] := fun _ => ⟨rfl, ha⟩

theorem map {f : α → Gen β} (hp : Meets Q p l) (hf : ∀ a, Q a → Meets R (f a) []) : Meets R (p >>= f) l :=
  List.append_nil l ▸ hp.bind hf

theorem skip {f : α → Gen β} (hp : Meets Q p []) (hf : ∀ a, Q a → Meets R (f a) l) : Meets R (p >>= f) l :=
  hp.bind hf

theorem throw (obstacle : Obstacle) : Meets Q (throw obstacle.failure : Gen α) [obstacle] := fun _ => rfl

end Meets

/-! ## Steps that cannot fail -/

theorem fails_of_run {α : Type} {step : Gen α} (h : ∀ st, ∃ r, step st = .ok r) : Fails step [] := by
  intro st
  obtain ⟨r, hr⟩ := h st
  rw [hr]
  exact ⟨rfl, trivial⟩

theorem fails_pure {α : Type} (a : α) : Fails (pure a : Gen α) [] := .pure trivial

theorem fails_unique (base : String) : Fails (unique base) [] := fails_of_run fun _ => ⟨_, rfl⟩

theorem fails_emit (s : Stmt) : Fails (emit s) [] := fails_of_run fun _ => ⟨_, rfl⟩

theorem fails_get : Fails (get : Gen State) [] := fails_of_run fun _ => ⟨_, rfl⟩

theorem fails_set (st : State) : Fails (set st : Gen PUnit) [] := fails_of_run fun _ => ⟨_, rfl⟩

theorem fails_fillSuite : Fails fillSuite [] := by
  refine fails_get.skip fun st _ => ?_
  split
  · exact fails_emit _
  · exact .pure trivial

def Context.inLoop (ctx : Context) : Bool := !(ctx.loops = 0 && !ctx.inIteration)

theorem Context.inLoop_declaring (ctx : Context) (x : String) (b : Binding) :
    (ctx.declaring x b).inLoop = ctx.inLoop := by
  rw [declaring]
  split <;> rfl

theorem inLoop_iterationContext (ctx : Context) (loopNames : List (String × String)) :
    (iterationContext ctx loopNames).inLoop = true := by
  have hfold (inner : Context) (h : inner.inLoop = true) : (loopNames.foldl (fun c pair =>
      c.declaring pair.1 ⟨pair.2, ctx.depth + 1⟩) inner).inLoop = true := by
    induction loopNames generalizing inner with
    | nil => exact h
    | cons pair loopNames ih => exact ih _ (by rw [Context.inLoop_declaring, h])
  exact hfold _ rfl

theorem meets_declare (ctx : Context) (x : String) : Meets (fun r => r.2.inLoop = ctx.inLoop) (declare ctx x) [] :=
  (fails_unique x).skip fun fresh _ => .pure (ctx.inLoop_declaring x ⟨fresh, ctx.depth⟩)

theorem meets_declareAll (ctx : Context) (xs : List String) :
    Meets (fun r => r.2.inLoop = ctx.inLoop) (declareAll ctx xs) [] := by
  induction xs generalizing ctx with
  | nil => exact .pure rfl
  | cons x xs ih =>
    refine (meets_declare ctx x).skip fun r hr => ?_
    refine (ih r.2).skip fun r' hr' => .pure (hr'.trans hr)

theorem fails_assignName (ctx : Context) (x : String) (value : Expr) : Fails (assignName ctx x value) [] := by
  refine fails_of_run fun st => ?_
  rw [assignName]
  cases ctx.lookup x with
  | none => exact ⟨_, rfl⟩
  | some b =>
    by_cases h : b.depth < ctx.depth
    · simp only [h, if_true]
      exact ⟨_, rfl⟩
    · simp only [h, if_false]
      exact ⟨_, rfl⟩

/-! ## Steps around others -/

variable {α : Type} {Q : α → Prop} {l : List Obstacle}

theorem meets_capture (h : Meets Q step l) : Meets (fun r => Q r.2) (capture step) l := by
  refine fails_get.skip fun before _ => (fails_set _).skip fun _ _ => ?_
  exact h.map fun a ha => fails_get.skip fun after _ => (fails_set _).skip fun _ _ => .pure ha

theorem fails_definition (h : Fails body l) : Fails (definition name params rest body) l := by
  refine fails_get.skip fun before _ => (fails_set _).skip fun _ _ => ?_
  refine (meets_capture h).map fun r _ => ?_
  exact fails_get.skip fun after _ => (fails_set _).skip fun _ _ => fails_emit _

theorem fails_loopSuite
    {statements : Context → Gen Unit} (h : ∀ inner, inner.inLoop = true → Fails (statements inner) l) :
    Fails (loopSuite ctx loopNames closures statements) l := by
  rw [loopSuite]
  split
  · refine (fails_unique _).skip fun function _ => (fails_unique _).skip fun flow _ => ?_
    have hbody : Fails (do
        definition function (loopNames.map (·.2)) .none (statements (iterationContext ctx loopNames))
        emit (.iterate flow function (loopNames.map (·.2)))
        emit (.breakOn flow)
        emit (.returnOn flow ctx.inIteration)) l := by
      refine (fails_definition (h _ (inLoop_iterationContext ctx loopNames))).map fun _ _ => ?_
      exact (fails_emit _).skip fun _ _ => (fails_emit _).skip fun _ _ => fails_emit _
    exact (meets_capture hbody).map fun _ _ => .pure trivial
  · have hinside : Context.inLoop { ctx with loops := ctx.loops + 1 } = true := rfl
    exact (meets_capture (h _ hinside)).map fun _ _ => .pure trivial

end Target.Generate

end TypedLua
