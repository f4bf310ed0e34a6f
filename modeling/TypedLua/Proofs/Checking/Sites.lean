import Mathlib.Data.List.Forall2
import TypedLua.Annotation.Check
import TypedLua.Annotation.Predicate
import TypedLua.Proofs.Scoping.Emission

/-!
# Checks and scoping

Where a chunk with checks has its checks, in terms of the code that the chunk gets.
-/

namespace TypedLua.Target.Scoping

open Generate

/-- A place in a module, with the predicates of the declarations in scope and of the results. -/
structure Site where
  path : List Def
  /-- The declarations in scope, innermost first, each with the predicate of its annotation. -/
  scope : List (Decl × Option TypedLua.Expr)
  loops : Nat
  inIteration : Bool
  /-- The predicate of the result type of the function around, if there is one. -/
  result : Option TypedLua.Expr

namespace Site

def place (s : Site) : Place := ⟨s.path, s.scope.map (·.1), s.loops, s.inIteration⟩

/-- The innermost declaration of a name, with the predicate of its annotation. -/
def find (s : Site) (x : String) : Option (Decl × Option TypedLua.Expr) := s.scope.find? (·.1.source == x)

def predicate (s : Site) (x : String) : Option TypedLua.Expr := (s.find x).bind (·.2)

def targetPredicate (s : Site) : TypedLua.Expr → Option TypedLua.Expr
  | .name _ x => s.predicate x
  | _ => none

def declare (s : Site) (x name : String) (known : Option TypedLua.Expr) : Site :=
  { s with scope := (⟨x, name, s.path⟩, known) :: s.scope }

def declareAll (s : Site) (known : String → Option TypedLua.Expr) (pairs : List (String × String)) : Site :=
  pairs.foldl (fun s pair => s.declare pair.1 pair.2 (known pair.1)) s

def inside (s : Site) (d : Def) (inIteration : Bool) : Site := { s with path := d :: s.path, loops := 0, inIteration }

def inLoop (s : Site) : Site := { s with loops := s.loops + 1 }

end Site

/-! ## Predicates of constructs -/

def Compiles (registry : String) : Annotation → String × TypedLua.Expr → Prop
  | .mk x type, (y, p) => x = y ∧ Annotation.compileType registry [] type = .ok p

theorem Compiles.source {ps : List (String × TypedLua.Expr)} (h : List.Forall₂ (Compiles registry) types ps) :
    ∀ q ∈ ps, ∃ type, .mk q.1 type ∈ types ∧ Annotation.compileType registry [] type = .ok q.2 := by
  induction h with
  | nil => exact List.forall_mem_nil _
  | @cons a q types ps hq _ ih =>
    obtain ⟨x, type⟩ := a
    obtain ⟨rfl, hcomp⟩ := hq
    refine List.forall_mem_cons.2 ⟨⟨type, List.mem_cons_self, hcomp⟩, fun q' hq' => ?_⟩
    obtain ⟨type', hmem, hcomp'⟩ := ih q' hq'
    exact ⟨type', List.mem_cons_of_mem _ hmem, hcomp'⟩

def CompilesResult (registry : String) (type : Option TypedLua.Expr) (result : Option TypedLua.Expr) : Prop :=
  match type with
  | none => result = none
  | some type => ∃ p, result = some p ∧ Annotation.compileType registry [] type = .ok p

/-- What the annotations of a construct say of a name: the last one counts. -/
def lastOf (ps : List (String × TypedLua.Expr)) (x : String) : Option TypedLua.Expr := ps.reverse.lookup x

/-! ## Checked values -/

/-- A value where a predicate is to be checked: a check of the value with this predicate, or without
predicate just the value. -/
inductive Checked : Option TypedLua.Expr → TypedLua.Expr → TypedLua.Expr → Prop
  | plain {e} : Checked none e e
  | check {p e} (names : Supply) : Checked (some p) e (Check.asExpression names p e).1

def width {α : Type} : List (Option α) → Nat
  | [] => 0
  | p :: ps => if width ps = 0 then p.toList.length else width ps + 1

/-- What stands at a position of a list of values: the value, or nil if it is missing. -/
inductive Supplied (values : List TypedLua.Expr) (i : Nat) : TypedLua.Expr → Prop
  | value {v} (h : values[i]? = some v) : Supplied values i v
  | missing {loc} (h : values.length ≤ i) : Supplied values i (.nil loc)

structure Guarded (ps : List (Option TypedLua.Expr)) (values guarded : List TypedLua.Expr) : Prop where
  length : guarded.length = max values.length (width ps)
  checked : ∀ (i : Nat) v', guarded[i]? = some v' → ∃ v, Supplied values i v ∧ Checked ps[i]?.join v v'

def entryChecks (loc : Loc) (ps : List (String × TypedLua.Expr)) : List TypedLua.Stmt :=
  ps.map fun (x, p) => Check.asStatement p (.name loc x)

def assigned : Stmt → List String
  | .assignNull names | .assignTuple names _ | .assignAdjusted names _ _ => names
  | .assign x _ => [x]
  | _ => []

/-! ## Trees with checks and their code -/

section

variable (registry : String)

mutual

/-- An expression, the expression with checks, and the definitions in front of the code of the latter. -/
inductive ExprAgrees : Site → TypedLua.Expr → TypedLua.Expr → List Stmt → Prop
  | nil {s loc} : ExprAgrees s (.nil loc) (.nil loc) []
  | bool {s loc b} : ExprAgrees s (.bool loc b) (.bool loc b) []
  | number {s loc n} : ExprAgrees s (.number loc n) (.number loc n) []
  | string {s loc text} : ExprAgrees s (.string loc text) (.string loc text) []
  | vararg {s loc} : ExprAgrees s (.vararg loc) (.vararg loc) []
  | name {s loc x} : ExprAgrees s (.name loc x) (.name loc x) []
  | function {s f f' d} (h : FunctionAgrees s f f' d) : ExprAgrees s (.function f) (.function f') [.define d]
  | table {s loc fields fields' code} (h : FieldsAgree s fields fields' code) :
      ExprAgrees s (.table loc fields) (.table loc fields') code
  | binary {s loc left left' op right right' code1 code2} (hleft : ExprAgrees s left left' code1)
      (hright : ExprAgrees s right right' code2) :
      ExprAgrees s (.binary loc left op right) (.binary loc left' op right') (code1 ++ code2)
  | unary {s loc op operand operand' code} (h : ExprAgrees s operand operand' code) :
      ExprAgrees s (.unary loc op operand) (.unary loc op operand') code
  | call {s loc callee callee' args args' code1 code2} (hcallee : ExprAgrees s callee callee' code1)
      (hargs : ExprsAgree s args args' code2) :
      ExprAgrees s (.call loc callee args) (.call loc callee' args') (code1 ++ code2)
  | method {s loc object object' member args args' code1 code2}
      (hobj : ExprAgrees s object object' code1) (hargs : ExprsAgree s args args' code2) :
      ExprAgrees s (.method loc object member args) (.method loc object' member args') (code1 ++ code2)
  | index {s loc object object' key key' code1 code2} (hobj : ExprAgrees s object object' code1)
      (hkey : ExprAgrees s key key' code2) :
      ExprAgrees s (.index loc object key) (.index loc object' key') (code1 ++ code2)
  | paren {s loc inner inner' code} (h : ExprAgrees s inner inner' code) :
      ExprAgrees s (.paren loc inner) (.paren loc inner') code

inductive ExprsAgree : Site → List TypedLua.Expr → List TypedLua.Expr → List Stmt → Prop
  | nil {s} : ExprsAgree s [] [] []
  | cons {s e e' es es' code1 code2} (hhead : ExprAgrees s e e' code1)
      (htail : ExprsAgree s es es' code2) : ExprsAgree s (e :: es) (e' :: es') (code1 ++ code2)

inductive OptionAgrees :
    Site → Option TypedLua.Expr → Option TypedLua.Expr → List Stmt → Prop
  | none {s} : OptionAgrees s none none []
  | some {s e e' code} (h : ExprAgrees s e e' code) : OptionAgrees s (some e) (some e') code

inductive FieldsAgree : Site → List Field → List Field → List Stmt → Prop
  | nil {s} : FieldsAgree s [] [] []
  | cons {s loc key key' value value' fields fields' code1 code2 code3}
      (hkey : OptionAgrees s key key' code1) (hval : ExprAgrees s value value' code2)
      (htail : FieldsAgree s fields fields' code3) :
      FieldsAgree s (.mk loc key value :: fields) (.mk loc key' value' :: fields') (code1 ++ (code2 ++ code3))

inductive FunctionAgrees : Site → TypedLua.Function → TypedLua.Function → Def → Prop
  | mk {s s' loc params isVararg bodyLoc body body' types returnType label ps result name names rest
        nonlocals entry code}
      (htypes : List.Forall₂ (Compiles registry) types ps)
      (hres : CompilesResult registry returnType result)
      (hlen : names.length = params.length)
      (hentry : ∀ c ∈ entry, ∃ call, c = Stmt.run call)
      (hbody : StmtsAgree { (s.inside (.mk name names rest nonlocals (filled (entry ++ code))) false).declareAll
            (lastOf ps) (params.zip names) with result }
        body body' code s') :
      FunctionAgrees s (.mk loc params isVararg (.mk bodyLoc body) types returnType label)
        (.mk loc params isVararg (.mk bodyLoc (entryChecks loc ps ++ body')) [] none label)
        (.mk name names rest nonlocals (filled (entry ++ code)))

inductive BlockAgrees : Site → TypedLua.Block → TypedLua.Block → List Stmt → Prop
  | mk {s s' loc ss ss' code} (h : StmtsAgree s ss ss' code s') :
      BlockAgrees s (.mk loc ss) (.mk loc ss') (filled code)

inductive OrElseAgrees : Site → List Clause → Option TypedLua.Block → List Clause →
    Option TypedLua.Block → OrElse → Prop
  | none {s} : OrElseAgrees s [] none [] none .none
  | empty {s loc} : OrElseAgrees s [] (some (.mk loc [])) [] (some (.mk loc [])) .none
  | otherwise {s block block' suite} (h : BlockAgrees s block block' suite) :
      OrElseAgrees s [] (some block) [] (some block') (.otherwise suite)
  | elseIf {s condition condition' body body' clauses clauses' final final' test suite other}
      (hcond : ExprAgrees s condition condition' []) (hbody : BlockAgrees s body body' suite)
      (htail : OrElseAgrees s clauses final clauses' final' other) :
      OrElseAgrees s (.mk condition body :: clauses) final (.mk condition' body' :: clauses') final'
        (.elseIf test suite other)
  | hoisted {s condition condition' body body' clauses clauses' final final' code test suite other}
      (hcond : ExprAgrees s condition condition' code) (hbody : BlockAgrees s body body' suite)
      (htail : OrElseAgrees s clauses final clauses' final' other) :
      OrElseAgrees s (.mk condition body :: clauses) final (.mk condition' body' :: clauses') final'
        (.otherwise (code ++ [.ifElse test suite other]))

/-- One round of a loop: the body, and the condition at its end if there is one, which is read in the
scope of the body. -/
inductive RoundAgrees : Site → List TypedLua.Stmt → Option TypedLua.Expr → List TypedLua.Stmt →
    Option TypedLua.Expr → List Stmt → Prop
  | plain {s s' ss ss' code} (h : StmtsAgree s ss ss' code s') : RoundAgrees s ss none ss' none (filled code)
  | until {s s' ss ss' condition condition' code1 code2 leave}
      (h : StmtsAgree s ss ss' code1 s') (hcond : ExprAgrees s' condition condition' code2) :
      RoundAgrees s ss (some condition) ss' (some condition') (filled code1 ++ (code2 ++ [leave]))

/-- The suite of a loop with its variables, which are declared once more if an iteration is a
definition of its own. -/
inductive LoopAgrees : Site → List (String × String) → List TypedLua.Stmt → Option TypedLua.Expr →
    List TypedLua.Stmt → Option TypedLua.Expr → List Stmt → Prop
  | inline {s pairs ss ss' until? until?' code} (h : RoundAgrees s.inLoop ss until? ss' until?' code) :
      LoopAgrees s pairs ss until? ss' until?' code
  | iteration {s pairs ss ss' until? until?' name nonlocals code flow} (h : RoundAgrees
        ((s.inside (.mk name (pairs.map (·.2)) .none nonlocals code) true).declareAll
          (fun _ => none) pairs) ss until? ss' until?' code) :
      LoopAgrees s pairs ss until? ss' until?' (.define (.mk name (pairs.map (·.2)) .none nonlocals code) :: flow)

inductive TargetAgrees : Site → TypedLua.Expr → TypedLua.Expr → List Stmt → Prop
  | global {s loc x value} (hfind : s.find x = none) : TargetAgrees s (.name loc x) (.name loc x) [.setGlobal x value]
  | variable {s loc x d known value} (hfind : s.find x = some (d, known)) (hreach : s.place.Reaches d) :
      TargetAgrees s (.name loc x) (.name loc x) [.assign d.name value]
  | index {s loc object object' key key' code1 code2 store}
      (hobj : ExprAgrees s object object' code1) (hkey : ExprAgrees s key key' code2) :
      TargetAgrees s (.index loc object key) (.index loc object' key') (code1 ++ (code2 ++ [store]))

inductive TargetsAgree : Site → List TypedLua.Expr → List TypedLua.Expr → List Stmt → Prop
  | nil {s} : TargetsAgree s [] [] []
  | cons {s target target' targets targets' code1 code2} (hhead : TargetAgrees s target target' code1)
      (htail : TargetsAgree s targets targets' code2) :
      TargetsAgree s (target :: targets) (target' :: targets') (code1 ++ code2)

inductive StmtsAgree :
    Site → List TypedLua.Stmt → List TypedLua.Stmt → List Stmt → Site → Prop
  | nil {s} : StmtsAgree s [] [] [] s
  | cons {s s' s'' stmt stmt' ss ss' code1 code2} (hhead : StmtAgrees s stmt stmt' code1 s')
      (htail : StmtsAgree s' ss ss' code2 s'') :
      StmtsAgree s (stmt :: ss) (stmt' :: ss') (code1 ++ code2) s''

inductive StmtAgrees : Site → TypedLua.Stmt → TypedLua.Stmt → List Stmt → Site → Prop
  | localVars {s loc names values plain guarded types ps fresh code bind}
      (htypes : List.Forall₂ (Compiles registry) types ps)
      (hvals : ExprsAgree s values plain code)
      (hguards : Guarded ((names.map (lastOf ps)).take plain.length) plain guarded)
      (hlen : fresh.length = names.length) (hbind : assigned bind = fresh) :
      StmtAgrees s (.localVars loc names values types) (.localVars loc names guarded [])
        (code ++ [bind]) (s.declareAll (lastOf ps) (names.zip fresh))
  | localFunction {s loc x f f' d} (h : FunctionAgrees (s.declare x d.name none) f f' d) :
      StmtAgrees s (.localFunction loc x f) (.localFunction loc x f') [.define d] (s.declare x d.name none)
  /-- The value of a name is checked with the predicate of the declaration that the code assigns. -/
  | assign {s loc targets targets' values plain guarded code1 adjust code2}
      (hvals : ExprsAgree s values plain code1)
      (hguards : Guarded (targets.map s.targetPredicate) plain guarded)
      (hadjust : ∀ c ∈ adjust, (assigned c).length = targets.length)
      (htargets : TargetsAgree s targets targets' code2) :
      StmtAgrees s (.assign loc targets values) (.assign loc targets' guarded) (code1 ++ (adjust ++ code2)) s
  | expr {s loc e e' code call} (h : ExprAgrees s e e' code) :
      StmtAgrees s (.expr loc e) (.expr loc e') (code ++ [.run call]) s
  | scope {s s' loc bodyLoc ss ss' code} (h : StmtsAgree s ss ss' code s') :
      StmtAgrees s (.scope loc (.mk bodyLoc ss)) (.scope loc (.mk bodyLoc ss')) code s
  | whileLoop {s loc condition condition' bodyLoc body body' code test suite}
      (hcond : ExprAgrees s condition condition' code)
      (hloop : LoopAgrees s [] body none body' none suite) :
      StmtAgrees s (.whileLoop loc condition (.mk bodyLoc body))
        (.whileLoop loc condition' (.mk bodyLoc body')) (code ++ [.whileLoop test suite]) s
  | repeatLoop {s loc bodyLoc body body' condition condition' suite}
      (h : LoopAgrees s [] body (some condition) body' (some condition') suite) :
      StmtAgrees s (.repeatLoop loc (.mk bodyLoc body) condition)
        (.repeatLoop loc (.mk bodyLoc body') condition') [.forever suite] s
  | ifElse {s loc condition condition' body body' clauses clauses' final final' code test suite other}
      (hcond : ExprAgrees s condition condition' code) (hbody : BlockAgrees s body body' suite)
      (htail : OrElseAgrees s clauses final clauses' final' other) :
      StmtAgrees s (.ifElse loc condition body clauses final)
        (.ifElse loc condition' body' clauses' final') (code ++ [.ifElse test suite other]) s
  | numericFor {s loc counter start start' stop stop' step step' bodyLoc body body' name code1 code2
        code3 first last increment suite}
      (hstart : ExprAgrees s start start' code1) (hstop : ExprAgrees s stop stop' code2)
      (hstep : OptionAgrees s step step' code3)
      (hloop : LoopAgrees (s.declare counter name none) [(counter, name)] body none body' none suite) :
      StmtAgrees s (.numericFor loc counter start stop step (.mk bodyLoc body))
        (.numericFor loc counter start' stop' step' (.mk bodyLoc body'))
        (code1 ++ (code2 ++ (code3 ++ [.forRange name first last increment suite]))) s
  | genericFor {s loc names iterators iterators' bodyLoc body body' fresh code args tail suite}
      (hlist : ExprsAgree s iterators iterators' code) (hlen : fresh.length = names.length)
      (hloop : LoopAgrees (s.declareAll (fun _ => none) (names.zip fresh)) (names.zip fresh) body none
        body' none suite) :
      StmtAgrees s (.genericFor loc names iterators (.mk bodyLoc body))
        (.genericFor loc names iterators' (.mk bodyLoc body'))
        (code ++ [.forEach fresh args tail suite]) s
  /-- The first value is checked with the predicate of the result type of the function around. -/
  | returnValues {s loc values plain guarded code answer}
      (hvals : ExprsAgree s values plain code) (hguards : Guarded [s.result] plain guarded) :
      StmtAgrees s (.returnValues loc values) (.returnValues loc guarded) (code ++ [.answer s.inIteration answer]) s
  | breakLoop {s loc leave} : StmtAgrees s (.breakLoop loc) (.breakLoop loc) [leave] s

end

end

def ModuleAgrees (registry : String) (c c' : Chunk) (m : Module) : Prop := ∃ code s, m.body = filled code ∧
    StmtsAgree registry ⟨[chunkDef m.body], [], 0, false, none⟩ c.body.stmts c'.body.stmts code s

end TypedLua.Target.Scoping
