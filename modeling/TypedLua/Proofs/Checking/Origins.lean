import TypedLua.Proofs.Checking.Agreement

/-!
# Where checks come from

A check stands at one site of a chunk, and the annotation that it is made for may stand at another
one.
-/

namespace TypedLua.Target.Scoping

/-- What is known from an annotation: its predicate, and the declarations in scope where it stands. -/
structure Known where
  predicate : TypedLua.Expr
  origin : List Decl

/-- The declarations in scope at the annotations of the names in scope and of the function around. -/
structure Origins where
  names : String → List Decl
  result : List Decl

namespace Origins

/-- The origins behind a construct that declares names with annotations at a scope. -/
def declare (o : Origins) (declared : List String) (scope : List Decl) : Origins :=
  { o with names := fun x => if x ∈ declared then scope else o.names x }

def target (o : Origins) (s : Site) : TypedLua.Expr → Option Known
  | .name _ x => (s.predicate x).map (⟨·, o.names x⟩)
  | _ => none

end Origins

def lastKnown (ps : List (String × TypedLua.Expr)) (scope : List Decl) (x : String) : Option Known :=
  (lastOf ps x).map (⟨·, scope⟩)

/-- A statement whose values are checked: where it stands, what is known for each of its values, the values
without and with their checks, and the statement with checks. -/
structure Guard where
  site : Site
  known : List (Option Known)
  plain : List TypedLua.Expr
  guarded : List TypedLua.Expr
  stmt : TypedLua.Stmt

/-- The checks on entry to a function: where they stand, and what is known for each parameter. -/
structure Entry where
  site : Site
  loc : Loc
  known : List (String × Known)

/-! ## Trees with checks -/

section

variable (registry : String) (G : Guard → Prop) (N : Entry → Prop)

mutual

inductive ExprVisits : Site → Origins → TypedLua.Expr → TypedLua.Expr → Prop
  | nil {s o loc} : ExprVisits s o (.nil loc) (.nil loc)
  | bool {s o loc b} : ExprVisits s o (.bool loc b) (.bool loc b)
  | number {s o loc n} : ExprVisits s o (.number loc n) (.number loc n)
  | string {s o loc text} : ExprVisits s o (.string loc text) (.string loc text)
  | vararg {s o loc} : ExprVisits s o (.vararg loc) (.vararg loc)
  | name {s o loc x} : ExprVisits s o (.name loc x) (.name loc x)
  | function {s o f f'} (h : FunctionVisits s o f f') : ExprVisits s o (.function f) (.function f')
  | table {s o loc fields fields'} (h : FieldsVisit s o fields fields') :
      ExprVisits s o (.table loc fields) (.table loc fields')
  | binary {s o loc left left' op right right'} (hleft : ExprVisits s o left left')
      (hright : ExprVisits s o right right') :
      ExprVisits s o (.binary loc left op right) (.binary loc left' op right')
  | unary {s o loc op operand operand'} (h : ExprVisits s o operand operand') :
      ExprVisits s o (.unary loc op operand) (.unary loc op operand')
  | call {s o loc callee callee' args args'} (hcallee : ExprVisits s o callee callee')
      (hargs : ExprsVisit s o args args') :
      ExprVisits s o (.call loc callee args) (.call loc callee' args')
  | method {s o loc object object' member args args'} (hobj : ExprVisits s o object object')
      (hargs : ExprsVisit s o args args') :
      ExprVisits s o (.method loc object member args) (.method loc object' member args')
  | index {s o loc object object' key key'} (hobj : ExprVisits s o object object')
      (hkey : ExprVisits s o key key') :
      ExprVisits s o (.index loc object key) (.index loc object' key')
  | paren {s o loc inner inner'} (h : ExprVisits s o inner inner') :
      ExprVisits s o (.paren loc inner) (.paren loc inner')

inductive ExprsVisit : Site → Origins → List TypedLua.Expr → List TypedLua.Expr → Prop
  | nil {s o} : ExprsVisit s o [] []
  | cons {s o e e' es es'} (hhead : ExprVisits s o e e') (htail : ExprsVisit s o es es') :
      ExprsVisit s o (e :: es) (e' :: es')

inductive OptionVisits : Site → Origins → Option TypedLua.Expr → Option TypedLua.Expr → Prop
  | none {s o} : OptionVisits s o none none
  | some {s o e e'} (h : ExprVisits s o e e') : OptionVisits s o (some e) (some e')

inductive FieldsVisit : Site → Origins → List Field → List Field → Prop
  | nil {s o} : FieldsVisit s o [] []
  | cons {s o loc key key' value value' fields fields'} (hkey : OptionVisits s o key key')
      (hval : ExprVisits s o value value') (htail : FieldsVisit s o fields fields') :
      FieldsVisit s o (.mk loc key value :: fields) (.mk loc key' value' :: fields')

inductive FunctionVisits : Site → Origins → TypedLua.Function → TypedLua.Function → Prop
  | mk {s s' s'' o o' loc params isVararg bodyLoc body body' types returnType label ps result d names}
      (htypes : List.Forall₂ (Compiles registry) types ps)
      (hres : CompilesResult registry returnType result)
      (hlen : names.length = params.length)
      (hinside : s' = { (s.inside d false).declareAll (lastOf ps) (params.zip names) with result })
      (hentry : N ⟨s', loc, ps.map fun q => (q.1, ⟨q.2, s.place.scope⟩)⟩)
      (hbody : StmtsVisit s' { o.declare params s.place.scope with result := s.place.scope } body body' s'' o') :
      FunctionVisits s o (.mk loc params isVararg (.mk bodyLoc body) types returnType label)
        (.mk loc params isVararg (.mk bodyLoc (entryChecks loc ps ++ body')) [] none label)

inductive BlockVisits : Site → Origins → TypedLua.Block → TypedLua.Block → Prop
  | mk {s s' o o' loc ss ss'} (h : StmtsVisit s o ss ss' s' o') : BlockVisits s o (.mk loc ss) (.mk loc ss')

inductive ClausesVisit : Site → Origins → List Clause → List Clause → Prop
  | nil {s o} : ClausesVisit s o [] []
  | cons {s o condition condition' body body' clauses clauses'}
      (hcond : ExprVisits s o condition condition') (hbody : BlockVisits s o body body')
      (htail : ClausesVisit s o clauses clauses') :
      ClausesVisit s o (.mk condition body :: clauses) (.mk condition' body' :: clauses')

inductive OtherwiseVisits : Site → Origins → Option TypedLua.Block → Option TypedLua.Block → Prop
  | none {s o} : OtherwiseVisits s o none none
  | some {s o b b'} (h : BlockVisits s o b b') : OtherwiseVisits s o (some b) (some b')

inductive RoundVisits : Site → Origins → List TypedLua.Stmt → Option TypedLua.Expr →
    List TypedLua.Stmt → Option TypedLua.Expr → Prop
  | plain {s s' o o' ss ss'} (h : StmtsVisit s o ss ss' s' o') : RoundVisits s o ss none ss' none
  | until {s s' o o' ss ss' condition condition'} (h : StmtsVisit s o ss ss' s' o')
      (hcond : ExprVisits s' o' condition condition') :
      RoundVisits s o ss (some condition) ss' (some condition')

/-- A loop with its variables, which are declared once more if an iteration is a definition. -/
inductive LoopVisits : Site → Origins → List (String × String) → List TypedLua.Stmt →
    Option TypedLua.Expr → List TypedLua.Stmt → Option TypedLua.Expr → Prop
  | inline {s o pairs ss ss' until? until?'} (h : RoundVisits s.inLoop o ss until? ss' until?') :
      LoopVisits s o pairs ss until? ss' until?'
  | iteration {s o pairs ss ss' until? until?' d}
      (h : RoundVisits ((s.inside d true).declareAll (fun _ => none) pairs)
        (o.declare (pairs.map (·.1)) s.place.scope) ss until? ss' until?') :
      LoopVisits s o pairs ss until? ss' until?'

inductive TargetVisits : Site → Origins → TypedLua.Expr → TypedLua.Expr → Prop
  | name {s o loc x} : TargetVisits s o (.name loc x) (.name loc x)
  | index {s o loc object object' key key'} (hobj : ExprVisits s o object object')
      (hkey : ExprVisits s o key key') :
      TargetVisits s o (.index loc object key) (.index loc object' key')

inductive TargetsVisit : Site → Origins → List TypedLua.Expr → List TypedLua.Expr → Prop
  | nil {s o} : TargetsVisit s o [] []
  | cons {s o target target' targets targets'} (hhead : TargetVisits s o target target')
      (htail : TargetsVisit s o targets targets') :
      TargetsVisit s o (target :: targets) (target' :: targets')

inductive StmtsVisit : Site → Origins → List TypedLua.Stmt → List TypedLua.Stmt → Site → Origins → Prop
  | nil {s o} : StmtsVisit s o [] [] s o
  | cons {s s' s'' o o' o'' stmt stmt' ss ss'} (hhead : StmtVisits s o stmt stmt' s' o')
      (htail : StmtsVisit s' o' ss ss' s'' o'') :
      StmtsVisit s o (stmt :: ss) (stmt' :: ss') s'' o''

inductive StmtVisits : Site → Origins → TypedLua.Stmt → TypedLua.Stmt → Site → Origins → Prop
  | localVars {s o loc names values plain guarded types ps fresh}
      (htypes : List.Forall₂ (Compiles registry) types ps) (hvals : ExprsVisit s o values plain)
      (hlen : fresh.length = names.length)
      (hguard : G ⟨s, (names.map (lastKnown ps s.place.scope)).take plain.length, plain, guarded,
        .localVars loc names guarded []⟩) :
      StmtVisits s o (.localVars loc names values types) (.localVars loc names guarded [])
        (s.declareAll (lastOf ps) (names.zip fresh)) (o.declare names s.place.scope)
  | localFunction {s o loc x f f' name}
      (h : FunctionVisits (s.declare x name none) (o.declare [x] s.place.scope) f f') :
      StmtVisits s o (.localFunction loc x f) (.localFunction loc x f') (s.declare x name none)
        (o.declare [x] s.place.scope)
  | assign {s o loc targets targets' values plain guarded} (hvals : ExprsVisit s o values plain)
      (htargets : TargetsVisit s o targets targets')
      (hguard : G ⟨s, targets.map (o.target s), plain, guarded, .assign loc targets' guarded⟩) :
      StmtVisits s o (.assign loc targets values) (.assign loc targets' guarded) s o
  | expr {s o loc e e'} (h : ExprVisits s o e e') : StmtVisits s o (.expr loc e) (.expr loc e') s o
  | scope {s s' o o' loc bodyLoc ss ss'} (h : StmtsVisit s o ss ss' s' o') :
      StmtVisits s o (.scope loc (.mk bodyLoc ss)) (.scope loc (.mk bodyLoc ss')) s o
  | whileLoop {s o loc condition condition' bodyLoc body body'}
      (hcond : ExprVisits s o condition condition') (hloop : LoopVisits s o [] body none body' none) :
      StmtVisits s o (.whileLoop loc condition (.mk bodyLoc body)) (.whileLoop loc condition' (.mk bodyLoc body')) s o
  | repeatLoop {s o loc bodyLoc body body' condition condition'}
      (h : LoopVisits s o [] body (some condition) body' (some condition')) :
      StmtVisits s o (.repeatLoop loc (.mk bodyLoc body) condition)
        (.repeatLoop loc (.mk bodyLoc body') condition') s o
  | ifElse {s o loc condition condition' body body' clauses clauses' final final'}
      (hcond : ExprVisits s o condition condition') (hbody : BlockVisits s o body body')
      (hclauses : ClausesVisit s o clauses clauses') (hfinal : OtherwiseVisits s o final final') :
      StmtVisits s o (.ifElse loc condition body clauses final) (.ifElse loc condition' body' clauses' final') s o
  | numericFor {s o loc counter start start' stop stop' step step' bodyLoc body body' name}
      (hstart : ExprVisits s o start start') (hstop : ExprVisits s o stop stop')
      (hstep : OptionVisits s o step step')
      (hloop : LoopVisits (s.declare counter name none) (o.declare [counter] s.place.scope)
        [(counter, name)] body none body' none) :
      StmtVisits s o (.numericFor loc counter start stop step (.mk bodyLoc body))
        (.numericFor loc counter start' stop' step' (.mk bodyLoc body')) s o
  | genericFor {s o loc names iterators iterators' bodyLoc body body' fresh}
      (hlist : ExprsVisit s o iterators iterators') (hlen : fresh.length = names.length)
      (hloop : LoopVisits (s.declareAll (fun _ => none) (names.zip fresh))
        (o.declare names s.place.scope) (names.zip fresh) body none body' none) :
      StmtVisits s o (.genericFor loc names iterators (.mk bodyLoc body))
        (.genericFor loc names iterators' (.mk bodyLoc body')) s o
  | returnValues {s o loc values plain guarded} (hvals : ExprsVisit s o values plain)
      (hguard : G ⟨s, [s.result.map (⟨·, o.result⟩)], plain, guarded, .returnValues loc guarded⟩) :
      StmtVisits s o (.returnValues loc values) (.returnValues loc guarded) s o
  | breakLoop {s o loc} : StmtVisits s o (.breakLoop loc) (.breakLoop loc) s o

end

end

end TypedLua.Target.Scoping
