import TypedLua.Target.Bound
import TypedLua.Target.Generate

/-!
# Scoping of modules

What code a chunk may have, as far as names are concerned.
-/

namespace TypedLua.Target

namespace Def

def params : Def → List String
  | .mk _ params _ _ _ => params

def nonlocals : Def → List String
  | .mk _ _ _ nonlocals _ => nonlocals

def body : Def → List Stmt
  | .mk _ _ _ _ body => body

/-- The definition owns a variable: it binds it and does not leave it to those around it. -/
def owns (d : Def) (x : String) : Bool := d.params.contains x || d.own.contains x

end Def

namespace Scoping

open Generate

/-- The definitions that a variable is found in, from the innermost of a chain on that owns it. -/
def resolve (path : List Def) (x : String) : List Def := path.dropWhile (!·.owns x)

/-- A declaration of the chunk: its name in the chunk and in the module, and the definition that holds
it, with those around that one. -/
structure Decl where
  source : String
  name : String
  home : List Def

structure Place where
  path : List Def
  scope : List Decl
  loops : Nat
  inIteration : Bool

namespace Place

def find (p : Place) (x : String) : Option Decl := p.scope.find? (·.source == x)

def declare (p : Place) (x name : String) : Place := { p with scope := ⟨x, name, p.path⟩ :: p.scope }

def declareAll (p : Place) (pairs : List (String × String)) : Place :=
  pairs.foldl (fun p pair => p.declare pair.1 pair.2) p

def inside (p : Place) (d : Def) (inIteration : Bool) : Place := ⟨d :: p.path, p.scope, 0, inIteration⟩

def inLoop (p : Place) : Place := { p with loops := p.loops + 1 }

def breakCode (p : Place) : Stmt := if p.loops > 0 then .breakLoop else .answerBreak

def Holds (p : Place) (names : List String) : Prop := ∀ x ∈ names, resolve p.path x = p.path

/-- The variable of a declaration is found where the declaration was made. -/
def Reaches (p : Place) (d : Decl) : Prop := resolve p.path d.name = d.home

def Sees (p : Place) (name : String) : Prop := ∃ x d, p.find x = some d ∧ d.name = name

end Place

/-- What a definition leaves to those around it: exactly the declarations in scope around it that its
body assigns, apart from its parameters, and nothing that the body declares itself. -/
structure LeavesOuter (p : Place) (d : Def) (given : List String) : Prop where
  nodup : d.nonlocals.Nodup
  mem_iff : ∀ x, x ∈ d.nonlocals ↔ x ∈ stmtsBound d.body ∧ x ∉ d.params ∧ p.Sees x
  disjoint : ∀ x ∈ d.nonlocals, x ∉ given

def filled (code : List Stmt) : List Stmt := if code.isEmpty then [.pass] else code

/-- The forms that the suite of a loop may have: the rounds stand in it, or every round is a
definition of its own. -/
class LoopForms where
  Inline : List TypedLua.Stmt → Option TypedLua.Expr → Prop
  Apart : List TypedLua.Stmt → Option TypedLua.Expr → Prop
  inline_free : ∀ {ss until?}, Inline ss until? → stmtsHaveFunction ss = false ∧ until?.any (·.hasFunction) = false

/-- The forms that are generated: a round is a definition of its own just if it creates functions. -/
instance generatedForms : LoopForms where
  Inline ss until? := stmtsHaveFunction ss = false ∧ until?.any (·.hasFunction) = false
  Apart ss until? := stmtsHaveFunction ss = true ∨ until?.any (·.hasFunction) = true
  inline_free h := h

/-- A loop may have the form with definitions for its rounds, or the one without. -/
def LoopForms.Takes [LoopForms] (closures : Bool) (ss : List TypedLua.Stmt) (until? : Option TypedLua.Expr) : Prop :=
  if closures then Apart ss until? else Inline ss until?

/-- The form that is generated is among the forms. -/
class AdmitsGenerated [LoopForms] : Prop where
  takes : ∀ ss until?, LoopForms.Takes (stmtsHaveFunction ss || until?.any (·.hasFunction)) ss until?

instance : @AdmitsGenerated generatedForms where
  takes ss until? := by
    unfold LoopForms.Takes
    split
    · next h => exact Bool.or_eq_true_iff.1 h
    · next h => exact Bool.or_eq_false_iff.1 (Bool.not_eq_true _ ▸ h)

variable [LoopForms]

mutual

/-- The code of an expression: the definitions in front of the statement that it stands in, and the
expression itself with all its values. -/
inductive ExprCode : Place → TypedLua.Expr → List Stmt → Call → List String → Prop
  | nil {p loc} : ExprCode p (.nil loc) [] (.single .null) []
  | bool {p loc b} : ExprCode p (.bool loc b) [] (.single (.bool b)) []
  | number {p loc n} : ExprCode p (.number loc n) [] (.single (numberLiteral n)) []
  | string {p loc s} : ExprCode p (.string loc s) [] (.single (.string s)) []
  | vararg {p loc} : ExprCode p (.vararg loc) [] .varargs []
  | global {p loc x} (hfind : p.find x = none) : ExprCode p (.name loc x) [] (.single (.global x)) []
  /-- A name with a declaration in scope is the variable of the innermost one. -/
  | variable {p loc x d} (hfind : p.find x = some d) (hreach : p.Reaches d) :
      ExprCode p (.name loc x) [] (.single (.var d.name)) []
  | function {p f d given} (hholds : p.Holds [d.name]) (hdef : FunctionCode p f d given) :
      ExprCode p (.function f) [.define d] (.single (.var d.name)) (d.name :: given)
  | table {p loc fields code list given} (hitems : ItemsCode p fields code list given) :
      ExprCode p (.table loc fields) code (.single (.table list.1 list.2)) given
  | binary {p loc left op right code1 call1 given1 code2 call2 given2}
      (hop : op ≠ .and ∧ op ≠ .or) (hleft : ExprCode p left code1 call1 given1)
      (hright : ExprCode p right code2 call2 given2) :
      ExprCode p (.binary loc left op right) (code1 ++ code2)
        (.single (.binary op (cut call1) (cut call2))) (given1 ++ given2)
  | andThen {p loc left right temp code1 call1 given1 code2 call2 given2}
      (hholds : p.Holds [temp]) (hleft : ExprCode p left code1 call1 given1)
      (hright : ExprCode p right code2 call2 given2) :
      ExprCode p (.binary loc left .and right) (code1 ++ code2)
        (.single (.andThen temp (cut call1) (cut call2))) (given1 ++ temp :: given2)
  | orElse {p loc left right temp code1 call1 given1 code2 call2 given2}
      (hholds : p.Holds [temp]) (hleft : ExprCode p left code1 call1 given1)
      (hright : ExprCode p right code2 call2 given2) :
      ExprCode p (.binary loc left .or right) (code1 ++ code2)
        (.single (.orElse temp (cut call1) (cut call2))) (given1 ++ temp :: given2)
  | negation {p loc operand code call given} (h : ExprCode p operand code call given) :
      ExprCode p (.unary loc .not operand) code (.single (.negation (cut call))) given
  | length {p loc operand code call given} (h : ExprCode p operand code call given) :
      ExprCode p (.unary loc .len operand) code (.single (.length (cut call))) given
  | minus {p loc operand code call given} (h : ExprCode p operand code call given) :
      ExprCode p (.unary loc .neg operand) code (.single (.minus (cut call))) given
  | call {p loc callee args code1 call1 given1 code2 list given2}
      (hcallee : ExprCode p callee code1 call1 given1) (hargs : ListCode p args code2 list given2) :
      ExprCode p (.call loc callee args) (code1 ++ code2) (.call (cut call1) list.1 list.2) (given1 ++ given2)
  | method {p loc object member args code1 call1 given1 code2 list given2}
      (hobj : ExprCode p object code1 call1 given1) (hargs : ListCode p args code2 list given2) :
      ExprCode p (.method loc object member args) (code1 ++ code2)
        (.invoke (cut call1) member list.1 list.2) (given1 ++ given2)
  | index {p loc object key code1 call1 given1 code2 call2 given2}
      (hobj : ExprCode p object code1 call1 given1) (hkey : ExprCode p key code2 call2 given2) :
      ExprCode p (.index loc object key) (code1 ++ code2)
        (.single (.index (cut call1) (cut call2))) (given1 ++ given2)
  | paren {p loc inner code call given} (h : ExprCode p inner code call given) :
      ExprCode p (.paren loc inner) code (.single (cut call)) given
  | block {p p' loc ss value code1 parts given1 code2 call given2}
      (hparts : PartsCode p ss code1 parts p' given1) (hval : ExprCode p' value code2 call given2) :
      ExprCode p (.block loc ss value) (code1 ++ code2) (.single (.last parts (cut call))) (given1 ++ given2)

inductive ListCode :
    Place → List TypedLua.Expr → List Stmt → List Expr × Option Tail → List String → Prop
  | nil {p} : ListCode p [] [] ([], none) []
  | last {p e code call given} (h : ExprCode p e code call given) : ListCode p [e] code (lastItem e call) given
  | cons {p e e' es code1 call given1 code2 list given2} (hhead : ExprCode p e code1 call given1)
      (htail : ListCode p (e' :: es) code2 list given2) :
      ListCode p (e :: e' :: es) (code1 ++ code2) (consItem call list) (given1 ++ given2)

inductive ItemsCode : Place → List Field → List Stmt → List Item × Option Tail → List String → Prop
  | nil {p} : ItemsCode p [] [] ([], none) []
  | keyed {p loc key value fields code1 call1 given1 code2 call2 given2 code3 list given3}
      (hkey : ExprCode p key code1 call1 given1) (hval : ExprCode p value code2 call2 given2)
      (htail : ItemsCode p fields code3 list given3) :
      ItemsCode p (.mk loc (some key) value :: fields) (code1 ++ (code2 ++ code3))
        (.keyed (cut call1) (cut call2) :: list.1, list.2) (given1 ++ (given2 ++ given3))
  | last {p loc value code call given} (h : ExprCode p value code call given) : ItemsCode p [.mk loc none value] code
        ((lastItem value call).1.map .positional, (lastItem value call).2) given
  | positional {p loc value field fields code1 call given1 code2 list given2}
      (hval : ExprCode p value code1 call given1)
      (htail : ItemsCode p (field :: fields) code2 list given2) :
      ItemsCode p (.mk loc none value :: field :: fields) (code1 ++ code2)
        (.positional (cut call) :: list.1, list.2) (given1 ++ given2)

/-- The code of the statements of a block inside an expression, and the place behind them. -/
inductive PartsCode :
    Place → List TypedLua.Stmt → List Stmt → List Part → Place → List String → Prop
  | nil {p} : PartsCode p [] [] [] p []
  | run {p p' loc e ss code1 call given1 code2 parts given2} (h : ExprCode p e code1 call given1)
      (htail : PartsCode p ss code2 parts p' given2) :
      PartsCode p (.expr loc e :: ss) (code1 ++ code2) (.run call :: parts) p' (given1 ++ given2)
  | bindNull {p p' loc x types ss name code parts given} (hholds : p.Holds [name])
      (htail : PartsCode (p.declare x name) ss code parts p' given) :
      PartsCode p (.localVars loc [x] [] types :: ss) code (.bind name .null :: parts) p' (name :: given)
  | bind {p p' loc x value types ss name code1 call given1 code2 parts given2}
      (hval : ExprCode p value code1 call given1) (hholds : p.Holds [name])
      (htail : PartsCode (p.declare x name) ss code2 parts p' given2) :
      PartsCode p (.localVars loc [x] [value] types :: ss) (code1 ++ code2)
        (.bind name (cut call) :: parts) p' (given1 ++ name :: given2)

inductive FunctionCode : Place → TypedLua.Function → Def → List String → Prop
  | mk {p p' loc params isVararg bodyLoc body paramTypes returnType label name names nonlocals code given}
      (hlen : names.length = params.length)
      (hbody : StmtsCode ((p.inside (.mk name names (if isVararg then .varargs else .ignored) nonlocals
          (filled code)) false).declareAll (params.zip names)) body code p' given)
      (houter : LeavesOuter p (.mk name names (if isVararg then .varargs else .ignored) nonlocals (filled code))
        (names ++ given)) :
      FunctionCode p (.mk loc params isVararg (.mk bodyLoc body) paramTypes returnType label)
        (.mk name names (if isVararg then .varargs else .ignored) nonlocals (filled code))
        (names ++ given)

inductive BlockCode : Place → TypedLua.Block → List Stmt → List String → Prop
  | mk {p p' loc ss code given} (h : StmtsCode p ss code p' given) : BlockCode p (.mk loc ss) (filled code) given

inductive OrElseCode :
    Place → List Clause → Option TypedLua.Block → OrElse → List String → Prop
  | none {p} : OrElseCode p [] none .none []
  | empty {p loc} : OrElseCode p [] (some (.mk loc [])) .none []
  | otherwise {p loc s ss suite given} (h : BlockCode p (.mk loc (s :: ss)) suite given) :
      OrElseCode p [] (some (.mk loc (s :: ss))) (.otherwise suite) given
  | elseIf {p condition body clauses final call given1 suite given2 other given3}
      (hcond : ExprCode p condition [] call given1) (hbody : BlockCode p body suite given2)
      (htail : OrElseCode p clauses final other given3) :
      OrElseCode p (.mk condition body :: clauses) final
        (.elseIf (toCond condition (cut call)) suite other) (given1 ++ (given2 ++ given3))
  /-- The definitions that a further condition needs are made when it is reached. -/
  | hoisted {p condition body clauses final s code call given1 suite given2 other given3}
      (hcond : ExprCode p condition (s :: code) call given1) (hbody : BlockCode p body suite given2)
      (htail : OrElseCode p clauses final other given3) :
      OrElseCode p (.mk condition body :: clauses) final
        (.otherwise (s :: code ++ [.ifElse (toCond condition (cut call)) suite other]))
        (given1 ++ (given2 ++ given3))

/-- One round of a loop: the body, and the condition at its end if there is one. -/
inductive RoundCode :
    Place → List TypedLua.Stmt → Option TypedLua.Expr → List Stmt → List String → Prop
  | plain {p p' ss code given} (h : StmtsCode p ss code p' given) : RoundCode p ss none (filled code) given
  | until {p p' ss condition code1 given1 code2 call given2} (h : StmtsCode p ss code1 p' given1)
      (hcond : ExprCode p' condition code2 call given2) :
      RoundCode p ss (some condition)
        (filled code1 ++ (code2 ++ [.ifElse (toCond condition (cut call)) [p.breakCode] .none]))
        (given1 ++ given2)

inductive LoopCode : Place → List (String × String) → List TypedLua.Stmt → Option TypedLua.Expr →
    List Stmt → List String → Prop
  | inline {p pairs ss until? code given} (hform : LoopForms.Inline ss until?)
      (h : RoundCode p.inLoop ss until? code given) : LoopCode p pairs ss until? code given
  | iteration {p pairs ss until? function flow nonlocals code given} (hform : LoopForms.Apart ss until?)
      (hholds : p.Holds [function, flow])
      (h : RoundCode ((p.inside (.mk function (pairs.map (·.2)) .none nonlocals code) true).declareAll pairs)
        ss until? code given)
      (houter : LeavesOuter p (.mk function (pairs.map (·.2)) .none nonlocals code) given) :
      LoopCode p pairs ss until? [.define (.mk function (pairs.map (·.2)) .none nonlocals code),
          .iterate flow function (pairs.map (·.2)), .breakOn flow, .returnOn flow p.inIteration]
        (function :: flow :: given)

inductive TargetCode : Place → TypedLua.Expr → Expr → List Stmt → List String → Prop
  | global {p loc x value} (hfind : p.find x = none) : TargetCode p (.name loc x) value [.setGlobal x value] []
  | variable {p loc x d value} (hfind : p.find x = some d) (hreach : p.Reaches d) :
      TargetCode p (.name loc x) value [.assign d.name value] []
  | index {p loc object key value code1 call1 given1 code2 call2 given2}
      (hobj : ExprCode p object code1 call1 given1) (hkey : ExprCode p key code2 call2 given2) :
      TargetCode p (.index loc object key) value
        (code1 ++ (code2 ++ [.setIndex (cut call1) (cut call2) value])) (given1 ++ given2)

inductive TargetsCode :
    Place → List TypedLua.Expr → List String → List Stmt → List String → Prop
  | nil {p} : TargetsCode p [] [] [] []
  | cons {p target targets temp temps code1 given1 code2 given2}
      (hhead : TargetCode p target (.var temp) code1 given1)
      (htail : TargetsCode p targets temps code2 given2) :
      TargetsCode p (target :: targets) (temp :: temps) (code1 ++ code2) (given1 ++ given2)

inductive StepCode :
    Place → Option TypedLua.Expr → List Stmt → Option Expr → List String → Prop
  | none {p} : StepCode p none [] none []
  | some {p e code call given} (h : ExprCode p e code call given) : StepCode p (some e) code (some (cut call)) given

inductive StmtsCode :
    Place → List TypedLua.Stmt → List Stmt → Place → List String → Prop
  | nil {p} : StmtsCode p [] [] p []
  | cons {p p' p'' s ss code1 given1 code2 given2} (hhead : StmtCode p s code1 p' given1)
      (htail : StmtsCode p' ss code2 p'' given2) :
      StmtsCode p (s :: ss) (code1 ++ code2) p'' (given1 ++ given2)

inductive StmtCode : Place → TypedLua.Stmt → List Stmt → Place → List String → Prop
  | localNull {p loc names types fresh} (hlen : fresh.length = names.length) (hholds : p.Holds fresh) :
      StmtCode p (.localVars loc names [] types) [.assignNull fresh] (p.declareAll (names.zip fresh)) fresh
  | localOne {p loc x value types name code call given} (h : ExprCode p value code call given)
      (hholds : p.Holds [name]) :
      StmtCode p (.localVars loc [x] [value] types) (code ++ [.assign name (cut call)])
        (p.declare x name) (given ++ [name])
  | localMany {p loc names values types fresh code list given} (hvals : values ≠ [])
      (hmany : ¬(names.length = 1 ∧ values.length = 1)) (hlen : fresh.length = names.length)
      (h : ListCode p values code list given) (hholds : p.Holds fresh) :
      StmtCode p (.localVars loc names values types) (code ++ [(toAdjusted names.length values list).assign fresh])
        (p.declareAll (names.zip fresh)) (given ++ fresh)
  | localFunction {p loc x f d given} (hholds : p.Holds [d.name]) (h : FunctionCode (p.declare x d.name) f d given) :
      StmtCode p (.localFunction loc x f) [.define d] (p.declare x d.name) (d.name :: given)
  | assignOne {p loc target value code1 call given1 code2 given2} (hval : ExprCode p value code1 call given1)
      (htarget : TargetCode p target (cut call) code2 given2) :
      StmtCode p (.assign loc [target] [value]) (code1 ++ code2) p (given1 ++ given2)
  | assignMany {p loc targets values temps code1 list given1 code2 given2}
      (hmany : ¬(targets.length = 1 ∧ values.length = 1))
      (hlen : temps.length = targets.length) (hholds : p.Holds temps)
      (hvals : ListCode p values code1 list given1)
      (htargets : TargetsCode p targets temps code2 given2) :
      StmtCode p (.assign loc targets values)
        (code1 ++ ((toAdjusted targets.length values list).assign temps :: code2)) p
        (temps ++ (given1 ++ given2))
  | expr {p loc e code call given} (h : ExprCode p e code call given) :
      StmtCode p (.expr loc e) (code ++ [.run call]) p given
  | scope {p p' loc bodyLoc ss code given} (h : StmtsCode p ss code p' given) :
      StmtCode p (.scope loc (.mk bodyLoc ss)) code p given
  | whileLoop {p loc condition bodyLoc body code call given1 suite given2}
      (hcond : ExprCode p condition code call given1) (hloop : LoopCode p [] body none suite given2) :
      StmtCode p (.whileLoop loc condition (.mk bodyLoc body))
        (code ++ [.whileLoop (toCond condition (cut call)) suite]) p (given1 ++ given2)
  | repeatLoop {p loc bodyLoc body condition suite given} (h : LoopCode p [] body (some condition) suite given) :
      StmtCode p (.repeatLoop loc (.mk bodyLoc body) condition) [.forever suite] p given
  | ifElse {p loc condition body clauses final code call given1 suite given2 other given3}
      (hcond : ExprCode p condition code call given1) (hbody : BlockCode p body suite given2)
      (htail : OrElseCode p clauses final other given3) :
      StmtCode p (.ifElse loc condition body clauses final)
        (code ++ [.ifElse (toCond condition (cut call)) suite other]) p
        (given1 ++ (given2 ++ given3))
  | numericFor {p loc counter start stop step bodyLoc body name code1 call1 given1 code2 call2 given2
        code3 step' given3 suite given4}
      (hstart : ExprCode p start code1 call1 given1) (hstop : ExprCode p stop code2 call2 given2)
      (hstep : StepCode p step code3 step' given3) (hholds : p.Holds [name])
      (hloop : LoopCode (p.declare counter name) [(counter, name)] body none suite given4) :
      StmtCode p (.numericFor loc counter start stop step (.mk bodyLoc body))
        (code1 ++ (code2 ++ (code3 ++ [.forRange name (cut call1) (cut call2) step' suite]))) p
        (given1 ++ (given2 ++ (given3 ++ name :: given4)))
  | genericFor {p loc names iterators bodyLoc body fresh code list given1 suite given2}
      (hlist : ListCode p iterators code list given1) (hlen : fresh.length = names.length)
      (hholds : p.Holds fresh)
      (hloop : LoopCode (p.declareAll (names.zip fresh)) (names.zip fresh) body none suite given2) :
      StmtCode p (.genericFor loc names iterators (.mk bodyLoc body))
        (code ++ [.forEach fresh list.1 list.2 suite]) p (given1 ++ (fresh ++ given2))
  | returnNone {p loc} : StmtCode p (.returnValues loc []) [.answer p.inIteration (.pack [] none)] p []
  | returnOne {p loc e code call given} (h : ExprCode p e code call given) :
      StmtCode p (.returnValues loc [e]) (code ++ [.answer p.inIteration (.call call)]) p given
  | returnMany {p loc e e' es code list given} (h : ListCode p (e :: e' :: es) code list given) :
      StmtCode p (.returnValues loc (e :: e' :: es)) (code ++ [.answer p.inIteration (.pack list.1 list.2)]) p given
  | breakLoop {p loc} (hinside : p.loops ≠ 0 ∨ p.inIteration = true) : StmtCode p (.breakLoop loc) [p.breakCode] p []

end

def chunkDef (body : List Stmt) : Def := .mk "chunk" [] .varargs [] body

def ModuleCode (c : Chunk) (m : Module) (given : List String) : Prop := ∃ code p, m.body = filled code ∧
    StmtsCode ⟨[chunkDef m.body], [], 0, false⟩ c.body.stmts code p given

end Scoping

end TypedLua.Target
