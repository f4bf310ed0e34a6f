import TypedLua.Proofs.Scoping.ExprSoundness
import TypedLua.Target.Load
import Mathlib.Data.Set.Function

/-!
# Renaming variables

A module whose variables are renamed, and loading as a renaming: the variables of a module that is
loaded are the normal forms of its words.
-/

namespace TypedLua.Target

open Generate

variable (f : String → String)

/-! ## Renamed code -/

mutual

def Expr.rename : Expr → Expr
  | .null => .null
  | .bool b => .bool b
  | .number n => .number n
  | .infinity => .infinity
  | .string s => .string s
  | .var x => .var (f x)
  | .global x => .global x
  | .firstVararg => .firstVararg
  | .table items tail => .table (renameItems items) (renameTail tail)
  | .binary op left right => .binary op left.rename right.rename
  | .andThen temp left right => .andThen (f temp) left.rename right.rename
  | .orElse temp left right => .orElse (f temp) left.rename right.rename
  | .negation operand => .negation operand.rename
  | .length operand => .length operand.rename
  | .minus operand => .minus operand.rename
  | .first call => .first call.rename
  | .index object key => .index object.rename key.rename
  | .last parts value => .last (renameParts parts) value.rename

def Call.rename : Call → Call
  | .call callee args tail => .call callee.rename (renameExprs args) (renameTail tail)
  | .invoke object member args tail => .invoke object.rename member (renameExprs args) (renameTail tail)
  | .varargs => .varargs
  | .single value => .single value.rename

def renameExprs : List Expr → List Expr
  | [] => []
  | e :: es => e.rename :: renameExprs es

def renameTail : Option Tail → Option Tail
  | none => none
  | some .varargs => some .varargs
  | some (.expand call) => some (.expand call.rename)

def renameParts : List Part → List Part
  | [] => []
  | .run call :: parts => .run call.rename :: renameParts parts
  | .bind x value :: parts => .bind (f x) value.rename :: renameParts parts

def renameItems : List Item → List Item
  | [] => []
  | .keyed key value :: items => .keyed key.rename value.rename :: renameItems items
  | .positional value :: items => .positional value.rename :: renameItems items

end

def Cond.rename : Cond → Cond
  | truthy value => truthy (value.rename f)
  | plain value => plain (value.rename f)

def Answer.rename : Answer → Answer
  | call value => call (value.rename f)
  | pack args tail => pack (renameExprs f args) (renameTail f tail)

mutual

def Stmt.rename : Stmt → Stmt
  | .assignNull names => .assignNull (names.map f)
  | .assign x value => .assign (f x) (value.rename f)
  | .assignTuple names values => .assignTuple (names.map f) (renameExprs f values)
  | .assignAdjusted names args tail => .assignAdjusted (names.map f) (renameExprs f args) (renameTail f tail)
  | .setGlobal x value => .setGlobal x (value.rename f)
  | .setIndex object key value => .setIndex (object.rename f) (key.rename f) (value.rename f)
  | .run call => .run (call.rename f)
  | .ifElse condition body otherwise => .ifElse (condition.rename f) (renameStmts body) otherwise.rename
  | .whileLoop condition body => .whileLoop (condition.rename f) (renameStmts body)
  | .forever body => .forever (renameStmts body)
  | .forRange x start stop step body =>
    .forRange (f x) (start.rename f) (stop.rename f) (step.map (·.rename f)) (renameStmts body)
  | .forEach names args tail body =>
    .forEach (names.map f) (renameExprs f args) (renameTail f tail) (renameStmts body)
  | .define d => .define d.rename
  | .iterate flow function args => .iterate (f flow) (f function) (args.map f)
  | .breakOn flow => .breakOn (f flow)
  | .returnOn flow forward => .returnOn (f flow) forward
  | .answer boxed value => .answer boxed (value.rename f)
  | .answerBreak => .answerBreak
  | .breakLoop => .breakLoop
  | .pass => .pass

/-- What follows the first block of a conditional, with other names for its variables. -/
def OrElse.rename : OrElse → OrElse
  | .none => .none
  | .elseIf condition body otherwise => .elseIf (condition.rename f) (renameStmts body) otherwise.rename
  | .otherwise body => .otherwise (renameStmts body)

def Def.rename : Def → Def
  | .mk name params rest nonlocals body => .mk (f name) (params.map f) rest (nonlocals.map f) (renameStmts body)

def renameStmts : List Stmt → List Stmt
  | [] => []
  | s :: ss => s.rename :: renameStmts ss

end

variable {f}

/-! ## Renaming and the parts of the generator -/

@[simp] theorem cut_rename (call : Call) : cut (call.rename f) = (cut call).rename f := by
  cases call <;> simp [Call.rename, cut, Expr.rename]

@[simp] theorem toCond_rename (e : TypedLua.Expr) (value : Expr) :
    toCond e (value.rename f) = (toCond e value).rename f := by
  unfold toCond
  repeat' split
  all_goals rfl

theorem toTail_rename (call : Call) : toTail (call.rename f) = renameTail f (toTail call) := by
  cases call <;> simp [toTail, Call.rename, renameTail]

theorem lastItem_rename (e : TypedLua.Expr) (call : Call) : lastItem e (call.rename f) =
      (renameExprs f (lastItem e call).1, renameTail f (lastItem e call).2) := by
  unfold lastItem
  split
  · simp [renameExprs, toTail_rename]
  · simp [renameExprs, renameTail]

theorem consItem_rename (call : Call) (list : List Expr × Option Tail) :
    consItem (call.rename f) (renameExprs f list.1, renameTail f list.2) =
      (renameExprs f (consItem call list).1, renameTail f (consItem call list).2) := by
  simp [consItem, renameExprs]

@[simp] theorem numberLiteral_rename (n : Number) : (numberLiteral n).rename f = numberLiteral n := by
  unfold numberLiteral
  repeat' split
  all_goals rfl

theorem toAdjusted_rename (n : Nat) (es : List TypedLua.Expr) (list : List Expr × Option Tail) (names : List String) :
    (toAdjusted n es (renameExprs f list.1, renameTail f list.2)).assign (names.map f) =
      ((toAdjusted n es list).assign names).rename f := by
  unfold toAdjusted
  split <;> simp [Adjusted.assign, Stmt.rename]

theorem renameItems_positional (values : List Expr) :
    renameItems f (values.map .positional) = (renameExprs f values).map .positional := by
  induction values with
  | nil => rfl
  | cons value values ih => simp [renameItems, renameExprs, ih]

@[simp] theorem renameStmts_append (code code' : List Stmt) :
    renameStmts f (code ++ code') = renameStmts f code ++ renameStmts f code' := by
  induction code with
  | nil => rfl
  | cons s code ih => simp [renameStmts, ih]

theorem filled_rename (code : List Stmt) :
    Scoping.filled (renameStmts f code) = renameStmts f (Scoping.filled code) := by
  cases code with
  | nil => rfl
  | cons s code => rfl

@[simp] theorem Def.rename_name (d : Def) : (d.rename f).name = f d.name := by
  cases d
  rfl

@[simp] theorem Def.rename_params (d : Def) : (d.rename f).params = d.params.map f := by
  cases d
  rfl

@[simp] theorem Def.rename_nonlocals (d : Def) : (d.rename f).nonlocals = d.nonlocals.map f := by
  cases d
  rfl

@[simp] theorem Def.rename_body (d : Def) : (d.rename f).body = renameStmts f d.body := by
  cases d
  rfl

/-! ## What renamed code binds -/

mutual

@[simp] theorem Expr.rename_bound : ∀ e : Expr, (e.rename f).bound = e.bound.map f
  | .null | .bool _ | .number _ | .infinity | .string _ | .var _ | .global _ | .firstVararg => rfl
  | .table items tail => by simp [Expr.rename, Expr.bound, renameItems_bound items, renameTail_bound tail]
  | .binary _ left right | .andThen _ left right | .orElse _ left right | .index left right => by
    simp [Expr.rename, Expr.bound, left.rename_bound, right.rename_bound]
  | .negation operand | .length operand | .minus operand => by simp [Expr.rename, Expr.bound, operand.rename_bound]
  | .first call => by simp [Expr.rename, Expr.bound, call.rename_bound]
  | .last parts value => by simp [Expr.rename, Expr.bound, renameParts_bound parts, value.rename_bound]

@[simp] theorem Call.rename_bound : ∀ call : Call, (call.rename f).bound = call.bound.map f
  | .call e args tail | .invoke e _ args tail => by
    simp [Call.rename, Call.bound, e.rename_bound, renameExprs_bound args, renameTail_bound tail]
  | .varargs => rfl
  | .single value => by simp [Call.rename, Call.bound, value.rename_bound]

@[simp] theorem renameExprs_bound : ∀ es : List Expr, exprsBound (renameExprs f es) = (exprsBound es).map f
  | [] => rfl
  | e :: es => by simp [renameExprs, exprsBound, e.rename_bound, renameExprs_bound es]

@[simp] theorem renameTail_bound : ∀ tail : Option Tail, tailBound (renameTail f tail) = (tailBound tail).map f
  | none | some .varargs => rfl
  | some (.expand call) => by simp [renameTail, tailBound, call.rename_bound]

theorem renameParts_bound : ∀ parts : List Part, partsBound (renameParts f parts) = (partsBound parts).map f
  | [] => rfl
  | .run call :: parts => by simp [renameParts, partsBound, call.rename_bound, renameParts_bound parts]
  | .bind _ value :: parts => by simp [renameParts, partsBound, value.rename_bound, renameParts_bound parts]

theorem renameItems_bound : ∀ items : List Item, itemsBound (renameItems f items) = (itemsBound items).map f
  | [] => rfl
  | .keyed key value :: items => by
    simp [renameItems, itemsBound, key.rename_bound, value.rename_bound, renameItems_bound items]
  | .positional value :: items => by simp [renameItems, itemsBound, value.rename_bound, renameItems_bound items]

end

@[simp] theorem Cond.rename_bound (c : Cond) : (c.rename f).bound = c.bound.map f := by
  cases c <;> simp [Cond.rename, Cond.bound]

@[simp] theorem Answer.rename_bound (a : Answer) : (a.rename f).bound = a.bound.map f := by
  cases a <;> simp [Answer.rename, Answer.bound, listBound]

mutual

theorem Stmt.rename_bound : ∀ s : Stmt, (s.rename f).bound = s.bound.map f
  | .assignNull _ | .define _ | .iterate .. | .breakOn _ | .returnOn .. | .answerBreak | .breakLoop
  | .pass => by simp [Stmt.rename, Stmt.bound]
  | .assign _ _ | .assignTuple _ _ | .assignAdjusted .. | .setGlobal _ _ | .setIndex .. | .run _
  | .answer _ _ => by simp [Stmt.rename, Stmt.bound, listBound]
  | .ifElse _ body otherwise => by simp [Stmt.rename, Stmt.bound, renameStmts_bound body, otherwise.rename_bound]
  | .whileLoop _ body | .forever body => by simp [Stmt.rename, Stmt.bound, renameStmts_bound body]
  | .forRange _ _ _ step body => by
    cases step <;> simp [Stmt.rename, Stmt.bound, renameStmts_bound body, exprsBound]
  | .forEach _ _ _ body => by simp [Stmt.rename, Stmt.bound, listBound, renameStmts_bound body]

theorem OrElse.rename_bound : ∀ o : OrElse, (o.rename f).bound = o.bound.map f
  | .none => rfl
  | .elseIf _ body otherwise => by simp [OrElse.rename, OrElse.bound, renameStmts_bound body, otherwise.rename_bound]
  | .otherwise body => by simp [OrElse.rename, OrElse.bound, renameStmts_bound body]

theorem renameStmts_bound : ∀ ss : List Stmt, stmtsBound (renameStmts f ss) = (stmtsBound ss).map f
  | [] => rfl
  | s :: ss => by simp [renameStmts, stmtsBound, s.rename_bound, renameStmts_bound ss]

end

/-! ## Loading is a renaming -/

section Reading

variable {α β : Type} {x : Option α} {a : α} {b : β}

def Reads (x : Option α) (a : α) : Prop := ∀ ⦃a'⦄, x = some a' → a' = a

theorem Reads.pure (a : α) : Reads (some a) a := fun _ h => (Option.some.inj h).symm

theorem Reads.bind {g : α → Option β} (hx : Reads x a) (hg : Reads (g a) b) : Reads (x >>= g) b := by
  intro b' h
  obtain ⟨a', ha', hb'⟩ := Option.bind_eq_some_iff.1 h
  obtain rfl := hx ha'
  exact hg hb'

theorem Reads.map (g : α → β) (hx : Reads x a) : Reads (x.map g) (g a) := by
  intro b' h
  obtain ⟨a', ha', rfl⟩ := Option.map_eq_some_iff.1 h
  rw [hx ha']

end Reading

theorem readName?_reads (word : String) : Reads (readName? word) (Text.normal word) := by
  intro name h
  unfold readName? at h
  dsimp only at h
  split at h
  · exact (Option.some.inj h).symm
  · cases h

theorem readNames?_reads (words : List String) : Reads (readNames? words) (words.map Text.normal) := by
  induction words with
  | nil => exact .pure _
  | cons word words ih => exact .bind (readName?_reads word) (.bind ih (.pure _))

theorem readTargets?_reads (words : List String) : Reads (readTargets? words) (words.map Text.normal) := by
  cases words with
  | nil => exact fun _ h => by cases h
  | cons word words => exact readNames?_reads (word :: words)

mutual

theorem Expr.load?_reads : ∀ e : Expr, Reads e.load? (e.rename Text.normal)
  | .null | .bool _ | .number _ | .infinity | .string _ | .global _ | .firstVararg => .pure _
  | .var x => .bind (readName?_reads x) (.pure _)
  | .table items tail => .bind (loadItems?_reads items) (.bind (loadTail?_reads tail) (.pure _))
  | .binary _ left right | .index left right => .bind left.load?_reads (.bind right.load?_reads (.pure _))
  | .andThen temp left right | .orElse temp left right =>
    .bind (readName?_reads temp) (.bind left.load?_reads (.bind right.load?_reads (.pure _)))
  | .negation operand | .length operand | .minus operand => .bind operand.load?_reads (.pure _)
  | .first call => .bind call.load?_reads (.pure _)
  | .last parts value => .bind (loadParts?_reads parts) (.bind value.load?_reads (.pure _))
termination_by structural x => x

theorem Call.load?_reads : ∀ call : Call, Reads call.load? (call.rename Text.normal)
  | .call e args tail | .invoke e _ args tail =>
    .bind e.load?_reads (.bind (loadExprs?_reads args) (.bind (loadTail?_reads tail) (.pure _)))
  | .varargs => .pure _
  | .single value => .bind value.load?_reads (.pure _)
termination_by structural x => x

theorem loadExprs?_reads : ∀ es : List Expr, Reads (loadExprs? es) (renameExprs Text.normal es)
  | [] => .pure _
  | e :: es => .bind e.load?_reads (.bind (loadExprs?_reads es) (.pure _))
termination_by structural x => x

theorem loadTail?_reads : ∀ tail : Option Tail, Reads (loadTail? tail) (renameTail Text.normal tail)
  | none | some .varargs => .pure _
  | some (.expand call) => .bind call.load?_reads (.pure _)
termination_by structural x => x

theorem loadParts?_reads : ∀ parts : List Part, Reads (loadParts? parts) (renameParts Text.normal parts)
  | [] => .pure _
  | .run call :: parts => .bind call.load?_reads (.bind (loadParts?_reads parts) (.pure _))
  | .bind x value :: parts =>
    .bind (readName?_reads x) (.bind value.load?_reads (.bind (loadParts?_reads parts) (.pure _)))
termination_by structural x => x

theorem loadItems?_reads : ∀ items : List Item, Reads (loadItems? items) (renameItems Text.normal items)
  | [] => .pure _
  | .keyed key value :: items =>
    .bind key.load?_reads (.bind value.load?_reads (.bind (loadItems?_reads items) (.pure _)))
  | .positional value :: items => .bind value.load?_reads (.bind (loadItems?_reads items) (.pure _))
termination_by structural x => x

end

theorem Cond.load?_reads (c : Cond) : Reads c.load? (c.rename Text.normal) := by
  cases c with
  | truthy value | plain value => exact .map _ value.load?_reads

theorem Answer.load?_reads (a : Answer) : Reads a.load? (a.rename Text.normal) := by
  cases a with
  | call value => exact .map _ value.load?_reads
  | pack args tail => exact .bind (loadExprs?_reads args) (.bind (loadTail?_reads tail) (.pure _))

mutual

theorem Stmt.load?_reads : ∀ s : Stmt, Reads s.load? (s.rename Text.normal)
  | .assignNull names => .bind (readTargets?_reads names) (.pure _)
  | .assign x value => .bind (readName?_reads x) (.bind value.load?_reads (.pure _))
  | .assignTuple names values => .bind (readTargets?_reads names) (.bind (loadExprs?_reads values) (.pure _))
  | .assignAdjusted names args tail =>
    .bind (readTargets?_reads names) (.bind (loadExprs?_reads args) (.bind (loadTail?_reads tail) (.pure _)))
  | .setGlobal _ value => .bind value.load?_reads (.pure _)
  | .setIndex object key value => .bind object.load?_reads (.bind key.load?_reads (.bind value.load?_reads (.pure _)))
  | .run call => .bind call.load?_reads (.pure _)
  | .ifElse condition body otherwise =>
    .bind condition.load?_reads (.bind (loadStmts?_reads body) (.bind otherwise.load?_reads (.pure _)))
  | .whileLoop condition body => .bind condition.load?_reads (.bind (loadStmts?_reads body) (.pure _))
  | .forever body => .bind (loadStmts?_reads body) (.pure _)
  | .forRange x start stop none body => .bind (readName?_reads x)
    (.bind start.load?_reads (.bind stop.load?_reads (.bind (loadStmts?_reads body) (.pure _))))
  | .forRange x start stop (some step) body => .bind (readName?_reads x) (.bind start.load?_reads
    (.bind stop.load?_reads (.bind step.load?_reads (.bind (loadStmts?_reads body) (.pure _)))))
  | .forEach names args tail body => .bind (readNames?_reads names) (.bind (loadExprs?_reads args)
    (.bind (loadTail?_reads tail) (.bind (loadStmts?_reads body) (.pure _))))
  | .define d => .bind d.load?_reads (.pure _)
  | .iterate flow function args =>
    .bind (readName?_reads flow) (.bind (readName?_reads function) (.bind (readNames?_reads args) (.pure _)))
  | .breakOn flow | .returnOn flow _ => .bind (readName?_reads flow) (.pure _)
  | .answer _ value => .bind value.load?_reads (.pure _)
  | .answerBreak | .breakLoop | .pass => .pure _
termination_by structural x => x

theorem OrElse.load?_reads : ∀ o : OrElse, Reads o.load? (o.rename Text.normal)
  | .none => .pure _
  | .elseIf condition body otherwise =>
    .bind condition.load?_reads (.bind (loadStmts?_reads body) (.bind otherwise.load?_reads (.pure _)))
  | .otherwise body => .bind (loadStmts?_reads body) (.pure _)
termination_by structural x => x

theorem Def.load?_reads : ∀ d : Def, Reads d.load? (d.rename Text.normal)
  | .mk name params rest nonlocals body => by
    refine .bind (readName?_reads name) (.bind (readNames?_reads params)
      (.bind (readNames?_reads nonlocals) (.bind (loadStmts?_reads body) ?_)))
    split
    · exact .pure _
    · exact fun _ h => by cases h
termination_by structural x => x

theorem loadStmts?_reads : ∀ ss : List Stmt, Reads (loadStmts? ss) (renameStmts Text.normal ss)
  | [] => .pure _
  | s :: ss => .bind s.load?_reads (.bind (loadStmts?_reads ss) (.pure _))
termination_by structural x => x

end

theorem Module.load_eq {m m' : Module}
    (h : m.load file header = .ok m') : m'.body = renameStmts Text.normal m.body := by
  unfold Module.load at h
  split at h
  · cases h
  · split at h
    · cases h
    · split at h
      · next body hbody =>
        cases h
        exact loadStmts?_reads m.body hbody
      · cases h

end TypedLua.Target
