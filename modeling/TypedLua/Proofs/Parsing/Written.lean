import TypedLua.Proofs.Parsing.PlainTypes
import TypedLua.Proofs.Syntax.AnnotatedTypes
import TypedLua.Proofs.Syntax.Temporaries
import TypedLua.Syntax.Parser

/-!
# Trees as they are written

What is common to all trees that are parsed: no block stands inside an expression, what is assigned
to is a name or a member, an annotation names one of the names that it stands with, and its type is
built like a type.
-/

namespace TypedLua

open TypedLua.Parser

def Parser.annotated : Annotation → String
  | .mk name _ => name

def Annotation.Written (names : List String) (a : Annotation) : Prop := annotated a ∈ names ∧ a.All IsType

mutual

def Expr.Written : Expr → Prop
  | .nil _ | .bool .. | .number .. | .string .. | .vararg _ | .name .. | .signature .. => True
  | .function f => f.Written
  | .table _ fields => fieldsWritten fields
  | .binary _ left _ right => left.Written ∧ right.Written
  | .unary _ _ operand => operand.Written
  | .call _ callee args => callee.Written ∧ exprsWritten args
  | .method _ object _ args => object.Written ∧ exprsWritten args
  | .index _ object key => object.Written ∧ key.Written
  | .paren _ inner => inner.Written
  | .block .. => False

def exprsWritten : List Expr → Prop
  | [] => True
  | e :: es => e.Written ∧ exprsWritten es

def optionWritten : Option Expr → Prop
  | none => True
  | some e => e.Written

def fieldsWritten : List Field → Prop
  | [] => True
  | .mk _ key value :: fields => optionWritten key ∧ value.Written ∧ fieldsWritten fields

def Function.Written : Function → Prop
  | .mk _ params _ body paramTypes returnType _ =>
    body.Written ∧ (∀ a ∈ paramTypes, a.Written params) ∧ ∀ type ∈ returnType, IsType type

def Block.Written : Block → Prop
  | .mk _ ss => stmtsWritten ss

def otherwiseWritten : Option Block → Prop
  | none => True
  | some b => b.Written

def clausesWritten : List Clause → Prop
  | [] => True
  | .mk condition body :: clauses => condition.Written ∧ body.Written ∧ clausesWritten clauses

def stmtsWritten : List Stmt → Prop
  | [] => True
  | s :: ss => s.Written ∧ stmtsWritten ss

def Stmt.Written : Stmt → Prop
  | .localVars _ names values types => exprsWritten values ∧ ∀ a ∈ types, a.Written names
  | .localFunction _ _ f => f.Written
  | .assign _ targets values => exprsWritten targets ∧ (∀ e ∈ targets, isAssignable e = true) ∧ exprsWritten values
  | .expr _ e => e.Written
  | .scope _ body => body.Written
  | .whileLoop _ condition body => condition.Written ∧ body.Written
  | .repeatLoop _ body condition => body.Written ∧ condition.Written
  | .ifElse _ condition body clauses otherwise =>
    condition.Written ∧ body.Written ∧ clausesWritten clauses ∧ otherwiseWritten otherwise
  | .numericFor _ _ start stop step body => start.Written ∧ stop.Written ∧ optionWritten step ∧ body.Written
  | .genericFor _ _ iterators body => exprsWritten iterators ∧ body.Written
  | .returnValues _ values => exprsWritten values
  | .breakLoop _ => True

end

theorem exprsWritten_iff : exprsWritten es ↔ ∀ e ∈ es, e.Written := by
  induction es with
  | nil => simp [exprsWritten]
  | cons e es ih => rw [exprsWritten, ih, List.forall_mem_cons]

theorem fieldsWritten_iff : fieldsWritten fields ↔ ∀ f ∈ fields, f.All Expr.Written := by
  induction fields with
  | nil => simp [fieldsWritten]
  | cons field fields ih =>
    obtain ⟨loc, key, value⟩ := field
    cases key <;> simp [fieldsWritten, ih, Field.All, optionWritten, and_assoc]

theorem stmtsWritten_iff : stmtsWritten ss ↔ ∀ s ∈ ss, s.Written := by
  induction ss with
  | nil => simp [stmtsWritten]
  | cons s ss ih => rw [stmtsWritten, ih, List.forall_mem_cons]

theorem Block.written_iff {b : Block} : b.Written ↔ ∀ s ∈ b.stmts, s.Written := by
  obtain ⟨loc, ss⟩ := b
  exact stmtsWritten_iff

/-! ## The types of written trees -/

def Tidy (types : List Expr) (ts : List String) : Prop := (∀ type ∈ types, IsType type) ∧ ts = []

theorem Tidy.nil : Tidy [] [] := ⟨List.forall_mem_nil _, rfl⟩

theorem Tidy.append (h : Tidy types ts) (h' : Tidy types' ts') : Tidy (types ++ types') (ts ++ ts') :=
  ⟨List.forall_mem_append.2 ⟨h.1, h'.1⟩, by rw [h.2, h'.2, List.append_nil]⟩

theorem annotations_tidy {names : List String} {types : List Annotation}
    (h : ∀ a ∈ types, a.Written names) : Tidy (types.map (·.type)) [] := by
  refine ⟨fun type htype => ?_, rfl⟩
  obtain ⟨⟨x, type⟩, ha, rfl⟩ := List.mem_map.1 htype
  exact (h _ ha).2

mutual

theorem Expr.Written.tidy : ∀ {e : Expr}, e.Written → Tidy e.types e.temporaries
  | .nil _, _ | .bool .., _ | .number .., _ | .string .., _ | .vararg _, _ | .name .., _ => .nil
  | .signature .., _ => .nil
  | .function f, h => Function.Written.tidy (f := f) h
  | .table _ fields, h => @fields_tidy fields h
  | .binary .., h => h.1.tidy.append h.2.tidy
  | .unary _ _ e, h => Expr.Written.tidy (e := e) h
  | .call .., h => h.1.tidy.append (exprs_tidy h.2)
  | .method .., h => h.1.tidy.append (exprs_tidy h.2)
  | .index .., h => h.1.tidy.append h.2.tidy
  | .paren _ e, h => Expr.Written.tidy (e := e) h
  | .block .., h => h.elim

theorem exprs_tidy : ∀ {es : List Expr}, exprsWritten es → Tidy (exprsTypes es) (exprsTemporaries es)
  | [], _ => .nil
  | _ :: _, h => h.1.tidy.append (exprs_tidy h.2)

theorem option_tidy : ∀ {e? : Option Expr}, optionWritten e? → Tidy (optionTypes e?) (optionTemporaries e?)
  | none, _ => .nil
  | some e, h => Expr.Written.tidy (e := e) h

theorem fields_tidy : ∀ {fields : List Field}, fieldsWritten fields →
    Tidy (fieldsTypes fields) (fieldsTemporaries fields)
  | [], _ => .nil
  | .mk .. :: _, h => ((option_tidy h.1).append h.2.1.tidy).append (fields_tidy h.2.2)

theorem Function.Written.tidy : ∀ {f : Function}, f.Written → Tidy f.types f.temporaries
  | .mk _ _ _ _ _ returnType _, h =>
    have hres : Tidy returnType.toList [] := ⟨fun type ht => h.2.2 type (Option.mem_toList.1 ht), rfl⟩
    ((annotations_tidy h.2.1).append hres).append h.1.tidy

theorem Block.Written.tidy : ∀ {b : Block}, b.Written → Tidy b.types b.temporaries
  | .mk _ ss, h => @stmts_tidy ss h

theorem otherwise_tidy : ∀ {b? : Option Block}, otherwiseWritten b? →
    Tidy (otherwiseTypes b?) (otherwiseTemporaries b?)
  | none, _ => .nil
  | some b, h => Block.Written.tidy (b := b) h

theorem clauses_tidy : ∀ {clauses : List Clause}, clausesWritten clauses →
    Tidy (clausesTypes clauses) (clausesTemporaries clauses)
  | [], _ => .nil
  | .mk .. :: _, h => (h.1.tidy.append h.2.1.tidy).append (clauses_tidy h.2.2)

theorem stmts_tidy : ∀ {ss : List Stmt}, stmtsWritten ss → Tidy (stmtsTypes ss) (stmtsTemporaries ss)
  | [], _ => .nil
  | _ :: _, h => h.1.tidy.append (stmts_tidy h.2)

theorem Stmt.Written.tidy : ∀ {s : Stmt}, s.Written → Tidy s.types s.temporaries
  | .localVars .., h => by
    have htidy := (exprs_tidy h.1).append (annotations_tidy h.2)
    rwa [List.append_nil] at htidy
  | .localFunction _ _ f, h => Function.Written.tidy (f := f) h
  | .assign .., h => (exprs_tidy h.1).append (exprs_tidy h.2.2)
  | .expr _ e, h => Expr.Written.tidy (e := e) h
  | .scope _ b, h => Block.Written.tidy (b := b) h
  | .whileLoop .., h => h.1.tidy.append h.2.tidy
  | .repeatLoop .., h => h.1.tidy.append h.2.tidy
  | .ifElse .., h => ((h.1.tidy.append h.2.1.tidy).append (clauses_tidy h.2.2.1)).append (otherwise_tidy h.2.2.2)
  | .numericFor .., h => ((h.1.tidy.append h.2.1.tidy).append (option_tidy h.2.2.1)).append h.2.2.2.tidy
  | .genericFor .., h => (exprs_tidy h.1).append h.2.tidy
  | .returnValues _ es, h => @exprs_tidy es h
  | .breakLoop _, _ => .nil

end

namespace Parser

theorem congruent_written : Congruent Expr.Written where
  nil _ := trivial
  bool _ _ := trivial
  number _ _ := trivial
  string _ _ := trivial
  vararg _ := trivial
  name _ _ := trivial
  signature _ _ _ := trivial
  table _ _ h := fieldsWritten_iff.2 h
  binary _ _ _ _ hleft hright := ⟨hleft, hright⟩
  unary _ _ _ h := h
  call _ _ _ hcallee hargs := ⟨hcallee, exprsWritten_iff.2 hargs⟩
  method _ _ _ _ hobj hargs := ⟨hobj, exprsWritten_iff.2 hargs⟩
  index _ _ _ hobj hkey := ⟨hobj, hkey⟩
  paren _ _ h := h

end Parser

end TypedLua
