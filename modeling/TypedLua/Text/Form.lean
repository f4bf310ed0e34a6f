import TypedLua.Text.Range

/-!
# Tables of forms

A table of forms says for some characters which characters they stand for.
-/

namespace TypedLua.Text

structure FormEntry where
  first : Nat
  last : Nat
  counting : Bool
  form : List Nat
  deriving Repr, DecidableEq

namespace FormEntry

def ofParts (counting : Bool) (range : Nat × Nat) (form : List Nat) (shift : Nat) : FormEntry :=
  { first := range.1 + shift, last := range.2 + shift, counting, form }

def formsOf (word : String) : List (List Nat) :=
  let parts := word.splitOn "*"
  let forms := (((parts.headD "").splitOn ".").map fun choices => (choices.splitOn ";").map hexCodePoint).foldl
    (fun forms choices => choices.flatMap fun n => forms.map (· ++ [n])) [[]]
  (List.replicate (((parts.getD 1 "1").toNat?).getD 1) forms).flatten

def ofWord (word : String) : List FormEntry :=
  match word.splitOn "+", word.splitOn "=", word.splitOn ":" with
  | [range, form], _, _ => (formsOf form).map fun form => ofParts true (rangeOf range) form 0
  | _, [range, forms], _ =>
    ((forms.splitOn ",").flatMap formsOf).zipIdx.map fun form => ofParts false (rangeOf range) form.1 form.2
  | _, _, [range, forms] =>
    forms.toList.zipIdx.map fun form => ofParts false (rangeOf range) [form.1.toNat] form.2
  | _, _, _ => []

def table (lines : List String) : List FormEntry :=
  (tableWords lines).flatMap ofWord

def covers (e : FormEntry) (n : Nat) : Bool :=
  e.first ≤ n && n ≤ e.last

def formOf (e : FormEntry) (n : Nat) : List Nat :=
  if e.counting then e.form.dropLast ++ [e.form.getLastD 0 + (n - e.first)] else e.form

def ofForm? (e : FormEntry) (form : List Nat) : Option Nat :=
  ((List.range (e.last + 1 - e.first)).map (e.first + ·)).find? fun n => e.formOf n == form

end FormEntry

def formIn? (table : List FormEntry) (n : Nat) : Option (List Nat) :=
  (table.find? (·.covers n)).map (·.formOf n)

def withForm? (table : List FormEntry) (form : List Nat) : Option Nat :=
  table.findSome? (·.ofForm? form)

end TypedLua.Text
