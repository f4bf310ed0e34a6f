import TypedLua.Environment

/-!
# What types denote

A type denotes a set of values, by recursion on the type: a name of the registry its basic set,
`or`, `and` and `not` union, intersection and complement, a string itself alone, a function type all
functions, and a shape the tables whose fields are in the types of their keys.
-/

namespace TypedLua

/-! ## Types -/

def Value.isOf : String → Value → Bool
  | "any", _ => true
  | "nil", .nil => true
  | "number", .number _ => true
  | "integer", .number (.int _) => true
  | "string", .string _ => true
  | "boolean", .bool _ => true
  | "table", .table _ => true
  | "function", .function _ => true
  | _, _ => false

def Field.isPositional : Field → Bool
  | .mk _ key _ => key.isNone

def Field.hasKey (k : String) : Field → Bool
  | .mk _ (some (.string _ key)) _ => key == k
  | _ => false

mutual

def Expr.isType : Expr → Bool
  | .name _ x => (Environment.basicPredicates.map (·.1)).contains x
  | .nil _ | .string .. => true
  | .table _ fields => areShape fields
  | .binary _ left op right => (op == .or || op == .and) && left.isType && right.isType
  | .unary _ op operand => op == .not && operand.isType
  | .signature _ params (.mk _ [.returnValues _ [result]]) => areTypes params && result.isType
  | _ => false

def areTypes : List Expr → Bool
  | [] => true
  | e :: es => e.isType && areTypes es

def areShape : List Field → Bool
  | [] => true
  | .mk _ none type :: fields => type.isType && areShape fields
  | .mk _ (some (.string ..)) type :: fields => type.isType && areShape fields
  | _ => false

end

/-! ## Sets of values -/

mutual

def Expr.admits (s : Store) : Expr → Value → Bool
  | .name _ x, v => v.isOf x
  | .nil _, v => v.isNil
  | .string _ text, v => v == .string text
  | .binary _ left .or right, v => left.admits s v || right.admits s v
  | .binary _ left .and right, v => left.admits s v && right.admits s v
  | .unary _ .not operand, v => !operand.admits s v
  | .signature .., .function _ => true
  | .table _ fields, .table id =>
    let t := s.tables.getD id {}
    admitsKeyed s t fields && if fields.countP (·.isPositional) = 1 then admitsEach s t.sequence fields
      else admitsItems s t 1 fields
  | _, _ => false

/-- The fields of a table are in the types of their keys; the last type of a key counts. -/
def admitsKeyed (s : Store) (t : Table) : List Field → Bool
  | [] => true
  | .mk _ (some (.string _ k)) type :: fields =>
    (fields.any (·.hasKey k) || type.admits s (t.find (.string k))) && admitsKeyed s t fields
  | _ :: fields => admitsKeyed s t fields

def admitsEach (s : Store) (vs : List Value) : List Field → Bool
  | [] => true
  | .mk _ none type :: fields => vs.all (type.admits s) && admitsEach s vs fields
  | _ :: fields => admitsEach s vs fields

def admitsItems (s : Store) (t : Table) : Int → List Field → Bool
  | _, [] => true
  | n, .mk _ none type :: fields => type.admits s (t.find (.int n)) && admitsItems s t (n + 1) fields
  | n, _ :: fields => admitsItems s t n fields

end

section Equations

-- Made here, so that the proofs that open these functions need not wait for each other.
attribute [local simp] Expr.isType areTypes areShape Expr.admits admitsKeyed admitsEach admitsItems

end Equations

/-! ## Predicates -/

namespace Library

def Represents (predicates : Array Predicate) (type : Expr) (f : Value) : Prop :=
  ∃ id, f = .function (.predicate id) ∧ id < predicates.size ∧ ∀ (call : Caller) (s : Store) (v : Value) (n : Nat),
      predicates.toList <+: s.predicates.toList → id < n → conformsWithin call n f v s = .ok (type.admits s v) s

theorem getD_of_isPrefix {ps qs : Array Predicate} (h : ps.toList <+: qs.toList)
    (hi : i < ps.size) : qs.getD i default = ps.getD i default := by
  obtain ⟨rest, hrest⟩ := h
  have hqs : qs = ps ++ rest.toArray := by
    apply Array.ext'
    rw [← hrest, Array.toList_append]
  simp [hqs, Array.getD, Array.getElem_append_left, hi, Nat.lt_add_right]

theorem size_le_of_isPrefix {ps qs : Array Predicate} (h : ps.toList <+: qs.toList) : ps.size ≤ qs.size := by
  simpa using h.length_le

theorem conformsWithin_predicate {s : Store} {id n : Nat} {p : Predicate} (call : Caller) (v : Value)
    (hp : s.predicates.getD id default = p) : conformsWithin call (n + 1) (.function (.predicate id)) v s =
      passes (conformsWithin call n) p.test v s := by
  rw [conformsWithin]
  show passes (conformsWithin call n) (s.predicates.getD id default).test v s = _
  rw [hp]

section Represents

variable {predicates later : Array Predicate} {f : Value} {type : Expr}

theorem Represents.mono (h : Represents predicates type f)
    (hlater : predicates.toList <+: later.toList) : Represents later type f := by
  obtain ⟨id, rfl, hid, hconforms⟩ := h
  have hsize := size_le_of_isPrefix hlater
  refine ⟨id, rfl, by omega, ?_⟩
  intro call s v n hs hn
  exact hconforms call s v n (hlater.trans hs) hn

/-- A predicate represents a type if its test decides membership, given that its parts may be tested
within the number of the older predicates. -/
theorem represents_of_passes {id : Nat} (hid : id < predicates.size)
    (h : ∀ (call : Caller) (s : Store) (v : Value) (n : Nat), predicates.toList <+: s.predicates.toList → id ≤ n →
        passes (conformsWithin call n) (predicates.getD id default).test v s = .ok (type.admits s v) s) :
    Represents predicates type (.function (.predicate id)) := by
  refine ⟨id, rfl, hid, ?_⟩
  intro call s v n hs hn
  obtain ⟨n, rfl⟩ : ∃ k, n = k + 1 := ⟨n - 1, by omega⟩
  rw [conformsWithin_predicate call v (getD_of_isPrefix hs hid)]
  exact h call s v n hs (by omega)

theorem represents_basic {loc : Loc} {x : String} {p : Predicate} {id : Nat}
    (hmem : (x, p) ∈ Environment.basicPredicates) (hid : id < predicates.size) (hp : predicates.getD id default = p) :
    Represents predicates (.name loc x) (.function (.predicate id)) := by
  apply represents_of_passes hid
  intro call s v n _ _
  rw [hp]
  simp only [Environment.basicPredicates, List.mem_cons, Prod.mk.injEq, List.not_mem_nil, or_false] at hmem
  rcases hmem with ⟨rfl, rfl⟩ | ⟨rfl, rfl⟩ | ⟨rfl, rfl⟩ | ⟨rfl, rfl⟩ | ⟨rfl, rfl⟩ | ⟨rfl, rfl⟩ |
    ⟨rfl, rfl⟩ | ⟨rfl, rfl⟩
  case inr.inr.inr.inl =>
    -- integers are a part of the numbers
    cases v with
    | number k => cases k <;> rfl
    | _ => rfl
  all_goals cases v <;> rfl

theorem represents_nil (h : Represents predicates (.name loc "nil") f) :
    Represents predicates (.nil loc) f := by
  obtain ⟨id, rfl, hid, hconforms⟩ := h
  refine ⟨id, rfl, hid, ?_⟩
  intro call s v n hs hn
  rw [hconforms call s v n hs hn]
  cases v <;> rfl

/-! ### The newest predicate -/

variable {description : String}

theorem getD_push (p : Predicate) : (predicates.push p).getD predicates.size default = p := by simp [Array.getD]

theorem isPrefix_push (p : Predicate) : predicates.toList <+: (predicates.push p).toList := by
  rw [Array.toList_push]
  exact List.prefix_append _ _

theorem represents_push (test : Test) (h : ∀ (call : Caller) (s : Store) (v : Value) (n : Nat),
      predicates.toList <+: s.predicates.toList → predicates.size ≤ n →
        passes (conformsWithin call n) test v s = .ok (type.admits s v) s) :
    Represents (predicates.push ⟨description, test⟩) type (.function (.predicate predicates.size)) := by
  apply represents_of_passes (by simp)
  intro call s v n hs hn
  rw [getD_push]
  exact h call s v n ((isPrefix_push _).trans hs) hn

theorem Represents.conforms {s : Store} (h : Represents predicates type f) (call : Caller)
    (v : Value) (hs : predicates.toList <+: s.predicates.toList) (hn : predicates.size ≤ n) :
    conformsWithin call n f v s = .ok (type.admits s v) s := by
  obtain ⟨id, rfl, hid, hconforms⟩ := h
  exact hconforms call s v n hs (by omega)

theorem represents_literal :
    Represents (predicates.push ⟨description, .literal (.string text)⟩) (.string loc text)
      (.function (.predicate predicates.size)) := by
  apply represents_push
  intro call s v n _ _
  cases v with
  | string t =>
    show EStateM.Result.ok (t == text) s = .ok (Value.string t == Value.string text) s
    congr 1
    rw [Bool.eq_iff_iff]
    simp
  | _ => rfl

theorem represents_function :
    Represents (predicates.push ⟨description, .function⟩) (.signature loc params body)
      (.function (.predicate predicates.size)) := by
  apply represents_push
  intro call s v n _ _
  cases v <;> rfl

variable {loc : Loc} {left right : Expr} {l r : Value}

theorem represents_union (hl : Represents predicates left l) (hr : Represents predicates right r) :
    Represents (predicates.push ⟨description, .union l r⟩) (.binary loc left .or right)
      (.function (.predicate predicates.size)) := by
  apply represents_push
  intro call s v n hs hn
  rw [passes, Run.bind_ok (hl.conforms call v hs hn), Expr.admits]
  cases left.admits s v with
  | true => rfl
  | false => exact hr.conforms call v hs hn

theorem represents_intersection (hl : Represents predicates left l) (hr : Represents predicates right r) :
    Represents (predicates.push ⟨description, .intersection l r⟩) (.binary loc left .and right)
      (.function (.predicate predicates.size)) := by
  apply represents_push
  intro call s v n hs hn
  rw [passes, Run.bind_ok (hl.conforms call v hs hn), Expr.admits]
  cases left.admits s v with
  | true => exact hr.conforms call v hs hn
  | false => rfl

theorem represents_complement (hl : Represents predicates left l) :
    Represents (predicates.push ⟨description, .complement l⟩) (.unary loc .not left)
      (.function (.predicate predicates.size)) := by
  apply represents_push
  intro call s v n hs hn
  rw [passes, Run.bind_ok (hl.conforms call v hs hn), Expr.admits]
  rfl

end Represents

end Library

end TypedLua
