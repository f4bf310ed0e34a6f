import TypedLua.Proofs.Runtime.Coupling

/-!
# The library under a coupling

The library sees only the heap, and otherwise calls what it is given.
-/

namespace TypedLua.Coupling

open Library

variable {C : Coupling} {w : C.World}

/-! ## Arguments -/

theorem Coupled.badArgument {α : Type} (position : Nat) (function : String) (flaw : ArgumentFlaw) :
    C.Steady w (badArgument position function flaw : Run α) :=
  .complain _

theorem Coupled.checkTable (position : Nat) (function : String) (v : Value) :
    C.Steady w (checkTable position function v) := by
  unfold Library.checkTable
  split
  · exact .pure _
  · exact .badArgument ..

theorem Coupled.checkInteger (position : Nat) (function : String) (v : Value) :
    C.Steady w (checkInteger position function v) := by
  unfold Library.checkInteger
  split
  · exact .pure _
  · exact .badArgument ..

theorem Coupled.checkString (position : Nat) (function : String) (v : Value) :
    C.Steady w (checkString position function v) := by
  unfold Library.checkString
  split
  · exact .pure _
  · exact .textOf _
  · exact .badArgument ..

theorem Coupled.checkNumber (position : Nat) (function : String) (v : Value) :
    C.Steady w (checkNumber position function v) := by
  unfold Library.checkNumber
  split
  · exact .pure _
  · exact .badArgument ..

theorem Coupled.toFloat (n : Number) : C.Steady w (toFloat n) := .lift _

theorem Coupled.plainText (v : Value) : C.Steady w (plainText v) := by
  unfold Library.plainText
  split
  case h_4 => exact .ite (.pure _) (.trap _)
  case h_6 id => exact .map (.predicate id)
  all_goals exact .pure _

theorem Coupled.charOf (code : Int) : C.Steady w (charOf code) := .ite (.trap _) (.ite (.trap _) (.pure _))

/-! ## The table library -/

theorem Coupled.tableInsert (v : Value) (args : List Value) : C.Steady w (tableInsert v args) := by
  refine .bind (.checkTable ..) fun id => .bind (.table id) fun t => ?_
  split
  · exact .putTable _ _
  · refine .bind (.checkInteger ..) fun position => ?_
    exact .ite (.putTable _ _) (.badArgument ..)
  · exact .complain _

theorem Coupled.tableRemove (v : Value) (position : Option Value) : C.Steady w (tableRemove v position) := by
  refine .bind (.checkTable ..) fun id => .bind (.table id) fun t => ?_
  split
  all_goals
    refine .bind ?_ fun place => .ite (.pure _) (.ite (.map (.putTable _ _)) (.badArgument ..))
  · exact .pure _
  · exact .pure _
  · exact .checkInteger ..

theorem Coupled.joinTexts (t : Table) (count : Nat) (k : Int) : C.Steady w (joinTexts t count k) := by
  induction count generalizing k with
  | zero => exact .pure _
  | succ count ih =>
    unfold Library.joinTexts
    have hrest (text : String) : C.Steady w (do return text :: (← Library.joinTexts t count (k + 1))) := .map (ih _)
    split
    · exact .bind (.pure _) hrest
    · exact .bind (.textOf _) hrest
    · exact .bind (.textOf _) fun _ => .bind (.complain _) hrest

theorem Coupled.tableConcat (v : Value) (separator i j : Option Value) :
    C.Steady w (tableConcat v separator i j) := by
  refine .bind (.checkTable ..) fun id => .bind (.checkString ..) fun separator => .bind (.table id) fun t => ?_
  split
  all_goals
    refine .bind ?_ fun stop => .bind (.checkInteger ..) fun start => .map (.joinTexts ..)
  · exact .pure _
  · exact .pure _
  · exact .checkInteger ..

/-! ## The string library -/

theorem Coupled.stringSub (v : Value) (i j : Option Value) : C.Steady w (stringSub v i j) :=
  .bind (.checkString ..) fun _ => .bind (.checkInteger ..) fun _ =>
    .bind (.checkInteger ..) fun _ => .ite (.pure _) (.pure _)

theorem Coupled.stringByte (v : Value) (i j : Option Value) : C.Steady w (stringByte v i j) := by
  refine .bind (.checkString ..) fun s => .bind (.checkInteger ..) fun i => ?_
  split
  all_goals refine .bind ?_ fun stop => .pure _
  · exact .pure _
  · exact .pure _
  · exact .checkInteger ..

theorem Coupled.charsOf (position : Nat) (args : List Value) : C.Steady w (charsOf position args) := by
  induction args generalizing position with
  | nil => exact .pure _
  | cons v vs ih =>
    exact .bind (.checkInteger ..) fun _ => .bind (.charOf _) fun _ => .map (ih _)

theorem Coupled.stringRep (v n : Value) (separator : Option Value) : C.Steady w (stringRep v n separator) := by
  refine .bind (.checkString ..) fun s => .bind (.checkInteger ..)
    fun count => .ite (.pure _) (.bind (.checkString ..) fun sep => ?_)
  split
  · exact .bind (.trap _) fun _ => .map (.reserve _)
  · exact .map (.reserve _)

/-! ## The math library -/

theorem Coupled.rounded (round : Float → Option Int) (n : Number) : C.Steady w (rounded round n) := by
  unfold Library.rounded
  split
  · exact .map (.toFloat _)
  · split
    · exact .pure _
    · exact .pure _

theorem Coupled.checkNumbers (function : String) (position : Nat) (args : List Value) :
    C.Steady w (checkNumbers function position args) := by
  induction args generalizing position with
  | nil => exact .pure _
  | cons v vs ih => exact .bind (.checkNumber ..) fun _ => .map (ih _)

theorem Coupled.best (function : String) (better : Number → Number → Bool) (args : List Value) :
    C.Steady w (best function better args) := by
  refine .bind (.checkNumbers ..) fun ns => ?_
  split
  · exact .badArgument ..
  · exact .pure _

theorem Coupled.remainder (x y : Float) : C.Steady w (remainder x y) := .ite (.trap _) (.pure _)

theorem Coupled.mathFmod (a b : Value) : C.Steady w (mathFmod a b) := by
  have hremainder {α : Type} (m n : Number) (f : Float → α) : C.Steady w
      (do return f (← Library.remainder (← Library.toFloat m) (← Library.toFloat n))) :=
    .bind (.toFloat _) fun _ => .bind (.toFloat _) fun _ => .map (.remainder ..)
  refine .bind (.checkNumber ..) fun m => .bind (.checkNumber ..) fun n => ?_
  split
  · exact .ite (.badArgument ..) (hremainder ..)
  · exact .ite (.pure _) (hremainder ..)

/-! ## Traversal and metatables -/

theorem Coupled.joinable (position : Nat) (args : List Value) : C.Steady w (joinable position args) := by
  fun_induction Library.joinable position args with
  | case1 => exact .pure _
  | case2 _ _ _ ih => exact .map ih
  | case3 => exact .trap _

theorem Coupled.baseOf (v : Value) : C.Steady w (baseOf v) := by
  unfold Library.baseOf
  split
  case h_2 => exact .ite (.trap _) (.pure _)
  case h_5 => exact .trap _
  all_goals exact .pure _

theorem Coupled.toNumber (v : Value) (base : Option Value) : C.Steady w (toNumber v base) := by
  unfold Library.toNumber
  split
  · exact .pure _
  · exact .pure _
  · split
    · refine .bind (.baseOf _) fun b => ?_
      cases b with
      | none => exact .pure _
      | some b => exact .pure _
    · exact .pure _

theorem Coupled.pairs (v : Value) : C.Steady w (pairs v) :=
  .bind (.checkTable ..) fun id => .bind (.table id) fun _ => .map (.newTraversal _)

theorem Coupled.traversalStep (id : Nat) : C.Steady w (traversalStep id) := by
  refine .bind (.traversal id) fun c => .bind (.table _) fun t => ?_
  split
  · exact .map (.putTraversal _ _)
  · exact .map (.putTraversal _ _)

theorem Coupled.ipairs (v : Value) : C.Steady w (ipairs v) := by
  unfold Library.ipairs
  split
  · exact .badArgument ..
  · exact .pure _

theorem Coupled.successor (v : Value) : C.Steady w (successor v) := by
  unfold Library.successor
  split
  · exact .map (.lift _)
  · exact .pure _
  · exact .trap _

theorem Coupled.next (v key : Value) : C.Steady w (next v key) := by
  refine .bind (.checkTable ..) fun id => .bind (.table id) fun t => ?_
  split
  · exact .complain _
  · exact .pure _
  · exact .pure _

theorem Coupled.unpack (v : Value) (i j : Option Value) : C.Steady w (unpack v i j) := by
  refine .bind (.checkTable ..) fun id => .bind (.checkInteger ..) fun start => ?_
  split
  · exact .bind (.table id) fun _ => .bind (.pure _) fun _ => .map (.table id)
  · exact .bind (.table id) fun _ => .bind (.pure _) fun _ => .map (.table id)
  · exact .bind (.checkInteger ..) fun _ => .map (.table id)

theorem Coupled.select (n : Value) (args : List Value) : C.Steady w (select n args) := by
  refine .ite (.pure _) (.bind (.checkInteger ..) fun n => ?_)
  refine .ite (.ite (.badArgument ..) (.pure _)) ?_
  exact .ite (.badArgument ..) (.pure _)

theorem Coupled.assert (args : List Value) : C.Steady w (assert args) := by
  unfold Library.assert
  split
  · exact .badArgument ..
  · refine .ite (.pure _) ?_
    split
    · exact .complain _
    · exact .raise _

theorem Coupled.setMetatable (v m : Value) : C.Steady w (setMetatable v m) := by
  refine .bind (.checkTable ..) fun id => ?_
  split
  all_goals
    refine .bind ?_ fun metatable => .bind (.table id) fun t => .map (.putTable _ _)
  · exact .pure _
  · exact .pure _
  · exact .badArgument ..

theorem Coupled.getMetatable (v : Value) : C.Steady w (getMetatable v) := by
  unfold Library.getMetatable
  split
  · refine .bind (.table _) fun t => ?_
    split
    · exact .pure _
    · exact .pure _
  · exact .pure _

theorem Coupled.rawGet (v key : Value) : C.Steady w (rawGet v key) :=
  .bind (.checkTable ..) fun _ => .map (.getRaw ..)

theorem Coupled.rawSet (v key new : Value) : C.Steady w (rawSet v key new) :=
  .bind (.checkTable ..) fun _ => .map (.setRaw ..)

/-! ## Constructors of types -/

theorem Coupled.describeType (v : Value) : C.Steady w (describeType v) := by
  unfold Library.describeType
  split
  · exact .map (.predicate _)
  · exact .pure _

theorem Coupled.describeTypes (types : List Value) : C.Steady w (describeTypes types) := by
  induction types with
  | nil => exact .pure _
  | cons v vs ih => exact .bind (.describeType v) fun _ => .map ih

theorem Coupled.describeFields (fields : List (Key × Value)) : C.Steady w (describeFields fields) := by
  induction fields with
  | nil => exact .pure _
  | cons e es ih =>
    exact .bind (.textOf _) fun _ => .bind (.describeType _) fun _ => .map ih

theorem Coupled.literalType (v : Value) : C.Steady w (literalType v) := .bind (.plainText v) fun _ => .newPredicate _

theorem Coupled.shapeType (v : Value) : C.Steady w (shapeType v) := by
  unfold Library.shapeType
  split
  · exact .bind (.table _) fun _ => .bind (.describeFields _) fun _ =>
      .bind (.describeTypes _) fun _ => .newPredicate _
  · exact .complain _

theorem Coupled.functionType (params result : Value) : C.Steady w (functionType params result) := by
  unfold Library.functionType
  dsimp only
  split
  · refine .bind (.table _) fun t => .bind (.pure _) fun params => .bind (.describeTypes _) fun texts => ?_
    split
    · exact .newPredicate _
    · exact .bind (.describeType _) fun _ => .newPredicate _
  · refine .bind (.pure _) fun params => .bind (.describeTypes _) fun texts => ?_
    split
    · exact .newPredicate _
    · exact .bind (.describeType _) fun _ => .newPredicate _

theorem Coupled.unionType (left right : Value) : C.Steady w (unionType left right) :=
  .bind (.describeType _) fun _ => .bind (.describeType _) fun _ => .newPredicate _

theorem Coupled.intersectionType (left right : Value) : C.Steady w (intersectionType left right) :=
  .bind (.describeType _) fun _ => .bind (.describeType _) fun _ => .newPredicate _

theorem Coupled.complementType (inner : Value) : C.Steady w (complementType inner) :=
  .bind (.describeType _) fun _ => .newPredicate _

/-! ## Access to tables -/

theorem Coupled.noFields {α : Type} (object key : Value) : C.Steady w (Access.noFields object key : Run α) :=
  .bind (.textOf key) fun _ => .complain _

theorem Coupled.setIndex (object key v : Value) : C.Steady w (Access.setIndex object key v) := by
  unfold Access.setIndex
  split
  · exact .setRaw ..
  · exact .noFields ..

theorem Coupled.length (v : Value) : C.Steady w (Access.length v) := by
  unfold Access.length
  split
  · split
    · exact .trap _
    · exact .pure _
  · exact .map (.table _)
  · exact .complain _

theorem Coupled.makeTable (entries : List Access.Entry) (tail : List Value) :
    C.Steady w (Access.makeTable entries tail) := by
  unfold Access.makeTable
  split
  · exact .map (.newTable _)
  · exact .fail _

/-! ## Formatting -/

theorem Coupled.layoutOf (d : Directive) : C.Steady w (layoutOf d) := by
  unfold Library.layoutOf
  split
  · exact .pure _
  · exact .trap _

theorem Coupled.quoteConstant (v : Value) : C.Steady w (quoteConstant v) := by
  unfold Library.quoteConstant
  split
  · exact .pure _
  · exact .textOf _

theorem Coupled.formatInteger (position : Nat) (d : Directive) (v : Value) (base : Nat)
    (mark : List Char) : C.Steady w (formatValue.integer position d v base mark) :=
  .bind (.checkInteger ..) fun _ => .bind (.layoutOf d) fun _ =>
    .ite (.trap _) (.ite (.trap _) (.map (.reserve _)))

theorem Coupled.formatFloat (position : Nat) (d : Directive) (v : Value)
    (style : Number.FloatStyle) : C.Steady w (formatValue.float position d v style) :=
  .bind (.checkNumber ..) fun _ => .bind (.layoutOf d) fun _ => .bind (.toFloat _) fun _ => .map (.reserve _)

/-! ## Sorting and conformance

Both rest on a test of pairs of values: one value comes before another, or conforms to it as a type.
-/

def Tests (C : Coupling) (w : C.World) (test1 test2 : Value → Value → Run Bool) : Prop :=
  ∀ a b, C.Coupled w (test1 a b) (test2 a b)

section Tests

variable {test1 test2 : Value → Value → Run Bool} (h : C.Tests w test1 test2)

include h

theorem Coupled.precedes (a b : Value) : C.Coupled w (precedes test1 a b) (precedes test2 a b) :=
  .bind (h a b) fun _ => .ite (.pure _) (.map (h b a))

theorem Coupled.takeRun (falling : Bool) (last : Value) (values : List Value) :
    C.Coupled w (takeRun test1 falling last values) (takeRun test2 falling last values) := by
  induction values generalizing last with
  | nil => exact .pure _
  | cons x xs ih =>
    exact .bind (.precedes h ..) fun _ => .ite (.map (ih x)) (.pure _)

theorem Coupled.firstRun (values : List Value) : C.Coupled w (firstRun test1 values) (firstRun test2 values) := by
  match values with
  | [] => exact .pure _
  | [x] => exact .pure _
  | x :: y :: rest =>
    exact .bind (.precedes h ..) fun _ => .map (.takeRun h ..)

theorem Coupled.placeOf (x : Value) (sorted : Array Value) (steps low high : Nat) :
    C.Coupled w (placeOf test1 x sorted steps low high) (placeOf test2 x sorted steps low high) := by
  induction steps generalizing low high with
  | zero => exact .pure _
  | succ steps ih =>
    exact .ite (.bind (.precedes h ..) fun _ => .ite (ih ..) (ih ..)) (.pure _)

theorem Coupled.sortOnto (sorted : Array Value) (values : List Value) :
    C.Coupled w (sortOnto test1 sorted values) (sortOnto test2 sorted values) := by
  induction values generalizing sorted with
  | nil => exact .pure _
  | cons x xs ih => exact .bind (.placeOf h ..) fun _ => ih _

theorem Coupled.sortValues (values : List Value) : C.Coupled w (sortValues test1 values) (sortValues test2 values) :=
  .bind (.firstRun h values) fun _ => .map (.sortOnto h ..)

theorem Coupled.fieldsConform (id : Nat) (fields : List (Key × Value)) :
    C.Coupled w (fieldsConform test1 id fields) (fieldsConform test2 id fields) := by
  induction fields with
  | nil => exact .pure _
  | cons e es ih =>
    exact .bind (.getRaw ..) fun _ => .bind (h _ _) fun _ => .ite ih (.pure _)

theorem Coupled.allConform (type : Value) (values : List Value) :
    C.Coupled w (allConform test1 type values) (allConform test2 type values) := by
  induction values with
  | nil => exact .pure _
  | cons v vs ih => exact .bind (h _ _) fun _ => .ite ih (.pure _)

theorem Coupled.itemsConform (id : Nat) (position : Int) (types : List Value) :
    C.Coupled w (itemsConform test1 id position types) (itemsConform test2 id position types) := by
  induction types generalizing position with
  | nil => exact .pure _
  | cons type types ih =>
    exact .bind (.getRaw ..) fun _ => .bind (h _ _) fun _ => .ite (ih _) (.pure _)

theorem Coupled.passes (test : Test) (v : Value) : C.Coupled w (passes test1 test v) (passes test2 test v) := by
  unfold Library.passes
  split
  case h_10 items fields id =>
    refine .bind (.fieldsConform h id fields) fun _ => .ite ?_ (.pure _)
    split
    · exact .bind (.table id) fun _ => .allConform h ..
    · exact .itemsConform h ..
  case h_11 => exact .bind (h _ _) fun _ => .ite (.pure _) (h _ _)
  case h_12 => exact .bind (h _ _) fun _ => .ite (h _ _) (.pure _)
  case h_13 => exact .map (h _ _)
  all_goals exact .pure _

end Tests

/-! ## Functions that call -/

def Callers (C : Coupling) (w : C.World) (call1 call2 : Caller) : Prop :=
  ∀ f args, C.Coupled w (call1 f args) (call2 f args)

section Callers

variable {call1 call2 : Caller} (hcall : C.Callers w call1 call2)

include hcall

theorem Coupled.indexFrom (key : Value) (n : Nat) (object : Value) :
    C.Coupled w (Access.indexFrom call1 key n object) (Access.indexFrom call2 key n object) := by
  induction n generalizing object with
  | zero => exact .exhausted _
  | succ n ih =>
    cases object with
    | table id =>
      refine .bind (.table id) fun t => .ite (.pure _) ?_
      cases t.metatable with
      | none => exact .pure _
      | some m =>
        refine .bind (.getRaw ..) fun handler => ?_
        cases handler with
        | nil => exact .pure _
        | table next => exact ih _
        | function f => exact .map (hcall _ _)
        | bool | number | string => exact .trap _
    | string s =>
      refine .get fun s1 s2 heq => ?_
      have hmembers : s1.stringMembers = s2.stringMembers := congrArg Heap.stringMembers heq
      rw [hmembers]
      cases s2.stringMembers with
      | none => exact .noFields ..
      | some members => exact .getRaw ..
    | nil | bool | number | function => exact .noFields ..

theorem Coupled.index (object key : Value) :
    C.Coupled w (Access.index call1 object key) (Access.index call2 object key) := by
  refine .get fun s1 s2 heq => ?_
  have htables : s1.tables = s2.tables := congrArg Heap.tables heq
  rw [htables]
  exact .indexFrom hcall ..

theorem Coupled.invoke (object : Value) (member : String) (args : List Value) :
    C.Coupled w (Access.invoke call1 object member args) (Access.invoke call2 object member args) := by
  refine .bind (.index hcall ..) fun f => ?_
  cases f with
  | nil => exact .complain _
  | bool | number | string | table | function => exact hcall _ _

theorem Coupled.protect (f : Value) (args : List Value) :
    C.Coupled w (Access.protect call1 f args) (Access.protect call2 f args) := by
  refine .attempt (hcall f args) fun r => ?_
  cases r with
  | ok r => exact .pure _
  | error fault =>
    dsimp only
    split
    · exact .pure _
    · exact .fail _

theorem Coupled.display (v : Value) : C.Coupled w (display call1 v) (display call2 v) := by
  cases v with
  | table id =>
    refine .bind (.table id) fun t => ?_
    cases t.metatable with
    | none => exact .map (.textOf _)
    | some m =>
      refine .bind (.getRaw ..) fun handler => ?_
      cases handler with
      | nil => exact .map (.textOf _)
      | bool | number | string | table | function => exact .map (hcall _ _)
  | nil | bool | number | string | function => exact .map (.textOf _)

theorem Coupled.displayAll (args : List Value) : C.Coupled w (displayAll call1 args) (displayAll call2 args) := by
  induction args with
  | nil => exact .pure _
  | cons v vs ih => exact .bind (.display hcall v) fun _ => .map ih

theorem Coupled.print (channel : Nat) (args : List Value) :
    C.Coupled w (print call1 channel args) (print call2 channel args) :=
  .bind (.displayAll hcall args) fun _ => .bind (.joinable ..) fun _ => .emit _ _

theorem Coupled.ipairsStep (object i : Value) :
    C.Coupled w (ipairsStep call1 object i) (ipairsStep call2 object i) := by
  refine .bind (.successor i) fun k => .bind (.index hcall ..) fun v => ?_
  cases v with
  | nil => exact .pure _
  | bool | number | string | table | function => exact .pure _

theorem Coupled.xpcall (f handler : Value) (args : List Value) :
    C.Coupled w (xpcall call1 f handler args) (xpcall call2 f handler args) := by
  refine .bind (.protect hcall f args) fun r => ?_
  split
  · exact .map (hcall _ _)
  · exact .pure _

theorem Coupled.before (comparator : Value) : C.Tests w (before call1 comparator) (before call2 comparator) := by
  intro a b
  cases comparator with
  | nil => exact .lift _
  | bool | number | string | table | function => exact .map (hcall _ _)

theorem Coupled.tableSort (v comparator : Value) :
    C.Coupled w (tableSort call1 v comparator) (tableSort call2 v comparator) :=
  .bind (.checkTable ..) fun id => .bind (.table id) fun _ =>
    .bind (.sortValues (.before hcall comparator) _) fun _ => .bind (.table id) fun _ => .putTable _ _

theorem Coupled.formatValue (position : Nat) (d : Directive) (v : Value) :
    C.Coupled w (formatValue call1 position d v) (formatValue call2 position d v) := by
  unfold Library.formatValue
  cases d.conversion with
  | percent => exact .pure _
  | quoted => exact .map (.quoteConstant v)
  | char => exact .bind (.checkInteger ..) fun _ => .map (.charOf _)
  | binaryExact => exact .bind (.checkNumber ..) fun _ => .map (.toFloat _)
  | text =>
    exact .bind (.display hcall v) fun _ => .bind (.layoutOf d) fun _ =>
      .bind (.plainText _) fun _ => .map (.reserve _)
  | decimal | octal | hex => exact .formatInteger ..
  | hexUpper => exact .map (.formatInteger ..)
  | fixed | scientific | general => exact .formatFloat ..
  | scientificUpper | generalUpper => exact .map (.formatFloat ..)

theorem Coupled.formatPieceTexts (position : Nat) (pieces : List FormatPiece) (args : List Value) :
    C.Coupled w (formatPieceTexts call1 position pieces args) (formatPieceTexts call2 position pieces args) := by
  induction pieces generalizing position args with
  | nil => exact .pure _
  | cons piece pieces ih =>
    cases piece with
    | literal c => exact .map (ih ..)
    | directive d =>
      refine .ite (.map (ih ..)) ?_
      cases args with
      | nil => exact .badArgument ..
      | cons v args => exact .bind (.formatValue hcall ..) fun _ => .map (ih ..)

theorem Coupled.stringFormat (format : Value) (args : List Value) :
    C.Coupled w (stringFormat call1 format args) (stringFormat call2 format args) :=
  .bind (.checkString ..) fun _ => .map (.formatPieceTexts hcall ..)

theorem Coupled.conformsWithin (n : Nat) : C.Tests w (conformsWithin call1 n) (conformsWithin call2 n) := by
  have hasked {k1 k2 : Except Fault Result → Run Bool} (type v : Value)
      (hok : ∀ r, C.Coupled w (k1 (.ok r)) (k2 (.ok r)))
      (herror : ∀ fault, C.Coupled w (k1 (.error fault)) (k2 (.error fault))) :
      C.Coupled w (Run.attempt (call1 type [v]) >>= k1) (Run.attempt (call2 type [v]) >>= k2) := by
    refine .attempt (hcall type [v]) fun r => ?_
    cases r with
    | ok r => exact hok r
    | error fault => exact herror fault
  induction n with
  | zero => exact fun _ _ => .exhausted _
  | succ n ih =>
    intro type v
    cases type with
    | function f =>
      cases f with
      | predicate id => exact .bind (.predicate id) fun _ => .passes ih ..
      | builtin | closure | traversal => exact hasked _ _ (fun _ => .pure _) fun _ => .ite (.pure _) (.fail _)
    | nil | bool | number | string | table => exact hasked _ _ (fun _ => .pure _) fun _ => .ite (.pure _) (.fail _)

theorem Coupled.applyPredicate (id : Nat) (v : Value) :
    C.Coupled w (applyPredicate call1 id v) (applyPredicate call2 id v) := by
  have hconforms (type : Value) : C.Coupled w (conforms call1 type v) (conforms call2 type v) := by
    refine .get fun s1 s2 heq => ?_
    have hpredicates : s1.predicates = s2.predicates := congrArg Heap.predicates heq
    rw [hpredicates]
    exact .conformsWithin hcall ..
  refine .bind (hconforms _) fun _ => .ite (.pure _) (.ite ?_ ?_)
  · exact .bind (.predicate id) fun _ => .fail _
  · exact .trap _

/-! ## Calls of library functions -/

omit hcall

theorem Coupled.single (h : C.Coupled w p1 p2) : C.Coupled w (single p1) (single p2) := .map h

theorem Coupled.silent (h : C.Coupled w p1 p2) : C.Coupled w (silent p1) (silent p2) := .map h

theorem Coupled.checkArity (s : Signature) (args : List Value) : C.Steady w (checkArity s args) := by
  unfold Library.checkArity
  split
  · exact .trap _
  · exact .pure _

include hcall

theorem Coupled.dispatch (b : Builtin) (args : List Value) :
    C.Coupled w (dispatch call1 b args) (dispatch call2 b args) := by
  cases b with
  | print channel => exact .silent (.print hcall ..)
  | typeOf =>
    cases args with
    | nil => exact .badArgument ..
    | cons v vs => exact .pure _
  | tostring => exact .single (.display hcall _)
  | tonumber => exact .single (.toNumber ..)
  | pairs => exact .pairs _
  | ipairs => exact .ipairs _
  | ipairsStep => exact .ipairsStep hcall ..
  | next => exact .next ..
  | select => exact .select ..
  | error => exact .raise _
  | assert => exact .assert _
  | pcall => exact .protect hcall ..
  | xpcall => exact .xpcall hcall ..
  | unpack => exact .unpack ..
  | setmetatable => exact .setMetatable ..
  | getmetatable => exact .getMetatable _
  | rawget => exact .rawGet ..
  | rawset => exact .rawSet ..
  | rawequal | mathToInteger | mathType => exact .pure _
  | tableInsert => exact .silent (.tableInsert ..)
  | tableRemove => exact .single (.tableRemove ..)
  | tableConcat => exact .single (.tableConcat ..)
  | tableSort => exact .silent (.tableSort hcall ..)
  | stringFormat => exact .single (.stringFormat hcall ..)
  | stringSub => exact .single (.stringSub ..)
  | stringRep => exact .single (.stringRep ..)
  | stringByte => exact .stringByte ..
  | stringChar => exact .single (.map (.charsOf ..))
  | stringLen | stringUpper | stringLower | stringReverse => exact .single (.map (.checkString ..))
  | mathFloor | mathCeil => exact .single (.bind (.checkNumber ..) fun _ => .rounded ..)
  | mathAbs => exact .single (.map (.checkNumber ..))
  | mathSqrt =>
    exact .single (.bind (.checkNumber ..) fun _ => .map (.toFloat _))
  | mathMax | mathMin => exact .single (.best ..)
  | mathFmod => exact .single (.mathFmod ..)
  | literalType => exact .single (.literalType _)
  | shapeType => exact .single (.shapeType _)
  | functionType => exact .single (.functionType ..)
  | unionType => exact .single (.unionType ..)
  | intersectionType => exact .single (.intersectionType ..)
  | complementType => exact .single (.complementType _)

theorem Coupled.apply (b : Builtin) (args : List Value) : C.Coupled w (apply call1 b args) (apply call2 b args) :=
  .bind (.checkArity ..) fun _ => .dispatch hcall b args

end Callers

end TypedLua.Coupling
