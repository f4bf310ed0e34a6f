import TypedLua.Target.Bound

/-!
# The variables that code mentions

Every variable that code reads or binds, in the definitions inside it too.
-/

namespace TypedLua.Target

mutual

def Expr.names : Expr → List String
  | .null | .bool _ | .number _ | .infinity | .string _ | .global _ | .firstVararg => []
  | .var x => [x]
  | .table items tail => itemsNames items ++ tailNames tail
  | .binary _ left right => left.names ++ right.names
  | .andThen temp left right | .orElse temp left right => temp :: (left.names ++ right.names)
  | .negation operand | .length operand | .minus operand => operand.names
  | .first call => call.names
  | .index object key => object.names ++ key.names
  | .last parts value => partsNames parts ++ value.names

def Call.names : Call → List String
  | .call callee args tail => callee.names ++ (exprsNames args ++ tailNames tail)
  | .invoke object _ args tail => object.names ++ (exprsNames args ++ tailNames tail)
  | .varargs => []
  | .single value => value.names

def exprsNames : List Expr → List String
  | [] => []
  | e :: es => e.names ++ exprsNames es

def tailNames : Option Tail → List String
  | none | some .varargs => []
  | some (.expand call) => call.names

def partsNames : List Part → List String
  | [] => []
  | .run call :: parts => call.names ++ partsNames parts
  | .bind x value :: parts => x :: (value.names ++ partsNames parts)

def itemsNames : List Item → List String
  | [] => []
  | .keyed key value :: items => key.names ++ (value.names ++ itemsNames items)
  | .positional value :: items => value.names ++ itemsNames items

end

def Cond.names : Cond → List String
  | truthy value | plain value => value.names

def Answer.names : Answer → List String
  | call value => value.names
  | pack args tail => exprsNames args ++ tailNames tail

mutual

def Stmt.names : Stmt → List String
  | .assignNull names => names
  | .assign x value => x :: value.names
  | .assignTuple names values => names ++ exprsNames values
  | .assignAdjusted names args tail => names ++ (exprsNames args ++ tailNames tail)
  | .setGlobal _ value => value.names
  | .setIndex object key value => object.names ++ (key.names ++ value.names)
  | .run call => call.names
  | .ifElse condition body otherwise => condition.names ++ (stmtsNames body ++ otherwise.names)
  | .whileLoop condition body => condition.names ++ stmtsNames body
  | .forever body => stmtsNames body
  | .forRange x start stop step body =>
    x :: (start.names ++ (stop.names ++ (exprsNames step.toList ++ stmtsNames body)))
  | .forEach names args tail body => names ++ (exprsNames args ++ (tailNames tail ++ stmtsNames body))
  | .define d => d.names
  | .iterate flow function args => flow :: function :: args
  | .breakOn flow | .returnOn flow _ => [flow]
  | .answer _ value => value.names
  | .answerBreak | .breakLoop | .pass => []

def OrElse.names : OrElse → List String
  | .none => []
  | .elseIf condition body otherwise => condition.names ++ (stmtsNames body ++ otherwise.names)
  | .otherwise body => stmtsNames body

def Def.names : Def → List String
  | .mk name _ _ _ body => name :: stmtsNames body

def stmtsNames : List Stmt → List String
  | [] => []
  | s :: ss => s.names ++ stmtsNames ss

end

section Binding

attribute [local grind =] Expr.names Call.names exprsNames tailNames partsNames itemsNames Cond.names Answer.names
  Stmt.names OrElse.names Def.names stmtsNames Expr.bound Call.bound exprsBound tailBound partsBound itemsBound
  listBound Cond.bound Answer.bound Stmt.bound OrElse.bound stmtsBound

mutual

theorem Expr.bound_subset : ∀ e : Expr, e.bound ⊆ e.names
  | .null | .bool _ | .number _ | .infinity | .string _ | .var _ | .global _ | .firstVararg => by grind
  | .table items tail => by grind [itemsBound_subset items, tailBound_subset tail]
  | .binary _ left right | .andThen _ left right | .orElse _ left right | .index left right => by
    grind [left.bound_subset, right.bound_subset]
  | .negation operand | .length operand | .minus operand => by grind [operand.bound_subset]
  | .first call => by grind [call.bound_subset]
  | .last parts value => by grind [partsBound_subset parts, value.bound_subset]

theorem Call.bound_subset : ∀ call : Call, call.bound ⊆ call.names
  | .call e args tail | .invoke e _ args tail => by
    grind [e.bound_subset, exprsBound_subset args, tailBound_subset tail]
  | .varargs => by grind
  | .single value => by grind [value.bound_subset]

theorem exprsBound_subset : ∀ es : List Expr, exprsBound es ⊆ exprsNames es
  | [] => by grind
  | e :: es => by grind [e.bound_subset, exprsBound_subset es]

theorem tailBound_subset : ∀ tail : Option Tail, tailBound tail ⊆ tailNames tail
  | none | some .varargs => by grind
  | some (.expand call) => by grind [call.bound_subset]

theorem partsBound_subset : ∀ parts : List Part, partsBound parts ⊆ partsNames parts
  | [] => by grind
  | .run call :: parts => by grind [call.bound_subset, partsBound_subset parts]
  | .bind _ value :: parts => by grind [value.bound_subset, partsBound_subset parts]

theorem itemsBound_subset : ∀ items : List Item, itemsBound items ⊆ itemsNames items
  | [] => by grind
  | .keyed key value :: items => by grind [key.bound_subset, value.bound_subset, itemsBound_subset items]
  | .positional value :: items => by grind [value.bound_subset, itemsBound_subset items]

end

theorem Cond.bound_subset (c : Cond) : c.bound ⊆ c.names := by
  cases c <;> grind [Expr.bound_subset]

mutual

theorem Stmt.bound_subset : ∀ s : Stmt, s.bound ⊆ s.names
  | .assignNull _ | .iterate .. | .breakOn _ | .returnOn .. | .answerBreak | .breakLoop | .pass => by grind
  | .define (.mk ..) => by grind [Def.name]
  | .assign _ _ | .assignTuple _ _ | .assignAdjusted .. | .setGlobal _ _ | .setIndex .. | .run _ => by
    grind [Expr.bound_subset, Call.bound_subset, exprsBound_subset, tailBound_subset]
  | .answer _ value => by cases value <;> grind [Call.bound_subset, exprsBound_subset, tailBound_subset]
  | .ifElse c body otherwise => by grind [c.bound_subset, stmtsBound_subset body, otherwise.bound_subset]
  | .whileLoop c body => by grind [c.bound_subset, stmtsBound_subset body]
  | .forever body => by grind [stmtsBound_subset body]
  | .forRange _ start stop step body => by
    grind [start.bound_subset, stop.bound_subset, exprsBound_subset step.toList, stmtsBound_subset body]
  | .forEach _ args tail body => by grind [exprsBound_subset args, tailBound_subset tail, stmtsBound_subset body]

theorem OrElse.bound_subset : ∀ o : OrElse, o.bound ⊆ o.names
  | .none => by grind
  | .elseIf c body otherwise => by grind [c.bound_subset, stmtsBound_subset body, otherwise.bound_subset]
  | .otherwise body => by grind [stmtsBound_subset body]

theorem stmtsBound_subset : ∀ ss : List Stmt, stmtsBound ss ⊆ stmtsNames ss
  | [] => by grind
  | s :: ss => by grind [s.bound_subset, stmtsBound_subset ss]

end

end Binding

end TypedLua.Target
