import TypedLua.Annotation.Predicate
import TypedLua.Token

/-!
# Parsing

A recursive descent parser from tokens to a chunk.
-/

namespace TypedLua.Parser

/-- What the parser needed and did not find, or found and could not use. -/
inductive ParseCause where
  | localName | functionName | memberName | thenKeyword | whileDo | untilKeyword | loopVariable
  | forComma | numericDo | forHeader | genericDo | declarationAssign | assignmentAssign
  | statement | notAssignable | returnNotLast
  | endOf (what : String)
  | openParameters | parameterName | closeParameters | openSignature | closeSignature
  | varargOutside | closeParen | unexpected | fieldName | closeIndex | methodName | arguments
  | closeArguments | tableBrace | closeKey | keyAssign | closeTable | endOfFile
  deriving Repr, DecidableEq

def ParseCause.message : ParseCause → String
  | localName => "Expected local variable name"
  | functionName => "Expected function name"
  | memberName => "Expected name after '.' or ':'"
  | thenKeyword => "Expected 'then' after condition"
  | whileDo => "Expected 'do' after while condition"
  | untilKeyword => "Expected 'until' to close 'repeat'"
  | loopVariable => "Expected loop variable name"
  | forComma => "Expected ',' after for start value"
  | numericDo => "Expected 'do' in numeric for"
  | forHeader => "Expected '=' or 'in' in for loop"
  | genericDo => "Expected 'do' in generic for"
  | declarationAssign => "Expected '=' in newtype declaration"
  | assignmentAssign => "Expected '=' in assignment"
  | statement => "Syntax error: expected assignment or function call"
  | notAssignable => "Cannot assign to this expression"
  | returnNotLast => "'return' must be the last statement of a block"
  | endOf what => "Expected 'end' to close " ++ what
  | openParameters => "Expected '(' to open parameter list"
  | parameterName => "Expected parameter name"
  | closeParameters => "Expected ')' to close parameter list"
  | openSignature => "Expected '(' in function type"
  | closeSignature => "Expected ')' in function type"
  | varargOutside => "Cannot use '...' outside a vararg function"
  | closeParen => "Expected ')' to close parenthesized expression"
  | unexpected => "Unexpected symbol"
  | fieldName => "Expected field name after '.'"
  | closeIndex => "Expected ']' to close index"
  | methodName => "Expected method name after ':'"
  | arguments => "Expected function arguments"
  | closeArguments => "Expected ')' to close argument list"
  | tableBrace => "Expected '\x7b'"
  | closeKey => "Expected ']' after table key"
  | keyAssign => "Expected '=' after table key"
  | closeTable => "Expected '\x7d' to close table constructor"
  | endOfFile => "Expected end of file"

inductive ParseFailure where
  | invalid (cause : ParseCause) (near : Token)
  | malformed (reason : Malformed)
  | outOfFuel
  deriving Repr, DecidableEq

abbrev Parse (α : Type) := StateT (List Token) (Except ParseFailure) α

structure Context where
  registry : String
  inType : Bool
  varargs : Bool

/-! ## Tokens -/

def head : List Token → Token
  | [] => ⟨.eof, .start⟩
  | t :: _ => t

/-- The tokens behind the one at the front; the end of the text stays. -/
def tail : List Token → List Token
  | [] => []
  | t :: ts => if t.kind = .eof then t :: ts else ts

def current : Parse Token := do
  return head (← get)

def advance : Parse Token := do
  let tokens ← get
  set (tail tokens)
  return head tokens

def failure {α : Type} (cause : ParseCause) : Parse α := do
  throw (.invalid cause (← current))

def check (kind : Token.Kind) : Parse Bool := do
  return (← current).kind = kind

def accept (kind : Token.Kind) : Parse Bool := do
  if ← check kind then
    let _ ← advance
    return true
  else return false

def expect (kind : Token.Kind) (cause : ParseCause) : Parse Token := do
  if ← check kind then advance else failure cause

def expectName (cause : ParseCause) : Parse String := do
  match (← current).kind with
  | .name text =>
    let _ ← advance
    return text
  | _ => failure cause

def endsBlock : Token.Kind → Bool
  | .eof | .keyword .end_ | .keyword .else_ | .keyword .elseif_ | .keyword .until_ => true
  | _ => false

def binaryOp? : Token.Kind → Option (BinaryOp × Nat)
  | .keyword .or_ => some (.or, 1)
  | .keyword .and_ => some (.and, 2)
  | .symbol .eq => some (.eq, 3)
  | .symbol .ne => some (.ne, 3)
  | .symbol .lt => some (.lt, 3)
  | .symbol .gt => some (.gt, 3)
  | .symbol .le => some (.le, 3)
  | .symbol .ge => some (.ge, 3)
  | .symbol .concat => some (.concat, 4)
  | .symbol .plus => some (.add, 5)
  | .symbol .minus => some (.sub, 5)
  | .symbol .star => some (.mul, 6)
  | .symbol .slash => some (.div, 6)
  | .symbol .doubleSlash => some (.idiv, 6)
  | .symbol .percent => some (.mod, 6)
  | .symbol .caret => some (.pow, 8)
  | _ => none

def unaryLevel : Nat := 7

def isRightAssociative : BinaryOp → Bool
  | .concat | .pow => true
  | _ => false

def unaryOp? : Token.Kind → Option UnaryOp
  | .symbol .minus => some .neg
  | .keyword .not_ => some .not
  | .symbol .hash => some .len
  | _ => none

def isAssignable : Expr → Bool
  | .name .. | .index .. => true
  | _ => false

def ensureAssignable (e : Expr) : Parse Expr :=
  if isAssignable e then return e else failure .notAssignable

def moreLoopNames : Nat → Parse (List String)
  | 0 => throw .outOfFuel
  | n + 1 => do
    if ← accept (.symbol .comma) then
      let x ← expectName .loopVariable
      let xs ← moreLoopNames n
      return x :: xs
    else return []

/-- The members behind the first name of a function statement: what is assigned to, the full name,
and whether the last member is a method. -/
def functionPath : Nat → Expr → String → Parse (Expr × String × Bool)
  | 0, _, _ => throw .outOfFuel
  | n + 1, target, fullName => do
    let separator ← current
    let isMethod := separator.kind == .symbol .colon
    if isMethod || separator.kind == .symbol .dot then
      let _ ← advance
      let keyToken ← current
      let key ← expectName .memberName
      let at_ := some keyToken.position
      let target := Expr.index at_ target (.string at_ key)
      let fullName := fullName ++ (if isMethod then ":" else ".") ++ key
      if isMethod then return (target, fullName, true) else functionPath n target fullName
    else return (target, fullName, false)

/-! ## The grammar -/

mutual

def block (ctx : Context) : Nat → Parse Block
  | 0 => throw .outOfFuel
  | n + 1 => do
    let first ← current
    let stmts ← statements ctx n
    return .mk (some first.position) stmts

def statements (ctx : Context) : Nat → Parse (List Stmt)
  | 0 => throw .outOfFuel
  | n + 1 => do
    let first ← current
    if endsBlock first.kind then return []
    else if ← accept (.symbol .semicolon) then statements ctx n
    else if first.kind == .keyword .return_ then
      let s ← returnStatement ctx n
      return [s]
    else
      let s ← statement ctx n
      let rest ← statements ctx n
      return s :: rest

def statement (ctx : Context) : Nat → Parse Stmt
  | 0 => throw .outOfFuel
  | n + 1 => do
    let first ← current
    let loc := some first.position
    match first.kind with
    | .keyword .local_ =>
      let _ ← advance
      if ← accept (.keyword .function_) then
        let name ← expectName .functionName
        let f ← functionBody ctx n first (some name) false
        return .localFunction loc name f
      else
        let (names, types) ← localNames ctx n
        let values ← if ← accept (.symbol .assign) then expressionList ctx n else pure []
        return .localVars loc names values types
    | .keyword .function_ =>
      let _ ← advance
      let nameToken ← current
      let name ← expectName .functionName
      let (target, fullName, isMethod) ←
        functionPath n (.name (some nameToken.position) name) name
      let f ← functionBody ctx n first (some fullName) isMethod
      return .assign loc [target] [.function f]
    | .keyword .if_ =>
      let _ ← advance
      let condition ← expression ctx n 0
      let _ ← expect (.keyword .then_) .thenKeyword
      let body ← block ctx n
      let clauses ← elseifClauses ctx n
      let otherwise ← if ← accept (.keyword .else_) then some <$> block ctx n else pure none
      let _ ← expect (.keyword .end_) (.endOf "'if'")
      return .ifElse loc condition body clauses otherwise
    | .keyword .while_ =>
      let _ ← advance
      let condition ← expression ctx n 0
      let _ ← expect (.keyword .do_) .whileDo
      let body ← block ctx n
      let _ ← expect (.keyword .end_) (.endOf "'while'")
      return .whileLoop loc condition body
    | .keyword .do_ =>
      let _ ← advance
      let body ← block ctx n
      let _ ← expect (.keyword .end_) (.endOf "'do'")
      return .scope loc body
    | .keyword .for_ =>
      let _ ← advance
      let name ← expectName .loopVariable
      if ← accept (.symbol .assign) then
        let start ← expression ctx n 0
        let _ ← expect (.symbol .comma) .forComma
        let stop ← expression ctx n 0
        let step ← if ← accept (.symbol .comma) then some <$> expression ctx n 0 else pure none
        let _ ← expect (.keyword .do_) .numericDo
        let body ← block ctx n
        let _ ← expect (.keyword .end_) (.endOf "'for'")
        return .numericFor loc name start stop step body
      else
        let names ← moreLoopNames n
        let _ ← expect (.keyword .in_) .forHeader
        let iterators ← expressionList ctx n
        let _ ← expect (.keyword .do_) .genericDo
        let body ← block ctx n
        let _ ← expect (.keyword .end_) (.endOf "'for'")
        return .genericFor loc (name :: names) iterators body
    | .keyword .repeat_ =>
      let _ ← advance
      let body ← block ctx n
      let _ ← expect (.keyword .until_) .untilKeyword
      let condition ← expression ctx n 0
      return .repeatLoop loc body condition
    | .keyword .break_ =>
      let _ ← advance
      return .breakLoop loc
    | .keyword .newtype_ =>
      let _ ← advance
      let declared ← suffixed ctx n
      let _ ← expect (.symbol .assign) .declarationAssign
      let type ← typeExpression ctx n
      match Annotation.compileDeclaration ctx.registry declared type with
      | .ok s => return s
      | .error reason => throw (.malformed reason)
    | _ =>
      let e ← suffixed ctx n
      let next ← current
      if next.kind == .symbol .assign || next.kind == .symbol .comma then
        let target ← ensureAssignable e
        let targets ← moreTargets ctx n
        let _ ← expect (.symbol .assign) .assignmentAssign
        let values ← expressionList ctx n
        return .assign loc (target :: targets) values
      else
        match e with
        | .call .. | .method .. => return .expr loc e
        | _ => failure .statement

def moreTargets (ctx : Context) : Nat → Parse (List Expr)
  | 0 => throw .outOfFuel
  | n + 1 => do
    if ← accept (.symbol .comma) then
      let e ← suffixed ctx n
      let target ← ensureAssignable e
      let targets ← moreTargets ctx n
      return target :: targets
    else return []

def localNames (ctx : Context) : Nat → Parse (List String × List Annotation)
  | 0 => throw .outOfFuel
  | n + 1 => do
    let name ← expectName .localName
    let types ← if ← accept (.symbol .doubleColon) then
        let type ← typeExpression ctx n
        pure [.mk name type]
      else pure []
    if ← accept (.symbol .comma) then
      let (names, moreTypes) ← localNames ctx n
      return (name :: names, types ++ moreTypes)
    else return ([name], types)

def elseifClauses (ctx : Context) : Nat → Parse (List Clause)
  | 0 => throw .outOfFuel
  | n + 1 => do
    if ← accept (.keyword .elseif_) then
      let condition ← expression ctx n 0
      let _ ← expect (.keyword .then_) .thenKeyword
      let body ← block ctx n
      let clauses ← elseifClauses ctx n
      return .mk condition body :: clauses
    else return []

/-- The statement that ends a function; nothing may follow it in its block. -/
def returnStatement (ctx : Context) : Nat → Parse Stmt
  | 0 => throw .outOfFuel
  | n + 1 => do
    let first ← advance
    let next ← current
    let values ←
      if endsBlock next.kind || next.kind == .symbol .semicolon then pure []
      else expressionList ctx n
    let _ ← accept (.symbol .semicolon)
    if endsBlock (← current).kind then return .returnValues (some first.position) values
    else failure .returnNotLast

/-- The parameters of a function behind the opening parenthesis: names, annotations, and whether
extra arguments are taken. -/
def parameters (ctx : Context) : Nat → Parse (List String × List Annotation × Bool)
  | 0 => throw .outOfFuel
  | n + 1 => do
    if ← accept (.symbol .ellipsis) then return ([], [], true)
    else
      let name ← expectName .parameterName
      let types ← if ← accept (.symbol .doubleColon) then
          let type ← typeExpression ctx n
          pure [.mk name type]
        else pure []
      if ← accept (.symbol .comma) then
        let (names, moreTypes, isVararg) ← parameters ctx n
        return (name :: names, types ++ moreTypes, isVararg)
      else return ([name], types, false)

def functionBody (ctx : Context) : Nat → Token → Option String → Bool → Parse Function
  | 0, _, _, _ => throw .outOfFuel
  | n + 1, first, label, isMethod => do
    let _ ← expect (.symbol .lparen) .openParameters
    let (names, types, isVararg) ←
      if ← check (.symbol .rparen) then pure ([], [], false) else parameters ctx n
    let _ ← expect (.symbol .rparen) .closeParameters
    let returnType ←
      if ← accept (.symbol .doubleColon) then some <$> typeExpression ctx n else pure none
    let body ← block { ctx with varargs := isVararg } n
    let _ ← expect (.keyword .end_) (.endOf "function")
    let params := if isMethod then "self" :: names else names
    return .mk (some first.position) params isVararg body types returnType label

def functionSignature (ctx : Context) : Nat → Token → Parse Expr
  | 0, _ => throw .outOfFuel
  | n + 1, first => do
    let _ ← expect (.symbol .lparen) .openSignature
    let params ← if ← check (.symbol .rparen) then pure [] else expressionList ctx n
    let _ ← expect (.symbol .rparen) .closeSignature
    let body ← block ctx n
    let _ ← expect (.keyword .end_) (.endOf "function type")
    return .signature (some first.position) params body

def typeExpression (ctx : Context) : Nat → Parse Expr
  | 0 => throw .outOfFuel
  | n + 1 => expression { ctx with inType := true } n 0

def expressionList (ctx : Context) : Nat → Parse (List Expr)
  | 0 => throw .outOfFuel
  | n + 1 => do
    let e ← expression ctx n 0
    if ← accept (.symbol .comma) then
      let es ← expressionList ctx n
      return e :: es
    else return [e]

def expression (ctx : Context) : Nat → Nat → Parse Expr
  | 0, _ => throw .outOfFuel
  | n + 1, level => do
    let left ← unary ctx n
    climb ctx n level left

def climb (ctx : Context) : Nat → Nat → Expr → Parse Expr
  | 0, _, _ => throw .outOfFuel
  | n + 1, level, left => do
    match binaryOp? (← current).kind with
    | none => return left
    | some (op, opLevel) =>
      if opLevel ≤ level then return left
      else
        let mark ← advance
        let right ← expression ctx n (if isRightAssociative op then opLevel - 1 else opLevel)
        climb ctx n level (.binary (some mark.position) left op right)

def unary (ctx : Context) : Nat → Parse Expr
  | 0 => throw .outOfFuel
  | n + 1 => do
    let first ← current
    match unaryOp? first.kind with
    | some op =>
      let _ ← advance
      let operand ← expression ctx n unaryLevel
      return .unary (some first.position) op operand
    | none => simple ctx n

/-- A literal, a function, a table constructor or a suffixed expression. -/
def simple (ctx : Context) : Nat → Parse Expr
  | 0 => throw .outOfFuel
  | n + 1 => do
    let first ← current
    let loc := some first.position
    match first.kind with
    | .keyword .nil_ =>
      let _ ← advance
      return .nil loc
    | .keyword .true_ =>
      let _ ← advance
      return .bool loc true
    | .keyword .false_ =>
      let _ ← advance
      return .bool loc false
    | .number value =>
      let _ ← advance
      return .number loc value
    | .string value =>
      let _ ← advance
      return .string loc value
    | .symbol .ellipsis =>
      if ctx.varargs then
        let _ ← advance
        return .vararg loc
      else failure .varargOutside
    | .keyword .function_ =>
      let _ ← advance
      if ctx.inType then
        if ← check (.symbol .lparen) then functionSignature ctx n first
        else return .name loc "function"
      else
        let f ← functionBody ctx n first none false
        return .function f
    | .symbol .lbrace => table ctx n
    | _ => suffixed ctx n

def primary (ctx : Context) : Nat → Parse Expr
  | 0 => throw .outOfFuel
  | n + 1 => do
    let first ← current
    let loc := some first.position
    match first.kind with
    | .name text =>
      let _ ← advance
      return .name loc text
    | .symbol .lparen =>
      let _ ← advance
      let e ← expression ctx n 0
      let _ ← expect (.symbol .rparen) .closeParen
      return .paren loc e
    | _ => failure .unexpected

def suffixed (ctx : Context) : Nat → Parse Expr
  | 0 => throw .outOfFuel
  | n + 1 => do
    let e ← primary ctx n
    suffixes ctx n e

def suffixes (ctx : Context) : Nat → Expr → Parse Expr
  | 0, _ => throw .outOfFuel
  | n + 1, e => do
    let first ← current
    let loc := some first.position
    match first.kind with
    | .symbol .dot =>
      let _ ← advance
      let keyToken ← current
      let key ← expectName .fieldName
      suffixes ctx n (.index loc e (.string (some keyToken.position) key))
    | .symbol .lbracket =>
      let _ ← advance
      let key ← expression ctx n 0
      let _ ← expect (.symbol .rbracket) .closeIndex
      suffixes ctx n (.index loc e key)
    | .symbol .colon =>
      let _ ← advance
      let member ← expectName .methodName
      let args ← callArguments ctx n
      suffixes ctx n (.method loc e member args)
    | .symbol .lparen | .string _ | .symbol .lbrace =>
      let args ← callArguments ctx n
      suffixes ctx n (.call loc e args)
    | _ => return e

/-- The arguments of a call: a list in parentheses, a string or a table constructor. -/
def callArguments (ctx : Context) : Nat → Parse (List Expr)
  | 0 => throw .outOfFuel
  | n + 1 => do
    let first ← current
    match first.kind with
    | .string value =>
      let _ ← advance
      return [.string (some first.position) value]
    | .symbol .lbrace =>
      let e ← table ctx n
      return [e]
    | _ =>
      let _ ← expect (.symbol .lparen) .arguments
      if ← accept (.symbol .rparen) then return []
      else
        let args ← expressionList ctx n
        let _ ← expect (.symbol .rparen) .closeArguments
        return args

def table (ctx : Context) : Nat → Parse Expr
  | 0 => throw .outOfFuel
  | n + 1 => do
    let first ← expect (.symbol .lbrace) .tableBrace
    let fields ← tableFields ctx n
    let _ ← expect (.symbol .rbrace) .closeTable
    return .table (some first.position) fields

def tableFields (ctx : Context) : Nat → Parse (List Field)
  | 0 => throw .outOfFuel
  | n + 1 => do
    if ← check (.symbol .rbrace) then return []
    else
      let field ← tableField ctx n
      if (← accept (.symbol .comma)) then
        let fields ← tableFields ctx n
        return field :: fields
      else if (← accept (.symbol .semicolon)) then
        let fields ← tableFields ctx n
        return field :: fields
      else return [field]

def tableField (ctx : Context) : Nat → Parse Field
  | 0 => throw .outOfFuel
  | n + 1 => do
    let tokens ← get
    let first := head tokens
    let loc := some first.position
    match first.kind, (head (tail tokens)).kind with
    | .symbol .lbracket, _ =>
      let _ ← advance
      let key ← expression ctx n 0
      let _ ← expect (.symbol .rbracket) .closeKey
      let _ ← expect (.symbol .assign) .keyAssign
      let value ← expression ctx n 0
      return .mk loc (some key) value
    | .name text, .symbol .assign =>
      let _ ← advance
      let _ ← advance
      let value ← expression ctx n 0
      return .mk loc (some (.string loc text)) value
    | _, _ =>
      let value ← expression ctx n 0
      return .mk loc none value

end

section Equations

-- The equations of these functions are made here, so that the proofs that open them need not wait.
attribute [local simp] block statements statement moreTargets localNames elseifClauses returnStatement
  parameters functionBody functionSignature typeExpression expressionList expression climb unary simple
  primary suffixed suffixes callArguments table tableFields tableField

end Equations

/-! ## Chunks -/

def lastDirective (tokens : List Token) : Option Bool :=
  tokens.foldl (fun found t => match t.kind with
    | .directive on => some on
    | _ => found) none

def withoutDirectives (tokens : List Token) : List Token :=
  tokens.filter fun t => match t.kind with
    | .directive _ => false
    | _ => true

def depthBound (count : Nat) : Nat :=
  16 * (count + 1)

def chunkBody (ctx : Context) (fuel : Nat) : Parse Block := do
  let body ← block ctx fuel
  if (← current).kind = .eof then return body else failure .endOfFile

/-- The chunk that tokens form; declared types go to the given registry. -/
def parse (registry : String) (tokens : List Token) : Except ParseFailure Chunk :=
  let plain := withoutDirectives tokens
  match chunkBody ⟨registry, false, true⟩ (depthBound plain.length) plain with
  | .ok (body, _) => .ok ⟨some (head plain).position, body, lastDirective tokens⟩
  | .error e => .error e

end TypedLua.Parser
