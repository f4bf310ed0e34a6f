import TypedLua.Syntax.Parser
import TypedLua.Target.Generate
import TypedLua.Text.Line
import TypedLua.Token.Tokenize

/-!
# Problems

A problem is what stops the compilation of a unit: its cause, the place it points at, and the line
of source quoted under the message.
-/

namespace TypedLua

inductive Problem.Cause where
  | lex (cause : Token.LexCause)
  | parse (cause : Parser.ParseCause) (near : Token.Kind)
  | malformed (cause : MalformedCause)
  | generate (cause : Target.GenerateCause)
  | tooDeep
  deriving Repr, DecidableEq

structure Problem where
  cause : Problem.Cause
  loc : Loc
  line : String
  deriving Repr, DecidableEq

namespace Problem

def nearText (kind : Token.Kind) : String :=
  match kind.valueText? with
  | some value => " near " ++ value
  | none => " near end of file"

def Cause.message : Cause → String
  | lex cause => cause.message
  | parse cause near => cause.message ++ nearText near
  | malformed cause => cause.message
  | generate cause => cause.message
  | tooDeep => "nesting too deep"

def message (p : Problem) : String :=
  p.cause.message

def quotation (line : String) (column : Nat) : String :=
  "\n    " ++ line ++ "\n" ++ String.ofList (List.replicate (4 + column - 1) ' ') ++ "^"

def text (file : Option String) (p : Problem) : String :=
  match p.loc with
  | none => p.message
  | some place =>
    let head := "[" ++ place.text file ++ "] " ++ p.message
    if p.line.isEmpty then head else head ++ quotation p.line place.column

def ofMalformed (m : Malformed) : Problem :=
  ⟨.malformed m.cause, m.loc, ""⟩

def ofGenerate (cause : Target.GenerateCause) (loc : Loc) : Problem :=
  ⟨.generate cause, loc, ""⟩

def ofLex (source : List Char) (cause : Token.LexCause) (position reached : Position) : Problem :=
  ⟨.lex cause, some position, String.ofList (lineFrom source reached.lineStart)⟩

def freeLine (source : List Char) (number : Nat) : String :=
  String.ofList ((Text.lines source).getD (number - 1) [])

def ofParse (source : List Char) : Parser.ParseFailure → Except Number.TextError Problem
  | .invalid cause near =>
    if near.kind.isWritable then
      .ok ⟨.parse cause near.kind, some near.position, freeLine source near.position.line⟩
    else .error .unwritable
  | .malformed reason => .ok (ofMalformed reason)
  | .outOfFuel => .ok ⟨.tooDeep, none, ""⟩

end Problem

def readTokens (source : List Char) : Except Number.TextError (Except Problem (List Token)) :=
  match Token.tokenize source with
  | .ok tokens => .ok (.ok tokens)
  | .error (.invalid cause position reached) =>
    .ok (.error (.ofLex source cause position reached))
  | .error (.digits error) => .error error

def readChunk (registry : String) (source : List Char) (tokens : List Token) :
    Except Number.TextError (Except Problem Chunk) :=
  match Parser.parse registry tokens with
  | .ok chunk => .ok (.ok chunk)
  | .error failure => (Problem.ofParse source failure).map .error

end TypedLua
