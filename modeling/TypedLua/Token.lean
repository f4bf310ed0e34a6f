import TypedLua.Number
import TypedLua.Source.Position

/-!
# Tokens

The words of the language: literals, names, keywords, symbols, directives and the end of the text.
-/

namespace TypedLua

inductive Keyword where
  | and_ | break_ | do_ | else_ | elseif_ | end_ | false_ | for_ | function_ | if_ | in_ | local_
  | nil_ | not_ | or_ | repeat_ | return_ | then_ | true_ | until_ | while_ | newtype_
  deriving Repr, DecidableEq, Inhabited

namespace Keyword

def all : List Keyword := [
  and_, break_, do_, else_, elseif_, end_, false_, for_, function_, if_, in_, local_, nil_, not_,
  or_, repeat_, return_, then_, true_, until_, while_, newtype_]

def text : Keyword → String
  | and_ => "and" | break_ => "break" | do_ => "do" | else_ => "else" | elseif_ => "elseif"
  | end_ => "end" | false_ => "false" | for_ => "for" | function_ => "function" | if_ => "if"
  | in_ => "in" | local_ => "local" | nil_ => "nil" | not_ => "not" | or_ => "or"
  | repeat_ => "repeat" | return_ => "return" | then_ => "then" | true_ => "true"
  | until_ => "until" | while_ => "while" | newtype_ => "newtype"

def label : Keyword → String
  | and_ => "AND" | break_ => "BREAK" | do_ => "DO" | else_ => "ELSE" | elseif_ => "ELSEIF"
  | end_ => "END" | false_ => "FALSE" | for_ => "FOR" | function_ => "FUNCTION" | if_ => "IF"
  | in_ => "IN" | local_ => "LOCAL" | nil_ => "NIL" | not_ => "NOT" | or_ => "OR"
  | repeat_ => "REPEAT" | return_ => "RETURN" | then_ => "THEN" | true_ => "TRUE"
  | until_ => "UNTIL" | while_ => "WHILE" | newtype_ => "NEWTYPE"

def ofText? (s : String) : Option Keyword :=
  all.find? (·.text == s)

theorem mem_all (k : Keyword) : k ∈ all := by
  cases k <;> decide

end Keyword

inductive Symbol where
  | plus | minus | star | slash | doubleSlash | percent | caret | hash | concat
  | eq | ne | lt | gt | le | ge | assign
  | lparen | rparen | lbrace | rbrace | lbracket | rbracket
  | comma | dot | colon | doubleColon | semicolon | ellipsis
  deriving Repr, DecidableEq, Inhabited

namespace Symbol

/-- Every symbol, longer spellings first: the first whose spelling fits is the one read. -/
def all : List Symbol := [
  ellipsis, eq, ne, le, ge, doubleSlash, concat, doubleColon, plus, minus, star, slash, percent,
  caret, hash, lt, gt, assign, lparen, rparen, lbrace, rbrace, lbracket, rbracket, comma, dot,
  colon, semicolon]

def chars : Symbol → List Char
  | plus => ['+'] | minus => ['-'] | star => ['*'] | slash => ['/'] | doubleSlash => ['/', '/']
  | percent => ['%'] | caret => ['^'] | hash => ['#'] | concat => ['.', '.']
  | eq => ['=', '='] | ne => ['~', '='] | lt => ['<'] | gt => ['>'] | le => ['<', '=']
  | ge => ['>', '='] | assign => ['='] | lparen => ['('] | rparen => [')'] | lbrace => ['\x7b']
  | rbrace => ['\x7d'] | lbracket => ['['] | rbracket => [']'] | comma => [','] | dot => ['.']
  | colon => [':'] | doubleColon => [':', ':'] | semicolon => [';'] | ellipsis => ['.', '.', '.']

def text (s : Symbol) : String :=
  String.ofList s.chars

def label : Symbol → String
  | plus => "PLUS" | minus => "MINUS" | star => "STAR" | slash => "SLASH"
  | doubleSlash => "DOUBLE_SLASH" | percent => "PERCENT" | caret => "CARET" | hash => "HASH"
  | concat => "CONCAT" | eq => "EQ" | ne => "NE" | lt => "LT" | gt => "GT" | le => "LE"
  | ge => "GE" | assign => "ASSIGN" | lparen => "LPAREN" | rparen => "RPAREN"
  | lbrace => "LBRACE" | rbrace => "RBRACE" | lbracket => "LBRACKET" | rbracket => "RBRACKET"
  | comma => "COMMA" | dot => "DOT" | colon => "COLON" | doubleColon => "DOUBLE_COLON"
  | semicolon => "SEMICOLON" | ellipsis => "ELLIPSIS"

theorem mem_all (s : Symbol) : s ∈ all := by
  cases s <;> decide

end Symbol

namespace Token

inductive Kind where
  | eof
  | number (value : Number)
  | string (value : String)
  | name (text : String)
  | keyword (word : Keyword)
  | symbol (mark : Symbol)
  | directive (typecheck : Bool)
  deriving Repr, DecidableEq, Inhabited

namespace Kind

def label : Kind → String
  | eof => "EOF"
  | number _ => "NUMBER"
  | string _ => "STRING"
  | name _ => "NAME"
  | keyword k => k.label
  | symbol s => s.label
  | directive _ => "PRAGMA"

def isLiteral : Kind → Bool
  | number _ | string _ | keyword .nil_ | keyword .true_ | keyword .false_ => true
  | _ => false

/-- What a token carries can be written; a number may have too many digits for that. -/
def isWritable : Kind → Bool
  | number n => n.isWritable
  | _ => true

/-- The written form of what a token carries; the end of the text carries nothing. -/
def valueText? : Kind → Option String
  | eof => none
  | number n => some n.exactText
  | string s => some (Text.quote s)
  | name s => some (Text.quote s)
  | keyword k => some (Text.quote k.text)
  | symbol s => some (Text.quote s.text)
  | directive true => some "('typecheck', True)"
  | directive false => some "('typecheck', False)"

end Kind

end Token

structure Token where
  kind : Token.Kind
  position : Position
  deriving Repr, DecidableEq, Inhabited

namespace Token

def listing (file : Option String) (t : Token) : String :=
  let place := t.position.text file
  match t.kind.valueText? with
  | some value => s!"Token({t.kind.label}, {value}, {place})"
  | none => s!"Token({t.kind.label}, {place})"

end Token

end TypedLua
