import TypedLua.Source.Cursor
import TypedLua.Token

/-!
# Reading tokens

`tokenize` turns source text into its tokens, the end of the text included.
-/

namespace TypedLua.Token

inductive LongKind where
  | string | comment
  deriving Repr, DecidableEq

inductive LexCause where
  | unterminatedLong (what : LongKind)
  | badDirective
  | unterminatedString
  | newlineInString
  | unterminatedEscape
  | badHexEscape
  | decimalEscapeTooLarge (digits : String)
  | invalidEscape (c : Char)
  | missingHexDigits
  | missingExponentDigits
  | malformedNumber (text : String)
  | unexpectedChar (c : Char)
  deriving Repr, DecidableEq

def LexCause.message : LexCause → String
  | unterminatedLong .string => "Unterminated long string"
  | unterminatedLong .comment => "Unterminated long comment"
  | badDirective => "Directive 'typecheck' expects 'on' or 'off'"
  | unterminatedString => "Unterminated string literal"
  | newlineInString => "Newline in string literal (use \\n for newlines)"
  | unterminatedEscape => "Unterminated escape sequence"
  | badHexEscape => "Hexadecimal escape expects two digits"
  | decimalEscapeTooLarge digits => "Decimal escape too large: \\" ++ digits
  | invalidEscape c => "Invalid escape sequence: \\" ++ c.toString
  | missingHexDigits => "Invalid number: expected hexadecimal digits"
  | missingExponentDigits => "Invalid number: expected exponent digits"
  | malformedNumber text => "Malformed number near '" ++ text ++ "'"
  | unexpectedChar c => "Unexpected character: " ++ Text.quote c.toString

inductive LexFailure where
  /-- The text breaks a rule: the cause, its place, and where reading stopped. -/
  | invalid (cause : LexCause) (position reached : Position)
  | digits (error : Number.TextError)
  deriving Repr, DecidableEq

def isSpace (c : Char) : Bool :=
  c == ' ' || c == '\t' || c == '\r' || c == '\n' || c == '\x0c' || c == '\x0b'

def isHexDigit (c : Char) : Bool :=
  (Text.Quoted.hexValue? c).isSome

/-! ## Long brackets -/

/-- The level of the long bracket that opens at the front: the number of equals signs between its
two square brackets. -/
def longLevel? : List Char → Option Nat
  | '[' :: cs =>
    let level := (cs.takeWhile (· == '=')).length
    if (cs.drop level).head? = some '[' then some level else none
  | _ => none

def closingBracket (level : Nat) : List Char :=
  ']' :: List.replicate level '=' ++ [']']

/-- The text before the first closing bracket, and the cursor behind the bracket; or the place where
the text ended without one. -/
def longBody (closing : List Char) (position : Position) :
    List Char → Except Position (List Char × Cursor)
  | [] => .error position
  | c :: cs =>
    if closing.isPrefixOf (c :: cs) then
      .ok ([], ⟨position.advance closing, (c :: cs).drop closing.length⟩)
    else
      match longBody closing (position.step c) cs with
      | .ok (text, after) => .ok (c :: text, after)
      | .error reached => .error reached

def readLong (what : LongKind) (level : Nat) (c : Cursor) :
    Except LexFailure (List Char × Cursor) :=
  let body := ((c.drop (level + 2)).skip '\r').skip '\n'
  match longBody (closingBracket level) body.position body.rest with
  | .ok found => .ok found
  | .error reached => .error (.invalid (.unterminatedLong what) c.position reached)

/-! ## Quoted strings -/

def plainEscape? : Char → Option Char
  | 'n' => some '\n'
  | 't' => some '\t'
  | 'r' => some '\r'
  | 'a' => some '\x07'
  | 'b' => some '\x08'
  | 'f' => some '\x0c'
  | 'v' => some '\x0b'
  | '\\' => some '\\'
  | '\'' => some '\''
  | '"' => some '"'
  | '\n' => some '\n'
  | _ => none

def consChar (c : Char) :
    Except LexFailure (List Char × Cursor) → Except LexFailure (List Char × Cursor)
  | .ok (text, after) => .ok (c :: text, after)
  | .error e => .error e

def integerOf (digits : List Char) : Except LexFailure Int :=
  match Numeral.int 10 digits with
  | .ok n => .ok n
  | .error .malformed => .error (.digits (.whole (String.ofList digits)))
  | .error (.tooLong count) => .error (.digits (.tooLong count))

/-- The character with the code that decimal digits write; `reached` is the place behind them. -/
def decimalEscape (digits : List Char) (reached : Position) : Except LexFailure Char :=
  match integerOf digits with
  | .error e => .error e
  | .ok code =>
    if code > 255 then
      .error (.invalid (.decimalEscapeTooLarge (String.ofList digits)) reached reached)
    else .ok (Char.ofNat code.toNat)

inductive StringMode where
  | plain
  | skipping
  | decimal (digits : List Char)
  deriving Repr, DecidableEq

def StringMode.continue? (c : Char) : StringMode → Option StringMode
  | plain => none
  | skipping => if isSpace c then some skipping else none
  | decimal digits =>
    if digits.length < 3 && Text.isDigit c then some (decimal (digits ++ [c])) else none

/-- Ends what is being read: the character of a decimal escape goes in front of the rest. -/
def StringMode.close (position : Position) (mode : StringMode)
    (rest : Except LexFailure (List Char × Cursor)) : Except LexFailure (List Char × Cursor) :=
  match mode with
  | decimal digits =>
    match decimalEscape digits position with
    | .ok c => consChar c rest
    | .error e => .error e
  | _ => rest

/-- Reads a quoted string behind its opening quote; `opened` is the place of that quote. -/
def stringBody (mark : Char) (opened : Position) :
    StringMode → Position → List Char → Except LexFailure (List Char × Cursor)
  | mode, position, [] => mode.close position (.error (.invalid .unterminatedString opened position))
  | mode, position, c :: cs =>
    let next := position.step c
    match mode.continue? c with
    | some mode => stringBody mark opened mode next cs
    | none =>
      mode.close position <|
        if c = '\n' then .error (.invalid .newlineInString position position)
        else if c = mark then .ok ([], ⟨next, cs⟩)
        else if c ≠ '\\' then consChar c (stringBody mark opened .plain next cs)
        else
          match cs with
          | [] => .error (.invalid .unterminatedEscape next next)
          | 'x' :: a :: b :: rest =>
            match Text.Quoted.hexNumber? [a, b] with
            | some code =>
              consChar (Char.ofNat code)
                (stringBody mark opened .plain (((next.step 'x').step a).step b) rest)
            | none => .error (.invalid .badHexEscape (next.step 'x') (next.step 'x'))
          | e :: es =>
            let behind := next.step e
            match plainEscape? e with
            | some plain => consChar plain (stringBody mark opened .plain behind es)
            | none =>
              if e = 'x' then .error (.invalid .badHexEscape behind behind)
              else if e = 'z' then stringBody mark opened .skipping behind es
              else if Text.isDigit e then stringBody mark opened (.decimal [e]) behind es
              else .error (.invalid (.invalidEscape e) next next)

/-! ## Numbers -/

def readHex (c : Cursor) : Except LexFailure (Number × Cursor) :=
  let (digits, after) := (c.drop 2).takeWhile isHexDigit
  match Text.Quoted.hexNumber? digits with
  | some n =>
    if digits.isEmpty then .error (.invalid .missingHexDigits after.position after.position)
    else .ok (.int n, after)
  | none => .error (.invalid .missingHexDigits after.position after.position)

/-- Reads a point with the digits behind it, unless it is the first of two points. -/
def readPlaces (c : Cursor) : List Char × Cursor :=
  match c.rest with
  | '.' :: cs =>
    if cs.head? = some '.' then ([], c)
    else
      let (digits, after) := c.advance.takeWhile Text.isDigit
      ('.' :: digits, after)
  | _ => ([], c)

def readSign (c : Cursor) : List Char × Cursor :=
  match c.rest with
  | s :: _ => if s = '+' || s = '-' then ([s], c.advance) else ([], c)
  | [] => ([], c)

def readExponent (c : Cursor) : Except LexFailure (List Char × Cursor) :=
  match c.rest with
  | mark :: _ =>
    if mark = 'e' || mark = 'E' then
      let (sign, start) := readSign c.advance
      let (digits, after) := start.takeWhile Text.isDigit
      if digits.isEmpty then
        .error (.invalid .missingExponentDigits start.position start.position)
      else .ok (mark :: sign ++ digits, after)
    else .ok ([], c)
  | [] => .ok ([], c)

/-- The value of a decimal number; `fractional` holds if it has a point or an exponent. -/
def decimalNumber (fractional : Bool) (text : List Char) : Except LexFailure Number :=
  if fractional then
    match Numeral.float? text with
    | some x => .ok (.float x)
    | none => .error (.digits (.fraction (String.ofList text)))
  else (integerOf text).map Number.int

/-- The letter or underscore at the front, which may not stand right behind a number. -/
def adjoining? (c : Cursor) : Option Char :=
  c.rest.head?.filter fun x => Text.isLetter x || x == '_'

def readDecimal (c : Cursor) : Except LexFailure (Number × Cursor) :=
  let (whole, afterWhole) := c.takeWhile Text.isDigit
  let (places, afterPlaces) := readPlaces afterWhole
  match readExponent afterPlaces with
  | .error e => .error e
  | .ok (exponent, after) =>
    let text := whole ++ places ++ exponent
    match adjoining? after with
    | some x =>
      .error (.invalid (.malformedNumber (String.ofList (text ++ [x]))) after.position
        after.position)
    | none =>
      match decimalNumber (!(places.isEmpty && exponent.isEmpty)) text with
      | .ok value => .ok (value, after)
      | .error e => .error e

def readNumber (c : Cursor) : Except LexFailure (Number × Cursor) :=
  match c.rest with
  | '0' :: mark :: _ => if mark = 'x' || mark = 'X' then readHex c else readDecimal c
  | _ => readDecimal c

/-! ## Comments and single tokens -/

def directive? (comment : List Char) : Except LexCause (Option Bool) :=
  match comment with
  | '!' :: cs =>
    match (Text.words cs).map String.ofList with
    | "typecheck" :: args =>
      if args = ["on"] then .ok (some true)
      else if args = ["off"] then .ok (some false)
      else .error .badDirective
    | _ => .ok none
  | _ => .ok none

/-- Reads a comment that starts at the cursor; a directive is a token. -/
def readComment (c : Cursor) : Except LexFailure (Option Token × Cursor) :=
  let body := c.drop 2
  match longLevel? body.rest with
  | some level =>
    match readLong .comment level body with
    | .ok (_, after) => .ok (none, after)
    | .error e => .error e
  | none =>
    let (comment, after) := body.takeWhile (· != '\n')
    match directive? comment with
    | .ok (some on) => .ok (some ⟨.directive on, c.position⟩, after)
    | .ok none => .ok (none, after)
    | .error cause => .error (.invalid cause c.position after.position)

def readName (c : Cursor) : Kind × Cursor :=
  let (chars, after) := c.takeWhile Text.isWordChar
  let text := String.ofList chars
  match Keyword.ofText? text with
  | some word => (.keyword word, after)
  | none => (.name text, after)

def symbol? (cs : List Char) : Option Symbol :=
  Symbol.all.find? fun s => s.chars.isPrefixOf cs

def startsNumber : List Char → Bool
  | '.' :: d :: _ => Text.isDigit d
  | d :: _ => Text.isDigit d
  | [] => false

def readToken (first : Char) (c : Cursor) : Except LexFailure (Kind × Cursor) :=
  if first = '"' || first = '\'' then
    let opened := c.advance
    match stringBody first c.position .plain opened.position opened.rest with
    | .ok (text, after) => .ok (.string (String.ofList text), after)
    | .error e => .error e
  else
    match longLevel? c.rest with
    | some level =>
      match readLong .string level c with
      | .ok (text, after) => .ok (.string (String.ofList text), after)
      | .error e => .error e
    | none =>
      if startsNumber c.rest then
        match readNumber c with
        | .ok (value, after) => .ok (.number value, after)
        | .error e => .error e
      else if Text.isLetter first || first == '_' then .ok (readName c)
      else
        match symbol? c.rest with
        | some s => .ok (.symbol s, c.drop s.chars.length)
        | none => .error (.invalid (.unexpectedChar first) c.position c.position)

def step (c : Cursor) : Except LexFailure (Option Token × Option Cursor) :=
  let c := c.dropWhile isSpace
  match c.rest with
  | [] => .ok (some ⟨.eof, c.position⟩, none)
  | '-' :: '-' :: _ =>
    match readComment c with
    | .ok (token, after) => .ok (token, some after)
    | .error e => .error e
  | first :: _ =>
    match readToken first c with
    | .ok (kind, after) => .ok (some ⟨kind, c.position⟩, some after)
    | .error e => .error e

end TypedLua.Token
