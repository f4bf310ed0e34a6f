import TypedLua.Number.Numeral
import TypedLua.Text.Line
import TypedLua.Text.Quoted
import TypedLua.Toml

/-!
# Reading settings

A document is a sequence of lines: a header that opens a table, a key with its value, a comment, or
nothing.
-/

namespace TypedLua.Toml

/-- What is read at the front of characters, and what comes after it. -/
abbrev Reading (α : Type) := List Char → Option (α × List Char)

inductive Refusal where
  | malformed
  | tooLong (digits : Nat)
  deriving Repr, DecidableEq

/-- What is not there breaks a rule. -/
instance : MonadLift Option (Except Refusal) where
  monadLift
    | some a => .ok a
    | none => .error .malformed

/-- What is read at the front of characters of a document, and what comes after it. -/
abbrev DocumentReading (α : Type) := List Char → Except Refusal (α × List Char)

def isSpace (c : Char) : Bool :=
  c == ' ' || c == '\t'

def isGap (c : Char) : Bool :=
  isSpace c || c == '\n'

/-- A control that text may not hold; the tabulator may stand anywhere. -/
def isControl (c : Char) : Bool :=
  (c.toNat < 0x20 && c != '\t') || c.toNat == 0x7f

def skipSpaces (cs : List Char) : List Char :=
  cs.dropWhile isSpace

def skipComment : List Char → Option (List Char)
  | '#' :: cs =>
    if (cs.takeWhile (· != '\n')).any isControl then none else some (cs.dropWhile (· != '\n'))
  | cs => some cs

def skipGaps : Nat → List Char → Option (List Char)
  | 0, cs => some cs
  | fuel + 1, cs =>
    match cs.dropWhile isGap with
    | '#' :: rest => do skipGaps fuel (← skipComment ('#' :: rest))
    | rest => some rest

/-! ## Text -/

def shortEscape? : Char → Option Char
  | 'b' => some '\x08'
  | 't' => some '\t'
  | 'n' => some '\n'
  | 'f' => some '\x0c'
  | 'r' => some '\r'
  | '"' => some '"'
  | '\\' => some '\\'
  | _ => none

def scalar? (n : Nat) : Option Char :=
  if n.isValidChar then some (Char.ofNat n) else none

def escape : Reading Char
  | 'u' :: cs => numeric 4 cs
  | 'U' :: cs => numeric 8 cs
  | c :: cs => (shortEscape? c).map (·, cs)
  | [] => none
where
  numeric (width : Nat) (cs : List Char) : Option (Char × List Char) := do
    if (cs.take width).length = width then
      let n ← Text.Quoted.hexNumber? (cs.take width)
      return (← scalar? n, cs.drop width)
    else none

def hiddenBreak? (cs : List Char) : Option (List Char) :=
  match cs with
  | '\n' :: rest => some (rest.dropWhile isGap)
  | ' ' :: _ | '\t' :: _ =>
    match skipSpaces cs with
    | [] => some []
    | '\n' :: rest => some (rest.dropWhile isGap)
    | _ => none
  | _ => none

def basicText : Nat → Reading (List Char)
  | 0, _ => none
  | _ + 1, '"' :: cs => some ([], cs)
  | fuel + 1, '\\' :: cs => do
    let (c, cs) ← escape cs
    let (text, cs) ← basicText fuel cs
    return (c :: text, cs)
  | fuel + 1, c :: cs => do
    if isControl c then none else
    let (text, cs) ← basicText fuel cs
    return (c :: text, cs)
  | _ + 1, [] => none

def literalText : Reading (List Char)
  | '\'' :: cs => some ([], cs)
  | c :: cs => do
    if isControl c then none else
    let (text, cs) ← literalText cs
    return (c :: text, cs)
  | [] => none

/-- Up to two quotes that stand before the three closing ones belong to the text. -/
def spareQuotes (mark : Char) : List Char → List Char × List Char
  | a :: b :: cs =>
    if a == mark && b == mark then ([mark, mark], cs)
    else if a == mark then ([mark], b :: cs)
    else ([], a :: b :: cs)
  | [a] => if a == mark then ([mark], []) else ([], [a])
  | [] => ([], [])

def longBasicText : Nat → Reading (List Char)
  | 0, _ => none
  | _ + 1, '"' :: '"' :: '"' :: cs => some (spareQuotes '"' cs)
  | fuel + 1, '\\' :: cs =>
    match cs with
    | ' ' :: _ | '\t' :: _ | '\n' :: _ => do longBasicText fuel (← hiddenBreak? cs)
    | _ => do
      let (c, cs) ← escape cs
      let (text, cs) ← longBasicText fuel cs
      return (c :: text, cs)
  | fuel + 1, c :: cs => do
    if isControl c && c != '\n' then none else
    let (text, cs) ← longBasicText fuel cs
    return (c :: text, cs)
  | _ + 1, [] => none

def longLiteralText : Reading (List Char)
  | '\'' :: '\'' :: '\'' :: cs => some (spareQuotes '\'' cs)
  | c :: cs => do
    if isControl c && c != '\n' then none else
    let (text, cs) ← longLiteralText cs
    return (c :: text, cs)
  | [] => none

/-- An end of line right after three opening quotes is no part of the text. -/
def skipFirstBreak : List Char → List Char
  | '\n' :: cs => cs
  | cs => cs

def quotedText : Reading String
  | '"' :: '"' :: '"' :: cs => done (longBasicText (cs.length + 1) (skipFirstBreak cs))
  | '"' :: cs => done (basicText (cs.length + 1) cs)
  | '\'' :: '\'' :: '\'' :: cs => done (longLiteralText (skipFirstBreak cs))
  | '\'' :: cs => done (literalText cs)
  | _ => none
where
  done (r : Option (List Char × List Char)) : Option (String × List Char) :=
    r.map fun (text, cs) => (String.ofList text, cs)

/-! ## Keys -/

def isBare (c : Char) : Bool :=
  c.isAlphanum || c == '-' || c == '_'

def keyPart : Reading String
  | '"' :: cs => (basicText (cs.length + 1) cs).map fun (text, cs) => (String.ofList text, cs)
  | '\'' :: cs => (literalText cs).map fun (text, cs) => (String.ofList text, cs)
  | cs =>
    match cs.takeWhile isBare with
    | [] => none
    | name => some (String.ofList name, cs.dropWhile isBare)

def keyParts : Nat → Reading (List String)
  | 0, _ => none
  | fuel + 1, cs => do
    let (name, cs) ← keyPart cs
    match skipSpaces cs with
    | '.' :: cs => do
      let (names, cs) ← keyParts fuel (skipSpaces cs)
      return (name :: names, cs)
    | cs => return ([name], cs)

def key (cs : List Char) : Option (List String × List Char) :=
  keyParts (cs.length + 1) cs

/-! ## Numbers -/

/-- Digits with single underscores between them, after a first one. -/
def moreDigits (isDigit : Char → Bool) : List Char → List Char × List Char
  | '_' :: c :: cs =>
    if isDigit c then
      let (digits, rest) := moreDigits isDigit cs
      ('_' :: c :: digits, rest)
    else ([], '_' :: c :: cs)
  | c :: cs =>
    if isDigit c then
      let (digits, rest) := moreDigits isDigit cs
      (c :: digits, rest)
    else ([], c :: cs)
  | [] => ([], [])

def digits (isDigit : Char → Bool) : Reading (List Char)
  | c :: cs =>
    if isDigit c then
      let (more, rest) := moreDigits isDigit cs
      some (c :: more, rest)
    else none
  | [] => none

def number (base : Nat) (digits : List Char) : Nat :=
  (Numeral.nat? base (digits.filter (· != '_'))).getD 0

def based : Reading Value
  | '0' :: 'x' :: cs => read 16 (fun c => (Text.Quoted.hexValue? c).isSome) cs
  | '0' :: 'b' :: cs => read 2 (fun c => c == '0' || c == '1') cs
  | '0' :: 'o' :: cs => read 8 (fun c => '0' ≤ c && c ≤ '7') cs
  | _ => none
where
  read (base : Nat) (isDigit : Char → Bool) (cs : List Char) : Option (Value × List Char) :=
    (digits isDigit cs).map fun (ds, rest) => (.integer (number base ds), rest)

def sign : List Char → List Char × List Char
  | '+' :: cs => (['+'], cs)
  | '-' :: cs => (['-'], cs)
  | cs => ([], cs)

def wholePart : Reading (List Char)
  | '0' :: cs => some (['0'], cs)
  | cs => digits Char.isDigit cs

def fractionPart : List Char → List Char × List Char
  | '.' :: cs =>
    match digits Char.isDigit cs with
    | some (ds, rest) => ('.' :: ds, rest)
    | none => ([], '.' :: cs)
  | cs => ([], cs)

def exponentPart (cs : List Char) : List Char × List Char :=
  match cs with
  | e :: rest =>
    if e == 'e' || e == 'E' then
      let (mark, rest) := sign rest
      match digits Char.isDigit rest with
      | some (ds, rest) => (e :: mark ++ ds, rest)
      | none => ([], cs)
    else ([], cs)
  | [] => ([], [])

/-- The integer that a sign and decimal digits write, unless there are too many of them. -/
def integer (mark whole : List Char) : Except Refusal Value :=
  let count := (whole.filter (· != '_')).length
  if Numeral.digitLimit < count then .error (.tooLong count)
  else
    let n : Int := number 10 whole
    .ok (.integer (if mark = ['-'] then -n else n))

def decimal (cs : List Char) : Option (Except Refusal Value × List Char) := do
  let (mark, rest) := sign cs
  let (whole, rest) ← wholePart rest
  let (fraction, rest) := fractionPart rest
  let (power, rest) := exponentPart rest
  if fraction.isEmpty && power.isEmpty then return (integer mark whole, rest)
  else return (.ok (.real (String.ofList (mark ++ whole ++ fraction ++ power))), rest)

def special (cs : List Char) : Option (Value × List Char) :=
  let (mark, rest) := sign cs
  match rest with
  | 'i' :: 'n' :: 'f' :: rest => some (.real (String.ofList (mark ++ ['i', 'n', 'f'])), rest)
  | 'n' :: 'a' :: 'n' :: rest => some (.real (String.ofList (mark ++ ['n', 'a', 'n'])), rest)
  | _ => none

/-! ## Dates and times -/

def fixed (width low high : Nat) (cs : List Char) : Option (Nat × List Char) :=
  let ds := cs.take width
  if ds.length = width && ds.all Char.isDigit then
    let n := number 10 ds
    if low ≤ n && n ≤ high then some (n, cs.drop width) else none
  else none

def mark (wanted : Char) : Reading Unit
  | c :: cs => if c == wanted then some ((), cs) else none
  | [] => none

def timeOfDay (cs : List Char) : Option (Unit × List Char) := do
  let (_, cs) ← fixed 2 0 23 cs
  let (_, cs) ← mark ':' cs
  let (_, cs) ← fixed 2 0 59 cs
  let (_, cs) ← mark ':' cs
  let (_, cs) ← fixed 2 0 59 cs
  match cs with
  | '.' :: rest =>
    if (rest.takeWhile Char.isDigit).isEmpty then return ((), cs)
    else return ((), rest.dropWhile Char.isDigit)
  | _ => return ((), cs)

def zone (cs : List Char) : List Char :=
  let given : Option (List Char) := do
    match cs with
    | 'Z' :: rest | 'z' :: rest => return rest
    | '+' :: rest | '-' :: rest =>
      let (_, rest) ← fixed 2 0 23 rest
      let (_, rest) ← mark ':' rest
      let (_, rest) ← fixed 2 0 59 rest
      return rest
    | _ => none
  given.getD cs

def daysOf (year month : Nat) : Nat :=
  if month = 2 then
    if year % 4 = 0 && (year % 100 != 0 || year % 400 = 0) then 29 else 28
  else if month ∈ [4, 6, 9, 11] then 30 else 31

structure Date where
  year : Nat
  month : Nat
  day : Nat

/-- The date is one of the calendar, which starts with the year one. -/
def Date.isValid (d : Date) : Bool :=
  1 ≤ d.year && d.day ≤ daysOf d.year d.month

def date (cs : List Char) : Option (Date × List Char) := do
  let (year, cs) ← fixed 4 0 9999 cs
  let (_, cs) ← mark '-' cs
  let (month, cs) ← fixed 2 1 12 cs
  let (_, cs) ← mark '-' cs
  let (day, cs) ← fixed 2 1 31 cs
  return (⟨year, month, day⟩, cs)

/-- What follows a date: a time of day with its zone, if there is one. -/
def afterDate (cs : List Char) : List Char :=
  let timed : Option (List Char) := do
    match cs with
    | 'T' :: rest | 't' :: rest | ' ' :: rest =>
      let (_, rest) ← timeOfDay rest
      return zone rest
    | _ => none
  timed.getD cs

def written (cs rest : List Char) : String :=
  String.ofList (cs.take (cs.length - rest.length))

def moment (cs : List Char) : Option (Option Value × List Char) :=
  match date cs with
  | some (d, rest) =>
    let rest := afterDate rest
    some (if d.isValid then some (.moment (written cs rest)) else none, rest)
  | none =>
    (timeOfDay cs).map fun (_, rest) => (some (.moment (written cs rest)), rest)

/-! ## Values -/

def plain (cs : List Char) : Except Refusal (Value × List Char) := do
  match moment cs, based cs, decimal cs with
  | some (v, rest), _, _ => return (← v, rest)
  | none, some found, _ => return found
  | none, none, some (v, rest) => return (← v, rest)
  | none, none, none => special cs

mutual

def value : Nat → DocumentReading Value
  | 0, _ => .error .malformed
  | fuel + 1, cs =>
    match cs with
    | '"' :: _ | '\'' :: _ => do
      let (s, rest) ← quotedText cs
      return (.text s, rest)
    | 't' :: 'r' :: 'u' :: 'e' :: rest => .ok (.flag true, rest)
    | 'f' :: 'a' :: 'l' :: 's' :: 'e' :: rest => .ok (.flag false, rest)
    | '[' :: rest => (items fuel rest).map fun (vs, rest) => (.array vs, rest)
    | '\x7b' :: rest => inlineTable fuel rest
    | _ => plain cs

def items : Nat → DocumentReading (List Value)
  | 0, _ => .error .malformed
  | fuel + 1, cs => do
    match ← skipGaps cs.length cs with
    | ']' :: rest => return ([], rest)
    | cs =>
      let (v, cs) ← value fuel cs
      match ← skipGaps cs.length cs with
      | ']' :: rest => return ([v], rest)
      | ',' :: rest =>
        let (vs, rest) ← items fuel rest
        return (v :: vs, rest)
      | _ => throw .malformed

def inlineTable : Nat → DocumentReading Value
  | 0, _ => .error .malformed
  | fuel + 1, cs =>
    match skipSpaces cs with
    | '\x7d' :: rest => .ok (.table [], rest)
    | cs => (pairs fuel [] cs).map fun (entries, rest) => (.table (valuesOf entries), rest)

/-- The entries of a table written in place, after those that were read. -/
def pairs : Nat → Entries → DocumentReading Entries
  | 0, _, _ => .error .malformed
  | fuel + 1, entries, cs => do
    let (names, v, cs) ← pair fuel cs
    let entries ← entries.addKey 0 names v
    match skipSpaces cs with
    | '\x7d' :: rest => return (entries, rest)
    | ',' :: rest => pairs fuel entries (skipSpaces rest)
    | _ => throw .malformed

def pair : Nat → List Char → Except Refusal (List String × Value × List Char)
  | 0, _ => .error .malformed
  | fuel + 1, cs => do
    match ← key cs with
    | (names, '=' :: rest) =>
      let (v, rest) ← value fuel (skipSpaces rest)
      return (names, v, rest)
    | _ => throw .malformed

end

/-! ## Documents -/

/-- A document that is being read: the header in force, the number of headers so far, and the
entries of the outermost table. -/
structure State where
  header : List String := []
  part : Nat := 0
  entries : Entries := []

def headerLine (s : State) : Reading State
  | '[' :: cs => do
    match ← key (skipSpaces cs) with
    | (names, ']' :: ']' :: rest) =>
      return (⟨names, s.part + 1, ← s.entries.growTables names⟩, rest)
    | _ => none
  | cs => do
    match ← key (skipSpaces cs) with
    | (names, ']' :: rest) => return (⟨names, s.part + 1, ← s.entries.openTable names⟩, rest)
    | _ => none

def pairLine (s : State) (cs : List Char) : Except Refusal (State × List Char) := do
  let (names, v, rest) ← pair (4 * cs.length + 4) cs
  let entries ← s.entries.alongHeader (·.addKey s.part names v) s.header
  return ({ s with entries }, rest)

def line (s : State) : DocumentReading State
  | '[' :: cs => headerLine s cs
  | '#' :: cs => .ok (s, '#' :: cs)
  | cs => pairLine s cs

def lines : Nat → State → List Char → Except Refusal State
  | 0, _, _ => .error .malformed
  | fuel + 1, s, cs =>
    match skipSpaces cs with
    | [] => .ok s
    | '\n' :: rest => lines fuel s rest
    | cs => do
      let (s, rest) ← line s cs
      match ← skipComment (skipSpaces rest) with
      | [] => return s
      | '\n' :: rest => lines fuel s rest
      | _ => throw .malformed

def read (text : String) : Except Refusal (List (String × Value)) :=
  let cs := Text.joinBreaks text.toList
  (lines (cs.length + 1) {} cs).map fun s => valuesOf s.entries

end TypedLua.Toml
