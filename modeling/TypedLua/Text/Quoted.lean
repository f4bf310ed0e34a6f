import TypedLua.Text.CodePoint
import TypedLua.Text.Printable

/-!
# Quoted text

The written form of a text inside one pair of quotes.
-/

namespace TypedLua.Text.Quoted

/-- The lower-case hexadecimal digits of `n`, exactly `width` of them, high digits dropped. -/
def hexDigits : (width : Nat) → (n : Nat) → List Char
  | 0, _ => []
  | width + 1, n => hexDigits width (n / 16) ++ [Nat.digitChar (n % 16)]

def numericEscape (n : Nat) : List Char :=
  if n < 0x100 then '\\' :: 'x' :: hexDigits 2 n
  else if n < 0x10000 then '\\' :: 'u' :: hexDigits 4 n
  else '\\' :: 'U' :: hexDigits 8 n

def encodeChar (mark c : Char) : List Char :=
  if c = '\\' || c = mark then ['\\', c]
  else if c = '\n' then ['\\', 'n']
  else if c = '\r' then ['\\', 'r']
  else if c = '\t' then ['\\', 't']
  else if isPrintable c then [c]
  else numericEscape (codePoint c)

def chooseMark (cs : List Char) : Char :=
  if '\'' ∈ cs ∧ '"' ∉ cs then '"' else '\''

def encode (cs : List Char) : List Char :=
  let mark := chooseMark cs
  mark :: cs.flatMap (encodeChar mark) ++ [mark]

def hexValue? (c : Char) : Option Nat :=
  if '0' ≤ c ∧ c ≤ '9' then some (c.toNat - '0'.toNat)
  else if 'a' ≤ c ∧ c ≤ 'f' then some (c.toNat - 'a'.toNat + 10)
  else if 'A' ≤ c ∧ c ≤ 'F' then some (c.toNat - 'A'.toNat + 10)
  else none

/-- The number written by hexadecimal digits, most significant first. -/
def hexNumber? (digits : List Char) : Option Nat :=
  digits.foldlM (fun n c => (hexValue? c).map (16 * n + ·)) 0

/-- Reads what follows an opening quote: the text up to the closing one, and what comes after. -/
def decodeFrom (mark : Char) : List Char → Option (List Char × List Char)
  | [] => none
  | '\\' :: 'x' :: a :: b :: cs =>
    match hexNumber? [a, b] with
    | some n => (decodeFrom mark cs).map fun (text, rest) => (ofCodePoint n :: text, rest)
    | none => none
  | '\\' :: 'u' :: a :: b :: c :: d :: cs =>
    match hexNumber? [a, b, c, d] with
    | some n => (decodeFrom mark cs).map fun (text, rest) => (ofCodePoint n :: text, rest)
    | none => none
  | '\\' :: 'U' :: a :: b :: c :: d :: e :: f :: g :: h :: cs =>
    match hexNumber? [a, b, c, d, e, f, g, h] with
    | some n => (decodeFrom mark cs).map fun (text, rest) => (ofCodePoint n :: text, rest)
    | none => none
  | '\\' :: c :: cs =>
    let plain : Option Char :=
      match c with
      | 'n' => some '\n'
      | 'r' => some '\r'
      | 't' => some '\t'
      | '\\' => some '\\'
      | '\'' => some '\''
      | '"' => some '"'
      | _ => none
    match plain with
    | some p => (decodeFrom mark cs).map fun (text, rest) => (p :: text, rest)
    | none => none
  | c :: cs =>
    if c = mark then some ([], cs)
    else (decodeFrom mark cs).map fun (text, rest) => (c :: text, rest)

/-- Reads a quoted text at the front, with what comes after its closing quote. -/
def decode : List Char → Option (List Char × List Char)
  | '\'' :: cs => decodeFrom '\'' cs
  | '"' :: cs => decodeFrom '"' cs
  | _ => none

end TypedLua.Text.Quoted

namespace TypedLua.Text

def quote (s : String) : String :=
  String.ofList (Quoted.encode s.toList)

end TypedLua.Text
