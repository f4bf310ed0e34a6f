/-!
# UTF-8

A text is stored as bytes: one below `0x80` stands for itself, and any other character is a leading
byte followed by one to three continuation bytes.
-/

namespace TypedLua.Text.Utf8

inductive Reason where
  | start
  | continuation
  | truncated
  deriving Repr, DecidableEq

structure Flaw where
  reason : Reason
  position : Nat
  lead : UInt8
  size : Nat
  deriving Repr, DecidableEq

def Reason.message : Reason → String
  | start => "invalid start byte"
  | continuation => "invalid continuation byte"
  | truncated => "unexpected end of data"

def byteText (b : UInt8) : String :=
  "0x" ++ String.ofList [Nat.digitChar (b.toNat / 16), Nat.digitChar (b.toNat % 16)]

def Flaw.message (f : Flaw) : String :=
  let place :=
    if f.size = 1 then s!"byte {byteText f.lead} in position {f.position}"
    else s!"bytes in position {f.position}-{f.position + f.size - 1}"
  s!"'utf-8' codec can't decode {place}: {f.reason.message}"

/-- What a leading byte announces: the number of continuation bytes, the range of the first of
them, and the high bits of the character. -/
structure Lead where
  tails : Nat
  low : Nat
  high : Nat
  bits : Nat
  deriving Repr, DecidableEq

def lead? (b : UInt8) : Option Lead :=
  let n := b.toNat
  if n < 0x80 then some ⟨0, 0x80, 0xbf, n⟩
  else if n < 0xc2 then none
  else if n < 0xe0 then some ⟨1, 0x80, 0xbf, n - 0xc0⟩
  else if n < 0xf0 then
    some ⟨2, if n = 0xe0 then 0xa0 else 0x80, if n = 0xed then 0x9f else 0xbf, n - 0xe0⟩
  else if n < 0xf5 then
    some ⟨3, if n = 0xf0 then 0x90 else 0x80, if n = 0xf4 then 0x8f else 0xbf, n - 0xf0⟩
  else none

/-- Reads `tails` continuation bytes, the first of them between `low` and `high`; `taken` counts the
bytes of the character so far. -/
def tails : (count low high bits taken : Nat) → List UInt8 → Except (Reason × Nat) Nat
  | 0, _, _, bits, _, _ => .ok bits
  | _ + 1, _, _, _, taken, [] => .error (.truncated, taken)
  | count + 1, low, high, bits, taken, b :: bs =>
    if low ≤ b.toNat ∧ b.toNat ≤ high then
      tails count 0x80 0xbf (64 * bits + (b.toNat - 0x80)) (taken + 1) bs
    else .error (.continuation, taken)

def decodeFrom (position : Nat) : List UInt8 → Except Flaw (List Char)
  | [] => .ok []
  | b :: bs =>
    match lead? b with
    | none => .error ⟨.start, position, b, 1⟩
    | some lead =>
      match tails lead.tails lead.low lead.high lead.bits 1 bs with
      | .error (reason, size) => .error ⟨reason, position, b, size⟩
      | .ok n =>
        match decodeFrom (position + 1 + lead.tails) (bs.drop lead.tails) with
        | .ok cs => .ok (Char.ofNat n :: cs)
        | .error flaw => .error flaw
  termination_by bytes => bytes.length
  decreasing_by simp only [List.length_cons, List.length_drop]; omega

def decode (bytes : List UInt8) : Except Flaw String :=
  (decodeFrom 0 bytes).map String.ofList

def encode (text : String) : List UInt8 :=
  text.toUTF8.toList

end TypedLua.Text.Utf8
