/-!
# Bytes as hexadecimal text

Two lower-case digits a byte, the high half first. Reading accepts either case and nothing else, so
`decode?` is the inverse of `encode` up to the case of the letters.
-/

namespace KeyLifecycle.Text.Hex

/-- The digit of a number below sixteen. -/
def digit (n : Nat) : Char :=
  if n < 10 then Char.ofNat (48 + n) else Char.ofNat (87 + n)

/-- The number that a digit of either case stands for. -/
def value? (c : Char) : Option Nat :=
  if '0' ≤ c ∧ c ≤ '9' then some (c.toNat - 48)
  else if 'a' ≤ c ∧ c ≤ 'f' then some (c.toNat - 87)
  else if 'A' ≤ c ∧ c ≤ 'F' then some (c.toNat - 55)
  else none

/-- The two digits of a byte. -/
def encodeByte (b : UInt8) : List Char :=
  [digit (b.toNat / 16), digit (b.toNat % 16)]

/-- The digits of all bytes in order. -/
def encode (bytes : List UInt8) : String :=
  String.ofList (bytes.flatMap encodeByte)

/-- Reads pairs of digits; an odd digit at the end is refused. -/
def decodeChars? : List Char → Option (List UInt8)
  | [] => some []
  | high :: low :: rest => do
    let h ← value? high
    let l ← value? low
    let bytes ← decodeChars? rest
    return UInt8.ofNat (16 * h + l) :: bytes
  | [_] => none

/-- The bytes that a text of digit pairs stands for. -/
def decode? (text : String) : Option (List UInt8) :=
  decodeChars? text.toList

end KeyLifecycle.Text.Hex
