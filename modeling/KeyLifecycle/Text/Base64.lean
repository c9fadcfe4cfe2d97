/-!
# Base64

Three bytes become four characters of six bits each; a last group of one or two bytes is filled up
with `=`. The two alphabets differ in the last two symbols only:

* `Alphabet.standard` ends in `+` and `/`, and writes secrets;
* `Alphabet.urlSafe` ends in `-` and `_`, and writes access keys.

Reading is strict: the length is a multiple of four, `=` stands at the very end only, and the bits
that the filling leaves unused are zero. So every text that is read has been written.
-/

namespace KeyLifecycle.Text.Base64

/-- The symbols for 62 and 63; the sixty-two before them are the letters and the digits. -/
structure Alphabet where
  symbol62 : Char
  symbol63 : Char
  deriving DecidableEq, Repr

/-- The alphabet of the general form. -/
def Alphabet.standard : Alphabet := ⟨'+', '/'⟩

/-- The alphabet whose symbols all may stand in an address. -/
def Alphabet.urlSafe : Alphabet := ⟨'-', '_'⟩

/-- The symbol of a number below sixty-four. -/
def Alphabet.symbol (a : Alphabet) (n : Nat) : Char :=
  if n < 26 then Char.ofNat (65 + n)
  else if n < 52 then Char.ofNat (71 + n)
  else if n < 62 then Char.ofNat (n - 4)
  else if n = 62 then a.symbol62
  else a.symbol63

/-- The number that a symbol stands for. -/
def Alphabet.value? (a : Alphabet) (c : Char) : Option Nat :=
  if 'A' ≤ c ∧ c ≤ 'Z' then some (c.toNat - 65)
  else if 'a' ≤ c ∧ c ≤ 'z' then some (c.toNat - 71)
  else if '0' ≤ c ∧ c ≤ '9' then some (c.toNat + 4)
  else if c = a.symbol62 then some 62
  else if c = a.symbol63 then some 63
  else none

/-- The characters of a list of bytes, three bytes at a time. -/
def encodeChars (a : Alphabet) : List UInt8 → List Char
  | [] => []
  | [x] =>
    [a.symbol (x.toNat / 4), a.symbol (x.toNat % 4 * 16), '=', '=']
  | [x, y] =>
    [a.symbol (x.toNat / 4), a.symbol (x.toNat % 4 * 16 + y.toNat / 16),
      a.symbol (y.toNat % 16 * 4), '=']
  | x :: y :: z :: rest =>
    a.symbol (x.toNat / 4) :: a.symbol (x.toNat % 4 * 16 + y.toNat / 16) ::
      a.symbol (y.toNat % 16 * 4 + z.toNat / 64) :: a.symbol (z.toNat % 64) ::
      encodeChars a rest

/-- The text of a list of bytes. -/
def encode (a : Alphabet) (bytes : List UInt8) : String :=
  String.ofList (encodeChars a bytes)

/-- The byte of a closing group that is filled with two `=`. -/
def lastOne? (a : Alphabet) (c₀ c₁ : Char) : Option (List UInt8) := do
  let v₀ ← a.value? c₀
  let v₁ ← a.value? c₁
  guard (v₁ % 16 = 0)
  return [UInt8.ofNat (v₀ * 4 + v₁ / 16)]

/-- The bytes of a closing group that is filled with one `=`. -/
def lastTwo? (a : Alphabet) (c₀ c₁ c₂ : Char) : Option (List UInt8) := do
  let v₀ ← a.value? c₀
  let v₁ ← a.value? c₁
  let v₂ ← a.value? c₂
  guard (v₂ % 4 = 0)
  return [UInt8.ofNat (v₀ * 4 + v₁ / 16), UInt8.ofNat (v₁ % 16 * 16 + v₂ / 4)]

/-- The bytes of a full group. -/
def group? (a : Alphabet) (c₀ c₁ c₂ c₃ : Char) : Option (List UInt8) := do
  let v₀ ← a.value? c₀
  let v₁ ← a.value? c₁
  let v₂ ← a.value? c₂
  let v₃ ← a.value? c₃
  return [UInt8.ofNat (v₀ * 4 + v₁ / 16), UInt8.ofNat (v₁ % 16 * 16 + v₂ / 4),
    UInt8.ofNat (v₂ % 4 * 64 + v₃)]

/-- Reads groups of four characters; only the last may be filled up. -/
def decodeChars? (a : Alphabet) : List Char → Option (List UInt8)
  | [] => some []
  | c₀ :: c₁ :: c₂ :: c₃ :: rest =>
    if rest = [] ∧ c₂ = '=' ∧ c₃ = '=' then lastOne? a c₀ c₁
    else if rest = [] ∧ c₃ = '=' then lastTwo? a c₀ c₁ c₂
    else do
      let bytes ← group? a c₀ c₁ c₂ c₃
      let more ← decodeChars? a rest
      return bytes ++ more
  | _ => none

/-- The bytes that a text stands for. -/
def decode? (a : Alphabet) (text : String) : Option (List UInt8) :=
  decodeChars? a text.toList

end KeyLifecycle.Text.Base64
