import KeyLifecycle.Number.Binary64

/-!
# Numbers in text

Whole numbers have an optional sign and decimal digits, as many zeros in front as one likes.
Floating point numbers may have a point, with digits on at least one side, and an exponent; `inf`,
`infinity` and `nan` in any case count as numbers, too. Blanks are not allowed anywhere.
-/

namespace KeyLifecycle.Literal

/-- The sign in front of a text, and what follows it. -/
def sign (cs : List Char) : Bool × List Char :=
  match cs with
  | '-' :: rest => (true, rest)
  | '+' :: rest => (false, rest)
  | _ => (false, cs)

/-- The number that decimal digits stand for; there has to be one at least. -/
def digits? (cs : List Char) : Option Nat :=
  if cs.isEmpty || !cs.all Char.isDigit then none
  else some (cs.foldl (fun n c => 10 * n + (c.toNat - 48)) 0)

/-- A whole number with an optional sign. -/
def signed? (cs : List Char) : Option Int :=
  let (negative, rest) := sign cs
  (digits? rest).map fun n => if negative then -(n : Int) else n

/-- The whole number that a text without a minus sign is. -/
def natural? (text : String) : Option Nat :=
  match text.toList with
  | '+' :: rest => digits? rest
  | cs => digits? cs

/-- The whole number that a text is. -/
def int? (text : String) : Option Int := signed? text.toList

/-- The letters of a text in lower case, as far as they are ASCII. -/
def lower (text : String) : String := text.map Char.toLower

/-- The exponent behind a mantissa, if there is one; `none` if it is not a number. -/
def exponent? (cs : List Char) : Option Int :=
  match cs with
  | [] => some 0
  | e :: rest => if e = 'e' ∨ e = 'E' then signed? rest else none

/-- The floating point number of decimal notation. -/
def decimal? (negative : Bool) (cs : List Char) : Option Binary64 := do
  let whole := cs.takeWhile Char.isDigit
  let rest := cs.dropWhile Char.isDigit
  let (fraction, rest) := match rest with
    | '.' :: rest => (rest.takeWhile Char.isDigit, rest.dropWhile Char.isDigit)
    | _ => ([], rest)
  let digits ← digits? (whole ++ fraction)
  let exponent ← exponent? rest
  return Binary64.ofDecimal negative digits (exponent - fraction.length)

/-- The floating point number that a text is. -/
def float? (text : String) : Option Binary64 :=
  let (negative, rest) := sign text.toList
  let word := lower (String.ofList rest)
  if word = "inf" ∨ word = "infinity" then some (.infinity negative)
  else if word = "nan" then some .undefined
  else decimal? negative rest

end KeyLifecycle.Literal
