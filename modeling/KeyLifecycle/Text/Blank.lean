/-!
# Blank characters

The characters of the property *White_Space*, and the text that is left when every run of them
counts as one space (`squeeze`).
-/

namespace KeyLifecycle.Text

/-- Whether a character is blank. -/
def isBlank (c : Char) : Bool :=
  let n := c.toNat
  (9 ≤ n && n ≤ 13) || n == 0x20 || n == 0x85 || n == 0xA0 || n == 0x1680 ||
    (0x2000 ≤ n && n ≤ 0x200A) || n == 0x2028 || n == 0x2029 || n == 0x202F || n == 0x205F ||
    n == 0x3000

/-- Copies a list of characters, where blanks between two others become one space and all other
blanks vanish. `started` says that a character has been copied, `pending` that blanks follow it. -/
def squeezeChars (started pending : Bool) : List Char → List Char
  | [] => []
  | c :: rest =>
    if isBlank c then squeezeChars started true rest
    else if started && pending then ' ' :: c :: squeezeChars true false rest
    else c :: squeezeChars true false rest

/-- A text with every run of blanks as one space and none at its ends. -/
def squeeze (text : String) : String :=
  String.ofList (squeezeChars false false text.toList)

/-- A text without the blanks at its end. -/
def dropEndBlanks (chars : List Char) : List Char := (chars.reverse.dropWhile isBlank).reverse

/-- A text without the blanks at its ends. -/
def trimBlanks (chars : List Char) : List Char := dropEndBlanks (chars.dropWhile isBlank)

end KeyLifecycle.Text
