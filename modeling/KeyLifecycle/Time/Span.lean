/-!
# Spans of time

The clock of this library counts milliseconds. A message shows a span in the largest unit that
leaves something before the point: `100.001s`, `20ms`, and `0ns` for none.
-/

namespace KeyLifecycle

/-- A number of milliseconds. -/
abbrev Span := Nat

namespace Span

/-- The digits after the point, without zeros at the end. -/
def fraction (ms : Nat) : String :=
  if ms = 0 then ""
  else if ms % 100 = 0 then "." ++ toString (ms / 100)
  else if ms % 10 = 0 then "." ++ (if ms / 10 < 10 then "0" else "") ++ toString (ms / 10)
  else "." ++ (if ms < 10 then "00" else if ms < 100 then "0" else "") ++ toString ms

/-- The span in its unit. -/
def text (ms : Span) : String :=
  if ms = 0 then "0ns"
  else if ms < 1000 then toString ms ++ "ms"
  else toString (ms / 1000) ++ fraction (ms % 1000) ++ "s"

end Span

end KeyLifecycle
