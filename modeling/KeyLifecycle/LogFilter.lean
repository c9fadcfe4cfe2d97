import KeyLifecycle.LogFilter.Directive

/-!
# Which events are logged

A filter is written as directives with commas between them (`LogDirective`). Of those that are for
an event the most special decides, and of equally special ones the last. Events for which there is
no directive are not logged; without any directive errors alone are.

`LogFilter.choose` takes the text of a filter for the purpose, if all of it can be read, and the
configured level otherwise, of which what cannot be read is left out.
-/

namespace KeyLifecycle

/-- A filter for events. -/
structure LogFilter where
  directives : List LogDirective
  deriving DecidableEq, Repr

namespace LogFilter

/-- Characters in pieces, at the commas. -/
def pieces : List Char → List (List Char)
  | [] => [[]]
  | c :: rest =>
    if c = ',' then [] :: pieces rest
    else
      match pieces rest with
      | [] => [[c]]
      | piece :: others => (c :: piece) :: others

/-- The pieces of a text that are not empty. -/
def written (text : String) : List (List Char) := (pieces text.toList).filter (!·.isEmpty)

/-- The filter that a text is, if every piece of it is a directive. -/
def parse (text : String) : Except LogDirective.Fault LogFilter :=
  ((written text).mapM LogDirective.ofText).map .mk

/-- The directives among pieces of a text, unless one of them breaks down. -/
def readable? : List (List Char) → Option (List LogDirective)
  | [] => some []
  | piece :: rest =>
    match LogDirective.ofText piece with
    | .ok d => (readable? rest).map (d :: ·)
    | .error .malformed => readable? rest
    | .error .breakdown => none

/-- The filter that a text is, where pieces that are no directive are left out. -/
def lenient? (text : String) : Option LogFilter := (readable? (written text)).map .mk

/-- The filter of a text for the purpose if it is one, and of the configured level otherwise, unless
reading breaks down. -/
def choose (override : Option String) (level : String) : Option LogFilter :=
  match override.map parse with
  | some (.ok filter) => some filter
  | some (.error .breakdown) => none
  | _ => lenient? level

/-- The directives that count: for errors alone if there are none. -/
def effective (f : LogFilter) : List LogDirective :=
  if f.directives.isEmpty then [⟨none, false, none, Level.error.rank⟩] else f.directives

/-- The directive that decides on an event. -/
def deciding? (f : LogFilter) (event : Event) : Option LogDirective :=
  (f.effective.filter (·.isFor event)).foldl (fun (best : Option LogDirective) d =>
    match best with
    | some b => if d.isAsSpecialAs b then some d else some b
    | none => some d) none

/-- Whether an event is logged. -/
def allows (f : LogFilter) (event : Event) : Bool :=
  (f.deciding? event).any fun d => event.level.rank ≤ d.rank

end LogFilter

end KeyLifecycle
