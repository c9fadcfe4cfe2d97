import KeyLifecycle.Credential
import KeyLifecycle.Failure

/-!
# Drawing key material

A `Source` is a stream of random bytes with a position. A draw takes the next bytes from it, as many
as asked for or none at all: where the stream has too few left, or more than the source may give, or
the source refuses for a reason of its own, the position stays. A source can also break down in the
middle of a draw, and is of no use from then on.

`Generator.generate` makes two draws: eighteen bytes, whose text in the URL-safe alphabet of base64
is the access key, and then the sixty-four bytes of the secret. What the first draw took is gone
even if the second one fails.
-/

namespace KeyLifecycle

/-- A stream of random bytes, and how much of it has been used. -/
structure Source where
  /-- The byte at each position. -/
  byte : Nat → UInt8
  /-- How many bytes the stream has; without end if there is no such number. -/
  size : Option Nat
  /-- How many bytes may be drawn in all. -/
  limit : Option Nat
  /-- The reasons for which draws, counted from one, are refused whatever is left. -/
  refusal : Nat → Option String
  /-- The draw, counted from one, in which the source breaks down. -/
  breaksAt : Option Nat
  /-- How many bytes have been drawn. -/
  position : Nat
  /-- How many draws have been tried. -/
  draws : Nat
  /-- Whether the source has broken down. -/
  broken : Bool

namespace Source

/-- The byte at each position of the stream that a seed starts: the top byte of a state that is
multiplied and added to before each byte. -/
def seededByte (seed : UInt64) (position : Nat) : UInt8 :=
  ((position + 1).repeat
    (fun state => state * 6364136223846793005 + 1442695040888963407) seed >>> 56).toUInt8

/-- The endless stream of a seed. -/
def seeded (seed : UInt64) : Source :=
  ⟨seededByte seed, none, none, fun _ => none, none, 0, 0, false⟩

/-- A stream of given bytes, which may repeat for ever. -/
def ofBytes (bytes : List UInt8) (repeats : Bool) : Source :=
  let table := bytes.toArray
  ⟨fun position => table.getD (position % table.size) 0,
    if repeats ∧ !bytes.isEmpty then none else some bytes.length, none, fun _ => none, none,
    0, 0, false⟩

/-- Whether that many bytes can still be drawn. -/
def has (source : Source) (count : Nat) : Bool :=
  source.size.all (source.position + count ≤ ·) && source.limit.all (source.position + count ≤ ·)

/-- The outcome of a draw. -/
inductive Draw where
  | bytes (bytes : List UInt8)
  | refused (reason : String)
  | breakdown
  deriving DecidableEq

/-- Draws that many bytes, or none. -/
def draw (source : Source) (count : Nat) : Draw × Source :=
  let tried := { source with draws := source.draws + 1 }
  if source.breaksAt = some tried.draws then (.breakdown, { tried with broken := true })
  else
    match source.refusal tried.draws with
    | some reason => (.refused reason, tried)
    | none =>
      if source.has count then
        (.bytes ((List.range' source.position count).map source.byte),
          { tried with position := source.position + count })
      else (.refused "entropy pool exhausted", tried)

end Source

/-- What comes of asking for key material. -/
inductive Generated where
  | material (material : KeyMaterial)
  | failed (cause : Failure)
  /-- The source broke down while it was asked. -/
  | breakdown

/-- Where key material comes from. -/
inductive Generator where
  /-- It is drawn from a source. -/
  | random (source : Source)
  /-- It is read off a list, whose end counts as a lack of random bytes. -/
  | scripted (items : List (Except Failure KeyMaterial))

namespace Generator

/-- The number of bytes of an access key. -/
def accessKeyBytes : Nat := 18

/-- The number of bytes of a secret. -/
def secretBytes : Nat := 64

/-- The failure of a draw that was refused for some reason. -/
def unavailable (what reason : String) : Failure :=
  .entropyUnavailable ("Unable to generate " ++ what ++ ": " ++ reason)

/-- The key material of two draws. -/
def materialOf (access secret : List UInt8) : Generated :=
  match AccessKey.ofText (Text.Base64.encode .urlSafe access) with
  | .ok key => .material ⟨key, ⟨secret⟩⟩
  | .error cause => .failed cause

/-- Draws key material from a source. -/
def ofSource (source : Source) : Generated × Source :=
  if source.broken then (.failed (.entropyUnavailable "Randomness source poisoned"), source)
  else
    match source.draw accessKeyBytes with
    | (.breakdown, source) => (.breakdown, source)
    | (.refused reason, source) => (.failed (unavailable "access key" reason), source)
    | (.bytes access, source) =>
      match source.draw secretBytes with
      | (.breakdown, source) => (.breakdown, source)
      | (.refused reason, source) => (.failed (unavailable "secret key" reason), source)
      | (.bytes secret, source) => (materialOf access secret, source)

/-- The next key material, and the generator after it. -/
def generate : Generator → Generated × Generator
  | random source =>
    let (result, source) := ofSource source
    (result, random source)
  | scripted [] => (.failed (.entropyUnavailable "script exhausted"), scripted [])
  | scripted (.ok material :: rest) => (.material material, scripted rest)
  | scripted (.error cause :: rest) => (.failed cause, scripted rest)

end Generator

end KeyLifecycle
