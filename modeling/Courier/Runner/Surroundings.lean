import Courier.Delivery.Timeline
import Courier.Wire.Client

/-!
# Surroundings

What live calls take from outside: ids and offsets drawn at random, and the time of day.
-/

namespace Courier.Runner

structure Surroundings where
  random : StdGen
  now : Moment

/-- A random identifier: 16 bytes in base 16, with the marks of version 4. -/
def uuidChars (bytes : List Nat) : List Char :=
  let marked := bytes.zipIdx.map fun (b, place) =>
    if place = 6 then 64 + b % 16 else if place = 8 then 128 + b % 64 else b % 256
  marked.zipIdx.flatMap fun (b, place) =>
    (if [4, 6, 8, 10].contains place then ['-'] else []) ++
      [Text.hexDigit (b / 16), Text.hexDigit (b % 16)]

def draw (bound : Nat) (s : Surroundings) : Nat × Surroundings :=
  let (n, random) := randNat s.random 0 bound
  (n, { s with random })

def drawBytes : Nat → Surroundings → List Nat × Surroundings
  | 0, s => ([], s)
  | n + 1, s =>
    let (b, s) := draw 255 s
    let (bs, s) := drawBytes n s
    (b :: bs, s)

def freshId (s : Surroundings) : String × Surroundings :=
  let (bytes, s) := drawBytes 16 s
  (String.ofList (uuidChars bytes), s)

def freshBoundary (s : Surroundings) : String × Surroundings :=
  let (a, s) := freshId s
  let (b, s) := freshId s
  (a ++ b, s)

/-- The world of a client in a network; the pauses of requests without a jitter of their own are
shifted by at most `jitter`. -/
def liveWorld (net : Wire.Network) (jitter : UInt64) (c : Wire.Client) : World Surroundings where
  freshIds s :=
    let (requestId, s) := freshId s
    let (correlationId, s) := freshId s
    (⟨requestId, correlationId⟩, s)
  send s r _ :=
    let (boundary, s) := freshBoundary s
    let (offset, s) := draw (2 * (r.retry.jitter.getD jitter).toNat) s
    ((0, ⟨c.send net boundary r, s.now, 0, offset⟩), s)

def momentOf? (seconds nano : Nat) : Option Moment := do
  let day := seconds / 86400 + 719468
  let inEra := day % 146097
  let yearOfEra := (inEra - inEra / 1460 + inEra / 36524 - inEra / 146096) / 365
  let inYear := inEra - (365 * yearOfEra + yearOfEra / 4 - yearOfEra / 100)
  let march := (5 * inYear + 2) / 153
  let month := if march < 10 then march + 3 else march - 9
  let year := yearOfEra + day / 146097 * 400 + (if month ≤ 2 then 1 else 0)
  let date ← Date.of? year month (inYear - (153 * march + 2) / 5 + 1)
  let ofDay := seconds % 86400
  if h : nano < 1000000000 then
    return ⟨date, ofDay / 3600, ofDay / 60 % 60, ofDay % 60, nano, by omega, by omega, by omega,
      by omega⟩
  else none

end Courier.Runner
