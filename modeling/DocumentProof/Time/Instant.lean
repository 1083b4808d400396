/-!
# Instants

A point in time in UTC, to the nanosecond. A leap second is the end of the second before it, whose
nanoseconds then go on to two seconds.
-/

namespace DocumentProof

/-- Seconds since 1970, from the start of the year -262143 to the end of the year 262142, and
nanoseconds after them. -/
structure Instant where
  seconds : Int
  nanos : Nat
  lower : -8334601228800 ≤ seconds
  upper : seconds ≤ 8210266876799
  short : nanos < 2000000000

namespace Instant

/-- Only the last second of a minute is followed by a leap second. -/
def ofSeconds? (seconds : Int) (nanos : Nat) : Option Instant :=
  if h : (-8334601228800 ≤ seconds ∧ seconds ≤ 8210266876799) ∧ nanos < 2000000000 ∧
      (nanos < 1000000000 ∨ seconds.fmod 60 = 59) then
    some ⟨seconds, nanos, h.1.1, h.1.2, h.2.1⟩
  else none

def ofMilliseconds? (n : Int) : Option Instant :=
  ofSeconds? (n.fdiv 1000) ((n.fmod 1000).toNat * 1000000)

/-- The instant with other nanoseconds in its second. -/
def withNanos? (i : Instant) (nanos : Nat) : Option Instant :=
  if h : nanos < 2000000000 then some { i with nanos := nanos, short := h } else none

/-- The start of the second. -/
def truncated (i : Instant) : Instant := (i.withNanos? 0).getD i

end Instant

end DocumentProof
