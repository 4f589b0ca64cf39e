import JobSwarm.Time.Calendar

/-!
# Instants

A point in time in seconds and nanoseconds since the epoch. Only the instants whose date lies
within a fixed range of years exist, so that sums can leave the range. A leap second is kept as
nanoseconds beyond the first thousand million of the second that it follows.

Results:

* `ofNanos?_eq_none_iff`: exactly the sums that leave the range have no instant.
* `toNanos_ofNanos?`: an instant that was found lies where it was looked for.
-/

namespace JobSwarm.Time

/-- Nanoseconds in a second. -/
def perSecond : Nat := 1000000000

/-- The first second: the year -262143 begins. -/
def firstSecond : Int := (Date.mk (-262143) 1 1).toDays * 86400

/-- The last second: the year 262142 ends. -/
def lastSecond : Int := ((Date.mk 262142 12 31).toDays + 1) * 86400 - 1

/-- A point in time. -/
structure Instant where
  seconds : Int
  nanos : Nat
  seconds_ge : firstSecond ≤ seconds
  seconds_le : seconds ≤ lastSecond
  nanos_lt : nanos < 2 * perSecond
  deriving DecidableEq

namespace Instant

/-- Earlier seconds come first; a leap second comes after the second that it follows. -/
def before (a b : Instant) : Bool :=
  a.seconds < b.seconds || (a.seconds == b.seconds && a.nanos < b.nanos)

instance : LT Instant := ⟨fun a b => a.before b = true⟩

instance (a b : Instant) : Decidable (a < b) :=
  inferInstanceAs (Decidable (a.before b = true))

/-- Nanoseconds since the epoch. -/
def toNanos (i : Instant) : Int :=
  i.seconds * perSecond + i.nanos

/-- The instant some nanoseconds after the epoch, if it is in range. -/
def ofNanos? (n : Int) : Option Instant :=
  if h : firstSecond ≤ n / perSecond ∧ n / perSecond ≤ lastSecond then
    some ⟨n / perSecond, (n % perSecond).toNat, h.1, h.2, by
      simp only [perSecond]
      omega⟩
  else none

/-- The epoch. -/
def epoch : Instant :=
  ⟨0, 0, by decide, by decide, by decide⟩

/-- The first instant. -/
def first : Instant :=
  ⟨firstSecond, 0, by decide, by decide, by decide⟩

/-- The last instant that is not in a leap second. -/
def last : Instant :=
  ⟨lastSecond, perSecond - 1, by decide, by decide, by decide⟩

/-- The instant some nanoseconds later, if it is in range. -/
def add? (i : Instant) (nanos : Int) : Option Instant :=
  ofNanos? (i.toNanos + nanos)

/-- The instant some nanoseconds later, or the end of the range on that side. -/
def addClamped (i : Instant) (nanos : Int) : Instant :=
  (i.add? nanos).getD (if nanos < 0 then first else last)

/-- The second of its day. -/
def secondOfDay (i : Instant) : Int :=
  i.seconds % 86400

/-- Nanoseconds from `b` to `a`. A leap second between two times of day counts: one on the earlier
side lies in between, one on the later side has been counted already. -/
def since (a b : Instant) : Int :=
  let plain := a.toNanos - b.toNanos
  if b.secondOfDay < a.secondOfDay ∧ perSecond ≤ b.nanos then plain + perSecond
  else if a.secondOfDay < b.secondOfDay ∧ perSecond ≤ a.nanos then plain - perSecond
  else plain

/-- Whole milliseconds of a span, toward zero. -/
def wholeMillis (nanos : Int) : Int :=
  nanos.tdiv 1000000

theorem ofNanos?_eq_none_iff (n : Int) :
    ofNanos? n = none ↔ n / perSecond < firstSecond ∨ lastSecond < n / perSecond := by
  simp only [ofNanos?]
  split <;> simp only [reduceCtorEq, true_iff, false_iff] <;> omega

theorem toNanos_ofNanos? {n : Int} {i : Instant} (h : ofNanos? n = some i) : i.toNanos = n := by
  simp only [ofNanos?] at h
  split at h
  · cases h
    simp only [toNanos, perSecond]
    omega
  · cases h

end Instant

end JobSwarm.Time
