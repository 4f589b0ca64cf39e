import JobSwarm.Time.Instant

/-!
# The clock

Two readings belong together: the time of day, which can be set back, and a count of nanoseconds
that never goes back. Deadlines and stamps are taken from the first, intervals from the second. With
them comes a lot for what no code decides, the order in which a table is walked at that moment.
-/

namespace JobSwarm.Time

/-- A reading of the clock. -/
structure Clock where
  wall : Instant
  /-- Nanoseconds since the clock was started. -/
  steady : Nat := 0
  lot : Nat := 0

/-- A reading at the epoch. -/
def Clock.epoch (steady : Nat) : Clock where
  wall := .epoch
  steady := steady

/-- Nanoseconds in a millisecond. -/
def perMilli : Nat := 1000000

/-- The clock some milliseconds later. A negative span sets back the time of day alone. -/
def Clock.forward (clock : Clock) (millis : Int) : Clock where
  wall := clock.wall.addClamped (millis * perMilli)
  steady := clock.steady + millis.toNat * perMilli
  lot := clock.lot

end JobSwarm.Time
