import JobSwarm.Task

/-!
# Sums of instants

Instants are added as counts of nanoseconds. What comes of a sum is not in a leap second, and such
instants are compared as counts. A deadline is a sum that stops at the end of the range.

Results:

* `add?_add?`, `add?_of_le`: what is added in parts, and in part.
* `lt_iff_toNanos`: instants that are not in a leap second are compared as counts.
* `starting_deadline`: a deadline is exact, or the last instant.
-/

namespace JobSwarm

namespace Time.Instant

variable {i j a b : Instant} {m n : Int}

/-- Whether an instant is not in a leap second. -/
def Plain (i : Instant) : Prop :=
  i.nanos < perSecond

instance (i : Instant) : Decidable i.Plain :=
  inferInstanceAs (Decidable (_ < _))

theorem plain_of_ofNanos? (h : ofNanos? n = some i) : i.Plain := by
  simp only [ofNanos?] at h
  split at h
  · cases h
    simp only [Plain, perSecond]
    omega
  · cases h

theorem plain_of_add? (h : i.add? n = some j) : j.Plain :=
  plain_of_ofNanos? h

theorem toNanos_add? (h : i.add? n = some j) : j.toNanos = i.toNanos + n :=
  toNanos_ofNanos? h

/-- What is added in two parts is added at once. -/
theorem add?_add? (h : i.add? m = some j) : j.add? n = i.add? (m + n) := by
  rw [add?, toNanos_add? h, add?, Int.add_assoc]

theorem isSome_ofNanos?_iff :
    (ofNanos? n).isSome ↔ firstSecond ≤ n / perSecond ∧ n / perSecond ≤ lastSecond := by
  simp only [ofNanos?]
  split <;> simp_all

theorem second_le (i : Instant) : firstSecond ≤ i.toNanos / perSecond := by
  have least := i.seconds_ge
  simp only [toNanos, perSecond]
  omega

/-- Where a sum exists, that with a part of it exists. -/
theorem add?_of_le (h : (i.add? m).isSome) (nonneg : 0 ≤ n) (le : n ≤ m) : (i.add? n).isSome := by
  have least := i.second_le
  rw [add?, isSome_ofNanos?_iff] at h ⊢
  simp only [perSecond] at h least ⊢
  omega

/-- Instants that are not in a leap second are compared as counts. -/
theorem lt_iff_toNanos (ha : a.Plain) (hb : b.Plain) : a < b ↔ a.toNanos < b.toNanos := by
  show a.before b = true ↔ _
  simp only [before, Bool.or_eq_true, Bool.and_eq_true, decide_eq_true_eq, beq_iff_eq]
  simp only [Plain, perSecond] at ha hb
  simp only [toNanos, perSecond]
  omega

theorem plain_last : last.Plain := by
  simp only [Plain, last, perSecond]
  omega

theorem toNanos_le_last (h : b.Plain) : b.toNanos ≤ last.toNanos := by
  have most := b.seconds_le
  simp only [Plain] at h
  simp only [toNanos, last]
  simp only [perSecond] at h ⊢
  omega

/-- Nothing but a leap second comes after the last instant. -/
theorem not_last_lt (h : b.Plain) : ¬last < b := by
  rw [lt_iff_toNanos plain_last h, Int.not_lt]
  exact toNanos_le_last h

/-- An instant that is not in a leap second is the instant of its count. -/
theorem ofNanos?_toNanos (h : i.Plain) : ofNanos? i.toNanos = some i := by
  obtain ⟨seconds, nanos, least, most, _⟩ := i
  simp only [Plain, perSecond] at h
  have second : (Instant.mk seconds nanos least most ‹_›).toNanos / perSecond = seconds := by
    simp only [toNanos, perSecond]
    omega
  have rest : ((Instant.mk seconds nanos least most ‹_›).toNanos % perSecond).toNat = nanos := by
    simp only [toNanos, perSecond]
    omega
  rw [ofNanos?, dif_pos (second.symm ▸ ⟨least, most⟩)]
  simp only [second, rest]

/-- The last instant, put off as far as there are instants, is the last. -/
theorem last_add? (n : Nat) : (last.add? n).getD last = last := by
  cases h : last.add? n with
  | none => rfl
  | some later =>
    have sum := toNanos_add? h
    have most := toNanos_le_last (plain_of_add? h)
    obtain rfl : n = 0 := by omega
    rw [add?, Int.natCast_zero, Int.add_zero, ofNanos?_toNanos plain_last] at h
    exact (Option.some_inj.1 h).symm

end Time.Instant

open Time (Instant)

/-- A deadline lies as long after the start as the task may take, or it is the last instant. -/
theorem Task.starting_deadline (id : Job.Id) (capability : String) (timeout : Nat) (now : Instant) :
    (Task.starting id capability timeout now).deadline.toNanos =
      min (now.toNanos + timeout) Instant.last.toNanos := by
  show ((now.add? timeout).getD .last).toNanos = _
  cases h : now.add? timeout with
  | some due =>
    have most := Instant.toNanos_le_last (Instant.plain_of_add? h)
    rw [Option.getD_some, Instant.toNanos_add? h] at *
    exact (Int.min_eq_left most).symm
  | none =>
    refine (Int.min_eq_right ?_).symm
    -- the sum is not too early, so it is too late
    have least := now.second_le
    rw [Instant.add?, Instant.ofNanos?_eq_none_iff] at h
    simp only [Option.getD_none, Instant.toNanos, Instant.last, Time.perSecond] at h least ⊢
    omega

end JobSwarm
