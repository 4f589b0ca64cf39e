/-!
# Counts that must not overflow

Counts have 64 bits or 32. Where a sum does not fit, the operation that asked for it stops, and
what it did before stays done. `Step S` is the type of such operations on a state `S`.

Results:

* `Step.bind_eq_ok` and the laws beside it: how an operation that ended came to its end.
* `Step.bind_eq_error` and the laws beside it: where an operation stopped.
* `addWord_eq_ok_iff`, `addHalfWord_eq_ok_iff`: a checked sum is the true sum.
-/

namespace JobSwarm

/-- A sum did not fit. -/
inductive Overflow where
  | addition
  deriving DecidableEq, Repr

def Overflow.message : Overflow → String
  | .addition => "attempt to add with overflow"

/-- The sum of two counts of 64 bits, if it fits. -/
def addWord (a b : UInt64) : Except Overflow UInt64 :=
  if a.toNat + b.toNat < UInt64.size then .ok (a + b) else .error .addition

/-- The sum of two counts of 32 bits, if it fits. -/
def addHalfWord (a b : UInt32) : Except Overflow UInt32 :=
  if a.toNat + b.toNat < UInt32.size then .ok (a + b) else .error .addition

/-- An operation on a state that either ends with a value or stops at an overflow; either way it
leaves a state. -/
abbrev Step (S : Type) := EStateM Overflow S

namespace Step

variable {S T α β : Type}

/-- A value that is there unless a sum did not fit. -/
def ofSum : Except Overflow α → Step S α
  | .ok value => pure value
  | .error overflow => throw overflow

/-- An operation on one part of a state. -/
def onPart (get : S → T) (put : T → S → S) (step : Step T α) : Step S α := fun s =>
  match step (get s) with
  | .ok value t => .ok value (put t s)
  | .error overflow t => .error overflow (put t s)

/-! ## Operations that end -/

section Ended

variable {a : α} {b : β} {s t : S} {x : Step S α}

theorem pure_eq_ok {a' : α} : (pure a : Step S α) s = .ok a' t ↔ a = a' ∧ s = t := by
  simp [pure, EStateM.pure]

theorem bind_eq_ok {f : α → Step S β} :
    (x >>= f) s = .ok b t ↔ ∃ a u, x s = .ok a u ∧ f a u = .ok b t := by
  simp only [bind, EStateM.bind]
  cases x s with
  | ok a u =>
    constructor
    · exact fun h => ⟨a, u, rfl, h⟩
    · rintro ⟨_, _, h, h'⟩
      cases h
      exact h'
  | error => simp

/-- What has ended is gone on from where it ended. -/
theorem bind_of_ok {f : α → Step S β} (h : x s = .ok a t) : (x >>= f) s = f a t := by
  simp only [bind, EStateM.bind, h]

/-- Nothing follows what has stopped. -/
theorem bind_of_error {f : α → Step S β} {overflow : Overflow} (h : x s = .error overflow t) :
    (x >>= f) s = .error overflow t := by
  simp only [bind, EStateM.bind, h]

theorem map_eq_ok {f : α → β} : (f <$> x) s = .ok b t ↔ ∃ a, x s = .ok a t ∧ f a = b := by
  simp only [Functor.map, EStateM.map]
  cases x s with
  | ok a u =>
    constructor
    · intro h
      cases h
      exact ⟨a, rfl, rfl⟩
    · rintro ⟨_, h, rfl⟩
      cases h
      rfl
  | error => simp

theorem discard_eq_ok {u : Unit} : (discard x) s = .ok u t ↔ ∃ a, x s = .ok a t := by
  refine map_eq_ok.trans ?_
  simp

theorem get_eq_ok {s' : S} : (get : Step S S) s = .ok s' t ↔ s = s' ∧ s = t := by
  have h : (get : Step S S) s = .ok s s := rfl
  rw [h, EStateM.Result.ok.injEq]

/-- What reads the state goes on from where it is. -/
theorem get_bind {f : S → Step S α} : (get >>= f) s = f s s := rfl

/-- What changes the state goes on from the changed one. -/
theorem modify_bind {f : S → S} {g : PUnit → Step S α} :
    ((modify f : Step S PUnit) >>= g) s = g ⟨⟩ (f s) := rfl

theorem modify_eq_ok {f : S → S} {u : PUnit} :
    (modify f : Step S PUnit) s = .ok u t ↔ f s = t := by
  have h : (modify f : Step S PUnit) s = .ok u (f s) := rfl
  simp [h]

theorem modifyGet_eq_ok {f : S → α × S} :
    (modifyGet f : Step S α) s = .ok a t ↔ f s = (a, t) := by
  have h : (modifyGet f : Step S α) s = .ok (f s).1 (f s).2 := rfl
  rw [h, EStateM.Result.ok.injEq, Prod.ext_iff]

theorem ofSum_eq_ok {sum : Except Overflow α} :
    (ofSum sum : Step S α) s = .ok a t ↔ sum = .ok a ∧ s = t := by
  cases sum with
  | ok value =>
    rw [Except.ok.injEq]
    exact pure_eq_ok
  | error overflow =>
    have h : (ofSum (.error overflow) : Step S α) s = .error overflow s := rfl
    simp [h]

theorem onPart_eq_ok {get : S → T} {put : T → S → S} {step : Step T α} :
    onPart get put step s = .ok a t ↔ ∃ p, step (get s) = .ok a p ∧ put p s = t := by
  simp only [onPart]
  cases step (get s) with
  | ok a' p =>
    constructor
    · intro h
      cases h
      exact ⟨p, rfl, rfl⟩
    · rintro ⟨_, h, rfl⟩
      cases h
      rfl
  | error => simp

end Ended

/-! ## Operations that stop -/

section Stopped

variable {a : α} {b : β} {s t : S} {x : Step S α} {overflow : Overflow}

theorem not_pure_eq_error : ¬(pure a : Step S α) s = .error overflow t :=
  nofun

theorem not_get_eq_error : ¬(get : Step S S) s = .error overflow t :=
  nofun

theorem not_modify_eq_error {f : S → S} : ¬(modify f : Step S PUnit) s = .error overflow t :=
  nofun

theorem bind_eq_error {f : α → Step S β} :
    (x >>= f) s = .error overflow t ↔
      x s = .error overflow t ∨ ∃ a u, x s = .ok a u ∧ f a u = .error overflow t := by
  simp only [bind, EStateM.bind]
  cases x s with
  | ok a u =>
    constructor
    · exact fun h => .inr ⟨a, u, rfl, h⟩
    · rintro (h | ⟨_, _, h, h'⟩)
      · cases h
      · cases h
        exact h'
  | error => simp

theorem map_eq_error {f : α → β} :
    (f <$> x) s = .error overflow t ↔ x s = .error overflow t := by
  simp only [Functor.map, EStateM.map]
  cases x s <;> simp

theorem discard_eq_error : (discard x) s = .error overflow t ↔ x s = .error overflow t :=
  map_eq_error

theorem ofSum_eq_error {sum : Except Overflow α} :
    (ofSum sum : Step S α) s = .error overflow t ↔ sum = .error overflow ∧ s = t := by
  cases sum with
  | ok value => simp [ofSum, not_pure_eq_error]
  | error other =>
    have h : (ofSum (.error other) : Step S α) s = .error other s := rfl
    simp [h]

theorem onPart_eq_error {get : S → T} {put : T → S → S} {step : Step T α} :
    onPart get put step s = .error overflow t ↔
      ∃ p, step (get s) = .error overflow p ∧ put p s = t := by
  simp only [onPart]
  cases step (get s) with
  | ok => simp
  | error other p =>
    constructor
    · intro h
      cases h
      exact ⟨p, rfl, rfl⟩
    · rintro ⟨_, h, rfl⟩
      cases h
      rfl

end Stopped

end Step

/-- How a computation that gave a result came to it. -/
theorem bind_eq_ok {ε α β : Type} {x : Except ε α} {f : α → Except ε β} {b : β} :
    x >>= f = .ok b ↔ ∃ a, x = .ok a ∧ f a = .ok b := by
  cases x with
  | error fault => simp [bind, Except.bind]
  | ok a => simp [bind, Except.bind]

theorem addWord_eq_ok_iff (a b c : UInt64) :
    addWord a b = .ok c ↔ c.toNat = a.toNat + b.toNat := by
  have ha := a.toNat_lt
  have hb := b.toNat_lt
  have hc := c.toNat_lt
  simp only [addWord, UInt64.size]
  split
  · rw [Except.ok.injEq, ← UInt64.toNat_inj, UInt64.toNat_add]
    omega
  · simp only [reduceCtorEq, false_iff]
    omega

theorem addHalfWord_eq_ok_iff (a b c : UInt32) :
    addHalfWord a b = .ok c ↔ c.toNat = a.toNat + b.toNat := by
  have ha := a.toNat_lt
  have hb := b.toNat_lt
  have hc := c.toNat_lt
  simp only [addHalfWord, UInt32.size]
  split
  · rw [Except.ok.injEq, ← UInt32.toNat_inj, UInt32.toNat_add]
    omega
  · simp only [reduceCtorEq, false_iff]
    omega

end JobSwarm
