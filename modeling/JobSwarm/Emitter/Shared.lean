import JobSwarm.Emitter.Basic

/-!
# The shared emitter

A process has one emitter for those who are not handed another. It is made when it is first asked
for, may be replaced, and may be taken away. All emitters that were ever shared are kept, so that
each can be told from the others by its place.
-/

namespace JobSwarm.Emitter

/-- The emitters of a process, and which of them is shared. -/
structure Shared where
  emitters : List Emitter := []
  /-- The place of the shared emitter. -/
  current : Option Nat := none

namespace Shared

/-- The shared emitter. -/
def emitter? (shared : Shared) : Option Emitter :=
  shared.current.bind fun place => shared.emitters[place]?

/-- Shares a new emitter, and tells which was shared before (`set_default_emitter`). -/
def install (shared : Shared) (emitter : Emitter) : Option Nat × Shared :=
  (shared.current, ⟨shared.emitters ++ [emitter], some shared.emitters.length⟩)

/-- The place of the shared emitter, which is made if there is none (`default_emitter_or_else`). -/
def getOrInstall (shared : Shared) (make : Emitter) : Nat × Shared :=
  match shared.current with
  | some place => (place, shared)
  | none => (shared.emitters.length, (shared.install make).2)

/-- Shares an emitter that was shared before, and tells which was shared until now
(`set_default_emitter`). -/
def putBack (shared : Shared) (place : Nat) : Option Nat × Shared :=
  (shared.current, { shared with current := some place })

/-- Shares no emitter any more, and tells which was shared (`take_default_emitter`). -/
def takeAway (shared : Shared) : Option Nat × Shared :=
  (shared.current, { shared with current := none })

/-- Replaces the emitter of a place, after it has been used. -/
def update (shared : Shared) (place : Nat) (change : Emitter → Emitter) : Shared :=
  { shared with emitters := shared.emitters.modify place change }

end Shared

end JobSwarm.Emitter
