import JobSwarm.Json.Record

/-!
# Tiers and states of agents
-/

namespace JobSwarm.Agent

/-- What an agent costs. The cheaper is preferred. -/
inductive Tier where
  | fast
  | balanced
  | deep
  deriving DecidableEq, Repr

namespace Tier

instance : Inhabited Tier := ⟨.balanced⟩

/-- The place in the order, from 0 for the cheapest. -/
def rank : Tier → Nat
  | .fast => 0
  | .balanced => 1
  | .deep => 2

instance : LT Tier := ⟨fun a b => a.rank < b.rank⟩

instance (a b : Tier) : Decidable (a < b) :=
  inferInstanceAs (Decidable (a.rank < b.rank))

instance : Ord Tier := ⟨fun a b => compare a.rank b.rank⟩

def name : Tier → String
  | .fast => "fast"
  | .balanced => "balanced"
  | .deep => "deep"

def ofName? : String → Option Tier
  | "fast" => some .fast
  | "balanced" => some .balanced
  | "deep" => some .deep
  | _ => none

def read : Json.Reads Tier :=
  Json.choice ofName?

def write (tier : Tier) : Json :=
  .text tier.name

theorem ofName?_name (tier : Tier) : ofName? tier.name = some tier := by
  cases tier <;> rfl

theorem rank_injective {a b : Tier} (h : a.rank = b.rank) : a = b := by
  cases a <;> cases b <;> simp_all [rank]

end Tier

/-- How an agent stands (`AgentStatus`). A degraded one failed too often of late and is only taken
when there is no other; an offline one was taken out by an operator. -/
inductive Status where
  | idle
  | busy
  | degraded
  | offline
  deriving DecidableEq, Repr

namespace Status

instance : Inhabited Status := ⟨.idle⟩

def name : Status → String
  | .idle => "idle"
  | .busy => "busy"
  | .degraded => "degraded"
  | .offline => "offline"

def ofName? : String → Option Status
  | "idle" => some .idle
  | "busy" => some .busy
  | "degraded" => some .degraded
  | "offline" => some .offline
  | _ => none

def read : Json.Reads Status :=
  Json.choice ofName?

def write (status : Status) : Json :=
  .text status.name

theorem ofName?_name (status : Status) : ofName? status.name = some status := by
  cases status <;> rfl

end Status

end JobSwarm.Agent
