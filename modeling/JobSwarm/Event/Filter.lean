import JobSwarm.Event.Basic

/-!
# Filters on events

A filter names topics, a job, an agent, or none of them. What it does not name it does not ask for.

Results:

* `accepts_iff`: an event passes when it meets every criterion that is named.
-/

namespace JobSwarm.Event

/-- What a subscriber wants to hear (`EventFilter`). -/
structure Filter where
  /-- Only these topics. -/
  topics : Option (List Topic) := none
  /-- Only events about this job. -/
  job : Option Job.Id := none
  /-- Only events about this agent. -/
  agent : Option Agent.Id := none
  deriving DecidableEq

namespace Filter

/-- A filter that everything passes (`all`). -/
def all : Filter := {}

/-- A filter on some topics (`types`). -/
def onTopics (topics : List Topic) : Filter :=
  { topics := some topics }

/-- Whether a notice meets every criterion (`matches`). -/
def accepts (filter : Filter) (notice : Notice) : Bool :=
  filter.topics.all (fun topics => topics.contains notice.topic) &&
    filter.job.all (fun id => notice.jobId? == some id) &&
    filter.agent.all (fun id => notice.agentId? == some id)

theorem accepts_iff (filter : Filter) (notice : Notice) :
    filter.accepts notice = true ↔
      (∀ topics, filter.topics = some topics → notice.topic ∈ topics) ∧
        (∀ id, filter.job = some id → notice.jobId? = some id) ∧
          ∀ id, filter.agent = some id → notice.agentId? = some id := by
  obtain ⟨topics, job, agent⟩ := filter
  cases topics <;> cases job <;> cases agent <;> simp [accepts, and_assoc]

/-- Reads a filter from its members `types`, `job` and `agent`; whatever has no members is the
filter that everything passes. -/
def read : Json.Reads Filter := fun value => do
  let members := (Json.members? value).getD []
  return {
    topics := ← Json.optional (Json.listOf Topic.read) members "types"
    job := ← Json.optional Job.Id.read members "job"
    agent := ← Json.optional Agent.Id.read members "agent" }

end Filter

end JobSwarm.Event
