import JobSwarm.Proofs.Keyed
import JobSwarm.Selection
import Mathlib.Data.List.MinMax
import Mathlib.Data.Prod.Lex

/-!
# The best choice

Candidates are ranked by tier, then by the tasks that they have completed, then by place. Whoever is
chosen is the least in rank of those that are idle and have the capability; a degraded one is chosen
only where no idle one is to be had, and where that is allowed. As long as no two candidates have
the same place, their order in the list is nothing to the choice.

Results:

* `Candidate.beats_iff`: a candidate is preferred to those behind it in rank.
* `Candidate.best?_eq_argmin`: the best candidate is the first of the least in rank.
* `Selection.choose_chosen`: the choice follows the rule.
* `Chosen.eq_of_perm`: the rule leaves one choice, in whatever order the candidates stand.
* `Selection.choose_optimal`: so the choice is the best there is, in whatever order they stand.
-/

namespace JobSwarm

/-! ## Ranks -/

namespace Candidate

variable {a b c : Candidate} {cs : List Candidate}

/-- What candidates are compared by: the tier, then the completed tasks, then the place. -/
def rank (c : Candidate) : ℕ ×ₗ ℕ ×ₗ ℕ :=
  toLex (c.tier.rank, toLex (c.tasksCompleted.toNat, c.ordinal.toNat))

theorem beats_iff : a.beats b = true ↔ a.rank < b.rank := by
  have tiers : (a.tier == b.tier) = true ↔ a.tier.rank = b.tier.rank := by
    rw [beq_iff_eq]
    exact ⟨congrArg _, Agent.Tier.rank_injective⟩
  have tasks : (a.tasksCompleted == b.tasksCompleted) = true ↔
      a.tasksCompleted.toNat = b.tasksCompleted.toNat := by
    rw [beq_iff_eq, UInt64.toNat_inj]
  simp only [beats, rank, Bool.or_eq_true, Bool.and_eq_true, decide_eq_true_eq, tiers, tasks,
    Prod.Lex.toLex_lt_toLex]
  exact Iff.rfl

/-- Candidates of the same rank have the same place. -/
theorem ordinal_eq_of_rank_eq (h : a.rank = b.rank) : a.ordinal = b.ordinal := by
  have places := congrArg (fun rank => (ofLex (ofLex rank).2).2) h
  exact UInt64.toNat_inj.1 places

/-- The best candidate is the first of the least in rank. -/
theorem best?_eq_argmin : best? cs = cs.argmin rank := by
  cases cs with
  | nil => rfl
  | cons first rest =>
    show some (rest.foldl (fun best next => if next.beats best then next else best) first) =
      rest.foldl (List.argAux fun b c => b.rank < c.rank) (some first)
    simp only [beats_iff]
    induction rest generalizing first with
    | nil => rfl
    | cons next rest ih =>
      simp only [List.foldl_cons, List.argAux]
      split
      · exact ih next
      · exact ih first

/-- A candidate of some status with a capability, of which none is before it in rank. -/
structure Least (capability : String) (status : Agent.Status) (cs : List Candidate)
    (c : Candidate) : Prop where
  mem : c ∈ cs
  capable : c.capability = capability
  stands : c.status = status
  rank_le : ∀ other ∈ cs, other.capability = capability → other.status = status →
    c.rank ≤ other.rank

/-- No candidate with a capability stands in the status. -/
def Lacking (capability : String) (status : Agent.Status) (cs : List Candidate) : Prop :=
  ∀ c ∈ cs, c.capability = capability → c.status ≠ status

variable {capability : String} {status : Agent.Status} {others : List Candidate}

namespace Least

theorem not_lacking (least : Least capability status cs c) : ¬Lacking capability status cs :=
  fun lacking => lacking c least.mem least.capable least.stands

theorem perm (least : Least capability status cs c) (h : cs.Perm others) :
    Least capability status others c :=
  ⟨h.mem_iff.1 least.mem, least.capable, least.stands,
    fun other hmem => least.rank_le other (h.mem_iff.2 hmem)⟩

/-- Where all places differ, one candidate is the least. -/
theorem unique (least : Least capability status cs a) (least' : Least capability status cs b)
    (places : (cs.map (·.ordinal)).Nodup) : a = b := by
  have below := least.rank_le b least'.mem least'.capable least'.stands
  have above := least'.rank_le a least.mem least.capable least.stands
  exact Keyed.eq_of_key_eq places least.mem least'.mem
    (ordinal_eq_of_rank_eq (le_antisymm below above))

end Least

theorem Lacking.perm (lacking : Lacking capability status cs) (h : cs.Perm others) :
    Lacking capability status others :=
  fun c hmem => lacking c (h.mem_iff.2 hmem)

end Candidate

/-! ## The rule -/

open Candidate (Least Lacking)

/-- The rule by which candidates are chosen for a capability. -/
inductive Chosen (capability : String) (cs : List Candidate) :
    Fallback → Option Selection → Prop
  /-- The least in rank of the idle. -/
  | idle {fallback : Fallback} {c : Candidate} (least : Least capability .idle cs c) :
      Chosen capability cs fallback (some (.idle c.id))
  /-- For want of an idle one, the least in rank of the degraded. -/
  | degraded {c : Candidate} (want : Lacking capability .idle cs)
      (least : Least capability .degraded cs c) :
      Chosen capability cs .allowDegraded (some (.degraded c.id))
  /-- There is no idle one, and no other may be taken. -/
  | barred (want : Lacking capability .idle cs) : Chosen capability cs .idleOnly none
  /-- There is no idle and no degraded one. -/
  | exhausted {fallback : Fallback} (want : Lacking capability .idle cs)
      (want' : Lacking capability .degraded cs) : Chosen capability cs fallback none

namespace Chosen

variable {capability : String} {cs others : List Candidate} {fallback : Fallback}
  {choice choice' : Option Selection}

/-- Whoever is chosen is idle or degraded, and has the capability. -/
theorem available {selection : Selection}
    (chosen : Chosen capability cs fallback (some selection)) :
    ∃ c ∈ cs, c.id = selection.agentId ∧ c.capability = capability ∧
      (c.status = .idle ∨ c.status = .degraded) := by
  cases chosen with
  | idle least => exact ⟨_, least.mem, rfl, least.capable, .inl least.stands⟩
  | degraded _ least => exact ⟨_, least.mem, rfl, least.capable, .inr least.stands⟩

/-- The rule leaves one choice where all places differ, in whatever order the candidates stand. -/
theorem eq_of_perm (chosen : Chosen capability cs fallback choice)
    (chosen' : Chosen capability others fallback choice') (h : cs.Perm others)
    (places : (others.map (·.ordinal)).Nodup) : choice = choice' := by
  cases chosen with
  | idle least =>
    cases chosen' with
    | idle least' => rw [(least.perm h).unique least' places]
    | degraded want | barred want | exhausted want => exact absurd want (least.perm h).not_lacking
  | degraded want least =>
    cases chosen' with
    | idle least' => exact absurd (want.perm h) least'.not_lacking
    | degraded _ least' => rw [(least.perm h).unique least' places]
    | exhausted _ want' => exact absurd want' (least.perm h).not_lacking
  | barred want =>
    cases chosen' with
    | idle least' => exact absurd (want.perm h) least'.not_lacking
    | barred | exhausted => rfl
  | exhausted want want' =>
    cases chosen' with
    | idle least' => exact absurd (want.perm h) least'.not_lacking
    | degraded _ least' => exact absurd (want'.perm h) least'.not_lacking
    | barred | exhausted => rfl

end Chosen

namespace Selection

variable {capability : String} {status : Agent.Status} {cs : List Candidate}

theorem mem_eligible_iff {c : Candidate} :
    c ∈ eligible capability status cs ↔ c ∈ cs ∧ c.capability = capability ∧ c.status = status := by
  simp only [eligible, List.mem_filter, Bool.and_eq_true, beq_iff_eq]

theorem least_of_best? {c : Candidate}
    (h : Candidate.best? (eligible capability status cs) = some c) :
    Least capability status cs c := by
  rw [Candidate.best?_eq_argmin] at h
  obtain ⟨hmem, capable, stands⟩ := mem_eligible_iff.1 (List.argmin_mem h)
  refine ⟨hmem, capable, stands, fun other hother capable' stands' => ?_⟩
  exact List.le_of_mem_argmin (mem_eligible_iff.2 ⟨hother, capable', stands'⟩) h

theorem lacking_of_best? (h : Candidate.best? (eligible capability status cs) = none) :
    Lacking capability status cs := by
  rw [Candidate.best?_eq_argmin, List.argmin_eq_none] at h
  intro c hmem capable stands
  have among := mem_eligible_iff.2 ⟨hmem, capable, stands⟩
  rw [h] at among
  cases among

/-- Whatever candidates there are, the choice follows the rule. -/
theorem choose_chosen (capability : String) (cs : List Candidate) (fallback : Fallback) :
    Chosen capability cs fallback (choose capability cs fallback) := by
  unfold choose
  cases idle : Candidate.best? (eligible capability .idle cs) with
  | some c => exact .idle (least_of_best? idle)
  | none =>
    have want := lacking_of_best? idle
    cases fallback with
    | idleOnly => exact .barred want
    | allowDegraded =>
      dsimp only
      cases degraded : Candidate.best? (eligible capability .degraded cs) with
      | some c => exact .degraded want (least_of_best? degraded)
      | none => exact .exhausted want (lacking_of_best? degraded)

/-- How an agent is chosen for a capability. -/
structure Optimal (capability : String) (cs : List Candidate) (fallback : Fallback) : Prop where
  /-- The choice follows the rule. -/
  chosen : Chosen capability cs fallback (choose capability cs fallback)
  /-- Whoever is chosen is one of the candidates that are idle or degraded and have the
  capability. -/
  available : ∀ selection, choose capability cs fallback = some selection →
    ∃ c ∈ cs, c.id = selection.agentId ∧ c.capability = capability ∧
      (c.status = .idle ∨ c.status = .degraded)
  /-- A busy or offline candidate, or one of another capability, is never chosen: nobody goes by its
  identifier but itself. -/
  spared : ∀ c ∈ cs, (c.status = .busy ∨ c.status = .offline ∨ c.capability ≠ capability) →
    (∀ other ∈ cs, other.id = c.id → other = c) →
      ∀ selection, choose capability cs fallback = some selection → selection.agentId ≠ c.id
  /-- Someone is chosen if there is someone to choose. -/
  none_iff : choose capability cs fallback = none ↔ ∀ c ∈ cs, c.capability = capability →
    c.status ≠ .idle ∧ (fallback = .allowDegraded → c.status ≠ .degraded)
  /-- Where all places differ, the order of the candidates is nothing to the choice. -/
  orderless : (cs.map (·.ordinal)).Nodup → ∀ others, cs.Perm others →
    choose capability others fallback = choose capability cs fallback

theorem none_iff (capability : String) (cs : List Candidate) (fallback : Fallback) :
    choose capability cs fallback = none ↔ ∀ c ∈ cs, c.capability = capability →
      c.status ≠ .idle ∧ (fallback = .allowDegraded → c.status ≠ .degraded) := by
  have chosen := choose_chosen capability cs fallback
  constructor
  · intro none
    rw [none] at chosen
    intro c hmem capable
    cases chosen with
    | barred want => exact ⟨want c hmem capable, nofun⟩
    | exhausted want want' => exact ⟨want c hmem capable, fun _ => want' c hmem capable⟩
  · intro unfit
    refine Option.eq_none_iff_forall_ne_some.2 fun selection some => ?_
    rw [some] at chosen
    cases chosen with
    | idle least => exact (unfit _ least.mem least.capable).1 least.stands
    | degraded _ least => exact (unfit _ least.mem least.capable).2 rfl least.stands

theorem available_of_choose {capability : String} {fallback : Fallback} {selection : Selection}
    (h : choose capability cs fallback = some selection) :
    ∃ c ∈ cs, c.id = selection.agentId ∧ c.capability = capability ∧
      (c.status = .idle ∨ c.status = .degraded) := by
  have chosen := choose_chosen capability cs fallback
  rw [h] at chosen
  exact chosen.available

/-- Whatever capability is asked for, of whatever candidates, and whether or not degraded ones are
allowed: the choice is the best there is, and does not hang on their order. -/
theorem choose_optimal (capability : String) (cs : List Candidate) (fallback : Fallback) :
    Optimal capability cs fallback where
  chosen := choose_chosen capability cs fallback
  available _ := available_of_choose
  spared c hmem unfit own selection some same := by
    obtain ⟨chosen, hchosen, hid, capable, stands⟩ := available_of_choose some
    rw [own chosen hchosen (hid.trans same)] at capable stands
    rcases unfit with busy | offline | other
    · rcases stands with stands | stands <;> cases busy.symm.trans stands
    · rcases stands with stands | stands <;> cases offline.symm.trans stands
    · exact other capable
  none_iff := none_iff capability cs fallback
  orderless places others h :=
    (choose_chosen capability others fallback).eq_of_perm (choose_chosen capability cs fallback)
      h.symm places

/-- Three agents, of which the cheapest is degraded and the next has worked more than the last. -/
def threeCandidates : List Candidate :=
  [⟨⟨"swift-1"⟩, .fast, "compress", .degraded, 0, 0⟩,
    ⟨⟨"zstd-1"⟩, .balanced, "compress", .idle, 5, 1⟩,
    ⟨⟨"zstd-2"⟩, .balanced, "compress", .idle, 2, 2⟩]

/-- The last of three is chosen, also when they stand the other way round. -/
theorem choose_optimal_of_three :
    choose "compress" threeCandidates .allowDegraded = some (.idle ⟨"zstd-2"⟩) ∧
      choose "compress" threeCandidates.reverse .allowDegraded = some (.idle ⟨"zstd-2"⟩) := by
  have forward : choose "compress" threeCandidates .allowDegraded = some (.idle ⟨"zstd-2"⟩) := by
    decide +kernel
  have optimal := choose_optimal "compress" threeCandidates .allowDegraded
  refine ⟨forward, ?_⟩
  rw [optimal.orderless (by decide) _ (List.reverse_perm _).symm, forward]

end Selection

end JobSwarm
