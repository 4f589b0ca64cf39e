import JobSwarm.Coordinator.Config
import JobSwarm.Proofs.Double.Exact
import JobSwarm.Proofs.Swarm.Summary

/-!
# Load and health

Idle and busy agents work, both alike. So an idle agent that is taken and a busy one that returns to
idle leave the share of those that work as it was. But the level is found from two shares that are
rounded each and added, and their sum depends on how many agents are idle. It is the same as before
if the share is short, for then nothing is lost, or if no threshold lies too near to it. A threshold
of few binary places, such as one half, is hit by short shares alone.

Results:

* `Health.operational_near`: the sum of the shares is near the share of those that work.
* `Health.operational_exact`: it is the share of those that work if that is short.
* `Config.level_congr`: so the level depends on that share alone if it is clear of the thresholds.
* `Config.clear_of_places`: as any is, of thresholds that have few binary places.
* `Session.Load.renews`: what load does to a swarm.
* `Run.load_keeps_level`: so it leaves the level as it was.
* `Run.load_moves_level`: a threshold at the share of those that work, and a level that moves.
-/

namespace JobSwarm.Swarm

open Double (IsZero Moderate Near Normal RoundedTo Short isZero_toFloat toFloat_normal
  toFloat_rounds unit)
open Time (Instant)

/-! ## Shares -/

namespace Health

variable {idle busy part total : UInt64}

theorem fraction_bounds (positive : 0 < part.toNat) (some : 0 < total.toNat) :
    (1 / 2 ^ 64 : ℚ) ≤ part.toNat / total.toNat ∧ (part.toNat / total.toNat : ℚ) ≤ 2 ^ 64 := by
  have part_least : (1 : ℚ) ≤ part.toNat := by exact_mod_cast positive
  have total_least : (1 : ℚ) ≤ total.toNat := by exact_mod_cast some
  have part_most : (part.toNat : ℚ) ≤ 2 ^ 64 := by exact_mod_cast part.toNat_lt.le
  have total_most : (total.toNat : ℚ) ≤ 2 ^ 64 := by exact_mod_cast total.toNat_lt.le
  have total_positive : (0 : ℚ) < total.toNat := by linarith
  constructor
  · exact div_le_div₀ (by linarith) part_least total_positive total_most
  · have whole : (part.toNat / total.toNat : ℚ) ≤ 2 ^ 64 / 1 :=
      div_le_div₀ (by positivity) part_most one_pos total_least
    rwa [div_one] at whole

theorem share_eq (some : 0 < total.toNat) : share part total = part.toFloat / total.toFloat := by
  refine if_neg fun zero => ?_
  rw [zero] at some
  exact absurd some (by decide)

theorem operational_eq (some : 0 < total.toNat) :
    operational idle busy total = share idle total + share busy total := by
  refine if_neg fun zero => ?_
  rw [zero] at some
  exact absurd some (by decide)

theorem share_zero (some : 0 < total.toNat) : IsZero (share 0 total) := by
  obtain ⟨y, normal, -⟩ := toFloat_rounds some
  rw [share_eq some]
  exact isZero_toFloat.div normal

/-- A share is near the quotient of the counts. -/
theorem share_near (positive : 0 < part.toNat) (some : 0 < total.toNat) :
    ∃ x, Normal (share part total) x ∧ Near (5 * unit) x (part.toNat / total.toNat) := by
  obtain ⟨x, normal, rounded⟩ := toFloat_rounds positive
  obtain ⟨y, normal', rounded'⟩ := toFloat_rounds some
  have positive' : (0 : ℚ) < part.toNat := by exact_mod_cast positive
  have some' : (0 : ℚ) < total.toNat := by exact_mod_cast some
  have quotient : Near (3 * unit) (x / y) (part.toNat / total.toNat) :=
    rounded.near.div rounded'.near positive' some'
  obtain ⟨low, high⟩ := fraction_bounds positive some
  have moderate : Moderate (x / y) :=
    quotient.moderate (by rw [unit]; norm_num) (by linarith) (by linarith)
  obtain ⟨z, divided, again⟩ := normal.div normal' moderate
  rw [share_eq some]
  refine ⟨z, divided, ?_⟩
  have both := quotient.rounded again.near (by positivity) (by norm_num) (by norm_num)
  norm_num at both
  exact both

/-- A share is the quotient of the counts, rounded once, if doubles can count as far. -/
theorem share_rounds (positive : 0 < part.toNat) (some : 0 < total.toNat)
    (few : part.toNat < 2 ^ 53) (few' : total.toNat < 2 ^ 53) :
    ∃ x, Normal (share part total) x ∧ RoundedTo (part.toNat / total.toNat) x := by
  obtain ⟨low, high⟩ := fraction_bounds positive some
  have moderate : Moderate (part.toNat / total.toNat) := by
    constructor
    · exact le_trans (by norm_num) low
    · exact high.trans (by norm_num)
  rw [share_eq some]
  exact (toFloat_normal positive few).div (toFloat_normal some few') moderate

/-- The part by which the share of the agents that work may be off. -/
def margin : ℚ := 1 / 2 ^ 49

theorem moderate_add {x y k : ℚ} (idles : 0 < idle.toNat) (busies : 0 < busy.toNat)
    (some : 0 < total.toNat) (near : Near k x (idle.toNat / total.toNat))
    (near' : Near k y (busy.toNat / total.toNat)) (little : k ≤ 1 / 2) : Moderate (x + y) := by
  obtain ⟨low, high⟩ := fraction_bounds idles some
  obtain ⟨low', high'⟩ := fraction_bounds busies some
  exact (near.add near').moderate little (by linarith) (by linarith)

/-- The sum of both shares is near the share of those that are idle or busy. -/
theorem operational_near (working : 0 < idle.toNat + busy.toNat) (some : 0 < total.toNat) :
    ∃ x, Normal (operational idle busy total) x ∧
      Near margin x ((idle.toNat + busy.toNat : ℚ) / total.toNat) := by
  rw [operational_eq some, add_div]
  have wider : 5 * unit ≤ margin := by rw [margin, unit]; norm_num
  have near_busy (busies : 0 < busy.toNat) := share_near busies some
  rcases Nat.eq_zero_or_pos idle.toNat with none | idles
  · have zero : idle = 0 := UInt64.toNat_inj.1 none
    obtain ⟨y, normal, near⟩ := near_busy (by omega)
    rw [none, Nat.cast_zero, zero_div, zero_add, zero]
    exact ⟨y, (share_zero some).add_normal normal, near.mono wider (by positivity)⟩
  obtain ⟨x, normal, near⟩ := share_near idles some
  rcases Nat.eq_zero_or_pos busy.toNat with none | busies
  · have zero : busy = 0 := UInt64.toNat_inj.1 none
    rw [none, Nat.cast_zero, zero_div, add_zero, zero]
    exact ⟨x, normal.add_zero (share_zero some), near.mono wider (by positivity)⟩
  obtain ⟨y, normal', near'⟩ := near_busy busies
  obtain ⟨z, added, again⟩ :=
    normal.add normal' (moderate_add idles busies some near near' (by rw [unit]; norm_num))
  have both := (near.add near').rounded again.near (by positivity) (by norm_num) (by norm_num)
  have wider' : (5 + 2) * unit ≤ margin := by rw [margin, unit]; norm_num
  exact ⟨z, added, both.mono wider' (by positivity)⟩

/-- The sum of both shares is the share of those that are idle or busy if that is short, and if
doubles can count the agents. -/
theorem operational_exact (working : 0 < idle.toNat + busy.toNat)
    (le : idle.toNat + busy.toNat ≤ total.toNat) (few : total.toNat < 2 ^ 53)
    (short : Short ((idle.toNat + busy.toNat : ℚ) / total.toNat)) :
    Normal (operational idle busy total) ((idle.toNat + busy.toNat : ℚ) / total.toNat) := by
  have some : 0 < total.toNat := by omega
  rw [operational_eq some]
  rw [add_div] at short ⊢
  have rounds_busy (busies : 0 < busy.toNat) := share_rounds busies some (by omega) few
  rcases Nat.eq_zero_or_pos idle.toNat with none | idles
  · have zero : idle = 0 := UInt64.toNat_inj.1 none
    obtain ⟨y, normal, rounded⟩ := rounds_busy (by omega)
    rw [none, Nat.cast_zero, zero_div, zero_add] at short ⊢
    rw [rounded.of_short short] at normal
    rw [zero]
    exact (share_zero some).add_normal normal
  obtain ⟨x, normal, rounded⟩ := share_rounds idles some (by omega) few
  rcases Nat.eq_zero_or_pos busy.toNat with none | busies
  · have zero : busy = 0 := UInt64.toNat_inj.1 none
    rw [none, Nat.cast_zero, zero_div, add_zero] at short ⊢
    rw [rounded.of_short short] at normal
    rw [zero]
    exact normal.add_zero (share_zero some)
  obtain ⟨y, normal', rounded'⟩ := rounds_busy busies
  obtain ⟨z, added, again⟩ := normal.add normal'
    (moderate_add idles busies some rounded.near rounded'.near (by rw [unit]; norm_num))
  have first : (0 : ℚ) < idle.toNat / total.toNat := by positivity
  have second : (0 : ℚ) < busy.toNat / total.toNat := by positivity
  rwa [RoundedTo.sum_short short first second rounded rounded' again] at added

end Health

/-- Whether it can be told on which side of the thresholds the share of those that work lies: it is
short, and nothing is rounded in the end, or it is not too near to either. -/
def Config.Clear (config : Config) (working total : Nat) : Prop :=
  Short ((working : ℚ) / total) ∧ total < 2 ^ 53 ∨
    Double.Clear Health.margin ((working : ℚ) / total) config.criticalBelow ∧
      Double.Clear Health.margin ((working : ℚ) / total) config.strainedBelow

/-- The level is that of the agents that work, however many of them are idle, if their share is
clear of the thresholds. -/
theorem Config.level_congr {config : Config} {idle busy idle' busy' total : UInt64}
    (working : 0 < idle.toNat + busy.toNat) (le : idle.toNat + busy.toNat ≤ total.toNat)
    (same : idle'.toNat + busy'.toNat = idle.toNat + busy.toNat)
    (clear : config.Clear (idle.toNat + busy.toNat) total.toNat) :
    config.level (Health.operational idle' busy' total) =
      config.level (Health.operational idle busy total) := by
  have some : 0 < total.toNat := by omega
  have same' : (idle'.toNat + busy'.toNat : ℚ) = idle.toNat + busy.toNat := by exact_mod_cast same
  unfold Config.Clear at clear
  push_cast at clear
  rcases clear with ⟨short, few⟩ | ⟨critical, strained⟩
  · have exact := Health.operational_exact working le few short
    have exact' := Health.operational_exact (same ▸ working) (same ▸ le) few (same' ▸ short)
    rw [same'] at exact'
    have alike (t : Float) : Health.operational idle' busy' total < t ↔
      Health.operational idle busy total < t := exact'.lt_congr exact fun _ _ => Iff.rfl
    simp only [Config.level, alike]
  · obtain ⟨x, normal, near⟩ := Health.operational_near working some
    obtain ⟨y, normal', near'⟩ := Health.operational_near (same ▸ working) some
    rw [same'] at near'
    have alike := normal'.lt_congr_of_near normal near' near critical
    have alike' := normal'.lt_congr_of_near normal near' near strained
    simp only [Config.level, alike, alike']

/-! ## Thresholds with few places -/

/-- Fractions with small denominators are the same or far apart. -/
theorem apart_of_places {k t p : Nat} {n : Int} (le : k ≤ t) (some : 0 < t)
    (few : t * 2 ^ p < 2 ^ 49) (apart : (k / t : ℚ) ≠ n / 2 ^ p) :
    Health.margin * (k / t : ℚ) < |(n / 2 ^ p : ℚ) - k / t| := by
  have some' : (0 : ℚ) < t := by exact_mod_cast some
  have whole : (k / t : ℚ) ≤ 1 := (div_le_one some').2 (by exact_mod_cast le)
  have difference : (n / 2 ^ p : ℚ) - k / t = ((n * t - 2 ^ p * k : Int) : ℚ) / (2 ^ p * t) := by
    push_cast
    rw [div_sub_div _ _ (by positivity) some'.ne']
  have one : (1 : ℚ) ≤ |((n * t - 2 ^ p * k : Int) : ℚ)| := by
    have nonzero : n * t - 2 ^ p * k ≠ 0 := by
      intro zero
      rw [zero, Int.cast_zero, zero_div] at difference
      exact apart (by linarith)
    exact_mod_cast Int.one_le_abs nonzero
  have few' : (2 ^ p * t : ℚ) < 2 ^ 49 := by
    rw [mul_comm]
    exact_mod_cast few
  have positive : (0 : ℚ) < 2 ^ p * t := by positivity
  calc Health.margin * (k / t : ℚ) ≤ Health.margin * 1 :=
        mul_le_mul_of_nonneg_left whole (by norm_num [Health.margin])
    _ < 1 / (2 ^ p * t) := by
        rw [Health.margin, mul_one]
        exact one_div_lt_one_div_of_lt positive few'
    _ ≤ |(n / 2 ^ p : ℚ) - k / t| := by
        rw [difference, abs_div, abs_of_pos positive]
        exact div_le_div_of_nonneg_right one positive.le

/-- A share that has few binary places is short. -/
theorem short_of_places {k t p : Nat} {n : Int} (positive : 0 < k) (le : k ≤ t)
    (few : t * 2 ^ p < 2 ^ 49) (share : (k / t : ℚ) = n / 2 ^ p) :
    Short (k / t : ℚ) ∧ t < 2 ^ 53 := by
  have places : 0 < 2 ^ p := Nat.two_pow_pos p
  have positive' : (0 : ℚ) < k := by exact_mod_cast positive
  have some : (0 : ℚ) < t := by exact_mod_cast positive.trans_le le
  have counts : n * t = k * 2 ^ p := by
    rw [div_eq_div_iff some.ne' (by positivity)] at share
    exact_mod_cast share.symm
  have more : 0 < n := by
    have product : 0 < n * t := by rw [counts]; positivity
    exact pos_of_mul_pos_left product (Int.natCast_nonneg t)
  have whole : (n : ℚ) / 2 ^ p ≤ 1 := share ▸ (div_le_one some).2 (by exact_mod_cast le)
  have most : n ≤ 2 ^ p := by
    rw [div_le_one (by positivity)] at whole
    exact_mod_cast whole
  have fewer : 2 ^ p < 2 ^ 49 := (Nat.le_mul_of_pos_left _ (by omega)).trans_lt few
  constructor
  · refine ⟨n.toNat, -p, by omega, ?_, ?_⟩
    · zify [more.le] at fewer ⊢
      omega
    · have same : ((n.toNat : Int) : ℚ) = n := by rw [Int.toNat_of_nonneg more.le]
      rw [share, zpow_neg, zpow_natCast, ← div_eq_mul_inv, ← same, Int.cast_natCast]
  · have fewer' := (Nat.le_mul_of_pos_right t places).trans_lt few
    omega

/-- Any share is clear of thresholds that have few binary places, if there are not too many agents
for that. -/
theorem Config.clear_of_places {config : Config} {k t p : Nat} (some : 0 < k) (le : k ≤ t)
    (few : t * 2 ^ p < 2 ^ 49)
    (critical : ∀ v, Double.value? config.criticalBelow = .some v → ∃ n : Int, v = n / 2 ^ p)
    (strained : ∀ v, Double.value? config.strainedBelow = .some v → ∃ n : Int, v = n / 2 ^ p) :
    config.Clear k t := by
  have more : 0 < t := by omega
  by_cases short : ∃ n : Int, (k / t : ℚ) = n / 2 ^ p
  · obtain ⟨n, share⟩ := short
    exact .inl (short_of_places some le few share)
  · right
    constructor
    · intro v stands
      obtain ⟨n, rfl⟩ := critical v stands
      exact apart_of_places le more few fun same => short ⟨n, same⟩
    · intro v stands
      obtain ⟨n, rfl⟩ := strained v stands
      exact apart_of_places le more few fun same => short ⟨n, same⟩

/-- So is it of the usual thresholds, one half and three quarters. -/
theorem Config.clear_of_usual {config : Config} {k t : Nat} (some : 0 < k) (le : k ≤ t)
    (few : t < 2 ^ 47) (critical : config.criticalBelow = 0.5)
    (strained : config.strainedBelow = 0.75) : config.Clear k t := by
  have half : Double.value? 0.5 = .some (((2 ^ 52 : Int) : ℚ) * 2 ^ (-53 : Int)) := rfl
  have most : Double.value? 0.75 = .some (((3 * 2 ^ 51 : Int) : ℚ) * 2 ^ (-53 : Int)) := rfl
  refine Config.clear_of_places some le (p := 2) (by omega) ?_ ?_
  · rw [critical, half]
    rintro _ ⟨⟩
    exact ⟨2, by norm_num⟩
  · rw [strained, most]
    rintro _ ⟨⟩
    exact ⟨3, by norm_num⟩

/-! ## Agents that work -/

/-- How many agents are idle or busy. -/
def working (agents : List Agent) : Nat :=
  agents.countP fun agent => agent.status == .idle || agent.status == .busy

theorem countP_idle_add_busy (agents : List Agent) :
    agents.countP (fun agent => agent.status = .idle) +
      agents.countP (fun agent => agent.status = .busy) = working agents := by
  unfold working
  induction agents with
  | nil => rfl
  | cons agent rest ih =>
    simp only [List.countP_cons]
    cases agent.status <;> simp <;> omega

variable {swarm : Swarm} {s t : Session}

/-- From one registry to another: there are as many agents, as many of them work, and they have
worked no less. -/
structure Bears (before after : Swarm) : Prop where
  config : after.config = before.config
  level : after.level = before.level
  length : after.agents.length = before.agents.length
  working : working after.agents = working before.agents
  anyone : 0 < Swarm.working before.agents
  sums : ∀ health, Health.ofAgents after.config after.agents = .ok health →
    ∃ health', Health.ofAgents before.config before.agents = .ok health'

/-- An agent that worked and still works is changed. -/
theorem Bears.modifyAgent {id : Agent.Id} {agent : Agent} (change : Agent → Agent)
    (found : swarm.agent? id = some agent) (keeps : ∀ other, other.id = id → (change other).id = id)
    (works : agent.status = .idle ∨ agent.status = .busy)
    (still : (change agent).status = .idle ∨ (change agent).status = .busy)
    (grows : Grows agent.metrics (change agent).metrics) (claimed : List Agent.Id) :
    swarm.Bears { swarm.modifyAgent id change with claimed := claimed } := by
  have alike {other : Agent} (mem : other ∈ swarm.agents) (same : other.id = id) : other = agent :=
    eq_of_agent? found mem same
  have agents : (swarm.modifyAgent id change).agents = _ := agents_modifyAgent change keeps
  refine ⟨rfl, rfl, ?_, ?_, ?_, ?_⟩
  · dsimp only
    rw [agents, List.length_map]
  · dsimp only
    rw [agents, Swarm.working, List.countP_map]
    refine List.countP_congr fun other mem => ?_
    rw [Function.comp_apply]
    split
    · next same =>
      rw [alike mem same]
      simp only [Bool.or_eq_true, beq_iff_eq, still, works]
    · rfl
  · exact List.countP_pos_iff.2 ⟨agent, (mem_of_agent? found).1, by simpa using works⟩
  · intro health sums
    dsimp only at sums
    rw [agents] at sums
    refine Health.ofAgents_ends_of_grows (fun other mem => ?_) sums
    split
    · next same =>
      rw [alike mem same]
      exact grows
    · exact .refl _

/-- The counts of a summary add up to those that work, in words that may go round. -/
theorem Health.idle_add_busy {config : Config} {agents : List Agent} {health : Health}
    (h : ofAgents config agents = .ok health) :
    health.idle + health.busy = .ofNat (working agents) := by
  obtain ⟨-, idle, busy, -⟩ := ofAgents_ok h
  rw [idle, busy, ← countP_idle_add_busy, UInt64.ofNat_add]
  rfl

theorem Health.toNat_idle_add_busy {config : Config} {agents : List Agent} {health : Health}
    (h : ofAgents config agents = .ok health) (fits : agents.length < UInt64.size) :
    health.idle.toNat + health.busy.toNat = working agents := by
  obtain ⟨-, idle, busy, -⟩ := ofAgents_ok h
  rw [idle, busy, toNat_count fits, toNat_count fits, countP_idle_add_busy]

/-! ## Load -/

namespace Session

/-- From one session to another: an idle agent was taken, when no degraded one had rested, or a busy
one was given back and returned to idle. -/
inductive Load (s t : Session) : Prop
  | takes {capability : String} {job : Option Job.Id} {now : Instant} {id : Agent.Id}
      {agent : Agent} (found : s.swarm.agent? id = some agent) (idle : agent.status = .idle)
      (tired : s.swarm.agents.filter (rested s.swarm.config now) = [])
      (acquires : acquire capability job now s = .ok (some id) t)
  | returns {id : Agent.Id} {outcome : Task.Outcome} {now : Instant} {agent : Agent}
      (found : s.swarm.agent? id = some agent) (busy : agent.status = .busy)
      (releases : release id outcome now s = .ok (.ok .idle) t)

/-- Load changes one agent that works and still works. -/
theorem Load.renews (load : s.Load t) :
    ∃ swarm change, s.Renews swarm [change] t ∧ s.swarm.Bears swarm := by
  cases load with
  | @takes _ job now id agent found idle tired acquires =>
    obtain ⟨none, -⟩ | ⟨u, ids, -, recovers, ends⟩ := acquire_renews acquires
    · cases none
    rw [recover_of_none_rested tired] at recovers
    cases recovers
    obtain ⟨none, -⟩ | ⟨chosen, given, choice, renews⟩ := ends
    · cases none
    cases given
    obtain ⟨found', -⟩ := passes_of_choice choice
    cases found.symm.trans found'
    exact 
      ⟨_, _, renews,
        .modifyAgent (fun agent => { agent with status := .busy, currentTask := job }) found
          (fun _ own => own) (.inl idle) (.inr rfl) (.refl _) _⟩
  | @returns id outcome now agent found busy releases =>
    obtain ⟨⟨_, refused⟩, -⟩ | ⟨other, counted, found', -, tallies, answers, renews⟩ :=
      release_renews releases
    · cases refused
    cases found.symm.trans found'
    have counts : Counted agent counted := by
      have counts := tally_counts outcome agent
      rw [tallies] at counts
      exact counts
    have idle : (discharged counted outcome s.swarm.config.failureThreshold now).status = .idle :=
      (Except.ok.inj answers).symm
    have same : (discharged counted outcome s.swarm.config.failureThreshold now).id = id := by
      rw [discharged_id, counts.id, agent?_id found]
    have grows : Grows agent.metrics
        (discharged counted outcome s.swarm.config.failureThreshold now).metrics := by
      rw [discharged_metrics]
      exact counts.grows
    rw [busy, idle, shift, if_neg (by decide), returned, same] at renews
    exact ⟨_, _, renews, .modifyAgent _ found (fun _ _ => same) (.inr busy) (.inl idle) grows _⟩

/-- From one session to another: there are as many agents, and as many of them work. -/
structure Steady (s t : Session) : Prop where
  total : t.swarm.health.total = s.swarm.health.total
  working : t.swarm.health.idle + t.swarm.health.busy = s.swarm.health.idle + s.swarm.health.busy
  /-- The level is the same, unless the share of those that work cannot be told from a threshold.
  One agent was announced, and no summary. -/
  level : s.swarm.agents.length < UInt64.size →
    s.swarm.config.Clear (Swarm.working s.swarm.agents) s.swarm.agents.length →
    t.swarm.health.idle.toNat + t.swarm.health.busy.toNat =
        s.swarm.health.idle.toNat + s.swarm.health.busy.toNat ∧
      t.swarm.level = s.swarm.level ∧ t.swarm.health.level = s.swarm.health.level ∧
      ∃ id old new, t.announced = s.announced ++ [.agentStatusChanged id old new]

end Session

/-- Load leaves a swarm as healthy as it was, whatever was called before: as many agents work, and
the level stays if their share is clear of the thresholds. -/
theorem Run.load_keeps_level {config : Config} {history : List Entry}
    (run : Run config history s.swarm) (load : s.Load t) : s.Steady t := by
  obtain ⟨swarm, change, renews, bears⟩ := load.renews
  obtain ⟨before, sums⟩ := bears.sums _ renews.summary
  have initialized : s.swarm.initialized = true := by
    by_contra empty
    have anyone := bears.anyone
    rw [run.registered.empty_before (eq_false_of_ne_true empty)] at anyone
    exact absurd anyone (by decide)
  -- the summary is that of the agents, but for the mean duration
  obtain ⟨⟨_, health⟩, last⟩ := run.summed initialized before sums
  have total : s.swarm.health.total = before.total := by rw [health]
  have idle : s.swarm.health.idle = before.idle := by rw [health]
  have busy : s.swarm.health.busy = before.busy := by rw [health]
  have level : s.swarm.health.level = before.level := by rw [health]
  obtain ⟨count, -, -, -, -, decides⟩ := Health.ofAgents_ok sums
  obtain ⟨count', -, -, -, -, decides'⟩ := Health.ofAgents_ok renews.summary
  have totals : t.swarm.health.total = before.total := by rw [count, count', bears.length]
  rw [← bears.config] at sums
  refine ⟨totals.trans total.symm, ?_, fun fits clear => ?_⟩
  · rw [idle, busy, Health.idle_add_busy sums, Health.idle_add_busy renews.summary, bears.working]
  have sum := Health.toNat_idle_add_busy sums fits
  have sum' := Health.toNat_idle_add_busy renews.summary (bears.length ▸ fits)
  rw [bears.working, ← sum] at sum'
  have agents : before.total.toNat = s.swarm.agents.length := by
    rw [count, UInt64.toNat_ofNat_of_lt' fits]
  have among : before.idle.toNat + before.busy.toNat ≤ before.total.toNat := by
    rw [sum, agents]
    exact List.countP_le_length
  rw [← sum, ← agents] at clear
  have stays : t.swarm.health.level = before.level := by
    rw [decides, decides', totals, bears.config]
    exact Config.level_congr (sum ▸ bears.anyone) among sum' clear
  refine ⟨?_, ?_, stays.trans level.symm, change.id, change.old, change.new, ?_⟩
  · rw [idle, busy]
    exact sum'
  · rw [renews.swarm_eq, last, stays]
  · rw [renews.announced, bears.level, last, levelNews, stays, if_neg (by simp),
      List.append_nil]
    rfl

/-- One agent works of one, which is clear of the usual thresholds. -/
theorem Run.load_keeps_level_of_lone :
    ∃ (history : List Entry) (s t : Session), Run {} history s.swarm ∧ s.Load t ∧ s.Steady t ∧
      s.swarm.level = some .healthy ∧ t.swarm.level = s.swarm.level ∧
      t.swarm.health.idle = 0 ∧ t.swarm.health.busy = 1 := by
  have made : ∃ s t,
      Session.populate loneCatalog .epoch ⟨empty {}, []⟩ = .ok (.ok ()) s ∧
      Session.acquire "compress" none .epoch s = .ok (some ⟨"solo-1"⟩) t ∧
      s.swarm.config = {} ∧ s.swarm.agents.length = 1 ∧
      (∃ agent, s.swarm.agent? ⟨"solo-1"⟩ = some agent ∧ agent.status = .idle) ∧
      s.swarm.agents.filter (rested s.swarm.config .epoch) = [] ∧
      s.swarm.level = some .healthy ∧ working s.swarm.agents = 1 ∧
      t.swarm.health.idle = 0 ∧ t.swarm.health.busy = 1 :=
    ⟨_, _, rfl, rfl, rfl, rfl, ⟨_, rfl, rfl⟩, rfl, rfl, rfl, rfl, rfl⟩
  obtain ⟨s, t, fills, acquires, settings, length, ⟨agent, found, idle⟩, tired, level, works,
    after⟩ := made
  have performs : (Call.populate loneCatalog .epoch).perform ⟨empty {}, []⟩ =
      .ok (.done (.ok ())) s := Step.map_eq_ok.2 ⟨_, fills, rfl⟩
  have run : Run {} ([] ++ [⟨.populate loneCatalog .epoch, some (.done (.ok ()))⟩]) s.swarm :=
    .answers .begins performs
  have load : s.Load t := .takes found idle tired acquires
  have steady := run.load_keeps_level load
  have clear : s.swarm.config.Clear (working s.swarm.agents) s.swarm.agents.length := by
    rw [settings, works, length]
    exact Config.clear_of_usual (by decide) (by decide) (by decide) rfl rfl
  obtain ⟨-, stays, -⟩ := steady.level (by rw [length]; decide) clear
  exact ⟨_, s, t, run, load, steady, level, stays, after⟩

/-- Ten agents, of which eight have to work. -/
def crowd : Coordinator.Config where
  swarm := {
    agents := [{ name := "swift", tier := .fast, capability := "compress", replicas := 10 }]
    strainedBelow := 0.8 }

/-- Load can move the level if the share lies at a threshold. Eight of ten agents work, which is as
many as have to; one of them is taken, and the swarm counts as strained. -/
theorem Run.load_moves_level :
    crowd.validate = .ok () ∧ ∃ (history : List Entry) (s t : Session),
      Run crowd.swarm history s.swarm ∧ s.Load t ∧
      s.swarm.level = some .healthy ∧ t.swarm.level = some .strained ∧
      t.announced = s.announced ++
        [.agentStatusChanged ⟨"swift-1"⟩ .idle .busy, .swarmHealthChanged t.swarm.health] := by
  have made : ∃ s₁ s₂ s₃ t,
      Session.populate crowd.swarm.agents .epoch ⟨empty crowd.swarm, []⟩ = .ok (.ok ()) s₁ ∧
      Session.markOffline ⟨"swift-9"⟩ s₁ = .ok (.ok ()) s₂ ∧
      Session.markOffline ⟨"swift-10"⟩ s₂ = .ok (.ok ()) s₃ ∧
      Session.acquire "compress" none .epoch s₃ = .ok (some ⟨"swift-1"⟩) t ∧
      (∃ agent, s₃.swarm.agent? ⟨"swift-1"⟩ = some agent ∧ agent.status = .idle) ∧
      s₃.swarm.agents.filter (rested s₃.swarm.config .epoch) = [] ∧
      s₃.swarm.level = some .healthy ∧ t.swarm.level = some .strained ∧
      t.announced = s₃.announced ++
        [.agentStatusChanged ⟨"swift-1"⟩ .idle .busy, .swarmHealthChanged t.swarm.health] :=
    ⟨_, _, _, _, rfl, rfl, rfl, rfl, ⟨_, rfl, rfl⟩, rfl, rfl, rfl, rfl⟩
  obtain ⟨s₁, s₂, s₃, t, fills, leaves, leaves', acquires, ⟨agent, found, idle⟩, tired,
    healthy, strained, news⟩ := made
  have first : (Call.populate crowd.swarm.agents .epoch).perform ⟨empty crowd.swarm, []⟩ =
    .ok (.done (.ok ())) s₁ := Step.map_eq_ok.2 ⟨_, fills, rfl⟩
  have second : (Call.markOffline ⟨"swift-9"⟩).perform s₁ = .ok (.done (.ok ())) s₂ :=
    Step.map_eq_ok.2 ⟨_, leaves, rfl⟩
  have third : (Call.markOffline ⟨"swift-10"⟩).perform s₂ = .ok (.done (.ok ())) s₃ :=
    Step.map_eq_ok.2 ⟨_, leaves', rfl⟩
  have begun := Run.answers (.begins : Run crowd.swarm [] (empty crowd.swarm)) first
  have run := (begun.answers second).answers third
  exact ⟨rfl, _, s₃, t, run, .takes found idle tired acquires, healthy, strained, news⟩

end JobSwarm.Swarm
