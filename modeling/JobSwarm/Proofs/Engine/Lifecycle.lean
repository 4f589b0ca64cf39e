import JobSwarm.Proofs.Engine.Chronicle
import Mathlib.Algebra.GroupWithZero.Nat
import Mathlib.Data.List.Induction

/-!
# The life of a run

What a run is answered follows from what has happened to it before: from what its codec has done,
and from the calls that were made with its handle. What happens to other runs makes no difference.

Results:

* `Accords.after`: a run stands as what has happened to it says.
* `Accords.due`: what is answered next follows from what has happened.
* `Due.outcome`, `Regular.outcome`, `Regular.countP_isOutcome`: an outcome is told once, and is that
  of the codec.
* `Regular.forgotten`: a run that has left is unknown for ever.
* `Regular.awaits`: a codec that waits does nothing but wake.
* `Regular.resumed`, `Regular.stops`: what a codec finds that wakes.
* `Chronicle.lifecycle`: all of this for every run of every engine.
* `resumed_codec_waits`: a codec may sleep through a resumption.
-/

namespace JobSwarm.Engine.Blocking

open Codec (Action Ending Reply)

/-! ## What entries say -/

namespace Entry

/-- The bytes that a codec advances by. -/
def advanced : Entry → Nat
  | .act _ (.advance bytes) _ => bytes.toNat
  | _ => 0

/-- The total that a codec sets. -/
def total? : Entry → Option UInt64
  | .act _ (.setTotal bytes) _ => some bytes
  | _ => none

/-- Whether a run is suspended or resumed. -/
def suspends? : Entry → Option Bool
  | .suspend _ (.ok _) => some true
  | .resume _ (.ok _) => some false
  | _ => none

/-- Whether a codec that looks at a checkpoint is to wait there. A checkpoint that lets it go on at
once says nothing new. -/
def blocks? : Entry → Option Bool
  | .act _ .checkpoint .blocked => some true
  | .wake _ reply => some (reply = .blocked)
  | _ => none

/-- Whether a codec is notified, or begins to wait until it is. -/
def notifies? : Entry → Option Bool
  | .suspend _ (.ok _) | .resume _ (.ok _) | .cancel .. => some true
  | .act _ .checkpoint .blocked | .wake _ .blocked => some false
  | _ => none

/-- How a codec ends. -/
def ends? : Entry → Option Ending
  | .act _ (.finish ending) _ => some ending
  | _ => none

def isCancel : Entry → Bool
  | .cancel .. => true
  | _ => false

/-- Whether a poll tells an outcome. -/
def isOutcome : Entry → Bool
  | .poll _ (.finished _) => true
  | _ => false

end Entry

/-- The last thing that entries say of something. -/
def lastOf {α : Type} (part : Entry → Option α) (entries : List Entry) : Option α :=
  (entries.filterMap part).getLast?

/-- How many bytes the codec has advanced by. -/
def bytesTold (entries : List Entry) : Nat :=
  (entries.map Entry.advanced).sum

/-- The total that was set last, unless it stands for one that is not known. -/
def totalTold (entries : List Entry) : Option UInt64 :=
  (lastOf Entry.total? entries).filter (· ≠ unknownTotal)

def isSuspended (entries : List Entry) : Bool :=
  (lastOf Entry.suspends? entries).getD false

/-- Whether the codec waits at a checkpoint. -/
def isWaiting (entries : List Entry) : Bool :=
  (lastOf Entry.blocks? entries).getD false

/-- Whether the codec has been notified since it looked last. -/
def isNotified (entries : List Entry) : Bool :=
  (lastOf Entry.notifies? entries).getD false

/-- How the codec has ended. -/
def ending? (entries : List Entry) : Option Ending :=
  lastOf Entry.ends? entries

def wasCancelled (entries : List Entry) : Bool :=
  entries.any Entry.isCancel

/-- Whether the engine has forgotten the run: it was cancelled, or its outcome was told. -/
def isForgotten (entries : List Entry) : Bool :=
  entries.any fun entry => entry.isCancel || entry.isOutcome

/-! ## What is due -/

/-- What a poll is answered. -/
def polledAfter (codec : String) (handle : Handle) (entries : List Entry) : Polled :=
  if isForgotten entries then .refused (.unknownHandle handle)
  else
    match ending? entries with
    | some ending => .finished (ending.outcome codec)
    | none => .running ⟨.ofNat (bytesTold entries), totalTold entries⟩

/-- What is answered when the run is suspended or resumed. -/
def askedAfter (handle : Handle) (entries : List Entry) : Except Error Unit :=
  if isForgotten entries then .error (.unknownHandle handle) else .ok ()

/-- What the codec is told. -/
def replyAfter (entries : List Entry) : Action → Reply
  | .askCancelled => .cancelled (wasCancelled entries)
  | .checkpoint =>
    if wasCancelled entries then .interrupted
    else if isSuspended entries then .blocked
    else .passed
  | .setTotal _ | .advance _ | .finish _ => .noted

/-- What may happen next to a run, with the answer that is due. A codec that has ended does nothing,
and one that waits does nothing but wake. -/
inductive Due (codec : String) (handle : Handle) (entries : List Entry) : Entry → Prop
  | poll : Due codec handle entries (.poll handle (polledAfter codec handle entries))
  | suspend : Due codec handle entries (.suspend handle (askedAfter handle entries))
  | resume : Due codec handle entries (.resume handle (askedAfter handle entries))
  | cancel : Due codec handle entries (.cancel handle (.ok ()))
  | act (action : Action) (working : ending? entries = none) (free : isWaiting entries = false) :
      Due codec handle entries (.act handle action (replyAfter entries action))
  | wake (waits : isWaiting entries = true) (notified : isNotified entries = true) :
      Due codec handle entries (.wake handle (replyAfter entries .checkpoint))

/-- Whatever has happened to a run was due. -/
def Regular (codec : String) (handle : Handle) (entries : List Entry) : Prop :=
  ∀ earlier entry later, entries = earlier ++ entry :: later → Due codec handle earlier entry

variable {codec : String} {s : State} {handle : Handle} {run : Run} {entry : Entry}
  {entries earlier later : List Entry}

/-! ## Entries that are added -/

section Snoc

theorem lastOf_snoc {α : Type} (part : Entry → Option α) :
    lastOf part (entries ++ [entry]) = (part entry).or (lastOf part entries) := by
  unfold lastOf
  rw [List.filterMap_append, List.filterMap_cons, List.filterMap_nil]
  cases part entry with
  | none => simp
  | some value => simp

theorem exists_mem_of_lastOf {α : Type} {part : Entry → Option α} {value : α}
    (h : lastOf part entries = some value) : ∃ entry ∈ entries, part entry = some value := by
  have last := List.mem_of_getLast? h
  rw [List.mem_filterMap] at last
  exact last

theorem bytesTold_snoc :
    bytesTold (entries ++ [entry]) = bytesTold entries + entry.advanced := by
  simp [bytesTold]

theorem totalTold_snoc :
    totalTold (entries ++ [entry]) =
      match entry.total? with
      | some bytes => if bytes = unknownTotal then none else some bytes
      | none => totalTold entries := by
  unfold totalTold
  rw [lastOf_snoc]
  cases entry.total? with
  | none => rfl
  | some bytes => simp [Option.filter]

theorem isSuspended_snoc :
    isSuspended (entries ++ [entry]) = entry.suspends?.getD (isSuspended entries) := by
  unfold isSuspended
  rw [lastOf_snoc]
  cases entry.suspends? <;> rfl

theorem isWaiting_snoc :
    isWaiting (entries ++ [entry]) = entry.blocks?.getD (isWaiting entries) := by
  unfold isWaiting
  rw [lastOf_snoc]
  cases entry.blocks? <;> rfl

theorem isNotified_snoc :
    isNotified (entries ++ [entry]) = entry.notifies?.getD (isNotified entries) := by
  unfold isNotified
  rw [lastOf_snoc]
  cases entry.notifies? <;> rfl

theorem ending?_snoc : ending? (entries ++ [entry]) = entry.ends?.or (ending? entries) :=
  lastOf_snoc _

theorem wasCancelled_snoc :
    wasCancelled (entries ++ [entry]) = (wasCancelled entries || entry.isCancel) := by
  simp [wasCancelled]

theorem isForgotten_snoc :
    isForgotten (entries ++ [entry]) =
      (isForgotten entries || (entry.isCancel || entry.isOutcome)) := by
  simp [isForgotten]

/-- A codec is to wait if its run is suspended and was not cancelled. -/
theorem replyAfter_eq_blocked :
    replyAfter entries .checkpoint = .blocked ↔
      isSuspended entries = true ∧ wasCancelled entries = false := by
  unfold replyAfter
  cases wasCancelled entries <;> cases isSuspended entries <;> decide

/-- The engine has forgotten a run that was cancelled. -/
theorem isForgotten_of_wasCancelled (h : wasCancelled entries = true) :
    isForgotten entries = true := by
  unfold wasCancelled at h
  unfold isForgotten
  rw [List.any_eq_true] at h ⊢
  obtain ⟨entry, there, cancel⟩ := h
  exact ⟨entry, there, by rw [cancel, Bool.true_or]⟩

end Snoc

/-! ## Runs as their entries say -/

/-- A run stands as what has happened to it says. -/
structure Accords (entries : List Entry) (run : Run) : Prop where
  processed : run.processed = .ofNat (bytesTold entries)
  total : run.total = totalTold entries
  known : run.known = !isForgotten entries
  suspended : run.suspended = isSuspended entries
  phase : run.phase = match ending? entries with
    | some ending => .ended ending
    | none => if isWaiting entries then .blocked else .working
  /-- After the end of its codec a cancelled run is not told apart. -/
  cancelled : ending? entries = none → run.cancelled = wasCancelled entries
  left : isForgotten entries = true → wasCancelled entries = true ∨ (ending? entries).isSome = true
  notified : isWaiting entries = true → run.notified = isNotified entries
  /-- A codec that waits has not ended, and if it was not notified it waits for a reason. -/
  held : isWaiting entries = true → ending? entries = none ∧
    (isNotified entries = true ∨ isSuspended entries = true ∧ wasCancelled entries = false)

namespace Accords

theorem fresh : Accords [] .fresh where
  processed := rfl
  total := rfl
  known := rfl
  suspended := rfl
  phase := rfl
  cancelled := fun _ => rfl
  left := nofun
  notified := nofun
  held := nofun

theorem working_iff (h : Accords entries run) :
    run.phase = .working ↔ ending? entries = none ∧ isWaiting entries = false := by
  rw [h.phase]
  cases ending? entries with
  | some ending => simp
  | none => cases isWaiting entries <;> simp

theorem blocked_iff (h : Accords entries run) :
    run.phase = .blocked ↔ isWaiting entries = true := by
  rw [h.phase]
  cases waiting : isWaiting entries with
  | true => simp [(h.held waiting).1]
  | false => cases ending? entries <;> simp

theorem wakes_iff (h : Accords entries run) :
    run.phase = .blocked ∧ run.notified = true ↔
      isWaiting entries = true ∧ isNotified entries = true := by
  rw [h.blocked_iff]
  exact and_congr_right fun waiting => by rw [h.notified waiting]

theorem polled_eq (h : Accords entries run) :
    run.polled codec handle = polledAfter codec handle entries := by
  unfold Run.polled polledAfter
  rw [h.known, h.phase, h.processed, h.total]
  cases isForgotten entries with
  | true => rfl
  | false =>
    cases ending? entries with
    | some ending => rfl
    | none => cases isWaiting entries <;> rfl

theorem asked_eq (h : Accords entries run) : run.asked handle = askedAfter handle entries := by
  unfold Run.asked askedAfter
  rw [h.known]
  cases isForgotten entries <;> rfl

theorem look_eq (h : Accords entries run) (working : ending? entries = none) :
    run.look.1 = replyAfter entries .checkpoint := by
  unfold Run.look replyAfter
  rw [h.cancelled working, h.suspended]
  cases wasCancelled entries <;> cases isSuspended entries <;> rfl

theorem reply_eq (h : Accords entries run) (working : ending? entries = none) (action : Action) :
    (run.act action).1 = replyAfter entries action := by
  cases action with
  | askCancelled => rw [Run.act, replyAfter, h.cancelled working]
  | checkpoint => exact h.look_eq working
  | setTotal | advance | finish => rfl

/-- What is answered next follows from what has happened. -/
theorem due (h : Accords entries run) (answers : run.Answers codec handle entry) :
    Due codec handle entries entry := by
  cases answers with
  | poll =>
    rw [h.polled_eq]
    exact .poll
  | suspend =>
    rw [h.asked_eq]
    exact .suspend
  | resume =>
    rw [h.asked_eq]
    exact .resume
  | cancel => exact .cancel
  | act action working =>
    obtain ⟨working, free⟩ := h.working_iff.1 working
    rw [h.reply_eq working]
    exact .act action working free
  | wake waits notified =>
    obtain ⟨waits, notified⟩ := h.wakes_iff.1 ⟨waits, notified⟩
    rw [h.look_eq (h.held waits).1]
    exact .wake waits notified

end Accords

/-! ## Runs that change -/

namespace Run

theorem after_cancel {answer : Except Error Unit} :
    run.after (.cancel handle answer) = if run.known then run.stopped else run := rfl

theorem after_act {action : Action} {reply : Reply} :
    run.after (.act handle action reply) = (run.act action).2 := rfl

variable (run) in
/-- A codec that looks goes on or waits, and nothing else of its run changes. -/
theorem look_eq :
    run.look.2 = { run with
      phase := if run.look.1 = .blocked then .blocked else .working
      notified := if run.look.1 = .blocked then false else run.notified } := by
  unfold look
  by_cases cancelled : run.cancelled = true
  · simp [cancelled]
  · by_cases suspended : run.suspended = true <;> simp [cancelled, suspended]

variable (run entry) in
/-- What becomes of a run, but for its phase and whether it was cancelled. -/
theorem after_spec :
    (run.after entry).processed = run.processed + .ofNat entry.advanced ∧
      (run.after entry).total = (match entry.total? with
        | some bytes => if bytes = unknownTotal then none else some bytes
        | none => run.total) ∧
      (run.after entry).suspended = entry.suspends?.getD run.suspended ∧
      (run.after entry).known = (run.known && !(entry.isCancel || entry.isOutcome)) := by
  have same : run.processed = run.processed + .ofNat 0 := (UInt64.add_zero _).symm
  have stays : run.known = (run.known && !(false || false)) := (Bool.and_true _).symm
  have leaves : false = (run.known && !(true || false)) := (Bool.and_false _).symm
  cases entry with
  | start => exact ⟨same, rfl, rfl, stays⟩
  | poll handle answer =>
    cases answer with
    | finished => exact ⟨same, rfl, rfl, leaves⟩
    | running | refused | panicked => exact ⟨same, rfl, rfl, stays⟩
  | suspend handle answer => cases answer <;> exact ⟨same, rfl, rfl, stays⟩
  | resume handle answer => cases answer <;> exact ⟨same, rfl, rfl, stays⟩
  | cancel handle answer =>
    rw [after_cancel]
    split
    · exact ⟨same, rfl, rfl, leaves⟩
    · next gone =>
      rw [Bool.not_eq_true] at gone
      exact ⟨same, rfl, rfl, by rw [gone, Bool.false_and]⟩
  | act handle action reply =>
    rw [after_act]
    cases action with
    | advance bytes =>
      have told : run.processed + bytes = run.processed + .ofNat bytes.toNat := by
        rw [UInt64.ofNat_toNat]
      exact ⟨told, rfl, rfl, stays⟩
    | setTotal | askCancelled | finish => exact ⟨same, rfl, rfl, stays⟩
    | checkpoint =>
      rw [act, look_eq]
      exact ⟨same, rfl, rfl, stays⟩
  | wake handle reply =>
    rw [after, look_eq]
    exact ⟨same, rfl, rfl, stays⟩

end Run

namespace Accords

/-- The phase of a run that has changed is as its entries tell. -/
theorem phase_after (h : Accords entries run) (due : Due codec handle entries entry) :
    (run.after entry).phase = match ending? (entries ++ [entry]) with
      | some ending => .ended ending
      | none => if isWaiting (entries ++ [entry]) then .blocked else .working := by
  have phase := h.phase
  rw [ending?_snoc, isWaiting_snoc]
  cases due with
  | poll =>
    unfold polledAfter
    split
    · exact phase
    · split <;> exact phase
  | suspend =>
    unfold askedAfter
    split <;> exact phase
  | resume =>
    unfold askedAfter
    split <;> exact phase
  | cancel =>
    have same : (if run.known then run.stopped else run).phase = run.phase := by split <;> rfl
    rw [Run.after_cancel, same]
    exact phase
  | act action working free =>
    have works := h.working_iff.2 ⟨working, free⟩
    rw [Run.after_act, working, free]
    cases action with
    | setTotal | advance | askCancelled => exact works
    | finish ending => rfl
    | checkpoint =>
      rw [Run.act, Run.look_eq, h.look_eq working]
      cases replyAfter entries .checkpoint <;> rfl
  | wake waits =>
    have working := (h.held waits).1
    rw [Run.after, Run.look_eq, h.look_eq working, working]
    cases replyAfter entries .checkpoint <;> rfl

/-- A codec at work knows whether its run was cancelled. -/
theorem cancelled_after (h : Accords entries run) (due : Due codec handle entries entry)
    (working : ending? (entries ++ [entry]) = none) :
    (run.after entry).cancelled = wasCancelled (entries ++ [entry]) := by
  rw [ending?_snoc, Option.or_eq_none_iff] at working
  have same := h.cancelled working.2
  have stays : run.cancelled = (wasCancelled entries || false) := by rw [same, Bool.or_false]
  rw [wasCancelled_snoc]
  cases due with
  | poll =>
    unfold polledAfter
    split
    · exact stays
    · split <;> exact stays
  | suspend =>
    unfold askedAfter
    split <;> exact stays
  | resume =>
    unfold askedAfter
    split <;> exact stays
  | cancel =>
    show _ = (_ || true)
    rw [Run.after_cancel, Bool.or_true]
    split
    · rfl
    · next gone =>
      have forgotten : isForgotten entries = true := by simpa [h.known] using gone
      obtain cancelled | ended := h.left forgotten
      · rw [same, cancelled]
      · rw [working.2] at ended
        cases ended
  | act action =>
    rw [Run.after_act]
    cases action with
    | setTotal | advance | askCancelled | finish => exact stays
    | checkpoint =>
      rw [Run.act, Run.look_eq]
      exact stays
  | wake =>
    rw [Run.after, Run.look_eq]
    exact stays

/-- A run leaves by being cancelled or after the end of its codec. -/
theorem left_after (h : Accords entries run) (due : Due codec handle entries entry)
    (forgotten : isForgotten (entries ++ [entry]) = true) :
    wasCancelled (entries ++ [entry]) = true ∨ (ending? (entries ++ [entry])).isSome = true := by
  rw [wasCancelled_snoc, ending?_snoc, Option.isSome_or]
  rw [isForgotten_snoc, Bool.or_eq_true, Bool.or_eq_true] at forgotten
  obtain before | cancel | outcome := forgotten
  · obtain cancelled | ended := h.left before
    · exact .inl (by rw [cancelled, Bool.true_or])
    · exact .inr (by rw [ended, Bool.or_true])
  · exact .inl (by rw [cancel, Bool.or_true])
  · cases due with
    | poll =>
      unfold polledAfter at outcome
      split at outcome
      · cases outcome
      · split at outcome
        · next ended => exact .inr (by rw [ended]; rfl)
        · cases outcome
    | suspend | resume | cancel | act | wake => cases outcome

theorem known_of_working (h : Accords entries run) (working : ending? entries = none)
    (uncancelled : wasCancelled entries = false) : isForgotten entries = false := by
  cases forgotten : isForgotten entries with
  | false => rfl
  | true =>
    obtain cancelled | ended := h.left forgotten
    · rw [uncancelled] at cancelled
      cases cancelled
    · rw [working] at ended
      cases ended

/-- A codec that looks and is to wait has not been notified since, and waits for a reason. -/
theorem waits_of_look (h : Accords entries run) (working : ending? entries = none)
    (blocked : replyAfter entries .checkpoint = .blocked) :
    run.look.2.notified = false ∧ isSuspended entries = true ∧ wasCancelled entries = false := by
  rw [Run.look_eq, h.look_eq working, blocked]
  exact ⟨rfl, replyAfter_eq_blocked.1 blocked⟩

/-- A codec that waits has not ended, and if it was not notified it waits for a reason. -/
theorem waits_after (h : Accords entries run) (due : Due codec handle entries entry)
    (waiting : isWaiting (entries ++ [entry]) = true) :
    ending? (entries ++ [entry]) = none ∧
      (run.after entry).notified = isNotified (entries ++ [entry]) ∧
      (isNotified (entries ++ [entry]) = true ∨
        isSuspended (entries ++ [entry]) = true ∧ wasCancelled (entries ++ [entry]) = false) := by
  rw [isWaiting_snoc] at waiting
  rw [ending?_snoc, isNotified_snoc, isSuspended_snoc, wasCancelled_snoc]
  have still {notified suspended cancelled : Bool}
      (reason : notified = true ∨ suspended = true ∧ cancelled = false) :
      notified = true ∨ suspended = true ∧ (cancelled || false) = false := by
    rwa [Bool.or_false]
  cases due with
  | poll =>
    obtain ⟨working, reason⟩ := h.held waiting
    have quiet (answer : Polled) : (run.after (.poll handle answer)).notified = run.notified := by
      cases answer <;> rfl
    exact ⟨working, (quiet _).trans (h.notified waiting), still reason⟩
  | suspend | resume =>
    unfold askedAfter at waiting ⊢
    split at waiting
    · next forgotten =>
      obtain ⟨working, reason⟩ := h.held waiting
      rw [if_pos forgotten]
      exact ⟨working, h.notified waiting, still reason⟩
    · next known =>
      rw [if_neg known]
      exact ⟨(h.held waiting).1, rfl, .inl rfl⟩
  | cancel =>
    obtain ⟨working, reason⟩ := h.held waiting
    refine ⟨working, ?_, .inl rfl⟩
    show _ = true
    rw [Run.after_cancel]
    split
    · rfl
    · next gone =>
      have forgotten : isForgotten entries = true := by simpa [h.known] using gone
      rw [h.notified waiting]
      obtain notified | ⟨-, uncancelled⟩ := reason
      · exact notified
      · rw [h.known_of_working working uncancelled] at forgotten
        cases forgotten
  | act action working free =>
    cases action with
    | setTotal | advance | askCancelled | finish =>
      have waiting : isWaiting entries = true := waiting
      rw [free] at waiting
      cases waiting
    | checkpoint =>
      cases reply : replyAfter entries .checkpoint with
      | blocked =>
        obtain ⟨quiet, suspended, uncancelled⟩ := h.waits_of_look working reply
        exact ⟨working, quiet, .inr ⟨suspended, by rw [uncancelled]; rfl⟩⟩
      | noted | cancelled | passed | interrupted =>
        rw [reply] at waiting
        have waiting : isWaiting entries = true := waiting
        rw [free] at waiting
        cases waiting
  | wake waits notified =>
    obtain ⟨working, -⟩ := h.held waits
    cases reply : replyAfter entries .checkpoint with
    | blocked =>
      obtain ⟨quiet, suspended, uncancelled⟩ := h.waits_of_look working reply
      exact ⟨working, quiet, .inr ⟨suspended, by rw [uncancelled]; rfl⟩⟩
    | noted | cancelled | passed | interrupted =>
      rw [reply] at waiting
      cases waiting

/-- A run stands as what has happened to it says. -/
theorem after (h : Accords entries run) (due : Due codec handle entries entry) :
    Accords (entries ++ [entry]) (run.after entry) := by
  obtain ⟨processed, total, suspended, known⟩ := run.after_spec entry
  refine ⟨?_, ?_, ?_, ?_, h.phase_after due, h.cancelled_after due, h.left_after due,
    fun waiting => (h.waits_after due waiting).2.1, fun waiting => ?_⟩
  · rw [processed, h.processed, bytesTold_snoc, UInt64.ofNat_add]
  · rw [total, h.total, totalTold_snoc]
  · rw [known, h.known, isForgotten_snoc, ← Bool.not_or]
  · rw [suspended, h.suspended, isSuspended_snoc]
  · obtain ⟨working, -, reason⟩ := h.waits_after due waiting
    exact ⟨working, reason⟩

end Accords

/-! ## What follows -/

/-- An outcome that is told is that of the codec, and the run had not left before. -/
theorem Due.outcome (due : Due codec handle entries entry) (told : entry.isOutcome = true) :
    isForgotten entries = false ∧ ∃ ending, ending? entries = some ending ∧
      entry = .poll handle (.finished (ending.outcome codec)) := by
  cases due with
  | poll =>
    unfold polledAfter at told ⊢
    cases forgotten : isForgotten entries with
    | true =>
      rw [forgotten] at told
      cases told
    | false =>
      cases ended : ending? entries with
      | none =>
        rw [forgotten, ended] at told
        cases told
      | some ending => exact ⟨rfl, ending, rfl, rfl⟩
  | suspend | resume | cancel | act | wake => cases told

/-- An engine that has forgotten a run knows its handle no more. -/
inductive Unknown (handle : Handle) : Entry → Prop
  | poll : Unknown handle (.poll handle (.refused (.unknownHandle handle)))
  | suspend : Unknown handle (.suspend handle (.error (.unknownHandle handle)))
  | resume : Unknown handle (.resume handle (.error (.unknownHandle handle)))
  | cancel : Unknown handle (.cancel handle (.ok ()))
  | act (action : Action) (reply : Reply) : Unknown handle (.act handle action reply)
  | wake (reply : Reply) : Unknown handle (.wake handle reply)

/-- What may come while a codec waits. It does nothing but wake when it was notified, and looks
whether its run is suspended or cancelled by then. -/
inductive Awaits (handle : Handle) (entries : List Entry) : Entry → Prop
  | poll (answer : Polled) (untold : ∀ outcome, answer ≠ .finished outcome) :
      Awaits handle entries (.poll handle answer)
  | suspend (answer : Except Error Unit) : Awaits handle entries (.suspend handle answer)
  | resume (answer : Except Error Unit) : Awaits handle entries (.resume handle answer)
  | cancel : Awaits handle entries (.cancel handle (.ok ()))
  | wake (notified : isNotified entries = true) :
      Awaits handle entries (.wake handle (replyAfter entries .checkpoint))

namespace Regular

theorem nil : Regular codec handle [] := by
  intro earlier entry later h
  exact absurd h (by simp)

theorem snoc (h : Regular codec handle entries) (due : Due codec handle entries entry) :
    Regular codec handle (entries ++ [entry]) := by
  intro earlier entry' later split
  rcases List.eq_nil_or_concat' later with rfl | ⟨later, last, rfl⟩
  · obtain ⟨rfl, same⟩ := List.append_inj' split rfl
    cases same
    exact due
  · rw [← List.cons_append, ← List.append_assoc] at split
    obtain ⟨rfl, -⟩ := List.append_inj' split rfl
    exact h earlier entry' later rfl

theorem of_append (h : Regular codec handle (entries ++ later)) : Regular codec handle entries := by
  intro earlier entry between split
  apply h earlier entry (between ++ later)
  rw [split, List.append_assoc, List.cons_append]

theorem last (h : Regular codec handle (entries ++ [entry])) : Due codec handle entries entry :=
  h entries entry [] rfl

/-- A run is what its entries have made of it. -/
theorem accords (h : Regular codec handle entries) :
    Accords entries (entries.foldl Run.after .fresh) := by
  induction entries using List.reverseRecOn with
  | nil => exact .fresh
  | append_singleton entries entry ih =>
    rw [List.foldl_append]
    exact (ih h.of_append).after h.last

/-- An outcome is told once. -/
theorem countP_isOutcome (h : Regular codec handle entries) :
    entries.countP Entry.isOutcome ≤ 1 := by
  induction entries using List.reverseRecOn with
  | nil => exact Nat.zero_le 1
  | append_singleton entries entry ih =>
    rw [List.countP_append, List.countP_singleton]
    cases told : entry.isOutcome with
    | false => exact ih h.of_append
    | true =>
      have none_before : entries.countP Entry.isOutcome = 0 := by
        have known := (h.last.outcome told).1
        simp only [isForgotten, List.any_eq_false, Bool.not_eq_true, Bool.or_eq_false_iff] at known
        rw [List.countP_eq_zero]
        intro other there
        rw [(known other there).2]
        exact Bool.false_ne_true
      rw [none_before]
      exact Nat.le_refl 1

/-- A codec that has ended has done so by itself. -/
theorem exists_finish {ending : Ending} (h : Regular codec handle entries)
    (ended : ending? entries = some ending) : .act handle (.finish ending) .noted ∈ entries := by
  obtain ⟨entry, there, ends⟩ := exists_mem_of_lastOf ended
  obtain ⟨earlier, later, split⟩ := List.append_of_mem there
  have due := h earlier entry later split
  cases due with
  | poll | suspend | resume | cancel | wake => cases ends
  | act action =>
    cases action with
    | setTotal | advance | askCancelled | checkpoint => cases ends
    | finish ending =>
      cases ends
      exact there

/-- An outcome that is told is the ending of the codec, and the run was not cancelled. -/
theorem outcome (h : Regular codec handle entries) (split : entries = earlier ++ entry :: later)
    (told : entry.isOutcome = true) :
    wasCancelled earlier = false ∧ ∃ ending, .act handle (.finish ending) .noted ∈ earlier ∧
      entry = .poll handle (.finished (ending.outcome codec)) := by
  obtain ⟨known, ending, ended, same⟩ := (h earlier entry later split).outcome told
  have uncancelled : wasCancelled earlier = false := by
    cases cancelled : wasCancelled earlier with
    | false => rfl
    | true =>
      rw [isForgotten_of_wasCancelled cancelled] at known
      cases known
  rw [split] at h
  exact ⟨uncancelled, ending, h.of_append.exists_finish ended, same⟩

/-- A run that has left is unknown for ever. -/
theorem forgotten (h : Regular codec handle entries) (split : entries = earlier ++ entry :: later)
    (leaves : (entry.isCancel || entry.isOutcome) = true) :
    ∀ next ∈ later, Unknown handle next := by
  intro next there
  obtain ⟨between, rest, rfl⟩ := List.append_of_mem there
  rw [← List.cons_append, ← List.append_assoc] at split
  have forgotten : isForgotten (earlier ++ entry :: between) = true := by
    rw [isForgotten, List.any_append, List.any_cons, leaves, Bool.true_or, Bool.or_true]
  have due := h _ next rest split
  cases due with
  | poll =>
    rw [polledAfter, forgotten]
    exact .poll
  | suspend =>
    rw [askedAfter, forgotten]
    exact .suspend
  | resume =>
    rw [askedAfter, forgotten]
    exact .resume
  | cancel => exact .cancel
  | act action => exact .act action _
  | wake => exact .wake _

/-- A codec that waits does nothing but wake. -/
theorem awaits {between : List Entry} {next : Entry} (h : Regular codec handle entries)
    (split : entries =
      earlier ++ .act handle .checkpoint .blocked :: (between ++ next :: later))
    (unreleased : ∀ entry ∈ between, entry.blocks? ≠ some false) :
    Awaits handle (earlier ++ .act handle .checkpoint .blocked :: between) next := by
  rw [← List.cons_append, ← List.append_assoc] at split
  have regular : Regular codec handle (earlier ++ .act handle .checkpoint .blocked :: between) := by
    rw [split] at h
    exact h.of_append
  have waiting : isWaiting (earlier ++ .act handle .checkpoint .blocked :: between) = true := by
    clear split regular
    induction between using List.reverseRecOn with
    | nil => exact isWaiting_snoc
    | append_singleton between entry ih =>
      rw [← List.cons_append, ← List.append_assoc, isWaiting_snoc]
      have waits := ih fun entry there => unreleased entry (List.mem_append_left _ there)
      have stays := unreleased entry (List.mem_append_right _ List.mem_cons_self)
      cases told : entry.blocks? with
      | none => exact waits
      | some blocks =>
        cases blocks with
        | true => rfl
        | false => exact absurd told stays
  obtain ⟨working, -⟩ := regular.accords.held waiting
  have due := h _ next later split
  cases due with
  | poll =>
    refine .poll _ fun outcome => ?_
    rw [polledAfter, working]
    split <;> nofun
  | suspend => exact .suspend _
  | resume => exact .resume _
  | cancel => exact .cancel
  | act action working free =>
    rw [waiting] at free
    cases free
  | wake waits notified => exact .wake notified

/-- What a codec finds that wakes. -/
theorem wakes {reply : Reply} (h : Regular codec handle entries)
    (split : entries = earlier ++ .wake handle reply :: later) :
    reply = replyAfter earlier .checkpoint := by
  cases h _ _ _ split
  rfl

/-- A codec that wakes after its run was resumed goes on, unless the run was suspended again or
cancelled before. -/
theorem resumed {between : List Entry} {reply : Reply} (h : Regular codec handle entries)
    (split : entries =
      earlier ++ .resume handle (.ok ()) :: (between ++ .wake handle reply :: later))
    (still : ∀ entry ∈ between, entry.suspends? ≠ some true ∧ entry.isCancel = false) :
    reply = .passed := by
  have due := h _ _ _ split
  have uncancelled : wasCancelled earlier = false := by
    cases cancelled : wasCancelled earlier with
    | false => rfl
    | true =>
      have forgotten := isForgotten_of_wasCancelled cancelled
      generalize answered : (.resume handle (.ok ()) : Entry) = entry at due
      cases due with
      | poll | suspend | cancel | act | wake => cases answered
      | resume =>
        rw [askedAfter, forgotten] at answered
        cases answered
  rw [← List.cons_append, ← List.append_assoc] at split
  rw [h.wakes split]
  have free : isSuspended (earlier ++ .resume handle (.ok ()) :: between) = false ∧
      wasCancelled (earlier ++ .resume handle (.ok ()) :: between) = false := by
    clear split
    induction between using List.reverseRecOn with
    | nil => exact ⟨isSuspended_snoc, by rw [wasCancelled_snoc, uncancelled]; rfl⟩
    | append_singleton between entry ih =>
      obtain ⟨unsuspended, spared⟩ :=
        ih fun entry there => still entry (List.mem_append_left _ there)
      obtain ⟨resumed, spares⟩ := still entry (List.mem_append_right _ List.mem_cons_self)
      rw [← List.cons_append, ← List.append_assoc, isSuspended_snoc, wasCancelled_snoc, spared,
        spares]
      refine ⟨?_, rfl⟩
      cases told : entry.suspends? with
      | none => exact unsuspended
      | some suspends =>
        cases suspends with
        | true => exact absurd told resumed
        | false => rfl
  rw [replyAfter, free.2, free.1]
  rfl

/-- A codec that wakes after its run was cancelled is interrupted. -/
theorem stops {between : List Entry} {reply : Reply} (h : Regular codec handle entries)
    (split : entries =
      earlier ++ .cancel handle (.ok ()) :: (between ++ .wake handle reply :: later)) :
    reply = .interrupted := by
  rw [← List.cons_append, ← List.append_assoc] at split
  have cancelled : wasCancelled (earlier ++ .cancel handle (.ok ()) :: between) = true := by
    rw [wasCancelled, List.any_append, List.any_cons, Entry.isCancel, Bool.true_or, Bool.or_true]
  rw [h.wakes split, replyAfter, cancelled]
  rfl

end Regular

/-! ## Every run -/

/-- What happens to one run. -/
def entriesOf (handle : Handle) (history : List Entry) : List Entry :=
  history.filter (·.handle? = some handle)

theorem Chronicle.of_snoc {history : List Entry} (h : Chronicle codec (history ++ [entry]) s) :
    ∃ earlier, Chronicle codec history earlier ∧ Performs codec earlier entry s := by
  generalize whole : history ++ [entry] = all at h
  cases h with
  | begins => exact absurd whole (by simp)
  | performs earlier performs =>
    obtain ⟨rfl, same⟩ := List.append_inj' whole rfl
    cases same
    exact ⟨_, earlier, performs⟩

/-- A run is what has happened to it since it was started has made of it. -/
theorem Chronicle.run? {before after : List Entry} {config : Job.Config}
    {answer : Except Error Handle}
    (chronicle : Chronicle codec (before ++ .start config answer :: after) s)
    (number : handle.number.toNat = before.countP Entry.isStart + 1) :
    answer = .ok handle ∧ Regular codec handle (entriesOf handle after) ∧
      s.run? handle = some ((entriesOf handle after).foldl Run.after .fresh) := by
  induction after using List.reverseRecOn generalizing s with
  | nil =>
    obtain ⟨earlier, chronicle, performs⟩ := chronicle.of_snoc
    rw [← chronicle.length_runs] at number
    cases performs
    obtain ⟨answer, found⟩ := start_eq config number
    exact ⟨answer, .nil, found⟩
  | append_singleton after entry ih =>
    rw [← List.cons_append, ← List.append_assoc] at chronicle
    obtain ⟨earlier, chronicle, performs⟩ := chronicle.of_snoc
    obtain ⟨answer, regular, found⟩ := ih chronicle
    refine ⟨answer, ?_⟩
    rw [performs.run? found, entriesOf, List.filter_append, List.filter_singleton]
    by_cases concerns : entry.handle? = some handle
    · have due := regular.accords.due (performs.answers concerns found)
      rw [decide_eq_true concerns, if_pos concerns, cond_true, List.foldl_append]
      exact ⟨regular.snoc due, rfl⟩
    · rw [decide_eq_false concerns, if_neg concerns, cond_false, List.append_nil]
      exact ⟨regular, rfl⟩

/-- The life of a run. -/
structure Lifecycle (codec : String) (handle : Handle) (entries : List Entry) (s : State) : Prop
    where
  /-- Until the run is forgotten, a poll tells the bytes and the total that the codec has told, or
  how it has ended; at a checkpoint the codec passes, waits or is interrupted as the run is neither
  suspended nor cancelled, suspended, or cancelled. -/
  regular : Regular codec handle entries
  told_once : entries.countP Entry.isOutcome ≤ 1
  /-- An outcome that is told is that of the codec; that of a cancelled run is never told. -/
  outcome : ∀ earlier entry later, entries = earlier ++ entry :: later → entry.isOutcome = true →
    wasCancelled earlier = false ∧ ∃ ending, .act handle (.finish ending) .noted ∈ earlier ∧
      entry = .poll handle (.finished (ending.outcome codec))
  forgotten : ∀ earlier entry later, entries = earlier ++ entry :: later →
    (entry.isCancel || entry.isOutcome) = true → ∀ next ∈ later, Unknown handle next
  /-- A codec that waits at a checkpoint does nothing else until it wakes and may go on. -/
  awaits : ∀ earlier between next later,
    entries = earlier ++ .act handle .checkpoint .blocked :: (between ++ next :: later) →
    (∀ entry ∈ between, entry.blocks? ≠ some false) →
      Awaits handle (earlier ++ .act handle .checkpoint .blocked :: between) next
  /-- The first resumption lets it go on, unless the run is suspended again or cancelled before the
  codec has woken. -/
  resumed : ∀ earlier between reply later,
    entries = earlier ++ .resume handle (.ok ()) :: (between ++ .wake handle reply :: later) →
    (∀ entry ∈ between, entry.suspends? ≠ some true ∧ entry.isCancel = false) → reply = .passed
  interrupted : ∀ earlier between reply later,
    entries = earlier ++ .cancel handle (.ok ()) :: (between ++ .wake handle reply :: later) →
    reply = .interrupted
  /-- A codec that has neither ended nor waits can do anything. -/
  acts : ∀ action,
    (act handle action s).isSome ↔ ending? entries = none ∧ isWaiting entries = false
  /-- A codec that waits wakes when it was notified, and no notification is lost on it. -/
  wakes : (wake handle s).isSome ↔ isWaiting entries = true ∧ isNotified entries = true
  rouses : isWaiting entries = true → isSuspended entries = false ∨ wasCancelled entries = true →
    (wake handle s).isSome

/-- However the calls of an engine, the runs and what their codecs do come one after another: each
run that was started, the one with the number of its start, has the life of a run. -/
theorem Chronicle.lifecycle {before after : List Entry} {config : Job.Config}
    {answer : Except Error Handle}
    (chronicle : Chronicle codec (before ++ .start config answer :: after) s)
    (number : handle.number.toNat = before.countP Entry.isStart + 1) :
    answer = .ok handle ∧ Lifecycle codec handle (entriesOf handle after) s := by
  obtain ⟨answer, regular, found⟩ := chronicle.run? number
  have wakes : (wake handle s).isSome ↔ isWaiting (entriesOf handle after) = true ∧
      isNotified (entriesOf handle after) = true := by
    rw [isSome_wake found, regular.accords.wakes_iff]
  refine ⟨answer, regular, regular.countP_isOutcome, ?_, ?_, ?_, ?_, ?_, ?_, wakes, ?_⟩
  · intro earlier entry later split
    exact regular.outcome split
  · intro earlier entry later split
    exact regular.forgotten split
  · intro earlier between next later split
    exact regular.awaits split
  · intro earlier between reply later split
    exact regular.resumed split
  · intro earlier between reply later split
    exact regular.stops split
  · intro action
    rw [isSome_act found, regular.accords.working_iff]
  · intro waiting idle
    refine wakes.2 ⟨waiting, ?_⟩
    obtain notified | ⟨suspended, uncancelled⟩ := (regular.accords.held waiting).2
    · exact notified
    · rw [suspended, uncancelled] at idle
      simp at idle

/-- A run is suspended and waits, is resumed, and ends. -/
theorem lifecycle_of_suspended :
    ∃ s, Lifecycle "store" ⟨1⟩ [.suspend ⟨1⟩ (.ok ()), .act ⟨1⟩ .checkpoint .blocked,
      .resume ⟨1⟩ (.ok ()), .wake ⟨1⟩ .passed, .act ⟨1⟩ (.finish .panicked) .noted,
      .poll ⟨1⟩ (.finished (.failed "codec store panicked"))] s ∧ s.known? ⟨1⟩ = none := by
  have starts : Performs "store" {} (.start { targetPath := "a" } (.ok ⟨1⟩)) ⟨[.fresh]⟩ :=
    .start _
  have suspends : Performs "store" ⟨[.fresh]⟩ (.suspend ⟨1⟩ (.ok ()))
      ⟨[{ suspended := true, notified := true }]⟩ := .suspend ⟨1⟩
  have waits : Performs "store" ⟨[{ suspended := true, notified := true }]⟩
      (.act ⟨1⟩ .checkpoint .blocked) ⟨[{ suspended := true, phase := .blocked }]⟩ := .act rfl
  have resumes : Performs "store" ⟨[{ suspended := true, phase := .blocked }]⟩
      (.resume ⟨1⟩ (.ok ())) ⟨[{ notified := true, phase := .blocked }]⟩ := .resume ⟨1⟩
  have wakes : Performs "store" ⟨[{ notified := true, phase := .blocked }]⟩
      (.wake ⟨1⟩ .passed) ⟨[{ notified := true }]⟩ := .wake rfl
  have panics : Performs "store" ⟨[{ notified := true }]⟩ (.act ⟨1⟩ (.finish .panicked) .noted)
      ⟨[{ notified := true, phase := .ended .panicked }]⟩ := .act rfl
  have polls : Performs "store" ⟨[{ notified := true, phase := .ended .panicked }]⟩
      (.poll ⟨1⟩ (.finished (.failed "codec store panicked")))
      ⟨[{ notified := true, phase := .ended .panicked, known := false }]⟩ := .poll ⟨1⟩
  have chronicle := (((((((Chronicle.begins.performs starts).performs suspends).performs
    waits).performs resumes).performs wakes).performs panics).performs polls)
  have number : (⟨1⟩ : Handle).number.toNat = ([] : List Entry).countP Entry.isStart + 1 := rfl
  exact ⟨_, (Chronicle.lifecycle chronicle number).2, rfl⟩

/-- A codec that was resumed stays blocked if its run is suspended again before it wakes. A handle
that was cancelled before there was a run of it is known when there is one. -/
theorem resumed_codec_waits :
    (∃ s, Chronicle "store" [.start { targetPath := "a" } (.ok ⟨1⟩), .suspend ⟨1⟩ (.ok ()),
        .act ⟨1⟩ .checkpoint .blocked, .resume ⟨1⟩ (.ok ()), .suspend ⟨1⟩ (.ok ()),
        .wake ⟨1⟩ .blocked] s ∧ wake ⟨1⟩ s = none) ∧
      ∃ s, Chronicle "store" [.cancel ⟨1⟩ (.ok ()), .start { targetPath := "a" } (.ok ⟨1⟩),
        .poll ⟨1⟩ (.running ⟨0, none⟩)] s := by
  constructor
  · have starts : Performs "store" {} (.start { targetPath := "a" } (.ok ⟨1⟩)) ⟨[.fresh]⟩ :=
      .start _
    have suspends : Performs "store" ⟨[.fresh]⟩ (.suspend ⟨1⟩ (.ok ()))
        ⟨[{ suspended := true, notified := true }]⟩ := .suspend ⟨1⟩
    have waits : Performs "store" ⟨[{ suspended := true, notified := true }]⟩
        (.act ⟨1⟩ .checkpoint .blocked) ⟨[{ suspended := true, phase := .blocked }]⟩ := .act rfl
    have resumes : Performs "store" ⟨[{ suspended := true, phase := .blocked }]⟩
        (.resume ⟨1⟩ (.ok ())) ⟨[{ notified := true, phase := .blocked }]⟩ := .resume ⟨1⟩
    have again : Performs "store" ⟨[{ notified := true, phase := .blocked }]⟩
        (.suspend ⟨1⟩ (.ok ())) ⟨[{ suspended := true, notified := true, phase := .blocked }]⟩ :=
      .suspend ⟨1⟩
    have wakes : Performs "store" ⟨[{ suspended := true, notified := true, phase := .blocked }]⟩
        (.wake ⟨1⟩ .blocked) ⟨[{ suspended := true, phase := .blocked }]⟩ := .wake rfl
    exact ⟨_, (((((Chronicle.begins.performs starts).performs suspends).performs waits).performs
      resumes).performs again).performs wakes, rfl⟩
  · have cancels : Performs "store" {} (.cancel ⟨1⟩ (.ok ())) {} := .cancel ⟨1⟩
    have starts : Performs "store" {} (.start { targetPath := "a" } (.ok ⟨1⟩)) ⟨[.fresh]⟩ :=
      .start _
    have polls : Performs "store" ⟨[.fresh]⟩ (.poll ⟨1⟩ (.running ⟨0, none⟩)) ⟨[.fresh]⟩ :=
      .poll ⟨1⟩
    exact ⟨_, ((Chronicle.begins.performs cancels).performs starts).performs polls⟩

end JobSwarm.Engine.Blocking
