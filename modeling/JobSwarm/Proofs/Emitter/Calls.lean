import JobSwarm.Emitter.Basic
import Mathlib.Data.List.DropRight
import Mathlib.Data.List.Nodup

/-!
# Callers of an emitter

An emitter is called in any order: to subscribe and to end a subscription, to take what waits in a
channel or to drop it, to publish, and to look back. Each call is answered at once.

Results:

* `Run.split`: what was called first and what was called afterwards.
* `Run.sound`, `Run.keys`: an identifier is issued once, and stands for one subscription.
* `Run.remembers`: the events are numbered from one on, and the last of them are kept.
-/

namespace JobSwarm.Emitter

open Time (Instant)

/-- A call of a caller. -/
inductive Call where
  | channel (filter : Event.Filter)
  | callback (filter : Event.Filter) (name : String) (reaction : Reaction)
  | unsubscribe (id : SubscriptionId)
  | drain (id : SubscriptionId)
  | drop (id : SubscriptionId)
  | publish (notice : Event.Notice) (now : Instant)
  | recent (count : Nat)

/-- What a caller is answered. -/
inductive Answer where
  | issued (id : SubscriptionId)
  | unsubscribed (served : Bool)
  | drained (events : Option (List Event))
  | dropped (received : Bool)
  | published (event : Event)
  | recent (events : List Event)

/-- What a call does. -/
def Call.perform (emitter : Emitter) : Call → Answer × Emitter
  | .channel filter => (emitter.subscribeChannel filter).map .issued id
  | .callback filter name reaction =>
    (emitter.subscribe filter (.callback name reaction)).map .issued id
  | .unsubscribe target => (emitter.unsubscribe target).map .unsubscribed id
  | .drain target => (emitter.drain target).map .drained id
  | .drop target => (emitter.close target).map .dropped id
  | .publish notice now => (emitter.publish notice now).map .published id
  | .recent count => (.recent (emitter.recent count), emitter)

/-- A call that was made, and its answer. -/
structure Entry where
  call : Call
  answer : Answer

/-- From one emitter to another by these calls, oldest first. -/
inductive Run (start : Emitter) : List Entry → Emitter → Prop
  | begins : Run start [] start
  | answers {history : List Entry} {emitter after : Emitter} {call : Call} {answer : Answer}
      (run : Run start history emitter) (performs : call.perform emitter = (answer, after)) :
      Run start (history ++ [⟨call, answer⟩]) after

variable {start emitter after : Emitter} {history : List Entry} {id : SubscriptionId}

/-- Some calls, and then some more. -/
theorem Run.split {first second : List Entry} (run : Run start (first ++ second) emitter) :
    ∃ between, Run start first between ∧ Run between second emitter := by
  generalize whole : first ++ second = history at run
  induction run generalizing second with
  | begins =>
    obtain ⟨rfl, rfl⟩ := List.append_eq_nil_iff.1 whole
    exact ⟨start, .begins, .begins⟩
  | @answers history emitter after call answer run performs ih =>
    rcases List.eq_nil_or_concat second with rfl | ⟨second, last, rfl⟩
    · rw [List.append_nil] at whole
      rw [whole]
      exact ⟨after, run.answers performs, .begins⟩
    · rw [List.concat_eq_append, ← List.append_assoc] at whole
      obtain ⟨same, last_eq⟩ := List.append_inj' whole rfl
      obtain ⟨between, before, rest⟩ := ih same
      cases List.head_eq_of_cons_eq last_eq
      rw [List.concat_eq_append]
      exact ⟨between, before, rest.answers performs⟩

theorem Run.eq_of_nil (run : Run start [] emitter) : emitter = start := by
  generalize none : ([] : List Entry) = history at run
  cases run with
  | begins => rfl
  | answers => simp at none

/-- A call, and then some more. -/
theorem Run.uncons {entry : Entry} {later : List Entry} (run : Run start (entry :: later) emitter) :
    ∃ between, entry.call.perform start = (entry.answer, between) ∧ Run between later emitter := by
  rw [← List.singleton_append] at run
  obtain ⟨between, first, rest⟩ := run.split
  generalize single : [entry] = history at first
  cases first with
  | begins => cases single
  | answers none performs =>
    rw [← List.nil_append [entry]] at single
    obtain ⟨rfl, same⟩ := List.append_inj' single rfl
    cases List.head_eq_of_cons_eq same
    cases none.eq_of_nil
    exact ⟨between, performs, rest⟩

/-! ## Subscriptions -/

/-- The identifier that was issued, if one was. -/
def Answer.issued? : Answer → Option SubscriptionId
  | .issued id => some id
  | _ => none

/-- The subscriptions that were made, oldest first. -/
def subscriptions (history : List Entry) : List SubscriptionId :=
  history.filterMap (·.answer.issued?)

/-- An emitter in which an identifier stands for one subscription. -/
structure Sound (emitter : Emitter) : Prop where
  ids_once : (emitter.receivers.map (·.1)).Nodup
  issued : ∀ id ∈ emitter.receivers.map (·.1), id.number ≤ emitter.issued
  known : (emitter.slots.map (·.id)).Sublist (emitter.receivers.map (·.1))

theorem subscribe_keys (emitter : Emitter) (filter : Event.Filter) (receiver : Receiver) :
    (emitter.subscribe filter receiver).2.receivers.map (·.1) =
      emitter.receivers.map (·.1) ++ [⟨emitter.issued + 1⟩] := by
  show List.map _ (_ ++ _) = _
  rw [List.map_append]
  rfl

theorem subscribe_slots (emitter : Emitter) (filter : Event.Filter) (receiver : Receiver) :
    (emitter.subscribe filter receiver).2.slots.map (·.id) =
      emitter.slots.map (·.id) ++ [⟨emitter.issued + 1⟩] := by
  show List.map _ (_ ++ _) = _
  rw [List.map_append]
  rfl

namespace Sound

/-- The next identifier is new. -/
theorem fresh (h : Sound emitter) : ⟨emitter.issued + 1⟩ ∉ emitter.receivers.map (·.1) := by
  intro hmem
  have below : emitter.issued + 1 ≤ emitter.issued := h.issued _ hmem
  omega

/-- Subscriptions may end, and receivers change. -/
theorem shrink (h : Sound emitter)
    (keys : after.receivers.map (·.1) = emitter.receivers.map (·.1))
    (issued : after.issued = emitter.issued) (slots : after.slots.Sublist emitter.slots) :
    Sound after where
  ids_once := by
    rw [keys]
    exact h.ids_once
  issued := by
    rw [keys, issued]
    exact h.issued
  known := by
    rw [keys]
    exact (slots.map _).trans h.known

theorem subscribe (h : Sound emitter) (filter : Event.Filter) (receiver : Receiver) :
    Sound (emitter.subscribe filter receiver).2 := by
  refine ⟨?_, ?_, ?_⟩
  · rw [subscribe_keys, ← List.concat_eq_append]
    exact h.ids_once.concat h.fresh
  · rw [subscribe_keys]
    intro id hmem
    show id.number ≤ emitter.issued + 1
    rcases List.mem_append.1 hmem with hmem | hmem
    · have below := h.issued id hmem
      omega
    · rw [List.mem_singleton.1 hmem]
  · rw [subscribe_keys, subscribe_slots]
    exact h.known.append (List.Sublist.refl _)

end Sound

theorem setReceiver_keys (emitter : Emitter) (id : SubscriptionId) (receiver : Receiver) :
    (emitter.setReceiver id receiver).receivers.map (·.1) = emitter.receivers.map (·.1) := by
  show List.map _ (List.map _ _) = _
  rw [List.map_map]
  refine List.map_congr_left fun entry _ => ?_
  show (if entry.1 = id then (id, receiver) else entry : SubscriptionId × Receiver).1 = entry.1
  split
  · next same => exact same.symm
  · rfl

theorem publish_keys (emitter : Emitter) (notice : Event.Notice) (now : Instant) :
    (emitter.publish notice now).2.receivers.map (·.1) = emitter.receivers.map (·.1) := by
  show List.map _ (List.map _ _) = _
  rw [List.map_map]
  rfl

/-- No call brings an identifier that was there already. -/
theorem Call.sound {call : Call} {answer : Answer} (h : Sound emitter)
    (performs : call.perform emitter = (answer, after)) : Sound after := by
  have after_eq : (call.perform emitter).2 = after := by rw [performs]
  rw [← after_eq]
  cases call with
  | channel filter => exact h.subscribe filter _
  | callback filter name reaction => exact h.subscribe filter _
  | unsubscribe target => exact h.shrink rfl rfl List.filter_sublist
  | drain target =>
    show Sound (emitter.drain target).2
    unfold Emitter.drain
    split
    · exact h.shrink (setReceiver_keys _ _ _) rfl (List.Sublist.refl _)
    · exact h
  | drop target =>
    show Sound (emitter.close target).2
    unfold Emitter.close
    split
    · exact h.shrink (setReceiver_keys _ _ _) rfl (List.Sublist.refl _)
    · exact h
  | publish notice now => exact h.shrink (publish_keys _ _ _) rfl List.filter_sublist
  | recent count => exact h

/-- A call brings the identifier that it issues, and no other. -/
theorem Call.keys {call : Call} {answer : Answer}
    (performs : call.perform emitter = (answer, after)) :
    after.receivers.map (·.1) = emitter.receivers.map (·.1) ++ answer.issued?.toList := by
  cases call with
  | channel filter =>
    cases performs
    exact subscribe_keys _ _ _
  | callback filter name reaction =>
    cases performs
    exact subscribe_keys _ _ _
  | drain target =>
    cases performs
    show (emitter.drain target).2.receivers.map (·.1) = _ ++ []
    rw [List.append_nil, Emitter.drain]
    split
    · exact setReceiver_keys _ _ _
    · rfl
  | drop target =>
    cases performs
    show (emitter.close target).2.receivers.map (·.1) = _ ++ []
    rw [List.append_nil, Emitter.close]
    split
    · exact setReceiver_keys _ _ _
    · rfl
  | publish notice now =>
    cases performs
    show (emitter.publish notice now).2.receivers.map (·.1) = _ ++ []
    rw [List.append_nil, publish_keys]
  | unsubscribe | recent =>
    cases performs
    exact (List.append_nil _).symm

theorem sound_withCapacity (capacity : Nat) : Sound (withCapacity capacity) :=
  ⟨.nil, nofun, .slnil⟩

/-- Whatever was called, an identifier stands for one subscription. -/
theorem Run.sound (h : Sound start) (run : Run start history emitter) : Sound emitter := by
  induction run with
  | begins => exact h
  | answers _ performs ih => exact Call.sound ih performs

/-- The receivers are those of the subscriptions that were made. -/
theorem Run.keys {capacity : Nat} (run : Run (withCapacity capacity) history emitter) :
    emitter.receivers.map (·.1) = subscriptions history := by
  induction run with
  | begins => rfl
  | @answers past _ _ _ answer _ performs ih =>
    rw [Call.keys performs, ih, subscriptions, subscriptions, List.filterMap_append]
    rfl

/-! ## Events -/

/-- The event that was published, if one was. -/
def Answer.event? : Answer → Option Event
  | .published event => some event
  | _ => none

/-- The events that were published, oldest first. -/
def published (history : List Entry) : List Event :=
  history.filterMap (·.answer.event?)

theorem published_append (first second : List Entry) :
    published (first ++ second) = published first ++ published second :=
  List.filterMap_append

theorem published_concat (history : List Entry) (call : Call) (event : Event) :
    published (history ++ [⟨call, .published event⟩]) = published history ++ [event] :=
  published_append _ _

theorem published_concat_none (history : List Entry) {call : Call} {answer : Answer}
    (silent : answer.event? = none) :
    published (history ++ [⟨call, answer⟩]) = published history := by
  rw [published_append]
  simp [published, silent]

/-- A call publishes an event, or changes nothing of the events. -/
theorem perform_cases {call : Call} {answer : Answer}
    (performs : call.perform emitter = (answer, after)) :
    (∃ notice now, call = .publish notice now ∧
      answer = .published ⟨emitter.sequence + 1, now, notice⟩ ∧
      after = (emitter.publish notice now).2) ∨
    answer.event? = none ∧ after.sequence = emitter.sequence ∧
      after.capacity = emitter.capacity ∧ after.history = emitter.history := by
  cases call with
  | publish notice now =>
    cases performs
    exact .inl ⟨notice, now, rfl, rfl, rfl⟩
  | drain target =>
    cases performs
    refine .inr ⟨rfl, ?_⟩
    show (emitter.drain target).2.sequence = _ ∧ (emitter.drain target).2.capacity = _ ∧
      (emitter.drain target).2.history = _
    unfold Emitter.drain
    split <;> exact ⟨rfl, rfl, rfl⟩
  | drop target =>
    cases performs
    refine .inr ⟨rfl, ?_⟩
    show (emitter.close target).2.sequence = _ ∧ (emitter.close target).2.capacity = _ ∧
      (emitter.close target).2.history = _
    unfold Emitter.close
    split <;> exact ⟨rfl, rfl, rfl⟩
  | channel | callback | unsubscribe | recent =>
    cases performs
    exact .inr ⟨rfl, rfl, rfl, rfl⟩

/-- An event takes the place of the oldest of the last ones. -/
theorem remember_rtake {capacity : Nat} (room : 1 ≤ capacity) (events : List Event)
    (event : Event) :
    remember capacity (events.rtake capacity) event = (events ++ [event]).rtake capacity := by
  obtain ⟨others, rfl⟩ := Nat.exists_eq_add_of_le' room
  rw [List.rtake_concat_succ, remember]
  congr 1
  simp only [List.rtake, List.length_drop]
  by_cases full : others + 1 ≤ events.length
  · rw [if_pos (by omega), List.drop_drop]
    congr 1
    omega
  · rw [if_neg (by omega)]
    congr 1
    omega

/-- What an emitter knows of the events that were published. -/
structure Remembers (capacity : Nat) (history : List Entry) (emitter : Emitter) : Prop where
  capacity_eq : emitter.capacity = max capacity 1
  sequence : emitter.sequence = .ofNat (published history).length
  numbers : ∀ (place : Nat) (event : Event), (published history)[place]? = some event →
    event.sequence = .ofNat (place + 1)
  kept : emitter.history = (published history).rtake (max capacity 1)

/-- The events are numbered from one on, and the last of them are kept. -/
theorem Run.remembers {capacity : Nat} (run : Run (withCapacity capacity) history emitter) :
    Remembers capacity history emitter := by
  induction run with
  | begins =>
    refine ⟨rfl, rfl, ?_, (List.rtake_nil _).symm⟩
    intro place event found
    cases found
  | @answers past _ _ _ _ _ performs ih =>
    rcases perform_cases performs with ⟨notice, now, rfl, rfl, rfl⟩ | ⟨silent, number, room, kept⟩
    · have number := congrArg (· + 1) ih.sequence
      rw [← UInt64.ofNat_one, ← UInt64.ofNat_add] at number
      refine ⟨ih.capacity_eq, ?_, ?_, ?_⟩
      · rw [published_concat, List.length_append]
        exact number
      · intro place event found
        rw [published_concat] at found
        rcases Nat.lt_or_ge place (published past).length with earlier | last
        · rw [List.getElem?_append_left earlier] at found
          exact ih.numbers place event found
        · rw [List.getElem?_append_right last] at found
          obtain ⟨within, -⟩ := List.getElem?_eq_some_iff.1 found
          rw [List.length_singleton] at within
          have same : place = (published past).length := by omega
          rw [same, Nat.sub_self] at found
          cases found
          rw [same]
          exact number
      · rw [published_concat]
        show remember _ _ _ = _
        rw [ih.capacity_eq, ih.kept]
        exact remember_rtake (Nat.le_max_right _ _) _ _
    · refine ⟨room.trans ih.capacity_eq, ?_, ?_, ?_⟩
      · rw [published_concat_none _ silent, number, ih.sequence]
      · rw [published_concat_none _ silent]
        exact ih.numbers
      · rw [published_concat_none _ silent, kept, ih.kept]

end JobSwarm.Emitter
