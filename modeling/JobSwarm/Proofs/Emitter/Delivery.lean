import JobSwarm.Proofs.Emitter.Subscription
import JobSwarm.Proofs.Keyed

/-!
# What subscribers are told

After any calls, each channel holds what is due to it and was not taken from it, each callback was
told what is due to it, and a subscription counts until it is ended, or until its receiver was
dropped and an event for it came too late. The events are numbered, and the last of them are kept.

Results:

* `Run.channel`, `Run.callback`: a subscription after any calls.
* `Telling.step`: what callbacks are told, one subscription at a time.
* `Run.delivers`: numbers, history, channels, callbacks and subscriptions, after any calls.
-/

namespace JobSwarm.Emitter

open Time (Instant)

variable {start emitter after : Emitter} {capacity : Nat} {filter : Event.Filter}
  {id : SubscriptionId} {view : View} {history earlier since : List Entry}

/-! ## A subscription after any calls -/

theorem Run.shows_channel (sound : Sound start)
    (shows : Shows start filter id ⟨true, .channel [] false⟩) (run : Run start since emitter) :
    ∃ view, Shows emitter filter id view ∧ Follows filter id since view := by
  induction run with
  | begins => exact ⟨_, shows, .begins filter id⟩
  | answers run performs ih =>
    obtain ⟨view, shows, follows⟩ := ih
    exact ⟨_, shows.step (run.sound sound) performs, follows.step shows performs⟩

theorem Run.shows_callback {name : String} {reaction : Reaction} (sound : Sound start)
    (shows : Shows start filter id ⟨true, .callback name reaction⟩)
    (run : Run start since emitter) :
    ∃ view, Shows emitter filter id view ∧ Listens name reaction id since view := by
  induction run with
  | begins => exact ⟨_, shows, rfl, rfl⟩
  | answers run performs ih =>
    obtain ⟨view, shows, listens⟩ := ih
    exact ⟨_, shows.step (run.sound sound) performs, listens.step _⟩

/-- A channel, after any calls since it was subscribed. -/
theorem Run.channel
    (run : Run (withCapacity capacity)
      (earlier ++ ⟨.channel filter, .issued id⟩ :: since) emitter) :
    ∃ view, Shows emitter filter id view ∧ Follows filter id since view := by
  obtain ⟨between, before, rest⟩ := run.split
  obtain ⟨subscribed, performs, rest⟩ := rest.uncons
  have sound := before.sound (sound_withCapacity capacity)
  cases performs
  exact rest.shows_channel (sound.subscribe _ _) (.subscribed sound _ _)

/-- A callback, after any calls since it was subscribed. -/
theorem Run.callback {name : String} {reaction : Reaction}
    (run : Run (withCapacity capacity)
      (earlier ++ ⟨.callback filter name reaction, .issued id⟩ :: since) emitter) :
    ∃ view, Shows emitter filter id view ∧ Listens name reaction id since view := by
  obtain ⟨between, before, rest⟩ := run.split
  obtain ⟨subscribed, performs, rest⟩ := rest.uncons
  have sound := before.sound (sound_withCapacity capacity)
  cases performs
  exact rest.shows_callback (sound.subscribe _ _) (.subscribed sound _ _)

/-- A call that makes a subscription. -/
inductive Subscribes (filter : Event.Filter) : Call → Prop
  | channel : Subscribes filter (.channel filter)
  | callback (name : String) (reaction : Reaction) :
      Subscribes filter (.callback filter name reaction)

/-- Every identifier that was issued was issued for a subscription. -/
theorem Run.subscription (run : Run (withCapacity capacity) history emitter)
    (hmem : id ∈ subscriptions history) :
    ∃ earlier call since filter, history = earlier ++ ⟨call, .issued id⟩ :: since ∧
      Subscribes filter call := by
  obtain ⟨⟨call, answer⟩, hmem, issued⟩ := List.mem_filterMap.1 hmem
  obtain ⟨earlier, since, rfl⟩ := List.append_of_mem hmem
  obtain ⟨between, before, rest⟩ := run.split
  obtain ⟨subscribed, performs, rest⟩ := rest.uncons
  cases call with
  | channel filter =>
    cases performs
    cases issued
    exact ⟨earlier, _, since, filter, rfl, .channel⟩
  | callback filter name reaction =>
    cases performs
    cases issued
    exact ⟨earlier, _, since, filter, rfl, .callback name reaction⟩
  | _ =>
    cases performs
    cases issued

/-! ## What callbacks are told -/

/-- That a callback was told an event. -/
structure Told where
  id : SubscriptionId
  name : String
  event : Event

/-- What the callback notes of it. -/
def Told.note (told : Told) : String × UInt64 :=
  (told.name, told.event.sequence)

/-- What a receiver is told of an event. -/
def tell? (event : Event) : SubscriptionId × Receiver → Option Told
  | (id, .callback name _) => some ⟨id, name, event⟩
  | (_, .channel ..) => none

/-- The subscriptions that an event is for. -/
def wanted (emitter : Emitter) (notice : Event.Notice) : List SubscriptionId :=
  (emitter.slots.filter fun slot => slot.filter.accepts notice).map (·.id)

/-- What callbacks are told of an event. -/
def tells (emitter : Emitter) (event : Event) : List Told :=
  (emitter.receivers.filter fun entry => (emitter.wanted event.notice).contains entry.1).filterMap
    (tell? event)

/-- What callbacks are told in a call. -/
def Answer.tells (emitter : Emitter) (answer : Answer) : List Told :=
  answer.event?.elim [] emitter.tells

theorem heard_perform {call : Call} {answer : Answer}
    (performs : call.perform emitter = (answer, after)) :
    after.heard = emitter.heard ++ (answer.tells emitter).map Told.note := by
  cases call with
  | publish notice now =>
    cases performs
    show _ ++ _ = _ ++ List.map _ (List.filterMap _ _)
    rw [List.map_filterMap]
    refine congrArg (emitter.heard ++ ·) (List.filterMap_congr fun entry _ => ?_)
    obtain ⟨id, receiver⟩ := entry
    cases receiver <;> rfl
  | drain target =>
    cases performs
    show (emitter.drain target).2.heard = _ ++ []
    rw [List.append_nil, drain_empty, empty]
    split <;> rfl
  | drop target =>
    cases performs
    show (emitter.close target).2.heard = _ ++ []
    rw [List.append_nil, close_empty, empty]
    split <;> rfl
  | channel | callback | unsubscribe | recent =>
    cases performs
    exact (List.append_nil _).symm

theorem tell?_eq_some {event : Event} {entry : SubscriptionId × Receiver} {told : Told}
    (h : tell? event entry = some told) :
    told.id = entry.1 ∧ told.event = event ∧
      ∃ reaction, entry.2 = .callback told.name reaction := by
  obtain ⟨id, receiver⟩ := entry
  cases receiver with
  | channel => cases h
  | callback name reaction =>
    cases h
    exact ⟨rfl, rfl, reaction, rfl⟩

/-- Other receivers are told nothing under an identifier. -/
theorem tells_filter_of_ne {entries : List (SubscriptionId × Receiver)}
    {wants : SubscriptionId × Receiver → Bool} {event : Event}
    (others : ∀ entry ∈ entries, entry.1 ≠ id) :
    ((entries.filter wants).filterMap (tell? event)).filter (fun told => told.id = id) = [] := by
  refine List.filter_eq_nil_iff.2 fun told hmem => ?_
  obtain ⟨entry, hmem, tells⟩ := List.mem_filterMap.1 hmem
  rw [decide_eq_true_eq, (tell?_eq_some tells).1]
  exact others entry (List.mem_of_mem_filter hmem)

/-- Of what callbacks are told, one callback is told the event if it is for it. -/
theorem tells_filter {name : String} {reaction : Reaction} (sound : Sound emitter)
    (shows : Shows emitter filter id view) (callback : view.receiver = .callback name reaction)
    (event : Event) :
    (emitter.tells event).filter (fun told => told.id = id) =
      if view.served && filter.accepts event.notice then [⟨id, name, event⟩] else [] := by
  have found := shows.receiver
  rw [callback] at found
  obtain ⟨before, later, shape, absent⟩ := List.lookup_eq_some_iff.1 found
  have once := sound.ids_once
  rw [shape, List.map_append, List.map_cons] at once
  have alone := (List.nodup_middle.1 once).notMem
  rw [List.mem_append, not_or] at alone
  have none_before : ∀ entry ∈ before, entry.1 ≠ id := fun entry hmem same =>
    alone.1 (List.mem_map.2 ⟨entry, hmem, same⟩)
  have none_later : ∀ entry ∈ later, entry.1 ≠ id := fun entry hmem same =>
    alone.2 (List.mem_map.2 ⟨entry, hmem, same⟩)
  unfold tells
  rw [shape, List.filter_append, List.filterMap_append, List.filter_append,
    tells_filter_of_ne none_before, List.nil_append, List.filter_cons]
  have goes : (emitter.wanted event.notice).contains id =
      (view.served && filter.accepts event.notice) := shows.wanted_iff event.notice
  rw [goes]
  split
  · have told : tell? event (id, .callback name reaction) = some ⟨id, name, event⟩ := rfl
    rw [List.filterMap_cons_some told, List.filter_cons, tells_filter_of_ne none_later]
    exact if_pos (decide_eq_true rfl)
  · exact tells_filter_of_ne none_later

/-- What callbacks were told in all: each callback what is due to it, and nobody else anything. -/
structure Telling (history : List Entry) (emitter : Emitter) (told : List Told) : Prop where
  heard : emitter.heard = told.map Told.note
  callbacks : ∀ one ∈ told, ∃ filter reaction,
    ⟨.callback filter one.name reaction, .issued one.id⟩ ∈ history
  each : ∀ (earlier : List Entry) (filter : Event.Filter) (name : String) (reaction : Reaction)
      (id : SubscriptionId) (since : List Entry),
    history = earlier ++ ⟨.callback filter name reaction, .issued id⟩ :: since →
      told.filter (fun one => one.id = id) =
        (due filter id since).map fun event => ⟨id, name, event⟩

namespace Telling

variable {told : List Told}

/-- A new subscription has been told nothing. -/
theorem filter_eq_nil {call : Call} (h : Telling history emitter told)
    (once : (subscriptions (history ++ [⟨call, .issued id⟩])).Nodup) :
    told.filter (fun one => one.id = id) = [] := by
  refine List.filter_eq_nil_iff.2 fun one hmem same => ?_
  rw [decide_eq_true_eq] at same
  obtain ⟨filter, reaction, issued⟩ := h.callbacks one hmem
  rw [same] at issued
  have known : id ∈ subscriptions history := List.mem_filterMap.2 ⟨_, issued, rfl⟩
  rw [subscriptions, List.filterMap_append] at once
  exact (List.disjoint_of_nodup_append once) known (List.mem_singleton_self id)

/-- Only callbacks are told anything. -/
theorem callback_of_tells (run : Run (withCapacity capacity) history emitter) {event : Event}
    {one : Told} (hmem : one ∈ emitter.tells event) :
    ∃ filter reaction, ⟨.callback filter one.name reaction, .issued one.id⟩ ∈ history := by
  obtain ⟨entry, hmem, tells⟩ := List.mem_filterMap.1 hmem
  have hmem := List.mem_of_mem_filter hmem
  obtain ⟨hid, -, reaction, callback⟩ := tell?_eq_some tells
  have known : one.id ∈ subscriptions history := by
    rw [hid, ← run.keys]
    exact List.mem_map_of_mem hmem
  have listed : (one.id, .callback one.name reaction) ∈ emitter.receivers := by
    rw [hid, ← callback]
    exact hmem
  have found := receiver?_of_mem (run.sound (sound_withCapacity capacity)) listed
  obtain ⟨earlier, call, since, filter, shape, subscribes⟩ := run.subscription known
  rw [shape] at run ⊢
  cases subscribes with
  | channel =>
    obtain ⟨view, shows, follows⟩ := run.channel
    obtain ⟨waiting, closed, channel⟩ := follows.is_channel
    rw [shows.receiver, channel] at found
    cases found
  | callback name reaction' =>
    obtain ⟨view, shows, listens⟩ := run.callback
    rw [shows.receiver, listens.receiver] at found
    cases found
    exact ⟨filter, reaction, List.mem_append_right _ List.mem_cons_self⟩

/-- One more call. -/
theorem step {call : Call} {answer : Answer} (h : Telling history emitter told)
    (run : Run (withCapacity capacity) history emitter)
    (performs : call.perform emitter = (answer, after)) :
    Telling (history ++ [⟨call, answer⟩]) after (told ++ answer.tells emitter) := by
  have sound := run.sound (sound_withCapacity capacity)
  refine ⟨?_, ?_, ?_⟩
  · rw [heard_perform performs, h.heard, List.map_append]
  · intro one hmem
    rcases List.mem_append.1 hmem with hmem | hmem
    · obtain ⟨filter, reaction, issued⟩ := h.callbacks one hmem
      exact ⟨filter, reaction, List.mem_append_left _ issued⟩
    · cases heard : answer.event? with
      | none =>
        rw [Answer.tells, heard] at hmem
        cases hmem
      | some event =>
        rw [Answer.tells, heard] at hmem
        obtain ⟨filter, reaction, issued⟩ := callback_of_tells run hmem
        exact ⟨filter, reaction, List.mem_append_left _ issued⟩
  · intro earlier filter name reaction id since shape
    rw [List.filter_append]
    obtain ⟨-, last, rfl⟩ | ⟨others, rfl, before⟩ := Keyed.concat_eq shape
    · cases last
      have longer := run.answers performs
      have once := (longer.sound (sound_withCapacity capacity)).ids_once
      rw [longer.keys] at once
      rw [h.filter_eq_nil once]
      rfl
    · rw [h.each earlier filter name reaction id others before, due_concat, List.map_append]
      congr 1
      rw [before] at run
      obtain ⟨view, shows, listens⟩ := run.callback
      rcases perform_cases performs with ⟨notice, now, rfl, rfl, -⟩ | ⟨quiet, -⟩
      · have tells := tells_filter sound shows listens.receiver ⟨emitter.sequence + 1, now, notice⟩
        rw [listens.served] at tells
        refine tells.trans ?_
        have publishes : published [⟨.publish notice now,
            .published ⟨emitter.sequence + 1, now, notice⟩⟩] =
              [⟨emitter.sequence + 1, now, notice⟩] := rfl
        rw [publishes, passing, List.filter_singleton]
        show _ = List.map _ (if _ || false then [] else bif filter.accepts notice then _ else _)
        cases ended id others <;> cases filter.accepts notice <;> rfl
      · have nothing : published [⟨call, answer⟩] = [] := published_concat_none [] quiet
        rw [nothing, Answer.tells, quiet]
        split <;> rfl

end Telling

/-- After any calls, it is known what callbacks were told. -/
theorem Run.telling (run : Run (withCapacity capacity) history emitter) :
    ∃ told, Telling history emitter told := by
  induction run with
  | begins =>
    refine ⟨[], rfl, ?_, ?_⟩
    · intro one hmem
      cases hmem
    · intro earlier filter name reaction id since shape
      simp at shape
  | answers run performs ih =>
    obtain ⟨told, telling⟩ := ih
    exact ⟨_, telling.step run performs⟩

/-! ## An emitter after any calls -/

/-- What is due comes in the order of the events that were published. -/
theorem due_sublist (h : since <:+ history) : (due filter id since).Sublist (published history) :=
  List.filter_sublist.trans
    (((List.takeWhile_sublist _).trans h.sublist).filterMap _)

/-- An emitter that numbers and keeps the events, and delivers each to those whom it is for. -/
structure Delivers (capacity : Nat) (history : List Entry) (emitter : Emitter) : Prop where
  /-- The events are numbered from one on. -/
  stamped : ∀ (place : Nat) (event : Event), (published history)[place]? = some event →
    event.sequence.toNat = place + 1
  last : emitter.sequence.toNat = (published history).length
  /-- An event says what was published, and when. -/
  published_as : ∀ notice now answer, ⟨.publish notice now, answer⟩ ∈ history →
    ∃ number, answer = .published ⟨number, now, notice⟩
  /-- The last events are kept, one at least. -/
  kept : emitter.history = (published history).rtake (max capacity 1)
  recent : ∀ count, emitter.recent count = emitter.history.rtake count
  /-- An event passes a filter if it meets each criterion; a list of no topics lets nothing pass. -/
  passes : ∀ (filter : Event.Filter) (notice : Event.Notice), filter.accepts notice = true ↔
    (∀ topics, filter.topics = some topics → notice.topic ∈ topics) ∧
      (∀ id, filter.job = some id → notice.jobId? = some id) ∧
        ∀ id, filter.agent = some id → notice.agentId? = some id
  /-- What was taken from a channel and what waits in it is what is due to it, unless it was
  dropped. It counts until it is ended, or an event for it is published after it was dropped. -/
  channels : ∀ (earlier : List Entry) (filter : Event.Filter) (id : SubscriptionId)
      (since : List Entry), history = earlier ++ ⟨.channel filter, .issued id⟩ :: since →
    (dropped id since = false → ∃ waiting, emitter.receiver? id = some (.channel waiting false) ∧
      taken id since ++ waiting = due filter id since) ∧
    (id ∈ emitter.slots.map (·.id) ↔ ended id since = false ∧ missed filter id since = false)
  /-- Each callback was told what is due to it, and nobody else anything. It counts until it is
  ended, however it takes what it is told. -/
  callbacks : (∃ told, Telling history emitter told) ∧
    ∀ (earlier : List Entry) (filter : Event.Filter) (name : String) (reaction : Reaction)
      (id : SubscriptionId) (since : List Entry),
      history = earlier ++ ⟨.callback filter name reaction, .issued id⟩ :: since →
        (id ∈ emitter.slots.map (·.id) ↔ ended id since = false)
  /-- What is due comes once, in the order of the numbers. -/
  in_order : ∀ (filter : Event.Filter) (id : SubscriptionId) (since : List Entry),
    since <:+ history → (due filter id since).Pairwise fun a b => a.sequence < b.sequence
  /-- Those that count are subscriptions that were made, each once. -/
  counted : (emitter.slots.map (·.id)).Sublist (subscriptions history) ∧
    (subscriptions history).Nodup ∧
      emitter.subscriberCount = (emitter.slots.map (·.id)).length
  /-- A subscription can be ended as long as it counts. -/
  unsubscribes : ∀ id, (emitter.unsubscribe id).1 = true ↔ id ∈ emitter.slots.map (·.id)

/-- Whatever is called, in whatever order, an emitter numbers and keeps the events, and delivers
each to those whom it is for. -/
theorem Run.delivers (run : Run (withCapacity capacity) history emitter)
    (few : (published history).length < UInt64.size) : Delivers capacity history emitter := by
  have remembers := run.remembers
  have sound := run.sound (sound_withCapacity capacity)
  have stamped : ∀ (place : Nat) (event : Event), (published history)[place]? = some event →
      event.sequence.toNat = place + 1 := by
    intro place event found
    obtain ⟨within, -⟩ := List.getElem?_eq_some_iff.1 found
    rw [remembers.numbers place event found]
    exact UInt64.toNat_ofNat_of_lt' (by omega)
  refine ⟨stamped, ?_, ?_, remembers.kept, fun _ => rfl, Event.Filter.accepts_iff, ?_,
    ⟨run.telling, ?_⟩, ?_, ?_, ?_⟩
  · rw [remembers.sequence]
    exact UInt64.toNat_ofNat_of_lt' few
  · intro notice now answer hmem
    obtain ⟨earlier, since, rfl⟩ := List.append_of_mem hmem
    obtain ⟨between, -, rest⟩ := run.split
    obtain ⟨_, performs, -⟩ := rest.uncons
    cases performs
    exact ⟨_, rfl⟩
  · intro earlier filter id since shape
    rw [shape] at run
    obtain ⟨view, shows, follows⟩ := run.channel
    refine ⟨fun undropped => ?_, ?_⟩
    · obtain ⟨waiting, channel, all⟩ := follows.opened undropped
      exact ⟨waiting, channel ▸ shows.receiver, all⟩
    · rw [shows.served_iff, follows.served]
      simp
  · intro earlier filter name reaction id since shape
    rw [shape] at run
    obtain ⟨view, shows, listens⟩ := run.callback
    rw [shows.served_iff, listens.served]
    simp
  · intro filter id since ending
    refine List.Pairwise.sublist (due_sublist ending) (List.pairwise_iff_getElem.2 ?_)
    intro i j hi hj before
    rw [UInt64.lt_iff_toNat_lt, stamped i _ (List.getElem?_eq_getElem hi),
      stamped j _ (List.getElem?_eq_getElem hj)]
    omega
  · have known := sound.known
    have once := sound.ids_once
    rw [run.keys] at known once
    exact ⟨known, once, (List.length_map _).symm⟩
  · intro id
    simp [Emitter.unsubscribe]

/-- What happens to the one agent of a swarm. -/
def soloTaken : Event.Notice :=
  .agentStatusChanged ⟨"solo-1"⟩ .idle .busy

/-- A channel and a callback that panics are told of it. Then the channel is dropped, and it happens
again. -/
def pairHistory : List Entry :=
  [⟨.channel .all, .issued ⟨1⟩⟩,
    ⟨.callback (.onTopics [.agentStatusChanged]) "ear" .panics, .issued ⟨2⟩⟩,
    ⟨.publish soloTaken .epoch, .published ⟨1, .epoch, soloTaken⟩⟩,
    ⟨.drain ⟨1⟩, .drained (some [⟨1, .epoch, soloTaken⟩])⟩,
    ⟨.drop ⟨1⟩, .dropped true⟩,
    ⟨.publish soloTaken .epoch, .published ⟨2, .epoch, soloTaken⟩⟩]

theorem run_pair : ∃ emitter, Run (withCapacity 0) pairHistory emitter ∧
    emitter.subscriberCount = 1 ∧ emitter.heardBy "ear" = [1, 2] := by
  exact ⟨_, (((((Run.begins.answers rfl).answers rfl).answers rfl).answers rfl).answers
    rfl).answers rfl, rfl, rfl⟩

theorem Run.delivers_to_pair :
    ∃ emitter, Run (withCapacity 0) pairHistory emitter ∧ emitter.subscriberCount = 1 ∧
      emitter.heardBy "ear" = [1, 2] ∧ Delivers 0 pairHistory emitter := by
  obtain ⟨emitter, run, count, heard⟩ := run_pair
  exact ⟨emitter, run, count, heard, run.delivers (by decide)⟩

end JobSwarm.Emitter
