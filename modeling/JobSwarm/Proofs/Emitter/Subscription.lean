import JobSwarm.Proofs.Emitter.Calls

/-!
# One subscription

What a call does to one subscription can be told from the subscription alone: nobody else matters to
it. What is due to it can be read off the calls that were made since: the events that were published
before it was ended, those that pass its filter.

Results:

* `due_concat`, `missed_concat`: what is due, and what was missed, after one more call.
* `Shows.step`: what a call does to one subscription.
* `Follows.step`: so a channel holds what is due to it and was not taken yet.
* `Listens.step`: and a callback is served until it is ended.
-/

namespace JobSwarm.Emitter

open Time (Instant)

/-! ## What is due -/

/-- Whether a call ends a subscription. -/
def Entry.unsubscribes (id : SubscriptionId) (entry : Entry) : Bool :=
  match entry.call with
  | .unsubscribe target => target == id
  | _ => false

/-- Whether a call drops the receiver of a subscription. -/
def Entry.drops (id : SubscriptionId) (entry : Entry) : Bool :=
  match entry.call with
  | .drop target => target == id
  | _ => false

/-- The events that a call takes from a channel. -/
def Entry.takes (id : SubscriptionId) : Entry → List Event
  | ⟨.drain target, .drained (some events)⟩ => if target = id then events else []
  | _ => []

/-- The events that a filter lets pass. -/
def passing (filter : Event.Filter) (events : List Event) : List Event :=
  events.filter fun event => filter.accepts event.notice

/-- What is due to a subscription, by the calls since it was made: what passes its filter, of the
events that were published before it was ended. -/
def due (filter : Event.Filter) (id : SubscriptionId) (since : List Entry) : List Event :=
  passing filter (published (since.takeWhile fun entry => !entry.unsubscribes id))

/-- What was taken from a channel. -/
def taken (id : SubscriptionId) (since : List Entry) : List Event :=
  since.flatMap (Entry.takes id)

/-- Whether a subscription was ended. -/
def ended (id : SubscriptionId) (since : List Entry) : Bool :=
  since.any (Entry.unsubscribes id)

/-- Whether the receiver of a subscription was dropped. -/
def dropped (id : SubscriptionId) (since : List Entry) : Bool :=
  since.any (Entry.drops id)

/-- Whether an event that passes the filter was published after the receiver was dropped. -/
def missed (filter : Event.Filter) (id : SubscriptionId) (since : List Entry) : Bool :=
  (published (since.dropWhile fun entry => !entry.drops id)).any fun event =>
    filter.accepts event.notice

section Laws

variable {filter : Event.Filter} {id : SubscriptionId} {since : List Entry} {entry : Entry}

theorem passing_append (first second : List Event) :
    passing filter (first ++ second) = passing filter first ++ passing filter second :=
  List.filter_append _ _

theorem due_cons : due filter id (entry :: since) =
    if entry.unsubscribes id then []
    else passing filter (published [entry]) ++ due filter id since := by
  unfold due
  rw [List.takeWhile_cons]
  cases entry.unsubscribes id with
  | true => rfl
  | false =>
    rw [← passing_append, ← published_append]
    rfl

theorem due_concat : due filter id (since ++ [entry]) =
    due filter id since ++
      if ended id since || entry.unsubscribes id then []
      else passing filter (published [entry]) := by
  induction since with
  | nil =>
    rw [List.nil_append, due_cons]
    cases entry.unsubscribes id with
    | true => rfl
    | false => exact List.append_nil _
  | cons first rest ih =>
    have ends : ended id (first :: rest) = (first.unsubscribes id || ended id rest) := List.any_cons
    rw [List.cons_append, due_cons, due_cons, ih, ends]
    cases first.unsubscribes id with
    | true => rfl
    | false => exact (List.append_assoc _ _ _).symm

theorem taken_concat : taken id (since ++ [entry]) = taken id since ++ entry.takes id := by
  rw [taken, List.flatMap_append, List.flatMap_singleton, taken]

theorem ended_concat : ended id (since ++ [entry]) = (ended id since || entry.unsubscribes id) := by
  rw [ended, List.any_append, List.any_cons, List.any_nil, Bool.or_false, ended]

theorem dropped_concat : dropped id (since ++ [entry]) = (dropped id since || entry.drops id) := by
  rw [dropped, List.any_append, List.any_cons, List.any_nil, Bool.or_false, dropped]

theorem missed_cons : missed filter id (entry :: since) =
    if entry.drops id then
      (published (entry :: since)).any fun event => filter.accepts event.notice
    else missed filter id since := by
  unfold missed
  rw [List.dropWhile_cons]
  cases entry.drops id <;> rfl

theorem missed_concat : missed filter id (since ++ [entry]) =
    (missed filter id since || (dropped id since || entry.drops id) &&
      (published [entry]).any fun event => filter.accepts event.notice) := by
  induction since with
  | nil =>
    rw [List.nil_append, missed_cons]
    cases entry.drops id <;> rfl
  | cons first rest ih =>
    have drops : dropped id (first :: rest) = (first.drops id || dropped id rest) := List.any_cons
    rw [List.cons_append, missed_cons, missed_cons, ih, drops]
    cases first.drops id with
    | true =>
      rw [← List.cons_append, published_append, List.any_append]
      rfl
    | false => rfl

/-- Nothing is missed before the receiver is dropped. -/
theorem missed_of_not_dropped (h : dropped id since = false) : missed filter id since = false := by
  induction since with
  | nil => rfl
  | cons first rest ih =>
    have drops : dropped id (first :: rest) = (first.drops id || dropped id rest) := List.any_cons
    rw [drops, Bool.or_eq_false_iff] at h
    rw [missed_cons, h.1]
    exact ih h.2

end Laws

/-! ## One subscription -/

/-- A subscription as it shows itself: whether it is served, and its receiver. -/
structure View where
  served : Bool
  receiver : Receiver

/-- Whether a receiver can take an event: it can unless it is a closed channel. -/
def Receiver.isOpen : Receiver → Bool
  | .channel _ closed => !closed
  | .callback .. => true

/-- A channel whose events are gone, and that is closed from now on or not. A closed channel stays
as it is. -/
def Receiver.emptied (closed : Bool) : Receiver → Receiver
  | .channel _ false => .channel [] closed
  | receiver => receiver

/-- A subscription after a call. -/
def View.step (filter : Event.Filter) (id : SubscriptionId) (view : View) (entry : Entry) : View :=
  match entry.call, entry.answer.event? with
  | .unsubscribe target, _ => if target = id then { view with served := false } else view
  | .drain target, _ =>
    if target = id then { view with receiver := view.receiver.emptied false } else view
  | .drop target, _ =>
    if target = id then { view with receiver := view.receiver.emptied true } else view
  | .publish .., some event =>
    if view.served && filter.accepts event.notice then
      { served := view.receiver.isOpen, receiver := view.receiver.take event }
    else view
  | _, _ => view

variable {emitter after : Emitter} {filter : Event.Filter} {id : SubscriptionId} {view : View}

/-- An emitter in which a subscription looks so. -/
structure Shows (emitter : Emitter) (filter : Event.Filter) (id : SubscriptionId) (view : View) :
    Prop where
  filtered : ∀ slot ∈ emitter.slots, slot.id = id → slot.filter = filter
  served_iff : id ∈ emitter.slots.map (·.id) ↔ view.served = true
  receiver : emitter.receiver? id = some view.receiver

theorem lookup_map {f : SubscriptionId → Receiver → Receiver}
    {receivers : List (SubscriptionId × Receiver)} :
    (receivers.map fun entry => (entry.1, f entry.1 entry.2)).lookup id =
      (receivers.lookup id).map (f id) := by
  induction receivers with
  | nil => rfl
  | cons entry rest ih =>
    obtain ⟨other, receiver⟩ := entry
    rw [List.map_cons, List.lookup_cons, List.lookup_cons, ih]
    cases same : id == other with
    | true =>
      rw [eq_of_beq same]
      rfl
    | false => rfl

theorem receiver?_setReceiver (target : SubscriptionId) (receiver : Receiver) :
    (emitter.setReceiver target receiver).receiver? id =
      (emitter.receiver? id).map fun old => if id = target then receiver else old := by
  have shape : (fun entry : SubscriptionId × Receiver =>
      if entry.1 = target then (target, receiver) else entry) =
      fun entry => (entry.1, if entry.1 = target then receiver else entry.2) := by
    funext entry
    split
    · next same => rw [same]
    · rfl
  show List.lookup id (List.map _ _) = _
  rw [shape]
  exact lookup_map (f := fun other old => if other = target then receiver else old)

theorem mem_keys_of_receiver? {receiver : Receiver} (h : emitter.receiver? id = some receiver) :
    id ∈ emitter.receivers.map (·.1) := by
  obtain ⟨earlier, later, shape, -⟩ := List.lookup_eq_some_iff.1 h
  rw [shape]
  simp

theorem receiver?_of_mem (sound : Sound emitter) {receiver : Receiver}
    (hmem : (id, receiver) ∈ emitter.receivers) : emitter.receiver? id = some receiver := by
  obtain ⟨before, later, shape⟩ := List.append_of_mem hmem
  have once := sound.ids_once
  rw [shape, List.map_append, List.map_cons] at once
  have alone := (List.nodup_middle.1 once).notMem
  refine List.lookup_eq_some_iff.2 ⟨before, later, shape, fun other hother => ?_⟩
  refine bne_iff_ne.2 fun same => alone ?_
  rw [same]
  exact List.mem_append_left _ (List.mem_map.2 ⟨other, hother, rfl⟩)

/-- The events of an open channel are gone, and it is closed from now on or not. -/
def empty (emitter : Emitter) (target : SubscriptionId) (closed : Bool) : Emitter :=
  match emitter.receiver? target with
  | some (.channel _ false) => emitter.setReceiver target (.channel [] closed)
  | _ => emitter

theorem drain_empty (emitter : Emitter) (target : SubscriptionId) :
    (emitter.drain target).2 = emitter.empty target false := by
  unfold drain empty
  rcases emitter.receiver? target with _ | ⟨waiting, _ | _⟩ | _ <;> rfl

theorem close_empty (emitter : Emitter) (target : SubscriptionId) :
    (emitter.close target).2 = emitter.empty target true := by
  unfold close empty
  rcases emitter.receiver? target with _ | ⟨waiting, _ | _⟩ | _ <;> rfl

namespace Shows

/-- A new subscription is served. -/
theorem subscribed (sound : Sound emitter) (filter : Event.Filter) (receiver : Receiver) :
    Shows (emitter.subscribe filter receiver).2 filter ⟨emitter.issued + 1⟩ ⟨true, receiver⟩ := by
  refine ⟨?_, ?_, ?_⟩
  · intro slot hmem hid
    rcases List.mem_append.1 hmem with hmem | hmem
    · have old := sound.known.mem (List.mem_map_of_mem hmem)
      rw [hid] at old
      exact absurd old sound.fresh
    · rw [List.mem_singleton.1 hmem]
  · rw [subscribe_slots]
    exact ⟨fun _ => rfl, fun _ => List.mem_append_right _ (List.mem_singleton_self _)⟩
  · have absent : emitter.receivers.lookup ⟨emitter.issued + 1⟩ = none := by
      cases found : emitter.receivers.lookup ⟨emitter.issued + 1⟩ with
      | none => rfl
      | some old => exact absurd (mem_keys_of_receiver? found) sound.fresh
    show List.lookup _ (_ ++ _) = _
    rw [List.lookup_append, absent, Option.none_or, List.lookup_cons, BEq.rfl]

/-- Another subscription is nothing to it. -/
theorem subscribe (sound : Sound emitter) (shows : Shows emitter filter id view)
    (other : Event.Filter) (receiver : Receiver) :
    Shows (emitter.subscribe other receiver).2 filter id view := by
  have apart : id ≠ ⟨emitter.issued + 1⟩ := by
    intro same
    have known := mem_keys_of_receiver? shows.receiver
    rw [same] at known
    exact sound.fresh known
  refine ⟨?_, ?_, ?_⟩
  · intro slot hmem hid
    rcases List.mem_append.1 hmem with hmem | hmem
    · exact shows.filtered slot hmem hid
    · rw [List.mem_singleton.1 hmem] at hid
      exact absurd hid.symm apart
  · rw [subscribe_slots, List.mem_append, List.mem_singleton, ← shows.served_iff]
    exact or_iff_left apart
  · show List.lookup _ (_ ++ _) = _
    have found : emitter.receivers.lookup id = some view.receiver := shows.receiver
    rw [List.lookup_append, found, Option.some_or]

theorem unsubscribe (shows : Shows emitter filter id view) (target : SubscriptionId) :
    Shows (emitter.unsubscribe target).2 filter id
      (if target = id then { view with served := false } else view) := by
  have slots : id ∈ (emitter.unsubscribe target).2.slots.map (·.id) ↔
      id ∈ emitter.slots.map (·.id) ∧ id ≠ target := by
    simp only [Emitter.unsubscribe, List.mem_map, List.mem_filter, bne_iff_ne]
    constructor
    · rintro ⟨slot, ⟨hmem, apart⟩, rfl⟩
      exact ⟨⟨slot, hmem, rfl⟩, apart⟩
    · rintro ⟨⟨slot, hmem, rfl⟩, apart⟩
      exact ⟨slot, ⟨hmem, apart⟩, rfl⟩
  have filtered : ∀ slot ∈ (emitter.unsubscribe target).2.slots, slot.id = id →
      slot.filter = filter :=
    fun slot hmem => shows.filtered slot (List.mem_filter.1 hmem).1
  split
  · next same =>
    refine ⟨filtered, ?_, shows.receiver⟩
    rw [slots, same]
    simp
  · next apart =>
    refine ⟨filtered, ?_, shows.receiver⟩
    rw [slots, shows.served_iff]
    exact and_iff_left (Ne.symm apart)

/-- The receiver of a subscription is replaced. -/
theorem setReceiver (shows : Shows emitter filter id view) (target : SubscriptionId)
    (receiver : Receiver) :
    Shows (emitter.setReceiver target receiver) filter id
      (if target = id then { view with receiver := receiver } else view) := by
  have found : (emitter.setReceiver target receiver).receiver? id =
      (emitter.receiver? id).map fun old => if id = target then receiver else old :=
    receiver?_setReceiver target receiver
  rw [shows.receiver, Option.map_some] at found
  split
  · next same =>
    rw [if_pos same.symm] at found
    exact ⟨shows.filtered, shows.served_iff, found⟩
  · next apart =>
    rw [if_neg (Ne.symm apart)] at found
    exact ⟨shows.filtered, shows.served_iff, found⟩

theorem empty (shows : Shows emitter filter id view) (target : SubscriptionId) (closed : Bool) :
    Shows (emitter.empty target closed) filter id
      (if target = id then { view with receiver := view.receiver.emptied closed } else view) := by
  unfold Emitter.empty
  split
  · next waiting found =>
    have replaced := shows.setReceiver target (.channel [] closed)
    split
    · next same =>
      rw [same, shows.receiver] at found
      rw [Option.some.inj found]
      rwa [if_pos same] at replaced
    · next apart => rwa [if_neg apart] at replaced
  · next shut =>
    split
    · next same =>
      rw [same, shows.receiver] at shut
      have still : view.receiver.emptied closed = view.receiver := by
        unfold Receiver.emptied
        split
        · next waiting found => exact absurd (congrArg some found) (shut waiting)
        · rfl
      rw [still]
      exact shows
    · exact shows

/-- An event goes to a subscription that is served, if it passes the filter. -/
theorem wanted_iff (shows : Shows emitter filter id view) (notice : Event.Notice) :
    ((emitter.slots.filter fun slot => slot.filter.accepts notice).map (·.id)).contains id =
      (view.served && filter.accepts notice) := by
  rw [Bool.eq_iff_iff, List.contains_iff_mem, Bool.and_eq_true, ← shows.served_iff]
  simp only [List.mem_map, List.mem_filter]
  constructor
  · rintro ⟨slot, ⟨hmem, accepts⟩, hid⟩
    rw [shows.filtered slot hmem hid] at accepts
    exact ⟨⟨slot, hmem, hid⟩, accepts⟩
  · rintro ⟨⟨slot, hmem, hid⟩, accepts⟩
    rw [← shows.filtered slot hmem hid] at accepts
    exact ⟨slot, ⟨hmem, accepts⟩, hid⟩

theorem isOpen_eq (shows : Shows emitter filter id view) :
    emitter.isOpen id = view.receiver.isOpen := by
  unfold Emitter.isOpen
  rw [shows.receiver]
  cases view.receiver <;> rfl

theorem publish (shows : Shows emitter filter id view) (notice : Event.Notice) (now : Instant) :
    Shows (emitter.publish notice now).2 filter id
      (if view.served && filter.accepts notice then
        ⟨view.receiver.isOpen, view.receiver.take (emitter.publish notice now).1⟩
      else view) := by
  let event := (emitter.publish notice now).1
  let wanted := (emitter.slots.filter fun slot => slot.filter.accepts notice).map (·.id)
  have receiver : (emitter.publish notice now).2.receiver? id = some
      (if view.served && filter.accepts notice then view.receiver.take event
      else view.receiver) := by
    rw [← shows.wanted_iff notice]
    show List.lookup id (List.map _ _) = _
    have found : emitter.receivers.lookup id = some view.receiver := shows.receiver
    refine (lookup_map (f := fun other old =>
      if wanted.contains other then old.take event else old)).trans ?_
    rw [found]
    rfl
  have served : id ∈ (emitter.publish notice now).2.slots.map (·.id) ↔
      view.served = true ∧ (!filter.accepts notice || view.receiver.isOpen) = true := by
    rw [← shows.served_iff, ← shows.isOpen_eq]
    simp only [Emitter.publish, List.mem_map, List.mem_filter]
    constructor
    · rintro ⟨slot, ⟨hmem, stays⟩, hid⟩
      rw [shows.filtered slot hmem hid, hid] at stays
      exact ⟨⟨slot, hmem, hid⟩, stays⟩
    · rintro ⟨⟨slot, hmem, hid⟩, stays⟩
      rw [← shows.filtered slot hmem hid, ← hid] at stays
      exact ⟨slot, ⟨hmem, stays⟩, hid⟩
  have filtered : ∀ slot ∈ (emitter.publish notice now).2.slots, slot.id = id →
      slot.filter = filter :=
    fun slot hmem => shows.filtered slot (List.mem_filter.1 hmem).1
  split
  · next goes =>
    rw [if_pos goes] at receiver
    rw [Bool.and_eq_true] at goes
    refine ⟨filtered, ?_, receiver⟩
    rw [served, goes.1, goes.2]
    simp
  · next stays =>
    rw [if_neg stays] at receiver
    refine ⟨filtered, ?_, receiver⟩
    rw [served]
    rw [Bool.and_eq_true, not_and] at stays
    refine and_iff_left_of_imp fun hserved => ?_
    have refuses := stays hserved
    simp [refuses]

/-- What a call does to one subscription. -/
theorem step {call : Call} {answer : Answer} (sound : Sound emitter)
    (shows : Shows emitter filter id view) (performs : call.perform emitter = (answer, after)) :
    Shows after filter id (view.step filter id ⟨call, answer⟩) := by
  cases call with
  | channel other =>
    cases performs
    exact shows.subscribe sound other _
  | callback other name reaction =>
    cases performs
    exact shows.subscribe sound other _
  | unsubscribe target =>
    cases performs
    exact shows.unsubscribe target
  | drain target =>
    cases performs
    show Shows (emitter.drain target).2 _ _ _
    rw [drain_empty]
    exact shows.empty target false
  | drop target =>
    cases performs
    show Shows (emitter.close target).2 _ _ _
    rw [close_empty]
    exact shows.empty target true
  | publish notice now =>
    cases performs
    exact shows.publish notice now
  | recent count =>
    cases performs
    exact shows

end Shows

/-- A subscription goes on, unless an event is for it that its receiver cannot take. -/
theorem View.served_publish (view : View) (accepts : Bool) (receiver : Receiver) :
    (if view.served && accepts then ⟨view.receiver.isOpen, receiver⟩ else view : View).served =
      (view.served && (!accepts || view.receiver.isOpen)) := by
  obtain ⟨served, old⟩ := view
  cases served <;> cases accepts <;> rfl

/-! ## Channels -/

/-- A channel to which nothing was lost: what was taken from it and what waits in it is what is due,
until it is dropped. -/
structure Follows (filter : Event.Filter) (id : SubscriptionId) (since : List Entry) (view : View) :
    Prop where
  opened : dropped id since = false → ∃ waiting, view.receiver = .channel waiting false ∧
    taken id since ++ waiting = due filter id since
  closed : dropped id since = true → ∃ waiting, view.receiver = .channel waiting true
  served : view.served = (!ended id since && !missed filter id since)

namespace Follows

variable {since : List Entry}

theorem begins (filter : Event.Filter) (id : SubscriptionId) :
    Follows filter id [] ⟨true, .channel [] false⟩ :=
  ⟨fun _ => ⟨[], rfl, rfl⟩, nofun, rfl⟩

theorem is_channel (h : Follows filter id since view) :
    ∃ waiting closed, view.receiver = .channel waiting closed := by
  cases undropped : dropped id since with
  | true =>
    obtain ⟨waiting, channel⟩ := h.closed undropped
    exact ⟨waiting, true, channel⟩
  | false =>
    obtain ⟨waiting, channel, -⟩ := h.opened undropped
    exact ⟨waiting, false, channel⟩

/-- A call that neither ends the subscription, nor touches its channel, nor publishes anything. -/
theorem idle {entry : Entry} (h : Follows filter id since view)
    (goes_on : entry.unsubscribes id = false) (keeps : entry.drops id = false)
    (leaves : entry.takes id = []) (silent : published [entry] = []) :
    Follows filter id (since ++ [entry]) view := by
  have same : due filter id (since ++ [entry]) = due filter id since := by
    rw [due_concat, silent]
    split <;> exact List.append_nil _
  refine ⟨?_, ?_, ?_⟩
  · rw [dropped_concat, keeps, Bool.or_false, taken_concat, leaves, List.append_nil, same]
    exact h.opened
  · rw [dropped_concat, keeps, Bool.or_false]
    exact h.closed
  · rw [ended_concat, goes_on, Bool.or_false, missed_concat, silent, List.any_nil, Bool.and_false,
      Bool.or_false]
    exact h.served

/-- The subscription is ended. -/
theorem unsubscribe (h : Follows filter id since view) (answer : Answer) :
    Follows filter id (since ++ [⟨.unsubscribe id, answer⟩]) { view with served := false } := by
  have ends : Entry.unsubscribes id ⟨.unsubscribe id, answer⟩ = true := beq_self_eq_true id
  have keeps : Entry.drops id ⟨.unsubscribe id, answer⟩ = false := rfl
  have leaves : Entry.takes id ⟨.unsubscribe id, answer⟩ = [] := rfl
  refine ⟨?_, ?_, ?_⟩
  · rw [dropped_concat, keeps, Bool.or_false, taken_concat, leaves, List.append_nil, due_concat,
      ends, Bool.or_true, if_pos rfl, List.append_nil]
    exact h.opened
  · rw [dropped_concat, keeps, Bool.or_false]
    exact h.closed
  · rw [ended_concat, ends, Bool.or_true]
    rfl

/-- What waits is taken. -/
theorem drain (h : Follows filter id since view) (shows : Shows emitter filter id view) :
    Follows filter id (since ++ [⟨.drain id, .drained (emitter.drain id).1⟩])
      { view with receiver := view.receiver.emptied false } := by
  have goes_on : Entry.unsubscribes id ⟨.drain id, .drained (emitter.drain id).1⟩ = false := rfl
  have keeps : Entry.drops id ⟨.drain id, .drained (emitter.drain id).1⟩ = false := rfl
  have silent : published [⟨.drain id, .drained (emitter.drain id).1⟩] = [] := rfl
  refine ⟨?_, ?_, ?_⟩
  · rw [dropped_concat, keeps, Bool.or_false]
    intro undropped
    obtain ⟨waiting, channel, all⟩ := h.opened undropped
    have answer : (emitter.drain id).1 = some waiting := by
      unfold Emitter.drain
      rw [shows.receiver, channel]
    have takes : Entry.takes id ⟨.drain id, .drained (emitter.drain id).1⟩ = waiting := by
      rw [answer]
      exact if_pos rfl
    refine ⟨[], ?_, ?_⟩
    · rw [channel]
      rfl
    · rw [taken_concat, takes, all, List.append_nil, due_concat, silent]
      split <;> exact (List.append_nil _).symm
  · rw [dropped_concat, keeps, Bool.or_false]
    intro shut
    obtain ⟨waiting, channel⟩ := h.closed shut
    refine ⟨waiting, ?_⟩
    rw [channel]
    rfl
  · rw [ended_concat, goes_on, Bool.or_false, missed_concat, silent, List.any_nil, Bool.and_false,
      Bool.or_false]
    exact h.served

/-- The channel is dropped. -/
theorem drop (h : Follows filter id since view) (answer : Answer)
    (silent : answer.event? = none) :
    Follows filter id (since ++ [⟨.drop id, answer⟩])
      { view with receiver := view.receiver.emptied true } := by
  have goes_on : Entry.unsubscribes id ⟨.drop id, answer⟩ = false := rfl
  have drops : Entry.drops id ⟨.drop id, answer⟩ = true := beq_self_eq_true id
  have silent : published [⟨.drop id, answer⟩] = [] := published_concat_none [] silent
  refine ⟨?_, ?_, ?_⟩
  · rw [dropped_concat, drops, Bool.or_true]
    nofun
  · intro _
    cases undropped : dropped id since with
    | false =>
      obtain ⟨waiting, channel, -⟩ := h.opened undropped
      refine ⟨[], ?_⟩
      rw [channel]
      rfl
    | true =>
      obtain ⟨waiting, channel⟩ := h.closed undropped
      refine ⟨waiting, ?_⟩
      rw [channel]
      rfl
  · rw [ended_concat, goes_on, Bool.or_false, missed_concat, silent, List.any_nil, Bool.and_false,
      Bool.or_false]
    exact h.served

/-- An event is published. -/
theorem publish (h : Follows filter id since view) (notice : Event.Notice) (now : Instant)
    (event : Event) (same : event.notice = notice) :
    Follows filter id (since ++ [⟨.publish notice now, .published event⟩])
      (if view.served && filter.accepts notice then
        ⟨view.receiver.isOpen, view.receiver.take event⟩
      else view) := by
  have goes_on : Entry.unsubscribes id ⟨.publish notice now, .published event⟩ = false := rfl
  have keeps : Entry.drops id ⟨.publish notice now, .published event⟩ = false := rfl
  have leaves : Entry.takes id ⟨.publish notice now, .published event⟩ = [] := rfl
  have tells : published [⟨.publish notice now, .published event⟩] = [event] := rfl
  have passes : passing filter [event] = if filter.accepts notice then [event] else [] := by
    rw [passing, List.filter_singleton, same]
    cases filter.accepts notice <;> rfl
  have misses : ([event].any fun event => filter.accepts event.notice) = filter.accepts notice := by
    rw [List.any_cons, List.any_nil, Bool.or_false, same]
  refine ⟨?_, ?_, ?_⟩
  · rw [dropped_concat, keeps, Bool.or_false, taken_concat, leaves, List.append_nil, due_concat,
      goes_on, Bool.or_false, tells, passes]
    intro undropped
    obtain ⟨waiting, channel, all⟩ := h.opened undropped
    have served := h.served
    rw [missed_of_not_dropped undropped, Bool.not_false, Bool.and_true] at served
    rw [← all, served]
    cases ended id since with
    | true => exact ⟨waiting, channel, (List.append_nil _).symm⟩
    | false =>
      cases filter.accepts notice with
      | true => exact ⟨waiting ++ [event], by rw [channel]; rfl, (List.append_assoc _ _ _).symm⟩
      | false => exact ⟨waiting, channel, (List.append_nil _).symm⟩
  · rw [dropped_concat, keeps, Bool.or_false]
    intro shut
    obtain ⟨waiting, channel⟩ := h.closed shut
    refine ⟨waiting, ?_⟩
    split
    · rw [channel]
      rfl
    · exact channel
  · have open_iff : view.receiver.isOpen = !dropped id since := by
      cases undropped : dropped id since with
      | true =>
        obtain ⟨waiting, channel⟩ := h.closed undropped
        rw [channel]
        rfl
      | false =>
        obtain ⟨waiting, channel, -⟩ := h.opened undropped
        rw [channel]
        rfl
    rw [ended_concat, goes_on, Bool.or_false, missed_concat, keeps, Bool.or_false, tells, misses,
      View.served_publish, h.served, open_iff]
    cases ended id since <;> cases missed filter id since <;> cases dropped id since <;>
      cases filter.accepts notice <;> rfl

/-- Whatever is called, nothing is lost to a channel. -/
theorem step {call : Call} {answer : Answer} (h : Follows filter id since view)
    (shows : Shows emitter filter id view) (performs : call.perform emitter = (answer, after)) :
    Follows filter id (since ++ [⟨call, answer⟩]) (view.step filter id ⟨call, answer⟩) := by
  cases call with
  | channel | callback | recent =>
    cases performs
    exact h.idle rfl rfl rfl rfl
  | publish notice now =>
    cases performs
    exact h.publish notice now _ rfl
  | unsubscribe target =>
    obtain rfl : Answer.unsubscribed (emitter.unsubscribe target).1 = answer :=
      congrArg Prod.fst performs
    show Follows _ _ _ (if target = id then _ else _)
    by_cases same : target = id
    · rw [if_pos same, same]
      exact h.unsubscribe _
    · rw [if_neg same]
      exact h.idle (beq_false_of_ne same) rfl rfl rfl
  | drain target =>
    obtain rfl : Answer.drained (emitter.drain target).1 = answer := congrArg Prod.fst performs
    show Follows _ _ _ (if target = id then _ else _)
    by_cases same : target = id
    · rw [if_pos same, same]
      exact h.drain shows
    · rw [if_neg same]
      refine h.idle rfl rfl ?_ rfl
      cases (emitter.drain target).1 with
      | none => rfl
      | some events => exact if_neg same
  | drop target =>
    obtain rfl : Answer.dropped (emitter.close target).1 = answer := congrArg Prod.fst performs
    show Follows _ _ _ (if target = id then _ else _)
    by_cases same : target = id
    · rw [if_pos same, same]
      exact h.drop _ rfl
    · rw [if_neg same]
      exact h.idle rfl (beq_false_of_ne same) rfl rfl

end Follows

/-! ## Callbacks -/

/-- A callback is served until it is ended, however it takes what it is told. -/
structure Listens (name : String) (reaction : Reaction) (id : SubscriptionId) (since : List Entry)
    (view : View) : Prop where
  receiver : view.receiver = .callback name reaction
  served : view.served = !ended id since

namespace Listens

variable {since : List Entry} {name : String} {reaction : Reaction}

theorem idle {entry : Entry} (h : Listens name reaction id since view)
    (goes_on : entry.unsubscribes id = false) :
    Listens name reaction id (since ++ [entry]) view := by
  refine ⟨h.receiver, ?_⟩
  rw [ended_concat, goes_on, Bool.or_false, h.served]

/-- A callback has no channel to empty. -/
theorem empty {entry : Entry} (h : Listens name reaction id since view)
    (goes_on : entry.unsubscribes id = false) (closed : Bool) :
    Listens name reaction id (since ++ [entry])
      { view with receiver := view.receiver.emptied closed } := by
  refine ⟨?_, (h.idle goes_on).served⟩
  show view.receiver.emptied closed = _
  rw [h.receiver]
  rfl

theorem step (h : Listens name reaction id since view) (entry : Entry) :
    Listens name reaction id (since ++ [entry]) (view.step filter id entry) := by
  obtain ⟨call, answer⟩ := entry
  cases call with
  | channel | callback | recent => exact h.idle rfl
  | publish notice now =>
    have goes_on : Listens name reaction id (since ++ [⟨.publish notice now, answer⟩]) view :=
      h.idle rfl
    cases told : answer.event? with
    | none =>
      have same : view.step filter id ⟨.publish notice now, answer⟩ = view := by
        simp only [View.step, told]
      rw [same]
      exact goes_on
    | some event =>
      have shape : view.step filter id ⟨.publish notice now, answer⟩ =
          if view.served && filter.accepts event.notice then
            ⟨view.receiver.isOpen, view.receiver.take event⟩
          else view := by
        simp only [View.step, told]
      rw [shape]
      split
      · next goes =>
        refine ⟨?_, ?_⟩
        · rw [h.receiver]
          rfl
        · rw [← goes_on.served, (Bool.and_eq_true_iff.1 goes).1, h.receiver]
          rfl
      · exact goes_on
  | unsubscribe target =>
    show Listens _ _ _ _ (if target = id then _ else _)
    by_cases same : target = id
    · rw [if_pos same, same]
      refine ⟨h.receiver, ?_⟩
      rw [ended_concat]
      show false = !(_ || id == id)
      rw [beq_self_eq_true, Bool.or_true]
      rfl
    · rw [if_neg same]
      exact h.idle (beq_false_of_ne same)
  | drain target =>
    show Listens _ _ _ _ (if target = id then _ else _)
    split
    · exact h.empty rfl false
    · exact h.idle rfl
  | drop target =>
    show Listens _ _ _ _ (if target = id then _ else _)
    split
    · exact h.empty rfl true
    · exact h.idle rfl

end Listens

end JobSwarm.Emitter
