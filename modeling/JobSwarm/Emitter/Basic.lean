import JobSwarm.Emitter.Config
import JobSwarm.Event.Filter

/-!
# The emitter

An emitter numbers the events, keeps the last of them, and delivers each to the subscribers whose
filter it passes. A subscriber either collects its events in a channel, from which they are taken
later, or has a callback called with each. How a callback ends is its own affair. The end of a
channel shows only when an event can no longer be delivered to it.

Results:

* `length_remember_le`: no more events are kept than there is room for.
-/

namespace JobSwarm

open Time (Instant)

namespace Emitter

/-- The number of a subscription; the first is 1. -/
structure SubscriptionId where
  number : Nat
  deriving DecidableEq, Repr

def SubscriptionId.text (id : SubscriptionId) : String :=
  "sub-" ++ toString id.number

/-- How a callback ends. -/
inductive Reaction where
  | succeeds
  | fails
  | panics
  deriving DecidableEq, Repr

/-- Where the events of a subscription go. -/
inductive Receiver where
  /-- They wait in a channel, oldest first, until they are taken or the channel is closed. -/
  | channel (waiting : List Event) (closed : Bool)
  /-- They are told to a callback, which notes them under a name. -/
  | callback (name : String) (reaction : Reaction)

/-- A subscription that the emitter serves. -/
structure Slot where
  id : SubscriptionId
  filter : Event.Filter
  deriving DecidableEq

end Emitter

open Emitter in
/-- A hub for events (`EmitterState`). -/
structure Emitter where
  /-- How many events are kept, at least one. -/
  capacity : Nat
  /-- The number of the last event. -/
  sequence : UInt64 := 0
  /-- How many subscriptions there have been. -/
  issued : Nat := 0
  /-- The events that are kept, oldest first. -/
  history : List Event := []
  /-- The subscriptions that are served, oldest first. -/
  slots : List Slot := []
  /-- The receivers of all subscriptions that there have been, oldest first. -/
  receivers : List (SubscriptionId × Receiver) := []
  /-- What callbacks were told: the name of each and the number of the event, oldest first. -/
  heard : List (String × UInt64) := []

namespace Emitter

/-- An emitter that keeps some events, one at least (`new`). -/
def withCapacity (capacity : Nat) : Emitter :=
  { capacity := max capacity 1 }

/-- An emitter by its settings (`from_config`). -/
def ofConfig (config : Config) : Emitter :=
  withCapacity config.historyCapacity.toNat

/-- The emitter that is made when no other is asked for. -/
def standard : Emitter :=
  ofConfig {}

/-! ## Subscribing -/

/-- The receiver of a subscription. -/
def receiver? (emitter : Emitter) (id : SubscriptionId) : Option Receiver :=
  emitter.receivers.lookup id

/-- Adds a subscription for the events that pass a filter from now on (`subscribe`). -/
def subscribe (emitter : Emitter) (filter : Event.Filter) (receiver : Receiver) :
    SubscriptionId × Emitter :=
  let id : SubscriptionId := ⟨emitter.issued + 1⟩
  (id, { emitter with
    issued := emitter.issued + 1
    slots := emitter.slots ++ [⟨id, filter⟩]
    receivers := emitter.receivers ++ [(id, receiver)] })

/-- Adds a subscription that collects its events in a channel (`subscribe_channel`). -/
def subscribeChannel (emitter : Emitter) (filter : Event.Filter) : SubscriptionId × Emitter :=
  emitter.subscribe filter (.channel [] false)

/-- Ends a subscription; tells whether it was still served (`unsubscribe`). -/
def unsubscribe (emitter : Emitter) (id : SubscriptionId) : Bool × Emitter :=
  (emitter.slots.any fun slot => slot.id == id,
    { emitter with slots := emitter.slots.filter fun slot => slot.id != id })

/-- How many subscriptions are served (`subscriber_count`). -/
def subscriberCount (emitter : Emitter) : Nat :=
  emitter.slots.length

/-! ## Publishing -/

/-- Keeps an event in place of the oldest when there is no room. -/
def remember (capacity : Nat) (history : List Event) (event : Event) : List Event :=
  (if capacity ≤ history.length then history.drop 1 else history) ++ [event]

/-- Whether a subscription can take an event: it can unless its channel is closed. -/
def isOpen (emitter : Emitter) (id : SubscriptionId) : Bool :=
  match emitter.receiver? id with
  | some (.channel _ closed) => !closed
  | _ => true

/-- Delivers an event to a receiver. -/
def Receiver.take (event : Event) : Receiver → Receiver
  | .channel waiting false => .channel (waiting ++ [event]) false
  | receiver => receiver

/-- What a callback notes of an event. -/
def Receiver.note? (event : Event) : Receiver → Option (String × UInt64)
  | .callback name _ => some (name, event.sequence)
  | .channel .. => none

/-- Numbers and stamps a notice, keeps it and delivers it (`publish`). -/
def publish (emitter : Emitter) (notice : Event.Notice) (now : Instant) : Event × Emitter :=
  let event : Event := ⟨emitter.sequence + 1, now, notice⟩
  let wanted := (emitter.slots.filter fun slot => slot.filter.accepts notice).map (·.id)
  let receives (id : SubscriptionId) : Bool := wanted.contains id
  (event, { emitter with
    sequence := emitter.sequence + 1
    history := remember emitter.capacity emitter.history event
    slots := emitter.slots.filter fun slot =>
      !slot.filter.accepts notice || emitter.isOpen slot.id
    receivers := emitter.receivers.map fun (id, receiver) =>
      (id, if receives id then receiver.take event else receiver)
    heard := emitter.heard ++
      (emitter.receivers.filter fun entry => receives entry.1).filterMap (·.2.note? event) })

/-- Publishes several notices, one after the other. -/
def publishAll (emitter : Emitter) (notices : List Event.Notice) (now : Instant) : Emitter :=
  notices.foldl (fun emitter notice => (emitter.publish notice now).2) emitter

/-! ## Looking back -/

/-- The last events, oldest first (`get_recent`). -/
def recent (emitter : Emitter) (count : Nat) : List Event :=
  emitter.history.drop (emitter.history.length - count)

/-- Replaces the receiver of a subscription. -/
def setReceiver (emitter : Emitter) (id : SubscriptionId) (receiver : Receiver) : Emitter :=
  { emitter with receivers := emitter.receivers.map fun entry =>
      if entry.1 = id then (id, receiver) else entry }

/-- Takes the events that wait in a channel; there are none to take from a closed channel. -/
def drain (emitter : Emitter) (id : SubscriptionId) : Option (List Event) × Emitter :=
  match emitter.receiver? id with
  | some (.channel waiting false) => (some waiting, emitter.setReceiver id (.channel [] false))
  | _ => (none, emitter)

/-- Closes a channel; tells whether it was open. -/
def close (emitter : Emitter) (id : SubscriptionId) : Bool × Emitter :=
  match emitter.receiver? id with
  | some (.channel _ false) => (true, emitter.setReceiver id (.channel [] true))
  | _ => (false, emitter)

/-- The numbers that callbacks noted under a name. -/
def heardBy (emitter : Emitter) (name : String) : List UInt64 :=
  (emitter.heard.filter fun entry => entry.1 == name).map (·.2)

/-- The subscription of a text. -/
def subscription? (emitter : Emitter) (text : String) : Option SubscriptionId :=
  (emitter.receivers.map (·.1)).find? fun id => id.text == text

theorem length_remember_le {capacity : Nat} {history : List Event} {event : Event}
    (hc : 1 ≤ capacity) (h : history.length ≤ capacity) :
    (remember capacity history event).length ≤ capacity := by
  simp only [remember]
  split <;> simp only [List.length_append, List.length_drop, List.length_singleton] <;> omega

end Emitter

end JobSwarm
