import Voltha.Kafka.Basic
import Mathlib.Data.List.AList
import Mathlib.Logic.Function.Basic

/-!
# The `SaramaClient` state and its registry helpers

Each helper below is one critical section under `lockTopicToConsumerChannelMap`, so it is
one function on the whole state. `topicToConsumerChannelMap` holds pointers: a topic maps to
the address of a `consumerChannels` object in `heap`. The consumption loops and dispatches
keep that pointer after the topic has left the map, and they see every later change of the
object.

The broker is not modelled. What it answers is an argument: `close` gives the answer of
`Close` on each broker-level consumer. The fields `closedChannels`, `closedConsumers` and
`closedHandles` record every `close(ch)` and `Close()` the client makes, in order.
`nextChan`, `nextHandle` and `nextAddress` allocate fresh channels, broker handles and
objects.

A `close` of a closed channel panics, and the goroutine stops where it is: a critical section
that closes channels returns an `Except Crash`, whose error holds the state at the panic.
The loops of the teardowns end there, before `closeConsumers` and `delete`.
-/

namespace Voltha.Kafka

/-- The consumer type of partition consumers. The value is declared outside the sources; any
two distinct integers give the same model. -/
def PartitionConsumer : Int := 0

/-- The consumer type of a group consumer; see `PartitionConsumer`. -/
def GroupCustomer : Int := 1

/-- The client-level handles `Start` creates. -/
inductive Handle where
  | cAdmin
  | producer
  | consumer
  deriving DecidableEq, Repr

/-- The fields of `SaramaClient` the modelled code reads, and the model's own bookkeeping. -/
structure SaramaClient where
  consumerType : Int
  autoCreateTopic : Bool
  numPartitions : Int
  numReplicas : Int
  groupConsumer : Option Consumer
  /-- Values buffered in `doneCh`, a channel of capacity one. -/
  doneCh : Nat
  topicToConsumerChannelMap : AList (fun _ : String => Nat)
  heap : Nat → ConsumerChannels
  nextAddress : Nat
  nextChan : Nat
  nextHandle : Nat
  closedChannels : List Chan
  closedConsumers : List Consumer
  closedHandles : List Handle

/-- The runtime panics the model reaches. -/
inductive Panic where
  | sendOnClosedChannel
  | closeOfClosedChannel
  /-- `panic(err)` in `Stop` after a failed `Close`. -/
  | stop (e : GoError)
  deriving DecidableEq, Repr

/-- A panic, and the client as it stands when the goroutine panics. -/
structure Crash where
  panic : Panic
  client : SaramaClient

/-- The client a critical section leaves: the one it returns, or the one at its panic. -/
def Crash.after : Except Crash SaramaClient → SaramaClient
  | .ok sc => sc
  | .error c => c.client

/-- A property of the client a section leaves, from what it returns and what it panics with. -/
theorem Crash.after_map {α : Type} {P : SaramaClient → Prop} {o : Except Crash (SaramaClient × α)}
    (hok : ∀ r, o = .ok r → P r.1) (herr : ∀ c, o = .error c → P c.client) :
    P (Crash.after (o.map Prod.fst)) := by
  cases o with
  | ok r => exact hok r rfl
  | error c => exact herr c rfl

namespace SaramaClient

variable (sc : SaramaClient)

/-- The state `Start` leaves: handles created, empty registry, nothing allocated. -/
def started (consumerType : Int) (autoCreateTopic : Bool) (numPartitions numReplicas : Int) :
    SaramaClient :=
  ⟨consumerType, autoCreateTopic, numPartitions, numReplicas, none, 0, ∅, fun _ => default,
    0, 0, 0, [], [], []⟩

/-- `consumerCh.channels = cs` through the pointer `a`. -/
def setChannels (a : Nat) (cs : List Chan) : SaramaClient :=
  { sc with heap := Function.update sc.heap a { sc.heap a with channels := cs } }

/-- `getConsumerChannel`: the address registered for `topic`. -/
def getConsumerChannel (topic : String) : Option Nat :=
  sc.topicToConsumerChannelMap.lookup topic

/-- `delete(sc.topicToConsumerChannelMap, topic)`. -/
def eraseTopic (topic : String) : SaramaClient :=
  { sc with topicToConsumerChannelMap := sc.topicToConsumerChannelMap.erase topic }

/-- `addTopicToConsumerChannelMap`: a topic already present keeps its entry. -/
def addTopicToConsumerChannelMap (id : String) (arg : Nat) : SaramaClient :=
  { sc with
    topicToConsumerChannelMap :=
      if (sc.getConsumerChannel id).isSome then sc.topicToConsumerChannelMap
      else sc.topicToConsumerChannelMap.insert id arg }

/-- `addChannelToConsumerChannelMap`: appends to the entry, or only logs a warning. -/
def addChannelToConsumerChannelMap (topic : String) (ch : Chan) : SaramaClient :=
  match sc.getConsumerChannel topic with
  | some a => sc.setChannels a ((sc.heap a).channels ++ [ch])
  | none => sc

/-- `close(ch)`: a `close of closed channel` panic if `ch` was closed before. -/
def closeChan (ch : Chan) : Except Crash SaramaClient :=
  if ch ∈ sc.closedChannels then .error ⟨.closeOfClosedChannel, sc⟩
  else .ok { sc with closedChannels := sc.closedChannels ++ [ch] }

/-- The `close` calls one `removeChannel` makes, in order. -/
def closeChans : SaramaClient → List Chan → Except Crash SaramaClient
  | sc, [] => .ok sc
  | sc, ch :: chs => sc.closeChan ch >>= (closeChans · chs)

/-- `removeChannel(consumerCh.channels, ch)` on the object at `a`: the swap in its backing
array, then the `close`. Returns the state and what the call did. -/
def removeChannelAt (a : Nat) (ch : Chan) : Except Crash (SaramaClient × Removal) :=
  let r := removeChannel (sc.heap a).channels ch
  ((sc.setChannels a r.backing).closeChans r.closed).map (·, r)

/-- `removeChannelFromConsumerChannelMap`: removes `ch` from the entry, and with the last
channel gone closes the entry's consumers and deletes it. -/
def removeChannelFromConsumerChannelMap (close : Consumer → Option GoError) (topic : String)
    (ch : Chan) : Except Crash (SaramaClient × Option GoError) :=
  match sc.getConsumerChannel topic with
  | some a =>
      (sc.removeChannelAt a ch).map fun o =>
        let sc' := o.1.setChannels a o.2.result
        if o.2.result.length = 0 then
          let c := closeConsumers close (sc.heap a).consumers
          ({ sc' with closedConsumers := sc.closedConsumers ++ c.1 }.eraseTopic topic, c.2)
        else (sc', none)
  | none => .ok (sc, some (.msg "topic-does-not-exist"))

/-- `for _, ch := range consumerCh.channels { removeChannel(consumerCh.channels, ch) }` on
the object at `a`, over the indices `is`: each turn reads the backing array that the earlier
turns permuted. -/
def clearChannels (a : Nat) : SaramaClient → List Nat → Except Crash SaramaClient
  | sc, [] => .ok sc
  | sc, i :: is =>
      sc.removeChannelAt a ((sc.heap a).channels.getD i 0) >>= fun o => clearChannels a o.1 is

/-- The body both teardowns run on the entry at `a`: the range loop over its channels,
then `closeConsumers`. -/
def clearEntry (close : Consumer → Option GoError) (a : Nat) :
    Except Crash (SaramaClient × Option GoError) :=
  let cc := sc.heap a
  (sc.clearChannels a (List.range cc.channels.length)).map fun sc' =>
    let c := closeConsumers close cc.consumers
    ({ sc' with closedConsumers := sc.closedConsumers ++ c.1 }, c.2)

/-- `clearTopicFromConsumerChannelMap`. -/
def clearTopicFromConsumerChannelMap (close : Consumer → Option GoError) (topic : String) :
    Except Crash (SaramaClient × Option GoError) :=
  match sc.getConsumerChannel topic with
  | some a => (sc.clearEntry close a).map fun r => (r.1.eraseTopic topic, r.2)
  | none => .ok (sc, none)

/-- One turn of the range loop of `clearConsumerChannelMap`: clear the entry, delete it, and
keep the last error. -/
def clearMapEntry (close : Consumer → Option GoError) (acc : SaramaClient × Option GoError)
    (e : Σ _ : String, Nat) : Except Crash (SaramaClient × Option GoError) :=
  (acc.1.clearEntry close e.2).map fun r => (r.1.eraseTopic e.1, if r.2.isSome then r.2 else acc.2)

/-- `clearConsumerChannelMap`, visiting the entries in the order of the map's list. The last
entry whose consumers failed to close gives the error. -/
def clearConsumerChannelMap (close : Consumer → Option GoError) :
    Except Crash (SaramaClient × Option GoError) :=
  sc.topicToConsumerChannelMap.entries.foldlM (clearMapEntry close) (sc, none)

end SaramaClient

end Voltha.Kafka
