import Voltha.Kafka.Goroutines
import Voltha.Kafka.Registry

/-!
# Schedules that break the client

Each theorem below replays one schedule of the goroutine machine from a client that `Start`
left, and the kernel runs the model to check the state it ends in. The broker answers every
call with success. Threads are numbered in the order they are started: the callers first,
then each `go` statement's goroutine.
-/

namespace Voltha.Kafka

open SaramaClient

/-- The goroutine is a consumption loop that has not exited. -/
def Thread.isLoop : Thread → Bool
  | .consumeFromAPartition .. | .consumeGroupMessages .. => true
  | _ => false

/-- The channels that successful `Subscribe` calls returned to a caller. -/
def Thread.subscribedChannels : Thread → List Chan
  | .caller _ _ rs => rs.filterMap fun
      | .subscribed (.ok ch) => some ch
      | _ => none
  | _ => []

/-- A client of partition consumers, as `Start` leaves it. -/
def startedClient : SaramaClient := started PartitionConsumer false 1 1

/-- A broker with the partitions `ps` that accepts every call. -/
def healthyBroker (ps : List Int) : Replies := ⟨fun _ _ => none, .ok ps, fun _ => none, none⟩

/-- A subscriber's channel is closed by `UnSubscribe` while a send goroutine of an earlier
message is still blocked on it: the subscribe, its `startConsumers`, a message that the loop
hands to a dispatch, the dispatch's send goroutine, then the `UnSubscribe`, then the send. -/
def sendAfterCloseSchedule : List (Nat × Event) :=
  [(0, .run), (0, .run), (1, .run), (2, .message (some (some 7))), (3, .run), (0, .run),
   (4, .run)]

theorem send_on_closed_channel_reachable :
    ∃ m, Reachable (Machine.init startedClient
      [[.subscribe "t" (healthyBroker [0]), .unSubscribe "t" 0 fun _ => none]]) m ∧
      m.panic = some .sendOnClosedChannel :=
  reachable_of_run sendAfterCloseSchedule (fun m => m.panic == some .sendOnClosedChannel)
    (by decide) fun m h => by simpa using h

/-- Two callers subscribe to one topic and both look it up before either registers it. -/
def doubleSubscribeSchedule : List (Nat × Event) := [(0, .run), (1, .run), (0, .run), (1, .run)]

/-- The second caller's `Subscribe` returns channel `1` with no error, but the entry it
added is dropped by `addTopicToConsumerChannelMap`: the registry entry of the topic holds
channel `0` only, so nothing is ever dispatched to channel `1`. -/
theorem concurrent_subscribe_loses_channel :
    ∃ m, Reachable (Machine.init startedClient
      [[.subscribe "t" (healthyBroker [0])], [.subscribe "t" (healthyBroker [0])]]) m ∧
      (m.threads.getD 1 .exited).subscribedChannels = [1] ∧
      (m.client.entry "t").map (·.channels) = some [0] :=
  reachable_of_run doubleSubscribeSchedule
    (fun m => (m.threads.getD 1 .exited).subscribedChannels == [1] &&
      (m.client.entry "t").map (·.channels) == some [0]) (by decide) fun m h => by simpa using h

/-- One caller subscribes, unsubscribes and subscribes again before either `startConsumers`
goroutine runs; both then find the second entry. -/
def resubscribeSchedule : List (Nat × Event) :=
  [(0, .run), (0, .run), (0, .run), (0, .run), (0, .run), (1, .run), (2, .run)]

/-- Both halves of the consumer invariant fail. With one caller, a delayed `startConsumers`
starts a second loop for the consumer of the next subscription. With two callers, the
consumer opened by the losing `Subscribe` is in no entry and is never closed. -/
theorem subscribe_orphans_and_duplicates_loops :
    (∃ m, Reachable (Machine.init startedClient
      [[.subscribe "t" (healthyBroker [0]), .unSubscribe "t" 0 (fun _ => none),
        .subscribe "t" (healthyBroker [0])]]) m ∧
      (m.client.entry "t").map (·.consumers) = some [.partition 1] ∧
      m.loopsStarted.count (.partition 1) = 2) ∧
    (∃ m, Reachable (Machine.init startedClient
      [[.subscribe "t" (healthyBroker [0])], [.subscribe "t" (healthyBroker [0])]]) m ∧
      m.client.nextHandle = 2 ∧
      (∀ e ∈ m.client.topicToConsumerChannelMap.entries,
        .partition 1 ∉ (m.client.heap e.2).consumers) ∧
      .partition 1 ∉ m.client.closedConsumers) :=
  ⟨reachable_of_run resubscribeSchedule
      (fun m => (m.client.entry "t").map (·.consumers) == some [.partition 1] &&
        m.loopsStarted.count (.partition 1) == 2) (by decide) fun m h => by simpa using h,
    reachable_of_run doubleSubscribeSchedule
      (fun m => m.client.nextHandle == 2 &&
        m.client.topicToConsumerChannelMap.entries.all
          (fun e => .partition 1 ∉ (m.client.heap e.2).consumers) &&
        .partition 1 ∉ m.client.closedConsumers) (by decide)
      fun m h => by simpa [and_assoc] using h⟩

/-- A subscription on two partitions starts two loops; `Stop` sends its one value, the first
loop takes it, and `Stop` returns. -/
def stopSchedule : List (Nat × Event) :=
  [(0, .run), (0, .run), (1, .run), (0, .run), (2, .done), (0, .run)]

/-- After `Stop` has returned, loop `3` is still running and `doneCh` is empty, so it cannot
take the shutdown case of its `select`. -/
theorem stop_signal_missed_by_second_loop :
    ∃ m, Reachable (Machine.init startedClient
      [[.subscribe "t" (healthyBroker [0, 1]), .stop (fun _ => none) (fun _ => none)]]) m ∧
      m.loopsStarted = [.partition 0, .partition 1] ∧ m.doneSent = 1 ∧
      m.client.closedHandles = [.producer, .consumer, .cAdmin] ∧
      (m.threads.getD 3 .exited).isLoop = true ∧ m.client.doneCh = 0 ∧
      (m.step 3 .done).isNone = true :=
  reachable_of_run stopSchedule
    (fun m => m.loopsStarted == [.partition 0, .partition 1] && m.doneSent == 1 &&
      m.client.closedHandles == [.producer, .consumer, .cAdmin] &&
      (m.threads.getD 3 .exited).isLoop && m.client.doneCh == 0 && (m.step 3 .done).isNone)
    (by decide) fun m h => by simpa [and_assoc] using h

end Voltha.Kafka
