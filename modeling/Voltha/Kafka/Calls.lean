import Voltha.Kafka.Client

/-!
# The client calls

`Subscribe`, `UnSubscribe`, `DeleteTopic` and `Stop` as the code runs them, one call at a
time. `Replies` carries what the broker answers during one `Subscribe`: every answer of
every broker call is free, so a theorem over all `Replies` covers every way creating a
consumer can succeed or fail.

`Subscribe` takes the registry lock twice on the path that reuses an entry, once in
`getConsumerChannel` and once to add the channel, and other goroutines can run in between.
The two halves are `subscribeReuse` and `subscribeNew`, and the goroutine model runs them
as separate steps. On success `subscribeNew` also starts `startConsumers` in a goroutine;
that goroutine only reads the registry, and it belongs to the goroutine model.
-/

namespace Voltha.Kafka

/-- The partition count and replication factor `CreateTopic` sends: Go's `int32` and
`int16` conversions keep the low bits. -/
structure TopicDetail where
  numPartitions : Int
  replicationFactor : Int
  deriving DecidableEq, Repr

def topicDetail (numPartition repFactor : Int) : TopicDetail :=
  ⟨numPartition.bmod (Nat.pow 2 32), repFactor.bmod (Nat.pow 2 16)⟩

/-- What the broker answers during one `Subscribe`. `consumePartition i` answers the
`i`-th `ConsumePartition` call. -/
structure Replies where
  createTopic : String → TopicDetail → Option GoError
  partitions : Except GoError (List Int)
  consumePartition : Nat → Option GoError
  newConsumer : Option GoError

/-- `CreateTopic`: an existing topic is not an error. -/
def createTopic (reply : String → TopicDetail → Option GoError) (topic : String)
    (numPartition repFactor : Int) : Option GoError :=
  match reply topic (topicDetail numPartition repFactor) with
  | some .errTopicAlreadyExists => none
  | err => err

/-- The `ConsumePartition` loop of `createPartionConsumers` from call `i` on, with fresh
handles from `next`: the consumers it opened, and the error that stopped it. -/
def consumePartitions (reply : Nat → Option GoError) : Nat → Nat → List Int →
    List Consumer × Option GoError
  | _, _, [] => ([], none)
  | next, i, _::ps =>
      match reply i with
      | some e => ([], some e)
      | none =>
          let rest := consumePartitions reply (next + 1) (i + 1) ps
          (.partition next::rest.1, rest.2)

/-- `createPartionConsumers`: the consumers opened, and what the function returns. On an
error the consumers opened before it are dropped. -/
def createPartionConsumers (r : Replies) (next : Nat) :
    List Consumer × Except GoError (List Consumer) :=
  match r.partitions with
  | .error e => ([], .error e)
  | .ok ps =>
      let o := consumePartitions r.consumePartition next 0 ps
      (o.1, match o.2 with
        | some e => .error e
        | none => .ok o.1)

theorem exists_of_bind_eq_ok {ε α β : Type} {x : Except ε α} {f : α → Except ε β} {b : β}
    (h : x >>= f = .ok b) : ∃ a, x = .ok a ∧ f a = .ok b := by
  cases x with
  | error e => cases h
  | ok a => exact ⟨a, rfl, h⟩

theorem exists_of_map_eq_ok {ε α β : Type} {x : Except ε α} {f : α → β} {b : β}
    (h : x.map f = .ok b) : ∃ a, x = .ok a ∧ b = f a := by
  cases x with
  | error e => cases h
  | ok a => cases h; exact ⟨a, rfl, rfl⟩

theorem exists_of_map_eq_error {ε α β : Type} {x : Except ε α} {f : α → β} {e : ε}
    (h : x.map f = .error e) : x = .error e := by
  cases x with
  | error e' => cases h; rfl
  | ok a => cases h

theorem exists_of_bind_eq_error {ε α β : Type} {x : Except ε α} {f : α → Except ε β} {e : ε}
    (h : x >>= f = .error e) : x = .error e ∨ ∃ a, x = .ok a ∧ f a = .error e := by
  cases x with
  | error e' => cases h; exact .inl rfl
  | ok a => exact .inr ⟨a, rfl, h⟩

namespace SaramaClient

variable (sc : SaramaClient)

/-- `&consumerChannels{...}`: a new object at a fresh address. -/
def alloc (cc : ConsumerChannels) : SaramaClient × Nat :=
  ({ sc with
      nextAddress := sc.nextAddress + 1
      heap := Function.update sc.heap sc.nextAddress cc }, sc.nextAddress)

/-- A new `consumerChannels` object with `consumers` and one fresh channel, added to the map
by `addTopicToConsumerChannelMap`. Returns the channel. -/
def register (topic : String) (consumers : List Consumer) : SaramaClient × Chan :=
  let ch := sc.nextChan
  let o := { sc with nextChan := ch + 1 }.alloc ⟨consumers, [ch]⟩
  (o.1.addTopicToConsumerChannelMap topic o.2, ch)

/-- `setupPartitionConsumerChannel`. -/
def setupPartitionConsumerChannel (r : Replies) (topic : String) :
    SaramaClient × Except GoError Chan :=
  let o := createPartionConsumers r sc.nextHandle
  let sc' := { sc with nextHandle := sc.nextHandle + o.1.length }
  match o.2 with
  | .error e => (sc', .error e)
  | .ok cs =>
      let r := sc'.register topic cs
      (r.1, .ok r.2)

/-- `setupGroupConsumerChannel`; `createGroupConsumer` also stores the consumer in
`sc.groupConsumer`. -/
def setupGroupConsumerChannel (r : Replies) (topic : String) :
    SaramaClient × Except GoError Chan :=
  match r.newConsumer with
  | some e => (sc, .error e)
  | none =>
      let g := Consumer.group sc.nextHandle
      let r := { sc with nextHandle := sc.nextHandle + 1, groupConsumer := some g }.register
        topic [g]
      (r.1, .ok r.2)

/-- The branch of `Subscribe` for a topic with an entry: a new channel, appended under the
lock by `addChannelToConsumerChannelMap`. -/
def subscribeReuse (topic : String) : SaramaClient × Except GoError Chan :=
  let ch := sc.nextChan
  ({ sc with nextChan := ch + 1 }.addChannelToConsumerChannelMap topic ch, .ok ch)

/-- The branch of `Subscribe` for a topic with no entry. -/
def subscribeNew (r : Replies) (topic : String) : SaramaClient × Except GoError Chan :=
  if sc.consumerType = PartitionConsumer then
    match (if sc.autoCreateTopic then
        createTopic r.createTopic topic sc.numPartitions sc.numReplicas else none) with
    | some e => (sc, .error e)
    | none => sc.setupPartitionConsumerChannel r topic
  else if sc.consumerType = GroupCustomer then sc.setupGroupConsumerChannel r topic
  else (sc, .error (.msg "unknown-consumer-type"))

/-- `Subscribe`, run with no other goroutine in between. -/
def subscribe (r : Replies) (topic : String) : SaramaClient × Except GoError Chan :=
  match sc.getConsumerChannel topic with
  | some _ => sc.subscribeReuse topic
  | none => sc.subscribeNew r topic

/-- `UnSubscribe`. -/
def unSubscribe (close : Consumer → Option GoError) (topic : String) (ch : Chan) :
    Except Crash (SaramaClient × Option GoError) :=
  sc.removeChannelFromConsumerChannelMap close topic ch

/-- `DeleteTopic`, with `reply` the answer of `cAdmin.DeleteTopic`. -/
def deleteTopic (reply : Option GoError) (close : Consumer → Option GoError) (topic : String) :
    Except Crash (SaramaClient × Option GoError) :=
  match reply with
  | some .errUnknownTopicOrPartition => .ok (sc, none)
  | some e => .ok (sc, some e)
  | none => sc.clearTopicFromConsumerChannelMap close topic

/-- `sc.doneCh <- 1`; `none` while the buffer is full and the send blocks. -/
def sendDone : Option SaramaClient :=
  if sc.doneCh < 1 then some { sc with doneCh := sc.doneCh + 1 } else none

theorem sendDone_eq_some {sc' : SaramaClient} (h : sc.sendDone = some sc') :
    sc.doneCh < 1 ∧ sc' = { sc with doneCh := sc.doneCh + 1 } := by
  unfold sendDone at h
  split at h <;> cases h
  exact ⟨‹_›, rfl⟩

/-- One `Close` of `Stop`: recorded, or `panic(err)` if it failed. -/
def closeHandle (h : Handle) (reply : Option GoError) : Except Crash SaramaClient :=
  match reply with
  | some e => .error ⟨.stop e, sc⟩
  | none => .ok { sc with closedHandles := sc.closedHandles ++ [h] }

theorem closeHandle_ok {h : Handle} {reply : Option GoError} {sc' : SaramaClient}
    (hc : sc.closeHandle h reply = .ok sc') : sc' = { sc with closedHandles := sc.closedHandles ++ [h] } := by
  unfold closeHandle at hc
  split at hc <;> cases hc
  rfl

theorem closeHandle_error {h : Handle} {reply : Option GoError} {c : Crash}
    (hc : sc.closeHandle h reply = .error c) : c.client = sc := by
  unfold closeHandle at hc
  split at hc <;> cases hc
  rfl

/-- The `Close` of `sc.groupConsumer` in `Stop`, if a group consumer was created. -/
def closeGroupConsumer (close : Consumer → Option GoError) : Except Crash SaramaClient :=
  match sc.groupConsumer with
  | some g => match close g with
    | some e => .error ⟨.stop e, sc⟩
    | none => .ok { sc with closedConsumers := sc.closedConsumers ++ [g] }
  | none => .ok sc

theorem closeGroupConsumer_ok {close : Consumer → Option GoError} {sc' : SaramaClient}
    (hc : sc.closeGroupConsumer close = .ok sc') :
    sc' = { sc with closedConsumers := sc.closedConsumers ++ sc.groupConsumer.toList } := by
  unfold closeGroupConsumer at hc
  split at hc
  · rename_i hg
    split at hc <;> cases hc
    rw [hg]; rfl
  · cases hc; rw [show sc.groupConsumer.toList = [] by rw [‹sc.groupConsumer = none›]; rfl, List.append_nil]

theorem closeGroupConsumer_error {close : Consumer → Option GoError} {c : Crash}
    (hc : sc.closeGroupConsumer close = .error c) : c.client = sc := by
  unfold closeGroupConsumer at hc
  split at hc
  · split at hc <;> cases hc; rfl
  · cases hc

/-- The `Close` calls of `Stop` on the producer, the consumer, the last group consumer and
the admin handle, in that order; the first failure panics. -/
def closeHandles (handleReply : Handle → Option GoError) (close : Consumer → Option GoError) :
    Except Crash SaramaClient := do
  let sc ← sc.closeHandle .producer (handleReply .producer)
  let sc ← sc.closeHandle .consumer (handleReply .consumer)
  let sc ← sc.closeGroupConsumer close
  sc.closeHandle .cAdmin (handleReply .cAdmin)

/-- When the closes `Stop` makes before it clears the registry all return, they touch only the
logs of closed handles and consumers, and close the last group consumer. -/
theorem closeHandles_ok {handleReply : Handle → Option GoError}
    {close : Consumer → Option GoError} {sc' : SaramaClient}
    (h : sc.closeHandles handleReply close = .ok sc') :
    ∃ hs, sc' = { sc with
      closedHandles := hs, closedConsumers := sc.closedConsumers ++ sc.groupConsumer.toList } := by
  unfold closeHandles at h
  obtain ⟨s₁, h₁, h⟩ := exists_of_bind_eq_ok h
  obtain ⟨s₂, h₂, h⟩ := exists_of_bind_eq_ok h
  obtain ⟨s₃, h₃, h₄⟩ := exists_of_bind_eq_ok h
  rw [closeHandle_ok _ h₄, closeGroupConsumer_ok _ h₃, closeHandle_ok _ h₂, closeHandle_ok _ h₁]
  exact ⟨_, rfl⟩

theorem closeGroupConsumer_returns {close : Consumer → Option GoError}
    (hg : ∀ g ∈ sc.groupConsumer, close g = none) : ∃ sc', sc.closeGroupConsumer close = .ok sc' := by
  unfold closeGroupConsumer
  split
  · rw [hg _ ‹_›]; exact ⟨_, rfl⟩
  · exact ⟨_, rfl⟩

/-- When every `Close` succeeds, the closes return. -/
theorem closeHandles_returns {handleReply : Handle → Option GoError}
    {close : Consumer → Option GoError} (hh : ∀ k, handleReply k = none)
    (hg : ∀ g ∈ sc.groupConsumer, close g = none) : ∃ sc', sc.closeHandles handleReply close = .ok sc' := by
  obtain ⟨s, hs⟩ := closeGroupConsumer_returns
    { { sc with closedHandles := sc.closedHandles ++ [Handle.producer] } with
      closedHandles := sc.closedHandles ++ [Handle.producer] ++ [Handle.consumer] } hg
  unfold closeHandles
  rw [hh, hh, hh]
  exact ⟨_, congrArg (· >>= fun s : SaramaClient => s.closeHandle .cAdmin none) hs⟩

/-- When one of them panics, the state at the panic has closed handles and at most the last
group consumer. -/
theorem closeHandles_error {handleReply : Handle → Option GoError}
    {close : Consumer → Option GoError} {c : Crash} (h : sc.closeHandles handleReply close = .error c) :
    ∃ hs, ∃ l : List Consumer, l ⊆ sc.groupConsumer.toList ∧
      c.client = { sc with closedHandles := hs, closedConsumers := sc.closedConsumers ++ l } := by
  unfold closeHandles at h
  rcases exists_of_bind_eq_error h with h₁ | ⟨s₁, h₁, h⟩
  · exact ⟨_, [], List.nil_subset _, by rw [closeHandle_error _ h₁, List.append_nil]⟩
  rw [closeHandle_ok _ h₁] at h
  rcases exists_of_bind_eq_error h with h₂ | ⟨s₂, h₂, h⟩
  · exact ⟨_, [], List.nil_subset _, by rw [closeHandle_error _ h₂, List.append_nil]⟩
  rw [closeHandle_ok _ h₂] at h
  rcases exists_of_bind_eq_error h with h₃ | ⟨s₃, h₃, h₄⟩
  · exact ⟨_, [], List.nil_subset _, by rw [closeGroupConsumer_error _ h₃, List.append_nil]⟩
  rw [closeGroupConsumer_ok _ h₃] at h₄
  exact ⟨_, _, List.Subset.refl _, closeHandle_error _ h₄⟩

/-- `Stop` after `sc.doneCh <- 1`: the `Close` calls, then `clearConsumerChannelMap`. -/
def stopAfterSend (handleReply : Handle → Option GoError) (close : Consumer → Option GoError) :
    Except Crash (SaramaClient × Option GoError) :=
  sc.closeHandles handleReply close >>= (·.clearConsumerChannelMap close)

/-- `Stop`: `none` when the shutdown send blocks, else how it ends. The error of
`clearConsumerChannelMap` is dropped. -/
def stop (handleReply : Handle → Option GoError) (close : Consumer → Option GoError) :
    Option (Except Crash SaramaClient) :=
  sc.sendDone.map fun sc => (sc.stopAfterSend handleReply close).map Prod.fst

end SaramaClient

end Voltha.Kafka
