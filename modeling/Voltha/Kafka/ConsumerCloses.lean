import Voltha.Kafka.Isolation

/-!
# No partition consumer is closed twice

A broker-level consumer is closed when its entry is torn down: by `UnSubscribe` when the last
channel goes, by `DeleteTopic`, or by `Stop` when it clears the registry. Each of them takes
the entry out of the map in the same critical section, and an object once out of the map is
never put back, since `register` allocates a new one. A range loop that panics stops before
`closeConsumers`, and touches no consumer (`LoopFrame`). So under every schedule, races of
`Subscribe` and the consumers they orphan included, and in the state a panic leaves too,
`Close` has been called at most once on each partition consumer, and the partition consumers
of the map's entries are open (`partition_consumers_closed_once`).

Group consumers are left out on purpose: `Stop` also closes `sc.groupConsumer` by itself, a
second time when its entry is still registered (`History.stop_closes_consumers`).
-/

namespace Voltha.Kafka

namespace SaramaClient

/-- The partition consumers under every schedule: each belongs to one object and has an
allocated handle, those of an entry of the map are open, and none has been closed twice. -/
structure ConsumersOk (sc : SaramaClient) : Prop where
  nodup : ∀ a, (sc.heap a).consumers.Nodup
  excl : ∀ a b n, Consumer.partition n ∈ (sc.heap a).consumers →
    Consumer.partition n ∈ (sc.heap b).consumers → a = b
  lt : ∀ a n, Consumer.partition n ∈ (sc.heap a).consumers → n < sc.nextHandle
  registered_open : ∀ t a, sc.getConsumerChannel t = some a →
    ∀ n, Consumer.partition n ∈ (sc.heap a).consumers → Consumer.partition n ∉ sc.closedConsumers
  closed_lt : ∀ n, Consumer.partition n ∈ sc.closedConsumers → n < sc.nextHandle
  closed_once : ∀ n, sc.closedConsumers.count (.partition n) ≤ 1
  group : ∀ g ∈ sc.groupConsumer, ∃ n, g = .group n

variable {sc sc' : SaramaClient} {t : String} {a : Nat}

theorem ConsumersOk.started (consumerType : Int) (autoCreateTopic : Bool)
    (numPartitions numReplicas : Int) :
    (started consumerType autoCreateTopic numPartitions numReplicas).ConsumersOk where
  nodup _ := List.nodup_nil
  excl _ _ _ h := absurd h (List.not_mem_nil _)
  lt _ _ h := absurd h (List.not_mem_nil _)
  registered_open _ _ h := by simp [SaramaClient.started, getConsumerChannel] at h
  closed_lt _ h := absurd h (List.not_mem_nil _)
  closed_once _ := Nat.zero_le _
  group _ h := absurd h (Option.not_mem_none _)

/-- A critical section that changes no object's consumers, only takes topics out of the map,
and closes no partition consumer keeps the invariant. -/
theorem ConsumersOk.of_frame (h : sc.ConsumersOk)
    (hheap : ∀ b, (sc'.heap b).consumers = (sc.heap b).consumers)
    (hmap : ∀ t b, sc'.getConsumerChannel t = some b → sc.getConsumerChannel t = some b)
    (hnext : sc.nextHandle ≤ sc'.nextHandle)
    (hcl : ∀ n, sc'.closedConsumers.count (.partition n) = sc.closedConsumers.count (.partition n))
    (hg : ∀ g ∈ sc'.groupConsumer, ∃ n, g = .group n) : sc'.ConsumersOk := by
  have hmem : ∀ n, Consumer.partition n ∈ sc'.closedConsumers ↔
      Consumer.partition n ∈ sc.closedConsumers := fun n => by
    rw [← List.count_pos_iff, ← List.count_pos_iff, hcl]
  refine ⟨fun b => hheap b ▸ h.nodup b, fun x y n hx hy => ?_, fun b n hb => ?_,
    fun t b hb n hn => ?_, fun n hn => ?_, fun n => hcl n ▸ h.closed_once n, hg⟩
  · rw [hheap] at hx hy; exact h.excl x y n hx hy
  · rw [hheap] at hb; exact Nat.lt_of_lt_of_le (h.lt b n hb) hnext
  · rw [hheap] at hn; rw [hmem]; exact h.registered_open t b (hmap t b hb) n hn
  · exact Nat.lt_of_lt_of_le (h.closed_lt n ((hmem n).mp hn)) hnext

/-- A critical section that closes the consumers of the entry of `t`, at `a`, and takes `t`
out of the map keeps the invariant. -/
theorem ConsumersOk.of_close (h : sc.ConsumersOk) (hw : sc.Wf) (ha : sc.getConsumerChannel t = some a)
    (hheap : ∀ b, (sc'.heap b).consumers = (sc.heap b).consumers)
    (hmap : ∀ t' b, sc'.getConsumerChannel t' = some b → sc.getConsumerChannel t' = some b ∧ t' ≠ t)
    (hnext : sc'.nextHandle = sc.nextHandle)
    (hcl : sc'.closedConsumers = sc.closedConsumers ++ (sc.heap a).consumers)
    (hg : sc'.groupConsumer = sc.groupConsumer) : sc'.ConsumersOk := by
  refine ⟨fun b => hheap b ▸ h.nodup b, fun x y n hx hy => ?_, fun b n hb => ?_,
    fun t' b hb n hn hc => ?_, fun n hn => ?_, fun n => ?_, hg ▸ h.group⟩
  · rw [hheap] at hx hy; exact h.excl x y n hx hy
  · rw [hheap] at hb; exact hnext ▸ h.lt b n hb
  · obtain ⟨hb', hne⟩ := hmap t' b hb
    rw [hheap] at hn
    rw [hcl, List.mem_append] at hc
    rcases hc with hc | hc
    · exact h.registered_open t' b hb' n hn hc
    · exact hne (hw.inj t' t a (h.excl b a n hn hc ▸ hb') ha)
  · rw [hcl, List.mem_append] at hn
    rw [hnext]
    exact hn.elim (h.closed_lt n) (h.lt a n)
  · rw [hcl, List.count_append]
    by_cases hn : Consumer.partition n ∈ (sc.heap a).consumers
    · rw [List.count_eq_zero_of_not_mem (h.registered_open t a ha n hn), Nat.zero_add]
      exact List.nodup_iff_count_le_one.mp (h.nodup a) _
    · rw [List.count_eq_zero_of_not_mem hn]
      exact h.closed_once n

/-- `register` keeps the invariant when the partition consumers it stores are new: in no
object, not closed, with an allocated handle. -/
theorem ConsumersOk.register (h : sc.ConsumersOk) (t : String) {cs : List Consumer}
    (hnd : cs.Nodup)
    (hfresh : ∀ n, Consumer.partition n ∈ cs → (∀ b, Consumer.partition n ∉ (sc.heap b).consumers) ∧
      Consumer.partition n ∉ sc.closedConsumers ∧ n < sc.nextHandle) :
    (sc.register t cs).1.ConsumersOk := by
  have hheap : ∀ b, (sc.register t cs).1.heap b =
      Function.update sc.heap sc.nextAddress ⟨cs, [sc.nextChan]⟩ b := fun _ => rfl
  have hnew : ∀ b, ∀ n, Consumer.partition n ∈ ((sc.register t cs).1.heap b).consumers →
      (b ≠ sc.nextAddress ∧ Consumer.partition n ∈ (sc.heap b).consumers) ∨
        (b = sc.nextAddress ∧ Consumer.partition n ∈ cs) := fun b n hn => by
    rw [hheap] at hn
    rcases eq_or_ne b sc.nextAddress with rfl | hb
    · rw [Function.update_same] at hn; exact .inr ⟨rfl, hn⟩
    · rw [Function.update_noteq hb] at hn; exact .inl ⟨hb, hn⟩
  refine ⟨fun b => ?_, fun x y n hx hy => ?_, fun b n hb => ?_, fun t' b hb n hn hc => ?_,
    h.closed_lt, h.closed_once, h.group⟩
  · rw [hheap]
    rcases eq_or_ne b sc.nextAddress with rfl | hb
    · rw [Function.update_same]; exact hnd
    · rw [Function.update_noteq hb]; exact h.nodup b
  · rcases hnew x n hx with ⟨-, hx'⟩ | ⟨rfl, hx'⟩ <;> rcases hnew y n hy with ⟨-, hy'⟩ | ⟨rfl, hy'⟩
    · exact h.excl x y n hx' hy'
    · exact absurd hx' ((hfresh n hy').1 x)
    · exact absurd hy' ((hfresh n hx').1 y)
    · rfl
  · rcases hnew b n hb with ⟨-, hb⟩ | ⟨-, hb⟩
    exacts [h.lt b n hb, (hfresh n hb).2.2]
  · rcases hnew b n hn with ⟨hba, hn⟩ | ⟨-, hn⟩
    · rcases getConsumerChannel_register hb with hb | ⟨-, rfl, -⟩
      · exact h.registered_open t' b hb n hn hc
      · exact hba rfl
    · exact (hfresh n hn).2.1 hc

/-! ## Each critical section keeps the invariant -/

theorem ConsumersOk.subscribeReuse (h : sc.ConsumersOk) (t : String) :
    (sc.subscribeReuse t).1.ConsumersOk := by
  unfold SaramaClient.subscribeReuse addChannelToConsumerChannelMap
  dsimp only
  split
  · exact h.of_frame (fun _ => setChannels_consumers _ _) (fun _ _ hb => hb) le_rfl
      (fun _ => rfl) h.group
  · exact h.of_frame (fun _ => rfl) (fun _ _ hb => hb) le_rfl (fun _ => rfl) h.group

/-- The partition consumers `createPartionConsumers` opens have the handles it allocates. -/
theorem createPartionConsumers_fresh (r : Replies) (next n : Nat)
    (hn : Consumer.partition n ∈ (createPartionConsumers r next).1) :
    next ≤ n ∧ n < next + (createPartionConsumers r next).1.length := by
  have := List.mem_map_of_mem Consumer.handle hn
  rwa [createPartionConsumers_handles, List.mem_range'_1] at this

theorem ConsumersOk.setupPartitionConsumerChannel (h : sc.ConsumersOk) (r : Replies)
    (t : String) : (sc.setupPartitionConsumerChannel r t).1.ConsumersOk := by
  have hb : ({ sc with nextHandle := sc.nextHandle + (createPartionConsumers r sc.nextHandle).1.length }
      : SaramaClient).ConsumersOk :=
    h.of_frame (fun _ => rfl) (fun _ _ hb => hb) (Nat.le_add_right _ _) (fun _ => rfl) h.group
  unfold SaramaClient.setupPartitionConsumerChannel
  dsimp only
  split
  · exact hb
  · rename_i cs hcs
    rw [createPartionConsumers_ok hcs]
    refine hb.register t ?_ fun n hn => ?_
    · refine List.Nodup.of_map Consumer.handle ?_
      rw [createPartionConsumers_handles]
      exact List.nodup_range' _ _
    · obtain ⟨hge, hlt⟩ := createPartionConsumers_fresh r _ n hn
      exact ⟨fun b hb => Nat.lt_irrefl n (Nat.lt_of_lt_of_le (h.lt b n hb) hge),
        fun hc => Nat.lt_irrefl n (Nat.lt_of_lt_of_le (h.closed_lt n hc) hge), hlt⟩

theorem ConsumersOk.setupGroupConsumerChannel (h : sc.ConsumersOk) (r : Replies)
    (t : String) : (sc.setupGroupConsumerChannel r t).1.ConsumersOk := by
  unfold SaramaClient.setupGroupConsumerChannel
  split
  · exact h
  · dsimp only
    refine ConsumersOk.register ?_ t (List.nodup_singleton _) fun n hn => ?_
    · exact h.of_frame (fun _ => rfl) (fun _ _ hb => hb) (Nat.le_succ _) (fun _ => rfl)
        fun g hg => ⟨_, (Option.mem_some_iff.mp hg).symm⟩
    · cases List.mem_singleton.mp hn

theorem ConsumersOk.subscribeNew (h : sc.ConsumersOk) (r : Replies) (t : String) :
    (sc.subscribeNew r t).1.ConsumersOk := by
  unfold SaramaClient.subscribeNew
  by_cases hp : sc.consumerType = PartitionConsumer
  · rw [if_pos hp]
    split
    exacts [h, h.setupPartitionConsumerChannel r t]
  · rw [if_neg hp]
    split_ifs
    exacts [h.setupGroupConsumerChannel r t, h]

/-- A range loop, or the `close` of `removeChannel`, touches no consumer: the invariant holds
when it panics. -/
theorem ConsumersOk.loopFrame (h : sc.ConsumersOk) (hf : LoopFrame sc a sc') : sc'.ConsumersOk := by
  obtain ⟨_, _, -, -, rfl⟩ := hf
  exact h.of_frame (fun _ => setChannels_consumers _ _) (fun _ _ hb => hb) le_rfl (fun _ => rfl)
    h.group

theorem ConsumersOk.unSubscribe (h : sc.ConsumersOk) (hw : sc.Wf) (close : Consumer → Option GoError)
    (t : String) (ch : Chan) : (Crash.after ((sc.unSubscribe close t ch).map Prod.fst)).ConsumersOk := by
  refine Crash.after_map (fun o ho => ?_) fun c hc => ?_
  · unfold SaramaClient.unSubscribe at ho
    cases ha : sc.getConsumerChannel t with
    | none => rw [removeChannelFrom_none (by simp [entry, ha])] at ho; cases ho; exact h
    | some a =>
      rw [removeChannelFrom_ok close ha (removeChannelFrom_open close ha ho)] at ho
      cases ho
      dsimp only
      split_ifs
      · refine h.of_close hw ha (fun _ => setChannels_consumers _ _) (fun t' b hb => ?_) rfl
          (congrArg (sc.closedConsumers ++ ·) (closeConsumers_calls close _)) rfl
        rw [getConsumerChannel_eraseTopic] at hb
        split_ifs at hb with hne
        exact ⟨hb, hne⟩
      · exact h.of_frame (fun _ => setChannels_consumers _ _) (fun _ _ hb => hb) le_rfl
          (fun _ => rfl) h.group
  · obtain ⟨_, hf⟩ := removeChannelFrom_error_frame close hc
    exact h.loopFrame hf

/-- The range loop of a teardown on the entry of `t`, `closeConsumers`, then the deletion of
`t`. -/
theorem ConsumersOk.clearTopic (h : sc.ConsumersOk) (hw : sc.Wf) {close : Consumer → Option GoError}
    (ha : sc.getConsumerChannel t = some a) {r : SaramaClient × Option GoError}
    (hr : sc.clearEntry close a = .ok r) : (r.1.eraseTopic t).ConsumersOk := by
  obtain ⟨_, ⟨_, _, -, -, rfl⟩, hr⟩ := clearEntry_frame close hr
  rw [hr]
  refine h.of_close hw ha (fun _ => setChannels_consumers _ _) (fun t' b hb => ?_) rfl rfl rfl
  rw [getConsumerChannel_eraseTopic] at hb
  split_ifs at hb with hne
  exact ⟨hb, hne⟩

theorem ConsumersOk.deleteTopic (h : sc.ConsumersOk) (hw : sc.Wf) (reply : Option GoError)
    (close : Consumer → Option GoError) (t : String) :
    (Crash.after ((sc.deleteTopic reply close t).map Prod.fst)).ConsumersOk :=
  Crash.after_map (fun _ ho => deleteTopic_ok_of close (fun _ _ _ ha hr => h.clearTopic hw ha hr) h ho)
    fun _ hc => let ⟨_, hf⟩ := deleteTopic_error_frame close hc; h.loopFrame hf

/-- The closes of `Stop` before the clearing reach the last group consumer only. -/
theorem ConsumersOk.closeHandles (h : sc.ConsumersOk) (hs : List Handle) {l : List Consumer}
    (hl : l ⊆ sc.groupConsumer.toList) :
    ({ sc with closedHandles := hs, closedConsumers := sc.closedConsumers ++ l } : SaramaClient).ConsumersOk := by
  refine h.of_frame (fun _ => rfl) (fun _ _ hb => hb) le_rfl (fun n => ?_) h.group
  have hg : Consumer.partition n ∉ l := fun hn => by
    obtain ⟨g, hg⟩ := h.group _ (Option.mem_toList.mp (hl hn))
    cases hg
  show (sc.closedConsumers ++ l).count _ = _
  rw [List.count_append, List.count_eq_zero_of_not_mem hg, Nat.add_zero]

theorem ConsumersOk.stopAfterSend (h : sc.ConsumersOk) (hw : sc.Wf)
    (handleReply : Handle → Option GoError) (close : Consumer → Option GoError) :
    (Crash.after ((sc.stopAfterSend handleReply close).map Prod.fst)).ConsumersOk :=
  Crash.after_map
    (fun _ ho => stopAfterSend_ok_of close (fun _ _ _ _ h' hw' ha hr => h'.clearTopic hw' ha hr)
      (fun hs _ hl => h.closeHandles hs hl) hw ho)
    fun _ hc => stopAfterSend_error_of close (fun _ _ _ _ h' hw' ha hr => h'.clearTopic hw' ha hr)
      (fun _ _ _ h' hf => h'.loopFrame hf) (fun hs _ hl => h.closeHandles hs hl) hw hc

end SaramaClient

namespace Machine

variable (m : Machine) (i : Nat) {m' : Machine}

theorem consumersOk_callerStep (hw : m.client.Wf) (h : m.client.ConsumersOk) {pc : CallerPc}
    {cs : List ApiCall} {rs : List CallResult} (hs : m.callerStep i pc cs rs = some m') :
    m'.client.ConsumersOk := by
  unfold callerStep at hs
  split at hs
  · cases hs
  · cases hs; exact h
  · cases hs; rw [client_complete]; exact h.unSubscribe hw _ _ _
  · cases hs; rw [client_complete]; exact h.deleteTopic hw _ _ _
  · obtain ⟨sc, hsc, rfl⟩ := Option.map_eq_some'.mp hs
    unfold SaramaClient.sendDone at hsc
    split at hsc <;> cases hsc
    exact h.of_frame (fun _ => rfl) (fun _ _ hb => hb) le_rfl (fun _ => rfl) h.group
  · cases hs; exact h.subscribeReuse _
  · cases hs
    split <;> exact h.subscribeNew _ _
  · cases hs; rw [client_complete]; exact h.stopAfterSend hw _ _

theorem consumersOk_loopStep (h : m.client.ConsumersOk) {group : Bool} {a : Nat} {ev : Event}
    (hs : m.loopStep i group a ev = some m') : m'.client.ConsumersOk := by
  unfold loopStep at hs
  split at hs
  any_goals (cases hs; exact h)
  · split at hs <;> cases hs
    exact h
  · obtain ⟨sc, hsc, rfl⟩ := Option.map_eq_some'.mp hs
    unfold SaramaClient.receiveDone at hsc
    split at hsc <;> cases hsc
    exact h.of_frame (fun _ => rfl) (fun _ _ hb => hb) le_rfl (fun _ => rfl) h.group
  · cases hs

theorem consumersOk_step (hw : m.client.Wf) (h : m.client.ConsumersOk) {ev : Event}
    (hs : m.step i ev = some m') : m'.client.ConsumersOk := by
  unfold step at hs
  split at hs
  · cases hs
  · split at hs
    · exact m.consumersOk_callerStep i hw h hs
    · cases hs
      unfold startConsumers
      split <;> exact h
    · exact m.consumersOk_loopStep i h hs
    · exact m.consumersOk_loopStep i h hs
    · cases hs; exact h
    · cases hs
      unfold send
      split <;> exact h
    · cases hs

end Machine

/-- Under every schedule of the client's goroutines from `Start`, with any broker answers and
any `Close` outcomes: `Close` has been called at most once on every partition consumer, and
the partition consumers of every entry of the map are open. -/
theorem partition_consumers_closed_once {consumerType : Int} {autoCreateTopic : Bool}
    {numPartitions numReplicas : Int} {callers : List (List ApiCall)} {m : Machine}
    (h : Reachable (Machine.init (.started consumerType autoCreateTopic numPartitions numReplicas)
      callers) m) :
    (∀ n, m.client.closedConsumers.count (.partition n) ≤ 1) ∧
    ∀ t a, m.client.getConsumerChannel t = some a →
      ∀ n, Consumer.partition n ∈ (m.client.heap a).consumers →
        Consumer.partition n ∉ m.client.closedConsumers := by
  suffices m.client.ConsumersOk from ⟨this.closed_once, this.registered_open⟩
  induction h with
  | init => exact .started _ _ _ _
  | step hr hs ih =>
    exact Machine.consumersOk_step _ _
      (hr.sound (Machine.sound_init _ _ _ _ _) (Machine.panic_of_step _ _ hs)).wf ih hs

/-- Two callers race to subscribe to one topic; the first unsubscribes its channel, the
second deletes the topic: the consumer of the entry is closed once, and the one the race
orphaned never. -/
theorem partition_consumers_closed_once_after_race :
    let m₀ : Machine := Machine.init (.started PartitionConsumer false 1 1)
      [[.subscribe "t" ⟨fun _ _ => none, .ok [0], fun _ => none, none⟩,
          .unSubscribe "t" 0 fun _ => none],
        [.subscribe "t" ⟨fun _ _ => none, .ok [0], fun _ => none, none⟩,
          .deleteTopic "t" none fun _ => none]]
    let m : Machine :=
      (m₀.run [(0, .run), (1, .run), (0, .run), (1, .run), (0, .run), (1, .run)]).getD m₀
    (∀ n, m.client.closedConsumers.count (.partition n) ≤ 1) ∧
    ∀ t a, m.client.getConsumerChannel t = some a →
      ∀ n, Consumer.partition n ∈ (m.client.heap a).consumers →
        Consumer.partition n ∉ m.client.closedConsumers :=
  partition_consumers_closed_once (Reachable.init.run_getD _)

end Voltha.Kafka
