import Voltha.Kafka.Registry

/-!
# The channels each object holds

`ChannelsWf`: every `consumerChannels` object of the heap holds distinct channels, each below
`nextChan`. Every call of the client keeps it. A channel is added only as the fresh
`nextChan`, `removeChannel` leaves a permutation of the list less one channel, and the range
loop of the teardowns only permutes the backing array. Objects that left the registry keep
their slice, and a dispatch still reading one reads distinct channels. The calls keep it when
they return; after a panic no goroutine reads an object again.
-/

namespace Voltha.Kafka

namespace SaramaClient

/-- Every object holds distinct channels, each one handed out already. -/
def ChannelsWf (sc : SaramaClient) : Prop :=
  ∀ a, (sc.heap a).channels.Nodup ∧ ∀ c ∈ (sc.heap a).channels, c < sc.nextChan

variable {sc sc' : SaramaClient}

theorem ChannelsWf.of_eq (h : sc.ChannelsWf) (hh : sc'.heap = sc.heap)
    (hn : sc.nextChan ≤ sc'.nextChan) : sc'.ChannelsWf := fun a => by
  rw [hh]
  exact ⟨(h a).1, fun c hc => Nat.lt_of_lt_of_le ((h a).2 c hc) hn⟩

theorem ChannelsWf.started (consumerType : Int) (autoCreateTopic : Bool)
    (numPartitions numReplicas : Int) :
    (started consumerType autoCreateTopic numPartitions numReplicas).ChannelsWf :=
  fun _ => ⟨List.nodup_nil, fun _ hc => absurd hc (List.not_mem_nil _)⟩

/-- Setting an object's slice to distinct channels it held keeps the invariant. -/
theorem ChannelsWf.setChannels (h : sc.ChannelsWf) {a : Nat} {cs : List Chan} (hnd : cs.Nodup)
    (hsub : ∀ c ∈ cs, c ∈ (sc.heap a).channels) : (sc.setChannels a cs).ChannelsWf := fun b => by
  by_cases hb : b = a
  · subst hb
    simp only [SaramaClient.setChannels, Function.update_same]
    exact ⟨hnd, fun c hc => (h b).2 c (hsub c hc)⟩
  · simp only [SaramaClient.setChannels, Function.update_noteq hb]
    exact h b

/-- A fresh channel appended to an object, or a new object holding only it. -/
theorem ChannelsWf.fresh (h : sc.ChannelsWf) (hn : sc'.nextChan = sc.nextChan + 1) {a : Nat}
    (ha : (sc'.heap a).channels = (sc.heap a).channels ++ [sc.nextChan] ∨
      (sc'.heap a).channels = [sc.nextChan])
    (hb : ∀ b ≠ a, sc'.heap b = sc.heap b) : sc'.ChannelsWf := fun b => by
  have hlt : ∀ c ∈ (sc.heap b).channels, c < sc'.nextChan := fun c hc => hn ▸ Nat.lt_succ_of_lt ((h b).2 c hc)
  by_cases hba : b = a
  · subst hba
    rcases ha with ha | ha <;> rw [ha]
    · refine ⟨List.nodup_append.mpr ⟨(h b).1, List.nodup_singleton _, ?_⟩, fun c hc => ?_⟩
      · exact fun c hc hc' => Nat.lt_irrefl _ (List.mem_singleton.mp hc' ▸ (h b).2 c hc)
      · rcases List.mem_append.mp hc with hc | hc
        exacts [hlt c hc, List.mem_singleton.mp hc ▸ hn ▸ Nat.lt_succ_self _]
    · exact ⟨List.nodup_singleton _, fun c hc => List.mem_singleton.mp hc ▸ hn ▸ Nat.lt_succ_self _⟩
  · rw [hb b hba]
    exact ⟨(h b).1, hlt⟩

/-! ## Each call keeps the invariant -/

theorem ChannelsWf.subscribeReuse (h : sc.ChannelsWf) (t : String) :
    (sc.subscribeReuse t).1.ChannelsWf := by
  unfold SaramaClient.subscribeReuse addChannelToConsumerChannelMap
  dsimp only
  split
  · rename_i a _
    exact h.fresh (a := a) rfl (.inl (by simp [SaramaClient.setChannels]))
      fun b hb => by simp [SaramaClient.setChannels, Function.update_noteq hb]
  · exact h.of_eq rfl (Nat.le_succ _)

theorem ChannelsWf.register (h : sc.ChannelsWf) (t : String) (cs : List Consumer) :
    (sc.register t cs).1.ChannelsWf :=
  h.fresh (a := sc.nextAddress) rfl
    (.inr (by simp [SaramaClient.register, alloc, addTopicToConsumerChannelMap]))
    fun b hb => by simp [SaramaClient.register, alloc, addTopicToConsumerChannelMap,
      Function.update_noteq hb]

theorem ChannelsWf.setupPartitionConsumerChannel (h : sc.ChannelsWf) (r : Replies) (t : String) :
    (sc.setupPartitionConsumerChannel r t).1.ChannelsWf := by
  unfold SaramaClient.setupPartitionConsumerChannel
  dsimp only
  split
  · exact h.of_eq rfl (Nat.le_refl _)
  · refine ChannelsWf.register ?_ t _
    exact h.of_eq rfl (Nat.le_refl _)

theorem ChannelsWf.setupGroupConsumerChannel (h : sc.ChannelsWf) (r : Replies) (t : String) :
    (sc.setupGroupConsumerChannel r t).1.ChannelsWf := by
  unfold SaramaClient.setupGroupConsumerChannel
  split
  · exact h
  · refine ChannelsWf.register ?_ t _
    exact h.of_eq rfl (Nat.le_refl _)

theorem ChannelsWf.subscribeNew (h : sc.ChannelsWf) (r : Replies) (t : String) :
    (sc.subscribeNew r t).1.ChannelsWf := by
  unfold SaramaClient.subscribeNew
  by_cases hp : sc.consumerType = PartitionConsumer
  · rw [if_pos hp]
    split
    exacts [h, h.setupPartitionConsumerChannel r t]
  · rw [if_neg hp]
    split_ifs
    exacts [h.setupGroupConsumerChannel r t, h]

/-- The range loop of a teardown only permutes the slice of its object. -/
theorem ChannelsWf.loopFrame (h : sc.ChannelsWf) {a : Nat} (hf : LoopFrame sc a sc') :
    sc'.ChannelsWf := by
  obtain ⟨arr, cl, hp, -, rfl⟩ := hf
  exact (h.setChannels (hp.nodup_iff.mpr (h a).1) fun c hc => hp.subset hc).of_eq rfl (Nat.le_refl _)

theorem ChannelsWf.unSubscribe (h : sc.ChannelsWf) {close : Consumer → Option GoError}
    {t : String} {ch : Chan} {r : SaramaClient × Option GoError}
    (hr : sc.unSubscribe close t ch = .ok r) : r.1.ChannelsWf := by
  unfold SaramaClient.unSubscribe at hr
  cases ha : sc.getConsumerChannel t with
  | none => rw [removeChannelFrom_none (by simp [entry, ha])] at hr; cases hr; exact h
  | some a =>
    rw [removeChannelFrom_ok close ha (removeChannelFrom_open close ha hr)] at hr
    cases hr
    have hrm := removeChannel_nodup (h a).1 ch
    have hset := h.setChannels (a := a) hrm.1 fun c hc => ((hrm.2.1 c).mp hc).1
    dsimp only
    split_ifs <;> exact hset.of_eq rfl (Nat.le_refl _)

theorem ChannelsWf.clearEntry (h : sc.ChannelsWf) {close : Consumer → Option GoError} {a : Nat}
    {r : SaramaClient × Option GoError} (hr : sc.clearEntry close a = .ok r) : r.1.ChannelsWf := by
  obtain ⟨_, hf, hr⟩ := clearEntry_frame close hr
  rw [hr]
  exact (h.loopFrame hf).of_eq rfl (Nat.le_refl _)

theorem ChannelsWf.deleteTopic (h : sc.ChannelsWf) {reply : Option GoError}
    {close : Consumer → Option GoError} {t : String} {r : SaramaClient × Option GoError}
    (hr : sc.deleteTopic reply close t = .ok r) : r.1.ChannelsWf :=
  deleteTopic_ok_of close (fun _ _ _ _ he => (h.clearEntry he).of_eq rfl (Nat.le_refl _)) h hr

theorem ChannelsWf.stopAfterSend (h : sc.ChannelsWf) {handleReply : Handle → Option GoError}
    {close : Consumer → Option GoError} {r : SaramaClient × Option GoError}
    (hr : sc.stopAfterSend handleReply close = .ok r) : r.1.ChannelsWf := by
  obtain ⟨s, hs, hr⟩ := exists_of_bind_eq_ok hr
  obtain ⟨_, rfl⟩ := closeHandles_ok _ hs
  exact foldlM_clearMapEntry_ok (Q := fun sc _ => sc.ChannelsWf) close
    (fun _ _ _ _ hq he => by
      obtain ⟨r', hr', rfl⟩ := exists_of_map_eq_ok he
      exact (hq.clearEntry hr').of_eq rfl (Nat.le_refl _))
    _ _ _ (h.of_eq rfl (Nat.le_refl _)) hr

end SaramaClient

end Voltha.Kafka
