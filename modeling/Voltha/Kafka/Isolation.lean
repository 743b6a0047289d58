import Voltha.Kafka.Consume
import Voltha.Kafka.Teardown

/-!
# The registry under every schedule

`Subscribe` takes the registry lock twice, and a cleared object stays reachable from the
loops and dispatches that hold its pointer, so the invariant of sequential runs fails under
concurrency: a channel can be handed out for an object no topic points to. What the
registry still keeps under every schedule is `Isolated`: every subscriber channel belongs to
one `consumerChannels` object, an entry of the map holds at least one channel, and every
channel of an entry of the map is open. It holds until a goroutine panics: a teardown whose
range loop panics stops the machine with the registry half cleared. A channel is closed only
through the object that holds it, so `UnSubscribe` never closes a closed channel, and never
panics, whatever the other goroutines do between its steps.
-/

namespace Voltha.Kafka

namespace SaramaClient

/-- The registry invariant under every schedule. -/
structure Isolated (sc : SaramaClient) : Prop where
  wf : sc.Wf
  channels : sc.ChannelsWf
  excl : ∀ a b c, c ∈ (sc.heap a).channels → c ∈ (sc.heap b).channels → a = b
  nonempty : ∀ t a, sc.getConsumerChannel t = some a → (sc.heap a).channels ≠ []
  registered_open : ∀ t a, sc.getConsumerChannel t = some a →
    ∀ c ∈ (sc.heap a).channels, c ∉ sc.closedChannels
  closed_lt : ∀ c ∈ sc.closedChannels, c < sc.nextChan

variable {sc sc' : SaramaClient} {t : String} {a : Nat}

theorem Isolated.started (consumerType : Int) (autoCreateTopic : Bool)
    (numPartitions numReplicas : Int) :
    (started consumerType autoCreateTopic numPartitions numReplicas).Isolated where
  wf := ⟨fun _ _ h => by simp [SaramaClient.started, getConsumerChannel] at h,
    fun _ _ _ h => by simp [SaramaClient.started, getConsumerChannel] at h⟩
  channels := ChannelsWf.started consumerType autoCreateTopic numPartitions numReplicas
  excl _ _ _ h := absurd h (List.not_mem_nil _)
  nonempty _ _ h := by simp [SaramaClient.started, getConsumerChannel] at h
  registered_open _ _ _ _ h := absurd h (List.not_mem_nil _)
  closed_lt _ h := absurd h (List.not_mem_nil _)

/-- A critical section that writes the object at `a` alone, keeping some of its channels,
closes only channels that object held, and only takes topics out of the map, keeps the
invariant, provided an entry still pointing to `a` is left non-empty and open. -/
theorem Isolated.of_change (h : sc.Isolated)
    (hmap : ∀ t b, sc'.getConsumerChannel t = some b → sc.getConsumerChannel t = some b)
    (haddr : sc'.nextAddress = sc.nextAddress) (hchan : sc.nextChan ≤ sc'.nextChan)
    (hheap : ∀ b ≠ a, sc'.heap b = sc.heap b) (hnd : (sc'.heap a).channels.Nodup)
    (hsub : ∀ c ∈ (sc'.heap a).channels, c ∈ (sc.heap a).channels)
    (hcl : ∀ c ∈ sc'.closedChannels, c ∈ sc.closedChannels ∨ c ∈ (sc.heap a).channels)
    (hreg : ∀ t, sc'.getConsumerChannel t = some a →
      (sc'.heap a).channels ≠ [] ∧ ∀ c ∈ (sc'.heap a).channels, c ∉ sc'.closedChannels) :
    sc'.Isolated := by
  have hold : ∀ b, ∀ c ∈ (sc'.heap b).channels, c ∈ (sc.heap b).channels := fun b c hc => by
    rcases eq_or_ne b a with rfl | hb
    · exact hsub c hc
    · rwa [hheap b hb] at hc
  refine ⟨⟨fun t b hb => haddr ▸ h.wf.lt t b (hmap t b hb),
      fun t₁ t₂ b h₁ h₂ => h.wf.inj t₁ t₂ b (hmap _ _ h₁) (hmap _ _ h₂)⟩,
    fun b => ⟨?_, fun c hc => Nat.lt_of_lt_of_le ((h.channels b).2 c (hold b c hc)) hchan⟩,
    fun x y c hx hy => h.excl x y c (hold x c hx) (hold y c hy),
    fun t b hb => ?_, fun t b hb c hc hcl' => ?_, fun c hc => ?_⟩
  · rcases eq_or_ne b a with rfl | hb
    · exact hnd
    · rw [hheap b hb]; exact (h.channels b).1
  · rcases eq_or_ne b a with rfl | hba
    · exact (hreg t hb).1
    · rw [hheap b hba]; exact h.nonempty t b (hmap t b hb)
  · rcases eq_or_ne b a with rfl | hba
    · exact (hreg t hb).2 c hc hcl'
    · rw [hheap b hba] at hc
      rcases hcl c hcl' with hc' | hc'
      · exact h.registered_open t b (hmap t b hb) c hc hc'
      · exact hba (h.excl b a c hc hc')
  · rcases hcl c hc with hc' | hc'
    · exact Nat.lt_of_lt_of_le (h.closed_lt c hc') hchan
    · exact Nat.lt_of_lt_of_le ((h.channels a).2 c hc') hchan

/-- `of_change` for a critical section that sets the channels of the object at `a` to `cs`. -/
theorem Isolated.of_setChannels (h : sc.Isolated) {cs : List Chan}
    (hh : sc'.heap = (sc.setChannels a cs).heap)
    (hmap : ∀ t b, sc'.getConsumerChannel t = some b → sc.getConsumerChannel t = some b)
    (haddr : sc'.nextAddress = sc.nextAddress) (hchan : sc.nextChan ≤ sc'.nextChan)
    (hnd : cs.Nodup) (hsub : ∀ c ∈ cs, c ∈ (sc.heap a).channels)
    (hcl : ∀ c ∈ sc'.closedChannels, c ∈ sc.closedChannels ∨ c ∈ (sc.heap a).channels)
    (hreg : ∀ t, sc'.getConsumerChannel t = some a → cs ≠ [] ∧ ∀ c ∈ cs, c ∉ sc'.closedChannels) :
    sc'.Isolated :=
  h.of_change hmap haddr hchan (fun b hb => by rw [hh, setChannels_heap_ne hb])
    (by rw [hh, setChannels_heap_self]; exact hnd) (by rw [hh, setChannels_heap_self]; exact hsub)
    hcl (by rw [hh, setChannels_heap_self]; exact hreg)

/-- A critical section that changes none of the map, the objects, the allocators and the
closed channels keeps the invariant. -/
theorem Isolated.of_frame (h : sc.Isolated)
    (hm : sc'.topicToConsumerChannelMap = sc.topicToConsumerChannelMap) (hh : sc'.heap = sc.heap)
    (haddr : sc'.nextAddress = sc.nextAddress) (hchan : sc.nextChan ≤ sc'.nextChan)
    (hcl : sc'.closedChannels = sc.closedChannels) : sc'.Isolated := by
  refine h.of_change (a := 0) (fun t b hb => ?_) haddr hchan (fun b _ => by rw [hh]) ?_
    (fun c hc => by rwa [hh] at hc) (fun c hc => .inl (hcl ▸ hc)) (fun t ht => ?_)
  · rwa [getConsumerChannel, hm] at hb
  · rw [hh]; exact (h.channels 0).1
  · have ht' : sc.getConsumerChannel t = some 0 := by rwa [getConsumerChannel, hm] at ht
    rw [hh, hcl]
    exact ⟨h.nonempty t 0 ht', h.registered_open t 0 ht'⟩

/-- A critical section that gives the object at `a` the fresh channel `nextChan`, appended
or as its only channel, and that points a topic to `a` only if it did or if that channel is
all the object holds, keeps the invariant. -/
theorem Isolated.of_fresh (h : sc.Isolated) (hwf : sc'.Wf)
    (hmap : ∀ t b, sc'.getConsumerChannel t = some b → b ≠ a → sc.getConsumerChannel t = some b)
    (hchan : sc'.nextChan = sc.nextChan + 1) (hcl : sc'.closedChannels = sc.closedChannels)
    (hheap : ∀ b ≠ a, sc'.heap b = sc.heap b)
    (ha : (sc'.heap a).channels = (sc.heap a).channels ++ [sc.nextChan] ∨
      (sc'.heap a).channels = [sc.nextChan])
    (hreg : ∀ t, sc'.getConsumerChannel t = some a →
      sc.getConsumerChannel t = some a ∨ (sc'.heap a).channels = [sc.nextChan]) :
    sc'.Isolated := by
  have hfresh : ∀ b, sc.nextChan ∉ (sc.heap b).channels := fun b hb =>
    Nat.lt_irrefl _ ((h.channels b).2 _ hb)
  have hnew : ∀ b, ∀ c ∈ (sc'.heap b).channels,
      c ∈ (sc.heap b).channels ∨ (b = a ∧ c = sc.nextChan) := by
    intro b c hc
    rcases eq_or_ne b a with rfl | hb
    · rcases ha with ha | ha <;> rw [ha] at hc <;> simp at hc <;> tauto
    · rw [hheap b hb] at hc; exact .inl hc
  refine ⟨hwf, h.channels.fresh hchan ha hheap, fun x y c hx hy => ?_, fun t b hb => ?_,
    fun t b hb c hc hcl' => ?_, fun c hc => ?_⟩
  · rcases hnew x c hx with hx | ⟨rfl, hcx⟩ <;> rcases hnew y c hy with hy | ⟨rfl, hcy⟩
    · exact h.excl x y c hx hy
    · exact absurd (hcy ▸ hx) (hfresh x)
    · exact absurd (hcx ▸ hy) (hfresh y)
    · rfl
  · rcases eq_or_ne b a with rfl | hba
    · rcases ha with ha | ha <;> simp [ha]
    · rw [hheap b hba]; exact h.nonempty t b (hmap t b hb hba)
  · rw [hcl] at hcl'
    rcases hnew b c hc with hc' | ⟨-, rfl⟩
    · rcases eq_or_ne b a with rfl | hba
      · rcases hreg t hb with hreg | hreg
        · exact h.registered_open t b hreg c hc' hcl'
        · rw [hreg, List.mem_singleton] at hc
          exact absurd (hc ▸ hc') (hfresh b)
      · exact h.registered_open t b (hmap t b hb hba) c hc' hcl'
    · exact Nat.lt_irrefl _ (h.closed_lt _ hcl')
  · rw [hcl] at hc; rw [hchan]; exact Nat.lt_succ_of_lt (h.closed_lt c hc)

/-! ## Each critical section keeps the invariant -/

theorem Isolated.subscribeReuse (h : sc.Isolated) (t : String) :
    (sc.subscribeReuse t).1.Isolated := by
  unfold SaramaClient.subscribeReuse addChannelToConsumerChannelMap
  dsimp only
  split
  · rename_i a ha
    exact h.of_fresh (a := a) ⟨h.wf.lt, h.wf.inj⟩ (fun t b hb _ => hb) rfl rfl
      (fun b hb => setChannels_heap_ne hb _) (.inl (setChannels_heap_self _))
      fun t ht => .inl ht
  · exact h.of_frame rfl rfl rfl (Nat.le_succ _) rfl

theorem getConsumerChannel_register {cs : List Consumer} {t' : String} {b : Nat}
    (h : (sc.register t cs).1.getConsumerChannel t' = some b) :
    sc.getConsumerChannel t' = some b ∨
      (t' = t ∧ b = sc.nextAddress ∧ sc.getConsumerChannel t = none) := by
  unfold SaramaClient.register alloc addTopicToConsumerChannelMap getConsumerChannel at h
  dsimp only at h
  split_ifs at h with hs
  · exact .inl h
  · by_cases ht : t' = t
    · subst ht
      rw [AList.lookup_insert] at h
      exact .inr ⟨rfl, (Option.some.inj h).symm, Option.not_isSome_iff_eq_none.mp hs⟩
    · rw [AList.lookup_insert_ne ht] at h
      exact .inl h

theorem Isolated.register (h : sc.Isolated) (t : String) (cs : List Consumer) :
    (sc.register t cs).1.Isolated := by
  have hne : ∀ t b, sc.getConsumerChannel t = some b → b ≠ sc.nextAddress :=
    fun t b hb => (h.wf.lt t b hb).ne
  have hheap : ∀ b, (sc.register t cs).1.heap b =
      Function.update sc.heap sc.nextAddress ⟨cs, [sc.nextChan]⟩ b := fun _ => rfl
  refine h.of_fresh (a := sc.nextAddress) ⟨fun t' b hb => ?_, fun t₁ t₂ b h₁ h₂ => ?_⟩
    (fun t' b hb hba => (getConsumerChannel_register hb).resolve_right fun ⟨_, hb', _⟩ => hba hb')
    rfl rfl (fun b hb => by rw [hheap, Function.update_noteq hb])
    (.inr (by rw [hheap, Function.update_same])) (fun _ _ => .inr (by rw [hheap, Function.update_same]))
  · show b < sc.nextAddress + 1
    rcases getConsumerChannel_register hb with hb | ⟨-, rfl, -⟩
    exacts [Nat.lt_succ_of_lt (h.wf.lt _ _ hb), Nat.lt_succ_self _]
  · rcases getConsumerChannel_register h₁ with h₁' | ⟨ht₁, hb₁, -⟩ <;>
      rcases getConsumerChannel_register h₂ with h₂' | ⟨ht₂, hb₂, -⟩
    · exact h.wf.inj _ _ _ h₁' h₂'
    · exact absurd hb₂ (hne _ _ h₁')
    · exact absurd hb₁ (hne _ _ h₂')
    · exact ht₁.trans ht₂.symm

theorem Isolated.setupPartitionConsumerChannel (h : sc.Isolated) (r : Replies) (t : String) :
    (sc.setupPartitionConsumerChannel r t).1.Isolated := by
  unfold SaramaClient.setupPartitionConsumerChannel
  dsimp only
  split
  · exact h.of_frame rfl rfl rfl (Nat.le_refl _) rfl
  · refine Isolated.register ?_ t _
    exact h.of_frame rfl rfl rfl (Nat.le_refl _) rfl

theorem Isolated.setupGroupConsumerChannel (h : sc.Isolated) (r : Replies) (t : String) :
    (sc.setupGroupConsumerChannel r t).1.Isolated := by
  unfold SaramaClient.setupGroupConsumerChannel
  split
  · exact h
  · refine Isolated.register ?_ t _
    exact h.of_frame rfl rfl rfl (Nat.le_refl _) rfl

theorem Isolated.subscribeNew (h : sc.Isolated) (r : Replies) (t : String) :
    (sc.subscribeNew r t).1.Isolated := by
  unfold SaramaClient.subscribeNew
  by_cases hp : sc.consumerType = PartitionConsumer
  · rw [if_pos hp]
    split
    exacts [h, h.setupPartitionConsumerChannel r t]
  · rw [if_neg hp]
    split_ifs
    exacts [h.setupGroupConsumerChannel r t, h]

/-- `UnSubscribe` closes at most `ch`, and only if the entry held it. -/
theorem Isolated.unSubscribe (h : sc.Isolated) {close : Consumer → Option GoError} {t : String}
    {ch : Chan} {o : SaramaClient × Option GoError} (ho : sc.unSubscribe close t ch = .ok o) :
    o.1.Isolated := by
  unfold SaramaClient.unSubscribe at ho
  cases ha : sc.getConsumerChannel t with
  | none => rw [removeChannelFrom_none (by simp [entry, ha])] at ho; cases ho; exact h
  | some a =>
    rw [removeChannelFrom_ok close ha (removeChannelFrom_open close ha ho)] at ho
    cases ho
    obtain ⟨rnd, rmem, -⟩ := removeChannel_nodup (h.channels a).1 ch
    have hcl : ∀ c ∈ sc.closedChannels ++ (removeChannel (sc.heap a).channels ch).closed,
        c ∈ sc.closedChannels ∨ c ∈ (sc.heap a).channels := fun c hc =>
      (List.mem_append.mp hc).imp_right removeChannel_closed_mem
    have hsub : ∀ c ∈ (removeChannel (sc.heap a).channels ch).result, c ∈ (sc.heap a).channels :=
      fun c hc => ((rmem c).mp hc).1
    dsimp only
    split_ifs with h0
    · refine h.of_setChannels rfl (fun t' b hb => ?_) rfl (Nat.le_refl _) rnd hsub hcl
        (fun t' ht' => ?_)
      · rw [getConsumerChannel_eraseTopic] at hb
        split_ifs at hb
        exact hb
      · rw [getConsumerChannel_eraseTopic] at ht'
        split_ifs at ht' with hne
        exact absurd (h.wf.inj _ _ _ ht' ha) hne
    · refine h.of_setChannels rfl (fun t' b hb => hb) rfl (Nat.le_refl _) rnd hsub hcl
        (fun t' _ => ⟨fun he => h0 (by rw [he]; rfl), fun c hc hcl' => ?_⟩)
      obtain ⟨hin, hne⟩ := (rmem c).mp hc
      rcases List.mem_append.mp hcl' with hc' | hc'
      · exact h.registered_open t a ha c hin hc'
      · exact hne (removeChannel_closed_eq hc')

/-- `UnSubscribe` returns: the only channel it closes is one an entry holds, and such a channel
is open. -/
theorem Isolated.unSubscribe_returns (h : sc.Isolated) (close : Consumer → Option GoError)
    (t : String) (ch : Chan) : ∃ o, sc.unSubscribe close t ch = .ok o := by
  unfold SaramaClient.unSubscribe removeChannelFromConsumerChannelMap
  split
  · rw [removeChannelAt_open (h.registered_open t _ ‹_› ch)]
    exact ⟨_, rfl⟩
  · exact ⟨_, rfl⟩

/-- The range loop of a teardown on the entry of `t`, then the deletion of `t`. -/
theorem Isolated.clearTopic (h : sc.Isolated) {close : Consumer → Option GoError}
    (ha : sc.getConsumerChannel t = some a) {r : SaramaClient × Option GoError}
    (hr : sc.clearEntry close a = .ok r) : (r.1.eraseTopic t).Isolated := by
  obtain ⟨_, ⟨arr, cl, hperm, hcl, rfl⟩, hr⟩ := clearEntry_frame close hr
  rw [hr]
  refine h.of_setChannels rfl (fun t' b hb => ?_) rfl (Nat.le_refl _)
    (hperm.nodup_iff.mpr (h.channels a).1) (fun c hc => hperm.subset hc)
    (fun c hc => (List.mem_append.mp hc).imp_right (hcl c)) (fun t' ht' => ?_)
  · rw [getConsumerChannel_eraseTopic] at hb
    split_ifs at hb
    exact hb
  · rw [getConsumerChannel_eraseTopic] at ht'
    split_ifs at ht' with hne
    exact absurd (h.wf.inj _ _ _ ht' ha) hne

theorem Isolated.deleteTopic (h : sc.Isolated) {reply : Option GoError}
    {close : Consumer → Option GoError} {t : String} {o : SaramaClient × Option GoError}
    (ho : sc.deleteTopic reply close t = .ok o) : o.1.Isolated :=
  deleteTopic_ok_of close (fun _ _ _ ha hr => h.clearTopic ha hr) h ho

theorem Isolated.stopAfterSend (h : sc.Isolated) {handleReply : Handle → Option GoError}
    {close : Consumer → Option GoError} {o : SaramaClient × Option GoError}
    (ho : sc.stopAfterSend handleReply close = .ok o) : o.1.Isolated :=
  stopAfterSend_ok_of close (fun _ _ _ _ h' _ ha hr => Isolated.clearTopic h' ha hr)
    (fun _ _ _ => h.of_frame rfl rfl rfl (Nat.le_refl _) rfl) h.wf ho

end SaramaClient

namespace Machine

variable (m : Machine) (i : Nat)

/-- Until a goroutine panics, the registry keeps `Isolated`. -/
def Sound : Prop := m.panic = none → m.client.Isolated

variable {m} {m' : Machine}

theorem sound_finish {sc : SaramaClient} (hsc : sc.Isolated) (cs : List ApiCall)
    (rs : List CallResult) (res : CallResult) : (m.finish i sc cs rs res).Sound := fun _ => hsc

/-- A call whose section keeps `Isolated` when it returns leaves a sound machine: when it
panics, the machine stops. -/
theorem sound_complete {α : Type} {o : Except Crash (SaramaClient × α)}
    (hok : ∀ r, o = .ok r → r.1.Isolated) (cs : List ApiCall) (rs : List CallResult)
    (res : α → CallResult) : (m.complete i o cs rs res).Sound := by
  cases o with
  | ok r => exact sound_finish i (hok r rfl) _ _ _
  | error c => exact fun hp => nomatch hp

theorem sound_callerStep (h : m.client.Isolated) {pc : CallerPc} {cs : List ApiCall}
    {rs : List CallResult} (hs : m.callerStep i pc cs rs = some m') : m'.Sound := by
  unfold callerStep at hs
  split at hs
  · cases hs
  · cases hs; exact fun _ => h
  · cases hs; exact sound_complete i (fun _ ho => h.unSubscribe ho) _ _ _
  · cases hs; exact sound_complete i (fun _ ho => h.deleteTopic ho) _ _ _
  · obtain ⟨sc, hsc, rfl⟩ := Option.map_eq_some'.mp hs
    obtain ⟨-, rfl⟩ := SaramaClient.sendDone_eq_some _ hsc
    exact fun _ => h.of_frame rfl rfl rfl (Nat.le_refl _) rfl
  · cases hs; exact sound_finish i (h.subscribeReuse _) _ _ _
  · cases hs
    split <;> exact fun _ => h.subscribeNew _ _
  · cases hs; exact sound_complete i (fun _ ho => h.stopAfterSend ho) _ _ _

theorem sound_loopStep (h : m.client.Isolated) {group : Bool} {a : Nat} {ev : Event}
    (hs : m.loopStep i group a ev = some m') : m'.Sound := by
  unfold loopStep at hs
  split at hs
  any_goals (cases hs; exact fun _ => h)
  · split at hs <;> cases hs
    exact fun _ => h
  · obtain ⟨sc, hsc, rfl⟩ := Option.map_eq_some'.mp hs
    unfold SaramaClient.receiveDone at hsc
    split at hsc <;> cases hsc
    exact fun _ => h.of_frame rfl rfl rfl (Nat.le_refl _) rfl
  · cases hs

theorem sound_step (h : m.client.Isolated) {ev : Event} (hs : m.step i ev = some m') :
    m'.Sound := by
  unfold step at hs
  split at hs
  · cases hs
  · split at hs
    · exact sound_callerStep i h hs
    · cases hs
      unfold startConsumers
      split <;> exact fun _ => h
    · exact sound_loopStep i h hs
    · exact sound_loopStep i h hs
    · cases hs; exact fun _ => h
    · cases hs
      unfold send
      split
      · exact fun hp => nomatch hp
      · exact fun _ => h
    · cases hs

end Machine

theorem Reachable.sound {m₀ m : Machine} (h : Reachable m₀ m) (h₀ : m₀.Sound) : m.Sound := by
  induction h with
  | init => exact h₀
  | step _ hs ih => exact Machine.sound_step _ (ih (Machine.panic_of_step _ _ hs)) hs

theorem Machine.sound_init (consumerType : Int) (autoCreateTopic : Bool)
    (numPartitions numReplicas : Int) (callers : List (List ApiCall)) :
    (Machine.init (.started consumerType autoCreateTopic numPartitions numReplicas) callers).Sound :=
  fun _ => .started consumerType autoCreateTopic numPartitions numReplicas

/-- Under every schedule of the client's goroutines from `Start`, with any broker answers and
any `Close` outcomes, until a goroutine panics: no subscriber channel belongs to two
`consumerChannels` objects, and every entry of the map holds at least one channel, all of them
open. -/
theorem registry_isolated {consumerType : Int} {autoCreateTopic : Bool}
    {numPartitions numReplicas : Int} {callers : List (List ApiCall)} {m : Machine}
    (h : Reachable (Machine.init (.started consumerType autoCreateTopic numPartitions numReplicas)
      callers) m) (hp : m.panic = none) :
    (∀ a b c, c ∈ (m.client.heap a).channels → c ∈ (m.client.heap b).channels → a = b) ∧
    ∀ t a, m.client.getConsumerChannel t = some a →
      (m.client.heap a).channels ≠ [] ∧ ∀ c ∈ (m.client.heap a).channels, c ∉ m.client.closedChannels :=
  have I := h.sound (Machine.sound_init _ _ _ _ _) hp
  ⟨I.excl, fun t a ha => ⟨I.nonempty t a ha, I.registered_open t a ha⟩⟩

/-- Two callers race to subscribe to one topic, and the first then unsubscribes: the channel
the second was handed stays open in its own object, which no topic points to. -/
theorem registry_isolated_after_race :
    let m₀ : Machine := Machine.init (.started PartitionConsumer false 1 1)
      [[.subscribe "t" ⟨fun _ _ => none, .ok [0], fun _ => none, none⟩,
          .unSubscribe "t" 0 fun _ => none],
        [.subscribe "t" ⟨fun _ _ => none, .ok [0], fun _ => none, none⟩]]
    let m : Machine := (m₀.run [(0, .run), (1, .run), (0, .run), (1, .run), (0, .run)]).getD m₀
    m.panic = none ∧
    (∀ a b c, c ∈ (m.client.heap a).channels → c ∈ (m.client.heap b).channels → a = b) ∧
    ∀ t a, m.client.getConsumerChannel t = some a →
      (m.client.heap a).channels ≠ [] ∧ ∀ c ∈ (m.client.heap a).channels, c ∉ m.client.closedChannels :=
  ⟨rfl, registry_isolated (Reachable.init.run_getD _) rfl⟩

/-- Under every schedule from `Start`, an `UnSubscribe` that a caller starts while no
goroutine has panicked completes without a panic: the only channel it may close is one an
entry holds, and such a channel is open. -/
theorem unSubscribe_never_panics {consumerType : Int} {autoCreateTopic : Bool}
    {numPartitions numReplicas : Int} {callers : List (List ApiCall)} {m : Machine} {i : Nat}
    {t : String} {ch : Chan} {close : Consumer → Option GoError} {cs : List ApiCall}
    {rs : List CallResult}
    (h : Reachable (Machine.init (.started consumerType autoCreateTopic numPartitions numReplicas)
      callers) m)
    (hp : m.panic = none) (ht : m.threads[i]? = some (.caller .idle (.unSubscribe t ch close :: cs) rs)) :
    ∃ m', m.step i .run = some m' ∧ m'.panic = none := by
  obtain ⟨o, ho⟩ := (h.sound (Machine.sound_init _ _ _ _ _) hp).unSubscribe_returns close t ch
  have hs : m.step i .run = some (m.complete i (m.client.unSubscribe close t ch) cs rs .unSubscribed) := by
    simp [Machine.step, hp, ht, Machine.callerStep]
  refine ⟨_, hs, ?_⟩
  rw [ho]
  exact hp

/-- A caller subscribes and then unsubscribes its channel: the `UnSubscribe` step runs
without a panic. -/
theorem unSubscribe_after_subscribe_no_panic :
    let m₀ : Machine := Machine.init (.started PartitionConsumer false 1 1)
      [[.subscribe "t" ⟨fun _ _ => none, .ok [0], fun _ => none, none⟩,
          .unSubscribe "t" 0 fun _ => none]]
    let m : Machine := (m₀.run [(0, .run), (0, .run)]).getD m₀
    ∃ m', m.step 0 .run = some m' ∧ m'.panic = none :=
  unSubscribe_never_panics (Reachable.init.run_getD _) rfl rfl

end Voltha.Kafka
