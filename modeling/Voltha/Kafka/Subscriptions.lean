import Voltha.Kafka.Registry

/-!
# Sequential runs of `Subscribe` and `UnSubscribe`

A run is a list of calls made one at a time, from the state `Start` leaves, under any
configuration and any broker answers. `History` keeps, next to the client, every channel
`Subscribe` handed out with its topic. `SubscriptionInv` is the registry invariant: entries
hold non-empty lists of distinct channels, no channel is in two entries, a handed-out
channel is open exactly while it is in its topic's entry, and the consumers of an entry are
open. It holds in every state of every run (`subscriptionInv_run`).

`NewOutcome` says once what the branch of `Subscribe` that creates an entry can do; the
preservation proofs read that, and `unSubscribe` through `removeChannelFrom_spec`.
-/

namespace Voltha.Kafka

theorem consumePartitions_opened (reply : Nat → Option GoError) (next i : Nat) (ps : List Int) :
    (consumePartitions reply next i ps).1 =
      (List.range' next (consumePartitions reply next i ps).1.length).map .partition := by
  induction ps generalizing next i with
  | nil => rfl
  | cons p ps ih =>
      simp only [consumePartitions]
      split
      · rfl
      · simp only [List.length_cons, List.range'_succ, List.map_cons]
        exact congrArg _ (ih (next + 1) (i + 1))

theorem createPartionConsumers_ok {r : Replies} {next : Nat} {cs : List Consumer}
    (h : (createPartionConsumers r next).2 = .ok cs) : cs = (createPartionConsumers r next).1 := by
  unfold createPartionConsumers at h ⊢
  split at h
  · cases h
  · simp only at h ⊢
    split at h
    · cases h
    · cases h; rfl

theorem createPartionConsumers_handles (r : Replies) (next : Nat) :
    (createPartionConsumers r next).1.map Consumer.handle =
      List.range' next (createPartionConsumers r next).1.length := by
  unfold createPartionConsumers
  split
  · rfl
  · simp only
    rw [consumePartitions_opened]
    simp [Function.comp_def, Consumer.handle]

/-- `ConsumePartition` succeeding for calls `i, …, i + k - 1` and failing at call `i + k`:
the loop returns that error, having opened `k` consumers. -/
theorem consumePartitions_fail (reply : Nat → Option GoError) (e : GoError) :
    ∀ (k next i : Nat) (ps : List Int), k < ps.length → (∀ j < k, reply (i + j) = none) →
      reply (i + k) = some e →
      consumePartitions reply next i ps = ((List.range' next k).map .partition, some e)
  | _, _, _, [], hk, _, _ => absurd hk (Nat.not_lt_zero _)
  | 0, next, i, _::ps, _, _, he => by simp only [Nat.add_zero] at he; simp [consumePartitions, he]
  | k + 1, next, i, _::ps, hk, hok, he => by
      have h0 : reply i = none := hok 0 (Nat.succ_pos k)
      have := consumePartitions_fail reply e k (next + 1) (i + 1) ps (Nat.lt_of_succ_lt_succ hk)
        (fun j hj => by simpa [Nat.add_assoc, Nat.add_comm 1 j] using hok (j + 1) (Nat.succ_lt_succ hj))
        (by simpa [Nat.add_assoc, Nat.add_comm 1 k] using he)
      simp [consumePartitions, h0, this, List.range'_succ]

namespace SaramaClient

variable {sc : SaramaClient} {t : String}

/-- How the branch of `Subscribe` that creates an entry for `t` ends: it fails and leaves
the registry and the channel counter as they were, or it registers `t` with one fresh
channel and exactly the consumers it opened. -/
inductive NewOutcome (sc : SaramaClient) (t : String) : SaramaClient × Except GoError Chan → Prop
  | failed {sc' : SaramaClient} {e : GoError} :
      sc'.entry = sc.entry → sc'.nextChan = sc.nextChan → NewOutcome sc t (sc', .error e)
  | registered {sc' : SaramaClient} {cs : List Consumer} :
      cs.map Consumer.handle = List.range' sc.nextHandle (sc'.nextHandle - sc.nextHandle) →
      sc'.nextChan = sc.nextChan + 1 →
      (∀ t', sc'.entry t' = if t' = t then some ⟨cs, [sc.nextChan]⟩ else sc.entry t') →
      NewOutcome sc t (sc', .ok sc.nextChan)

theorem setupPartition_spec (hw : sc.Wf) (hn : sc.entry t = none) (r : Replies) :
    (sc.setupPartitionConsumerChannel r t).1.Wf ∧
    sc.nextHandle ≤ (sc.setupPartitionConsumerChannel r t).1.nextHandle ∧
    (sc.setupPartitionConsumerChannel r t).1.closedChannels = sc.closedChannels ∧
    (sc.setupPartitionConsumerChannel r t).1.closedConsumers = sc.closedConsumers ∧
    NewOutcome sc t (sc.setupPartitionConsumerChannel r t) := by
  simp only [setupPartitionConsumerChannel]
  split
  · exact ⟨⟨hw.lt, hw.inj⟩, Nat.le_add_right _ _, rfl, rfl, .failed rfl rfl⟩
  · rename_i cs hcs
    obtain ⟨hw', he⟩ := register_spec (show ({ sc with nextHandle := sc.nextHandle +
      (createPartionConsumers r sc.nextHandle).1.length } : SaramaClient).Wf from ⟨hw.lt, hw.inj⟩)
      hn cs
    refine ⟨hw', by simp, rfl, rfl, .registered ?_ rfl he⟩
    rw [createPartionConsumers_ok hcs, createPartionConsumers_handles]
    simp

theorem setupGroup_spec (hw : sc.Wf) (hn : sc.entry t = none) (r : Replies) :
    (sc.setupGroupConsumerChannel r t).1.Wf ∧
    sc.nextHandle ≤ (sc.setupGroupConsumerChannel r t).1.nextHandle ∧
    (sc.setupGroupConsumerChannel r t).1.closedChannels = sc.closedChannels ∧
    (sc.setupGroupConsumerChannel r t).1.closedConsumers = sc.closedConsumers ∧
    NewOutcome sc t (sc.setupGroupConsumerChannel r t) := by
  simp only [setupGroupConsumerChannel]
  split
  · exact ⟨hw, le_rfl, rfl, rfl, .failed rfl rfl⟩
  · let sc₁ : SaramaClient :=
      { sc with nextHandle := sc.nextHandle + 1, groupConsumer := some (.group sc.nextHandle) }
    obtain ⟨hw', he⟩ := register_spec (show sc₁.Wf from ⟨hw.lt, hw.inj⟩) hn [.group sc.nextHandle]
    exact ⟨hw', by simp, rfl, rfl, .registered (by simp [Consumer.handle]) rfl he⟩

/-- `subscribeNew` on a topic with no entry: every branch, the errors included. -/
theorem subscribeNew_spec (hw : sc.Wf) (hn : sc.entry t = none) (r : Replies) :
    (sc.subscribeNew r t).1.Wf ∧ sc.nextHandle ≤ (sc.subscribeNew r t).1.nextHandle ∧
    (sc.subscribeNew r t).1.closedChannels = sc.closedChannels ∧
    (sc.subscribeNew r t).1.closedConsumers = sc.closedConsumers ∧
    NewOutcome sc t (sc.subscribeNew r t) := by
  simp only [subscribeNew]
  split_ifs
  · split
    · exact ⟨hw, le_rfl, rfl, rfl, .failed rfl rfl⟩
    · exact setupPartition_spec hw hn r
  · exact setupPartition_spec hw hn r
  · exact setupGroup_spec hw hn r
  · exact ⟨hw, le_rfl, rfl, rfl, .failed rfl rfl⟩

/-- When the `k`-th `ConsumePartition` of a new partition subscription fails, `Subscribe`
returns that error with the registry as it was and no `Close` made: the `k` partition
consumers opened before the failure stay open, and no entry holds them. -/
theorem subscribe_partition_failure {r : Replies} (hn : sc.getConsumerChannel t = none)
    (hty : sc.consumerType = PartitionConsumer)
    (hct : sc.autoCreateTopic = true →
      createTopic r.createTopic t sc.numPartitions sc.numReplicas = none)
    {ps : List Int} (hps : r.partitions = .ok ps) {k : Nat} (hk : k < ps.length)
    (hok : ∀ j < k, r.consumePartition j = none) {e : GoError}
    (he : r.consumePartition k = some e) :
    (createPartionConsumers r sc.nextHandle).1 = (List.range' sc.nextHandle k).map .partition ∧
    sc.subscribe r t = ({ sc with nextHandle := sc.nextHandle + k }, .error e) := by
  have hc := consumePartitions_fail r.consumePartition e k sc.nextHandle 0 ps hk
    (by simpa using hok) (by simpa using he)
  have hcp : createPartionConsumers r sc.nextHandle =
      ((List.range' sc.nextHandle k).map .partition, .error e) := by
    simp [createPartionConsumers, hps, hc]
  refine ⟨by rw [hcp], ?_⟩
  have hcreate : (if sc.autoCreateTopic then
      createTopic r.createTopic t sc.numPartitions sc.numReplicas else none) = none := by
    cases h : sc.autoCreateTopic
    · rfl
    · simpa using hct h
  simp only [subscribe, hn, subscribeNew, hty, if_true, hcreate, setupPartitionConsumerChannel, hcp,
    List.length_map, List.length_range']

/-- Partition 0 is consumed and partition 1 fails: `Subscribe` returns the error, and the
consumer it opened for partition 0 is never closed. -/
theorem subscribe_leaks_partition_consumer :
    let r : Replies := ⟨fun _ _ => none, .ok [0, 1],
      fun i => if i = 1 then some (.msg "consume-failed") else none, none⟩
    let sc := SaramaClient.started PartitionConsumer false 1 1
    (createPartionConsumers r sc.nextHandle).1 = [.partition 0] ∧
    sc.subscribe r "t" = ({ sc with nextHandle := 1 }, .error (.msg "consume-failed")) := by
  intro r sc
  exact subscribe_partition_failure (show sc.getConsumerChannel "t" = none from AList.lookup_empty _)
    rfl (fun h => Bool.noConfusion h) rfl (k := 1) (by decide)
    (fun j hj => by simp [r, Nat.lt_one_iff.mp hj]) rfl

/-- `Subscribe` on a topic with an entry: one fresh channel, appended; no consumer opened. -/
theorem subscribe_reuse (hw : sc.Wf) {cc : ConsumerChannels} (he : sc.entry t = some cc)
    (r : Replies) :
    (sc.subscribe r t).2 = .ok sc.nextChan ∧ (sc.subscribe r t).1.Wf ∧
    (∀ T, (sc.subscribe r t).1.entry T =
      if T = t then some ⟨cc.consumers, cc.channels ++ [sc.nextChan]⟩ else sc.entry T) ∧
    (sc.subscribe r t).1.nextChan = sc.nextChan + 1 ∧
    (sc.subscribe r t).1.nextHandle = sc.nextHandle ∧
    (sc.subscribe r t).1.closedChannels = sc.closedChannels ∧
    (sc.subscribe r t).1.closedConsumers = sc.closedConsumers := by
  obtain ⟨a, ha, -⟩ := entry_eq_some.mp he
  let sc₁ : SaramaClient := { sc with nextChan := sc.nextChan + 1 }
  obtain ⟨hw', hent⟩ := addChannel_spec (show sc₁.Wf from ⟨hw.lt, hw.inj⟩) (t := t) sc.nextChan
  have hsub : sc.subscribe r t = (sc₁.addChannelToConsumerChannelMap t sc.nextChan, .ok sc.nextChan) := by
    simp [subscribe, ha, subscribeReuse, sc₁]
  rw [hsub]
  refine ⟨rfl, hw', fun T => ?_, addChannel_fields sc.nextChan⟩
  rw [hent T]
  split_ifs with hT
  · subst hT; rw [show sc₁.entry T = some cc from he]; rfl
  · rfl

end SaramaClient

/-- A sequential run so far: the client, and every channel `Subscribe` handed out, with the
topic it was subscribed to. -/
structure History where
  client : SaramaClient
  handedOut : List (Chan × String)

/-- One call of a sequential run, with the broker's answers. -/
inductive Call where
  | subscribe (r : Replies) (topic : String)
  | unSubscribe (close : Consumer → Option GoError) (topic : String) (ch : Chan)

namespace History

def call (h : History) : Call → History
  | .subscribe r t =>
      let o := h.client.subscribe r t
      ⟨o.1, match o.2 with
        | .ok ch => h.handedOut ++ [(ch, t)]
        | .error _ => h.handedOut⟩
  | .unSubscribe close t ch =>
      ⟨Crash.after ((h.client.unSubscribe close t ch).map Prod.fst), h.handedOut⟩

/-- Right after `Start`, under any configuration. -/
def init (consumerType : Int) (autoCreateTopic : Bool) (numPartitions numReplicas : Int) :
    History :=
  ⟨.started consumerType autoCreateTopic numPartitions numReplicas, []⟩

def run (h : History) (calls : List Call) : History := calls.foldl call h

/-- Channel `c` is in the entry of `t`. -/
def Sub (sc : SaramaClient) (c : Chan) (t : String) : Prop :=
  ∃ cc, sc.entry t = some cc ∧ c ∈ cc.channels

/-- Consumer `k` is in the entry of `t`. -/
def Owns (sc : SaramaClient) (k : Consumer) (t : String) : Prop :=
  ∃ cc, sc.entry t = some cc ∧ k ∈ cc.consumers

/-- The registry invariant of sequential runs. The first five fields say what the registry
guarantees; the others are the bookkeeping that makes it inductive. -/
structure Inv (h : History) : Prop where
  nonempty : ∀ t cc, h.client.entry t = some cc → cc.channels ≠ []
  nodup : ∀ t cc, h.client.entry t = some cc → cc.channels.Nodup
  unique : ∀ c t t', Sub h.client c t → Sub h.client c t' → t = t'
  open_iff : ∀ c t, (c, t) ∈ h.handedOut → (c ∉ h.client.closedChannels ↔ Sub h.client c t)
  consumers_open : ∀ k t, Owns h.client k t → k ∉ h.client.closedConsumers
  wf : h.client.Wf
  handed : ∀ c t, Sub h.client c t → (c, t) ∈ h.handedOut
  handed_lt : ∀ c t, (c, t) ∈ h.handedOut → c < h.client.nextChan
  handed_topic : ∀ c t t', (c, t) ∈ h.handedOut → (c, t') ∈ h.handedOut → t = t'
  closed_lt : ∀ c ∈ h.client.closedChannels, c < h.client.nextChan
  consumers_nodup : ∀ t cc, h.client.entry t = some cc → cc.consumers.Nodup
  consumers_unique : ∀ k t t', Owns h.client k t → Owns h.client k t' → t = t'
  consumers_lt : ∀ k t, Owns h.client k t → k.handle < h.client.nextHandle
  closedConsumers_lt : ∀ k ∈ h.client.closedConsumers, k.handle < h.client.nextHandle

theorem inv_init (consumerType : Int) (autoCreateTopic : Bool) (numPartitions numReplicas : Int) :
    (init consumerType autoCreateTopic numPartitions numReplicas).Inv := by
  let sc := SaramaClient.started consumerType autoCreateTopic numPartitions numReplicas
  have hg : ∀ t, sc.getConsumerChannel t = none := fun t => AList.lookup_empty t
  have he : ∀ t, sc.entry t = none := fun t => by simp [SaramaClient.entry, hg]
  refine ⟨?_, ?_, ?_, ?_, ?_, ⟨?_, ?_⟩, ?_, ?_, ?_, ?_, ?_, ?_, ?_, ?_⟩ <;>
    simp [init, he, hg, Sub, Owns] <;> simp [sc, SaramaClient.started]

/-! ## `Subscribe` -/

/-- What a successful `Subscribe` makes of the entry of its topic: the fresh channel is
appended, and a new entry also gets the consumers the call opened. -/
def attach : Option ConsumerChannels → List Consumer → Chan → ConsumerChannels
  | none, cs, ch => ⟨cs, [ch]⟩
  | some cc, cs, ch => ⟨cc.consumers ++ cs, cc.channels ++ [ch]⟩

section Attach

variable {h : History} {sc' : SaramaClient} {t : String} {cs : List Consumer}

theorem sub_attach (hent : ∀ T, sc'.entry T =
      if T = t then some (attach (h.client.entry t) cs h.client.nextChan) else h.client.entry T)
    (c : Chan) (T : String) :
    Sub sc' c T ↔ Sub h.client c T ∨ (c = h.client.nextChan ∧ T = t) := by
  simp only [Sub, hent]
  split_ifs with hT
  · subst hT
    cases h.client.entry T <;> simp [attach, or_comm]
  · simp [hT]

theorem owns_attach (hent : ∀ T, sc'.entry T =
      if T = t then some (attach (h.client.entry t) cs h.client.nextChan) else h.client.entry T)
    (k : Consumer) (T : String) :
    Owns sc' k T ↔ Owns h.client k T ∨ (k ∈ cs ∧ T = t) := by
  simp only [Owns, hent]
  split_ifs with hT
  · subst hT
    cases h.client.entry T <;> simp [attach]
  · simp [hT]

theorem attach_channels_ne (o : Option ConsumerChannels) (ch : Chan) :
    (attach o cs ch).channels ≠ [] := by
  cases o <;> simp [attach]

theorem mem_handed_append {l : List (Chan × String)} {c c₀ : Chan} {T t : String}
    (h : (c, T) ∈ l ++ [(c₀, t)]) : (c, T) ∈ l ∨ (c = c₀ ∧ T = t) := by
  simpa using h

/-- A relation of keys to topics that gives each key one topic keeps doing so when keys that
are all new are related to the one topic `t`. -/
theorem unique_of_extend {β : Type} {P P' : β → String → Prop} {N : β → Prop}
    (hP : ∀ x T, P' x T → P x T ∨ (N x ∧ T = t)) (hN : ∀ x T, P x T → ¬N x)
    (hu : ∀ x T₁ T₂, P x T₁ → P x T₂ → T₁ = T₂) (x : β) (T₁ T₂ : String)
    (h₁ : P' x T₁) (h₂ : P' x T₂) : T₁ = T₂ := by
  rcases hP x T₁ h₁ with h₁ | ⟨hn, rfl⟩ <;> rcases hP x T₂ h₂ with h₂ | ⟨hn', rfl⟩
  · exact hu x T₁ T₂ h₁ h₂
  · exact absurd hn' (hN x T₁ h₁)
  · exact absurd hn (hN x T₂ h₂)
  · rfl

/-- A call that attaches the fresh channel `nextChan` to the entry of `t`, and hands it out,
keeps the invariant; on a new entry the consumers `cs` are the handles it opened. -/
theorem inv_attach (I : h.Inv) (hw : sc'.Wf)
    (hent : ∀ T, sc'.entry T =
      if T = t then some (attach (h.client.entry t) cs h.client.nextChan) else h.client.entry T)
    (hnc : sc'.nextChan = h.client.nextChan + 1) (hcl : sc'.closedChannels = h.client.closedChannels)
    (hcc : sc'.closedConsumers = h.client.closedConsumers)
    (hnh : h.client.nextHandle ≤ sc'.nextHandle)
    (hcs : ∀ k ∈ cs, h.client.nextHandle ≤ k.handle ∧ k.handle < sc'.nextHandle)
    (hnd : cs.Nodup) :
    (⟨sc', h.handedOut ++ [(h.client.nextChan, t)]⟩ : History).Inv := by
  have hsub := sub_attach hent
  have howns := owns_attach hent
  have hfresh : ∀ c T, Sub h.client c T → c < h.client.nextChan :=
    fun c T hs => I.handed_lt c T (I.handed c T hs)
  have hcases : ∀ T cc', sc'.entry T = some cc' → h.client.entry T = some cc' ∨
      (T = t ∧ cc' = attach (h.client.entry t) cs h.client.nextChan) := by
    intro T cc' h'
    rw [hent] at h'
    split_ifs at h' with hT
    exacts [.inr ⟨hT, (Option.some.inj h').symm⟩, .inl h']
  refine ⟨fun T cc' h' => ?_, fun T cc' h' => ?_,
    unique_of_extend (fun c T => (hsub c T).mp) (fun c T hs => (hfresh c T hs).ne) I.unique,
    fun c T hc => ?_, fun k T hk => ?_, hw, fun c T hs => ?_, fun c T hc => ?_,
    unique_of_extend (fun _ _ => mem_handed_append) (fun c T hc => (I.handed_lt c T hc).ne)
      I.handed_topic,
    fun c hc => ?_, fun T cc' h' => ?_,
    unique_of_extend (fun k T => (howns k T).mp)
      (fun k T hk hin => Nat.not_lt.mpr (hcs k hin).1 (I.consumers_lt k T hk)) I.consumers_unique,
    fun k T hk => ?_, fun k hk => ?_⟩
  · rcases hcases T cc' h' with h'' | ⟨-, rfl⟩
    exacts [I.nonempty T cc' h'', attach_channels_ne _ _]
  · rcases hcases T cc' h' with h'' | ⟨rfl, rfl⟩
    · exact I.nodup T cc' h''
    · cases he : h.client.entry T with
      | none => simp [attach]
      | some cc =>
          simp only [attach]
          exact List.nodup_append.mpr ⟨I.nodup T cc he, List.nodup_singleton _,
            List.disjoint_singleton.mpr fun hn => Nat.lt_irrefl _ (hfresh _ T ⟨cc, he, hn⟩)⟩
  · change c ∉ sc'.closedChannels ↔ Sub sc' c T
    rw [hcl, hsub]
    rcases mem_handed_append hc with hc | ⟨rfl, rfl⟩
    · have hlt := I.handed_lt c T hc
      rw [I.open_iff c T hc]
      exact ⟨.inl, fun h' => h'.resolve_right fun ⟨hn, _⟩ => Nat.lt_irrefl _ (hn ▸ hlt)⟩
    · exact ⟨fun _ => .inr ⟨rfl, rfl⟩, fun _ hcl' => Nat.lt_irrefl _ (I.closed_lt _ hcl')⟩
  · change k ∉ sc'.closedConsumers
    rw [hcc]
    rcases (howns k T).mp hk with hk | ⟨hk, -⟩
    · exact I.consumers_open k T hk
    · exact fun hcl' => absurd (I.closedConsumers_lt k hcl') (Nat.not_lt.mpr (hcs k hk).1)
  · rcases (hsub c T).mp hs with hs | ⟨rfl, rfl⟩
    · exact List.mem_append_left _ (I.handed c T hs)
    · exact List.mem_append_right _ (List.mem_singleton_self _)
  · change c < sc'.nextChan
    rw [hnc]
    rcases mem_handed_append hc with hc | ⟨rfl, -⟩
    exacts [Nat.lt_succ_of_lt (I.handed_lt c T hc), Nat.lt_succ_self _]
  · change c < sc'.nextChan
    rw [hnc]
    exact Nat.lt_succ_of_lt (I.closed_lt c (hcl ▸ hc))
  · rcases hcases T cc' h' with h'' | ⟨rfl, rfl⟩
    · exact I.consumers_nodup T cc' h''
    · cases he : h.client.entry T with
      | none => simpa [attach] using hnd
      | some cc =>
          simp only [attach]
          refine List.nodup_append.mpr ⟨I.consumers_nodup T cc he, hnd, fun k h₁ h₂ => ?_⟩
          exact absurd (I.consumers_lt k T ⟨cc, he, h₁⟩) (Nat.not_lt.mpr (hcs k h₂).1)
  · rcases (howns k T).mp hk with hk | ⟨hk, -⟩
    exacts [Nat.lt_of_lt_of_le (I.consumers_lt k T hk) hnh, (hcs k hk).2]
  · exact Nat.lt_of_lt_of_le (I.closedConsumers_lt k (hcc ▸ hk)) hnh

/-- A call that leaves every entry and the channel counter as they were keeps the
invariant. -/
theorem inv_same (I : h.Inv) (hw : sc'.Wf) (hent : sc'.entry = h.client.entry)
    (hnc : sc'.nextChan = h.client.nextChan) (hcl : sc'.closedChannels = h.client.closedChannels)
    (hcc : sc'.closedConsumers = h.client.closedConsumers)
    (hnh : h.client.nextHandle ≤ sc'.nextHandle) : (⟨sc', h.handedOut⟩ : History).Inv := by
  have hsub : Sub sc' = Sub h.client := by unfold Sub; rw [hent]
  have howns : Owns sc' = Owns h.client := by unfold Owns; rw [hent]
  refine ⟨?_, ?_, ?_, ?_, ?_, hw, ?_, ?_, I.handed_topic, ?_, ?_, ?_,
    fun k T hk => Nat.lt_of_lt_of_le (I.consumers_lt k T (howns ▸ hk)) hnh,
    fun k hk => Nat.lt_of_lt_of_le (I.closedConsumers_lt k (hcc ▸ hk)) hnh⟩ <;>
    simp only [hent, hsub, howns, hnc, hcl, hcc]
  exacts [I.nonempty, I.nodup, I.unique, I.open_iff, I.consumers_open, I.handed, I.handed_lt,
    I.closed_lt, I.consumers_nodup, I.consumers_unique]

end Attach

theorem handles_range {cs : List Consumer} {lo n : Nat}
    (h : cs.map Consumer.handle = List.range' lo n) :
    cs.Nodup ∧ ∀ k ∈ cs, lo ≤ k.handle ∧ k.handle < lo + n := by
  refine ⟨List.Nodup.of_map _ (h ▸ List.nodup_range' lo n), fun k hk => ?_⟩
  have : k.handle ∈ List.range' lo n := h ▸ List.mem_map_of_mem _ hk
  simpa [List.mem_range'_1] using this

theorem inv_subscribe {h : History} (I : h.Inv) (r : Replies) (t : String) :
    (h.call (.subscribe r t)).Inv := by
  cases he : h.client.entry t with
  | some cc =>
      obtain ⟨hok, hw', hent, hnc, hnh, hcl, hcc⟩ := SaramaClient.subscribe_reuse I.wf he r
      have hcall : h.call (.subscribe r t) =
          ⟨(h.client.subscribe r t).1, h.handedOut ++ [(h.client.nextChan, t)]⟩ := by
        simp [call, hok]
      rw [hcall]
      refine inv_attach I hw' (fun T => ?_) hnc hcl hcc hnh.ge
        (fun k hk => absurd hk (List.not_mem_nil k)) List.nodup_nil
      rw [hent T, he]
      simp [attach]
  | none =>
      have hg : h.client.getConsumerChannel t = none := by simpa [SaramaClient.entry] using he
      obtain ⟨hw', hnh, hcl, hcc, hout⟩ := SaramaClient.subscribeNew_spec I.wf he r
      have hcall : h.call (.subscribe r t) =
          ⟨(h.client.subscribeNew r t).1, match (h.client.subscribeNew r t).2 with
            | .ok ch => h.handedOut ++ [(ch, t)]
            | .error _ => h.handedOut⟩ := by
        simp [call, SaramaClient.subscribe, hg]
      rw [hcall]
      generalize h.client.subscribeNew r t = o at *
      cases hout with
      | failed hent hnc => exact inv_same I hw' hent hnc hcl hcc hnh
      | registered hcs hnc hent =>
          obtain ⟨hnd, hks⟩ := handles_range hcs
          refine inv_attach I hw' (fun T => ?_) hnc hcl hcc hnh (fun k hk => ?_) hnd
          · rw [hent T, he]; rfl
          · have := hks k hk
            dsimp only at hnh ⊢
            omega

/-! ## `UnSubscribe` -/

/-- The channels of a registered entry are open. -/
theorem Inv.entry_open {h : History} (I : h.Inv) {t : String} {cc : ConsumerChannels} {c : Chan}
    (he : h.client.entry t = some cc) (hc : c ∈ cc.channels) : c ∉ h.client.closedChannels :=
  (I.open_iff c t (I.handed c t ⟨cc, he, hc⟩)).mpr ⟨cc, he, hc⟩

/-- In a sequential run, `UnSubscribe` returns: the channel it closes is open. -/
theorem Inv.unSubscribe_returns {h : History} (I : h.Inv) (close : Consumer → Option GoError)
    (t : String) (ch : Chan) : ∃ o, h.client.unSubscribe close t ch = .ok o := by
  cases he : h.client.entry t with
  | none => exact ⟨_, SaramaClient.removeChannelFrom_none he close ch⟩
  | some cc => exact SaramaClient.removeChannelFrom_returns close he fun hin => I.entry_open he hin

theorem call_unSubscribe {h : History} {close : Consumer → Option GoError} {t : String} {ch : Chan}
    {o : SaramaClient × Option GoError} (ho : h.client.unSubscribe close t ch = .ok o) :
    h.call (.unSubscribe close t ch) = ⟨o.1, h.handedOut⟩ := by
  simp only [call, ho]; rfl

section UnSubscribe

variable {sc : SaramaClient} {t : String} {cc : ConsumerChannels}
  {close : Consumer → Option GoError} {ch : Chan} {o : SaramaClient × Option GoError}

/-- After `UnSubscribe` on `t`, every entry is an old one, or the entry of `t` with the
channels `removeChannel` returns. -/
theorem unSubscribe_entry (hw : sc.Wf) (he : sc.entry t = some cc)
    (ho : sc.unSubscribe close t ch = .ok o) {t' : String} {cc' : ConsumerChannels}
    (h' : o.1.entry t' = some cc') :
    (t' ≠ t ∧ sc.entry t' = some cc') ∨
      (t' = t ∧ cc' = { cc with channels := (removeChannel cc.channels ch).result } ∧
        (removeChannel cc.channels ch).result ≠ []) := by
  obtain ⟨-, -, -, -, hother, hlast, hrest⟩ := SaramaClient.removeChannelFrom_spec close hw he ho
  by_cases ht : t' = t
  · subst ht
    by_cases h0 : (removeChannel cc.channels ch).result = []
    · rw [(hlast h0).1] at h'; cases h'
    · rw [(hrest h0).1] at h'
      exact .inr ⟨rfl, (Option.some.inj h').symm, h0⟩
  · exact .inl ⟨ht, by rwa [hother t' ht] at h'⟩

/-- `UnSubscribe t ch` takes exactly the pair `(ch, t)` out of the subscriptions. -/
theorem unSubscribe_sub (hw : sc.Wf) (hnd : cc.channels.Nodup) (he : sc.entry t = some cc)
    (ho : sc.unSubscribe close t ch = .ok o) (c : Chan) (t' : String) :
    Sub o.1 c t' ↔ Sub sc c t' ∧ ¬(c = ch ∧ t' = t) := by
  obtain ⟨-, -, -, -, hother, hlast, hrest⟩ := SaramaClient.removeChannelFrom_spec close hw he ho
  obtain ⟨-, hmem, -⟩ := removeChannel_nodup hnd ch
  by_cases ht : t' = t
  · subst ht
    simp only [Sub, he, Option.some.injEq, exists_eq_left', and_true]
    by_cases h0 : (removeChannel cc.channels ch).result = []
    · have hc := hmem c
      rw [h0] at hc
      simp only [(hlast h0).1, reduceCtorEq, false_and, exists_false, false_iff, not_and, not_not]
      simpa using hc
    · rw [(hrest h0).1]
      simp [hmem, Ne]
  · simp only [Sub, hother t' ht, ht, and_false, not_false_eq_true, and_true]

/-- `UnSubscribe` only shrinks entries: every consumer it leaves registered was there. -/
theorem unSubscribe_owns (hw : sc.Wf) (he : sc.entry t = some cc)
    (ho : sc.unSubscribe close t ch = .ok o) {k : Consumer} {t' : String}
    (h' : Owns o.1 k t') : Owns sc k t' := by
  obtain ⟨cc', hcc', hk⟩ := h'
  rcases unSubscribe_entry hw he ho hcc' with ⟨-, h₁⟩ | ⟨rfl, rfl, -⟩
  · exact ⟨cc', h₁, hk⟩
  · exact ⟨cc, he, hk⟩

/-- A channel `UnSubscribe` closes is `ch`, and only if the entry held it. -/
theorem unSubscribe_closedChannels (hw : sc.Wf) (hnd : cc.channels.Nodup)
    (he : sc.entry t = some cc) (ho : sc.unSubscribe close t ch = .ok o) (c : Chan) :
    c ∈ o.1.closedChannels ↔ c ∈ sc.closedChannels ∨ (c = ch ∧ ch ∈ cc.channels) := by
  obtain ⟨-, hcl, -⟩ := SaramaClient.removeChannelFrom_spec close hw he ho
  obtain ⟨-, -, rclosed⟩ := removeChannel_nodup hnd ch
  rw [hcl, rclosed, List.mem_append]
  split_ifs with hin <;> simp [hin]

/-- A consumer `UnSubscribe` closes is one of the entry's, closed when the entry goes. -/
theorem unSubscribe_closedConsumers (hw : sc.Wf) (he : sc.entry t = some cc)
    (ho : sc.unSubscribe close t ch = .ok o) {k : Consumer} (hk : k ∈ o.1.closedConsumers) :
    k ∈ sc.closedConsumers ∨ (k ∈ cc.consumers ∧ o.1.entry t = none) := by
  obtain ⟨-, -, -, -, -, hlast, hrest⟩ := SaramaClient.removeChannelFrom_spec close hw he ho
  by_cases h0 : (removeChannel cc.channels ch).result = []
  · rw [(hlast h0).2.1, List.mem_append] at hk
    exact hk.imp_right fun hk => ⟨hk, (hlast h0).1⟩
  · rw [(hrest h0).2.1] at hk
    exact .inl hk

end UnSubscribe

theorem inv_unSubscribe {h : History} (I : h.Inv) (close : Consumer → Option GoError)
    (t : String) (ch : Chan) : (h.call (.unSubscribe close t ch)).Inv := by
  obtain ⟨o, ho⟩ := I.unSubscribe_returns close t ch
  rw [call_unSubscribe ho]
  cases he : h.client.entry t with
  | none =>
      rw [show h.client.unSubscribe close t ch = _ from SaramaClient.removeChannelFrom_none he close ch]
        at ho
      cases ho; exact I
  | some cc =>
      obtain ⟨hw', -, hnc, hnh, -⟩ := SaramaClient.removeChannelFrom_spec close I.wf he ho
      obtain ⟨rnd, -⟩ := removeChannel_nodup (I.nodup t cc he) ch
      have hsub := unSubscribe_sub I.wf (I.nodup t cc he) he ho
      have hcls := unSubscribe_closedChannels I.wf (I.nodup t cc he) he ho
      refine ⟨fun t' cc' h' => ?_, fun t' cc' h' => ?_, fun c t₁ t₂ h₁ h₂ => ?_,
        fun c t' hc => ?_, fun k t' hk => ?_, hw', fun c t' hs => ?_, ?_, I.handed_topic, ?_,
        fun t' cc' h' => ?_, fun k t₁ t₂ h₁ h₂ => ?_, fun k t' hk => ?_, ?_⟩
      · rcases unSubscribe_entry I.wf he ho h' with ⟨-, h''⟩ | ⟨-, rfl, h0⟩
        exacts [I.nonempty _ _ h'', h0]
      · rcases unSubscribe_entry I.wf he ho h' with ⟨-, h''⟩ | ⟨-, rfl, -⟩
        exacts [I.nodup _ _ h'', rnd]
      · exact I.unique c t₁ t₂ ((hsub c t₁).mp h₁).1 ((hsub c t₂).mp h₂).1
      · change c ∉ o.1.closedChannels ↔ Sub o.1 c t'
        rw [hsub, hcls, not_or, I.open_iff c t' hc]
        refine and_congr_right fun hs => not_congr ⟨fun ⟨hc', hin⟩ =>
          ⟨hc', I.unique c t' t hs (hc' ▸ ⟨cc, he, hin⟩)⟩, fun ⟨hc', ht'⟩ => ⟨hc', ?_⟩⟩
        subst hc' ht'
        obtain ⟨cc₀, h₀, hm⟩ := hs
        rw [he] at h₀
        cases h₀
        exact hm
      · intro hk'
        have hold := unSubscribe_owns I.wf he ho hk
        rcases unSubscribe_closedConsumers I.wf he ho hk' with hk' | ⟨hk', hnone⟩
        · exact I.consumers_open k t' hold hk'
        · obtain ⟨cc', hcc', -⟩ := hk
          rw [I.consumers_unique k t' t hold ⟨cc, he, hk'⟩] at hcc'
          exact Option.noConfusion (hnone.symm.trans hcc')
      · exact I.handed c t' ((hsub c t').mp hs).1
      · exact fun c t' hc => hnc ▸ I.handed_lt c t' hc
      · intro c hc
        change c < o.1.nextChan
        rw [hnc]
        rcases (hcls c).mp hc with hc | ⟨rfl, hin⟩
        exacts [I.closed_lt c hc, I.handed_lt c t (I.handed c t ⟨cc, he, hin⟩)]
      · rcases unSubscribe_entry I.wf he ho h' with ⟨-, h''⟩ | ⟨-, rfl, -⟩
        exacts [I.consumers_nodup _ _ h'', I.consumers_nodup t cc he]
      · exact I.consumers_unique k t₁ t₂ (unSubscribe_owns I.wf he ho h₁)
          (unSubscribe_owns I.wf he ho h₂)
      · exact hnh ▸ I.consumers_lt k t' (unSubscribe_owns I.wf he ho hk)
      · intro k hk
        change k.handle < o.1.nextHandle
        rw [hnh]
        rcases unSubscribe_closedConsumers I.wf he ho hk with hk | ⟨hk, -⟩
        exacts [I.closedConsumers_lt k hk, I.consumers_lt k t ⟨cc, he, hk⟩]

theorem inv_call {h : History} (I : h.Inv) : ∀ c : Call, (h.call c).Inv
  | .subscribe r t => inv_subscribe I r t
  | .unSubscribe close t ch => inv_unSubscribe I close t ch

theorem inv_run {h : History} (I : h.Inv) (calls : List Call) : (h.run calls).Inv := by
  induction calls generalizing h with
  | nil => exact I
  | cons c cs ih => exact ih (inv_call I c)

/-! ## What one call does to the consumers -/

/-- No call changes the consumers of an entry that it leaves in place. -/
theorem call_keeps_consumers {h : History} (I : h.Inv) (c : Call) {T : String}
    {cc cc' : ConsumerChannels} (h₁ : h.client.entry T = some cc)
    (h₂ : (h.call c).client.entry T = some cc') : cc'.consumers = cc.consumers := by
  cases c with
  | subscribe r t =>
      change (h.client.subscribe r t).1.entry T = some cc' at h₂
      cases he : h.client.entry t with
      | some cc₀ =>
          rw [(SaramaClient.subscribe_reuse I.wf he r).2.2.1 T] at h₂
          split_ifs at h₂ with hT
          · subst hT; rw [he] at h₁; cases h₁; cases h₂; simp
          · rw [h₁] at h₂; cases h₂; rfl
      | none =>
          have hg : h.client.getConsumerChannel t = none := by simpa [SaramaClient.entry] using he
          obtain ⟨-, -, -, -, hout⟩ := SaramaClient.subscribeNew_spec I.wf he r
          rw [SaramaClient.subscribe, hg] at h₂
          generalize h.client.subscribeNew r t = o at *
          cases hout with
          | failed hent _ => rw [hent, h₁] at h₂; cases h₂; rfl
          | registered _ _ hent =>
              rw [hent T] at h₂
              split_ifs at h₂ with hT
              · subst hT; rw [he] at h₁; cases h₁
              · rw [h₁] at h₂; cases h₂; rfl
  | unSubscribe close t ch =>
      obtain ⟨o, ho⟩ := I.unSubscribe_returns close t ch
      rw [call_unSubscribe ho] at h₂
      cases he : h.client.entry t with
      | none =>
          rw [show h.client.unSubscribe close t ch = _ from
            SaramaClient.removeChannelFrom_none he close ch] at ho
          cases ho; rw [h₁] at h₂; cases h₂; rfl
      | some cc₀ =>
          rcases unSubscribe_entry I.wf he ho h₂ with ⟨-, h₃⟩ | ⟨rfl, rfl, -⟩
          · rw [h₁] at h₃; cases h₃; rfl
          · rw [he] at h₁; cases h₁; rfl

/-- The `Subscribe` that creates an entry gives it one channel and exactly the consumer
handles it opened. -/
theorem subscribe_creates {h : History} (I : h.Inv) (r : Replies) {T : String} {ch : Chan}
    (he : h.client.entry T = none) (hok : (h.client.subscribe r T).2 = .ok ch) :
    ch = h.client.nextChan ∧ ∃ cs : List Consumer,
      (h.call (.subscribe r T)).client.entry T = some ⟨cs, [ch]⟩ ∧
      cs.map Consumer.handle = List.range' h.client.nextHandle
        ((h.call (.subscribe r T)).client.nextHandle - h.client.nextHandle) := by
  have hg : h.client.getConsumerChannel T = none := by simpa [SaramaClient.entry] using he
  obtain ⟨-, -, -, -, hout⟩ := SaramaClient.subscribeNew_spec I.wf he r
  change ch = h.client.nextChan ∧ ∃ cs : List Consumer,
    (h.client.subscribe r T).1.entry T = some ⟨cs, [ch]⟩ ∧ cs.map Consumer.handle =
      List.range' h.client.nextHandle ((h.client.subscribe r T).1.nextHandle - h.client.nextHandle)
  rw [SaramaClient.subscribe, hg] at hok ⊢
  generalize h.client.subscribeNew r T = o at *
  cases hout with
  | failed => cases hok
  | registered hcs _ hent =>
      cases hok
      exact ⟨rfl, _, by rw [hent T, if_pos rfl], hcs⟩

/-- The `UnSubscribe` that removes the last channel of `T` deletes the entry and closes each
of its consumers exactly once. -/
theorem unSubscribe_last {h : History} (I : h.Inv) (close : Consumer → Option GoError)
    {T : String} {ch : Chan} {cc : ConsumerChannels} (he : h.client.entry T = some cc)
    (hl : cc.channels = [ch]) :
    (h.call (.unSubscribe close T ch)).client.entry T = none ∧
    ∀ k ∈ cc.consumers, (h.call (.unSubscribe close T ch)).client.closedConsumers.count k = 1 := by
  obtain ⟨o, ho⟩ := I.unSubscribe_returns close T ch
  obtain ⟨-, -, -, -, -, hlast, -⟩ := SaramaClient.removeChannelFrom_spec close I.wf he ho
  have h0 : (removeChannel cc.channels ch).result = [] := by
    rw [hl, show [ch] = ([] : List Chan) ++ [ch] from rfl, removeChannel_at_last [] ch (by simp)]
  obtain ⟨hdel, hcc, -⟩ := hlast h0
  rw [call_unSubscribe ho]
  refine ⟨hdel, fun k hk => ?_⟩
  rw [hcc, List.count_append, List.count_eq_zero_of_not_mem (I.consumers_open k T ⟨cc, he, hk⟩),
    List.count_eq_one_of_mem (I.consumers_nodup T cc he) hk]

/-- Every state of every sequential run of `Subscribe` and `UnSubscribe`, under any
configuration and any broker answers, satisfies the registry invariant. From every such
state, a `Subscribe` on a registered topic appends one fresh channel to its entry alone and
opens no consumer; the `Subscribe` that creates an entry gives it exactly the consumer handles
it opened; no call changes the consumers of an entry it keeps; and the `UnSubscribe` of the
last channel deletes the entry and closes each of its consumers exactly once. -/
theorem sequential_registry (consumerType : Int) (autoCreateTopic : Bool)
    (numPartitions numReplicas : Int) (calls : List Call) :
    let h := (init consumerType autoCreateTopic numPartitions numReplicas).run calls
    h.Inv ∧
    (∀ r T cc, h.client.entry T = some cc →
      (h.client.subscribe r T).2 = .ok h.client.nextChan ∧
      (∀ T', (h.client.nextChan, T') ∉ h.handedOut) ∧
      (h.call (.subscribe r T)).client.entry T =
        some ⟨cc.consumers, cc.channels ++ [h.client.nextChan]⟩ ∧
      (∀ T', T' ≠ T → (h.call (.subscribe r T)).client.entry T' = h.client.entry T') ∧
      (h.call (.subscribe r T)).client.nextHandle = h.client.nextHandle) ∧
    (∀ r T ch, h.client.entry T = none → (h.client.subscribe r T).2 = .ok ch →
      ∃ cs : List Consumer, (h.call (.subscribe r T)).client.entry T = some ⟨cs, [ch]⟩ ∧
        cs.map Consumer.handle = List.range' h.client.nextHandle
          ((h.call (.subscribe r T)).client.nextHandle - h.client.nextHandle)) ∧
    (∀ c T cc cc', h.client.entry T = some cc → (h.call c).client.entry T = some cc' →
      cc'.consumers = cc.consumers) ∧
    (∀ close T ch cc, h.client.entry T = some cc → cc.channels = [ch] →
      (h.call (.unSubscribe close T ch)).client.entry T = none ∧
      ∀ k ∈ cc.consumers, (h.call (.unSubscribe close T ch)).client.closedConsumers.count k = 1) := by
  intro h
  have I : h.Inv := inv_run (inv_init _ _ _ _) calls
  refine ⟨I, fun r T cc he => ?_, fun r T ch he hok => (subscribe_creates I r he hok).2,
    fun c T cc cc' => call_keeps_consumers I c, fun close T ch cc => unSubscribe_last I close⟩
  obtain ⟨hok, -, hent, -, hnh, -⟩ := SaramaClient.subscribe_reuse I.wf he r
  refine ⟨hok, fun T' hT' => Nat.lt_irrefl _ (I.handed_lt _ T' hT'), ?_, fun T' hT' => ?_, hnh⟩
  · exact (hent T).trans (if_pos rfl)
  · exact (hent T').trans (if_neg hT')

end History

end Voltha.Kafka
