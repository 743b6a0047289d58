import Voltha.Kafka.Subscriptions

/-!
# Tearing a topic down

`clearTopicFromConsumerChannelMap` and `clearConsumerChannelMap` close an entry's channels
with `for _, ch := range consumerCh.channels { removeChannel(consumerCh.channels, ch) }`.
The range reads the backing array at each index, and every `removeChannel` call swaps the
channel it closes into the last slot of that same array. On an entry `L ++ [z]` with `L`
non-empty, the loop closes the channels of `L` in order, then reads the last of them again
and closes it a second time: a `close of closed channel` panic, before `closeConsumers` and
`delete`, with `z` never closed (`clearChannels_shared`). An entry of one channel is cleared
(`clearChannels_single`).

So in every state of a sequential run, `DeleteTopic` clears a topic of one subscriber and
panics on a topic of two or more (`deleteTopic_clears_single_or_panics`), and `Stop`, with
every `Close` succeeding, returns exactly when every entry holds one channel
(`stop_clears_single_or_panics`).

Before it clears the registry, `Stop` closes `sc.groupConsumer`, the group consumer created
last; the clearing then closes the consumers of every entry. When `Stop` returns, each
registered consumer has been closed once, except that group consumer while its topic is
still subscribed: it has been closed twice (`stop_closes_consumers`).
-/

namespace Voltha.Kafka

theorem getD_after (pre rest : List Chan) (b : Chan) :
    (pre ++ b :: rest).getD pre.length 0 = b := by
  rw [List.getD_eq_getElem?_getD, List.getElem?_append_right (Nat.le_refl _), Nat.sub_self,
    List.getElem?_cons_zero, Option.getD_some]

/-- The swap of one turn only moves channels: the array keeps the same elements. -/
theorem swap_perm (pre B : List Chan) (b x : Chan) :
    (pre ++ b :: (B ++ [x])).Perm (pre ++ x :: (B ++ [b])) :=
  List.Perm.append_left pre <| ((List.perm_append_singleton x B).cons b).trans <|
    (List.Perm.swap x b B).trans ((List.perm_append_singleton b B).symm.cons x)

namespace SaramaClient

variable {sc : SaramaClient} {a : Nat}

/-! ## The range loop on one entry -/

/-- From the second turn on: the array is `z :: (A ++ B ++ [x])`, where `x` was closed and
swapped to the back by the turn before, and the loop reads index `A.length + 1` onwards. It
closes the channels of `B`, each swapped to the back in turn, and then reads the closed
channel at the back once more and panics. -/
theorem clearChannels_tail (a : Nat) (z : Chan) : ∀ (A B : List Chan) (x : Chan) (sc : SaramaClient),
    (sc.heap a).channels = z :: (A ++ B ++ [x]) → (z :: (A ++ B ++ [x])).Nodup →
    x ∈ sc.closedChannels → (∀ b ∈ B, b ∉ sc.closedChannels) →
    ∃ c, clearChannels a sc (List.range' (A.length + 1) (B.length + 1)) = .error c ∧
      c.panic = .closeOfClosedChannel ∧ c.client.closedChannels = sc.closedChannels ++ B
  | A, [], x, sc, harr, _, hx, _ => by
    have hsplit : z :: (A ++ [] ++ [x]) = (z :: A) ++ [x] := by simp
    have hget : (sc.heap a).channels.getD (A.length + 1) 0 = x := by
      rw [harr, hsplit]; exact getD_after (z :: A) [] x
    have hin : x ∈ (sc.heap a).channels := by rw [harr, hsplit]; exact List.mem_concat_self _ x
    rw [List.length_nil, List.range'_one, clearChannels, hget, removeChannelAt_closed hin hx]
    exact ⟨_, rfl, rfl, (List.append_nil _).symm⟩
  | A, b :: B, x, sc, harr, hnd, hx, hB => by
    have hsplit : z :: (A ++ b :: B ++ [x]) = (z :: A) ++ b :: (B ++ [x]) := by simp
    have hnd' := List.nodup_append.mp (hsplit ▸ hnd)
    have hb : b ∉ z :: A := fun h => hnd'.2.2 h (List.mem_cons_self b _)
    have hbB : b ∉ B := fun h => (List.nodup_cons.mp hnd'.2.1).1 (List.mem_append_left _ h)
    have hget : (sc.heap a).channels.getD (A.length + 1) 0 = b := by
      rw [harr, hsplit]; exact getD_after (z :: A) _ b
    have hrem : removeChannel (sc.heap a).channels b =
        ⟨(z :: A) ++ x :: (B ++ [b]), [b], (z :: A) ++ x :: B⟩ := by
      rw [harr, hsplit]; exact removeChannel_swap _ _ _ _ hb
    obtain ⟨c, hc, hp, hcl⟩ := clearChannels_tail a z (A ++ [x]) B b
      { sc.setChannels a ((z :: A) ++ x :: (B ++ [b])) with
        closedChannels := sc.closedChannels ++ [b] }
      (by simp) (by simpa using (swap_perm (z :: A) B b x).nodup_iff.mp (hsplit ▸ hnd))
      (List.mem_concat_self _ b)
      (fun b' hb' hcl => (List.mem_append.mp hcl).elim (hB b' (List.mem_cons_of_mem b hb'))
        fun h => hbB (List.mem_singleton.mp h ▸ hb'))
    have hlen : (A ++ [x]).length + 1 = A.length + 1 + 1 := by simp
    rw [hlen] at hc
    refine ⟨c, ?_, hp, by rw [hcl, List.append_assoc, List.singleton_append]⟩
    rw [List.length_cons, List.range'_succ, clearChannels, hget,
      removeChannelAt_open fun _ => hB b (List.mem_cons_self b B), hrem]
    exact hc

/-- On an entry `L ++ [z]` with `L` non-empty, its channels distinct and those of `L` open,
the range loop closes the channels of `L` in order and then panics: it reads the last of them
again. -/
theorem clearChannels_shared {L : List Chan} {z : Chan} (hL : L ≠ [])
    (harr : (sc.heap a).channels = L ++ [z]) (hnd : (L ++ [z]).Nodup)
    (hopen : ∀ c ∈ L, c ∉ sc.closedChannels) :
    ∃ c, clearChannels a sc (List.range (L.length + 1)) = .error c ∧
      c.panic = .closeOfClosedChannel ∧ c.client.closedChannels = sc.closedChannels ++ L := by
  obtain ⟨c₀, L', rfl⟩ := List.exists_cons_of_ne_nil hL
  have hget : (sc.heap a).channels.getD 0 0 = c₀ := by rw [harr]; rfl
  have hrem : removeChannel (sc.heap a).channels c₀ = ⟨z :: (L' ++ [c₀]), [c₀], z :: L'⟩ := by
    rw [harr]; simpa using removeChannel_swap [] L' c₀ z (List.not_mem_nil c₀)
  have hc₀ : c₀ ∉ L' := (List.nodup_cons.mp hnd).1 ∘ List.mem_append_left _
  obtain ⟨c, hc, hp, hcl⟩ := clearChannels_tail a z [] L' c₀
    { sc.setChannels a (z :: (L' ++ [c₀])) with closedChannels := sc.closedChannels ++ [c₀] }
    (by simp) (by simpa using (swap_perm [] L' c₀ z).nodup_iff.mp (by simpa using hnd))
    (List.mem_concat_self _ c₀)
    (fun b hb hcl => (List.mem_append.mp hcl).elim (hopen b (List.mem_cons_of_mem c₀ hb))
      fun h => hc₀ (List.mem_singleton.mp h ▸ hb))
  refine ⟨c, ?_, hp, by rw [hcl, List.append_assoc, List.singleton_append]⟩
  rw [List.length_cons, List.range_eq_range', List.range'_succ, clearChannels, hget,
    removeChannelAt_open fun _ => hopen c₀ (List.mem_cons_self c₀ L'), hrem]
  exact hc

/-- On an entry of one open channel, the range loop closes it and returns. -/
theorem clearChannels_single {z : Chan} (harr : (sc.heap a).channels = [z])
    (hz : z ∉ sc.closedChannels) :
    clearChannels a sc (List.range 1) = .ok { sc with closedChannels := sc.closedChannels ++ [z] } := by
  have hget : (sc.heap a).channels.getD 0 0 = z := by rw [harr]; rfl
  have hrem : removeChannel (sc.heap a).channels z = ⟨[z], [z], []⟩ := by
    rw [harr]; exact removeChannel_at_last [] z (List.not_mem_nil z)
  have hself : sc.setChannels a [z] = sc := by rw [← harr]; exact setChannels_self
  rw [show List.range 1 = [0] from rfl, clearChannels, hget, removeChannelAt_open fun _ => hz, hrem]
  simp only [hself]
  rfl

variable (close : Consumer → Option GoError)

/-- When the range loop over the object at `a` returns, `closeConsumers` runs on its
consumers. -/
theorem clearEntry_of_ok {sc' : SaramaClient}
    (h : clearChannels a sc (List.range (sc.heap a).channels.length) = .ok sc') :
    sc.clearEntry close a = .ok ({ sc' with closedConsumers := sc.closedConsumers ++ (sc.heap a).consumers },
      (closeConsumers close (sc.heap a).consumers).2) := by
  simp only [clearEntry, h, closeConsumers_calls]
  rfl

theorem clearEntry_of_error {c : Crash}
    (h : clearChannels a sc (List.range (sc.heap a).channels.length) = .error c) :
    sc.clearEntry close a = .error c := by
  simp only [clearEntry, h]
  rfl

/-! ## `DeleteTopic` -/

/-- `DeleteTopic` once the admin call succeeded, on a registered topic: the range loop and
`closeConsumers` on its object, then the deletion. -/
theorem deleteTopic_registered {t : String}
    (ha : sc.getConsumerChannel t = some a) :
    sc.deleteTopic none close t = (sc.clearEntry close a).map fun r => (r.1.eraseTopic t, r.2) := by
  simp only [deleteTopic, clearTopicFromConsumerChannelMap, ha]

/-! ## `Stop` -/

/-- What the loop of `clearConsumerChannelMap` needs of the entries `es` it has still to
visit to get through them: each holds a channel, and their channels, read entry after
entry, are distinct and open. -/
structure Clearable (sc : SaramaClient) (es : List (Σ _ : String, Nat)) : Prop where
  nonempty : ∀ e ∈ es, (sc.heap e.2).channels ≠ []
  channels_nodup : (es.map fun e => (sc.heap e.2).channels).flatten.Nodup
  channels_open : ∀ c ∈ (es.map fun e => (sc.heap e.2).channels).flatten, c ∉ sc.closedChannels

/-- The first entry's channels are distinct and open. -/
theorem Clearable.head {e : Σ _ : String, Nat} {es : List (Σ _ : String, Nat)}
    (hc : Clearable sc (e :: es)) :
    (sc.heap e.2).channels.Nodup ∧ ∀ c ∈ (sc.heap e.2).channels, c ∉ sc.closedChannels := by
  have hnd := hc.channels_nodup
  rw [List.map_cons, List.flatten_cons] at hnd
  refine ⟨(List.nodup_append.mp hnd).1, fun c h => hc.channels_open c ?_⟩
  rw [List.map_cons, List.flatten_cons]
  exact List.mem_append_left _ h

/-- A turn that closed the one channel `z` of the first entry, and changed no object, leaves
the rest of the entries clearable. -/
theorem Clearable.tail {e : Σ _ : String, Nat} {es : List (Σ _ : String, Nat)} {z : Chan}
    {sc' : SaramaClient} (hc : Clearable sc (e :: es)) (hz : (sc.heap e.2).channels = [z])
    (hh : sc'.heap = sc.heap) (hcl : sc'.closedChannels = sc.closedChannels ++ [z]) :
    Clearable sc' es := by
  have hnd := hc.channels_nodup
  rw [List.map_cons, List.flatten_cons, hz, List.singleton_append, List.nodup_cons] at hnd
  refine ⟨fun e' he' => hh ▸ hc.nonempty e' (List.mem_cons_of_mem e he'), hh ▸ hnd.2,
    fun c hc' hcl' => ?_⟩
  rw [hh] at hc'
  rw [hcl] at hcl'
  have hc'' : c ∈ ((e :: es).map fun e => (sc.heap e.2).channels).flatten := by
    rw [List.map_cons, List.flatten_cons]; exact List.mem_append_right _ hc'
  rcases List.mem_append.mp hcl' with h | h
  · exact hc.channels_open c hc'' h
  · exact hnd.1 (List.mem_singleton.mp h ▸ hc')

/-- A turn of the loop of `clearConsumerChannelMap` on an entry of one open channel returns,
having closed that channel and changed no object. -/
theorem clearMapEntry_single {acc : SaramaClient × Option GoError} {e : Σ _ : String, Nat}
    {z : Chan} (hz : (acc.1.heap e.2).channels = [z]) (hopen : z ∉ acc.1.closedChannels) :
    ∃ r, clearMapEntry close acc e = .ok r ∧ r.1.heap = acc.1.heap ∧
      r.1.closedChannels = acc.1.closedChannels ++ [z] := by
  have hc : clearChannels e.2 acc.1 (List.range (acc.1.heap e.2).channels.length) =
      .ok { acc.1 with closedChannels := acc.1.closedChannels ++ [z] } := by
    rw [hz]; exact clearChannels_single hz hopen
  simp only [clearMapEntry, clearEntry_of_ok close hc]
  exact ⟨_, rfl, rfl, rfl⟩

/-- A turn on an entry of two channels or more, distinct and open, panics in its range loop. -/
theorem clearMapEntry_shared {acc : SaramaClient × Option GoError} {e : Σ _ : String, Nat}
    {L : List Chan} {z : Chan} (hL : L ≠ []) (hz : (acc.1.heap e.2).channels = L ++ [z])
    (hnd : (L ++ [z]).Nodup) (hopen : ∀ c ∈ L, c ∉ acc.1.closedChannels) :
    ∃ c, clearMapEntry close acc e = .error c ∧ c.panic = .closeOfClosedChannel := by
  obtain ⟨c, hc, hp, -⟩ := clearChannels_shared hL hz hnd hopen
  have hc' : clearChannels e.2 acc.1 (List.range (acc.1.heap e.2).channels.length) = .error c := by
    rw [hz, List.length_append, List.length_singleton]; exact hc
  simp only [clearMapEntry, clearEntry_of_error close hc']
  exact ⟨c, rfl, hp⟩

/-- The loop of `clearConsumerChannelMap` over clearable entries returns, having closed
their channels once each, when each entry holds one channel; otherwise it panics on the
first entry of two channels or more. -/
theorem foldlM_clearMapEntry_clearable : ∀ (es : List (Σ _ : String, Nat))
    (acc : SaramaClient × Option GoError), Clearable acc.1 es →
    ((∀ e ∈ es, (acc.1.heap e.2).channels.length = 1) ∧
      ∃ r, es.foldlM (clearMapEntry close) acc = .ok r ∧
        r.1.closedChannels = acc.1.closedChannels ++ (es.map fun e => (acc.1.heap e.2).channels).flatten) ∨
    ((∃ e ∈ es, 2 ≤ (acc.1.heap e.2).channels.length) ∧
      ∃ c, es.foldlM (clearMapEntry close) acc = .error c ∧ c.panic = .closeOfClosedChannel)
  | [], acc, _ => .inl ⟨fun _ h => absurd h (List.not_mem_nil _), acc, rfl, by simp⟩
  | e :: es, acc, hc => by
    obtain ⟨hnd, hopen⟩ := hc.head
    obtain ⟨L, z, hLz⟩ := List.eq_nil_or_concat (acc.1.heap e.2).channels |>.resolve_left
      (hc.nonempty e (List.mem_cons_self e es))
    rw [List.concat_eq_append] at hLz
    rcases eq_or_ne L [] with rfl | hL
    · obtain ⟨r₁, h₁, hh, hcl⟩ := clearMapEntry_single close hLz
        (hopen z (hLz ▸ List.mem_singleton_self z))
      have hfold : (e :: es).foldlM (clearMapEntry close) acc = es.foldlM (clearMapEntry close) r₁ := by
        rw [List.foldlM_cons, h₁]; rfl
      rw [hfold]
      rcases foldlM_clearMapEntry_clearable es r₁ (hc.tail hLz hh hcl) with
        ⟨hall, r, hr, hrcl⟩ | ⟨⟨e', he', h2⟩, hrest⟩
      · refine .inl ⟨fun e' he' => ?_, r, hr, ?_⟩
        · rcases List.mem_cons.mp he' with rfl | he'
          · rw [hLz]; rfl
          · exact hh ▸ hall e' he'
        · rw [hrcl, hcl, hh, List.map_cons, List.flatten_cons, hLz, List.append_assoc]; rfl
      · exact .inr ⟨⟨e', List.mem_cons_of_mem e he', hh ▸ h2⟩, hrest⟩
    · obtain ⟨c, hc', hp⟩ := clearMapEntry_shared close hL hLz (hLz ▸ hnd)
        fun c h => hopen c (hLz ▸ List.mem_append_left _ h)
      refine .inr ⟨⟨e, List.mem_cons_self e es, ?_⟩, c, by rw [List.foldlM_cons, hc']; rfl, hp⟩
      rw [hLz, List.length_append, List.length_singleton]
      exact Nat.succ_le_succ (List.length_pos.mpr hL)

/-- A turn that returns closes the consumers of its entry, and changes no object's consumers. -/
theorem clearMapEntry_consumers {acc r : SaramaClient × Option GoError} {e : Σ _ : String, Nat}
    (h : clearMapEntry close acc e = .ok r) :
    r.1.closedConsumers = acc.1.closedConsumers ++ (acc.1.heap e.2).consumers ∧
      ∀ b, (r.1.heap b).consumers = (acc.1.heap b).consumers := by
  obtain ⟨r₁, h₁, rfl⟩ := exists_of_map_eq_ok h
  obtain ⟨_, ⟨_, _, -, -, rfl⟩, hr⟩ := clearEntry_frame close h₁
  rw [hr]
  exact ⟨rfl, fun b => setChannels_consumers _ b⟩

/-- When the loop of `clearConsumerChannelMap` returns, it has closed the consumers of every
entry it visited, in order. -/
theorem foldlM_clearMapEntry_consumers : ∀ (es : List (Σ _ : String, Nat))
    (acc r : SaramaClient × Option GoError), es.foldlM (clearMapEntry close) acc = .ok r →
    r.1.closedConsumers = acc.1.closedConsumers ++ (es.map fun e => (acc.1.heap e.2).consumers).flatten
  | [], acc, r, h => by cases h; simp
  | e :: es, acc, r, h => by
    rw [List.foldlM_cons] at h
    obtain ⟨r₁, h₁, h₂⟩ := exists_of_bind_eq_ok h
    obtain ⟨hcl, hh⟩ := clearMapEntry_consumers close h₁
    rw [foldlM_clearMapEntry_consumers es r₁ r h₂, hcl, List.map_cons, List.flatten_cons,
      List.append_assoc]
    simp only [hh]

/-- `Stop` when the shutdown send goes through. -/
theorem stop_of_doneCh (hd : sc.doneCh = 0) {handleReply : Handle → Option GoError} :
    sc.stop handleReply close =
      some (({ sc with doneCh := 1 }.stopAfterSend handleReply close).map Prod.fst) := by
  simp [stop, sendDone, hd]

/-- When `Stop` returns, the consumers closed are those closed before, then the last group
consumer, then the consumers of every entry of the registry, in the order of the map. -/
theorem stop_closedConsumers {handleReply : Handle → Option GoError} {sc' : SaramaClient}
    (hs : sc.stop handleReply close = some (.ok sc')) :
    sc'.closedConsumers = sc.closedConsumers ++ sc.groupConsumer.toList ++
      (sc.topicToConsumerChannelMap.entries.map fun e => (sc.heap e.2).consumers).flatten := by
  obtain ⟨s₁, h₁, hs⟩ := Option.map_eq_some'.mp hs
  obtain ⟨-, rfl⟩ := sendDone_eq_some _ h₁
  obtain ⟨r, hr, rfl⟩ := exists_of_map_eq_ok hs
  obtain ⟨s, hc, hr⟩ := exists_of_bind_eq_ok hr
  obtain ⟨_, rfl⟩ := closeHandles_ok _ hc
  exact foldlM_clearMapEntry_consumers close _ _ r hr

end SaramaClient

namespace History

open SaramaClient

/-- An entry of the map's list is the entry of its topic. -/
theorem entry_of_mem_entries {sc : SaramaClient} {e : Σ _ : String, Nat}
    (he : e ∈ sc.topicToConsumerChannelMap.entries) : sc.entry e.1 = some (sc.heap e.2) :=
  entry_eq_some.mpr ⟨e.2, AList.mem_lookup_iff.mpr he, rfl⟩

/-- What `f` reads off each entry of the registry, entry after entry. -/
def registered {α : Type} (f : ConsumerChannels → List α) (sc : SaramaClient) : List α :=
  (sc.topicToConsumerChannelMap.entries.map fun e => f (sc.heap e.2)).flatten

theorem mem_registered {α : Type} {f : ConsumerChannels → List α} {sc : SaramaClient} {x : α} :
    x ∈ registered f sc ↔ ∃ t cc, sc.entry t = some cc ∧ x ∈ f cc := by
  simp only [registered, List.mem_flatten, List.mem_map, entry_eq_some]
  constructor
  · rintro ⟨_, ⟨e, he, rfl⟩, hx⟩
    exact ⟨e.1, _, ⟨e.2, AList.mem_lookup_iff.mpr he, rfl⟩, hx⟩
  · rintro ⟨t, _, ⟨a, ha, rfl⟩, hx⟩
    exact ⟨_, ⟨⟨t, a⟩, AList.mem_lookup_iff.mp ha, rfl⟩, hx⟩

/-- Nothing is read off two entries, nor twice off one, when each entry's list is distinct
and no value is in two entries. -/
theorem registered_nodup {α : Type} {f : ConsumerChannels → List α} {sc : SaramaClient}
    (hnd : ∀ t cc, sc.entry t = some cc → (f cc).Nodup)
    (hu : ∀ x t t', (∃ cc, sc.entry t = some cc ∧ x ∈ f cc) →
      (∃ cc, sc.entry t' = some cc ∧ x ∈ f cc) → t = t') :
    (registered f sc).Nodup := by
  refine List.nodup_flatten.mpr ⟨?_, List.pairwise_map.mpr ?_⟩
  · simp only [List.mem_map]
    rintro _ ⟨e, he, rfl⟩
    exact hnd _ _ (entry_of_mem_entries he)
  · refine (List.nodupKeys_iff_pairwise.mp sc.topicToConsumerChannelMap.nodupKeys).imp_of_mem
      fun he he' hne x hx hx' => hne ?_
    exact hu x _ _ ⟨_, entry_of_mem_entries he, hx⟩ ⟨_, entry_of_mem_entries he', hx'⟩

variable {h : History}

/-- In a sequential run the registry's channels are distinct, open and on non-empty
entries: the loop of `Stop` may start. -/
theorem Inv.clearable (I : h.Inv) {sc : SaramaClient}
    (hm : sc.topicToConsumerChannelMap = h.client.topicToConsumerChannelMap)
    (hh : sc.heap = h.client.heap) (hcl : sc.closedChannels = h.client.closedChannels) :
    Clearable sc sc.topicToConsumerChannelMap.entries := by
  have hnd : (registered ConsumerChannels.channels h.client).Nodup :=
    registered_nodup I.nodup I.unique
  rw [hm]
  refine ⟨fun e he => hh ▸ I.nonempty _ _ (entry_of_mem_entries he), hh ▸ hnd, fun c hc => hcl ▸ ?_⟩
  rw [hh] at hc
  obtain ⟨t, cc, he, hc⟩ := mem_registered.mp hc
  exact I.entry_open he hc

/-- In every state of a sequential run, a `DeleteTopic` the broker accepts on a subscribed
topic returns when the topic has one subscriber, having closed its channel and its consumers
and deleted the entry. With two subscribers or more it panics on a `close` of a closed
channel, having closed every channel of the entry but the last: the entry stays registered
and its consumers open. -/
theorem deleteTopic_clears_single_or_panics (I : h.Inv) (close : Consumer → Option GoError)
    {t : String} {cc : ConsumerChannels} (he : h.client.entry t = some cc) :
    (∀ z, cc.channels = [z] →
      ∃ sc', h.client.deleteTopic none close t = .ok (sc', (closeConsumers close cc.consumers).2) ∧
        sc'.entry t = none ∧ sc'.closedChannels = h.client.closedChannels ++ [z] ∧
        sc'.closedConsumers = h.client.closedConsumers ++ cc.consumers) ∧
    (∀ L z, L ≠ [] → cc.channels = L ++ [z] →
      ∃ c, h.client.deleteTopic none close t = .error c ∧ c.panic = .closeOfClosedChannel ∧
        c.client.closedChannels = h.client.closedChannels ++ L ∧ z ∉ c.client.closedChannels ∧
        c.client.getConsumerChannel t = h.client.getConsumerChannel t ∧
        c.client.closedConsumers = h.client.closedConsumers) := by
  obtain ⟨a, ha, rfl⟩ := entry_eq_some.mp he
  rw [deleteTopic_registered close ha]
  refine ⟨fun z hz => ?_, fun L z hL hz => ?_⟩
  · have hc : clearChannels a h.client (List.range (h.client.heap a).channels.length) =
        .ok { h.client with closedChannels := h.client.closedChannels ++ [z] } := by
      rw [hz]; exact clearChannels_single hz (I.entry_open he (hz ▸ List.mem_singleton_self z))
    rw [clearEntry_of_ok close hc]
    exact ⟨_, rfl, by rw [entry_eraseTopic, if_pos rfl], rfl, rfl⟩
  · have hnd : (L ++ [z]).Nodup := hz ▸ I.nodup t _ he
    obtain ⟨c, hc, hp, hcl⟩ := clearChannels_shared hL hz hnd
      fun c h => I.entry_open he (hz ▸ List.mem_append_left _ h)
    have hc' : clearChannels a h.client (List.range (h.client.heap a).channels.length) = .error c := by
      rw [hz, List.length_append, List.length_singleton]; exact hc
    have hf := clearChannels_frame (a := a) h.client (List.range (h.client.heap a).channels.length)
    rw [hc'] at hf
    obtain ⟨arr, cl, -, -, hcc⟩ : LoopFrame h.client a c.client := hf
    rw [clearEntry_of_error close hc']
    refine ⟨c, rfl, hp, hcl, fun hzc => ?_, by rw [hcc]; rfl, by rw [hcc]; rfl⟩
    · rw [hcl] at hzc
      rcases List.mem_append.mp hzc with h' | h'
      · exact I.entry_open he (hz ▸ List.mem_concat_self L z) h'
      · exact (List.nodup_append.mp hnd).2.2 h' (List.mem_singleton_self z)

/-- Two subscribers on one topic, in a run from `Start`, then `DeleteTopic`: the loop closes
channel `0`, then reads it again and panics, and channel `1` is never closed. -/
theorem deleteTopic_panics_after_two_subscribes :
    let r : Replies := ⟨fun _ _ => none, .ok [0], fun _ => none, none⟩
    let h := (History.init PartitionConsumer false 1 1).run [.subscribe r "t", .subscribe r "t"]
    ∃ c, h.client.deleteTopic none (fun _ => none) "t" = .error c ∧
      c.panic = .closeOfClosedChannel ∧ c.client.closedChannels = h.client.closedChannels ++ [0] ∧
      1 ∉ c.client.closedChannels ∧
      c.client.getConsumerChannel "t" = h.client.getConsumerChannel "t" ∧
      c.client.closedConsumers = h.client.closedConsumers := by
  intro r h
  exact (deleteTopic_clears_single_or_panics
    (inv_run (inv_init PartitionConsumer false 1 1) [.subscribe r "t", .subscribe r "t"])
    (fun _ => none) (show h.client.entry "t" = some ⟨[.partition 0], [0, 1]⟩ from rfl)).2
    [0] 1 (List.cons_ne_nil 0 []) rfl

/-- In every state of a sequential run, a `Stop` whose shutdown send goes through and whose
`Close` calls all succeed returns when every entry holds one channel, having closed each
registered channel once. When an entry holds two channels or more, it panics on a `close` of a
closed channel. -/
theorem stop_clears_single_or_panics (I : h.Inv) (hd : h.client.doneCh = 0)
    {handleReply : Handle → Option GoError} {close : Consumer → Option GoError}
    (hh : ∀ k, handleReply k = none) (hg : ∀ g ∈ h.client.groupConsumer, close g = none) :
    ((∀ t cc, h.client.entry t = some cc → cc.channels.length = 1) ∧
      ∃ sc', h.client.stop handleReply close = some (.ok sc') ∧
        sc'.closedChannels = h.client.closedChannels ++ registered ConsumerChannels.channels h.client) ∨
    ((∃ t cc, h.client.entry t = some cc ∧ 2 ≤ cc.channels.length) ∧
      ∃ c, h.client.stop handleReply close = some (.error c) ∧ c.panic = .closeOfClosedChannel) := by
  obtain ⟨s, hs⟩ := closeHandles_returns { h.client with doneCh := 1 } hh hg
  obtain ⟨_, hsx⟩ := closeHandles_ok _ hs
  have hm : s.topicToConsumerChannelMap = h.client.topicToConsumerChannelMap := by rw [hsx]
  have hheap : s.heap = h.client.heap := by rw [hsx]
  have hcl : s.closedChannels = h.client.closedChannels := by rw [hsx]
  have hstop : h.client.stop handleReply close =
      some ((s.topicToConsumerChannelMap.entries.foldlM (clearMapEntry close) (s, none)).map Prod.fst) := by
    rw [stop_of_doneCh close hd, stopAfterSend, hs]; rfl
  rw [hstop]
  rcases foldlM_clearMapEntry_clearable close _ (s, none) (I.clearable hm hheap hcl) with
    ⟨hall, r, hr, hrcl⟩ | ⟨⟨e, he, h2⟩, c, hc, hp⟩
  · refine .inl ⟨fun t cc het => ?_, r.1, by rw [hr]; rfl, ?_⟩
    · obtain ⟨a, ha, rfl⟩ := entry_eq_some.mp het
      rw [← hheap]
      exact hall ⟨t, a⟩ (hm ▸ AList.mem_lookup_iff.mp ha)
    · rw [hrcl, hcl, hm, hheap]; rfl
  · rw [hm] at he
    exact .inr ⟨⟨e.1, _, entry_of_mem_entries he, hheap ▸ h2⟩, c, by rw [hc]; rfl, hp⟩

/-- Two subscribers on one topic, in a run from `Start`, then `Stop` with every `Close`
succeeding. -/
theorem stop_panics_after_two_subscribes :
    let r : Replies := ⟨fun _ _ => none, .ok [0], fun _ => none, none⟩
    let h := (History.init PartitionConsumer false 1 1).run [.subscribe r "t", .subscribe r "t"]
    ((∀ t cc, h.client.entry t = some cc → cc.channels.length = 1) ∧
      ∃ sc', h.client.stop (fun _ => none) (fun _ => none) = some (.ok sc') ∧
        sc'.closedChannels = h.client.closedChannels ++ registered ConsumerChannels.channels h.client) ∨
    ((∃ t cc, h.client.entry t = some cc ∧ 2 ≤ cc.channels.length) ∧
      ∃ c, h.client.stop (fun _ => none) (fun _ => none) = some (.error c) ∧
        c.panic = .closeOfClosedChannel) := by
  intro r h
  exact stop_clears_single_or_panics
    (inv_run (inv_init PartitionConsumer false 1 1) [.subscribe r "t", .subscribe r "t"]) rfl
    (fun _ => rfl) (fun _ hg => nomatch hg)

theorem count_toList (o : Option Consumer) (k : Consumer) :
    o.toList.count k = if o = some k then 1 else 0 := by
  cases o <;> simp [List.count_singleton', eq_comm]

/-- In every state of a sequential run, a `Stop` that returns has closed each registered
consumer once through its entry, and the last group consumer once more: a registered group
consumer that is the last one created is closed twice. A consumer of no entry is closed again
only if it is the last group consumer. -/
theorem stop_closes_consumers (I : h.Inv)
    {handleReply : Handle → Option GoError} {close : Consumer → Option GoError}
    {sc' : SaramaClient} (hs : h.client.stop handleReply close = some (.ok sc')) :
    (∀ k t, Owns h.client k t →
      sc'.closedConsumers.count k = if h.client.groupConsumer = some k then 2 else 1) ∧
    ∀ k, (∀ t, ¬Owns h.client k t) →
      sc'.closedConsumers.count k =
        h.client.closedConsumers.count k + if h.client.groupConsumer = some k then 1 else 0 := by
  have hc : sc'.closedConsumers = h.client.closedConsumers ++ h.client.groupConsumer.toList ++
      registered ConsumerChannels.consumers h.client := stop_closedConsumers close hs
  have hnd := registered_nodup (f := ConsumerChannels.consumers) I.consumers_nodup I.consumers_unique
  refine ⟨fun k t ho => ?_, fun k ho => ?_⟩
  · have hk : k ∈ registered ConsumerChannels.consumers h.client :=
      let ⟨cc, he, hk⟩ := ho; mem_registered.mpr ⟨t, cc, he, hk⟩
    rw [hc, List.count_append, List.count_append, List.count_eq_zero_of_not_mem
      (I.consumers_open k t ho), List.count_eq_one_of_mem hnd hk, count_toList]
    split_ifs <;> rfl
  · have hk : k ∉ registered ConsumerChannels.consumers h.client := fun hk =>
      let ⟨t, cc, he, hk⟩ := mem_registered.mp hk; ho t ⟨cc, he, hk⟩
    rw [hc, List.count_append, List.count_append, count_toList, List.count_eq_zero_of_not_mem hk,
      Nat.add_zero]

/-- A group-consumer client subscribes to `"t"` and stops with every `Close` succeeding: the
group consumer is closed twice. -/
theorem stop_closes_group_consumer_twice :
    let r : Replies := ⟨fun _ _ => none, .ok [0], fun _ => none, none⟩
    let h := (History.init GroupCustomer false 1 1).run [.subscribe r "t"]
    ∃ sc', h.client.stop (fun _ => none) (fun _ => none) = some (.ok sc') ∧
      sc'.closedConsumers.count (.group 0) = 2 := by
  intro r h
  obtain ⟨sc', hs⟩ : ∃ sc', h.client.stop (fun _ => none) (fun _ => none) = some (.ok sc') :=
    ⟨_, rfl⟩
  exact ⟨sc', hs, ((stop_closes_consumers (inv_run (inv_init GroupCustomer false 1 1)
    [.subscribe r "t"]) hs).1 (.group 0) "t" ⟨_, rfl, List.mem_singleton_self _⟩).trans (if_pos rfl)⟩

end History

/-- Two subscribers on one topic, then `DeleteTopic`: the range loop closes channel `0`,
reads it again and panics, with channel `1` never closed and the entry still registered. A
group subscription, then `Stop`: `Close` is called twice on the group consumer. -/
theorem teardowns_close_twice :
    let r : Replies := ⟨fun _ _ => none, .ok [0], fun _ => none, none⟩
    let sc₁ := (SaramaClient.started PartitionConsumer false 1 1).subscribe r "t"
    let sc₂ := sc₁.1.subscribe r "t"
    let g := (SaramaClient.started GroupCustomer false 1 1).subscribe r "t"
    sc₁.2 = .ok 0 ∧ sc₂.2 = .ok 1 ∧
    (∃ c, sc₂.1.deleteTopic none (fun _ => none) "t" = .error c ∧
      c.panic = .closeOfClosedChannel ∧ c.client.closedChannels = [0] ∧
      c.client.getConsumerChannel "t" = some 0 ∧ c.client.closedConsumers = []) ∧
    g.2 = .ok 0 ∧
    ∃ sc', g.1.stop (fun _ => none) (fun _ => none) = some (.ok sc') ∧
      sc'.closedConsumers = [.group 0, .group 0] :=
  ⟨rfl, rfl, ⟨_, rfl, rfl, rfl, rfl, rfl⟩, rfl, _, rfl, rfl⟩

end Voltha.Kafka
