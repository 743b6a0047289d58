import Voltha.Kafka.Calls

/-!
# The registry through its pointers

`entry t` is the `consumerChannels` object that topic `t` points to: what the code means by
"the registry entry of `t`". While the pointers in the map are allocated and distinct
(`Wf`), each helper changes `entry` at its own topic only. The lemmas below say what every
helper does to `entry`; the proofs about runs use them and never unfold a helper.

A `close` succeeds on an open channel and panics on a closed one. Whether it returns or
panics, the range loop of a teardown has only permuted the slice of its object and closed
some of that object's channels (`LoopFrame`), so an invariant that does not read the
channels survives the panic too. An invariant that the teardown of one registered entry keeps
is kept by `DeleteTopic` and `Stop` (`deleteTopic_ok_of`, `stopAfterSend_ok_of`), and holds at
their panics if a panicking loop keeps it (`stopAfterSend_error_of`).
-/

namespace Voltha.Kafka

/-- The handle number of a broker-level consumer. -/
def Consumer.handle : Consumer → Nat
  | .partition h | .group h => h

namespace SaramaClient

variable {sc : SaramaClient} {t t' : String} {a : Nat}

/-- The entry of `topic`, read through its pointer. -/
def entry (sc : SaramaClient) (topic : String) : Option ConsumerChannels :=
  (sc.getConsumerChannel topic).map sc.heap

/-- Every pointer in the map is allocated, and no two topics share one. -/
structure Wf (sc : SaramaClient) : Prop where
  lt : ∀ t a, sc.getConsumerChannel t = some a → a < sc.nextAddress
  inj : ∀ t t' a, sc.getConsumerChannel t = some a → sc.getConsumerChannel t' = some a → t = t'

@[simp] theorem setChannels_getConsumerChannel (cs : List Chan) :
    (sc.setChannels a cs).getConsumerChannel t = sc.getConsumerChannel t := rfl
@[simp] theorem setChannels_nextAddress (cs : List Chan) :
    (sc.setChannels a cs).nextAddress = sc.nextAddress := rfl
@[simp] theorem setChannels_nextChan (cs : List Chan) :
    (sc.setChannels a cs).nextChan = sc.nextChan := rfl
@[simp] theorem setChannels_nextHandle (cs : List Chan) :
    (sc.setChannels a cs).nextHandle = sc.nextHandle := rfl
@[simp] theorem setChannels_closedChannels (cs : List Chan) :
    (sc.setChannels a cs).closedChannels = sc.closedChannels := rfl
@[simp] theorem setChannels_closedConsumers (cs : List Chan) :
    (sc.setChannels a cs).closedConsumers = sc.closedConsumers := rfl
@[simp] theorem setChannels_consumers (cs : List Chan) (b : Nat) :
    ((sc.setChannels a cs).heap b).consumers = (sc.heap b).consumers := by
  by_cases hb : b = a
  · subst hb; simp [setChannels]
  · simp [setChannels, Function.update_noteq hb]

@[simp] theorem setChannels_heap_self (cs : List Chan) : ((sc.setChannels a cs).heap a).channels = cs := by
  simp [setChannels]

theorem setChannels_heap_ne {b : Nat} (hb : b ≠ a) (cs : List Chan) :
    (sc.setChannels a cs).heap b = sc.heap b := by
  simp [setChannels, Function.update_noteq hb]

@[simp] theorem setChannels_setChannels (cs cs' : List Chan) :
    (sc.setChannels a cs).setChannels a cs' = sc.setChannels a cs' := by
  simp [setChannels, Function.update_idem]

theorem setChannels_closedChannels_update (cs cl : List Chan) :
    ({ sc with closedChannels := cl } : SaramaClient).setChannels a cs =
      { sc.setChannels a cs with closedChannels := cl } := rfl

theorem setChannels_self : sc.setChannels a (sc.heap a).channels = sc := by
  simp [setChannels]

theorem Wf.setChannels (hw : sc.Wf) (cs : List Chan) : (sc.setChannels a cs).Wf :=
  ⟨hw.lt, hw.inj⟩

theorem entry_eq_some {cc : ConsumerChannels} :
    sc.entry t = some cc ↔ ∃ a, sc.getConsumerChannel t = some a ∧ sc.heap a = cc := by
  simp [entry]

/-- Writing through the pointer of `t` changes the entry of `t` alone. -/
theorem entry_setChannels (hw : sc.Wf) (ha : sc.getConsumerChannel t = some a)
    (cs : List Chan) (t' : String) :
    (sc.setChannels a cs).entry t' =
      if t' = t then some { sc.heap a with channels := cs } else sc.entry t' := by
  unfold entry
  rw [setChannels_getConsumerChannel]
  split_ifs with h
  · subst h; rw [ha]; exact congrArg some (Function.update_same _ _ _)
  · cases hb : sc.getConsumerChannel t' with
    | none => rfl
    | some b =>
        have hne : b ≠ a := fun hba => h (hw.inj t' t a (hba ▸ hb) ha)
        exact congrArg some (Function.update_noteq hne _ _)

/-! ## `addTopicToConsumerChannelMap` and `register` -/

theorem getConsumerChannel_addTopic (hn : sc.getConsumerChannel t = none) (a : Nat)
    (t' : String) : (sc.addTopicToConsumerChannelMap t a).getConsumerChannel t' =
      if t' = t then some a else sc.getConsumerChannel t' := by
  unfold addTopicToConsumerChannelMap
  rw [hn]
  simp only [getConsumerChannel, Option.isSome_none, Bool.false_eq_true, if_false]
  split_ifs with h
  · subst h; exact AList.lookup_insert _
  · exact AList.lookup_insert_ne h

@[simp] theorem register_nextChan (cs : List Consumer) :
    (sc.register t cs).1.nextChan = sc.nextChan + 1 := rfl
@[simp] theorem register_nextHandle (cs : List Consumer) :
    (sc.register t cs).1.nextHandle = sc.nextHandle := rfl
@[simp] theorem register_closedChannels (cs : List Consumer) :
    (sc.register t cs).1.closedChannels = sc.closedChannels := rfl
@[simp] theorem register_closedConsumers (cs : List Consumer) :
    (sc.register t cs).1.closedConsumers = sc.closedConsumers := rfl
@[simp] theorem register_chan (cs : List Consumer) : (sc.register t cs).2 = sc.nextChan := rfl

/-- A topic with no entry gets a new object holding `cs` and one fresh channel. -/
theorem register_spec (hw : sc.Wf) (hn : sc.entry t = none) (cs : List Consumer) :
    (sc.register t cs).1.Wf ∧ ∀ t', (sc.register t cs).1.entry t' =
      if t' = t then some ⟨cs, [sc.nextChan]⟩ else sc.entry t' := by
  have hg : sc.getConsumerChannel t = none := by simpa [entry] using hn
  have hget : ∀ t', (sc.register t cs).1.getConsumerChannel t' =
      if t' = t then some sc.nextAddress else sc.getConsumerChannel t' := fun t' => by
    show (({ sc with nextChan := sc.nextChan + 1 }.alloc ⟨cs, [sc.nextChan]⟩).1.addTopicToConsumerChannelMap
      t sc.nextAddress).getConsumerChannel t' = _
    exact getConsumerChannel_addTopic hg _ t'
  have hheap : (sc.register t cs).1.heap =
      Function.update sc.heap sc.nextAddress ⟨cs, [sc.nextChan]⟩ := rfl
  have hlt : (sc.register t cs).1.nextAddress = sc.nextAddress + 1 := rfl
  refine ⟨⟨fun t' b hb => ?_, fun t₁ t₂ b h₁ h₂ => ?_⟩, fun t' => ?_⟩
  · rw [hget] at hb
    rw [hlt]
    split_ifs at hb
    · cases hb; exact Nat.lt_succ_self _
    · exact Nat.lt_succ_of_lt (hw.lt t' b hb)
  · rw [hget] at h₁ h₂
    split_ifs at h₁ h₂ with e₁ e₂ e₂
    · rw [e₁, e₂]
    · cases h₁; exact absurd (hw.lt t₂ _ h₂) (Nat.lt_irrefl _)
    · cases h₂; exact absurd (hw.lt t₁ _ h₁) (Nat.lt_irrefl _)
    · exact hw.inj t₁ t₂ b h₁ h₂
  · simp only [entry, hget, hheap]
    split_ifs
    · simp
    · cases hb : sc.getConsumerChannel t' with
      | none => rfl
      | some b => simp [Function.update_noteq (Nat.ne_of_lt (hw.lt t' b hb))]

/-! ## `addChannelToConsumerChannelMap` -/

theorem addChannel_fields (ch : Chan) :
    (sc.addChannelToConsumerChannelMap t ch).nextChan = sc.nextChan ∧
    (sc.addChannelToConsumerChannelMap t ch).nextHandle = sc.nextHandle ∧
    (sc.addChannelToConsumerChannelMap t ch).closedChannels = sc.closedChannels ∧
    (sc.addChannelToConsumerChannelMap t ch).closedConsumers = sc.closedConsumers := by
  unfold addChannelToConsumerChannelMap; split <;> exact ⟨rfl, rfl, rfl, rfl⟩

/-- `addChannelToConsumerChannelMap` appends to the entry of `t` alone, if there is one. -/
theorem addChannel_spec (hw : sc.Wf) (ch : Chan) :
    (sc.addChannelToConsumerChannelMap t ch).Wf ∧ ∀ t', (sc.addChannelToConsumerChannelMap t ch).entry t' =
      if t' = t then (sc.entry t).map (fun cc => { cc with channels := cc.channels ++ [ch] })
      else sc.entry t' := by
  unfold addChannelToConsumerChannelMap
  split
  · rename_i a ha
    refine ⟨hw.setChannels _, fun t' => ?_⟩
    rw [entry_setChannels hw ha]
    split_ifs with h <;> simp [entry, ha]
  · rename_i ha
    refine ⟨hw, fun t' => ?_⟩
    split_ifs with h <;> simp [entry, ha, h]

/-! ## Deleting a topic -/

theorem getConsumerChannel_eraseTopic (t' : String) :
    (sc.eraseTopic t).getConsumerChannel t' = if t' = t then none else sc.getConsumerChannel t' := by
  split_ifs with h
  · subst h; exact AList.lookup_erase _ _
  · exact AList.lookup_erase_ne h

theorem eraseTopic_nextAddress : (sc.eraseTopic t).nextAddress = sc.nextAddress := rfl
theorem eraseTopic_nextChan : (sc.eraseTopic t).nextChan = sc.nextChan := rfl
theorem eraseTopic_nextHandle : (sc.eraseTopic t).nextHandle = sc.nextHandle := rfl
theorem eraseTopic_groupConsumer : (sc.eraseTopic t).groupConsumer = sc.groupConsumer := rfl

theorem Wf.eraseTopic (hw : sc.Wf) : (sc.eraseTopic t).Wf := by
  refine ⟨fun t' b hb => ?_, fun t₁ t₂ b h₁ h₂ => ?_⟩
  · rw [getConsumerChannel_eraseTopic] at hb
    split_ifs at hb
    exact hw.lt t' b hb
  · rw [getConsumerChannel_eraseTopic] at h₁ h₂
    split_ifs at h₁ h₂
    exact hw.inj t₁ t₂ b h₁ h₂

theorem entry_eraseTopic (t' : String) :
    (sc.eraseTopic t).entry t' = if t' = t then none else sc.entry t' := by
  simp only [entry, getConsumerChannel_eraseTopic]
  split_ifs <;> rfl

/-! ## Closing channels -/

theorem closeChan_of_not_mem {c : Chan} (h : c ∉ sc.closedChannels) :
    sc.closeChan c = .ok { sc with closedChannels := sc.closedChannels ++ [c] } := by
  simp [closeChan, h]

theorem closeChan_of_mem {c : Chan} (h : c ∈ sc.closedChannels) :
    sc.closeChan c = .error ⟨.closeOfClosedChannel, sc⟩ := by
  simp [closeChan, h]

theorem closeChans_singleton (c : Chan) : sc.closeChans [c] = sc.closeChan c := by
  simp only [closeChans]
  cases sc.closeChan c <;> rfl

/-- `removeChannel` on the object at `a`, when the channel it closes, if any, is open. -/
theorem removeChannelAt_open {ch : Chan} (h : ch ∈ (sc.heap a).channels → ch ∉ sc.closedChannels) :
    sc.removeChannelAt a ch = .ok ({ sc.setChannels a (removeChannel (sc.heap a).channels ch).backing with
      closedChannels := sc.closedChannels ++ (removeChannel (sc.heap a).channels ch).closed },
      removeChannel (sc.heap a).channels ch) := by
  by_cases hin : ch ∈ (sc.heap a).channels
  · simp only [removeChannelAt, (removeChannel_mem hin).1, closeChans_singleton,
      @closeChan_of_not_mem (sc.setChannels a _) ch (h hin)]
    rfl
  · simp only [removeChannelAt, removeChannel_not_mem hin, List.append_nil]
    rfl

/-- `removeChannel` on the object at `a`, when the channel is in it and closed already. -/
theorem removeChannelAt_closed {ch : Chan} (hin : ch ∈ (sc.heap a).channels)
    (hc : ch ∈ sc.closedChannels) :
    sc.removeChannelAt a ch =
      .error ⟨.closeOfClosedChannel, sc.setChannels a (removeChannel (sc.heap a).channels ch).backing⟩ := by
  simp only [removeChannelAt, (removeChannel_mem hin).1, closeChans_singleton]
  rw [closeChan_of_mem (by exact hc)]
  rfl

/-- What a range loop over the object at `a` can have done, when it returns or when it
panics: permuted that object's slice and closed some of its channels. -/
def LoopFrame (sc : SaramaClient) (a : Nat) (sc' : SaramaClient) : Prop :=
  ∃ arr cl, arr.Perm (sc.heap a).channels ∧ (∀ c ∈ cl, c ∈ (sc.heap a).channels) ∧
    sc' = { sc.setChannels a arr with closedChannels := sc.closedChannels ++ cl }

theorem LoopFrame.refl (sc : SaramaClient) (a : Nat) : LoopFrame sc a sc :=
  ⟨_, [], List.Perm.refl _, fun _ h => absurd h (List.not_mem_nil _), by
    rw [List.append_nil, setChannels_self]⟩

theorem LoopFrame.trans {s₁ s₂ : SaramaClient} (h₁ : LoopFrame sc a s₁) (h₂ : LoopFrame s₁ a s₂) :
    LoopFrame sc a s₂ := by
  obtain ⟨arr₁, cl₁, hp₁, hc₁, rfl⟩ := h₁
  obtain ⟨arr₂, cl₂, hp₂, hc₂, rfl⟩ := h₂
  have hh : (({ sc.setChannels a arr₁ with closedChannels := sc.closedChannels ++ cl₁ } :
      SaramaClient).heap a).channels = arr₁ := setChannels_heap_self _
  rw [hh] at hp₂ hc₂
  refine ⟨arr₂, cl₁ ++ cl₂, hp₂.trans hp₁, fun c hc => ?_, ?_⟩
  · rcases List.mem_append.mp hc with hc | hc
    exacts [hc₁ c hc, hp₁.subset (hc₂ c hc)]
  · rw [setChannels_closedChannels_update, setChannels_setChannels, List.append_assoc]

/-- Whether it returns or panics, one `removeChannel` permutes the object's slice and closes at
most one of its channels. -/
theorem removeChannelAt_frame (ch : Chan) :
    LoopFrame sc a (Crash.after ((sc.removeChannelAt a ch).map Prod.fst)) := by
  have hperm := removeChannel_backing_perm (sc.heap a).channels ch
  by_cases hc : ch ∈ (sc.heap a).channels ∧ ch ∈ sc.closedChannels
  · rw [removeChannelAt_closed hc.1 hc.2]
    exact ⟨_, [], hperm, fun _ h => absurd h (List.not_mem_nil _), by rw [List.append_nil]; rfl⟩
  · rw [removeChannelAt_open fun hin hcl => hc ⟨hin, hcl⟩]
    exact ⟨_, _, hperm, fun _ h => removeChannel_closed_mem h, rfl⟩

theorem clearChannels_frame : ∀ (sc : SaramaClient) (is : List Nat),
    LoopFrame sc a (Crash.after (clearChannels a sc is))
  | sc, [] => LoopFrame.refl sc a
  | sc, i :: is => by
    have h₁ : LoopFrame sc a (Crash.after ((sc.removeChannelAt a ((sc.heap a).channels.getD i 0)).map
        Prod.fst)) := removeChannelAt_frame _
    simp only [clearChannels]
    cases ho : sc.removeChannelAt a ((sc.heap a).channels.getD i 0) with
    | error c => rw [ho] at h₁; exact h₁
    | ok o =>
        rw [ho] at h₁
        exact h₁.trans (clearChannels_frame o.1 is)

/-! ## The teardowns -/

section Teardown

variable (close : Consumer → Option GoError)

/-- The body of a teardown returns when its range loop does, and then closes the object's
consumers. -/
theorem clearEntry_ok {r : SaramaClient × Option GoError} (h : sc.clearEntry close a = .ok r) :
    ∃ sc', clearChannels a sc (List.range (sc.heap a).channels.length) = .ok sc' ∧
      r = ({ sc' with closedConsumers := sc.closedConsumers ++ (sc.heap a).consumers },
        (closeConsumers close (sc.heap a).consumers).2) := by
  obtain ⟨sc', hc, rfl⟩ := exists_of_map_eq_ok h
  exact ⟨sc', hc, by simp only [closeConsumers_calls]⟩

/-- It panics when its range loop does, in the state the loop panicked in. -/
theorem clearEntry_error {c : Crash} (h : sc.clearEntry close a = .error c) :
    clearChannels a sc (List.range (sc.heap a).channels.length) = .error c :=
  exists_of_map_eq_error h

/-- A property that every turn of the loop of `clearConsumerChannelMap` keeps, when the turn
returns, holds when the loop returns. `Q` also reads the entries the loop has still to visit. -/
theorem foldlM_clearMapEntry_ok {Q : SaramaClient → List (Σ _ : String, Nat) → Prop}
    (step : ∀ acc e es r, Q acc.1 (e :: es) → clearMapEntry close acc e = .ok r → Q r.1 es) :
    ∀ (es : List (Σ _ : String, Nat)) (acc r : SaramaClient × Option GoError), Q acc.1 es →
      es.foldlM (clearMapEntry close) acc = .ok r → Q r.1 []
  | [], acc, r, hq, h => by cases h; exact hq
  | e :: es, acc, r, hq, h => by
    rw [List.foldlM_cons] at h
    obtain ⟨r₁, h₁, h₂⟩ := exists_of_bind_eq_ok h
    exact foldlM_clearMapEntry_ok step es r₁ r (step acc e es r₁ hq h₁) h₂

/-- When a turn panics, the state at the panic is one where the loop's property held before
the turn. -/
theorem foldlM_clearMapEntry_error {Q : SaramaClient → List (Σ _ : String, Nat) → Prop}
    {R : SaramaClient → Prop}
    (step : ∀ acc e es r, Q acc.1 (e :: es) → clearMapEntry close acc e = .ok r → Q r.1 es)
    (crash : ∀ acc e es c, Q acc.1 (e :: es) → clearMapEntry close acc e = .error c → R c.client) :
    ∀ (es : List (Σ _ : String, Nat)) (acc : SaramaClient × Option GoError) (c : Crash), Q acc.1 es →
      es.foldlM (clearMapEntry close) acc = .error c → R c.client
  | [], _, _, _, h => by cases h
  | e :: es, acc, c, hq, h => by
    rw [List.foldlM_cons] at h
    rcases exists_of_bind_eq_error h with h₁ | ⟨r₁, h₁, h₂⟩
    · exact crash acc e es c hq h₁
    · exact foldlM_clearMapEntry_error step crash es r₁ c (step acc e es r₁ hq h₁) h₂

/-- When the body of a teardown returns, it has permuted its object's slice, closed some of
that object's channels, and closed the object's consumers. -/
theorem clearEntry_frame {r : SaramaClient × Option GoError} (h : sc.clearEntry close a = .ok r) :
    ∃ sc', LoopFrame sc a sc' ∧
      r.1 = { sc' with closedConsumers := sc.closedConsumers ++ (sc.heap a).consumers } := by
  obtain ⟨sc', hc, rfl⟩ := clearEntry_ok close h
  have hf := clearChannels_frame (a := a) sc (List.range (sc.heap a).channels.length)
  rw [hc] at hf
  exact ⟨sc', hf, rfl⟩

theorem Wf.clearEntry (hw : sc.Wf) {r : SaramaClient × Option GoError}
    (h : sc.clearEntry close a = .ok r) : r.1.Wf := by
  obtain ⟨_, ⟨_, _, -, -, rfl⟩, hr⟩ := clearEntry_frame close h
  rw [hr]
  exact ⟨hw.lt, hw.inj⟩

theorem getConsumerChannel_clearEntry {r : SaramaClient × Option GoError}
    (h : sc.clearEntry close a = .ok r) (t : String) :
    r.1.getConsumerChannel t = sc.getConsumerChannel t := by
  obtain ⟨_, ⟨_, _, -, -, rfl⟩, hr⟩ := clearEntry_frame close h
  rw [hr]
  rfl

/-- What the loop of `clearConsumerChannelMap` keeps besides the property `P` it is run for:
the pointers are well formed, and the entries it has still to visit are registered under
distinct topics. -/
def MapLoop (P : SaramaClient → Prop) (sc : SaramaClient) (es : List (Σ _ : String, Nat)) :
    Prop :=
  P sc ∧ sc.Wf ∧ es.NodupKeys ∧ ∀ e ∈ es, sc.getConsumerChannel e.1 = some e.2

variable {P : SaramaClient → Prop}

theorem MapLoop.init (hp : P sc) (hw : sc.Wf) : MapLoop P sc sc.topicToConsumerChannelMap.entries :=
  ⟨hp, hw, sc.topicToConsumerChannelMap.nodupKeys, fun _ he => AList.mem_lookup_iff.mpr he⟩

/-- A turn that returns keeps the loop's invariant when the teardown of one registered entry
keeps `P`. -/
theorem MapLoop.next (step : ∀ sc t a r, P sc → sc.Wf → sc.getConsumerChannel t = some a →
      sc.clearEntry close a = .ok r → P (r.1.eraseTopic t))
    {acc r : SaramaClient × Option GoError} {e : Σ _ : String, Nat} {es : List (Σ _ : String, Nat)}
    (hq : MapLoop P acc.1 (e :: es)) (hr : clearMapEntry close acc e = .ok r) : MapLoop P r.1 es := by
  obtain ⟨hp, hw, hk, hm⟩ := hq
  obtain ⟨r₁, h₁, rfl⟩ := exists_of_map_eq_ok hr
  obtain ⟨he, hk⟩ := List.nodupKeys_cons.mp hk
  refine ⟨step _ _ _ _ hp hw (hm e (List.mem_cons_self _ _)) h₁, (hw.clearEntry close h₁).eraseTopic,
    hk, fun e' he' => ?_⟩
  have hne : e'.1 ≠ e.1 := fun heq => he (heq ▸ List.mem_keys_of_mem he')
  rw [getConsumerChannel_eraseTopic, if_neg hne, getConsumerChannel_clearEntry close h₁]
  exact hm e' (List.mem_cons_of_mem _ he')

/-- A property that the teardown of every registered entry keeps holds when
`clearConsumerChannelMap` returns. -/
theorem clearConsumerChannelMap_ok_of (step : ∀ sc t a r, P sc → sc.Wf →
      sc.getConsumerChannel t = some a → sc.clearEntry close a = .ok r → P (r.1.eraseTopic t))
    (hp : P sc) (hw : sc.Wf) {o : SaramaClient × Option GoError}
    (ho : sc.clearConsumerChannelMap close = .ok o) : P o.1 :=
  (foldlM_clearMapEntry_ok close (Q := MapLoop P) (fun _ _ _ _ hq hr => hq.next close step hr) _
    (sc, none) o (MapLoop.init hp hw) ho).1

/-- If besides a panicking range loop keeps it, it holds at the panic. -/
theorem clearConsumerChannelMap_error_of (step : ∀ sc t a r, P sc → sc.Wf →
      sc.getConsumerChannel t = some a → sc.clearEntry close a = .ok r → P (r.1.eraseTopic t))
    (crash : ∀ sc a sc', P sc → LoopFrame sc a sc' → P sc') (hp : P sc) (hw : sc.Wf) {c : Crash}
    (hc : sc.clearConsumerChannelMap close = .error c) : P c.client := by
  refine foldlM_clearMapEntry_error close (Q := MapLoop P) (fun _ _ _ _ hq hr => hq.next close step hr)
    (fun acc e _ c hq he => crash _ e.2 _ hq.1 ?_) _ (sc, none) c (MapLoop.init hp hw) hc
  have hf := clearChannels_frame (a := e.2) acc.1 (List.range (acc.1.heap e.2).channels.length)
  rwa [clearEntry_error close (exists_of_map_eq_error he)] at hf

/-- A property kept by the teardown of a registered entry, when it returns, is kept by
`DeleteTopic` when it returns. -/
theorem deleteTopic_ok_of (step : ∀ t a r, sc.getConsumerChannel t = some a →
      sc.clearEntry close a = .ok r → P (r.1.eraseTopic t))
    (hp : P sc) {reply : Option GoError} {t : String} {o : SaramaClient × Option GoError}
    (h : sc.deleteTopic reply close t = .ok o) : P o.1 := by
  unfold deleteTopic clearTopicFromConsumerChannelMap at h
  split at h
  · cases h; exact hp
  · cases h; exact hp
  · split at h
    · obtain ⟨r, hr, rfl⟩ := exists_of_map_eq_ok h
      exact step _ _ _ ‹_› hr
    · cases h; exact hp

/-- `DeleteTopic` panics only in its range loop. -/
theorem deleteTopic_error_frame {reply : Option GoError} {t : String} {c : Crash}
    (h : sc.deleteTopic reply close t = .error c) : ∃ a, LoopFrame sc a c.client := by
  unfold deleteTopic clearTopicFromConsumerChannelMap at h
  split at h
  · cases h
  · cases h
  · split at h
    · rename_i a _
      have hf := clearChannels_frame (a := a) sc (List.range (sc.heap a).channels.length)
      rw [clearEntry_error close (exists_of_map_eq_error h)] at hf
      exact ⟨a, hf⟩
    · cases h

/-- A property kept by the closes of `Stop` and by the teardown of every registered entry holds
when `Stop` returns. -/
theorem stopAfterSend_ok_of (step : ∀ sc t a r, P sc → sc.Wf →
      sc.getConsumerChannel t = some a → sc.clearEntry close a = .ok r → P (r.1.eraseTopic t))
    (hclose : ∀ hs l, l ⊆ sc.groupConsumer.toList →
      P { sc with closedHandles := hs, closedConsumers := sc.closedConsumers ++ l })
    (hw : sc.Wf) {handleReply : Handle → Option GoError} {o : SaramaClient × Option GoError}
    (h : sc.stopAfterSend handleReply close = .ok o) : P o.1 := by
  obtain ⟨s, hs, h⟩ := exists_of_bind_eq_ok h
  obtain ⟨_, rfl⟩ := closeHandles_ok _ hs
  exact clearConsumerChannelMap_ok_of close step (hclose _ _ (List.Subset.refl _)) ⟨hw.lt, hw.inj⟩ h

/-- If besides a panicking range loop keeps it, it holds when `Stop` panics. -/
theorem stopAfterSend_error_of (step : ∀ sc t a r, P sc → sc.Wf →
      sc.getConsumerChannel t = some a → sc.clearEntry close a = .ok r → P (r.1.eraseTopic t))
    (crash : ∀ sc a sc', P sc → LoopFrame sc a sc' → P sc')
    (hclose : ∀ hs l, l ⊆ sc.groupConsumer.toList →
      P { sc with closedHandles := hs, closedConsumers := sc.closedConsumers ++ l })
    (hw : sc.Wf) {handleReply : Handle → Option GoError} {c : Crash}
    (h : sc.stopAfterSend handleReply close = .error c) : P c.client := by
  rcases exists_of_bind_eq_error h with h | ⟨s, hs, h⟩
  · obtain ⟨_, _, hl, hc⟩ := closeHandles_error _ h
    rw [hc]
    exact hclose _ _ hl
  · obtain ⟨_, rfl⟩ := closeHandles_ok _ hs
    exact clearConsumerChannelMap_error_of close step crash (hclose _ _ (List.Subset.refl _))
      ⟨hw.lt, hw.inj⟩ h

end Teardown

/-! ## `removeChannelFromConsumerChannelMap` -/

section RemoveChannelFrom

variable (close : Consumer → Option GoError) {ch : Chan}

/-- `removeChannelFromConsumerChannelMap` on a topic of the map, when the channel it removes,
if the entry holds it, is open. -/
theorem removeChannelFrom_ok (ha : sc.getConsumerChannel t = some a)
    (hopen : ch ∈ (sc.heap a).channels → ch ∉ sc.closedChannels) :
    sc.removeChannelFromConsumerChannelMap close t ch =
      let r := removeChannel (sc.heap a).channels ch
      let sc' := { sc.setChannels a r.result with closedChannels := sc.closedChannels ++ r.closed }
      .ok (if r.result.length = 0 then
          let c := closeConsumers close (sc.heap a).consumers
          ({ sc' with closedConsumers := sc.closedConsumers ++ c.1 }.eraseTopic t, c.2)
        else (sc', none)) := by
  have hset : ({ sc.setChannels a (removeChannel (sc.heap a).channels ch).backing with
      closedChannels := sc.closedChannels ++ (removeChannel (sc.heap a).channels ch).closed } :
        SaramaClient).setChannels a (removeChannel (sc.heap a).channels ch).result =
      { sc.setChannels a (removeChannel (sc.heap a).channels ch).result with
        closedChannels := sc.closedChannels ++ (removeChannel (sc.heap a).channels ch).closed } := by
    rw [setChannels_closedChannels_update, setChannels_setChannels]
  simp only [removeChannelFromConsumerChannelMap, ha, removeChannelAt_open hopen, Except.map, hset]

/-- On a channel the entry holds and that is closed already, the `close` panics with the
swap done. -/
theorem removeChannelFrom_closed (ha : sc.getConsumerChannel t = some a)
    (hin : ch ∈ (sc.heap a).channels) (hc : ch ∈ sc.closedChannels) :
    sc.removeChannelFromConsumerChannelMap close t ch =
      .error ⟨.closeOfClosedChannel, sc.setChannels a (removeChannel (sc.heap a).channels ch).backing⟩ := by
  simp only [removeChannelFromConsumerChannelMap, ha, removeChannelAt_closed hin hc]
  rfl

/-- When it returns on a topic of the map, the channel it removed, if the entry held it, was
open. -/
theorem removeChannelFrom_open (ha : sc.getConsumerChannel t = some a)
    {o : SaramaClient × Option GoError} (ho : sc.removeChannelFromConsumerChannelMap close t ch = .ok o) :
    ch ∈ (sc.heap a).channels → ch ∉ sc.closedChannels := fun hin hc => by
  rw [removeChannelFrom_closed close ha hin hc] at ho
  cases ho

/-- `removeChannelFromConsumerChannelMap` on a topic with an entry, when it returns:
`removeChannel` on its channels, and with none left, `closeConsumers` and the deletion of the
entry. -/
theorem removeChannelFrom_spec (hw : sc.Wf) {cc : ConsumerChannels} (he : sc.entry t = some cc)
    {o : SaramaClient × Option GoError} (ho : sc.removeChannelFromConsumerChannelMap close t ch = .ok o) :
    o.1.Wf ∧ o.1.closedChannels = sc.closedChannels ++ (removeChannel cc.channels ch).closed ∧
    o.1.nextChan = sc.nextChan ∧ o.1.nextHandle = sc.nextHandle ∧
    (∀ t', t' ≠ t → o.1.entry t' = sc.entry t') ∧
    ((removeChannel cc.channels ch).result = [] →
      o.1.entry t = none ∧ o.1.closedConsumers = sc.closedConsumers ++ cc.consumers ∧
      o.2 = (closeConsumers close cc.consumers).2) ∧
    ((removeChannel cc.channels ch).result ≠ [] →
      o.1.entry t = some { cc with channels := (removeChannel cc.channels ch).result } ∧
      o.1.closedConsumers = sc.closedConsumers ∧ o.2 = none) := by
  obtain ⟨a, ha, rfl⟩ := entry_eq_some.mp he
  rw [removeChannelFrom_ok close ha (removeChannelFrom_open close ha ho)] at ho
  cases ho
  have hset := entry_setChannels hw ha (removeChannel (sc.heap a).channels ch).result
  simp only [List.length_eq_zero]
  split_ifs with h0
  · refine ⟨Wf.eraseTopic ⟨hw.lt, hw.inj⟩, rfl, rfl, rfl, fun t' ht' => ?_, fun _ => ?_,
      fun h => absurd h0 h⟩
    · rw [entry_eraseTopic, if_neg ht']
      exact (hset t').trans (if_neg ht')
    · refine ⟨?_, by simp [eraseTopic], rfl⟩
      rw [entry_eraseTopic, if_pos rfl]
  · refine ⟨⟨hw.lt, hw.inj⟩, rfl, rfl, rfl, fun t' ht' => ?_, fun h => absurd h h0, fun _ => ?_⟩
    · exact (hset t').trans (if_neg ht')
    · exact ⟨(hset t).trans (if_pos rfl), rfl, rfl⟩

/-- It panics only in the `close` of `removeChannel`. -/
theorem removeChannelFrom_error_frame {c : Crash}
    (h : sc.removeChannelFromConsumerChannelMap close t ch = .error c) : ∃ a, LoopFrame sc a c.client := by
  unfold removeChannelFromConsumerChannelMap at h
  split at h
  · rename_i a _
    have hf := @removeChannelAt_frame sc a ch
    rw [exists_of_map_eq_error h] at hf
    exact ⟨a, hf⟩
  · cases h

/-- It returns when the channel it removes, if the entry holds it, is open. -/
theorem removeChannelFrom_returns {cc : ConsumerChannels} (he : sc.entry t = some cc)
    (hopen : ch ∈ cc.channels → ch ∉ sc.closedChannels) :
    ∃ o, sc.removeChannelFromConsumerChannelMap close t ch = .ok o := by
  obtain ⟨a, ha, rfl⟩ := entry_eq_some.mp he
  exact ⟨_, removeChannelFrom_ok close ha hopen⟩

end RemoveChannelFrom

/-- `removeChannelFromConsumerChannelMap` on a topic with no entry changes nothing. -/
theorem removeChannelFrom_none (he : sc.entry t = none) (close : Consumer → Option GoError)
    (ch : Chan) :
    sc.removeChannelFromConsumerChannelMap close t ch = .ok (sc, some (.msg "topic-does-not-exist")) := by
  have hg : sc.getConsumerChannel t = none := by simpa [entry] using he
  simp [removeChannelFromConsumerChannelMap, hg]

end SaramaClient

end Voltha.Kafka
