import Voltha.Kafka.Goroutines
import Voltha.Kafka.Objects

/-!
# Consumption loops and dispatch

`consumeFromAPartition` and `consumeGroupMessages` run a `select` over the consumer's
streams and the shutdown channel. Fed any sequence of outcomes, a loop takes them up to the
first nil message or shutdown signal, spawns one `dispatchToConsumers` per message that
decodes, in arrival order, and the group loop marks each such message's offset in the same
step (`loop_run`). A dispatch spawns one send per channel its object holds when it takes the
registry lock, and in every state the machine reaches an object holds each channel once
(`Reachable.channelsWf`).
-/

namespace Voltha.Kafka

open SaramaClient

namespace Event

/-- The `select` outcomes that end a loop: a nil message and the shutdown signal. -/
def ends : Event → Bool
  | .message none | .done => true
  | _ => false

/-- The message an event delivers, if it decodes. -/
def decoded : Event → Option Msg
  | .message (some (some msg)) => some msg
  | _ => none

/-- The event is a case of the loop's `select`; only the group loop reads notifications. -/
def offeredTo (group : Bool) : Event → Bool
  | .run => false
  | .notification => group
  | _ => true

end Event

/-- The events a loop takes from `evs`, up to and including the first one that ends it: the
`return` of a nil message and of the shutdown case. -/
def taken : List Event → List Event
  | [] => []
  | ev :: evs => if ev.ends then [ev] else ev :: taken evs

/-- The messages a loop dispatches from `evs`: those among the events it takes that decode, in
arrival order. -/
def dispatched (evs : List Event) : List Msg := (taken evs).filterMap Event.decoded

example : dispatched [.error, .message (some (some 5)), .notification, .message (some none),
    .message (some (some 6)), .message none, .message (some (some 7))] = [5, 6] := rfl

/-- The loop a goroutine runs: whether it is `consumeGroupMessages`, and its object. -/
def Thread.loopOf : Thread → Option (Bool × Nat)
  | .consumeFromAPartition _ _ a => some (false, a)
  | .consumeGroupMessages _ _ a => some (true, a)
  | _ => none

namespace Machine

/-- The machine after loop `i` on object `a`, the group loop if `group`, has taken `evs` with
no other goroutine in between: one dispatch spawned per decoded message, each marked by the
group loop, the loop exited if an event ended it, and a value of `doneCh` received if that
event was the shutdown case. -/
def afterLoop (m : Machine) (i : Nat) (group : Bool) (a : Nat) (evs : List Event) : Machine :=
  let shut := (taken evs).contains .done
  { m with
    client := if shut then { m.client with doneCh := m.client.doneCh - 1 } else m.client
    threads := (if (taken evs).any Event.ends then m.threads.set i .exited else m.threads) ++
      (dispatched evs).map (.dispatchToConsumers a)
    marked := if group then m.marked ++ dispatched evs else m.marked
    doneReceived := if shut then m.doneReceived + 1 else m.doneReceived }

variable (m : Machine) (i : Nat)

/-! ## A loop fed a sequence of events -/

theorem step_of_loopOf {t : Thread} {group : Bool} {a : Nat} (ht : m.threads[i]? = some t)
    (hl : t.loopOf = some (group, a)) (hp : m.panic = none) (ev : Event) :
    m.step i ev = m.loopStep i group a ev := by
  unfold step
  rw [hp, ht]
  cases t <;> cases hl <;> rfl

/-- A turn of a loop on an event that does not end it: one dispatch spawned for a message
that decodes, and its offset marked by the group loop. -/
theorem loopStep_continue {group : Bool} (a : Nat) {ev : Event}
    (hoff : ev.offeredTo group = true) (hne : ev.ends = false) :
    m.loopStep i group a ev = some { m with
      threads := m.threads ++ ev.decoded.toList.map (.dispatchToConsumers a)
      marked := if group then m.marked ++ ev.decoded.toList else m.marked } := by
  cases ev with
  | run => cases hoff
  | error => cases m; simp [loopStep, Event.decoded]
  | message o =>
    rcases o with _ | _ | msg
    · cases hne
    · cases m; simp [loopStep, Event.decoded]
    · simp [loopStep, spawn, Event.decoded]
  | notification =>
    cases group
    · cases hoff
    · cases m; simp [loopStep, Event.decoded]
  | done => cases hne

theorem dispatched_cons {ev : Event} (hne : ev.ends = false) (evs : List Event) :
    dispatched (ev :: evs) = ev.decoded.toList ++ dispatched evs := by
  simp only [dispatched, taken, hne, if_false, Bool.false_eq_true, List.filterMap_cons]
  cases ev.decoded <;> rfl

theorem afterLoop_nil {group : Bool} {a : Nat} : m.afterLoop i group a [] = m := by
  cases m; simp [afterLoop, taken, dispatched]

theorem run_cons (ev : Event) (l : List (Nat × Event)) :
    m.run ((i, ev) :: l) = (m.step i ev).bind (·.run l) := rfl

/-- Fed `evs`, a loop takes them up to the first nil message or shutdown signal and ends in
`afterLoop`, whatever the events and the decode outcomes, provided the shutdown signal it
takes is there to be received. -/
theorem loop_run {t : Thread} {group : Bool} {a : Nat} (evs : List Event)
    (ht : m.threads[i]? = some t) (hl : t.loopOf = some (group, a)) (hp : m.panic = none)
    (hoff : ∀ ev ∈ evs, ev.offeredTo group = true)
    (hdone : Event.done ∈ taken evs → 0 < m.client.doneCh) :
    m.run ((taken evs).map (i, ·)) = some (m.afterLoop i group a evs) := by
  induction evs generalizing m with
  | nil => rw [afterLoop_nil]; rfl
  | cons ev evs ih =>
    have hi : i < m.threads.length := (List.getElem?_eq_some_iff.mp ht).1
    cases hend : ev.ends
    · have htk : taken (ev :: evs) = ev :: taken evs := by simp [taken, hend]
      let m₁ : Machine := { m with
        threads := m.threads ++ ev.decoded.toList.map (.dispatchToConsumers a)
        marked := if group then m.marked ++ ev.decoded.toList else m.marked }
      have hstep : m.step i ev = some m₁ := (m.step_of_loopOf i ht hl hp ev).trans
        (m.loopStep_continue i a (hoff ev (List.mem_cons_self _ _)) hend)
      have ht₁ : m₁.threads[i]? = some t := by
        show (m.threads ++ _)[i]? = some t
        rw [List.getElem?_append_left hi]; exact ht
      rw [htk, List.map_cons, run_cons, hstep, Option.some_bind,
        ih m₁ ht₁ hp (fun e he => hoff e (List.mem_cons_of_mem _ he))
          (fun hd => hdone (htk ▸ List.mem_cons_of_mem _ hd))]
      have hnd : (Event.done == ev) = false := by
        rw [beq_eq_false_iff_ne]; rintro rfl; cases hend
      simp only [m₁, afterLoop, htk, dispatched_cons hend, List.contains_cons, List.any_cons, hend,
        hnd, Bool.false_or, List.map_append]
      by_cases hc : (taken evs).any Event.ends <;> cases group <;>
        simp [hc, List.set_append_left _ _ hi]
    · have htk : taken (ev :: evs) = [ev] := by simp [taken, hend]
      rw [htk, List.map_cons, List.map_nil, run_cons, m.step_of_loopOf i ht hl hp]
      cases ev with
      | message o =>
        rcases o with _ | _ | _
        · cases m
          simp [loopStep, afterLoop, htk, dispatched, Machine.run, setThread, Event.ends,
            Event.decoded]
        all_goals cases hend
      | done =>
        have hd : 0 < m.client.doneCh := hdone (htk ▸ List.mem_singleton_self _)
        cases m
        simp [loopStep, afterLoop, htk, dispatched, Machine.run, setThread, Event.ends,
          Event.decoded, SaramaClient.receiveDone, hd]
      | _ => cases hend

/-- A loop that took an event ending it has exited and takes no event after it. -/
theorem afterLoop_exited {group : Bool} {a : Nat} {evs : List Event}
    (hi : i < m.threads.length) (hend : (taken evs).any Event.ends = true) (ev : Event) :
    (m.afterLoop i group a evs).step i ev = none := by
  have ht : (m.afterLoop i group a evs).threads[i]? = some .exited := by
    simp only [afterLoop, hend, if_true]
    rw [List.getElem?_append_left (by simpa using hi), List.getElem?_set_self hi]
  unfold step
  split
  · rfl
  · rw [ht]

/-! ## A dispatch and its sends -/

/-- `dispatchToConsumers` takes the lock and spawns one send per channel its object holds at
that moment, in the object's order. -/
theorem step_dispatch {a : Nat} {msg : Msg} (ht : m.threads[i]? = some (.dispatchToConsumers a msg))
    (hp : m.panic = none) :
    m.step i .run =
      some ((m.setThread i .exited).spawn ((m.client.heap a).channels.map (Thread.send · msg))) := by
  simp [step, hp, ht, dispatchToConsumers]

/-- A send goroutine on an open channel delivers its message once and exits. -/
theorem step_send_open {ch : Chan} {msg : Msg} (ht : m.threads[i]? = some (.send ch msg))
    (hp : m.panic = none) (hopen : ch ∉ m.client.closedChannels) :
    ∃ m', m.step i .run = some m' ∧ m'.delivered = m.delivered ++ [(ch, msg)] ∧
      m'.threads[i]? = some .exited := by
  have hi : i < m.threads.length := (List.getElem?_eq_some_iff.mp ht).1
  refine ⟨m.send i ch msg, by simp [step, hp, ht], ?_, ?_⟩ <;>
    simp [send, hopen, setThread, List.getElem?_set_self hi]

/-! ## Every object holds each channel once, over every schedule -/

theorem channelsWf_callerStep (h : m.client.ChannelsWf) {pc : CallerPc} {cs : List ApiCall}
    {rs : List CallResult} {m' : Machine} (hs : m.callerStep i pc cs rs = some m')
    (hp : m'.panic = none) : m'.client.ChannelsWf := by
  unfold callerStep at hs
  split at hs
  · cases hs
  · cases hs; exact h
  · cases hs
    obtain ⟨r, hr, hc⟩ := m.complete_ok i hp
    rw [hc]; exact h.unSubscribe hr
  · cases hs
    obtain ⟨r, hr, hc⟩ := m.complete_ok i hp
    rw [hc]; exact h.deleteTopic hr
  · obtain ⟨sc, hsc, rfl⟩ := Option.map_eq_some'.mp hs
    obtain ⟨-, rfl⟩ := sendDone_eq_some _ hsc
    exact h.of_eq rfl (Nat.le_refl _)
  · cases hs; simpa using h.subscribeReuse _
  · cases hs
    split <;> simpa using h.subscribeNew _ _
  · cases hs
    obtain ⟨r, hr, hc⟩ := m.complete_ok i hp
    rw [hc]; exact h.stopAfterSend hr

theorem channelsWf_loopStep (h : m.client.ChannelsWf) {group : Bool} {a : Nat} {ev : Event}
    {m' : Machine} (hs : m.loopStep i group a ev = some m') : m'.client.ChannelsWf := by
  unfold loopStep at hs
  split at hs
  any_goals (cases hs; exact h)
  · split at hs <;> cases hs
    exact h
  · obtain ⟨sc, hsc, rfl⟩ := Option.map_eq_some'.mp hs
    unfold receiveDone at hsc
    split at hsc <;> cases hsc
    exact h.of_eq rfl (Nat.le_refl _)
  · cases hs

theorem channelsWf_step (h : m.client.ChannelsWf) {ev : Event} {m' : Machine}
    (hs : m.step i ev = some m') (hp : m'.panic = none) : m'.client.ChannelsWf := by
  unfold step at hs
  split at hs
  · cases hs
  · split at hs
    · exact m.channelsWf_callerStep i h hs hp
    · cases hs
      unfold startConsumers
      split <;> exact h
    · exact m.channelsWf_loopStep i h hs
    · exact m.channelsWf_loopStep i h hs
    · cases hs; exact h
    · cases hs
      unfold send
      split <;> exact h
    · cases hs

end Machine

/-- Over every schedule from a client that keeps the invariant, until a goroutine panics,
every object holds each of its channels once. -/
theorem Reachable.channelsWf {m₀ m : Machine} (h : Reachable m₀ m) (h₀ : m₀.client.ChannelsWf)
    (hp : m.panic = none) : m.client.ChannelsWf := by
  induction h with
  | init => exact h₀
  | step _ hs ih => exact Machine.channelsWf_step _ _ (ih (Machine.panic_of_step _ _ hs)) hs hp

/-- The consumption loops and the dispatch. Fed any sequence of `select` outcomes, each loop
takes them up to the first nil message or shutdown signal and then refuses every event; it
spawns one `dispatchToConsumers` per message that decodes, in arrival order and for no other
message, and the group loop marks exactly those offsets, each in the step that spawns its
dispatch. In every state reached from `Start` under any schedule, a dispatch spawns one send
per channel of its object as it holds them when it takes the lock, each channel once, and a
send on an open channel delivers the envelope once. -/
theorem consumption_dispatches_in_order :
    (∀ (m : Machine) (i : Nat) (t : Thread) (group : Bool) (a : Nat) (evs : List Event),
      m.threads[i]? = some t → t.loopOf = some (group, a) → m.panic = none →
      (∀ ev ∈ evs, ev.offeredTo group = true) → (Event.done ∈ taken evs → 0 < m.client.doneCh) →
      m.run ((taken evs).map (i, ·)) = some (m.afterLoop i group a evs) ∧
      ((taken evs).any Event.ends = true → ∀ ev, (m.afterLoop i group a evs).step i ev = none)) ∧
    (∀ (consumerType : Int) (autoCreateTopic : Bool) (numPartitions numReplicas : Int)
      (callers : List (List ApiCall)) (m : Machine) (i a : Nat) (msg : Msg),
      Reachable (Machine.init (started consumerType autoCreateTopic numPartitions numReplicas)
        callers) m →
      m.threads[i]? = some (.dispatchToConsumers a msg) → m.panic = none →
      m.step i .run =
        some ((m.setThread i .exited).spawn ((m.client.heap a).channels.map (Thread.send · msg))) ∧
      (m.client.heap a).channels.Nodup) ∧
    (∀ (m : Machine) (j : Nat) (ch : Chan) (msg : Msg),
      m.threads[j]? = some (.send ch msg) → m.panic = none → ch ∉ m.client.closedChannels →
      ∃ m', m.step j .run = some m' ∧ m'.delivered = m.delivered ++ [(ch, msg)] ∧
        m'.threads[j]? = some .exited) :=
  ⟨fun m i _ _ _ evs ht hl hp hoff hdone =>
    ⟨m.loop_run i evs ht hl hp hoff hdone,
      m.afterLoop_exited i (List.getElem?_eq_some_iff.mp ht).1⟩,
    fun ct ac np nr _ m i a _ hr ht hp =>
      ⟨m.step_dispatch i ht hp, (hr.channelsWf (ChannelsWf.started ct ac np nr) hp a).1⟩,
    fun m j _ _ ht hp hopen => m.step_send_open j ht hp hopen⟩

/-- A caller subscribes to a topic of one partition, and `startConsumers` starts its loop as
goroutine `2`. Fed an error, a message that decodes to `5` and a nil message, the loop spawns
one dispatch, for `5`, and exits. -/
theorem consumption_dispatches_after_subscribe :
    let m₀ : Machine := Machine.init (.started PartitionConsumer false 1 1)
      [[.subscribe "t" ⟨fun _ _ => none, .ok [0], fun _ => none, none⟩]]
    let m : Machine := (m₀.run [(0, .run), (0, .run), (1, .run)]).getD m₀
    let evs : List Event := [.error, .message (some (some 5)), .message none]
    m.run ((taken evs).map (2, ·)) = some (m.afterLoop 2 false 0 evs) ∧
      ∀ ev, (m.afterLoop 2 false 0 evs).step 2 ev = none := by
  intro m₀ m evs
  exact (consumption_dispatches_in_order.1 m 2 (.consumeFromAPartition "t" (.partition 0) 0) false 0
    evs rfl rfl rfl (by decide) fun h => absurd h (by decide)).imp_right fun h => h rfl

end Voltha.Kafka
