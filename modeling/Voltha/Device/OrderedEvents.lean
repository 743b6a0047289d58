import Mathlib.Logic.Function.Basic

/-!
# Ordered change events

`orderedEvents` hands out queue positions under its mutex. A position waits on the `next`
channel of the position assigned before it, sends its change event to the manager, and then
closes its own `next`. Nothing is ever sent on these channels, so the wait ends exactly when
the channel before is closed.

A `Queue` holds every position assigned so far with the event its goroutine sends, where
each `queuePosition.send` goroutine is, the channels closed and the `SendChangeEvent` calls
made. Any number of callers may assign positions at any time (`orderedEvents.send`, or the
goroutine of `addNNILogicalPort`), and the goroutines interleave freely: a run is any
sequence of `Action`s. Channels are made only by `assignQueuePosition`, and `made` numbers
them. The main result, `Queue.Reachable.ordered`, holds in every reachable state: the
events reach the manager in the order their positions were assigned, each at most once, and
no channel is closed twice.
-/

namespace Voltha.Device

/-- A `queuePosition`: the channel to wait on (nil for the first position) and the channel
to close. -/
structure QueuePosition where
  prev : Option Nat
  next : Nat
  deriving DecidableEq, Repr

/-- `orderedEvents`: the channel of the last position handed out, and the number of channels
made. -/
structure OrderedEvents where
  last : Option Nat
  made : Nat
  deriving DecidableEq, Repr

/-- `assignQueuePosition`, under `e.mutex`. -/
def OrderedEvents.assignQueuePosition (e : OrderedEvents) : OrderedEvents × QueuePosition :=
  (⟨some e.made, e.made + 1⟩, ⟨e.last, e.made⟩)

/-- Where a `queuePosition.send` goroutine is. -/
inductive SendPc where
  /-- At `<-qp.prev`. -/
  | waiting
  /-- At `SendChangeEvent`. -/
  | ready
  /-- At `close(qp.next)`. -/
  | sent
  | done
  deriving DecidableEq, Repr

/-- `if qp.prev != nil { <-qp.prev }` can complete: there is no channel to wait on, or it is
closed. -/
def canPass (prev : Option Nat) (closed : List Nat) : Bool :=
  match prev with
  | none => true
  | some c => decide (c ∈ closed)

/-- The positions assigned, each with its event of type `α` and its goroutine, and what the
goroutines did: channels closed and events sent, in order. A send records the position's
`next` channel with its event. -/
structure Queue (α : Type) where
  events : OrderedEvents
  positions : List (QueuePosition × α)
  pc : Nat → SendPc
  closed : List Nat
  sent : List (Nat × α)
  panicked : Bool

/-- What happens next: a caller assigns a position to its event, or the goroutine of
position `k` runs one statement. -/
inductive Action (α : Type) where
  | assign (ev : α)
  | send (k : Nat)
  deriving DecidableEq, Repr

namespace Queue

variable {α : Type} (q : Queue α)

/-- A fresh `orderedEvents`: `last` is nil. -/
def init : Queue α := ⟨⟨none, 0⟩, [], fun _ => .waiting, [], [], false⟩

/-- `assignQueuePosition` for the event `ev`; the position's goroutine starts waiting. -/
def assign (ev : α) : Queue α :=
  let r := q.events.assignQueuePosition
  { q with
    events := r.1
    positions := q.positions ++ [(r.2, ev)]
    pc := Function.update q.pc q.positions.length .waiting }

@[simp] theorem positions_assign (ev : α) :
    (q.assign ev).positions = q.positions ++ [(q.events.assignQueuePosition.2, ev)] := rfl

/-- One statement of `queuePosition.send` on position `k`; `none` while it is blocked. A
`close` of a closed channel panics. -/
def sendStep (k : Nat) : Option (Queue α) :=
  match q.positions[k]? with
  | none => none
  | some (qp, ev) =>
    match q.pc k with
    | .waiting =>
        if canPass qp.prev q.closed then some { q with pc := Function.update q.pc k .ready }
        else none
    | .ready =>
        some { q with pc := Function.update q.pc k .sent, sent := q.sent ++ [(qp.next, ev)] }
    | .sent =>
        if qp.next ∈ q.closed then some { q with panicked := true }
        else some { q with pc := Function.update q.pc k .done, closed := q.closed ++ [qp.next] }
    | .done => none

theorem positions_sendStep {k : Nat} {q' : Queue α} (h : q.sendStep k = some q') :
    q'.positions = q.positions := by
  unfold sendStep at h
  split at h
  · cases h
  · split at h <;> (try split at h) <;> cases h <;> rfl

/-- One action; nothing runs after a panic. -/
def step : Action α → Option (Queue α)
  | .assign ev => if q.panicked then none else some (q.assign ev)
  | .send k => if q.panicked then none else q.sendStep k

/-- Run the actions of a schedule in order. -/
def run : Queue α → List (Action α) → Option (Queue α)
  | q, [] => some q
  | q, a :: rest => (q.step a).bind (run · rest)

/-- The states some schedule reaches from `init`. -/
inductive Reachable : Queue α → Prop where
  | init : Reachable init
  | step {q q' : Queue α} {a : Action α} : Reachable q → q.step a = some q' → Reachable q'

theorem Reachable.run {q q' : Queue α} :
    ∀ {l : List (Action α)}, Reachable q → q.run l = some q' → Reachable q'
  | [], h, hr => by cases hr; exact h
  | a :: rest, h, hr => by
    simp only [Queue.run] at hr
    cases hs : q.step a with
    | none => simp [hs] at hr
    | some q₁ => simp only [hs, Option.bind_some] at hr; exact (h.step hs).run hr

/-- The statement `sendStep` runs, by where the goroutine is. -/
theorem sendStep_cases {k : Nat} {q' : Queue α} (h : q.sendStep k = some q') :
    ∃ qp ev, q.positions[k]? = some (qp, ev) ∧
      (q.pc k = .waiting ∧ canPass qp.prev q.closed = true ∧
          q' = { q with pc := Function.update q.pc k .ready } ∨
        q.pc k = .ready ∧
          q' = { q with pc := Function.update q.pc k .sent, sent := q.sent ++ [(qp.next, ev)] } ∨
        q.pc k = .sent ∧ qp.next ∈ q.closed ∧ q' = { q with panicked := true } ∨
        q.pc k = .sent ∧ qp.next ∉ q.closed ∧
          q' = { q with pc := Function.update q.pc k .done, closed := q.closed ++ [qp.next] }) := by
  unfold sendStep at h
  split at h
  · cases h
  · rename_i qp ev hpos
    refine ⟨qp, ev, hpos, ?_⟩
    split at h
    · split at h <;> cases h
      exact .inl ⟨‹_›, ‹_›, rfl⟩
    · cases h; exact .inr (.inl ⟨‹_›, rfl⟩)
    · split at h <;> cases h
      · exact .inr (.inr (.inl ⟨‹_›, ‹_›, rfl⟩))
      · exact .inr (.inr (.inr ⟨‹_›, ‹_›, rfl⟩))
    · cases h

end Queue

/-- The channel the `k`-th position waits on: the `next` of the position before it. -/
def prevOf : Nat → Option Nat
  | 0 => none
  | k + 1 => some k

/-- The position assigned `k`-th. -/
def QueuePosition.nth (k : Nat) : QueuePosition := ⟨prevOf k, k⟩

/-- Where goroutine `k` can be once `s` events were sent and `c` channels closed: it has
not sent yet, it is the one whose turn it is, or it has closed its channel. -/
def SendPc.Ok (s c k : Nat) : SendPc → Prop
  | .waiting => s ≤ k
  | .ready => s = k ∧ c = k
  | .sent => s = k + 1 ∧ c = k
  | .done => k < c

theorem SendPc.Ok.send_succ {p : SendPc} {s c k : Nat} (h : p.Ok s c k) (hk : k ≠ s)
    (hsc : s = c) : p.Ok (s + 1) c k := by
  cases p <;> simp only [SendPc.Ok] at * <;> omega

theorem SendPc.Ok.close_succ {p : SendPc} {s c k : Nat} (h : p.Ok s c k) (hk : k ≠ c)
    (hsc : s = c + 1) : p.Ok s (c + 1) k := by
  cases p <;> simp only [SendPc.Ok] at * <;> omega

namespace Queue

variable {α : Type} {q q' : Queue α}

/-- What a position sends: its `next` channel, which names it, and its event. -/
def event (p : QueuePosition × α) : Nat × α := (p.1.next, p.2)

/-- The invariant of every reachable queue. With `s` events sent and `c` channels closed,
the sent events are those of the first `s` positions, the closed channels are those of the
first `c`, and `c ≤ s ≤ c + 1`: at most one goroutine is between its send and its close. -/
structure Inv (q : Queue α) : Prop where
  made : q.events.made = q.positions.length
  last : q.events.last = prevOf q.positions.length
  nth : q.positions.map Prod.fst = (List.range q.positions.length).map QueuePosition.nth
  sent : q.sent = (q.positions.map event).take q.sent.length
  closed : q.closed = List.range q.closed.length
  closed_le : q.closed.length ≤ q.sent.length
  sent_le : q.sent.length ≤ q.closed.length + 1
  sent_le_length : q.sent.length ≤ q.positions.length
  pc : ∀ k < q.positions.length, (q.pc k).Ok q.sent.length q.closed.length k
  ok : q.panicked = false

theorem inv_init : (init : Queue α).Inv where
  made := rfl
  last := rfl
  nth := rfl
  sent := rfl
  closed := rfl
  closed_le := Nat.le_refl _
  sent_le := Nat.zero_le _
  sent_le_length := Nat.le_refl _
  pc _ h := absurd h (Nat.not_lt_zero _)
  ok := rfl

theorem Inv.position (I : q.Inv) {k : Nat} {qp : QueuePosition} {ev : α}
    (h : q.positions[k]? = some (qp, ev)) : qp = .nth k ∧ k < q.positions.length := by
  obtain ⟨hk, -⟩ := List.getElem?_eq_some_iff.mp h
  have := congrArg (·[k]?) I.nth
  simp only [List.getElem?_map, h, List.getElem?_range hk, Option.map_some'] at this
  exact ⟨Option.some.inj this, hk⟩

theorem Inv.assign (I : q.Inv) (ev : α) : (q.assign ev).Inv where
  made := by simp [Queue.assign, OrderedEvents.assignQueuePosition, I.made]
  last := by simp [Queue.assign, OrderedEvents.assignQueuePosition, I.made, prevOf]
  nth := by
    simp [Queue.assign, OrderedEvents.assignQueuePosition, I.nth, List.range_succ,
      QueuePosition.nth, I.made, I.last]
  sent := by
    simp only [Queue.assign, List.map_append]
    rw [List.take_append_of_le_length (by simpa using I.sent_le_length)]
    exact I.sent
  closed := I.closed
  closed_le := I.closed_le
  sent_le := I.sent_le
  sent_le_length := by simp only [Queue.assign, List.length_append]; have := I.sent_le_length; omega
  pc k hk := by
    simp only [Queue.assign, List.length_append, List.length_singleton] at hk ⊢
    rcases Nat.lt_succ_iff_lt_or_eq.mp hk with hk | rfl
    · rw [Function.update_noteq (Nat.ne_of_lt hk)]; exact I.pc k hk
    · rw [Function.update_same]; exact I.sent_le_length
  ok := I.ok

/-- The wait of position `k` ends only once position `k - 1` has closed its channel, so
`k` is then both the number of events sent and of channels closed. -/
theorem Inv.pass (I : q.Inv) {k : Nat} {ev : α} (hpos : q.positions[k]? = some (.nth k, ev))
    (hpc : q.pc k = .waiting) (hpass : canPass (prevOf k) q.closed = true) :
    q.sent.length = k ∧ q.closed.length = k := by
  have hs := I.pc k (I.position hpos).2
  rw [hpc] at hs
  have hc := I.closed_le
  cases k with
  | zero => simp only [SendPc.Ok] at hs; omega
  | succ j =>
    have hj : j ∈ q.closed := by simpa [canPass, prevOf] using hpass
    rw [I.closed, List.mem_range] at hj
    simp only [SendPc.Ok] at hs; omega

theorem Inv.of_sendStep (I : q.Inv) {k : Nat} (h : q.sendStep k = some q') : q'.Inv := by
  obtain ⟨qp, ev, hpos, hcase⟩ := sendStep_cases q h
  obtain ⟨rfl, hk⟩ := I.position hpos
  have hok := I.pc k hk
  rcases hcase with ⟨hpc, hpass, rfl⟩ | ⟨hpc, rfl⟩ | ⟨hpc, hin, rfl⟩ | ⟨hpc, hout, rfl⟩
  · -- the wait ends
    obtain ⟨hs, hc⟩ := I.pass hpos hpc hpass
    refine { I with pc := fun k' hk' => ?_ }
    dsimp only at hk' ⊢
    rcases eq_or_ne k' k with rfl | hne
    · rw [Function.update_same]; exact ⟨hs, hc⟩
    · rw [Function.update_noteq hne]; exact I.pc k' hk'
  · -- `SendChangeEvent`
    rw [hpc] at hok
    obtain ⟨hs, hc⟩ := hok
    refine { I with sent := ?sent, pc := ?pc, closed_le := ?_, sent_le := ?_, sent_le_length := ?_ }
    case sent =>
      simp only [List.length_append, List.length_singleton]
      rw [List.take_succ, ← I.sent, List.getElem?_map, hs, hpos]
      rfl
    case pc =>
      intro k' hk'
      simp only [List.length_append, List.length_singleton]
      rcases eq_or_ne k' k with rfl | hne
      · rw [Function.update_same]; exact ⟨by omega, hc⟩
      · rw [Function.update_noteq hne]; exact (I.pc k' hk').send_succ (by omega) (by omega)
    all_goals (simp only [List.length_append, List.length_singleton]; omega)
  · -- `close` of a closed channel: never, the channel is the next to close
    rw [hpc] at hok
    rw [I.closed, List.mem_range] at hin
    exact absurd hok.2 (Nat.ne_of_gt hin)
  · -- `close(qp.next)`
    rw [hpc] at hok
    obtain ⟨hs, hc⟩ := hok
    refine { I with closed := ?closed, pc := ?pc, closed_le := ?_, sent_le := ?_ }
    case closed =>
      simp only [List.length_append, List.length_singleton]
      rw [List.range_succ, ← I.closed, hc]
      rfl
    case pc =>
      intro k' hk'
      simp only [List.length_append, List.length_singleton]
      rcases eq_or_ne k' k with rfl | hne
      · rw [Function.update_same]; show k' < q.closed.length + 1; omega
      · rw [Function.update_noteq hne]; exact (I.pc k' hk').close_succ (by omega) (by omega)
    all_goals (simp only [List.length_append, List.length_singleton]; omega)

theorem Inv.step (I : q.Inv) {a : Action α} (h : q.step a = some q') : q'.Inv := by
  cases a with
  | assign ev =>
    simp only [Queue.step, I.ok, Bool.false_eq_true, ↓reduceIte, Option.some.injEq] at h
    exact h ▸ I.assign ev
  | send k =>
    simp only [Queue.step, I.ok, Bool.false_eq_true, ↓reduceIte] at h
    exact I.of_sendStep h

theorem Reachable.inv (h : Reachable q) : q.Inv := by
  induction h with
  | init => exact inv_init
  | step _ hs ih => exact ih.step hs

theorem Reachable.run_getD (h : Reachable q) (l : List (Action α)) :
    Reachable ((q.run l).getD q) := by
  cases hr : q.run l with
  | none => exact h
  | some q' => exact h.run hr

/-- The `k`-th position closes channel `k`. -/
theorem Inv.next_eq_range (I : q.Inv) :
    q.positions.map (·.1.next) = List.range q.positions.length := by
  simpa [Function.comp_def, QueuePosition.nth] using congrArg (List.map QueuePosition.next) I.nth

theorem Inv.sent_fst (I : q.Inv) : q.sent.map Prod.fst = List.range q.sent.length := by
  have h := congrArg (List.map Prod.fst) I.sent
  rw [List.map_take, List.map_map] at h
  rw [h, show Prod.fst ∘ event = fun p : QueuePosition × α => p.1.next from rfl, I.next_eq_range,
    List.take_range, Nat.min_eq_left I.sent_le_length]

theorem Inv.sent_snd (I : q.Inv) :
    q.sent.map Prod.snd = (q.positions.map Prod.snd).take q.sent.length := by
  have h := congrArg (List.map Prod.snd) I.sent
  rwa [List.map_take, List.map_map] at h

/-- In every reachable state the `k`-th position assigned closes channel `k`, the events
sent so far are those of the first positions, in the order they were assigned and each
once, the channels closed are those of the first positions, each once, and no goroutine
panicked. -/
theorem Reachable.ordered (h : Reachable q) :
    q.positions.map (·.1.next) = List.range q.positions.length ∧
    q.sent.map Prod.fst = List.range q.sent.length ∧
    q.sent.map Prod.snd <+: q.positions.map Prod.snd ∧
    q.closed = List.range q.closed.length ∧ q.panicked = false :=
  have I := h.inv
  ⟨I.next_eq_range, I.sent_fst, I.sent_snd ▸ List.take_prefix _ _, I.closed, I.ok⟩

/-- Two events assigned positions; the second position's goroutine waits until the first has
closed its channel. -/
theorem ordered_two_positions :
    let q := ((init : Queue Nat).run [.assign 5, .assign 7, .send 0, .send 0, .send 0, .send 1,
      .send 1, .send 1]).getD init
    q.positions.map (·.1.next) = List.range q.positions.length ∧
    q.sent.map Prod.fst = List.range q.sent.length ∧
    q.sent.map Prod.snd <+: q.positions.map Prod.snd ∧
    q.closed = List.range q.closed.length ∧ q.panicked = false :=
  Reachable.ordered (Reachable.init.run_getD _)

/-- A goroutine has closed its channel exactly when its position is among the first
`closed.length`. -/
theorem Inv.done_iff (I : q.Inv) {k : Nat} (hk : k < q.positions.length) :
    q.pc k = .done ↔ k < q.closed.length := by
  have hok := I.pc k hk
  have := I.closed_le
  constructor
  · intro hd; rw [hd] at hok; exact hok
  · intro hlt
    cases hpc : q.pc k <;> rw [hpc] at hok <;> simp only [SendPc.Ok] at hok <;> first | rfl | omega

/-- No deadlock: while a position has not closed its channel, the goroutine of the first
such position can run. -/
theorem Inv.progress (I : q.Inv) (h : q.closed.length < q.positions.length) :
    (q.sendStep q.closed.length).isSome := by
  have hp := List.getElem?_eq_getElem h
  have hpos : q.positions[q.closed.length]? =
      some (.nth q.closed.length, (q.positions.get ⟨q.closed.length, h⟩).2) := by
    rw [hp, ← (I.position hp).1]; rfl
  have hok := I.pc _ h
  unfold Queue.sendStep
  rw [hpos]
  cases hpc : q.pc q.closed.length with
  | waiting =>
    have hpass : canPass (prevOf q.closed.length) q.closed = true := by
      cases hc : q.closed.length with
      | zero => rfl
      | succ j =>
        simp only [canPass, prevOf, decide_eq_true_eq]
        rw [I.closed, List.mem_range, hc]; omega
    simp [QueuePosition.nth, hpass]
  | ready => rfl
  | sent => simp only [QueuePosition.nth]; split <;> rfl
  | done => rw [hpc] at hok; exact absurd hok (Nat.lt_irrefl _)

/-- Two positions assigned and the first past its wait: the first position's goroutine runs. -/
theorem progress_after_first_wait :
    let q := ((init : Queue Nat).run [.assign 5, .assign 7, .send 0]).getD init
    (q.sendStep q.closed.length).isSome :=
  Inv.progress (Reachable.init.run_getD _).inv (by decide)

/-- Once every goroutine has closed its channel, every assigned event has been sent, in the
order of assignment. -/
theorem Inv.sent_of_all_done (I : q.Inv) (h : ∀ k < q.positions.length, q.pc k = .done) :
    q.sent.map Prod.snd = q.positions.map Prod.snd := by
  have hn : q.positions.length ≤ q.sent.length := by
    rcases Nat.eq_zero_or_pos q.positions.length with h0 | hpos
    · omega
    · have := (I.done_iff (Nat.sub_lt hpos Nat.one_pos)).mp (h _ (Nat.sub_lt hpos Nat.one_pos))
      have := I.closed_le
      omega
  rw [I.sent_snd, List.take_of_length_le (by simpa using hn)]

end Queue

end Voltha.Device
