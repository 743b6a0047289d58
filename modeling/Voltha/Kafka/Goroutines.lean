import Voltha.Kafka.Calls

/-!
# The client's goroutines

The client runs its work on many goroutines at once: callers of the API, the
`startConsumers` goroutine each new subscription starts, one consumption loop per
broker-level consumer, a `dispatchToConsumers` goroutine per decoded message and a send
goroutine per subscriber channel. A `Machine` holds them all, and `step` runs one statement
of one of them. Each step is one critical section or one channel operation, so every run
of the machine is a schedule the Go code can take.

A step's `Event` carries what the environment chooses: which `select` case a loop takes and
what it receives. A loop may take the `doneCh` case only while a value is buffered, and a
send completes when the subscriber takes the value, or panics if the channel is closed.
A `close` of a closed channel panics as well. After a panic no goroutine runs.
-/

namespace Voltha.Kafka

/-- A decoded `InterContainerMessage`, by identity. -/
abbrev Msg := Nat

/-- A call a caller goroutine makes, with what the broker answers during it. -/
inductive ApiCall where
  | subscribe (topic : String) (r : Replies)
  | unSubscribe (topic : String) (ch : Chan) (close : Consumer → Option GoError)
  | deleteTopic (topic : String) (reply : Option GoError) (close : Consumer → Option GoError)
  | stop (handleReply : Handle → Option GoError) (close : Consumer → Option GoError)

/-- What a completed call returned. -/
inductive CallResult where
  | subscribed (r : Except GoError Chan)
  | unSubscribed (err : Option GoError)
  | deleted (err : Option GoError)
  | stopped

/-- Where a caller is inside a call. -/
inductive CallerPc where
  | idle
  /-- In `Subscribe` after `getConsumerChannel`; `found` is what it saw. -/
  | subscribing (topic : String) (r : Replies) (found : Bool)
  /-- In `Stop` after `sc.doneCh <- 1`. -/
  | stopping (handleReply : Handle → Option GoError) (close : Consumer → Option GoError)

/-- A goroutine, by the function it runs. The loops and the dispatches hold the address of
their `consumerChannels` object. -/
inductive Thread where
  | caller (pc : CallerPc) (calls : List ApiCall) (results : List CallResult)
  | startConsumers (topic : String)
  | consumeFromAPartition (topic : String) (consumer : Consumer) (cc : Nat)
  | consumeGroupMessages (topic : String) (consumer : Consumer) (cc : Nat)
  | dispatchToConsumers (cc : Nat) (msg : Msg)
  | send (ch : Chan) (msg : Msg)
  | exited

/-- The loop `startConsumers` starts for a consumer, by its type. -/
def Consumer.loop (topic : String) (cc : Nat) : Consumer → Thread
  | .partition h => .consumeFromAPartition topic (.partition h) cc
  | .group h => .consumeGroupMessages topic (.group h) cc

/-- What the environment chooses for a step. `run` is the next statement of a goroutine that
is not in a `select`; the others are the cases of a consumption loop's `select`.
`message none` is a nil message, `message (some none)` one that does not decode. -/
inductive Event where
  | run
  | error
  | message (m : Option (Option Msg))
  | notification
  | done
  deriving DecidableEq, Repr

/-- All goroutines, the client they share, and what the run did so far: the consumers each
loop was started for, the deliveries to subscribers, the offsets marked, and the values sent
to and received from `doneCh`. -/
structure Machine where
  client : SaramaClient
  threads : List Thread
  loopsStarted : List Consumer
  delivered : List (Chan × Msg)
  marked : List Msg
  doneSent : Nat
  doneReceived : Nat
  panic : Option Panic

namespace SaramaClient

/-- `<-sc.doneCh`; `none` while the channel is empty. -/
def receiveDone (sc : SaramaClient) : Option SaramaClient :=
  if 0 < sc.doneCh then some { sc with doneCh := sc.doneCh - 1 } else none

end SaramaClient

namespace Machine

variable (m : Machine) (i : Nat)

/-- Callers running `callers`, each call after the other, and no other goroutine. -/
def init (sc : SaramaClient) (callers : List (List ApiCall)) : Machine :=
  ⟨sc, callers.map (.caller .idle · []), [], [], [], 0, 0, none⟩

def setThread (t : Thread) : Machine := { m with threads := m.threads.set i t }

@[simp] theorem client_setThread (t : Thread) : (m.setThread i t).client = m.client := rfl

/-- `go f(...)` for each thread of `ts`. -/
def spawn (ts : List Thread) : Machine := { m with threads := m.threads ++ ts }

@[simp] theorem client_spawn (ts : List Thread) : (m.spawn ts).client = m.client := rfl

/-- Caller `i` returns `res` and goes on with `calls`. -/
def finish (sc : SaramaClient) (calls : List ApiCall) (results : List CallResult)
    (res : CallResult) : Machine :=
  { m with client := sc }.setThread i (.caller .idle calls (results ++ [res]))

@[simp] theorem client_finish (sc : SaramaClient) (calls : List ApiCall)
    (results : List CallResult) (res : CallResult) : (m.finish i sc calls results res).client = sc :=
  rfl

@[simp] theorem panic_finish (sc : SaramaClient) (calls : List ApiCall)
    (results : List CallResult) (res : CallResult) : (m.finish i sc calls results res).panic = m.panic :=
  rfl

/-- A goroutine panics: the client stays as the panic left it, and no goroutine runs again. -/
def crash (c : Crash) : Machine := { m with client := c.client, panic := some c.panic }

/-- Caller `i` after a critical section that may panic: it returns with `res` of what the
section returned, or the machine stops at the panic. -/
def complete {α : Type} (o : Except Crash (SaramaClient × α)) (calls : List ApiCall)
    (results : List CallResult) (res : α → CallResult) : Machine :=
  match o with
  | .ok r => m.finish i r.1 calls results (res r.2)
  | .error c => m.crash c

theorem client_complete {α : Type} (o : Except Crash (SaramaClient × α)) (calls : List ApiCall)
    (results : List CallResult) (res : α → CallResult) :
    (m.complete i o calls results res).client = Crash.after (o.map Prod.fst) := by
  cases o <;> rfl

/-- A caller that completes a section with no panic got what the section returned. -/
theorem complete_ok {α : Type} {o : Except Crash (SaramaClient × α)} {calls : List ApiCall}
    {results : List CallResult} {res : α → CallResult}
    (h : (m.complete i o calls results res).panic = none) :
    ∃ r, o = .ok r ∧ (m.complete i o calls results res).client = r.1 := by
  cases o with
  | ok r => exact ⟨r, rfl, rfl⟩
  | error c => cases h

/-- One step of caller `i`. -/
def callerStep : CallerPc → List ApiCall → List CallResult → Option Machine
  | .idle, [], _ => none
  | .idle, .subscribe t r :: cs, rs =>
      some (m.setThread i (.caller (.subscribing t r (m.client.getConsumerChannel t).isSome) cs rs))
  | .idle, .unSubscribe t ch close :: cs, rs =>
      some (m.complete i (m.client.unSubscribe close t ch) cs rs .unSubscribed)
  | .idle, .deleteTopic t reply close :: cs, rs =>
      some (m.complete i (m.client.deleteTopic reply close t) cs rs .deleted)
  | .idle, .stop hr close :: cs, rs =>
      m.client.sendDone.map fun sc =>
        { m with client := sc, doneSent := m.doneSent + 1 }.setThread i
          (.caller (.stopping hr close) cs rs)
  | .subscribing t _ true, cs, rs =>
      let o := m.client.subscribeReuse t
      some (m.finish i o.1 cs rs (.subscribed o.2))
  | .subscribing t r false, cs, rs =>
      let o := m.client.subscribeNew r t
      let m' := m.finish i o.1 cs rs (.subscribed o.2)
      some (match o.2 with
        | .ok _ => m'.spawn [.startConsumers t]
        | .error _ => m')
  | .stopping hr close, cs, rs =>
      some (m.complete i (m.client.stopAfterSend hr close) cs rs fun _ => .stopped)

/-- `startConsumers`: looks the topic up again and starts one loop per consumer of the
entry it finds now. -/
def startConsumers (topic : String) : Machine :=
  let m' := m.setThread i .exited
  match m.client.getConsumerChannel topic with
  | none => m'
  | some a =>
      let cs := (m.client.heap a).consumers
      { m' with loopsStarted := m.loopsStarted ++ cs }.spawn (cs.map (Consumer.loop topic a))

/-- One turn of loop `i`, `consumeGroupMessages` if `group`, else `consumeFromAPartition`,
on the object at `a`. -/
def loopStep (group : Bool) (a : Nat) : Event → Option Machine
  | .error => some m
  | .message none => some (m.setThread i .exited)
  | .message (some none) => some m
  | .message (some (some msg)) =>
      some ({ m with marked := if group then m.marked ++ [msg] else m.marked }.spawn
        [.dispatchToConsumers a msg])
  | .notification => if group then some m else none
  | .done => m.client.receiveDone.map fun sc =>
      { m with client := sc, doneReceived := m.doneReceived + 1 }.setThread i .exited
  | .run => none

/-- `dispatchToConsumers`: under the lock, one send goroutine per channel the object holds
now. -/
def dispatchToConsumers (a : Nat) (msg : Msg) : Machine :=
  (m.setThread i .exited).spawn ((m.client.heap a).channels.map (Thread.send · msg))

/-- `c <- protoMessage`, taken by the subscriber. -/
def send (ch : Chan) (msg : Msg) : Machine :=
  if ch ∈ m.client.closedChannels then { m with panic := some .sendOnClosedChannel }
  else { m with delivered := m.delivered ++ [(ch, msg)] }.setThread i .exited

/-- One step of goroutine `i`; `none` if it cannot take `ev` now. -/
def step (ev : Event) : Option Machine :=
  if m.panic.isSome then none
  else match m.threads[i]?, ev with
    | some (.caller pc cs rs), .run => m.callerStep i pc cs rs
    | some (.startConsumers t), .run => some (m.startConsumers i t)
    | some (.consumeFromAPartition _ _ a), ev => m.loopStep i false a ev
    | some (.consumeGroupMessages _ _ a), ev => m.loopStep i true a ev
    | some (.dispatchToConsumers a msg), .run => some (m.dispatchToConsumers i a msg)
    | some (.send ch msg), .run => some (m.send i ch msg)
    | _, _ => none

/-- Run the steps of a schedule in order. -/
def run : Machine → List (Nat × Event) → Option Machine
  | m, [] => some m
  | m, (i, ev) :: rest => (m.step i ev).bind (run · rest)

/-- No goroutine steps after a panic. -/
theorem panic_of_step {ev : Event} {m' : Machine} (h : m.step i ev = some m') : m.panic = none := by
  unfold step at h
  split at h
  · cases h
  · exact Option.not_isSome_iff_eq_none.mp ‹_›

end Machine

/-- The machines some schedule reaches from `m₀`. -/
inductive Reachable (m₀ : Machine) : Machine → Prop where
  | init : Reachable m₀ m₀
  | step {m m' : Machine} {i : Nat} {ev : Event} :
      Reachable m₀ m → m.step i ev = some m' → Reachable m₀ m'

theorem Reachable.run {m₀ : Machine} :
    ∀ {m m' : Machine} {l : List (Nat × Event)}, Reachable m₀ m → m.run l = some m' →
      Reachable m₀ m'
  | _, _, [], h, hr => by cases hr; exact h
  | m, _, (i, ev) :: rest, h, hr => by
    simp only [Machine.run] at hr
    cases hs : m.step i ev with
    | none => simp [hs] at hr
    | some m₁ => simp only [hs, Option.bind_some] at hr; exact (h.step hs).run hr

theorem Reachable.run_getD {m₀ m : Machine} (h : Reachable m₀ m) (l : List (Nat × Event)) :
    Reachable m₀ ((m.run l).getD m) := by
  cases hr : m.run l with
  | none => exact h
  | some m' => exact h.run hr

/-- A schedule from `m₀` that ends in a state where the test `p` passes, and `p` implies `P`. -/
theorem reachable_of_run {m₀ : Machine} {P : Machine → Prop} (l : List (Nat × Event))
    (p : Machine → Bool) (h : (m₀.run l).map p = some true) (hp : ∀ m, p m = true → P m) :
    ∃ m, Reachable m₀ m ∧ P m := by
  cases hr : m₀.run l with
  | none => simp [hr] at h
  | some m => exact ⟨m, Reachable.init.run hr, hp m (by simpa [hr] using h)⟩

end Voltha.Kafka
