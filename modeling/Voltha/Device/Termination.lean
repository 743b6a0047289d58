import Voltha.Device.PortView
import Mathlib.Algebra.Order.BigOperators.Group.Finset
import Mathlib.Algebra.Order.Ring.Nat

/-!
# Every schedule of the port agent ends

No goroutine of the port operations or of `orderedEvents` loops for ever: a deletion walks
the port numbers it listed at its start, and a `queuePosition.send` goroutine runs three
statements. So every schedule is finite (`step_wellFounded`), whatever the store failures
and the order of the goroutines. In a reachable state where no goroutine can run, every
operation has returned and every queued event has been sent, in order: the schedule did not
stop at a deadlock.

The measure is a pair, compared lexicographically: the goroutines still at their first
statement, then the statements the others and the queue goroutines have left. Starting a
deletion fixes how many ports it visits, and each visit queues at most one event.
-/

namespace Voltha.Device

/-- The statements a `queuePosition.send` goroutine has left. -/
def SendPc.remaining : SendPc → Nat
  | .waiting => 3
  | .ready => 2
  | .sent => 1
  | .done => 0

namespace Queue

variable {α : Type} (q : Queue α)

/-- The statements the queue's goroutines have left, one more until a goroutine panics. -/
def remaining : Nat :=
  (∑ k in Finset.range q.positions.length, (q.pc k).remaining) + if q.panicked then 0 else 1

theorem remaining_assign (ev : α) : (q.assign ev).remaining = q.remaining + 3 := by
  have hpc : ∀ k ∈ Finset.range q.positions.length,
      ((q.assign ev).pc k).remaining = (q.pc k).remaining := fun k hk =>
    congrArg SendPc.remaining (Function.update_noteq (Finset.mem_range.mp hk).ne _ _)
  simp only [remaining, positions_assign, List.length_append, List.length_singleton,
    Finset.sum_range_succ, Finset.sum_congr rfl hpc]
  simp only [assign, Function.update_same, SendPc.remaining]
  omega

/-- Moving goroutine `k` to a statement closer to its end lowers what is left. -/
theorem sum_update_lt {k : Nat} (hk : k < q.positions.length) {p : SendPc}
    (hp : p.remaining < (q.pc k).remaining) :
    ∑ j in Finset.range q.positions.length, (Function.update q.pc k p j).remaining <
      ∑ j in Finset.range q.positions.length, (q.pc j).remaining := by
  refine Finset.sum_lt_sum (fun j _ => ?_) ⟨k, Finset.mem_range.mpr hk, by simpa using hp⟩
  rcases eq_or_ne j k with rfl | hne
  · simpa using hp.le
  · rw [Function.update_noteq hne]

/-- A step that moves goroutine `k` closer to its end and changes nothing else that counts
lowers what is left. -/
theorem remaining_update_lt {k : Nat} (hk : k < q.positions.length) {p : SendPc}
    (hp : p.remaining < (q.pc k).remaining) {q' : Queue α} (hpos : q'.positions = q.positions)
    (hpanic : q'.panicked = q.panicked) (hpc : q'.pc = Function.update q.pc k p) :
    q'.remaining < q.remaining := by
  unfold remaining
  rw [hpos, hpanic, hpc]
  exact Nat.add_lt_add_right (q.sum_update_lt hk hp) _

theorem remaining_sendStep {k : Nat} {q' : Queue α} (hq : q.panicked = false)
    (h : q.sendStep k = some q') : q'.remaining < q.remaining := by
  unfold sendStep at h
  split at h
  · cases h
  · rename_i hpos
    have hk := (List.getElem?_eq_some_iff.mp hpos).1
    split at h <;> rename_i hpc
    · split at h <;> cases h
      exact q.remaining_update_lt hk (by rw [hpc]; decide) rfl rfl rfl
    · cases h
      exact q.remaining_update_lt hk (by rw [hpc]; decide) rfl rfl rfl
    · split at h <;> cases h
      · unfold remaining
        rw [hq]
        exact Nat.add_lt_add_left (by simp) _
      · exact q.remaining_update_lt hk (by rw [hpc]; decide) rfl rfl rfl
    · cases h

end Queue

/-- One for a goroutine still at its first statement. -/
def Worker.starting : Worker → Nat
  | .start _ => 1
  | _ => 0

/-- The statements a goroutine past its first one has left, counting the three of the queue
goroutine of each event it is still to queue. -/
def Worker.remaining : Worker → Nat
  | .start _ => 0
  | .deletingPorts _ ps => 4 * ps.length + 1
  | .deletingAllPorts ps none => 7 * ps.length + 1
  | .deletingAllPorts ps (some _) => 7 * ps.length + 5
  | .returned _ => 0

theorem sum_set_add {l : List Nat} {i : Nat} (hi : i < l.length) (x : Nat) :
    (l.set i x).sum + l[i] = l.sum + x := by
  induction l generalizing i with
  | nil => cases hi
  | cons y l ih =>
    cases i with
    | zero => simp only [List.set_cons_zero, List.sum_cons, List.getElem_cons_zero]; omega
    | succ i =>
      have := ih (Nat.lt_of_succ_lt_succ hi)
      simp only [List.set_cons_succ, List.sum_cons, List.getElem_cons_succ]; omega

namespace LogicalAgent

variable (a : LogicalAgent)

/-- The goroutines at their first statement, then the statements left to everything else. -/
def measure : Nat × Nat :=
  ((a.workers.map Worker.starting).sum,
    (a.workers.map Worker.remaining).sum + a.orderedEvents.remaining)

/-- The order in which every step goes down. -/
def Below (a' : LogicalAgent) : Prop := Prod.Lex (· < ·) (· < ·) a'.measure a.measure

theorem below_wellFounded : WellFounded fun a' a : LogicalAgent => a.Below a' :=
  InvImage.wf measure (WellFounded.prod_lex Nat.lt_wfRel.wf Nat.lt_wfRel.wf)

/-- The queue's goroutines have at most three statements more: one more position at most. -/
def QueueGrows (a a' : LogicalAgent) : Prop :=
  a'.orderedEvents.remaining ≤ a.orderedEvents.remaining + 3

@[simp] theorem orderedEvents_setWorker (i : Nat) (w : Worker) :
    (a.setWorker i w).orderedEvents = a.orderedEvents := rfl

theorem remaining_send (r : PortReason) (desc : OfpPort) :
    (a.send r desc).orderedEvents.remaining = a.orderedEvents.remaining + 3 :=
  Queue.remaining_assign _ _

theorem workers_addLogicalPort (lp : LogicalPort) (ok : Bool) :
    (a.addLogicalPort lp ok).1.workers = a.workers :=
  (a.addLogicalPort_spec lp ok).1

theorem workers_modifyLogicalPort (portNo : Nat) (f : LogicalPort → LogicalPort) (ok : Bool) :
    (a.modifyLogicalPort portNo f ok).1.workers = a.workers := by
  unfold modifyLogicalPort
  split
  · rfl
  · split <;> rfl

theorem orderedEvents_deletePortUnlocked (portNo : Nat) (ok : Bool) :
    (a.deletePortUnlocked portNo ok).1.orderedEvents = a.orderedEvents := by
  unfold deletePortUnlocked
  split
  · rfl
  · split <;> rfl

/-- The first statement of an operation leaves the goroutine past it, and touches no other
goroutine. -/
theorem startOp_eq (i : Nat) (ok : Bool) (op : Op) : ∃ (b : LogicalAgent) (w' : Worker),
    a.startOp i ok op = b.setWorker i w' ∧ b.workers = a.workers ∧ w'.starting = 0 := by
  cases op with
  | addNNILogicalPort d port => exact ⟨_, _, rfl, a.workers_addLogicalPort _ ok, rfl⟩
  | addUNILogicalPort d s o port =>
    refine ⟨_, _, rfl, ?_, rfl⟩
    unfold addUNILogicalPort
    split_ifs
    exacts [rfl, a.workers_addLogicalPort _ ok]
  | updatePortState n s => exact ⟨_, _, rfl, a.workers_modifyLogicalPort n _ ok, rfl⟩
  | enableLogicalPort n => exact ⟨_, _, rfl, a.workers_modifyLogicalPort n _ ok, rfl⟩
  | disableLogicalPort n => exact ⟨_, _, rfl, a.workers_modifyLogicalPort n _ ok, rfl⟩
  | deleteLogicalPorts d => exact ⟨a, _, rfl, rfl, rfl⟩
  | deleteAllLogicalPorts => exact ⟨a, _, rfl, rfl, rfl⟩

variable {a} {a' : LogicalAgent}

theorem LockedChange.grows (h : LockedChange a a') : QueueGrows a a' := by
  cases h with
  | none _ hq => rw [QueueGrows, hq]; omega
  | upsert _ _ _ _ hq | delete _ _ _ _ hq => rw [QueueGrows, hq, Queue.remaining_assign]

/-- A goroutine step that sets goroutine `i` from `w` to `w'` goes down: it leaves the first
statement, or what is left to the goroutine and the queue goes down. -/
theorem below_setWorker {b : LogicalAgent} {i : Nat} {w w' : Worker}
    (hw : a.workers[i]? = some w) (hb : b.workers = a.workers) (hw' : w'.starting = 0)
    (hdec : w.starting = 1 ∨
      w'.remaining + b.orderedEvents.remaining < w.remaining + a.orderedEvents.remaining) :
    a.Below (b.setWorker i w') := by
  obtain ⟨hi, rfl⟩ := List.getElem?_eq_some_iff.mp hw
  have hs := sum_set_add (l := a.workers.map Worker.starting) (by simpa using hi) w'.starting
  have hr := sum_set_add (l := a.workers.map Worker.remaining) (by simpa using hi) w'.remaining
  simp only [← List.map_set, List.getElem_map] at hs hr
  rw [hw'] at hs
  unfold Below measure
  rw [workers_setWorker, hb, orderedEvents_setWorker, Prod.lex_def]
  dsimp only
  rcases hdec with h | h
  · omega
  · have : a.workers[i].starting = 0 ∨ a.workers[i].starting = 1 := by
      cases a.workers[i] <;> simp [Worker.starting]
    omega

theorem workerStep_below {i : Nat} {ok : Bool} (h : a.workerStep i ok = some a') :
    a.Below a' := by
  unfold workerStep at h
  split at h <;> cases h <;> rename_i hw
  · obtain ⟨b, w', heq, hb, hw'⟩ := a.startOp_eq i ok _
    rw [heq]
    exact below_setWorker hw hb hw' (.inl rfl)
  · rename_i d p ps
    obtain ⟨hb, hc⟩ := a.deleteLogicalPort_spec d p ok
    have hq := hc.grows
    unfold QueueGrows at hq
    refine below_setWorker hw hb ?_ (.inr ?_) <;> split <;>
      first | rfl | simp only [Worker.remaining, List.length_cons]; omega
  · exact below_setWorker hw rfl rfl (.inr (by simp only [Worker.remaining, List.length_nil]; omega))
  · rename_i p ps
    have hq := a.orderedEvents_deletePortUnlocked p ok
    refine below_setWorker hw (a.deletePortUnlocked_spec p ok).1 ?_ (.inr ?_)
    · split <;> rfl
    · rw [hq]
      split
      · simp only [Worker.remaining, List.length_cons]; omega
      · rename_i d _
        cases d <;> simp only [Worker.remaining, List.length_cons] <;> omega
  · refine below_setWorker hw rfl rfl (.inr ?_)
    rw [remaining_send]
    simp only [Worker.remaining]
    omega
  · exact below_setWorker hw rfl rfl (.inr (by simp only [Worker.remaining, List.length_nil]; omega))

theorem step_below {x : Action} (h : a.step x = some a') : a.Below a' := by
  cases x with
  | worker i ok =>
    simp only [step] at h
    split at h
    · cases h
    · exact workerStep_below h
  | send k =>
    simp only [step] at h
    split at h
    · cases h
    · obtain ⟨q, hq, rfl⟩ := Option.map_eq_some'.mp h
      rename_i hp
      exact Prod.Lex.right _
        (Nat.add_lt_add_left (a.orderedEvents.remaining_sendStep (Bool.eq_false_iff.mpr hp) hq) _)

/-- No schedule of the agent is infinite, from any state. -/
theorem step_wellFounded : WellFounded fun a' a : LogicalAgent => ∃ x, a.step x = some a' :=
  Subrelation.wf (fun ⟨_, h⟩ => step_below h) below_wellFounded

/-- A goroutine that has not returned can always run its next statement. -/
theorem workerStep_isSome {i : Nat} {w : Worker} (hw : a.workers[i]? = some w)
    (hr : w.hasReturned = false) (ok : Bool) : (a.workerStep i ok).isSome := by
  unfold workerStep
  rw [hw]
  cases w with
  | start op => rfl
  | deletingPorts d ps => cases ps <;> rfl
  | deletingAllPorts ps d => cases ps <;> cases d <;> rfl
  | returned e => cases hr

variable {ops : List Op}

/-- A reachable state where no goroutine can run is not a deadlock: every operation has
returned and every queued event has been sent, in the order of its position. -/
theorem Reachable.quiescent_of_stuck (h : Reachable (LogicalAgent.init ops) a) (hs : ∀ x, a.step x = none) :
    a.Quiescent ∧ a.orderedEvents.sent.map Prod.snd = a.orderedEvents.positions.map Prod.snd := by
  have I := h.keys_inv.2
  have hle : a.orderedEvents.positions.length ≤ a.orderedEvents.closed.length := by
    refine Nat.le_of_not_lt fun hlt => ?_
    have hn := hs (.send a.orderedEvents.closed.length)
    obtain ⟨q, hq⟩ := Option.isSome_iff_exists.mp (I.progress hlt)
    rw [LogicalAgent.step, if_neg (by simp [I.ok]), hq] at hn
    cases hn
  have hdone : ∀ k < a.orderedEvents.positions.length, a.orderedEvents.pc k = .done :=
    fun k hk => (I.done_iff hk).mpr (Nat.lt_of_lt_of_le hk hle)
  refine ⟨⟨hdone, fun w hw => ?_⟩, I.sent_of_all_done hdone⟩
  obtain ⟨i, hi⟩ := List.getElem?_of_mem hw
  cases hr : w.hasReturned
  · have hn := hs (.worker i true)
    obtain ⟨a', ha'⟩ := Option.isSome_iff_exists.mp (a.workerStep_isSome hi hr true)
    rw [LogicalAgent.step, if_neg (by simp [I.ok]), ha'] at hn
    cases hn
  · rfl

end LogicalAgent

/-- Every schedule of the port operations and of the event goroutines is finite, whatever the
store failures and the order of the goroutines, and it can only end with every operation
returned and every queued event sent, in the order of the positions. -/
theorem schedules_end_with_events_sent :
    WellFounded (fun a' a : LogicalAgent => ∃ x, a.step x = some a') ∧
    ∀ (ops : List Op) (a : LogicalAgent), LogicalAgent.Reachable (.init ops) a →
      (∀ x, a.step x = none) →
      a.Quiescent ∧ a.orderedEvents.sent.map Prod.snd = a.orderedEvents.positions.map Prod.snd :=
  ⟨LogicalAgent.step_wellFounded, fun _ _ h hs => h.quiescent_of_stuck hs⟩

end Voltha.Device
