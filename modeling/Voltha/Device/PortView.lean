import Voltha.Device.LogicalPorts

/-!
# The controller's view of the ports

The controller learns the ports only from the change events, applied in the order they are
sent. Every operation but `deleteAllLogicalPorts` changes a port and reserves the queue
position of its event under that port's lock, so the events queued so far always describe
the store. `deleteAllLogicalPorts` reserves the position of its `OFPPR_DELETE` after it has
unlocked the port; a port added again in between gets its `OFPPR_ADD` queued first, and the
controller ends up without a port that the store holds.
-/

namespace Voltha.Device

namespace LogicalAgent

theorem reachable_of_run {a₀ : LogicalAgent} {P : LogicalAgent → Prop} (l : List Action)
    (p : LogicalAgent → Bool) (h : (a₀.run l).map p = some true) (hp : ∀ a, p a = true → P a) :
    ∃ a, Reachable a₀ a ∧ P a := by
  cases hr : a₀.run l with
  | none => simp [hr] at h
  | some a => exact ⟨a, Reachable.init.run hr, hp a (by simpa [hr] using h)⟩

end LogicalAgent

/-- An NNI port of the OLT. -/
def oltPort : Port := ⟨1, "nni", .ethernetNni, ⟨1, [], "", 0, 0⟩⟩

theorem PortEvent.apply_upsert (t : AList (fun _ : Nat => OfpPort)) {r : PortReason}
    (hr : r ≠ .delete) (d : OfpPort) : PortEvent.apply t ⟨r, d⟩ = t.insert d.portNo d := by
  cases r
  · rfl
  · exact absurd rfl hr
  · rfl

theorem PortEvent.apply_delete (t : AList (fun _ : Nat => OfpPort)) (d : OfpPort) :
    PortEvent.apply t ⟨.delete, d⟩ = t.erase d.portNo := rfl

theorem controllerView_append (l : List PortEvent) (e : PortEvent) (p : Nat) :
    controllerView (l ++ [e]) p = (PortEvent.apply (l.foldl PortEvent.apply ∅) e).lookup p := by
  simp only [controllerView, List.foldl_append, List.foldl_cons, List.foldl_nil]

namespace LogicalAgent

variable {a a' : LogicalAgent} {ops : List Op}

theorem Keys.of_ports (hk : a.Keys) (hp : a'.ports = a.ports) : a'.Keys := by
  intro p lp' hl
  rw [hp] at hl
  exact hk p lp' hl

theorem Keys.insert (hk : a.Keys) {lp : LogicalPort}
    (hp : a'.ports = a.ports.insert lp.ofpPort.portNo lp) : a'.Keys := by
  intro p lp' hl
  rw [hp] at hl
  by_cases hpk : p = lp.ofpPort.portNo
  · subst hpk; rw [AList.lookup_insert] at hl; cases hl; rfl
  · rw [AList.lookup_insert_ne hpk] at hl; exact hk p lp' hl

theorem Keys.erase (hk : a.Keys) {q : Nat} (hp : a'.ports = a.ports.erase q) : a'.Keys := by
  intro p lp' hl
  rw [hp] at hl
  by_cases hpq : p = q
  · subst hpq; rw [AList.lookup_erase] at hl; cases hl
  · rw [AList.lookup_erase_ne hpq] at hl; exact hk p lp' hl

theorem LockedChange.keys (hk : a.Keys) (h : LockedChange a a') : a'.Keys := by
  cases h with
  | none hp _ => exact hk.of_ports hp
  | upsert _ _ _ hp _ => exact hk.insert hp
  | delete _ _ _ hp _ => exact hk.erase hp

theorem UnlockedChange.keys (hk : a.Keys) (h : UnlockedChange a a') : a'.Keys := by
  cases h with
  | delete _ hp _ => exact hk.erase hp
  | send _ hp _ => exact hk.of_ports hp

theorem LockedChange.inv (hi : a.orderedEvents.Inv) (h : LockedChange a a') :
    a'.orderedEvents.Inv := by
  cases h with
  | none _ hq => rw [hq]; exact hi
  | upsert _ _ _ _ hq => rw [hq]; exact hi.assign _
  | delete _ _ _ _ hq => rw [hq]; exact hi.assign _

theorem UnlockedChange.inv (hi : a.orderedEvents.Inv) (h : UnlockedChange a a') :
    a'.orderedEvents.Inv := by
  cases h with
  | delete _ _ hq => rw [hq]; exact hi
  | send _ _ hq => rw [hq]; exact hi.assign _

theorem step_send {k : Nat} (hi : a.orderedEvents.Inv) (h : a.step (.send k) = some a') :
    ∃ q, a.orderedEvents.sendStep k = some q ∧ { a with orderedEvents := q } = a' := by
  simp only [step, hi.ok, Bool.false_eq_true, ↓reduceIte] at h
  exact Option.map_eq_some'.mp h

theorem step_worker {i : Nat} {ok : Bool} (hi : a.orderedEvents.Inv)
    (h : a.step (.worker i ok) = some a') : a.workerStep i ok = some a' := by
  simpa only [step, hi.ok, Bool.false_eq_true, ↓reduceIte] using h

/-- In every reachable agent each port is stored under its own number, and the queue keeps
its invariant: the ordering of `Queue.Reachable.ordered` holds for the port events. -/
theorem Reachable.keys_inv (h : Reachable (LogicalAgent.init ops) a) : a.Keys ∧ a.orderedEvents.Inv := by
  induction h with
  | init => exact ⟨fun p lp h => by simp [LogicalAgent.init, AList.lookup_empty] at h, Queue.inv_init⟩
  | @step a a' x _ hs ih =>
    obtain ⟨hk, hi⟩ := ih
    cases x with
    | worker i ok =>
      obtain ⟨_, _, _, _, _, hc | hc⟩ := workerStep_spec a hk (step_worker hi hs)
      · exact ⟨hc.keys hk, hc.inv hi⟩
      · exact ⟨hc.keys hk, hc.inv hi⟩
    | send k =>
      obtain ⟨q, hq, rfl⟩ := step_send hi hs
      exact ⟨hk, hi.of_sendStep hq⟩

/-- The events queued so far, applied in order, give the store's view, and every goroutine
changes a port and queues its event under one lock. -/
structure Agrees (a : LogicalAgent) : Prop where
  keys : a.Keys
  view : ∀ p, controllerView (a.orderedEvents.positions.map Prod.snd) p = a.storeView p
  locked : ∀ w ∈ a.workers, w.Locked

theorem LockedChange.view (hk : a.Keys)
    (hv : ∀ p, controllerView (a.orderedEvents.positions.map Prod.snd) p = a.storeView p)
    (h : LockedChange a a') (p : Nat) :
    controllerView (a'.orderedEvents.positions.map Prod.snd) p = a'.storeView p := by
  cases h with
  | none hp hq => rw [hq, hv, storeView, storeView, hp]
  | upsert lp r hr hp hq =>
    rw [hq, Queue.positions_assign, List.map_append, List.map_singleton, controllerView_append,
      PortEvent.apply_upsert _ hr, storeView, hp]
    by_cases hpk : p = lp.ofpPort.portNo
    · subst hpk; rw [AList.lookup_insert, AList.lookup_insert]; rfl
    · rw [AList.lookup_insert_ne hpk, AList.lookup_insert_ne hpk]; exact hv p
  | delete q lp hl hp hq =>
    rw [hq, Queue.positions_assign, List.map_append, List.map_singleton, controllerView_append,
      storeView, hp]
    rw [PortEvent.apply_delete, hk q lp hl]
    by_cases hpq : p = q
    · subst hpq; rw [AList.lookup_erase, AList.lookup_erase]; rfl
    · rw [AList.lookup_erase_ne hpq, AList.lookup_erase_ne hpq]; exact hv p

theorem Reachable.agrees (hops : .deleteAllLogicalPorts ∉ ops) (h : Reachable (LogicalAgent.init ops) a) :
    a.Agrees := by
  induction h with
  | init =>
    refine ⟨fun p lp h => by simp [LogicalAgent.init, AList.lookup_empty] at h, fun p => ?_, fun w hw => ?_⟩
    · simp [LogicalAgent.init, controllerView, storeView, Queue.init, AList.lookup_empty]
    · obtain ⟨op, hop, rfl⟩ := List.mem_map.mp hw
      exact fun h => hops (h ▸ hop)
  | @step a a' x hr hs ih =>
    have hi := hr.keys_inv.2
    cases x with
    | worker i ok =>
      obtain ⟨w, hw, w', hws, hlock, -⟩ := workerStep_spec a ih.keys (step_worker hi hs)
      obtain ⟨hw', hc⟩ := hlock (ih.locked w (List.getElem?_mem hw))
      refine ⟨hc.keys ih.keys, hc.view ih.keys ih.view, fun v hv => ?_⟩
      rw [hws] at hv
      rcases List.mem_or_eq_of_mem_set hv with hv | rfl
      · exact ih.locked v hv
      · exact hw'
    | send k =>
      obtain ⟨q, hq, rfl⟩ := step_send hi hs
      refine ⟨ih.keys, fun p => ?_, ih.locked⟩
      rw [show q.positions = a.orderedEvents.positions from Queue.positions_sendStep _ hq]
      exact ih.view p

/-- With no `deleteAllLogicalPorts` among the operations, under every schedule: once every
queued event has been sent, the controller's table, built from the events in the order they
were sent, is the store. -/
theorem view_matches_store (hops : .deleteAllLogicalPorts ∉ ops) (h : Reachable (LogicalAgent.init ops) a)
    (hdone : ∀ k < a.orderedEvents.positions.length, a.orderedEvents.pc k = .done) (p : Nat) :
    controllerView (a.orderedEvents.sent.map Prod.snd) p = a.storeView p := by
  rw [h.keys_inv.2.sent_of_all_done hdone]
  exact (h.agrees hops).view p

/-- In every run of the agent, the port events reach the manager in the order their queue
positions were assigned, each at most once, and no `next` channel is closed twice. -/
theorem Reachable.events_ordered (h : Reachable (LogicalAgent.init ops) a) :
    a.orderedEvents.sent.map Prod.fst = List.range a.orderedEvents.sent.length ∧
    a.orderedEvents.sent.map Prod.snd <+: a.orderedEvents.positions.map Prod.snd ∧
    a.orderedEvents.closed = List.range a.orderedEvents.closed.length ∧
    a.orderedEvents.panicked = false :=
  have I := h.keys_inv.2
  ⟨I.sent_fst, I.sent_snd ▸ List.take_prefix _ _, I.closed, I.ok⟩

/-- The port added, deleted by `deleteAllLogicalPorts` and added again, with the updates in
between: the three events still go out in the order of their positions. -/
theorem events_ordered_readd :
    let a₀ := LogicalAgent.init [.addNNILogicalPort "olt" oltPort, .deleteAllLogicalPorts,
      .addNNILogicalPort "olt" oltPort]
    let a := (a₀.run [.worker 0 true, .worker 1 true, .worker 1 true, .worker 2 true,
      .worker 1 true, .send 0, .send 0, .send 0, .send 1, .send 1, .send 1]).getD a₀
    a.orderedEvents.sent.map Prod.fst = List.range a.orderedEvents.sent.length ∧
    a.orderedEvents.sent.map Prod.snd <+: a.orderedEvents.positions.map Prod.snd ∧
    a.orderedEvents.closed = List.range a.orderedEvents.closed.length ∧
    a.orderedEvents.panicked = false :=
  Reachable.events_ordered (Reachable.init.run_getD _)

end LogicalAgent

/-- An NNI port added and then disabled, and both events sent. -/
theorem view_matches_store_after_disable :
    let a₀ := LogicalAgent.init [.addNNILogicalPort "olt" oltPort, .disableLogicalPort 1]
    let a := (a₀.run [.worker 0 true, .worker 1 true, .send 0, .send 0, .send 0, .send 1, .send 1,
      .send 1]).getD a₀
    ∀ p, controllerView (a.orderedEvents.sent.map Prod.snd) p = a.storeView p :=
  LogicalAgent.view_matches_store (by decide) (LogicalAgent.Reachable.init.run_getD _) (by decide)

/-- The port is added and its event sent; `deleteAllLogicalPorts` lists it, deletes it and
unlocks it; the port is added again and its `OFPPR_ADD` queued; only then does
`deleteAllLogicalPorts` queue its `OFPPR_DELETE`; then both events are sent. -/
def readdSchedule : List LogicalAgent.Action :=
  [.worker 0 true, .send 0, .send 0, .send 0, .worker 1 true, .worker 1 true, .worker 2 true,
   .worker 1 true, .worker 1 true, .send 1, .send 1, .send 1, .send 2, .send 2, .send 2]

/-- Every event has been sent and every operation has returned, the store holds port `1`,
and the controller's table does not. -/
theorem deleteAll_loses_readded_port :
    ∃ a, LogicalAgent.Reachable (LogicalAgent.init [.addNNILogicalPort "olt" oltPort,
        .deleteAllLogicalPorts, .addNNILogicalPort "olt" oltPort]) a ∧
      a.Quiescent ∧ a.storeView 1 = some (nniPort "olt" oltPort).ofpPort ∧
      controllerView (a.orderedEvents.sent.map Prod.snd) 1 = none :=
  LogicalAgent.reachable_of_run readdSchedule
    (fun a => decide a.Quiescent && a.storeView 1 == some (nniPort "olt" oltPort).ofpPort &&
      controllerView (a.orderedEvents.sent.map Prod.snd) 1 == none)
    (by decide) fun a h => by simpa [and_assoc] using h

end Voltha.Device
