import Voltha.Device.OrderedEvents
import Mathlib.Data.List.AList

/-!
# Logical ports and their change events

The port operations of `LogicalAgent`, each run by its own goroutine, over the port loader
and `orderedEvents`. The port loader is not in the sources: it is modelled, as its uses here
need, as a map from port number to logical port, each entry under its own lock. A lock is
held over one step, so every step below is one critical section: `addNNILogicalPort`,
`addUNILogicalPort`, `updatePortState`, `enableLogicalPort` and `disableLogicalPort` change
the store and reserve their queue position while the port is locked, and so does each turn
of `deleteLogicalPorts`. `deleteAllLogicalPorts` deletes the port, unlocks it, and only then
reserves the position of its `OFPPR_DELETE` event, in a step of its own.

Each store write of the loader may fail; the step's `ok` says whether it succeeded. The
routes the operations rebuild are not modelled: they touch neither the store nor the events.
-/

namespace Voltha.Device

/-- The fields of `ofp.OfpPort` the port code sets or reads. -/
structure OfpPort where
  portNo : Nat
  hwAddr : List Nat
  name : String
  config : UInt32
  state : UInt32
  deriving DecidableEq, Repr

/-- `OfpPortConfig_OFPPC_PORT_DOWN`, `OfpPortState_OFPPS_LINK_DOWN` and
`OfpPortState_OFPPS_LIVE` are declared outside the sources; these are their OpenFlow 1.3
values. -/
def ofppcPortDown : UInt32 := 1

/-- See `ofppcPortDown`. -/
def ofppsLinkDown : UInt32 := 1

/-- See `ofppcPortDown`. -/
def ofppsLive : UInt32 := 4

/-- `voltha.OperStatus_ACTIVE` and `voltha.AdminState_ENABLED`, declared outside the sources:
the code only compares with them. -/
def operStatusActive : Nat := 4

/-- See `operStatusActive`. -/
def adminStateEnabled : Nat := 3

/-- `voltha.Port_PortType`, declared outside the sources. -/
inductive PortType where
  | unknown
  | ethernetNni
  | ethernetUni
  | ponOlt
  | ponOnu
  | venetOlt
  | venetOnu
  deriving DecidableEq, Repr

/-- The fields of `voltha.Port` the port code reads. -/
structure Port where
  portNo : Nat
  label : String
  type : PortType
  ofpPort : OfpPort
  deriving DecidableEq, Repr

/-- The fields of `voltha.LogicalPort` the port code sets or reads. -/
structure LogicalPort where
  rootPort : Bool
  deviceId : String
  id : String
  devicePortNo : Nat
  ofpPort : OfpPort
  deriving DecidableEq, Repr

/-- `ofp.OfpPortReason`. -/
inductive PortReason where
  | add
  | delete
  | modify
  deriving DecidableEq, Repr

/-- The arguments of one `SendChangeEvent`. -/
structure PortEvent where
  reason : PortReason
  desc : OfpPort
  deriving DecidableEq, Repr

/-- The errors the operations return: `status.Errorf(codes.NotFound, ...)`, or a failed store
write. -/
inductive AgentError where
  | notFound (msg : String)
  | store
  deriving DecidableEq, Repr

/-- `clonePortSetState`. -/
def clonePortSetState (oldPort : LogicalPort) (state : Nat) : LogicalPort :=
  let o := oldPort.ofpPort
  { oldPort with
    ofpPort :=
      if state = operStatusActive then
        { o with config := o.config &&& ~~~ofppcPortDown, state := ofppsLive }
      else { o with config := o.config ||| ofppcPortDown, state := ofppsLinkDown } }

/-- The port `addNNILogicalPort` builds. -/
def nniPort (deviceID : String) (port : Port) : LogicalPort :=
  let label := "nni-" ++ toString port.portNo
  ⟨true, deviceID, label, port.portNo, { port.ofpPort with portNo := port.portNo, name := label }⟩

/-- The port `addUNILogicalPort` builds. -/
def uniPort (deviceID : String) (port : Port) : LogicalPort :=
  ⟨false, deviceID, port.label, port.portNo, { port.ofpPort with portNo := port.portNo }⟩

/-- An operation a goroutine of the agent runs. -/
inductive Op where
  | addNNILogicalPort (deviceID : String) (port : Port)
  | addUNILogicalPort (deviceID : String) (deviceAdminState deviceOperStatus : Nat) (port : Port)
  | updatePortState (portNo : Nat) (operStatus : Nat)
  | enableLogicalPort (lPortNo : Nat)
  | disableLogicalPort (lPortNo : Nat)
  | deleteLogicalPorts (deviceID : String)
  | deleteAllLogicalPorts
  deriving DecidableEq, Repr

/-- Where an operation's goroutine is. The deletions loop over the port numbers they listed
first; `deleteAllLogicalPorts` may hold the description of a port it deleted and has not yet
sent the event of. -/
inductive Worker where
  | start (op : Op)
  | deletingPorts (deviceID : String) (pending : List Nat)
  | deletingAllPorts (pending : List Nat) (deleted : Option OfpPort)
  | returned (err : Option AgentError)
  deriving DecidableEq, Repr

/-- The goroutine has returned. -/
def Worker.hasReturned : Worker → Bool
  | .returned _ => true
  | _ => false

/-- The goroutine changes a port and reserves its event under one lock: it is not, and will
not become, a `deleteAllLogicalPorts`. -/
def Worker.Locked : Worker → Prop
  | .start op => op ≠ .deleteAllLogicalPorts
  | .deletingAllPorts .. => False
  | _ => True

/-- The port loader, `orderedEvents` with the goroutines of its positions, and the
operations' goroutines. -/
structure LogicalAgent where
  ports : AList (fun _ : Nat => LogicalPort)
  orderedEvents : Queue PortEvent
  workers : List Worker

namespace LogicalAgent

variable (a : LogicalAgent)

/-- A fresh agent with no ports, running `ops`. -/
def init (ops : List Op) : LogicalAgent := ⟨∅, .init, ops.map .start⟩

/-- `agent.orderedEvents.send`: a position for the event, and its goroutine. -/
def send (reason : PortReason) (desc : OfpPort) : LogicalAgent :=
  { a with orderedEvents := a.orderedEvents.assign ⟨reason, desc⟩ }

/-- `portLoader.ListIDsForDevice`. -/
def listIDsForDevice (deviceID : String) : List Nat :=
  (a.ports.entries.filter fun e => e.2.deviceId = deviceID).map (·.1)

/-- `LockOrCreate` on `lp`, and on creation the `OFPPR_ADD` position, reserved under the
port lock: the common body of `addNNILogicalPort` and `addUNILogicalPort`. -/
def addLogicalPort (lp : LogicalPort) (ok : Bool) : LogicalAgent × Option AgentError :=
  match a.ports.lookup lp.ofpPort.portNo with
  | some _ => (a, none)
  | none =>
      if ok then
        ({ a with ports := a.ports.insert lp.ofpPort.portNo lp }.send .add lp.ofpPort, none)
      else (a, some .store)

/-- `addNNILogicalPort`. -/
def addNNILogicalPort (deviceID : String) (port : Port) (ok : Bool) :
    LogicalAgent × Option AgentError :=
  a.addLogicalPort (nniPort deviceID port) ok

/-- `addUNILogicalPort`: nothing unless the device is enabled and active. -/
def addUNILogicalPort (deviceID : String) (deviceAdminState deviceOperStatus : Nat) (port : Port)
    (ok : Bool) : LogicalAgent × Option AgentError :=
  if deviceAdminState ≠ adminStateEnabled ∨ deviceOperStatus ≠ operStatusActive then (a, none)
  else a.addLogicalPort (uniPort deviceID port) ok

/-- `Lock`, `Update` with `f` of the port, and the `OFPPR_MODIFY` event, all under the port
lock: the common body of `updatePortState`, `enableLogicalPort` and `disableLogicalPort`. -/
def modifyLogicalPort (portNo : Nat) (f : LogicalPort → LogicalPort) (ok : Bool) :
    LogicalAgent × Option AgentError :=
  match a.ports.lookup portNo with
  | none => (a, some (.notFound ("port-" ++ toString portNo ++ "-not-exist")))
  | some old =>
      if ok then
        let newPort := f old
        ({ a with ports := a.ports.insert portNo newPort }.send .modify newPort.ofpPort, none)
      else (a, some .store)

/-- `updatePortState`. -/
def updatePortState (portNo : Nat) (operStatus : Nat) (ok : Bool) :
    LogicalAgent × Option AgentError :=
  a.modifyLogicalPort portNo (clonePortSetState · operStatus) ok

/-- The port `enableLogicalPort` writes back: `OFPPC_PORT_DOWN` cleared. -/
def enablePort (p : LogicalPort) : LogicalPort :=
  { p with ofpPort.config := p.ofpPort.config &&& ~~~ofppcPortDown }

/-- `enableLogicalPort`. -/
def enableLogicalPort (lPortNo : Nat) (ok : Bool) : LogicalAgent × Option AgentError :=
  a.modifyLogicalPort lPortNo enablePort ok

/-- The port `disableLogicalPort` writes back: `OFPPC_PORT_DOWN` cleared, then set. -/
def disablePort (p : LogicalPort) : LogicalPort :=
  { p with ofpPort.config := (p.ofpPort.config &&& ~~~ofppcPortDown) ||| ofppcPortDown }

/-- `disableLogicalPort`. -/
def disableLogicalPort (lPortNo : Nat) (ok : Bool) : LogicalAgent × Option AgentError :=
  a.modifyLogicalPort lPortNo disablePort ok

/-- One turn of `deleteLogicalPorts`: under the port lock, a port of the device is deleted and
its `OFPPR_DELETE` position reserved. -/
def deleteLogicalPort (deviceID : String) (portNo : Nat) (ok : Bool) :
    LogicalAgent × Option AgentError :=
  match a.ports.lookup portNo with
  | none => (a, none)
  | some oldPort =>
      if oldPort.deviceId = deviceID then
        if ok then ({ a with ports := a.ports.erase portNo }.send .delete oldPort.ofpPort, none)
        else (a, some .store)
      else (a, none)

/-- The locked part of one turn of `deleteAllLogicalPorts`: the port is deleted and unlocked;
the event is sent afterwards. -/
def deletePortUnlocked (portNo : Nat) (ok : Bool) :
    LogicalAgent × Except AgentError (Option OfpPort) :=
  match a.ports.lookup portNo with
  | none => (a, .ok none)
  | some oldPort =>
      if ok then ({ a with ports := a.ports.erase portNo }, .ok (some oldPort.ofpPort))
      else (a, .error .store)

def setWorker (i : Nat) (w : Worker) : LogicalAgent := { a with workers := a.workers.set i w }

/-- The first step of goroutine `i`, running `op`. -/
def startOp (i : Nat) (ok : Bool) : Op → LogicalAgent
  | .addNNILogicalPort d port => let r := a.addNNILogicalPort d port ok; r.1.setWorker i (.returned r.2)
  | .addUNILogicalPort d s o port =>
      let r := a.addUNILogicalPort d s o port ok; r.1.setWorker i (.returned r.2)
  | .updatePortState n s => let r := a.updatePortState n s ok; r.1.setWorker i (.returned r.2)
  | .enableLogicalPort n => let r := a.enableLogicalPort n ok; r.1.setWorker i (.returned r.2)
  | .disableLogicalPort n => let r := a.disableLogicalPort n ok; r.1.setWorker i (.returned r.2)
  | .deleteLogicalPorts d => a.setWorker i (.deletingPorts d (a.listIDsForDevice d))
  | .deleteAllLogicalPorts => a.setWorker i (.deletingAllPorts a.ports.keys none)

/-- One step of goroutine `i`; `ok` is whether its store write succeeds. -/
def workerStep (i : Nat) (ok : Bool) : Option LogicalAgent :=
  match a.workers[i]? with
  | some (.start op) => some (a.startOp i ok op)
  | some (.deletingPorts d (p :: ps)) =>
      let r := a.deleteLogicalPort d p ok
      some (r.1.setWorker i (match r.2 with
        | some e => .returned (some e)
        | none => .deletingPorts d ps))
  | some (.deletingPorts _ []) => some (a.setWorker i (.returned none))
  | some (.deletingAllPorts (p :: ps) none) =>
      let r := a.deletePortUnlocked p ok
      some (r.1.setWorker i (match r.2 with
        | .error e => .returned (some e)
        | .ok d => .deletingAllPorts ps d))
  | some (.deletingAllPorts ps (some desc)) =>
      some ((a.send .delete desc).setWorker i (.deletingAllPorts ps none))
  | some (.deletingAllPorts [] none) => some (a.setWorker i (.returned none))
  | _ => none

/-- What happens next: an operation's goroutine runs a step, or the goroutine of queue
position `k` runs one statement of `queuePosition.send`. -/
inductive Action where
  | worker (i : Nat) (ok : Bool)
  | send (k : Nat)
  deriving DecidableEq, Repr

def step : Action → Option LogicalAgent
  | .worker i ok => if a.orderedEvents.panicked then none else a.workerStep i ok
  | .send k => if a.orderedEvents.panicked then none
      else (a.orderedEvents.sendStep k).map fun q => { a with orderedEvents := q }

def run : LogicalAgent → List Action → Option LogicalAgent
  | a, [] => some a
  | a, x :: rest => (a.step x).bind (run · rest)

/-- The states some schedule reaches from `a₀`. -/
inductive Reachable (a₀ : LogicalAgent) : LogicalAgent → Prop where
  | init : Reachable a₀ a₀
  | step {a a' : LogicalAgent} {x : Action} : Reachable a₀ a → a.step x = some a' → Reachable a₀ a'

theorem Reachable.run {a₀ a a' : LogicalAgent} :
    ∀ {l : List Action}, Reachable a₀ a → a.run l = some a' → Reachable a₀ a'
  | [], h, hr => by cases hr; exact h
  | x :: rest, h, hr => by
    simp only [LogicalAgent.run] at hr
    cases hs : a.step x with
    | none => simp [hs] at hr
    | some a₁ => simp only [hs, Option.bind_some] at hr; exact (h.step hs).run hr

theorem Reachable.run_getD {a₀ a : LogicalAgent} (h : Reachable a₀ a) (l : List Action) :
    Reachable a₀ ((a.run l).getD a) := by
  cases hr : a.run l with
  | none => exact h
  | some a' => exact h.run hr

/-- Every assigned position has sent its event, and every operation has returned. -/
def Quiescent : Prop :=
  (∀ k < a.orderedEvents.positions.length, a.orderedEvents.pc k = .done) ∧
    ∀ w ∈ a.workers, w.hasReturned = true

instance : Decidable a.Quiescent := inferInstanceAs (Decidable (_ ∧ _))

/-- The store's view of the ports: the description of each port number. -/
def storeView (p : Nat) : Option OfpPort := (a.ports.lookup p).map (·.ofpPort)

/-- Each port is stored under its own port number. -/
def Keys : Prop := ∀ p lp, a.ports.lookup p = some lp → lp.ofpPort.portNo = p

/-- A step that holds the port lock: it changes nothing, stores a port and queues its
`OFPPR_ADD` or `OFPPR_MODIFY`, or deletes a stored port and queues its `OFPPR_DELETE`. -/
inductive LockedChange (a a' : LogicalAgent) : Prop where
  | none (hp : a'.ports = a.ports) (hq : a'.orderedEvents = a.orderedEvents)
  | upsert (lp : LogicalPort) (r : PortReason) (hr : r ≠ .delete)
      (hp : a'.ports = a.ports.insert lp.ofpPort.portNo lp)
      (hq : a'.orderedEvents = a.orderedEvents.assign ⟨r, lp.ofpPort⟩)
  | delete (p : Nat) (lp : LogicalPort) (hl : a.ports.lookup p = some lp)
      (hp : a'.ports = a.ports.erase p)
      (hq : a'.orderedEvents = a.orderedEvents.assign ⟨.delete, lp.ofpPort⟩)

/-- A step of `deleteAllLogicalPorts`: it deletes a port and unlocks it, or it queues the
`OFPPR_DELETE` of a port it deleted before. -/
inductive UnlockedChange (a a' : LogicalAgent) : Prop where
  | delete (p : Nat) (hp : a'.ports = a.ports.erase p) (hq : a'.orderedEvents = a.orderedEvents)
  | send (desc : OfpPort) (hp : a'.ports = a.ports)
      (hq : a'.orderedEvents = a.orderedEvents.assign ⟨.delete, desc⟩)

variable {a} {b b' : LogicalAgent}

theorem LockedChange.congr (h : LockedChange a b) (hp : b'.ports = b.ports)
    (hq : b'.orderedEvents = b.orderedEvents) : LockedChange a b' := by
  cases h with
  | none hp' hq' => exact .none (hp.trans hp') (hq.trans hq')
  | upsert lp r hr hp' hq' => exact .upsert lp r hr (hp.trans hp') (hq.trans hq')
  | delete p lp hl hp' hq' => exact .delete p lp hl (hp.trans hp') (hq.trans hq')

theorem UnlockedChange.congr (h : UnlockedChange a b) (hp : b'.ports = b.ports)
    (hq : b'.orderedEvents = b.orderedEvents) : UnlockedChange a b' := by
  cases h with
  | delete p hp' hq' => exact .delete p (hp.trans hp') (hq.trans hq')
  | send desc hp' hq' => exact .send desc (hp.trans hp') (hq.trans hq')

variable (a)

@[simp] theorem workers_send (r : PortReason) (desc : OfpPort) :
    (a.send r desc).workers = a.workers := rfl

@[simp] theorem workers_setWorker (i : Nat) (w : Worker) :
    (a.setWorker i w).workers = a.workers.set i w := rfl

theorem addLogicalPort_spec (lp : LogicalPort) (ok : Bool) :
    (a.addLogicalPort lp ok).1.workers = a.workers ∧ LockedChange a (a.addLogicalPort lp ok).1 := by
  unfold addLogicalPort
  split
  · exact ⟨rfl, .none rfl rfl⟩
  · split
    · exact ⟨rfl, .upsert lp .add (by decide) rfl rfl⟩
    · exact ⟨rfl, .none rfl rfl⟩

theorem modifyLogicalPort_spec (hk : a.Keys) (portNo : Nat) (f : LogicalPort → LogicalPort)
    (hf : ∀ p, (f p).ofpPort.portNo = p.ofpPort.portNo) (ok : Bool) :
    (a.modifyLogicalPort portNo f ok).1.workers = a.workers ∧
      LockedChange a (a.modifyLogicalPort portNo f ok).1 := by
  unfold modifyLogicalPort
  split
  · exact ⟨rfl, .none rfl rfl⟩
  · rename_i old hold
    split
    · have hn : (f old).ofpPort.portNo = portNo := (hf old).trans (hk portNo old hold)
      exact ⟨rfl, .upsert (f old) .modify (by decide) (by rw [hn]; rfl) rfl⟩
    · exact ⟨rfl, .none rfl rfl⟩

theorem deleteLogicalPort_spec (deviceID : String) (portNo : Nat) (ok : Bool) :
    (a.deleteLogicalPort deviceID portNo ok).1.workers = a.workers ∧
      LockedChange a (a.deleteLogicalPort deviceID portNo ok).1 := by
  unfold deleteLogicalPort
  split
  · exact ⟨rfl, .none rfl rfl⟩
  · rename_i old hold
    split
    · split
      · exact ⟨rfl, .delete portNo old hold rfl rfl⟩
      · exact ⟨rfl, .none rfl rfl⟩
    · exact ⟨rfl, .none rfl rfl⟩

theorem deletePortUnlocked_spec (portNo : Nat) (ok : Bool) :
    (a.deletePortUnlocked portNo ok).1.workers = a.workers ∧
      (LockedChange a (a.deletePortUnlocked portNo ok).1 ∨
        UnlockedChange a (a.deletePortUnlocked portNo ok).1) := by
  unfold deletePortUnlocked
  split
  · exact ⟨rfl, .inl (.none rfl rfl)⟩
  · split
    · exact ⟨rfl, .inr (.delete portNo rfl rfl)⟩
    · exact ⟨rfl, .inl (.none rfl rfl)⟩

/-- What a step from `a` to `a'` does when it is goroutine `i`'s, which was `w`: it sets that
goroutine alone, and changes the store and the queue as a locked step, or, for
`deleteAllLogicalPorts` only, as an unlocked one. -/
def StepSpec (a a' : LogicalAgent) (i : Nat) (w : Worker) : Prop :=
  ∃ w', a'.workers = a.workers.set i w' ∧ (w.Locked → w'.Locked ∧ LockedChange a a') ∧
    (LockedChange a a' ∨ UnlockedChange a a')

theorem StepSpec.returned {r : LogicalAgent × Option AgentError} {i : Nat} {w : Worker}
    (hw : r.1.workers = a.workers) (hc : LockedChange a r.1) :
    StepSpec a (r.1.setWorker i (.returned r.2)) i w :=
  ⟨.returned r.2, by rw [workers_setWorker, hw], fun _ => ⟨trivial, hc.congr rfl rfl⟩,
    .inl (hc.congr rfl rfl)⟩

theorem startOp_spec (hk : a.Keys) (i : Nat) (ok : Bool) (op : Op) :
    StepSpec a (a.startOp i ok op) i (.start op) := by
  cases op with
  | addNNILogicalPort d port =>
    obtain ⟨hw, hc⟩ := a.addLogicalPort_spec (nniPort d port) ok
    exact StepSpec.returned a (r := a.addNNILogicalPort d port ok) hw hc
  | addUNILogicalPort d s o port =>
    simp only [startOp, addUNILogicalPort]
    split_ifs
    · exact StepSpec.returned a (r := (a, none)) rfl (.none rfl rfl)
    · obtain ⟨hw, hc⟩ := a.addLogicalPort_spec (uniPort d port) ok
      exact StepSpec.returned a hw hc
  | updatePortState n o =>
    obtain ⟨hw, hc⟩ := a.modifyLogicalPort_spec hk n (clonePortSetState · o)
      (fun p => by unfold clonePortSetState; split <;> rfl) ok
    exact StepSpec.returned a (r := a.updatePortState n o ok) hw hc
  | enableLogicalPort n =>
    obtain ⟨hw, hc⟩ := a.modifyLogicalPort_spec hk n enablePort (fun _ => rfl) ok
    exact StepSpec.returned a (r := a.enableLogicalPort n ok) hw hc
  | disableLogicalPort n =>
    obtain ⟨hw, hc⟩ := a.modifyLogicalPort_spec hk n disablePort (fun _ => rfl) ok
    exact StepSpec.returned a (r := a.disableLogicalPort n ok) hw hc
  | deleteLogicalPorts d => exact ⟨_, rfl, fun _ => ⟨trivial, .none rfl rfl⟩, .inl (.none rfl rfl)⟩
  | deleteAllLogicalPorts => exact ⟨_, rfl, fun h => absurd rfl h, .inl (.none rfl rfl)⟩

theorem workerStep_spec (hk : a.Keys) {i : Nat} {ok : Bool} {a' : LogicalAgent}
    (h : a.workerStep i ok = some a') : ∃ w, a.workers[i]? = some w ∧ StepSpec a a' i w := by
  unfold workerStep at h
  split at h <;> cases h
  · exact ⟨_, ‹_›, a.startOp_spec hk i ok _⟩
  · rename_i d p _ _
    obtain ⟨hw, hc⟩ := a.deleteLogicalPort_spec d p ok
    refine ⟨_, ‹_›, _, by rw [workers_setWorker, hw], fun _ => ⟨?_, hc.congr rfl rfl⟩,
      .inl (hc.congr rfl rfl)⟩
    split <;> trivial
  · exact ⟨_, ‹_›, _, rfl, fun _ => ⟨trivial, .none rfl rfl⟩, .inl (.none rfl rfl)⟩
  · rename_i p _ _
    obtain ⟨hw, hc⟩ := a.deletePortUnlocked_spec p ok
    exact ⟨.deletingAllPorts _ _, ‹_›, _, by rw [workers_setWorker, hw], fun h => h.elim,
      hc.imp (·.congr rfl rfl) (·.congr rfl rfl)⟩
  · exact ⟨.deletingAllPorts _ _, ‹_›, _, rfl, fun h => h.elim, .inr (.send _ rfl rfl)⟩
  · exact ⟨.deletingAllPorts _ _, ‹_›, _, rfl, fun h => h.elim, .inl (.none rfl rfl)⟩

end LogicalAgent

/-- A table of ports kept from change events, as a controller reading them keeps it (the
controller is outside the sources): an add or a modification stores the description, a
deletion removes the port. -/
def PortEvent.apply (t : AList (fun _ : Nat => OfpPort)) (e : PortEvent) :
    AList (fun _ : Nat => OfpPort) :=
  match e.reason with
  | .add | .modify => t.insert e.desc.portNo e.desc
  | .delete => t.erase e.desc.portNo

/-- The controller's port table after `events`, applied in order to an empty table. -/
def controllerView (events : List PortEvent) (p : Nat) : Option OfpPort :=
  ((events.foldl PortEvent.apply ∅).lookup p)

end Voltha.Device
