import Voltha.Device.Queries
import Voltha.Device.Termination

/-!
# What a stored port can be

Only the two adds create a port: `addNNILogicalPort` stores `nniPort`, `addUNILogicalPort`
stores `uniPort`. The updates (`updatePortState`, `enableLogicalPort`, `disableLogicalPort`)
rewrite the state of a stored port and its `OFPPC_PORT_DOWN` bit and nothing else
(`frame_clonePortSetState`, `frame_enablePort`, `frame_disablePort`); the deletions only
remove ports.

`Labelled P` says that every stored port, and every port an add not yet started would store,
satisfies `P`. When `P` reads only what the updates keep, every step of every goroutine keeps
it (`Labelled.step`), so it holds in every reachable state of a run whose adds store ports
satisfying `P` (`Reachable.labelled`). Two instances follow. Every stored port is, but for
its state and that bit, a port one of the run's adds builds (`ports_keep_identity`). And the
agent's two readings of "NNI port" agree: `isNNIPort` reads the `RootPort` flag, while
`GetNNIPorts` and `getAnyNNIPort` list the ports whose `DeviceId` is the root device's. They
agree in every reachable state (`nni_queries_agree`) when the run adds NNI ports only for the
root device and UNI ports only for other devices, as `setupNNILogicalPorts` on
`agent.rootDeviceID` and `setupUNILogicalPorts` on its children do.
-/

namespace Voltha.Device

/-- A port with its state and its `OFPPC_PORT_DOWN` bit cleared: what the updates of a stored
port keep. -/
def LogicalPort.frame (lp : LogicalPort) : LogicalPort :=
  { lp with ofpPort := { lp.ofpPort with config := lp.ofpPort.config &&& ~~~ofppcPortDown, state := 0 } }

theorem and_not_of_or (c m : UInt32) : (c ||| m) &&& ~~~m = c &&& ~~~m := by
  apply UInt32.eq_of_toBitVec_eq
  show (c.toBitVec ||| m.toBitVec) &&& ~~~m.toBitVec = c.toBitVec &&& ~~~m.toBitVec
  ext i
  simp only [BitVec.getLsbD_and, BitVec.getLsbD_or, BitVec.getLsbD_not]
  cases c.toBitVec.getLsbD i <;> cases m.toBitVec.getLsbD i <;> simp

theorem and_not_idem (c m : UInt32) : (c &&& ~~~m) &&& ~~~m = c &&& ~~~m := by
  apply UInt32.eq_of_toBitVec_eq
  show (c.toBitVec &&& ~~~m.toBitVec) &&& ~~~m.toBitVec = c.toBitVec &&& ~~~m.toBitVec
  rw [BitVec.and_assoc, BitVec.and_self]

@[simp] theorem frame_clonePortSetState (lp : LogicalPort) (s : Nat) :
    (clonePortSetState lp s).frame = lp.frame := by
  unfold clonePortSetState LogicalPort.frame
  split <;> simp only [and_not_idem, and_not_of_or]

@[simp] theorem frame_enablePort (lp : LogicalPort) : (LogicalAgent.enablePort lp).frame = lp.frame := by
  simp only [LogicalAgent.enablePort, LogicalPort.frame, and_not_idem]

@[simp] theorem frame_disablePort (lp : LogicalPort) : (LogicalAgent.disablePort lp).frame = lp.frame := by
  simp only [LogicalAgent.disablePort, LogicalPort.frame, and_not_of_or, and_not_idem]

/-- `P` reads only what the updates of a port keep. -/
def FrameStable (P : LogicalPort → Prop) : Prop := ∀ lp lp', lp'.frame = lp.frame → P lp → P lp'

/-- The port an add operation stores; the other operations store none. -/
def Op.added : Op → Option LogicalPort
  | .addNNILogicalPort d port => some (nniPort d port)
  | .addUNILogicalPort d _ _ port => some (uniPort d port)
  | _ => none

/-- The port the operation would add satisfies `P`. -/
def Op.Stores (P : LogicalPort → Prop) (op : Op) : Prop := ∀ lp ∈ op.added, P lp

/-- A goroutine at its first statement runs an operation that `Stores P`. -/
def Worker.Stores (P : LogicalPort → Prop) : Worker → Prop
  | .start op => op.Stores P
  | _ => True

/-- Every port of the store satisfies `P`. -/
def PortsLabelled (P : LogicalPort → Prop) (s : AList (fun _ : Nat => LogicalPort)) : Prop :=
  ∀ p lp, s.lookup p = some lp → P lp

namespace PortsLabelled

variable {P : LogicalPort → Prop} {s : AList (fun _ : Nat => LogicalPort)}

theorem insert (h : PortsLabelled P s) {lp : LogicalPort} (hlp : P lp) (n : Nat) :
    PortsLabelled P (s.insert n lp) := fun p lp' hp => by
  by_cases hn : p = n
  · subst hn
    rw [AList.lookup_insert, Option.some.injEq] at hp
    exact hp ▸ hlp
  · exact h p lp' (by rwa [AList.lookup_insert_ne hn] at hp)

theorem erase (h : PortsLabelled P s) (n : Nat) : PortsLabelled P (s.erase n) := fun p lp hp => by
  by_cases hn : p = n
  · subst hn; simp at hp
  · exact h p lp (by rwa [AList.lookup_erase_ne hn] at hp)

end PortsLabelled

namespace LogicalAgent

variable {P : LogicalPort → Prop} {a : LogicalAgent}

/-- `P` holds of every stored port and of every port an operation not yet started would
add. -/
structure Labelled (P : LogicalPort → Prop) (a : LogicalAgent) : Prop where
  ports : PortsLabelled P a.ports
  workers : ∀ w ∈ a.workers, w.Stores P

/-! ## What each operation stores -/

theorem labelled_addLogicalPort (h : PortsLabelled P a.ports) (lp : LogicalPort) (hlp : P lp)
    (ok : Bool) : PortsLabelled P (a.addLogicalPort lp ok).1.ports := by
  unfold addLogicalPort
  split
  · exact h
  · split
    · exact h.insert hlp _
    · exact h

theorem labelled_modifyLogicalPort (h : PortsLabelled P a.ports) (f : LogicalPort → LogicalPort)
    (hf : ∀ lp, P lp → P (f lp)) (n : Nat) (ok : Bool) :
    PortsLabelled P (a.modifyLogicalPort n f ok).1.ports := by
  unfold modifyLogicalPort
  split
  · exact h
  · rename_i old hold
    split
    · exact h.insert (hf old (h n old hold)) n
    · exact h

theorem labelled_deleteLogicalPort (h : PortsLabelled P a.ports) (d : String) (n : Nat) (ok : Bool) :
    PortsLabelled P (a.deleteLogicalPort d n ok).1.ports := by
  unfold deleteLogicalPort
  split
  · exact h
  · split
    · split
      · exact h.erase n
      · exact h
    · exact h

theorem labelled_deletePortUnlocked (h : PortsLabelled P a.ports) (n : Nat) (ok : Bool) :
    PortsLabelled P (a.deletePortUnlocked n ok).1.ports := by
  unfold deletePortUnlocked
  split
  · exact h
  · split
    · exact h.erase n
    · exact h

/-- Goroutine `i` moves on to a state `w'` that adds nothing more, over a store that is still
labelled. -/
theorem Labelled.setWorker (h : a.Labelled P) {b : LogicalAgent} (hp : PortsLabelled P b.ports)
    (hb : b.workers = a.workers) (i : Nat) {w' : Worker} (hw' : w'.Stores P) :
    (b.setWorker i w').Labelled P :=
  ⟨hp, fun w hw => by
    rw [workers_setWorker, hb] at hw
    rcases List.mem_or_eq_of_mem_set hw with hw | rfl
    exacts [h.workers w hw, hw']⟩

theorem Labelled.startOp (hP : FrameStable P) (h : a.Labelled P) {i : Nat} {op : Op}
    (hop : op.Stores P) (ok : Bool) : (a.startOp i ok op).Labelled P := by
  cases op with
  | addNNILogicalPort d port =>
    exact h.setWorker (labelled_addLogicalPort h.ports _ (hop _ rfl) ok)
      (a.workers_addLogicalPort _ ok) i (by trivial)
  | addUNILogicalPort d s o port =>
    simp only [LogicalAgent.startOp, LogicalAgent.addUNILogicalPort]
    split_ifs
    · exact h.setWorker h.ports rfl i (by trivial)
    · exact h.setWorker (labelled_addLogicalPort h.ports _ (hop _ rfl) ok)
        (a.workers_addLogicalPort _ ok) i (by trivial)
  | updatePortState n s =>
    exact h.setWorker (labelled_modifyLogicalPort h.ports (clonePortSetState · s)
      (fun lp => hP lp _ (frame_clonePortSetState lp s)) n ok)
      (a.workers_modifyLogicalPort n _ ok) i (by trivial)
  | enableLogicalPort n =>
    exact h.setWorker (labelled_modifyLogicalPort h.ports enablePort
      (fun lp => hP lp _ (frame_enablePort lp)) n ok) (a.workers_modifyLogicalPort n _ ok) i
      (by trivial)
  | disableLogicalPort n =>
    exact h.setWorker (labelled_modifyLogicalPort h.ports disablePort
      (fun lp => hP lp _ (frame_disablePort lp)) n ok) (a.workers_modifyLogicalPort n _ ok) i
      (by trivial)
  | deleteLogicalPorts d => exact h.setWorker h.ports rfl i (by trivial)
  | deleteAllLogicalPorts => exact h.setWorker h.ports rfl i (by trivial)

theorem Labelled.workerStep (hP : FrameStable P) (h : a.Labelled P) {i : Nat} {ok : Bool}
    {a' : LogicalAgent} (hs : a.workerStep i ok = some a') : a'.Labelled P := by
  unfold LogicalAgent.workerStep at hs
  split at hs <;> cases hs <;> rename_i hw
  · exact h.startOp hP (h.workers _ (List.getElem?_mem hw)) ok
  · rename_i d p _
    exact h.setWorker (labelled_deleteLogicalPort h.ports d p ok)
      (a.deleteLogicalPort_spec d p ok).1 i (by split <;> trivial)
  · exact h.setWorker h.ports rfl i (by trivial)
  · rename_i p _
    exact h.setWorker (labelled_deletePortUnlocked h.ports p ok)
      (a.deletePortUnlocked_spec p ok).1 i (by split <;> trivial)
  · exact h.setWorker (b := a.send _ _) h.ports rfl i (by trivial)
  · exact h.setWorker h.ports rfl i (by trivial)

theorem Labelled.step (hP : FrameStable P) (h : a.Labelled P) {x : Action} {a' : LogicalAgent}
    (hs : a.step x = some a') : a'.Labelled P := by
  cases x with
  | worker i ok =>
    simp only [LogicalAgent.step] at hs
    split at hs
    · cases hs
    · exact h.workerStep hP hs
  | send k =>
    simp only [LogicalAgent.step] at hs
    split at hs
    · cases hs
    · obtain ⟨q, -, rfl⟩ := Option.map_eq_some'.mp hs
      exact ⟨h.ports, h.workers⟩

/-- Every state of every schedule is labelled when every operation stores ports so. -/
theorem Reachable.labelled (hP : FrameStable P) {ops : List Op} (hops : ∀ op ∈ ops, op.Stores P)
    (h : Reachable (LogicalAgent.init ops) a) : a.Labelled P := by
  induction h with
  | init =>
    refine ⟨fun p lp hp => by simp [LogicalAgent.init] at hp, fun w hw => ?_⟩
    obtain ⟨op, hop, rfl⟩ := List.mem_map.mp hw
    exact hops op hop
  | step _ hs ih => exact ih.step hP hs

/-- In every state of every schedule, with any store failures, every stored port is, but for
its state and its `OFPPC_PORT_DOWN` bit, the port one of the run's adds builds, under its own
number: no operation renames a port, moves it to another device, renumbers it, or changes
another bit of its configuration. -/
theorem ports_keep_identity {ops : List Op} (h : Reachable (LogicalAgent.init ops) a) {p : Nat}
    {lp : LogicalPort} (hl : a.ports.lookup p = some lp) :
    ∃ op ∈ ops, ∃ lp₀ ∈ op.added, lp.frame = lp₀.frame ∧ lp₀.ofpPort.portNo = p := by
  have hL := h.labelled (P := fun lp => ∃ op ∈ ops, ∃ lp₀ ∈ op.added, lp.frame = lp₀.frame)
    (fun _ _ he ⟨op, hop, lp₀, h₀, hf⟩ => ⟨op, hop, lp₀, h₀, he.trans hf⟩)
    (fun op hop lp hlp => ⟨op, hop, lp, hlp, rfl⟩)
  obtain ⟨op, hop, lp₀, h₀, hf⟩ := hL.ports p lp hl
  exact ⟨op, hop, lp₀, h₀, hf, (congrArg (·.ofpPort.portNo) hf).symm.trans (h.keys_inv.1 p lp hl)⟩

end LogicalAgent

/-- An NNI port added, then disabled: the stored port is the one the add built, but for its
`OFPPC_PORT_DOWN` bit. -/
theorem disabled_port_keeps_identity :
    let ops := [Op.addNNILogicalPort "olt" oltPort, .disableLogicalPort 1]
    let a := ((LogicalAgent.init ops).run [.worker 0 true, .worker 1 true]).getD (.init ops)
    ∃ lp, a.ports.lookup 1 = some lp ∧
      ∃ op ∈ ops, ∃ lp₀ ∈ op.added, lp.frame = lp₀.frame ∧ lp₀.ofpPort.portNo = 1 := by
  intro ops a
  obtain ⟨lp, hl⟩ : ∃ lp, a.ports.lookup 1 = some lp := ⟨_, rfl⟩
  exact ⟨lp, hl, LogicalAgent.ports_keep_identity (LogicalAgent.Reachable.init.run_getD _) hl⟩

/-! ## `GetNNIPorts` and `getAnyNNIPort` -/

/-- The root flag marks exactly the ports of the root device. -/
def RootFlagged (root : String) (lp : LogicalPort) : Prop := lp.rootPort = true ↔ lp.deviceId = root

theorem frameStable_rootFlagged (root : String) : FrameStable (RootFlagged root) :=
  fun lp lp' he hp => by
    have hr : lp'.rootPort = lp.rootPort := congrArg (·.rootPort) he
    have hd : lp'.deviceId = lp.deviceId := congrArg (·.deviceId) he
    rwa [RootFlagged, hr, hd]

namespace LogicalAgent

variable (a : LogicalAgent)

/-- `GetNNIPorts`: the ports of the root device. -/
def getNNIPorts (rootDeviceID : String) : List Nat := a.listIDsForDevice rootDeviceID

/-- `getAnyNNIPort`: the first port the range over `ListIDsForDevice` yields. Go leaves the
order of a map's range unspecified; the model takes the order of the store. -/
def getAnyNNIPort (rootDeviceID : String) : Except AgentError Nat :=
  match a.listIDsForDevice rootDeviceID with
  | p :: _ => .ok p
  | [] => .error (.notFound "No NNI port found")

variable {a}

theorem mem_listIDsForDevice {d : String} {p : Nat} :
    p ∈ a.listIDsForDevice d ↔ ∃ lp, a.ports.lookup p = some lp ∧ lp.deviceId = d := by
  simp only [listIDsForDevice, List.mem_map, List.mem_filter, decide_eq_true_eq]
  constructor
  · rintro ⟨⟨q, lp⟩, ⟨he, hd⟩, rfl⟩
    exact ⟨lp, AList.mem_lookup_iff.mpr he, hd⟩
  · rintro ⟨lp, hl, hd⟩
    exact ⟨⟨p, lp⟩, ⟨AList.mem_lookup_iff.mp hl, hd⟩, rfl⟩

/-- Where the flag marks exactly the root device's ports, the root device's ports are the
NNI ports. -/
theorem mem_getNNIPorts_iff {root : String} (h : PortsLabelled (RootFlagged root) a.ports)
    (p : Nat) : p ∈ a.getNNIPorts root ↔ a.isNNIPort p = true := by
  rw [getNNIPorts, mem_listIDsForDevice, isNNIPort_iff]
  exact exists_congr fun lp => and_congr_right fun hl => (h p lp hl).symm

/-- In every state of every schedule of operations that add NNI ports only for the root
device and UNI ports only for other devices, whatever the store failures: `GetNNIPorts` lists
exactly the ports `isNNIPort` accepts, the port `getAnyNNIPort` answers is one, and it
answers `NotFound` exactly when there is none. -/
theorem nni_queries_agree {root : String} {ops : List Op}
    (hops : ∀ op ∈ ops, op.Stores (RootFlagged root))
    (h : Reachable (LogicalAgent.init ops) a) :
    (∀ p, p ∈ a.getNNIPorts root ↔ a.isNNIPort p = true) ∧
    (∀ p, a.getAnyNNIPort root = .ok p → a.isNNIPort p = true) ∧
    (a.getAnyNNIPort root = .error (.notFound "No NNI port found") ↔
      ∀ p, a.isNNIPort p = false) := by
  have hmem := mem_getNNIPorts_iff (h.labelled (frameStable_rootFlagged root) hops).ports
  refine ⟨hmem, fun p hp => ?_, ?_⟩
  · unfold getAnyNNIPort at hp
    split at hp <;> cases hp
    rename_i hl
    exact (hmem p).mp (by rw [getNNIPorts, hl]; exact List.mem_cons_self p _)
  · unfold getAnyNNIPort
    split <;> rename_i hl
    · refine ⟨fun he => (by cases he), fun hn => ?_⟩
      have := (hmem _).mp (by rw [getNNIPorts, hl]; exact List.mem_cons_self _ _)
      rw [hn] at this
      cases this
    · exact ⟨fun _ p => Bool.eq_false_iff.mpr fun hp =>
        absurd ((hmem p).mpr hp) (by rw [getNNIPorts, hl]; exact List.not_mem_nil p), fun _ => rfl⟩

end LogicalAgent

/-- An NNI port of the OLT and a UNI port of an ONU, both added: `GetNNIPorts "olt"` and
`isNNIPort` agree. -/
theorem nni_queries_agree_after_adds :
    let ops := [Op.addNNILogicalPort "olt" oltPort,
      .addUNILogicalPort "onu" adminStateEnabled operStatusActive ⟨16, "uni-16", .ethernetUni, ⟨16, [], "", 0, 0⟩⟩]
    let a := ((LogicalAgent.init ops).run [.worker 0 true, .worker 1 true]).getD (.init ops)
    (∀ op ∈ ops, op.Stores (RootFlagged "olt")) ∧
    (∀ p, p ∈ a.getNNIPorts "olt" ↔ a.isNNIPort p = true) ∧
    (∀ p, a.getAnyNNIPort "olt" = .ok p → a.isNNIPort p = true) ∧
    (a.getAnyNNIPort "olt" = .error (.notFound "No NNI port found") ↔ ∀ p, a.isNNIPort p = false) := by
  intro ops a
  have hops : ∀ op ∈ ops, op.Stores (RootFlagged "olt") := by
    simp [ops, Op.Stores, Op.added, RootFlagged, nniPort, uniPort]
  exact ⟨hops, LogicalAgent.nni_queries_agree hops (LogicalAgent.Reachable.init.run_getD _)⟩

end Voltha.Device
