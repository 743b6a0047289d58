import Voltha.Device.LogicalPorts

/-!
# Which port of a flow is the UNI

`getUNILogicalPortNo` reads a flow's in-port and out-port and asks the port loader, through
`isNNIPort`, whether each is a root-device port. When the in-port is one, it answers with the
out-port as it is; when only the out-port is one, with the in-port. Neither answer is looked
up again: the port returned may be absent from the store, or an NNI port itself. With no
NNI port on either side the error is `NotFound`, its text naming the flow.
-/

namespace Voltha.Device

/-- `OFPP_CONTROLLER`, the reserved port number of the controller as the `ofp` protobuf
enumeration numbers it; declared outside the sources. -/
def ofppController : Nat := 0x7ffffffd

/-- What `getUNILogicalPortNo` reads of `ofp.OfpFlowStats`: the numbers `fu.GetInPort` and
`fu.GetOutPort` return for it, `0` when the flow has no such field, and the text `%v` prints
for it. The helpers and the printing are outside the sources. -/
structure OfpFlowStats where
  inPort : Nat
  outPort : Nat
  text : String
  deriving DecidableEq, Repr

namespace LogicalAgent

variable (a : LogicalAgent)

/-- `isNNIPort`: the port is in the store and is a root-device port. -/
def isNNIPort (portNo : Nat) : Bool :=
  match a.ports.lookup portNo with
  | none => false
  | some p => p.rootPort

/-- `getUNILogicalPortNo`. -/
def getUNILogicalPortNo (flow : OfpFlowStats) : Except AgentError Nat :=
  let inPortNo := flow.inPort
  let outPortNo := flow.outPort
  let uniPort :=
    if a.isNNIPort inPortNo then outPortNo
    else if a.isNNIPort outPortNo then inPortNo
    else 0
  if uniPort ≠ 0 then .ok uniPort else .error (.notFound ("no-uni-port: " ++ flow.text))

variable {a}

theorem isNNIPort_iff {portNo : Nat} :
    a.isNNIPort portNo = true ↔ ∃ lp, a.ports.lookup portNo = some lp ∧ lp.rootPort = true := by
  unfold isNNIPort
  split <;> simp_all

end LogicalAgent

/-- Two NNI ports `1` and `2` in the store. A flow from port 1 to port 2 gets port 2, an NNI
port, as its UNI; a flow from port 1 to the controller gets `OFPP_CONTROLLER`, which is no
port of the store. Both answers come with a nil error. -/
theorem uni_port_lookup_returns_nni_or_absent :
    let a : LogicalAgent := (((LogicalAgent.init []).addNNILogicalPort "olt"
      ⟨1, "nni-1", .ethernetNni, ⟨1, [], "", 0, 0⟩⟩ true).1.addNNILogicalPort "olt"
        ⟨2, "nni-2", .ethernetNni, ⟨2, [], "", 0, 0⟩⟩ true).1
    a.getUNILogicalPortNo ⟨1, 2, ""⟩ = .ok 2 ∧ a.isNNIPort 2 = true ∧
      a.getUNILogicalPortNo ⟨1, ofppController, ""⟩ = .ok ofppController ∧
      a.ports.lookup ofppController = none :=
  ⟨rfl, rfl, rfl, rfl⟩

end Voltha.Device
