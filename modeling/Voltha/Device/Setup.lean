import Voltha.Device.LogicalPorts

/-!
# Setting up the ports of a logical device

`setupNNILogicalPorts` and `setupUNILogicalPorts` range over a device's port map and call
`addNNILogicalPort` or `addUNILogicalPort` on every port of the matching type, assigning
each result to the one `err` they return. Go visits a map in an order it chooses anew on
every range; the model takes the ports as a list in the order the range visits them, so every
order is one list.

The error returned is that of the last matching port visited (`setupPorts_last`): an earlier
failure is overwritten by a later success, and which result survives depends on the order.
-/

namespace Voltha.Device

namespace LogicalAgent

/-- The loop of both setups, from `err`:
`for _, port := range ports { if port.Type == ty { err = add(port) } }`. -/
def setupPorts (ty : PortType) (add : LogicalAgent → Port → LogicalAgent × Option AgentError) :
    LogicalAgent → Option AgentError → List Port → LogicalAgent × Option AgentError
  | a, err, [] => (a, err)
  | a, err, port :: ports =>
      if port.type = ty then
        let r := add a port
        setupPorts ty add r.1 r.2 ports
      else setupPorts ty add a err ports

variable (a : LogicalAgent)

/-- `setupNNILogicalPorts`: `listDevicePorts` answered `devicePorts`, its ports listed in the
order the range visits them; `ok port` is whether the store write for `port` succeeds. -/
def setupNNILogicalPorts (deviceID : String) (devicePorts : Except AgentError (List Port))
    (ok : Port → Bool) : LogicalAgent × Option AgentError :=
  match devicePorts with
  | .error err => (a, some err)
  | .ok ports =>
      a.setupPorts .ethernetNni (fun a port => a.addNNILogicalPort deviceID port (ok port)) none
        ports

/-- `setupUNILogicalPorts`, on the ports of the child device with `childDevice.Id`,
`AdminState` and `OperStatus` as given, in the order the range visits them. -/
def setupUNILogicalPorts (childDeviceId : String) (childAdminState childOperStatus : Nat)
    (childDevicePorts : List Port) (ok : Port → Bool) : LogicalAgent × Option AgentError :=
  a.setupPorts .ethernetUni
    (fun a port => a.addUNILogicalPort childDeviceId childAdminState childOperStatus port (ok port))
    none childDevicePorts

section

variable {ty : PortType} {add : LogicalAgent → Port → LogicalAgent × Option AgentError}

theorem setupPorts_append (err : Option AgentError) (ps qs : List Port) :
    a.setupPorts ty add err (ps ++ qs) =
      (a.setupPorts ty add err ps).1.setupPorts ty add (a.setupPorts ty add err ps).2 qs := by
  induction ps generalizing a err with
  | nil => rfl
  | cons p ps ih =>
    simp only [List.cons_append, setupPorts]
    split_ifs <;> exact ih _ _

/-- A range that meets no port of the type changes nothing. -/
theorem setupPorts_of_forall_ne (err : Option AgentError) {ps : List Port}
    (h : ∀ p ∈ ps, p.type ≠ ty) : a.setupPorts ty add err ps = (a, err) := by
  induction ps with
  | nil => rfl
  | cons p ps ih =>
    rw [setupPorts, if_neg (h p (List.mem_cons_self p ps))]
    exact ih fun q hq => h q (List.mem_cons_of_mem p hq)

/-- The loop returns what `add` returned on the last port of the type it visited. -/
theorem setupPorts_last (err : Option AgentError) (pre post : List Port) {p : Port}
    (hp : p.type = ty) (hpost : ∀ q ∈ post, q.type ≠ ty) :
    (a.setupPorts ty add err (pre ++ p :: post)).2 =
      (add (a.setupPorts ty add err pre).1 p).2 := by
  rw [setupPorts_append, setupPorts, if_pos hp]
  exact congrArg Prod.snd (setupPorts_of_forall_ne _ _ hpost)

end

/-- For every port map and every order the range visits it in, each setup returns what the
add on the last port of its type returned, whatever the adds before it returned. -/
theorem setup_returns_last_add (deviceID childDeviceId : String) (childAdminState
    childOperStatus : Nat) (ok : Port → Bool) (pre post : List Port) (p : Port) :
    (p.type = .ethernetNni → (∀ q ∈ post, q.type ≠ .ethernetNni) →
      (a.setupNNILogicalPorts deviceID (.ok (pre ++ p :: post)) ok).2 =
        ((a.setupNNILogicalPorts deviceID (.ok pre) ok).1.addNNILogicalPort deviceID p
          (ok p)).2) ∧
    (p.type = .ethernetUni → (∀ q ∈ post, q.type ≠ .ethernetUni) →
      (a.setupUNILogicalPorts childDeviceId childAdminState childOperStatus
          (pre ++ p :: post) ok).2 =
        ((a.setupUNILogicalPorts childDeviceId childAdminState childOperStatus pre ok).1.addUNILogicalPort
          childDeviceId childAdminState childOperStatus p (ok p)).2) :=
  ⟨fun hp hpost => setupPorts_last a none pre post hp hpost,
    fun hp hpost => setupPorts_last a none pre post hp hpost⟩

/-- Two NNI ports visited in the order `1`, `2`, and two UNI ports in the order `16`, `17`,
the store writes for ports `2` and `17` failing: each setup returns the failure of the add on
the port visited last. -/
theorem setup_returns_last_add_of_two :
    let p₁ : Port := ⟨1, "nni-1", .ethernetNni, ⟨1, [], "", 0, 0⟩⟩
    let p₂ : Port := ⟨2, "nni-2", .ethernetNni, ⟨2, [], "", 0, 0⟩⟩
    let u₁ : Port := ⟨16, "uni-16", .ethernetUni, ⟨16, [], "", 0, 0⟩⟩
    let u₂ : Port := ⟨17, "uni-17", .ethernetUni, ⟨17, [], "", 0, 0⟩⟩
    let ok : Port → Bool := fun p => p.portNo != 2 && p.portNo != 17
    let a := LogicalAgent.init []
    (a.setupNNILogicalPorts "olt" (.ok [p₁, p₂]) ok).2 =
      ((a.setupNNILogicalPorts "olt" (.ok [p₁]) ok).1.addNNILogicalPort "olt" p₂ (ok p₂)).2 ∧
    (a.setupUNILogicalPorts "onu" adminStateEnabled operStatusActive [u₁, u₂] ok).2 =
      ((a.setupUNILogicalPorts "onu" adminStateEnabled operStatusActive [u₁] ok).1.addUNILogicalPort
        "onu" adminStateEnabled operStatusActive u₂ (ok u₂)).2 := by
  intro p₁ p₂ u₁ u₂ ok a
  exact ⟨(a.setup_returns_last_add "olt" "onu" adminStateEnabled operStatusActive ok [p₁] [] p₂).1
      rfl fun _ h => absurd h (List.not_mem_nil _),
    (a.setup_returns_last_add "olt" "onu" adminStateEnabled operStatusActive ok [u₁] [] u₂).2
      rfl fun _ h => absurd h (List.not_mem_nil _)⟩

end LogicalAgent

/-- Two NNI ports, the store write for port `1` failing. Visited port 1 first, the setup
returns nil although that add failed; visited port 2 first, it returns the failure. The same
for two UNI ports of an enabled, active child, the write for port `16` failing. -/
theorem setup_error_depends_on_order :
    let p₁ : Port := ⟨1, "nni-1", .ethernetNni, ⟨1, [], "", 0, 0⟩⟩
    let p₂ : Port := ⟨2, "nni-2", .ethernetNni, ⟨2, [], "", 0, 0⟩⟩
    let u₁ : Port := ⟨16, "uni-16", .ethernetUni, ⟨16, [], "", 0, 0⟩⟩
    let u₂ : Port := ⟨17, "uni-17", .ethernetUni, ⟨17, [], "", 0, 0⟩⟩
    let ok : Port → Bool := fun p => p.portNo != 1 && p.portNo != 16
    let a := LogicalAgent.init []
    (a.addNNILogicalPort "olt" p₁ (ok p₁)).2 = some .store ∧
    (a.setupNNILogicalPorts "olt" (.ok [p₁, p₂]) ok).2 = none ∧
    (a.setupNNILogicalPorts "olt" (.ok [p₂, p₁]) ok).2 = some .store ∧
    (a.addUNILogicalPort "onu" adminStateEnabled operStatusActive u₁ (ok u₁)).2 = some .store ∧
    (a.setupUNILogicalPorts "onu" adminStateEnabled operStatusActive [u₁, u₂] ok).2 = none ∧
    (a.setupUNILogicalPorts "onu" adminStateEnabled operStatusActive [u₂, u₁] ok).2 =
      some .store :=
  ⟨rfl, rfl, rfl, rfl, rfl, rfl⟩

end Voltha.Device
