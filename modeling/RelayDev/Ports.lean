import RelayDev.Selection

/-! Which relay pins have a port. -/

namespace RelayDev.Ports

open Cpp Text RelayFilter RelayConvert Selection

def ports : List Text := (List.range 28).map fun i => 'P' :: numeral (i + 4)

def SingleExpander (net : NetlistData) : Prop :=
  (net.rows.filter (decide <| ·.device = expanderDevice)).length ≤ 1

instance (net : NetlistData) : Decidable (SingleExpander net) :=
  inferInstanceAs (Decidable (_ ≤ _))

def Packaged (row : Row) : Prop := 1 ≤ pinNumber row ∧ pinNumber row ≤ 40

instance (row : Row) : Decidable (Packaged row) := inferInstanceAs (Decidable (_ ∧ _))

theorem portNumber_inside {n : Nat} (positive : 1 ≤ n) (bound : n ≤ 40)
    (relay : (n : Int) ∉ serialPins) : portNumber n ∈ ports := by
  have table : (List.range 41).all (fun n =>
      decide (n = 0 ∨ (n : Int) ∈ serialPins ∨ portNumber n ∈ ports)) = true := by decide +kernel
  have here := of_decide_eq_true (List.all_eq_true.mp table n (List.mem_range.mpr (by omega)))
  rcases here with zero | serial | port
  · omega
  · exact absurd serial relay
  · exact port

theorem portNumber_outside {n : Int} (outside : n < 1 ∨ 40 < n) : portNumber n ∉ ports := by
  have keys : ∀ entry ∈ portNumbers, 1 ≤ entry.1 ∧ entry.1 ≤ 30 := by decide
  have none : portNumbers.lookup n = none := by
    rw [List.lookup_eq_none_iff]
    intro entry member
    have range := keys entry member
    have apart : n ≠ entry.1 := by omega
    simpa using apart
  rw [portNumber, none]
  decide +kernel

theorem portNumber_mem_iff {row : Row} (relay : RelayRow row) :
    portNumber (pinNumber row) ∈ ports ↔ Packaged row := by
  constructor
  · intro port
    by_contra other
    refine portNumber_outside ?_ port
    rw [Packaged] at other
    omega
  · rintro ⟨positive, bound⟩
    rw [pinNumber] at positive bound ⊢
    exact portNumber_inside (by omega) (by omega) relay.2.2.2

theorem singleExpander_eq {net : NetlistData} (single : SingleExpander net) {row other : Row}
    (inside : row ∈ net.rows) (device : row.device = expanderDevice)
    (inside' : other ∈ net.rows) (device' : other.device = expanderDevice) : row = other := by
  have listed : row ∈ net.rows.filter (decide <| ·.device = expanderDevice) :=
    List.mem_filter.mpr ⟨inside, decide_eq_true device⟩
  have listed' : other ∈ net.rows.filter (decide <| ·.device = expanderDevice) :=
    List.mem_filter.mpr ⟨inside', decide_eq_true device'⟩
  rw [SingleExpander] at single
  generalize net.rows.filter (decide <| ·.device = expanderDevice) = rows at single listed listed'
  match rows, single with
  | [], _ => cases listed
  | [only], _ => rw [List.mem_singleton.mp listed, List.mem_singleton.mp listed']

theorem convertPort_mem_iff {input filtered output : Input} {relay : Relay} {net : NetlistData}
    (parallel : ∀ net ∈ input.netlistData, net.Parallel) (start : input.relayList = [])
    (single : ∀ net ∈ input.netlistData, SingleExpander net)
    (finished : filterNetlistData input = .ok filtered)
    (sameRelays : output.relayList = filtered.relayList)
    (current : output.relayList[relay.currentRelay]? = some net) {port : Text}
    (converted : convertPort output relay = .ok port) {row : Row} (inside : row ∈ net.rows)
    (device : row.device = expanderDevice) : port ∈ ports ↔ Packaged row := by
  have selected := filterNetlistData_selects input filtered parallel start finished
  have listed := List.mem_of_getElem? current
  rw [sameRelays, selected] at listed
  obtain ⟨member, relayed⟩ := List.mem_filter.mp listed
  obtain ⟨relayRow, insideNet, accepted⟩ := List.any_eq_true.mp relayed
  have isRelay : RelayRow relayRow := of_decide_eq_true accepted
  obtain ⟨picked, found, insidePicked, onExpander⟩ := pickedRow_of_relayNet relayed
  obtain rfl := singleExpander_eq (single net member) inside device insideNet isRelay.1
  obtain rfl := singleExpander_eq (single net member) inside device insidePicked onExpander
  rw [convertPort_eq current (parallel net member), found, Option.map_some, Option.getD_some,
    stoi_digits _ isRelay.2.2.1, if_neg isRelay.2.1] at converted
  split at converted
  · cases converted
  · cases converted
    exact portNumber_mem_iff isRelay

/-- Where no net has two expander rows, the records have a port exactly for the relays on a pin
between 1 and 40. -/
theorem relayConvert_ports_iff (uninit : Uninit) (input filtered output : Input) (out : Relay)
    (parallel : ∀ net ∈ input.netlistData, net.Parallel) (start : input.relayList = [])
    (single : ∀ net ∈ input.netlistData, SingleExpander net)
    (finished : filterNetlistData input = .ok filtered)
    (sameRelays : output.relayList = filtered.relayList)
    (converted : relayConvert uninit output {} = .ok out) :
    (∀ (k : Nat) entry net row, out.relayData[k]? = some entry →
        filtered.relayList[k]? = some net → row ∈ net.rows → row.device = expanderDevice →
        (entry.portNumber ∈ ports ↔ Packaged row)) ∧
      ((∀ entry ∈ out.relayData, entry.portNumber ∈ ports) ↔
        ∀ net ∈ filtered.relayList, ∀ row ∈ net.rows, row.device = expanderDevice →
          Packaged row) := by
  have each (k : Nat) (entry : RelayData) (net : NetlistData) (row : Row)
      (stored : out.relayData[k]? = some entry) (listed : filtered.relayList[k]? = some net)
      (inside : row ∈ net.rows) (device : row.device = expanderDevice) :
      entry.portNumber ∈ ports ↔ Packaged row := by
    obtain ⟨_, record⟩ := relayConvert_stored converted stored
    have current : output.relayList[k]? = some net := by rw [sameRelays, listed]
    exact @convertPort_mem_iff _ _ _ { deviceModifier := _, currentRelay := k } _ parallel start
      single finished sameRelays current _ (convertRelay_eq_ok.mp record).port _ inside device
  refine ⟨each, ?_⟩
  have relays : ∀ net ∈ filtered.relayList, relayNet net = true := by
    intro net listed
    rw [filterNetlistData_selects input filtered parallel start finished] at listed
    exact (List.mem_filter.mp listed).2
  have count := (relayConvert_length converted).1
  rw [sameRelays] at count
  constructor
  · intro ported net listed row inside device
    obtain ⟨k, bound, rfl⟩ := List.mem_iff_getElem.mp listed
    have stored := List.getElem?_eq_getElem (count ▸ bound)
    exact (each k _ _ row stored (List.getElem?_eq_getElem bound) inside device).mp
      (ported _ (List.getElem_mem _))
  · intro packaged entry member
    obtain ⟨k, bound, rfl⟩ := List.mem_iff_getElem.mp member
    have listed := List.getElem?_eq_getElem (count ▸ bound)
    obtain ⟨row, inside, accepted⟩ := List.any_eq_true.mp (relays _ (List.mem_of_getElem? listed))
    have device : row.device = expanderDevice := (of_decide_eq_true accepted).1
    exact (each k _ _ row (List.getElem?_eq_getElem bound) listed inside device).mpr
      (packaged _ (List.mem_of_getElem? listed) row inside device)

def padInput : Input where
  netlistData := [.ofRows [⟨"AB_K1_1".toList, "U1".toList, "41".toList, expanderDevice⟩],
    .ofRows [⟨"AB_K2_1".toList, "U1".toList, "00".toList, expanderDevice⟩]]

def padRelays : Relay where
  relayAmount := 2
  currentRelay := 2
  deviceModifier := 21
  relayData := [
    { pin := "DUT_PIN_1".toList, enumeration := "AB_CIB_1".toList, deviceNumber := 0,
      driveStrength := configOut, normalState := "RELAY_NO".toList, relayName := "AB_K1_1".toList },
    { pin := "DUT_PIN_1".toList, enumeration := "AB_CIB_1".toList, deviceNumber := 0,
      driveStrength := configOut, normalState := "RELAY_NO".toList, relayName := "AB_K2_1".toList }]

theorem padRelays_portless :
    filterNetlistData padInput = .ok { padInput with relayList := padInput.netlistData } ∧
      relayConvert ⟨0, fun _ => 0⟩ { padInput with relayList := padInput.netlistData } {} =
        .ok padRelays ∧
      ∀ entry ∈ padRelays.relayData, entry.portNumber ∉ ports := by
  decide +kernel

theorem relayConvert_ports_iff_padRelays :
    (∀ (k : Nat) entry net row, padRelays.relayData[k]? = some entry →
        padInput.netlistData[k]? = some net → row ∈ net.rows → row.device = expanderDevice →
        (entry.portNumber ∈ ports ↔ Packaged row)) ∧
      ((∀ entry ∈ padRelays.relayData, entry.portNumber ∈ ports) ↔
        ∀ net ∈ padInput.netlistData, ∀ row ∈ net.rows, row.device = expanderDevice →
          Packaged row) :=
  relayConvert_ports_iff ⟨0, fun _ => 0⟩ padInput
    { padInput with relayList := padInput.netlistData }
    { padInput with relayList := padInput.netlistData } padRelays (by decide) rfl (by decide)
    (by decide +kernel) rfl (by decide +kernel)

end RelayDev.Ports
