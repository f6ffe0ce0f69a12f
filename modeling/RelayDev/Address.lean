import RelayDev.DeviceOrder
import RelayDev.Selection

/-! The control addresses of the relays: device number and port number. -/

namespace RelayDev.Address

open Cpp Text DeviceOrder RelayFilter RelayConvert Selection

def expanderPins (rows : List Row) : List (Text × Text) :=
  (rows.filter (decide <| ·.device = expanderDevice)).map fun row =>
    (row.identifier, row.connection)

def portPins : List Nat := portNumbers.map (·.1.toNat)

def PortPin (row : Row) : Prop := ∃ pin ∈ portPins, row.connection = numeral pin

instance (row : Row) : Decidable (PortPin row) :=
  inferInstanceAs (Decidable (∃ pin ∈ portPins, _))

theorem portNumber_inj {first second : Nat} (one : first ∈ portPins) (two : second ∈ portPins)
    (same : portNumber first = portNumber second) : first = second := by
  have distinct : ∀ a ∈ portPins, ∀ b ∈ portPins, portNumber a = portNumber b → a = b := by
    decide +kernel
  exact distinct first one second two same

theorem stoi_portPin {pin : Nat} (port : pin ∈ portPins) : stoi (numeral pin) = .ok pin := by
  have small : ∀ n ∈ portPins, n ≤ 30 := by decide
  have bound := small pin port
  exact stoi_numeral pin (by omega)

theorem entry_address {uninit : Uninit} {input : Input} {temp entry : RelayData} {relay : Relay}
    {net : NetlistData} {row : Row} {pin : Nat} {io : IOData}
    (converted : convertRelay uninit input temp relay = .ok entry)
    (current : input.relayList[relay.currentRelay]? = some net) (parallel : net.Parallel)
    (picked : pickedRow net = some row) (port : pin ∈ portPins)
    (connection : row.connection = numeral pin)
    (chained : expanderOf input.ioData row.identifier = some io) :
    entry.deviceNumber = io.position + relay.deviceModifier ∧
      entry.portNumber = portNumber pin := by
  have stored := convertRelay_eq_ok.mp converted
  obtain ⟨device, deviceOk, number⟩ := stored.device
  have portOk := stored.port
  rw [convertDevice_eq current parallel, picked, Option.bind_some, chained] at deviceOk
  rw [convertPort_eq current parallel, picked, Option.map_some, Option.getD_some, connection,
    stoi_portPin port] at portOk
  obtain rfl := Except.ok.inj deviceOk
  exact ⟨number, (Except.ok.inj portOk).symm⟩

theorem relay_pins_disjoint (nets : List NetlistData) (once : (expanderPins (allRows nets)).Nodup) :
    (nets.filter relayNet).Pairwise fun first second =>
      (expanderPins first.rows).Disjoint (expanderPins second.rows) := by
  have split : expanderPins (allRows nets) = nets.flatMap fun net => expanderPins net.rows := by
    simp [expanderPins, allRows, List.filter_flatMap, List.map_flatMap]
  rw [split] at once
  exact (List.nodup_flatMap.mp once).2.sublist List.filter_sublist

section Distinct

variable {uninit : Uninit} {input : Input} {out : Relay}
  (converted : relayConvert uninit input {} = .ok out)
  (parallel : ∀ net ∈ input.relayList, net.Parallel)
  (accepted : ∀ net ∈ input.relayList, relayNet net = true)
  (ports : ∀ net ∈ input.relayList, ∀ row ∈ net.rows, row.device = expanderDevice → PortPin row)
  (chained : ∀ net ∈ input.relayList, ∀ row ∈ net.rows, row.device = expanderDevice →
    ∃ io ∈ input.ioData, io.identifier = row.identifier)

include converted parallel accepted ports chained in
theorem relayConvert_address {k : Nat} {entry : RelayData} (stored : out.relayData[k]? = some entry) :
    ∃ (net : NetlistData) (row : Row) (pin : Nat) (io : IOData),
      input.relayList[k]? = some net ∧
      (row.identifier, row.connection) ∈ expanderPins net.rows ∧ io ∈ input.ioData ∧
      io.identifier = row.identifier ∧ pin ∈ portPins ∧
      row.connection = numeral pin ∧
      entry.deviceNumber = io.position + (chainSetting uninit input).2 ∧
      entry.portNumber = portNumber pin := by
  obtain ⟨bound, turn⟩ := relayConvert_stored converted stored
  have current := List.getElem?_eq_getElem bound
  have member := List.mem_of_getElem? current
  obtain ⟨row, picked, inside, device⟩ := pickedRow_of_relayNet (accepted _ member)
  obtain ⟨pin, port, connection⟩ := ports _ member row inside device
  obtain ⟨some_io, listed, named⟩ := chained _ member row inside device
  have found : (expanderOf input.ioData row.identifier).isSome = true :=
    List.find?_isSome.mpr ⟨some_io, listed, by simpa using named⟩
  obtain ⟨io, first⟩ := Option.isSome_iff_exists.mp found
  obtain ⟨device', port'⟩ := entry_address turn current (parallel _ member) picked port
    connection first
  refine ⟨_, row, pin, io, current, ?_, List.mem_of_find?_eq_some first,
    of_decide_eq_true (List.find?_some first :), port, connection, device', port'⟩
  exact List.mem_map_of_mem (by simp [inside, device])

include converted parallel accepted ports chained in
theorem addresses_nodup
    (disjoint : input.relayList.Pairwise fun first second =>
      (expanderPins first.rows).Disjoint (expanderPins second.rows))
    (positions : ∀ first ∈ input.ioData, ∀ second ∈ input.ioData,
      first.position = second.position → first = second) :
    (out.relayData.map fun relay => (relay.deviceNumber, relay.portNumber)).Nodup := by
  have addressed {k : Nat} {entry : RelayData} (stored : out.relayData[k]? = some entry) :=
    relayConvert_address converted parallel accepted ports chained stored
  rw [List.Nodup, List.pairwise_map, List.pairwise_iff_getElem]
  intro i j iBound jBound less same
  obtain ⟨device, port⟩ := Prod.mk.inj same
  obtain ⟨net, row, pin, io, current, here, listed, named, isPin, connection, number, numbered⟩ :=
    addressed (List.getElem?_eq_getElem iBound)
  obtain ⟨net', row', pin', io', current', here', listed', named', isPin', connection', number',
    numbered'⟩ := addressed (List.getElem?_eq_getElem jBound)
  have samePin : pin = pin' :=
    portNumber_inj isPin isPin' (numbered.symm.trans (port.trans numbered'))
  have sameExpander : io = io' := positions io listed io' listed' (by omega)
  have samePlace : (row.identifier, row.connection) = (row'.identifier, row'.connection) := by
    rw [← named, ← named', connection, connection', samePin, sameExpander]
  obtain ⟨bound, rfl⟩ := List.getElem?_eq_some_iff.mp current
  obtain ⟨bound', rfl⟩ := List.getElem?_eq_some_iff.mp current'
  have apart := List.pairwise_iff_getElem.mp disjoint i j bound bound' less
  exact apart here (samePlace ▸ here')

end Distinct

/-- No two relays get the same control address: the pins of the netlist differ, and
device number and port number together name the pin. -/
theorem relayConvert_addresses_distinct (uninit : Uninit) (input filtered ordered : Input)
    (fuel : Nat) (out : Relay) (parallel : ∀ net ∈ input.netlistData, net.Parallel)
    (noRelays : input.relayList = []) (noExpanders : input.ioData = [])
    (once : (expanderPins (allRows input.netlistData)).Nodup)
    (filter : filterNetlistData input = .ok filtered)
    (order : getDeviceOrder fuel filtered = some (.ok ordered))
    (ports : ∀ net ∈ filtered.relayList, ∀ row ∈ net.rows, row.device = expanderDevice →
      PortPin row)
    (chained : ∀ net ∈ filtered.relayList, ∀ row ∈ net.rows, row.device = expanderDevice →
      ∃ io ∈ ordered.ioData, io.identifier = row.identifier)
    (converted : relayConvert uninit ordered {} = .ok out) :
    (out.relayData.map fun relay => (relay.deviceNumber, relay.portNumber)).Nodup := by
  have selected := filterNetlistData_selects input filtered parallel noRelays filter
  have kept : filtered.netlistData = input.netlistData := by rw [selected]
  have relays : filtered.relayList = input.netlistData.filter relayNet := by rw [selected]
  obtain ⟨head, moved, rfl⟩ : ∃ head moved,
      ordered = { filtered with ioData := chainData (head :: moved) } := by
    rcases getDeviceOrder_outcome filtered (by rwa [kept]) (by rw [selected]; exact noExpanders)
      ⟨fuel, order⟩ with ⟨_, failed⟩ | ⟨head, moved, _, _, same⟩
    · cases failed
    · exact ⟨head, moved, Except.ok.inj same⟩
  refine addresses_nodup converted ?_ ?_ ports chained ?_ ?_
  · intro net member
    exact parallel net (List.mem_of_mem_filter (relays ▸ member))
  · intro net member
    exact (List.mem_filter.mp (relays ▸ member)).2
  · rw [relays]
    exact relay_pins_disjoint input.netlistData once
  · intro first one second two same
    exact chainData_position_inj one two same

def sampleBoard : List NetlistData :=
  [.ofRows [⟨"SDO".toList, "U2".toList, doutPin, expanderDevice⟩],
    .ofRows [⟨"AB_K1_1".toList, "U1".toList, "5".toList, expanderDevice⟩],
    .ofRows [⟨"LINK".toList, "U2".toList, dinPin, expanderDevice⟩,
      ⟨"LINK".toList, "U1".toList, doutPin, expanderDevice⟩],
    .ofRows [⟨"AB_K2_2".toList, "J1".toList, "1".toList, "HEADER".toList⟩,
      ⟨"AB_K2_2".toList, "U2".toList, "5".toList, expanderDevice⟩],
    .ofRows [⟨"AB_K3_13".toList, "U1".toList, "30".toList, expanderDevice⟩],
    .ofRows [⟨"SDI".toList, "U1".toList, dinPin, expanderDevice⟩]]

def sampleFiltered : Input where
  boardType := "Precision".toList
  netlistData := sampleBoard
  relayList := [sampleBoard[1], sampleBoard[3], sampleBoard[4]]

def sampleOrdered : Input := { sampleFiltered with
  ioData := chainData ["U1".toList, "U2".toList] }

def sampleConverted : Relay where
  deviceModifier := 18
  currentRelay := 3
  relayAmount := 3
  relayData :=
    [("DUT_PIN_1", "AB_CIB_1", 19, "P10", "AB_K1_1"), ("DUT_PIN_2", "AB_CIB_2", 20, "P10", "AB_K2_2"),
      ("DUT_PIN_13", "AB_CIB_13", 19, "P4", "AB_K3_13")].map
        fun (pin, enumeration, deviceNumber, portNumber, relayName) =>
          { pin := pin.toList, enumeration := enumeration.toList, chainNumber := 1, deviceNumber,
            portNumber := portNumber.toList, driveStrength := configOut,
            normalState := "RELAY_NO".toList, relayName := relayName.toList }

theorem sampleBoard_addresses_distinct :
    (sampleConverted.relayData.map fun relay => (relay.deviceNumber, relay.portNumber)).Nodup :=
  relayConvert_addresses_distinct ⟨0, fun _ => 0⟩
    { boardType := "Precision".toList, netlistData := sampleBoard } sampleFiltered sampleOrdered 3
    sampleConverted (by decide) rfl rfl (by decide) (by decide) (by decide) (by decide) (by decide)
    (by decide)

end RelayDev.Address
