import RelayDev.RelayFilter
import RelayDev.RelayConvert

/-! The row that makes a net a relay, and the row its configuration is read from. -/

namespace RelayDev.Selection

open Cpp Text RelayFilter RelayConvert

def pinNumber (row : Row) : Int := Nat.ofDigitChars 10 row.connection 0

/-- The row that `convertPort` and `convertDevice` stop at is a relay row, and they
return the port of its pin and the place of its expander. -/
def ConvertsRelayRow (input : Input) (relay : Relay) (net : NetlistData) : Prop :=
  ∃ i row, expanderRow net = some i ∧ net.rows[i]? = some row ∧ RelayRow row ∧
    convertPort input relay = .ok (portNumber (pinNumber row)) ∧
    convertDevice input relay = .ok ((expanderOf input.ioData row.identifier).map
      (·.position + relay.deviceModifier))

def RelayRowFirst (rows : List Row) : Prop :=
  ∀ (j : Nat) (other : Row), rows[j]? = some other → other.device = expanderDevice →
    ¬ RelayRow other → ∃ (i : Nat) (row : Row), i < j ∧ rows[i]? = some row ∧ RelayRow row

theorem pickedRow_of_relayNet {net : NetlistData} (relay : relayNet net = true) :
    ∃ row, pickedRow net = some row ∧ row ∈ net.rows ∧ row.device = expanderDevice := by
  obtain ⟨relayRow, inside, accepted⟩ := List.any_eq_true.mp relay
  have device : relayRow.device = expanderDevice := (of_decide_eq_true accepted).1
  cases picked : pickedRow net with
  | none =>
      have absent := List.find?_eq_none.mp picked relayRow inside
      simp [device] at absent
  | some row =>
      exact ⟨row, rfl, List.mem_of_find?_eq_some picked,
        of_decide_eq_true (List.find?_some picked :)⟩

theorem picked_relayRow_iff {rows : List Row} {i : Nat} {row : Row}
    (first : rows.findIdx? (decide <| ·.device = expanderDevice) = some i)
    (place : rows[i]? = some row) :
    RelayRow row ↔ RelayRowFirst rows := by
  obtain ⟨bound, device, before⟩ := List.findIdx?_eq_some_iff_getElem.mp first
  obtain rfl : rows[i] = row := Option.some.inj ((List.getElem?_eq_getElem bound).symm.trans place)
  have noEarlier {j : Nat} {other : Row} (found : rows[j]? = some other) (less : j < i) :
      other.device ≠ expanderDevice := by
    obtain ⟨bound', rfl⟩ := List.getElem?_eq_some_iff.mp found
    simpa using before j less
  constructor
  · intro relay j other found onExpander differs
    have apart : j ≠ i := by
      rintro rfl
      rw [place] at found
      cases found
      exact differs relay
    have behind : ¬ j < i := fun less => noEarlier found less onExpander
    exact ⟨i, rows[i], by omega, place, relay⟩
  · intro guarded
    by_contra differs
    obtain ⟨k, relay, less, found, isRelay⟩ := guarded i rows[i] place (of_decide_eq_true device)
      differs
    exact noEarlier found less isRelay.1

/-- On a net the filter accepts, the converters read a relay row exactly when no other
expander row stands before the first relay row. -/
theorem convertsRelayRow_iff (input filtered output : Input) (relay : Relay) (net : NetlistData)
    (parallel : ∀ net ∈ input.netlistData, net.Parallel) (start : input.relayList = [])
    (finished : filterNetlistData input = .ok filtered)
    (sameRelays : output.relayList = filtered.relayList)
    (current : output.relayList[relay.currentRelay]? = some net) :
    ConvertsRelayRow output relay net ↔ RelayRowFirst net.rows := by
  have selected := filterNetlistData_selects input filtered parallel start finished
  have member : net ∈ input.netlistData.filter relayNet := by
    have listed := List.mem_of_getElem? current
    rwa [sameRelays, selected] at listed
  obtain ⟨member, isRelay⟩ := List.mem_filter.mp member
  have columns := parallel net member
  obtain ⟨accepted, read⟩ :=
    filterNetlistData_reads input filtered parallel start finished net member
  obtain ⟨i, row, found, place, picked⟩ : ∃ i row, expanderRow net = some i ∧
      net.rows[i]? = some row ∧ pickedRow net = some row := by
    rcases expanderRow_cases net columns with ⟨_, absent⟩ | some_row
    · obtain ⟨row, picked, _⟩ := pickedRow_of_relayNet isRelay
      rw [absent] at picked
      cases picked
    · exact some_row
  have first := found
  rw [expanderRow_eq net columns] at first
  rw [← picked_relayRow_iff first place]
  constructor
  · rintro ⟨i', row', found', place', relayRow, _⟩
    obtain rfl : i = i' := Option.some.inj (found.symm.trans found')
    obtain rfl : row = row' := Option.some.inj (place.symm.trans place')
    exact relayRow
  · intro relayRow
    obtain ⟨_, readRow⟩ := anyM_readRow_first read picked
    refine ⟨i, row, found, place, relayRow, ?_, ?_⟩
    · rw [convertPort_eq current columns, picked, Option.map_some, Option.getD_some,
        stoi_relayRow relayRow readRow]
      rfl
    · rw [convertDevice_eq current columns, picked, Option.bind_some]

def sharedNets : List NetlistData :=
  [.ofRows [⟨"AB_K1_1".toList, "U1".toList, "EP".toList, expanderDevice⟩,
      ⟨"AB_K1_1".toList, "U1".toList, "5".toList, expanderDevice⟩],
    .ofRows [⟨"AB_K2_2".toList, "U2".toList, "33".toList, expanderDevice⟩,
      ⟨"AB_K2_2".toList, "U1".toList, "7".toList, expanderDevice⟩]]

theorem sharedNets_misread :
    filterNetlistData { netlistData := sharedNets } =
        .ok { netlistData := sharedNets, relayList := sharedNets } ∧
      convertPort { relayList := sharedNets } {} = throwing .invalidArgument ∧
      convertPort { relayList := sharedNets } { currentRelay := 1 } = .ok [] ∧
      ∀ net ∈ sharedNets, ∀ input relay, ¬ ConvertsRelayRow input relay net := by
  refine ⟨by decide, by decide, by decide, ?_⟩
  intro net member input relay converts
  obtain ⟨i, row, found, place, relayRow, _⟩ := converts
  have misread : ∀ net ∈ sharedNets, expanderRow net = some 0 ∧
      ∀ row ∈ net.rows[0]?, ¬ RelayRow row := by decide
  obtain ⟨picked, other⟩ := misread net member
  obtain rfl : 0 = i := Option.some.inj (picked.symm.trans found)
  exact other row place relayRow

theorem convertsRelayRow_iff_sharedNets :
    ConvertsRelayRow { relayList := sharedNets } { currentRelay := 1 } sharedNets[1] ↔
      RelayRowFirst sharedNets[1].rows :=
  convertsRelayRow_iff { netlistData := sharedNets }
    { netlistData := sharedNets, relayList := sharedNets } { relayList := sharedNets }
    { currentRelay := 1 } sharedNets[1] (by decide) rfl (by decide) rfl rfl

end RelayDev.Selection
