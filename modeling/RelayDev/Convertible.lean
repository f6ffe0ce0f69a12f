import RelayDev.DriveStrength
import RelayDev.Indeterminate
import RelayDev.PullDown
import RelayDev.RelayName

/-! Which nets `relayConvert` makes a record of, and does not fail on. -/

namespace RelayDev.RelayConvert

open Cpp Text RelayName

def Convertible (net : NetlistData) : Prop :=
  (∃ name, net.name[0]? = some name ∧ RelayName.Readable name) ∧
    ∃ row number, pickedRow net = some row ∧ stoi row.connection = .ok number

section Relay

variable {input : Input} {relay : Relay} {net : NetlistData} {name : Text}
  (current : input.relayList[relay.currentRelay]? = some net)
  (named : net.name[0]? = some name) (readable : RelayName.Readable name)

include current named readable

theorem convertPin_returns : ∃ pin, convertPin input relay = .ok pin := by
  have nonempty : name ≠ [] := by
    rintro rfl
    exact absurd readable (by decide)
  cases ended : DigitEnded name with
  | true =>
      have member : '_' ∈ name := by
        rcases readable with member | ⟨_, word⟩
        · exact member
        · rw [ended] at word
          cases word
      exact ⟨_, convertPin_digit current named (two_le_length ended member) ended⟩
  | false =>
      obtain ⟨c, last, other⟩ := last_of_word nonempty ended
      refine ⟨"DUT_PIN_1".toList, ?_⟩
      rw [convertPin, index_of_getElem? current, ok_bind, index_of_getElem? named, ok_bind, back,
        last, ok_bind, if_neg (by simp [other])]
      rfl

theorem convertEnum_returns : ∃ enumeration, convertEnum input relay = .ok enumeration := by
  cases ended : DigitEnded name with
  | true =>
      obtain ⟨c, last, digit⟩ := (Option.any_eq_true _ _).mp ended
      rcases readable with member | ⟨_, word⟩
      · obtain ⟨_, _, read⟩ := convertEnum_digit current named last digit member
        exact ⟨_, read⟩
      · rw [ended] at word
        cases word
  | false =>
      by_cases member : '_' ∈ name
      · exact ⟨_, convertEnum_word_eq current named ended member⟩
      · rcases readable with inside | ⟨ground, _⟩
        · exact absurd inside member
        · have nonempty : name ≠ [] := by
            rintro rfl
            exact absurd ground (by decide)
          obtain ⟨start, found⟩ := Option.isSome_iff_exists.mp ground
          rw [convertEnum_word current named nonempty ended, found]
          exact ⟨_, rfl⟩

end Relay

theorem convertRelay_ok_iff {uninit : Uninit} {input : Input} {temp : RelayData} {relay : Relay}
    {net : NetlistData} (current : input.relayList[relay.currentRelay]? = some net)
    (parallel : net.Parallel) (columns : ∀ net ∈ input.netlistData, net.Parallel) :
    (∃ entry, convertRelay uninit input temp relay = .ok entry) ↔ Convertible net := by
  have port := convertPort_eq current parallel
  constructor
  · rintro ⟨entry, converted⟩
    have fields := convertRelay_eq_ok.mp converted
    obtain ⟨other, found, named⟩ := fields.name
    obtain rfl : net = other := Option.some.inj (current.symm.trans found)
    have defined := (converts_defined_iff current named).mp
      ⟨by simp [Defined, fields.pin], by simp [Defined, fields.enumeration]⟩
    refine ⟨⟨_, named, defined⟩, ?_⟩
    rw [fields.port] at port
    obtain ⟨number, read, _⟩ := map_eq_ok.mp port.symm
    cases picked : pickedRow net with
    | none =>
        rw [picked] at read
        cases read
    | some row =>
        rw [picked] at read
        exact ⟨row, number, rfl, read⟩
  · rintro ⟨⟨name, named, readable⟩, row, number, picked, read⟩
    obtain ⟨pin, pinOk⟩ := convertPin_returns current named readable
    obtain ⟨enumeration, enumOk⟩ := convertEnum_returns current named readable
    have normal := PullDown.convertNormalState_eq columns parallel current
    have drive := DriveStrength.convertDriveStrength_eq current
    obtain ⟨driveStrength, driveOk⟩ : ∃ driveStrength,
        (if PullDown.normalStateOf ((PullDown.decidingResistor input net).any
            (PullDown.Grounded input) = true) = "RELAY_NC".toList then pure configOut
          else convertDriveStrength input relay) = .ok driveStrength := by
      split
      · exact ⟨_, rfl⟩
      · exact ⟨_, drive⟩
    simp only [picked, Option.map_some, Option.getD_some, read, Except.map] at port
    let device := (pickedRow net).bind fun row =>
      (expanderOf input.ioData row.identifier).map (·.position + relay.deviceModifier)
    let entry := { temp with
      pin, enumeration, driveStrength
      deviceNumber := device.getD (uninit.deviceNumber relay.currentRelay)
      portNumber := portNumber number
      normalState := PullDown.normalStateOf ((PullDown.decidingResistor input net).any
        (PullDown.Grounded input))
      relayName := name }
    exact ⟨entry, convertRelay_eq_ok.mpr ⟨pinOk, enumOk, ⟨device, convertDevice_eq current parallel,
      rfl⟩, port, normal, ⟨net, current, named⟩, driveOk, rfl⟩⟩

theorem relayConvert_ok_iff {uninit : Uninit} {input : Input}
    (copied : ∀ net ∈ input.relayList, net.Parallel)
    (columns : ∀ net ∈ input.netlistData, net.Parallel) :
    (∃ relay, relayConvert uninit input {} = .ok relay) ↔
      ∀ net ∈ input.relayList, Convertible net := by
  constructor
  · rintro ⟨relay, converted⟩ net member
    obtain ⟨k, bound, rfl⟩ := List.getElem_of_mem member
    obtain ⟨length, _⟩ := relayConvert_length converted
    have stored := List.getElem?_eq_getElem (length ▸ bound : k < relay.relayData.length)
    have turn := (relayConvert_stored converted stored).2
    exact (@convertRelay_ok_iff _ _ _ { deviceModifier := _, currentRelay := k } _
      (List.getElem?_eq_getElem bound) (copied _ member) columns).mp ⟨_, turn⟩
  · intro convertible
    have each : ∀ k ∈ List.range input.relayList.length, ∀ next : Relay, next.currentRelay = k →
        ∃ entry, convertRelay uninit input { chainNumber := (chainSetting uninit input).1 } next =
          .ok entry := by
      rintro _ member next rfl
      have bound := List.mem_range.mp member
      have listed := List.getElem_mem bound
      exact (convertRelay_ok_iff (List.getElem?_eq_getElem bound) (copied _ listed) columns).mpr
        (convertible _ listed)
    obtain ⟨last, stored⟩ := Indeterminate.foldlM_storeRelay_returns each
    exact ⟨_, bind_eq_ok.mpr ⟨last, stored, rfl⟩⟩

end RelayDev.RelayConvert
