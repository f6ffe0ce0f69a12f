import RelayDev.Data
import RelayDev.Lib.Loop

/-! `Relay.cpp`: the configuration of each relay in `relayList`. -/

namespace RelayDev.RelayConvert

open Cpp Text

/-- The members of class `Relay`; only `relayData` has a value before `relayConvert`. -/
structure Relay where
  deviceModifier : Int := 0
  currentRelay : Nat := 0
  relayData : List RelayData := []
  relayAmount : Nat := 0
  deriving DecidableEq, Repr

/-- What the two locals hold that their function may return without a value set:
`chainNumber` of `convertChain`, `deviceNumber` of `convertDevice` at each relay. -/
structure Uninit where
  chainNumber : Int
  deviceNumber : Nat → Int

def digit (c : Char) : Nat := c.toNat - '0'.toNat

def convertPin (input : Input) (relay : Relay) : Result Text := do
  let net ← index input.relayList relay.currentRelay
  let relayName ← index net.name 0
  let lastChar ← back relayName
  if lastChar.isDigit then
    let tens ← charFromEnd relayName 2
    let pinNumber := if tens.isDigit then digit lastChar + digit tens * 10 else digit lastChar
    return "DUT_PIN_".toList ++ numeral pinNumber
  else return "DUT_PIN_1".toList

def convertEnum (input : Input) (relay : Relay) : Result Text := do
  let net ← index input.relayList relay.currentRelay
  let relayName ← index net.name 0
  let lastChar ← back relayName
  let nameBreaks := relayName.findIdxs (· == '_')
  if lastChar.isDigit then
    let front ← index nameBreaks 0
    let last := nameBreaks.getLastD 0
    -- the length is counted from the code of the last character
    let count : Int := lastChar.toNat - last + 1
    let rest ← substrFrom relayName last (if count < 0 then none else some count.toNat)
    return relayName.take (front + 1) ++ "CIB".toList ++ rest
  else
    match findText "SYSGND".toList relayName with
    | some start => return relayName.take start ++ "SYSGND".toList
    | none =>
        match nameBreaks.getLast? with
        | some last => return relayName.take (last + 1) ++ "CIB".toList
        | none => .error .undefined

def convertChain (input : Input) : Option Int :=
  if input.boardType = "Power".toList then some 0
  else if input.boardType = "Precision".toList then some 1
  else none

def expanderRow (net : NetlistData) : Option Nat := net.device.findIdx? (decide <| · = expanderDevice)

def convertDevice (input : Input) (relay : Relay) : Result (Option Int) := do
  let net ← index input.relayList relay.currentRelay
  match expanderRow net with
  | none => return none
  | some i =>
      forIn input.ioData none fun io _ => do
        if io.identifier = (← index net.identifier i) then
          return .done (some (io.position + relay.deviceModifier))
        else return .yield none

def portNumbers : List (Int × String) :=
  [(1, "P8"), (2, "P12"), (3, "P9"), (4, "P13"), (5, "P10"), (6, "P14"), (7, "P11"), (8, "P15"),
    (9, "P16"), (10, "P17"), (12, "P18"), (13, "P19"), (14, "P20"), (15, "P21"), (16, "P22"),
    (17, "P23"), (18, "P24"), (19, "P25"), (21, "P26"), (22, "P27"), (23, "P28"), (24, "P7"),
    (25, "P29"), (26, "P6"), (27, "P30"), (28, "P5"), (29, "P31"), (30, "P4")]

def portNumber (connectionNumber : Int) : Text :=
  ((portNumbers.lookup connectionNumber).getD "").toList

def convertPort (input : Input) (relay : Relay) : Result Text := do
  let net ← index input.relayList relay.currentRelay
  let portIdentifier ←
    match expanderRow net with
    | none => pure []
    | some i => index net.connection i
  return portNumber (← stoi portIdentifier)

def modelOf (input : Input) (device : Text) : Option ModelData :=
  input.modelData.find? fun model => (findText model.relayModel device).isSome

def configOut : Text := "CONFIG_OUT".toList

def convertDriveStrength (input : Input) (relay : Relay) : Result Text := do
  let net ← index input.relayList relay.currentRelay
  forIn net.device configOut fun device driveStrength => do
    let driveStrength := ((modelOf input device).map ModelData.driveStrength).getD driveStrength
    if driveStrength ≠ configOut then return .done driveStrength else return .yield driveStrength

structure Pulldown where
  gndConnection : Bool
  tracker : Nat

def pulldownRow (net : NetlistData) (resistorIdentifier : Text) (k : Nat) (s : Pulldown) :
    Result (ForInStep Pulldown) := do
  if (← index net.identifier k) = resistorIdentifier then
    if (← index net.name k) = "GND".toList then return .done { s with gndConnection := true }
    else if s.tracker + 1 = 2 then return .done { s with tracker := s.tracker + 1 }
    else return .yield { s with tracker := s.tracker + 1 }
  else return .yield s

def pulldownNet (resistorIdentifier : Text) (net : NetlistData) (s : Pulldown) :
    Result (ForInStep Pulldown) := do
  let s ← forIn (List.range net.name.length) s (pulldownRow net resistorIdentifier)
  if s.gndConnection ∨ s.tracker = 2 then return .done s else return .yield s

structure Normal where
  normalState : Text
  resistorIdentifier : Text
  presentRelay : Bool

def normalRow (input : Input) (net : NetlistData) (i : Nat) (s : Normal) :
    Result (ForInStep Normal) := do
  let device ← index net.device i
  let resistorIdentifier ←
    if (findText "RESISTOR".toList device).isSome then index net.identifier i
    else pure s.resistorIdentifier
  let presentRelay := s.presentRelay || (modelOf input device).isSome
  if presentRelay ∧ resistorIdentifier ≠ [] then
    let pulldown ← forIn input.netlistData ⟨false, 0⟩ (pulldownNet resistorIdentifier)
    let normalState := if pulldown.gndConnection then "RELAY_NC".toList else s.normalState
    return .done ⟨normalState, resistorIdentifier, presentRelay⟩
  else return .yield ⟨s.normalState, resistorIdentifier, presentRelay⟩

def convertNormalState (input : Input) (relay : Relay) : Result Text := do
  let net ← index input.relayList relay.currentRelay
  let s ← forIn (List.range net.device.length) (⟨"RELAY_NO".toList, [], false⟩ : Normal)
    (normalRow input net)
  return s.normalState

/-- The entry that one turn of `relayConvert` stores. Every field a turn sets is
set in each turn, so nothing of `temp` but its first value is carried on. -/
def convertRelay (uninit : Uninit) (input : Input) (temp : RelayData) (relay : Relay) :
    Result RelayData := do
  let pin ← convertPin input relay
  let enumeration ← convertEnum input relay
  let deviceNumber := (← convertDevice input relay).getD (uninit.deviceNumber relay.currentRelay)
  let portNumber ← convertPort input relay
  let normalState ← convertNormalState input relay
  let relayName ← index (← index input.relayList relay.currentRelay).name 0
  let driveStrength ←
    if normalState = "RELAY_NC".toList then pure configOut else convertDriveStrength input relay
  return { temp with
    pin, enumeration, deviceNumber, portNumber, normalState, relayName, driveStrength }

def chainSetting (uninit : Uninit) (input : Input) : Int × Int :=
  if (convertChain input).getD uninit.chainNumber = 1 then (1, 18) else (0, 21)

def storeRelay (uninit : Uninit) (input : Input) (temp : RelayData) (relay : Relay)
    (currentRelay : Nat) : Result Relay := do
  let relay := { relay with currentRelay }
  let temp ← convertRelay uninit input temp relay
  return { relay with relayData := relay.relayData ++ [temp] }

def relayConvert (uninit : Uninit) (input : Input) (relay : Relay) : Result Relay := do
  let setting := chainSetting uninit input
  let relayAmount := input.relayList.length
  let relay ← (List.range relayAmount).foldlM
    (storeRelay uninit input { chainNumber := setting.1 })
    { relay with relayAmount, deviceModifier := setting.2 }
  return { relay with currentRelay := relayAmount }

def pickedRow (net : NetlistData) : Option Row :=
  net.rows.find? (decide <| ·.device = expanderDevice)

theorem expanderRow_ofRows (rows : List Row) :
    expanderRow (.ofRows rows) = rows.findIdx? (decide <| ·.device = expanderDevice) := by
  rw [expanderRow, NetlistData.ofRows_device, List.findIdx?_map]
  rfl

theorem expanderRow_eq (net : NetlistData) (parallel : net.Parallel) :
    expanderRow net = net.rows.findIdx? (decide <| ·.device = expanderDevice) := by
  rw [← expanderRow_ofRows, NetlistData.ofRows_rows net parallel]

theorem expanderRow_cases (net : NetlistData) (parallel : net.Parallel) :
    (expanderRow net = none ∧ pickedRow net = none) ∨
      ∃ i row, expanderRow net = some i ∧ net.rows[i]? = some row ∧ pickedRow net = some row := by
  have place := expanderRow_eq net parallel
  have read : pickedRow net = (expanderRow net).bind (net.rows[·]?) := by
    rw [pickedRow, place, List.find?_eq_bind_findIdx?_getElem?]
  cases found : expanderRow net with
  | none => exact .inl ⟨rfl, by rw [read, found]; rfl⟩
  | some i =>
      rw [place] at found
      obtain ⟨bound, _⟩ := List.findIdx?_eq_some_iff_getElem.mp found
      have row := List.getElem?_eq_getElem bound
      exact .inr ⟨i, net.rows[i], rfl, row, by rw [read, place, found, Option.bind_some, row]⟩

theorem index_column {net : NetlistData} (parallel : net.Parallel) {i : Nat} {row : Row}
    (found : net.rows[i]? = some row) :
    index net.identifier i = .ok row.identifier ∧ index net.connection i = .ok row.connection := by
  rw [← NetlistData.ofRows_rows net parallel]
  exact ⟨index_map Row.identifier found, index_map Row.connection found⟩

theorem convertPort_eq {input : Input} {relay : Relay} {net : NetlistData}
    (current : input.relayList[relay.currentRelay]? = some net) (parallel : net.Parallel) :
    convertPort input relay =
      (stoi (((pickedRow net).map Row.connection).getD [])).map portNumber := by
  rw [convertPort, index_of_getElem? current, ok_bind]
  rcases expanderRow_cases net parallel with ⟨found, picked⟩ | ⟨i, row, found, place, picked⟩
  · rw [found, picked]
    rfl
  · rw [found, picked, Option.map_some, Option.getD_some]
    simp only [(index_column parallel place).2, ok_bind]
    cases stoi row.connection <;> rfl

def expanderOf (ioData : List IOData) (identifier : Text) : Option IOData :=
  ioData.find? (decide <| ·.identifier = identifier)

theorem expander_search {net : NetlistData} {i : Nat} {identifier : Text} {modifier : Int}
    (ioData : List IOData) (named : index net.identifier i = .ok identifier) :
    (forIn ioData none fun io _ => do
      if io.identifier = (← index net.identifier i) then
        return .done (some (io.position + modifier))
      else return .yield none : Result (Option Int)) =
      .ok ((expanderOf ioData identifier).map (·.position + modifier)) := by
  simp only [named, ok_bind]
  rw [Loop.forIn_find ioData (decide <| ·.identifier = identifier)
    (fun io => some (io.position + modifier))]
  · rw [expanderOf]
    cases ioData.find? (decide <| ·.identifier = identifier) <;> rfl
  · intro io _
    by_cases same : io.identifier = identifier <;> simp [same]

theorem convertDevice_eq {input : Input} {relay : Relay} {net : NetlistData}
    (current : input.relayList[relay.currentRelay]? = some net) (parallel : net.Parallel) :
    convertDevice input relay = .ok ((pickedRow net).bind fun row =>
      (expanderOf input.ioData row.identifier).map (·.position + relay.deviceModifier)) := by
  rw [convertDevice, index_of_getElem? current, ok_bind]
  rcases expanderRow_cases net parallel with ⟨found, picked⟩ | ⟨i, row, found, place, picked⟩
  · rw [found, picked]
    rfl
  · rw [found, picked]
    exact expander_search _ (index_column parallel place).1

theorem convertDevice_place {input : Input} {relay : Relay} {device : Option Int}
    (converted : convertDevice input relay = .ok device) :
    ∃ place : Option Int, ∀ other : Relay, other.currentRelay = relay.currentRelay →
      convertDevice input other = .ok (place.map (· + other.deviceModifier)) := by
  obtain ⟨net, current, rest⟩ := bind_eq_ok.mp converted
  cases row : expanderRow net with
  | none =>
      refine ⟨none, fun other same => ?_⟩
      rw [convertDevice, same, current, ok_bind, row]
      rfl
  | some i =>
      cases named : index net.identifier i with
      | ok identifier =>
          refine ⟨(expanderOf input.ioData identifier).map IOData.position, fun other same => ?_⟩
          rw [convertDevice, same, current, ok_bind, row, Option.map_map]
          exact expander_search _ named
      | error fault =>
          -- the identifier is read in the loop only, which then has no turn
          cases expanders : input.ioData with
          | nil =>
              refine ⟨none, fun other same => ?_⟩
              rw [convertDevice, same, current, ok_bind, row, expanders]
              rfl
          | cons io ioData =>
              simp only [row, expanders, List.forIn_cons, named, error_bind] at rest
              cases rest

structure Entry (uninit : Uninit) (input : Input) (temp : RelayData) (relay : Relay)
    (entry : RelayData) : Prop where
  pin : convertPin input relay = .ok entry.pin
  enumeration : convertEnum input relay = .ok entry.enumeration
  device : ∃ device, convertDevice input relay = .ok device ∧
    entry.deviceNumber = device.getD (uninit.deviceNumber relay.currentRelay)
  port : convertPort input relay = .ok entry.portNumber
  normalState : convertNormalState input relay = .ok entry.normalState
  name : ∃ net, input.relayList[relay.currentRelay]? = some net ∧
    net.name[0]? = some entry.relayName
  drive : (if entry.normalState = "RELAY_NC".toList then pure configOut
    else convertDriveStrength input relay) = .ok entry.driveStrength
  kept : entry = { temp with
    pin := entry.pin, enumeration := entry.enumeration, deviceNumber := entry.deviceNumber,
    portNumber := entry.portNumber, normalState := entry.normalState,
    relayName := entry.relayName, driveStrength := entry.driveStrength }

theorem convertRelay_eq_ok {uninit : Uninit} {input : Input} {temp entry : RelayData}
    {relay : Relay} :
    convertRelay uninit input temp relay = .ok entry ↔ Entry uninit input temp relay entry := by
  constructor
  · intro converted
    obtain ⟨pin, pinOk, rest⟩ := bind_eq_ok.mp converted
    obtain ⟨enumeration, enumOk, rest⟩ := bind_eq_ok.mp rest
    obtain ⟨device, deviceOk, rest⟩ := bind_eq_ok.mp rest
    obtain ⟨port, portOk, rest⟩ := bind_eq_ok.mp rest
    obtain ⟨normalState, normalOk, rest⟩ := bind_eq_ok.mp rest
    obtain ⟨net, netOk, rest⟩ := bind_eq_ok.mp rest
    obtain ⟨relayName, nameOk, rest⟩ := bind_eq_ok.mp rest
    obtain ⟨driveStrength, driveOk, rest⟩ : ∃ driveStrength,
        (if normalState = "RELAY_NC".toList then pure configOut
          else convertDriveStrength input relay) = .ok driveStrength ∧ _ = entry := by
      split at rest
      · rename_i closed
        obtain ⟨driveStrength, driveOk, rest⟩ := bind_eq_ok.mp rest
        exact ⟨driveStrength, (if_pos closed).trans driveOk, Except.ok.inj rest⟩
      · rename_i opened
        obtain ⟨driveStrength, driveOk, rest⟩ := bind_eq_ok.mp rest
        exact ⟨driveStrength, (if_neg opened).trans driveOk, Except.ok.inj rest⟩
    subst rest
    exact ⟨pinOk, enumOk, ⟨device, deviceOk, rfl⟩, portOk, normalOk,
      ⟨net, index_eq_ok.mp netOk, index_eq_ok.mp nameOk⟩, driveOk, rfl⟩
  · intro stored
    obtain ⟨device, deviceOk, number⟩ := stored.device
    obtain ⟨net, netOk, nameOk⟩ := stored.name
    have drive := stored.drive
    rw [convertRelay]
    simp only [stored.pin, stored.enumeration, deviceOk, stored.port, stored.normalState,
      index_of_getElem? netOk, index_of_getElem? nameOk, ok_bind, ← number]
    by_cases closed : entry.normalState = "RELAY_NC".toList
    · rw [if_pos closed] at drive ⊢
      rw [drive]
      exact congrArg Except.ok stored.kept.symm
    · rw [if_neg closed] at drive ⊢
      rw [drive]
      exact congrArg Except.ok stored.kept.symm

theorem foldlM_storeRelay {uninit : Uninit} {input : Input} {temp : RelayData} {relays : List Nat}
    {relay out : Relay} (stored : relays.foldlM (storeRelay uninit input temp) relay = .ok out) :
    out.relayAmount = relay.relayAmount ∧ ∃ entries, out.relayData = relay.relayData ++ entries ∧
      List.Forall₂ (fun currentRelay entry => convertRelay uninit input temp
        { deviceModifier := relay.deviceModifier, currentRelay } = .ok entry) relays entries := by
  induction relays generalizing relay with
  | nil =>
      cases stored
      exact ⟨rfl, [], by simp, .nil⟩
  | cons currentRelay relays ih =>
      rw [List.foldlM_cons] at stored
      obtain ⟨next, turn, rest⟩ := bind_eq_ok.mp stored
      obtain ⟨entry, converted, same⟩ := bind_eq_ok.mp turn
      cases same
      obtain ⟨amount, entries, appended, each⟩ := ih rest
      exact ⟨amount, entry :: entries, by simp [appended], .cons converted each⟩

theorem relayConvert_entries {uninit : Uninit} {input : Input} {relay out : Relay}
    (converted : relayConvert uninit input relay = .ok out) :
    out.relayAmount = input.relayList.length ∧
      ∃ entries, out.relayData = relay.relayData ++ entries ∧
        List.Forall₂ (fun currentRelay entry => convertRelay uninit input
          { chainNumber := (chainSetting uninit input).1 }
          { deviceModifier := (chainSetting uninit input).2, currentRelay } = .ok entry)
          (List.range input.relayList.length) entries := by
  obtain ⟨last, stored, same⟩ := bind_eq_ok.mp converted
  cases same
  exact foldlM_storeRelay stored

theorem relayConvert_length {uninit : Uninit} {input : Input} {out : Relay}
    (converted : relayConvert uninit input {} = .ok out) :
    out.relayData.length = input.relayList.length ∧ out.relayAmount = input.relayList.length := by
  obtain ⟨amount, entries, stored, each⟩ := relayConvert_entries converted
  rw [stored, List.nil_append, ← each.length_eq, List.length_range]
  exact ⟨rfl, amount⟩

theorem relayConvert_stored {uninit : Uninit} {input : Input} {out : Relay} {k : Nat}
    {entry : RelayData} (converted : relayConvert uninit input {} = .ok out)
    (stored : out.relayData[k]? = some entry) :
    k < input.relayList.length ∧
      convertRelay uninit input { chainNumber := (chainSetting uninit input).1 }
        { deviceModifier := (chainSetting uninit input).2, currentRelay := k } = .ok entry := by
  obtain ⟨_, entries, appended, each⟩ := relayConvert_entries converted
  obtain rfl : out.relayData = entries := appended
  obtain ⟨bound, rfl⟩ := List.getElem?_eq_some_iff.mp stored
  have count := each.length_eq
  have turn := (List.forall₂_iff_get.mp each).2 k (count ▸ bound) bound
  simp only [List.get_eq_getElem, List.getElem_range] at turn
  rw [List.length_range] at count
  exact ⟨count ▸ bound, turn⟩

end RelayDev.RelayConvert
