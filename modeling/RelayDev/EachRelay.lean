import RelayDev.Indeterminate

/-! Each record of `relayConvert` comes from its own net alone. -/

namespace RelayDev.EachRelay

open Cpp Text RelayConvert Indeterminate InputData

/-- No device number depends on what the locals held, among runs where that of `convertChain`
held one of the values in `holds`. -/
def NumbersDefined (holds : Int → Prop) (input : Input) : Prop :=
  ∀ one two first second, holds one.chainNumber → holds two.chainNumber →
    relayConvert one input {} = .ok first → relayConvert two input {} = .ok second →
    first.relayData.map RelayData.deviceNumber = second.relayData.map RelayData.deviceNumber

def alone (input : Input) (net : NetlistData) : Input := { input with relayList := [net] }

def Placed (input : Input) (net : NetlistData) (place : Int) : Prop :=
  ∀ modifier, convertDevice (alone input net) { deviceModifier := modifier } =
    .ok (some (place + modifier))

def recordOf (input : Input) (setting : Int × Int) (net : NetlistData) : Result RelayData :=
  convertRelay ⟨0, fun _ => 0⟩ (alone input net) { chainNumber := setting.1 }
    { deviceModifier := setting.2 }

section Turn

variable {input : Input} {relay : Relay} {net : NetlistData}

theorem convertDevice_alone (current : input.relayList[relay.currentRelay]? = some net) :
    convertDevice input relay =
      convertDevice (alone input net) { deviceModifier := relay.deviceModifier } := by
  rw [convertDevice, index_of_getElem? current]
  rfl

theorem convertRelay_alone {place : Int} (placed : Placed input net place) (uninit : Uninit)
    (temp : RelayData) (current : input.relayList[relay.currentRelay]? = some net) :
    convertRelay uninit input temp relay =
      convertRelay ⟨0, fun _ => 0⟩ (alone input net) temp
        { deviceModifier := relay.deviceModifier } := by
  have pin : convertPin input relay =
      convertPin (alone input net) { deviceModifier := relay.deviceModifier } := by
    rw [convertPin, index_of_getElem? current]
    rfl
  have enumeration : convertEnum input relay =
      convertEnum (alone input net) { deviceModifier := relay.deviceModifier } := by
    rw [convertEnum, index_of_getElem? current]
    rfl
  have port : convertPort input relay =
      convertPort (alone input net) { deviceModifier := relay.deviceModifier } := by
    rw [convertPort, index_of_getElem? current]
    rfl
  have normalState : convertNormalState input relay =
      convertNormalState (alone input net) { deviceModifier := relay.deviceModifier } := by
    rw [convertNormalState, index_of_getElem? current]
    rfl
  have driveStrength : convertDriveStrength input relay =
      convertDriveStrength (alone input net) { deviceModifier := relay.deviceModifier } := by
    rw [convertDriveStrength, index_of_getElem? current]
    rfl
  have device := placed relay.deviceModifier
  have listed : index (alone input net).relayList 0 = .ok net := rfl
  simp only [convertRelay, pin, enumeration, convertDevice_alone current, device, port,
    normalState, driveStrength, ok_bind, index_of_getElem? current, listed, Option.getD_some]

end Turn

theorem deviceNumber_eq {uninit : Uninit} {input : Input} {out : Relay} {k : Nat}
    {net : NetlistData} (converted : relayConvert uninit input {} = .ok out)
    (current : input.relayList[k]? = some net) :
    ∃ place : Option Int,
      (∀ modifier, convertDevice (alone input net) { deviceModifier := modifier } =
        .ok (place.map (· + modifier))) ∧
      ∀ other run, relayConvert other input {} = .ok run →
        (run.relayData.map RelayData.deviceNumber)[k]? =
          some ((place.map (· + (chainSetting other input).2)).getD (other.deviceNumber k)) := by
  have turn {other : Uninit} {run : Relay} (ran : relayConvert other input {} = .ok run) :
      ∃ entry device, run.relayData[k]? = some entry ∧
        convertDevice (alone input net) { deviceModifier := (chainSetting other input).2 } =
          .ok device ∧ entry.deviceNumber = device.getD (other.deviceNumber k) := by
    obtain ⟨bound, _⟩ := List.getElem?_eq_some_iff.mp current
    rw [← (relayConvert_length ran).1] at bound
    have stored := List.getElem?_eq_getElem bound
    obtain ⟨device, assigned, number⟩ :=
      (convertRelay_eq_ok.mp (relayConvert_stored ran stored).2).device
    rw [@convertDevice_alone input { deviceModifier := _, currentRelay := k } net current]
      at assigned
    exact ⟨_, device, stored, assigned, number⟩
  obtain ⟨_, _, _, assigned, _⟩ := turn converted
  obtain ⟨place, places⟩ := convertDevice_place assigned
  refine ⟨place, fun modifier => places { deviceModifier := modifier } rfl, ?_⟩
  intro other run ran
  obtain ⟨entry, device, stored, assigned, number⟩ := turn ran
  obtain rfl := Except.ok.inj (assigned.symm.trans (places { deviceModifier := _ } rfl))
  rw [List.getElem?_map, stored, Option.map_some, number]

theorem chainSetting_eq {one two : Uninit} {input : Input}
    (same : (chainSetting one input).2 = (chainSetting two input).2) :
    chainSetting one input = chainSetting two input := by
  unfold chainSetting at same ⊢
  split_ifs at same ⊢
  · rfl
  · cases same
  · cases same
  · rfl

section Defined

variable {holds : Int → Prop} {uninit : Uninit} {input : Input} {out : Relay}

theorem numbersDefined_placed (held : holds uninit.chainNumber)
    (converted : relayConvert uninit input {} = .ok out) (defined : NumbersDefined holds input)
    {net : NetlistData} (member : net ∈ input.relayList) :
    (∀ other, holds other.chainNumber →
      chainSetting other input = chainSetting uninit input) ∧ ∃ place, Placed input net place := by
  obtain ⟨k, bound, rfl⟩ := List.mem_iff_getElem.mp member
  obtain ⟨place, places, numbers⟩ := deviceNumber_eq converted (List.getElem?_eq_getElem bound)
  have agree (one two : Uninit) (holdsOne : holds one.chainNumber)
      (holdsTwo : holds two.chainNumber) :
      (place.map (· + (chainSetting one input).2)).getD (one.deviceNumber k) =
        (place.map (· + (chainSetting two input).2)).getD (two.deviceNumber k) := by
    obtain ⟨first, ran⟩ := relayConvert_reruns one converted
    obtain ⟨second, ran'⟩ := relayConvert_reruns two converted
    have same := congrArg (·[k]?) (defined one two first second holdsOne holdsTwo ran ran')
    rw [numbers one first ran, numbers two second ran'] at same
    exact Option.some.inj same
  cases place with
  | none =>
      have differ := agree ⟨uninit.chainNumber, fun _ => 0⟩ ⟨uninit.chainNumber, fun _ => 1⟩
        held held
      exact absurd differ (by simp)
  | some place =>
      refine ⟨fun other holdsOther => chainSetting_eq ?_, place, places⟩
      have same := agree other uninit holdsOther held
      simpa using same

theorem numbersDefined_iff (held : holds uninit.chainNumber)
    (converted : relayConvert uninit input {} = .ok out) :
    NumbersDefined holds input ↔
      ∀ net ∈ input.relayList,
        (∀ other, holds other.chainNumber →
          chainSetting other input = chainSetting uninit input) ∧
        ∃ place, Placed input net place := by
  constructor
  · intro defined net member
    exact numbersDefined_placed held converted defined member
  · intro placed one two first second holdsOne holdsTwo ran ran'
    by_cases none : input.relayList = []
    · rw [relayData_of_no_relays none ran, relayData_of_no_relays none ran']
    · obtain ⟨net, member⟩ := List.exists_mem_of_ne_nil _ none
      have setting := (placed net member).1
      refine congrArg _ (relayData_same ((setting one holdsOne).trans (setting two holdsTwo).symm)
        ?_ ran ran')
      intro relay bound
      obtain ⟨_, place, here⟩ := placed _ (List.getElem_mem bound)
      exact ⟨_, (convertDevice_alone (List.getElem?_eq_getElem bound)).trans (here _)⟩

end Defined

theorem relayConvert_alone {uninit : Uninit} {input : Input} {out : Relay}
    (converted : relayConvert uninit input {} = .ok out)
    (placed : ∀ net ∈ input.relayList, ∃ place, Placed input net place) {k : Nat}
    {net : NetlistData} (current : input.relayList[k]? = some net) :
    ∃ entry, out.relayData[k]? = some entry ∧
      recordOf input (chainSetting uninit input) net = .ok entry := by
  obtain ⟨bound, _⟩ := List.getElem?_eq_some_iff.mp current
  rw [← (relayConvert_length converted).1] at bound
  have stored := List.getElem?_eq_getElem bound
  obtain ⟨place, here⟩ := placed net (List.mem_of_getElem? current)
  have turn := (relayConvert_stored converted stored).2
  rw [@convertRelay_alone input { deviceModifier := _, currentRelay := k } net place here _ _
    current] at turn
  exact ⟨_, stored, turn⟩

theorem relayConvert_returns (uninit : Uninit) {input : Input} {relayList : List NetlistData}
    (placed : ∀ net ∈ relayList, ∃ place, Placed input net place)
    (records : ∀ net ∈ relayList, ∃ setting entry, recordOf input setting net = .ok entry) :
    ∃ run, relayConvert uninit { input with relayList } {} = .ok run := by
  have turns : ∀ k ∈ List.range relayList.length, ∀ next : Relay, next.currentRelay = k →
      ∃ entry, convertRelay uninit { input with relayList }
        { chainNumber := (chainSetting uninit input).1 } next = .ok entry := by
    intro k member next at_k
    obtain ⟨net, current⟩ : ∃ net, relayList[next.currentRelay]? = some net := by
      rw [at_k]
      exact ⟨_, List.getElem?_eq_getElem (List.mem_range.mp member)⟩
    have listed := List.mem_of_getElem? current
    obtain ⟨place, here⟩ := placed net listed
    obtain ⟨setting, entry, converted⟩ := records net listed
    rw [@convertRelay_alone { input with relayList } next net place here _ _ current]
    exact @convertRelay_reruns _ _ _ _ _ _ { deviceModifier := setting.2 } _ rfl converted
  obtain ⟨last, stored⟩ := foldlM_storeRelay_returns turns
  exact ⟨_, bind_eq_ok.mpr ⟨last, stored, rfl⟩⟩

def record (input : Input) (setting : Int × Int) (net : NetlistData) : RelayData :=
  (recordOf input setting net).toOption.getD {}

theorem record_of_ok {input : Input} {setting : Int × Int} {net : NetlistData} {entry : RelayData}
    (converted : recordOf input setting net = .ok entry) : record input setting net = entry := by
  rw [record, converted]
  rfl

theorem relayConvert_records {holds : Int → Prop} {uninit : Uninit} {input : Input} {out : Relay}
    (held : holds uninit.chainNumber) (converted : relayConvert uninit input {} = .ok out)
    (defined : NumbersDefined holds input) (other : Uninit)
    (holdsOther : holds other.chainNumber) {relayList : List NetlistData}
    (within : ∀ net ∈ relayList, net ∈ input.relayList) :
    ∃ run, relayConvert other { input with relayList } {} = .ok run ∧
      run.relayData = relayList.map (record input (chainSetting uninit input)) := by
  have placed (net : NetlistData) (member : net ∈ input.relayList) :=
    (numbersDefined_placed held converted defined member).2
  have records : ∀ net ∈ input.relayList, ∃ setting entry,
      recordOf input setting net = .ok entry := by
    intro net member
    obtain ⟨k, current⟩ := List.mem_iff_getElem?.mp member
    obtain ⟨entry, _, converted⟩ := relayConvert_alone converted placed current
    exact ⟨_, entry, converted⟩
  obtain ⟨run, ran⟩ := relayConvert_returns other (fun net member => placed net (within net member))
    fun net member => records net (within net member)
  refine ⟨run, ran, ?_⟩
  apply List.ext_getElem?
  intro k
  rw [List.getElem?_map]
  cases current : relayList[k]? with
  | none =>
      have short := List.getElem?_eq_none_iff.mp current
      rw [Option.map_none, List.getElem?_eq_none_iff, (relayConvert_length ran).1]
      exact short
  | some net =>
      have member := within net (List.mem_of_getElem? current)
      obtain ⟨entry, stored, turn⟩ := relayConvert_alone ran
        (fun net member => placed net (within net member)) current
      have setting := (numbersDefined_placed held converted defined member).1 other holdsOther
      rw [show chainSetting other { input with relayList } = chainSetting uninit input from setting]
        at turn
      rw [stored, Option.map_some]
      exact congrArg some (record_of_ok turn).symm

/-- With defined device numbers each record is the one of its net on its own, and permuting
the nets permutes the records with them. -/
theorem relayConvert_each (holds : Int → Prop) (uninit : Uninit) (input : Input) (out : Relay)
    (held : holds uninit.chainNumber) (converted : relayConvert uninit input {} = .ok out)
    (defined : NumbersDefined holds input) :
    out.relayAmount = input.relayList.length ∧ out.relayData.length = input.relayList.length ∧
      ∀ other, holds other.chainNumber →
        (∀ (i : Nat) net, input.relayList[i]? = some net →
          ∃ single entry, relayConvert other (alone input net) {} = .ok single ∧
            single.relayData = [entry] ∧ out.relayData[i]? = some entry) ∧
        ∀ relayList : List NetlistData, relayList.Perm input.relayList →
          ∃ permuted, relayConvert other { input with relayList } {} = .ok permuted ∧
            (relayList.zip permuted.relayData).Perm (input.relayList.zip out.relayData) := by
  have records (other : Uninit) (holdsOther : holds other.chainNumber)
      (relayList : List NetlistData) (within : ∀ net ∈ relayList, net ∈ input.relayList) :=
    relayConvert_records held converted defined other holdsOther within
  obtain ⟨length, amount⟩ := relayConvert_length converted
  obtain ⟨run, ran, data⟩ := records uninit held input.relayList fun net member => member
  obtain rfl : out = run := Except.ok.inj (converted.symm.trans ran)
  refine ⟨amount, length, fun other holdsOther => ⟨?_, ?_⟩⟩
  · intro i net current
    have member := List.mem_of_getElem? current
    obtain ⟨single, ranAlone, dataAlone⟩ := records other holdsOther [net]
      fun net' inside => List.mem_singleton.mp inside ▸ member
    exact ⟨single, _, ranAlone, dataAlone, by rw [data, List.getElem?_map, current]; rfl⟩
  · intro relayList perm
    obtain ⟨permuted, ranPermuted, dataPermuted⟩ := records other holdsOther relayList
      fun net member => perm.mem_iff.mp member
    refine ⟨permuted, ranPermuted, ?_⟩
    rw [data, dataPermuted, ← List.map_prod_left_eq_zip, ← List.map_prod_left_eq_zip]
    exact perm.map _

def powerNets : List NetlistData :=
  [.ofRows [⟨"AB_K1_1".toList, "U1".toList, "5".toList, expanderDevice⟩,
      ⟨"AB_K1_1".toList, "K1".toList, "1".toList, "G3VM-41QR10".toList⟩,
      ⟨"AB_K1_1".toList, "R1".toList, "1".toList, "RESISTOR".toList⟩],
    .ofRows [⟨"AB_K2_12".toList, "U1".toList, "6".toList, expanderDevice⟩,
      ⟨"AB_K2_12".toList, "K2".toList, "1".toList, "50935".toList⟩]]

def powerBoard : Input where
  boardType := "Power".toList
  ioData := [⟨"U1".toList, 1⟩]
  modelData := relayModels
  netlistData := powerNets ++
    [.ofRows [⟨"GND".toList, "R1".toList, "2".toList, "RESISTOR".toList⟩]]
  relayList := powerNets

def powerRelays : Relay where
  deviceModifier := 21
  currentRelay := 2
  relayAmount := 2
  relayData := [
    { pin := "DUT_PIN_1".toList, enumeration := "AB_CIB_1".toList, deviceNumber := 22,
      portNumber := "P10".toList, driveStrength := configOut, normalState := "RELAY_NC".toList,
      relayName := "AB_K1_1".toList },
    { pin := "DUT_PIN_12".toList, enumeration := "AB_CIB_12".toList, deviceNumber := 22,
      portNumber := "P14".toList, driveStrength := "CONFIG_LED_21p0_mA".toList,
      normalState := "RELAY_NO".toList, relayName := "AB_K2_12".toList }]

theorem powerBoard_converted : relayConvert ⟨7, fun _ => 7⟩ powerBoard {} = .ok powerRelays := by
  decide +kernel

theorem powerBoard_numbersDefined : NumbersDefined (fun _ => True) powerBoard := by
  have place : ∀ net ∈ powerBoard.relayList, Placed powerBoard net 1 := by
    intro net member modifier
    simp only [powerBoard, powerNets, List.mem_cons, List.not_mem_nil, or_false] at member
    rcases member with rfl | rfl <;> rfl
  apply (@numbersDefined_iff (fun _ => True) _ _ _ trivial powerBoard_converted).mpr
  intro net member
  exact ⟨fun other _ => rfl, 1, place net member⟩

theorem relayConvert_each_powerBoard :
    powerRelays.relayAmount = powerBoard.relayList.length ∧
      powerRelays.relayData.length = powerBoard.relayList.length ∧
      ∀ other : Uninit, True →
        (∀ (i : Nat) net, powerBoard.relayList[i]? = some net →
          ∃ single entry, relayConvert other (alone powerBoard net) {} = .ok single ∧
            single.relayData = [entry] ∧ powerRelays.relayData[i]? = some entry) ∧
        ∀ relayList : List NetlistData, relayList.Perm powerBoard.relayList →
          ∃ permuted, relayConvert other { powerBoard with relayList } {} = .ok permuted ∧
            (relayList.zip permuted.relayData).Perm
              (powerBoard.relayList.zip powerRelays.relayData) :=
  relayConvert_each (fun _ => True) ⟨7, fun _ => 7⟩ powerBoard powerRelays trivial
    powerBoard_converted powerBoard_numbersDefined

end RelayDev.EachRelay
