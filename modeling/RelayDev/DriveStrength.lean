import RelayDev.RelayConvert
import RelayDev.InputData

/-! The model that `convertDriveStrength` takes the drive strength of a relay from. -/

namespace RelayDev.DriveStrength

open Cpp Text RelayConvert InputData

def firstStrength (input : Input) (net : NetlistData) : Text :=
  ((net.device.findSome? (modelOf input)).map ModelData.driveStrength).getD configOut

def rowStrength (input : Input) (device : Text) : Option Text :=
  (modelOf input device).map ModelData.driveStrength

def strengths (input : Input) (net : NetlistData) : List Text :=
  net.device.filterMap (rowStrength input)

/-- If the first of the strengths is the default, no other is behind it. -/
def FirstDecides (input : Input) (net : NetlistData) : Prop :=
  (strengths input net).head? = some configOut →
    ∀ strength ∈ strengths input net, strength = configOut

instance (input : Input) (net : NetlistData) : Decidable (FirstDecides input net) :=
  inferInstanceAs (Decidable (_ → _))

theorem firstStrength_eq (input : Input) (net : NetlistData) :
    firstStrength input net = (strengths input net).head?.getD configOut := by
  rw [firstStrength, strengths, List.head?_filterMap, List.map_findSome?]
  rfl

theorem driveRow_eq (input : Input) (device : Text) :
    (if (rowStrength input device).getD configOut ≠ configOut then
        .ok (.done ((rowStrength input device).getD configOut))
      else .ok (.yield ((rowStrength input device).getD configOut)) :
        Result (ForInStep Text)) =
      .ok (if (rowStrength input device).any (· ≠ configOut) then
        .done ((rowStrength input device).getD configOut) else .yield configOut) := by
  cases rowStrength input device with
  | none => rfl
  | some strength =>
      by_cases default : strength = configOut
      · simp [default]
      · simp [default]

/-- The scan passes over a row that gives the default as over one without a model. -/
theorem convertDriveStrength_eq {input : Input} {relay : Relay} {net : NetlistData}
    (current : input.relayList[relay.currentRelay]? = some net) :
    convertDriveStrength input relay =
      .ok (((strengths input net).find? (· ≠ configOut)).getD configOut) := by
  rw [convertDriveStrength, index_of_getElem? current, ok_bind,
    Loop.forIn_find net.device (fun device => (rowStrength input device).any (· ≠ configOut))
      (fun device => (rowStrength input device).getD configOut) configOut _
      fun device _ => driveRow_eq input device, strengths, List.find?_filterMap]
  cases net.device.find? fun device => (rowStrength input device).any (· ≠ configOut) <;> rfl

/-- The strength is that of the first model found exactly if this one does not have the default
for its own, or no row gives another. -/
theorem convertDriveStrength_first_iff (input : Input) (relay : Relay) (net : NetlistData)
    (current : input.relayList[relay.currentRelay]? = some net) :
    convertDriveStrength input relay = .ok (firstStrength input net) ↔ FirstDecides input net := by
  rw [convertDriveStrength_eq current, Except.ok.injEq, firstStrength_eq]
  exact Loop.find_default_iff (strengths input net) configOut

def twoModels : Input where
  relayList := [.ofRows [⟨"AB_K1_1".toList, "U1".toList, "5".toList, expanderDevice⟩,
    ⟨"AB_K1_1".toList, "K1".toList, "1".toList, "G3VM-41QR10".toList⟩,
    ⟨"AB_K1_1".toList, "K2".toList, "1".toList, "AQY225R3TY".toList⟩]]
  modelData := [⟨"G3VM-41QR10".toList, configOut⟩,
    ⟨"AQY225R3TY".toList, "CONFIG_LED_10p5_mA".toList⟩]

theorem twoModels_overridden :
    twoModels.relayList.map (firstStrength twoModels) = [configOut] ∧
      convertDriveStrength twoModels {} = .ok "CONFIG_LED_10p5_mA".toList ∧
      convertDriveStrength twoModels {} ≠ .ok configOut := by
  decide +kernel

theorem convertDriveStrength_first_iff_twoModels :
    convertDriveStrength twoModels {} = .ok (firstStrength twoModels twoModels.relayList[0]) ↔
      FirstDecides twoModels twoModels.relayList[0] :=
  convertDriveStrength_first_iff twoModels {} twoModels.relayList[0] rfl

def Driven (models : List ModelData) : Prop := ∀ model ∈ models, model.driveStrength ≠ configOut

instance (models : List ModelData) : Decidable (Driven models) :=
  inferInstanceAs (Decidable (∀ model ∈ models, _))

theorem relayModels_driven : Driven relayModels := by decide +kernel

theorem firstDecides_of_driven {input : Input} (driven : Driven input.modelData)
    (net : NetlistData) : FirstDecides input net := by
  intro first
  obtain ⟨device, _, given⟩ := List.mem_filterMap.mp (List.mem_of_head? first)
  obtain ⟨model, found, same⟩ := Option.map_eq_some_iff.mp given
  exact absurd same (driven model (List.mem_of_find?_eq_some found))

theorem relayConvert_driveStrength {uninit : Uninit} {input : Input} {out : Relay} {k : Nat}
    {entry : RelayData} (driven : Driven input.modelData)
    (converted : relayConvert uninit input {} = .ok out)
    (stored : out.relayData[k]? = some entry) :
    ∃ net, input.relayList[k]? = some net ∧ entry.driveStrength =
      if entry.normalState = "RELAY_NC".toList then configOut else firstStrength input net := by
  obtain ⟨_, turn⟩ := relayConvert_stored converted stored
  have parts := convertRelay_eq_ok.mp turn
  obtain ⟨net, current, _⟩ := parts.name
  refine ⟨net, current, ?_⟩
  have drive := parts.drive
  have decides := firstDecides_of_driven driven net
  rw [convertDriveStrength_eq current, (Loop.find_default_iff _ configOut).mpr decides,
    ← firstStrength_eq, pure_eq_ok] at drive
  split at drive
  · rename_i closed
    rw [if_pos closed]
    exact (Except.ok.inj drive).symm
  · rename_i opened
    rw [if_neg opened]
    exact (Except.ok.inj drive).symm

theorem boardRelays_driveStrength {files : Files} {fuel : Nat}
    {billName netlistName boardType : Text} {uninit : Uninit} {read : Input} {out : Relay} {k : Nat}
    {entry : RelayData}
    (loaded : getInputData files fuel { billName, netlistName, boardType } = some (.ok read))
    (converted : relayConvert uninit read {} = .ok out)
    (stored : out.relayData[k]? = some entry) :
    ∃ net, read.relayList[k]? = some net ∧ entry.driveStrength =
      if entry.normalState = "RELAY_NC".toList then configOut else firstStrength read net := by
  obtain ⟨_, _, _, _, _, rfl⟩ := getInputData_outcome rfl rfl rfl loaded
  exact relayConvert_driveStrength relayModels_driven converted stored

end RelayDev.DriveStrength
