import RelayDev.Bill
import RelayDev.DeviceOrder
import RelayDev.RelayFilter
import RelayDev.Netlist

/-! `Input::getInputData`: the data of a board, read from its two files. -/

namespace RelayDev.InputData

open Cpp Text Bill DeviceOrder RelayFilter Netlist

def relayModels : List ModelData :=
  [("9901-05-20", "CONFIG_LED_18p0_mA"), ("G3VM-101QR1", "CONFIG_LED_10p5_mA"),
    ("G3VM-41QR10", "CONFIG_LED_10p5_mA"), ("AQY225R3TY", "CONFIG_LED_10p5_mA"),
    ("120-1-A-5/1", "CONFIG_LED_21p0_mA"), ("50935", "CONFIG_LED_21p0_mA")].map
      fun (relayModel, driveStrength) => ⟨relayModel.toList, driveStrength.toList⟩

def getRelayModels (input : Input) : Input :=
  { input with modelData := input.modelData ++ relayModels }

def getInputData (files : Files) (fuel : Nat) (input : Input) : Call Input :=
  andThen (getBillData files fuel (getRelayModels input)) fun input =>
    andThen (some (getNetlistData files input)) fun input =>
      andThen (some (filterNetlistData input)) fun input => getDeviceOrder fuel input

def readNetlist (files : Files) (fuel : Nat) (input : Input) : Call Input :=
  andThen (some (getNetlistData files input)) fun input =>
    andThen (some (filterNetlistData input)) fun input => getDeviceOrder fuel input

theorem readNetlist_cases (files : Files) (input : Input) (noNets : input.netlistData = [])
    (noRelays : input.relayList = []) :
    let nets := fileNets files input.netlistName
    (∃ exception, (readNetlist files · input) = fun _ => some (throwing exception)) ∧
        (∃ net ∈ nets, Stops net.rows) ∨
      (readNetlist files · input) = (getDeviceOrder ·
          { input with netlistData := nets, relayList := nets.filter relayNet }) ∧
        ¬ ∃ net ∈ nets, Stops net.rows := by
  intro nets
  have parallel : ∀ net ∈ nets, net.Parallel := fileNets_parallel files input.netlistName
  simp only [readNetlist, getNetlistData_eq files input noNets, andThen_ok]
  rcases filterNetlistData_cases { input with netlistData := nets } parallel noRelays with
    ⟨⟨exception, throws⟩, stops⟩ | ⟨⟨filtered, finished⟩, reads⟩
  · left
    refine ⟨⟨exception, ?_⟩, stops⟩
    simp only [nets, throws, throwing, andThen_error]
  · right
    refine ⟨?_, reads⟩
    have same := filterNetlistData_selects { input with netlistData := nets } filtered parallel
      noRelays finished
    simp only [nets, finished, andThen_ok, same]

theorem readNetlist_outcome {files : Files} {fuel : Nat} {input read : Input}
    (noNets : input.netlistData = []) (noRelays : input.relayList = [])
    (noExpanders : input.ioData = []) (ended : readNetlist files fuel input = some (.ok read)) :
    let nets := fileNets files input.netlistName
    ∃ head moved, firstLink nets = some head ∧ Chase.Walk (links nets) head moved ∧
      read = { input with
        netlistData := nets
        relayList := nets.filter relayNet
        ioData := chainData (head :: moved) } := by
  intro nets
  rcases readNetlist_cases files input noNets noRelays with ⟨⟨_, throws⟩, _⟩ | ⟨order, _⟩
  · have threw := congrFun throws fuel
    rw [ended] at threw
    cases threw
  · have ordered := (congrFun order fuel).symm.trans ended
    rcases getDeviceOrder_outcome { input with netlistData := nets, relayList := _ }
      (fileNets_parallel files input.netlistName) noExpanders ⟨fuel, ordered⟩ with
      ⟨_, failed⟩ | ⟨head, moved, first, walk, read⟩
    · cases failed
    · exact ⟨head, moved, first, walk, Except.ok.inj read⟩

/-- What is known of an `Input` that `getInputData` has filled: the nets are those of the
file, and the expanders those on the way from the first link. -/
theorem getInputData_outcome {files : Files} {fuel : Nat} {input read : Input}
    (noNets : input.netlistData = []) (noRelays : input.relayList = [])
    (noExpanders : input.ioData = []) (ended : getInputData files fuel input = some (.ok read)) :
    let nets := fileNets files input.netlistName
    ∃ billData head moved, firstLink nets = some head ∧ Chase.Walk (links nets) head moved ∧
      read = { getRelayModels input with
        billData
        netlistData := nets
        relayList := nets.filter relayNet
        ioData := chainData (head :: moved) } := by
  intro nets
  rcases andThen_eq_some.mp ended with ⟨fault, _, failed⟩ | ⟨afterBill, billRead, rest⟩
  · cases failed
  · obtain ⟨_, stored, same, billData, rfl⟩ :=
      (getBillData_returns files (getRelayModels input)).only _ ⟨fuel, billRead⟩
    cases same
    obtain ⟨head, moved, first, walk, rfl⟩ :=
      @readNetlist_outcome files fuel { getRelayModels input with billData } _ noNets noRelays
        noExpanders rest
    exact ⟨billData, head, moved, first, walk, rfl⟩

theorem steady_readNetlist (files : Files) (input : Input) : Steady (readNetlist files · input) :=
  (steady_const _).andThen fun _ => (steady_const _).andThen steady_getDeviceOrder

theorem steady_getInputData (files : Files) (input : Input) : Steady (getInputData files · input) :=
  (steady_getBillData files _).andThen (steady_readNetlist files)

theorem readNetlist_settles_iff (files : Files) (input : Input) (noNets : input.netlistData = [])
    (noRelays : input.relayList = []) (noExpanders : input.ioData = []) :
    Settles (readNetlist files · input) ↔
      (∃ net ∈ fileNets files input.netlistName, Stops net.rows) ∨
        ChainEnds (fileNets files input.netlistName) := by
  rcases readNetlist_cases files input noNets noRelays with
    ⟨⟨exception, throws⟩, stops⟩ | ⟨order, reads⟩
  · rw [throws]
    exact iff_of_true (settles_throwing exception) (.inl stops)
  · rw [order]
    have settled := getDeviceOrder_settles_iff
      { input with
        netlistData := fileNets files input.netlistName
        relayList := (fileNets files input.netlistName).filter relayNet }
      (fileNets_parallel files input.netlistName) noExpanders
    exact settled.trans (or_iff_right reads).symm

/-- Whether `getDeviceOrder` ends on the nets of a file is up to their links alone, and so
whether `getInputData` does, on bills where the identifier cells, as four cuts at commas leave
them of their lines, are closed, and where the filter does not throw. -/
theorem getInputData_settles_iff (files : Files) (billName netlistName : Text) :
    let input : Input := { billName, netlistName }
    ∃ read, getNetlistData files input = .ok read ∧
      (Settles (getDeviceOrder · read) ↔ ChainEnds read.netlistData) ∧
      (Settles (getInputData files · input) ↔
        (∀ line ∈ files.lines billName, LineCloses line) ∧
          ((∃ net ∈ read.netlistData, Stops net.rows) ∨ ChainEnds read.netlistData)) := by
  intro input
  refine ⟨_, getNetlistData_eq files input rfl, ?_, ?_⟩
  · exact getDeviceOrder_settles_iff _ (fileNets_parallel files netlistName) rfl
  · refine (getBillData_returns files (getRelayModels input)).settles_andThen
      (steady_getBillData files _) (steady_readNetlist files) ?_
    rintro _ ⟨billData, rfl⟩
    exact readNetlist_settles_iff files _ rfl rfl rfl

theorem getDeviceOrder_no_nets (fuel : Nat) (input : Input) (noNets : input.netlistData = [])
    (noExpanders : input.ioData = []) : getDeviceOrder fuel input = none := by
  have links : links input.netlistData = [] := by rw [noNets]; rfl
  have first : firstLink input.netlistData = none := by rw [noNets]; rfl
  cases returned : getDeviceOrder fuel input with
  | none => rfl
  | some r =>
      rcases getDeviceOrder_outcome input (by simp [noNets]) noExpanders ⟨fuel, returned⟩ with
        ⟨linked, _⟩ | ⟨head, moved, found, _⟩
      · exact absurd links linked
      · rw [first] at found
        cases found

theorem getInputData_without_netlist :
    let files : Files := fun _ => none
    getNetlistData files {} = .ok {} ∧ (∀ fuel, getDeviceOrder fuel {} = none) ∧
      ∀ fuel, getInputData files fuel {} = none := by
  refine ⟨rfl, fun fuel => getDeviceOrder_no_nets fuel {} rfl rfl, fun fuel => ?_⟩
  exact getDeviceOrder_no_nets fuel (getRelayModels {}) rfl rfl

def singleBoard : Files := fun path =>
  if path = "netlist.txt".toList then
    some (List.intercalate ['\n']
      ["SDI U1 33 ".toList ++ expanderDevice, "SDO U1 40 ".toList ++ expanderDevice,
        "AB_K1_1 U1 5 ".toList ++ expanderDevice, []])
  else none

def singleNets : List NetlistData :=
  [.ofRows [⟨"SDI".toList, "U1".toList, dinPin, expanderDevice⟩],
    .ofRows [⟨"SDO".toList, "U1".toList, doutPin, expanderDevice⟩],
    .ofRows [⟨"AB_K1_1".toList, "U1".toList, "5".toList, expanderDevice⟩]]

theorem singleBoard_nets : fileNets singleBoard "netlist.txt".toList = singleNets := by
  decide +kernel

/-- The `Input` of a request: `handleQuery` leaves `boardType` empty. -/
def singleRead : Input where
  billName := "bom.csv".toList
  netlistName := "netlist.txt".toList
  netlistData := singleNets
  relayList := [singleNets[2]]
  ioData := chainData ["U1".toList]
  modelData := relayModels

theorem singleBoard_read :
    getInputData singleBoard 5
        { billName := "bom.csv".toList, netlistName := "netlist.txt".toList } =
      some (.ok singleRead) := by
  decide +kernel

end RelayDev.InputData
