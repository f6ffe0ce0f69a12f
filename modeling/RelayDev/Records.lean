import RelayDev.Saving
import RelayDev.InputData

/-! The records of the relays, as lines of a file and as rows of a table. -/

namespace RelayDev.Output

open Cpp Text RelayConvert Loop InputData Netlist RelayFilter
open DeviceOrder (dinPin doutPin chainData)

/-- Parameters 3 to 16 of the statement for a relay. -/
def recordValues (entry : RelayData) : List Value :=
  [.text entry.pin, .text entry.enumeration, .int entry.chainNumber, .int entry.deviceNumber,
    .text entry.portNumber, .text entry.driveStrength, .text entry.normalState,
    .int entry.minOpenTime, .int entry.typOpenTime, .int entry.maxOpenTime,
    .int entry.minCloseTime, .int entry.typCloseTime, .int entry.maxCloseTime,
    .text entry.relayName]

def recordRows (entries : List RelayData) : List (List Value) :=
  entries.mapIdx fun i entry => .int 1 :: .int i :: recordValues entry

def Value.cell : Value → Text
  | .int n => written n
  | .text s => s

def recordCells (line : Text) : Option (List Text) :=
  if "RELAY(".toList <+: line ∧ line.getLast? = some ')' then
    some ((line.drop 6).dropLast.splitOn ',')
  else none

def readDigits (s : Text) : Option Nat :=
  if s ≠ [] ∧ s.all Char.isDigit = true then some (Nat.ofDigitChars 10 s 0) else none

def readNumber : Text → Option Int
  | '-' :: digits => (readDigits digits).map fun n => -(n : Int)
  | digits => (readDigits digits).map Int.ofNat

def readRecord : List Text → Option RelayData
  | [pin, enumeration, chainNumber, deviceNumber, portNumber, driveStrength, normalState,
      minOpenTime, typOpenTime, maxOpenTime, minCloseTime, typCloseTime, maxCloseTime,
      relayName] => do
    let entry : RelayData :=
      { pin, enumeration, portNumber, driveStrength, normalState, relayName }
    return { entry with
      chainNumber := ← readNumber chainNumber
      deviceNumber := ← readNumber deviceNumber
      minOpenTime := ← readNumber minOpenTime
      typOpenTime := ← readNumber typOpenTime
      maxOpenTime := ← readNumber maxOpenTime
      minCloseTime := ← readNumber minCloseTime
      typCloseTime := ← readNumber typCloseTime
      maxCloseTime := ← readNumber maxCloseTime }
  | _ => none

def IsCell (s : Text) : Prop := ',' ∉ s ∧ '\n' ∉ s

instance (s : Text) : Decidable (IsCell s) := inferInstanceAs (Decidable (_ ∧ _))

theorem IsCell.subset {s t : Text} (cell : IsCell s) (part : t ⊆ s) : IsCell t :=
  ⟨fun member => cell.1 (part member), fun member => cell.2 (part member)⟩

theorem IsCell.append {s t : Text} (first : IsCell s) (second : IsCell t) : IsCell (s ++ t) := by
  simp only [IsCell, List.mem_append, not_or]
  exact ⟨⟨first.1, second.1⟩, first.2, second.2⟩

theorem isCell_digits {s : Text} (digits : ∀ c ∈ s, c.isDigit = true) : IsCell s :=
  ⟨fun member => absurd (digits _ member) (by decide),
    fun member => absurd (digits _ member) (by decide)⟩

theorem isCell_numeral (n : Nat) : IsCell (numeral n) := isCell_digits fun _ => isDigit_numeral

theorem written_cases (n : Int) :
    (∃ k : Nat, n = k ∧ written n = numeral k) ∨
      ∃ k : Nat, n = -(k : Int) ∧ written n = '-' :: numeral k := by
  cases n with
  | ofNat k => exact .inl ⟨k, rfl, by simp [written, numeral, toString, Int.repr, Nat.repr]⟩
  | negSucc k =>
      refine .inr ⟨k + 1, rfl, ?_⟩
      simp [written, numeral, toString, Int.repr, Nat.repr]

theorem isCell_written (n : Int) : IsCell (written n) := by
  rcases written_cases n with ⟨k, _, same⟩ | ⟨k, _, same⟩
  · rw [same]
    exact isCell_numeral k
  · rw [same]
    exact IsCell.append (s := ['-']) (by decide) (isCell_numeral k)

theorem readDigits_numeral (n : Nat) : readDigits (numeral n) = some n := by
  rw [readDigits, if_pos ⟨numeral_nonempty n, numeral_digits n⟩, numeral_value]

theorem readNumber_written (n : Int) : readNumber (written n) = some n := by
  rcases written_cases n with ⟨k, rfl, same⟩ | ⟨k, rfl, same⟩
  · rw [same, readNumber, readDigits_numeral]
    · rfl
    · rintro digits first
      have minus : '-' ∈ numeral k := first ▸ List.mem_cons_self
      exact absurd (isDigit_numeral minus) (by decide)
  · rw [same, readNumber, readDigits_numeral]
    rfl

structure Recordable (entry : RelayData) : Prop where
  pin : IsCell entry.pin
  enumeration : IsCell entry.enumeration
  portNumber : IsCell entry.portNumber
  driveStrength : IsCell entry.driveStrength
  normalState : IsCell entry.normalState
  relayName : IsCell entry.relayName

theorem recordValues_cells {entry : RelayData} (recordable : Recordable entry) :
    ∀ cell ∈ (recordValues entry).map Value.cell, IsCell cell := by
  obtain ⟨pin, enumeration, portNumber, driveStrength, normalState, relayName⟩ := recordable
  simp [recordValues, Value.cell, isCell_written, pin, enumeration, portNumber, driveStrength,
    normalState, relayName]

theorem readRecord_cells (entry : RelayData) :
    readRecord ((recordValues entry).map Value.cell) = some entry := by
  simp [recordValues, Value.cell, readRecord, readNumber_written]

theorem configLine_eq (entry : RelayData) :
    configLine entry = "RELAY(".toList ++
      List.intercalate [','] ((recordValues entry).map Value.cell) ++ [')'] := rfl

theorem recordCells_framed (inside : Text) :
    recordCells ("RELAY(".toList ++ inside ++ [')']) = some (inside.splitOn ',') := by
  have framed : "RELAY(".toList <+: "RELAY(".toList ++ inside ++ [')'] ∧
      ("RELAY(".toList ++ inside ++ [')']).getLast? = some ')' :=
    ⟨⟨inside ++ [')'], by rw [List.append_assoc]⟩, List.getLast?_concat⟩
  have rest : ("RELAY(".toList ++ inside ++ [')']).drop 6 = inside ++ [')'] := by
    rw [List.append_assoc]
    exact List.drop_left' rfl
  rw [recordCells, if_pos framed, rest, List.dropLast_concat]

theorem recordCells_configLine {entry : RelayData} (recordable : Recordable entry) :
    recordCells (configLine entry) = some ((recordValues entry).map Value.cell) := by
  have cells := recordValues_cells recordable
  rw [configLine_eq, recordCells_framed]
  congr 1
  exact List.splitOn_intercalate ',' (fun cell member => (cells cell member).1)
    (by simp [recordValues])

theorem configLine_unbroken {entry : RelayData} (recordable : Recordable entry) :
    '\n' ∉ configLine entry := by
  rw [configLine_eq]
  intro member
  rcases List.mem_append.mp member with front | last
  · rcases List.mem_append.mp front with word | inside
    · exact absurd word (by decide)
    · rcases mem_intercalate inside with comma | ⟨cell, listed, broken⟩
      · exact absurd comma (by decide)
      · exact (recordValues_cells recordable cell listed).2 broken
  · exact absurd last (by decide)

theorem convertPin_cell {input : Input} {relay : Relay} {pin : Text}
    (converted : convertPin input relay = .ok pin) : IsCell pin := by
  obtain ⟨net, _, rest⟩ := bind_eq_ok.mp converted
  obtain ⟨relayName, _, rest⟩ := bind_eq_ok.mp rest
  obtain ⟨lastChar, _, rest⟩ := bind_eq_ok.mp rest
  split at rest
  · obtain ⟨tens, _, rest⟩ := bind_eq_ok.mp rest
    cases rest
    apply IsCell.append
    · decide
    · exact isCell_numeral _
  · cases rest
    decide

theorem convertEnum_cell {input : Input} {relay : Relay} {enumeration : Text}
    (names : ∀ net ∈ input.relayList, ∀ name ∈ net.name, IsCell name)
    (converted : convertEnum input relay = .ok enumeration) : IsCell enumeration := by
  obtain ⟨net, found, rest⟩ := bind_eq_ok.mp converted
  obtain ⟨relayName, named, rest⟩ := bind_eq_ok.mp rest
  obtain ⟨lastChar, _, rest⟩ := bind_eq_ok.mp rest
  have cell : IsCell relayName :=
    names net (List.mem_of_getElem? (index_eq_ok.mp found)) relayName
      (List.mem_of_getElem? (index_eq_ok.mp named))
  have front (count : Nat) : IsCell (relayName.take count) :=
    cell.subset (List.take_subset count relayName)
  split at rest
  · obtain ⟨break_, _, rest⟩ := bind_eq_ok.mp rest
    obtain ⟨last, cut, rest⟩ := bind_eq_ok.mp rest
    cases rest
    have word : IsCell "CIB".toList := by decide
    exact ((front _).append word).append (cell.subset (substrFrom_subset cut))
  · split at rest
    · cases rest
      have word : IsCell "SYSGND".toList := by decide
      exact (front _).append word
    · dsimp only at rest
      split at rest
      · cases rest
        have word : IsCell "CIB".toList := by decide
        exact (front _).append word
      · cases rest

theorem portNumber_cell (connectionNumber : Int) : IsCell (portNumber connectionNumber) := by
  have ports : ∀ entry ∈ portNumbers, IsCell entry.2.toList := by decide
  rw [portNumber]
  cases found : portNumbers.lookup connectionNumber with
  | none => decide
  | some port =>
      obtain ⟨before, after, same, _⟩ := List.lookup_eq_some_iff.mp found
      exact ports (connectionNumber, port) (by simp [same])

theorem convertPort_cell {input : Input} {relay : Relay} {port : Text}
    (converted : convertPort input relay = .ok port) : IsCell port := by
  obtain ⟨net, _, rest⟩ := bind_eq_ok.mp converted
  have read (portIdentifier : Text)
      (rest : (stoi portIdentifier >>= fun number => pure (portNumber number)) = .ok port) :
      IsCell port := by
    obtain ⟨connectionNumber, _, rest⟩ := bind_eq_ok.mp rest
    cases rest
    exact portNumber_cell connectionNumber
  dsimp only at rest
  split at rest
  · exact read [] rest
  · obtain ⟨portIdentifier, _, rest⟩ := bind_eq_ok.mp rest
    exact read portIdentifier rest

theorem convertDriveStrength_cell {input : Input} {relay : Relay} {driveStrength : Text}
    (models : ∀ model ∈ input.modelData, IsCell model.driveStrength)
    (converted : convertDriveStrength input relay = .ok driveStrength) : IsCell driveStrength := by
  obtain ⟨net, _, looped⟩ := bind_eq_ok.mp converted
  refine forIn_invariant IsCell _ _ ?_ (by decide) looped
  intro device s next cell stepped
  have driven : IsCell (((modelOf input device).map ModelData.driveStrength).getD s) := by
    cases found : modelOf input device with
    | none => exact cell
    | some model => exact models model (List.mem_of_find?_eq_some found)
  dsimp only at stepped
  split at stepped
  · rcases stepped with same | same
    · cases same
    · cases same
      exact driven
  · rcases stepped with same | same
    · cases same
      exact driven
    · cases same

theorem normalRow_cell {input : Input} {net : NetlistData} {i : Nat} {s next : Normal}
    (cell : IsCell s.normalState)
    (stepped : normalRow input net i s = .ok (.yield next) ∨
      normalRow input net i s = .ok (.done next)) : IsCell next.normalState := by
  obtain ⟨r, returned, same⟩ : ∃ r, normalRow input net i s = .ok r ∧
      (r = .yield next ∨ r = .done next) := by
    rcases stepped with stepped | stepped
    · exact ⟨_, stepped, .inl rfl⟩
    · exact ⟨_, stepped, .inr rfl⟩
  have turn (presentRelay : Bool) (resistorIdentifier : Text)
      (rest : (if presentRelay = true ∧ resistorIdentifier ≠ [] then do
          let pulldown ← forIn input.netlistData ⟨false, 0⟩ (pulldownNet resistorIdentifier)
          return .done ⟨if pulldown.gndConnection then "RELAY_NC".toList else s.normalState,
            resistorIdentifier, presentRelay⟩
        else return .yield ⟨s.normalState, resistorIdentifier, presentRelay⟩ : Result _) =
          .ok r) : IsCell next.normalState := by
    split at rest
    · obtain ⟨pulldown, _, rest⟩ := bind_eq_ok.mp rest
      cases rest
      rcases same with other | last
      · cases other
      · cases last
        dsimp only
        split
        · decide
        · exact cell
    · cases rest
      rcases same with last | other
      · cases last
        exact cell
      · cases other
  obtain ⟨device, _, rest⟩ := bind_eq_ok.mp returned
  dsimp only at rest
  split at rest
  · obtain ⟨resistorIdentifier, _, rest⟩ := bind_eq_ok.mp rest
    exact turn _ resistorIdentifier rest
  · exact turn _ s.resistorIdentifier rest

theorem convertNormalState_cell {input : Input} {relay : Relay} {normalState : Text}
    (converted : convertNormalState input relay = .ok normalState) : IsCell normalState := by
  obtain ⟨net, _, rest⟩ := bind_eq_ok.mp converted
  obtain ⟨last, looped, rest⟩ := bind_eq_ok.mp rest
  cases rest
  refine forIn_invariant (fun s : Normal => IsCell s.normalState) _ _ ?_ (by decide) looped
  intro i s next
  exact normalRow_cell

theorem entry_driveStrength_cell {uninit : Uninit} {input : Input} {temp entry : RelayData}
    {relay : Relay} (models : ∀ model ∈ input.modelData, IsCell model.driveStrength)
    (stored : Entry uninit input temp relay entry) : IsCell entry.driveStrength := by
  have drive := stored.drive
  split at drive
  · rw [← Except.ok.inj drive]
    decide
  · exact convertDriveStrength_cell models drive

theorem entry_recordable {uninit : Uninit} {input : Input} {temp entry : RelayData}
    {relay : Relay} (names : ∀ net ∈ input.relayList, ∀ name ∈ net.name, IsCell name)
    (models : ∀ model ∈ input.modelData, IsCell model.driveStrength)
    (stored : Entry uninit input temp relay entry) : Recordable entry where
  pin := convertPin_cell stored.pin
  enumeration := convertEnum_cell names stored.enumeration
  portNumber := convertPort_cell stored.port
  driveStrength := entry_driveStrength_cell models stored
  normalState := convertNormalState_cell stored.normalState
  relayName := by
    obtain ⟨net, current, named⟩ := stored.name
    exact names net (List.mem_of_getElem? current) _ (List.mem_of_getElem? named)

theorem relayData_recordable {files : Files} {fuel : Nat} {billName netlistName boardType : Text}
    {uninit : Uninit} {read : Input} {relay : Relay}
    (filled : getInputData files fuel { billName, netlistName, boardType } = some (.ok read))
    (converted : relayConvert uninit read {} = .ok relay)
    (names : ∀ net ∈ fileNets files netlistName, ∀ name ∈ net.name, ',' ∉ name) :
    ∀ entry ∈ relay.relayData, Recordable entry := by
  intro entry member
  obtain ⟨k, place⟩ := List.mem_iff_getElem?.mp member
  obtain ⟨_, turn⟩ := relayConvert_stored converted place
  obtain ⟨billData, head, moved, _, _, rfl⟩ := getInputData_outcome rfl rfl rfl filled
  refine entry_recordable ?_ ?_ (convertRelay_eq_ok.mp turn)
  · intro net listed name named
    have inFile : net ∈ fileNets files netlistName := List.mem_of_mem_filter listed
    exact ⟨names net inFile name named, fileNets_name_unbroken inFile name named⟩
  · have models : ∀ model ∈ relayModels, IsCell model.driveStrength := by decide
    exact models

/-- The text is the relay data: a line of fourteen cells for each record, in order, with the
values that are bound for its row. -/
structure HoldsRecords (content : Text) (relay : Relay) : Prop where
  amount : (textLines content).length = relay.relayAmount
  cells : ∀ line ∈ textLines content, ∃ cells, recordCells line = some cells ∧ cells.length = 14
  decoded : (textLines content).mapM (fun line => (recordCells line).bind readRecord) =
    some relay.relayData
  same : (textLines content).map recordCells =
    (recordRows relay.relayData).map fun row => some ((row.drop 2).map Value.cell)

theorem mapM_read {α β : Type} {write : α → β} {read : β → Option α} {xs : List α}
    (reads : ∀ x ∈ xs, read (write x) = some x) : (xs.map write).mapM read = some xs := by
  induction xs with
  | nil => rfl
  | cons x xs ih =>
      have rest := ih fun y member => reads y (List.mem_cons_of_mem _ member)
      rw [List.map_cons, List.mapM_cons, reads x List.mem_cons_self, rest]
      rfl

theorem holdsRecords {relay : Relay} (count : relay.relayData.length = relay.relayAmount)
    (recordable : ∀ entry ∈ relay.relayData, Recordable entry) :
    HoldsRecords (List.intercalate ['\n'] (relay.relayData.map configLine)) relay := by
  have lines : textLines (List.intercalate ['\n'] (relay.relayData.map configLine)) =
      relay.relayData.map configLine := by
    apply textLines_intercalate
    · intro line member
      obtain ⟨entry, listed, rfl⟩ := List.mem_map.mp member
      exact configLine_unbroken (recordable entry listed)
    · intro line member
      obtain ⟨entry, _, rfl⟩ := List.mem_map.mp member
      rw [configLine_eq]
      simp
  constructor
  · rw [lines, List.length_map, count]
  · rw [lines]
    intro line member
    obtain ⟨entry, listed, rfl⟩ := List.mem_map.mp member
    exact ⟨_, recordCells_configLine (recordable entry listed), rfl⟩
  · rw [lines]
    apply mapM_read
    intro entry member
    rw [recordCells_configLine (recordable entry member)]
    exact readRecord_cells entry
  · rw [lines]
    apply List.ext_getElem
    · simp [recordRows]
    · intro i bound bound'
      have inside : i < relay.relayData.length := by simpa using bound
      simp only [List.getElem_map, recordRows, List.getElem_mapIdx,
        recordCells_configLine (recordable _ (List.getElem_mem inside))]
      rfl

theorem configRows_eq {relay : Relay} (count : relay.relayData.length = relay.relayAmount) :
    configRows relay = (recordRows relay.relayData).map .ok := by
  apply List.ext_getElem
  · simp [recordRows, count]
  · intro i bound bound'
    have inside : i < relay.relayData.length := by simpa [count] using bound
    simp only [configRows, recordRows, List.getElem_map, List.getElem_range, List.getElem_mapIdx,
      configRow, index_of_getElem? (List.getElem?_eq_getElem inside)]
    rfl

/-- The file and the rows of the relays hold the same records, those of `relayData`. -/
theorem outputRelayData_records (files : Files) (fuel : Nat)
    (billName netlistName boardType : Text) (uninit : Uninit) (read : Input) (relay : Relay)
    (world : World) (outputName : Text) (s : Session)
    (filled : getInputData files fuel { billName, netlistName, boardType } = some (.ok read))
    (converted : relayConvert uninit read {} = .ok relay)
    (names : ∀ net ∈ fileNets files netlistName, ∀ name ∈ net.name, ',' ∉ name)
    (opened : world.opens outputName = true) :
    (∃ content next, (outputRelayData world outputName relay).out s = (.ok (), next) ∧
        next.store.files.lookup outputName = some content ∧ HoldsRecords content relay) ∧
      configRows relay = (recordRows relay.relayData).map .ok ∧
      ∀ world s next, (saveData world read relay).out s = (.ok (), next) →
        inserted .outputConfigFile s.store next.store <+: recordRows relay.relayData ∧
          ((∀ k, world.databaseThrows k = false) →
            inserted .outputConfigFile s.store next.store = recordRows relay.relayData) := by
  obtain ⟨length, amount⟩ := relayConvert_length converted
  have count : relay.relayData.length = relay.relayAmount := length.trans amount.symm
  have rows := configRows_eq count
  have some_inj : Function.Injective (Except.ok : List Value → Result (List Value)) :=
    fun _ _ same => Except.ok.inj same
  refine ⟨?_, rows, ?_⟩
  · have records := mapM_index relay.relayData
    rw [count] at records
    have holds := holdsRecords count (relayData_recordable filled converted names)
    have written : (outputRelayData world outputName relay).out s =
        (.ok (), { s with store := { s.store with
          files := (outputName, List.intercalate ['\n'] (relay.relayData.map configLine)) ::
            s.store.files.filter (·.1 ≠ outputName) } }) := by
      rw [outputRelayData, if_pos opened, records]
      rfl
    exact ⟨_, _, written, by simp, holds⟩
  · intro world s next saved
    obtain ⟨_, _, calls, more, ended⟩ := saveData_inserts saved
    rw [rows] at ended
    constructor
    · exact (List.prefix_map_iff_of_injective some_inj).mp ended.part
    · intro calm
      have whole := ended.whole_iff.mpr (quiet_of_calm calm _ _)
      exact (List.map_injective_iff.mpr some_inj whole).symm

def pairBoard : Files := fun path =>
  if path = "netlist.txt".toList then
    some (List.intercalate ['\n']
      ["SDI U1 33 ".toList ++ expanderDevice, "SDO U1 40 ".toList ++ expanderDevice,
        "AB_K1_1 U1 5 ".toList ++ expanderDevice, "AB_K2_2 U1 6 ".toList ++ expanderDevice, []])
  else none

def pairNets : List NetlistData :=
  [.ofRows [⟨"SDI".toList, "U1".toList, dinPin, expanderDevice⟩],
    .ofRows [⟨"SDO".toList, "U1".toList, doutPin, expanderDevice⟩],
    .ofRows [⟨"AB_K1_1".toList, "U1".toList, "5".toList, expanderDevice⟩],
    .ofRows [⟨"AB_K2_2".toList, "U1".toList, "6".toList, expanderDevice⟩]]

theorem pairBoard_nets : fileNets pairBoard "netlist.txt".toList = pairNets := by
  decide +kernel

def pairRead : Input where
  billName := "bom.csv".toList
  netlistName := "netlist.txt".toList
  netlistData := pairNets
  relayList := [pairNets[2], pairNets[3]]
  ioData := chainData ["U1".toList]
  modelData := relayModels

theorem pairBoard_read :
    getInputData pairBoard 5
        { billName := "bom.csv".toList, netlistName := "netlist.txt".toList } =
      some (.ok pairRead) := by
  decide +kernel

def pairConverted : Relay where
  deviceModifier := 21
  currentRelay := 2
  relayAmount := 2
  relayData :=
    [("DUT_PIN_1", "AB_CIB_1", "P10", "AB_K1_1"), ("DUT_PIN_2", "AB_CIB_2", "P14", "AB_K2_2")].map
      fun (pin, enumeration, portNumber, relayName) =>
        { pin := pin.toList, enumeration := enumeration.toList, deviceNumber := 22,
          portNumber := portNumber.toList, driveStrength := configOut,
          normalState := "RELAY_NO".toList, relayName := relayName.toList }

example : List.intercalate ['\n'] (pairConverted.relayData.map configLine) =
    ("RELAY(DUT_PIN_1,AB_CIB_1,0,22,P10,CONFIG_OUT,RELAY_NO,0,60,200,0,100,500,AB_K1_1)\n" ++
      "RELAY(DUT_PIN_2,AB_CIB_2,0,22,P14,CONFIG_OUT,RELAY_NO,0,60,200,0,100,500,AB_K2_2)").toList := by
  decide +kernel

theorem outputRelayData_records_pairBoard :
    (∃ content next, (outputRelayData ⟨fun _ => false, fun _ => true⟩ "Configuration.csv".toList
        pairConverted).out ⟨{}, 0⟩ = (.ok (), next) ∧
      next.store.files.lookup "Configuration.csv".toList = some content ∧
      HoldsRecords content pairConverted) ∧
    configRows pairConverted = (recordRows pairConverted.relayData).map .ok ∧
    ∀ world s next, (saveData world pairRead pairConverted).out s = (.ok (), next) →
      inserted .outputConfigFile s.store next.store <+: recordRows pairConverted.relayData ∧
        ((∀ k, world.databaseThrows k = false) →
          inserted .outputConfigFile s.store next.store = recordRows pairConverted.relayData) := by
  have names : ∀ net ∈ pairNets, ∀ name ∈ net.name, ',' ∉ name := by decide
  exact outputRelayData_records pairBoard 5 "bom.csv".toList "netlist.txt".toList []
    ⟨0, fun _ => 0⟩ pairRead pairConverted ⟨fun _ => false, fun _ => true⟩
    "Configuration.csv".toList ⟨{}, 0⟩ pairBoard_read (by decide +kernel)
    (by rw [pairBoard_nets]; exact names) rfl

end RelayDev.Output
