import RelayDev.PullDown
import RelayDev.Standalone
import RelayDev.StandaloneReader

/-! The normal state and the drive strength that `relay.cpp` gives each relay. -/

namespace RelayDev.Standalone

open Cpp Text Loop PullDown
open OnePass (Marked label OnGround groundLabels lineNets)

/-- Some row of the net carries the label of one of `rows` that is on the ground. -/
def Shorted (rows : List Row) (net : NetlistData) : Prop :=
  ∃ row ∈ net.rows, Marked row ∧ label row ∈ groundLabels rows

instance (rows : List Row) (net : NetlistData) : Decidable (Shorted rows net) :=
  inferInstanceAs (Decidable (∃ row ∈ _, _))

theorem normalRow_ofRows (input : Input) {rows : List Row} {k : Nat} {row : Row}
    (found : rows[k]? = some row) (normalState : Text) :
    normalRow input (.ofRows rows) k normalState =
      .ok (.yield (if decide (Marked row ∧ label row ∈ input.gndData) then normallyClosed
        else normalState)) := by
  have test : first row.identifier ≠ 'K' ↔ ¬ Marked row := Iff.rfl
  simp only [normalRow, NetlistData.ofRows_identifier, NetlistData.ofRows_device,
    index_map _ found, ok_bind, pure_eq_ok, test]
  by_cases marked : Marked row
  · rw [if_neg (not_not.mpr marked)]
    simp only [marked, true_and, decide_eq_true_eq]
    rfl
  · rw [if_pos marked]
    simp [marked]

theorem convertNormalState_eq {input : Input} {i : Nat} {net : NetlistData}
    (current : input.relayList[i]? = some net) (parallel : net.Parallel)
    {rows : List Row} (ground : input.gndData = groundLabels rows) :
    convertNormalState input i = .ok (normalStateOf (Shorted rows net)) := by
  rw [convertNormalState, index_of_getElem? current, ok_bind,
    ← NetlistData.ofRows_rows net parallel, NetlistData.ofRows_identifier, List.length_map,
    forIn_range net.rows _ _ (fun k row found => funext (normalRow_ofRows input found)),
    forIn_mark net.rows (fun row => decide (Marked row ∧ label row ∈ input.gndData))
      normallyClosed _ (fun _ _ _ => rfl)]
  have shorted : net.rows.any (fun row => decide (Marked row ∧ label row ∈ input.gndData)) = true ↔
      Shorted rows (.ofRows net.rows) := by
    rw [Shorted, ← ground, NetlistData.rows_ofRows]
    simp
  by_cases here : Shorted rows (.ofRows net.rows)
  · rw [if_pos (shorted.mpr here), normalStateOf, if_pos here]
  · rw [if_neg (mt shorted.mp here), normalStateOf, if_neg here]
    rfl

/-- What a row gives its net: the output of the configuration for a relay named after its
contact or enabled, or else the strength of the relay in its device. -/
def rowStrength (row : Row) : Option Text :=
  if (findText "_NC_".toList row.identifier).isSome ∨ (findText "_EN".toList row.name).isSome then
    some RelayConvert.configOut
  else (driveStrengths.find? fun entry => (findText entry.1 row.device).isSome).map Prod.snd

theorem getStrengthFromMap_eq (device : Text) {input : Input}
    (table : input.mapDriveStrength = driveStrengths) :
    getStrengthFromMap device input = ((driveStrengths.find? fun entry =>
      (findText entry.1 device).isSome).map Prod.snd).getD [] := by
  rw [getStrengthFromMap, table]

theorem driveStrengths_named : ∀ entry ∈ driveStrengths, entry.2 ≠ [] := by decide

theorem driveRow_ofRows {input : Input} (table : input.mapDriveStrength = driveStrengths)
    {rows : List Row} {k : Nat} {row : Row} (found : rows[k]? = some row) (driveStrength : Text) :
    driveRow input (.ofRows rows) k driveStrength =
      .ok ((rowStrength row).elim (.yield []) .done) := by
  simp only [driveRow, NetlistData.ofRows_identifier, NetlistData.ofRows_name,
    NetlistData.ofRows_device, index_map _ found, ok_bind, pure_eq_ok,
    getStrengthFromMap_eq row.device table, rowStrength]
  by_cases contact : (findText "_NC_".toList row.identifier).isSome = true
  · simp only [contact, true_or, if_true, Option.elim_some]
  · by_cases enabled : (findText "_EN".toList row.name).isSome = true
    · simp only [contact, enabled, or_true, if_true, if_false, Bool.false_eq_true,
        Option.elim_some]
    · simp only [contact, enabled, if_false, or_self, Bool.false_eq_true]
      cases found : driveStrengths.find? fun entry => (findText entry.1 row.device).isSome with
      | none => rfl
      | some entry =>
          have named := driveStrengths_named entry (List.mem_of_find?_eq_some found)
          simp [named]

/-- The strength `relay.cpp` starts from is lost at the first row that gives none. -/
theorem convertDriveStrength_eq {input : Input} {i : Nat} {net : NetlistData}
    (current : input.relayList[i]? = some net) (parallel : net.Parallel)
    (table : input.mapDriveStrength = driveStrengths) :
    convertDriveStrength input i = .ok ((net.rows.findSome? rowStrength).getD
      (if net.rows = [] then "CONFIG_LED_10p5_mA".toList else [])) := by
  have overRows := forIn_range net.rows (driveRow input (.ofRows net.rows))
    (fun row _ => .ok ((rowStrength row).elim (.yield []) .done))
    (fun k row found => funext (driveRow_ofRows table found)) "CONFIG_LED_10p5_mA".toList
  rw [convertDriveStrength, index_of_getElem? current, ok_bind,
    ← NetlistData.ofRows_rows net parallel, NetlistData.ofRows_identifier, List.length_map,
    overRows, forIn_decide net.rows rowStrength [] _ (fun _ _ _ => rfl), NetlistData.rows_ofRows]

def storeEntry (relay : Relay) (temp : RelayData) : Relay :=
  { relay with relayData := relay.relayData ++ [temp] }

theorem foldl_storeEntry (entries : List RelayData) (relay : Relay) :
    entries.foldl storeEntry relay = { relay with relayData := relay.relayData ++ entries } := by
  induction entries generalizing relay with
  | nil => simp
  | cons entry entries ih => simp [ih, storeEntry]

theorem relayConvert_turns {input : Input} {relay out : Relay}
    (converted : relayConvert input relay = .ok out) :
    ∃ entries, out = { relay with relayData := relay.relayData ++ entries } ∧
      List.Forall₂ (fun i entry => convertRelay input i = .ok entry)
        (List.range relay.relayAmount) entries := by
  obtain ⟨entries, rfl, each⟩ :=
    @foldlM_stores _ _ _ (convertRelay input) storeEntry _ _ _ converted
  exact ⟨entries, foldl_storeEntry entries relay, each⟩

theorem getBillData_keeps {files : Files} {fuel : Nat} {input read : Input}
    (done : getBillData files fuel input = some (.ok read)) :
    ∃ billData, read = { input with billData } := by
  rcases andThen_eq_some.mp done with ⟨fault, _, failed⟩ | ⟨last, _, same⟩
  · cases failed
  · cases same
    exact ⟨last.billData, rfl⟩

theorem getDeviceOrder_keeps {fuel : Nat} {input read : Input}
    (ordered : getDeviceOrder fuel input = some (.ok read)) :
    ∃ ioData, read = { input with ioData } := by
  unfold getDeviceOrder at ordered
  split at ordered
  · cases ordered
  · obtain ⟨outcome, _, same⟩ := Option.map_eq_some_iff.mp ordered
    obtain ⟨last, _, rfl⟩ := map_eq_ok.mp same
    exact ⟨last.ioData, rfl⟩

structure Converted (files : Files) (strNetlist : Text) (relay : Relay) (input : Input) : Prop where
  board : input.boardType = "Power".toList
  table : input.mapDriveStrength = driveStrengths
  read : OnePass.getNetlistData files { netlistPath := strNetlist } =
    .ok (relay.relayAmount, input.toInput)
  each : List.Forall₂ (fun i entry => convertRelay input i = .ok entry)
    (List.range relay.relayAmount) relay.relayData

theorem readBoard_reads {files : Files} {fuel : Nat} {strBom strNetlist : Text} {relayAmount : Nat}
    {input : Input}
    (ran : readBoard files fuel strBom strNetlist = some (.ok (relayAmount, input))) :
    input.boardType = "Power".toList ∧ input.mapDriveStrength = driveStrengths ∧
      OnePass.getNetlistData files { netlistPath := strNetlist } =
        .ok (relayAmount, input.toInput) := by
  rcases andThen_eq_some.mp ran with ⟨fault, _, failed⟩ | ⟨bill, billRead, ran⟩
  · cases failed
  obtain ⟨billData, rfl⟩ := getBillData_keeps billRead
  rcases andThen_eq_some.mp ran with ⟨fault, _, failed⟩ | ⟨⟨count, nets⟩, netsRead, ran⟩
  · cases failed
  obtain ⟨⟨count', read⟩, netlist, same⟩ := bind_eq_ok.mp (Option.some.inj netsRead)
  cases same
  rcases andThen_eq_some.mp ran with ⟨fault, _, failed⟩ | ⟨ordered, order, same⟩
  · cases failed
  obtain ⟨ioData, rfl⟩ := getDeviceOrder_keeps order
  cases same
  exact ⟨rfl, rfl, netlist⟩

theorem convertBoard_converted {files : Files} {fuel : Nat} {strBom strNetlist : Text}
    {relay : Relay} (ran : convertBoard files fuel strBom strNetlist = some (.ok relay)) :
    ∃ input, Converted files strNetlist relay input := by
  rcases andThen_eq_some.mp ran with ⟨fault, _, failed⟩ | ⟨⟨relayAmount, input⟩, boardRead, ran⟩
  · cases failed
  obtain ⟨board, table, read⟩ := readBoard_reads boardRead
  obtain ⟨entries, rfl, each⟩ := relayConvert_turns (Option.some.inj ran)
  exact ⟨input, board, table, read, each⟩

structure Stored (input : Input) (i : Nat) (net : NetlistData) (entry : RelayData) : Prop where
  name : net.name[0]? = some entry.relayName
  pin : convertPin entry.relayName = .ok entry.pin
  enumeration : convertEnum entry.relayName = .ok entry.enumeration
  chain : entry.chainNumber = converChain input.boardType
  device : convertDevice input.relayList i input.boardType input.ioData = .ok entry.deviceNumber
  port : convertPort input.relayList i = .ok entry.portNumber
  driveStrength : convertDriveStrength input i = .ok entry.driveStrength
  normalState : convertNormalState input i = .ok entry.normalState

theorem convertRelay_stored {input : Input} {i : Nat} {net : NetlistData} {entry : RelayData}
    (current : input.relayList[i]? = some net) (converted : convertRelay input i = .ok entry) :
    Stored input i net entry := by
  rw [convertRelay, index_of_getElem? current, ok_bind] at converted
  obtain ⟨relayName, name, converted⟩ := bind_eq_ok.mp converted
  obtain ⟨pin, pinOk, converted⟩ := bind_eq_ok.mp converted
  obtain ⟨enumeration, enumOk, converted⟩ := bind_eq_ok.mp converted
  obtain ⟨device, deviceOk, converted⟩ := bind_eq_ok.mp converted
  obtain ⟨port, portOk, converted⟩ := bind_eq_ok.mp converted
  obtain ⟨driveStrength, driveOk, converted⟩ := bind_eq_ok.mp converted
  obtain ⟨normalState, normalOk, same⟩ := bind_eq_ok.mp converted
  cases same
  exact ⟨index_eq_ok.mp name, pinOk, enumOk, rfl, deviceOk, portOk, driveOk, normalOk⟩

theorem Stored.first_row {input : Input} {i : Nat} {net : NetlistData} {entry : RelayData}
    (stored : Stored input i net entry) (parallel : net.Parallel) :
    ∃ row rest, net.rows = row :: rest ∧ entry.relayName = row.name := by
  have name := stored.name
  rw [← NetlistData.ofRows_rows net parallel, NetlistData.ofRows_name] at name
  cases rows : net.rows with
  | nil =>
      rw [rows] at name
      cases name
  | cons row rest =>
      rw [rows] at name
      exact ⟨row, rest, rfl, (Option.some.inj name).symm⟩

theorem Stored.strength {input : Input} {i : Nat} {net : NetlistData} {entry : RelayData}
    (stored : Stored input i net entry) (current : input.relayList[i]? = some net)
    (parallel : net.Parallel) (table : input.mapDriveStrength = driveStrengths) :
    entry.driveStrength = (net.rows.findSome? rowStrength).getD [] := by
  obtain ⟨row, rest, rows, _⟩ := stored.first_row parallel
  have strength := stored.driveStrength
  rw [convertDriveStrength_eq current parallel table, if_neg (by simp [rows])] at strength
  exact (Except.ok.inj strength).symm

theorem Stored.state {input : Input} {i : Nat} {net : NetlistData} {entry : RelayData}
    (stored : Stored input i net entry) (current : input.relayList[i]? = some net)
    (parallel : net.Parallel) {rows : List Row} (ground : input.gndData = groundLabels rows) :
    entry.normalState = normalStateOf (Shorted rows net) := by
  have state := stored.normalState
  rw [convertNormalState_eq current parallel ground] at state
  exact (Except.ok.inj state).symm

theorem Converted.entries {files : Files} {strNetlist : Text} {relay : Relay} {input : Input}
    {rel : NetlistData → RelayData → Prop} (converted : Converted files strNetlist relay input)
    (turn : ∀ i net entry, input.relayList[i]? = some net →
      net.Parallel ∧ net.rows ⊆ (files.lines strNetlist).map Netlist.columns →
        Stored input i net entry → rel net entry) :
    List.Forall₂ rel input.relayList relay.relayData := by
  obtain ⟨count, read⟩ := OnePass.getNetlistData_ok converted.read
  have relays : input.relayList = _ := congrArg OnePass.Input.relayList read
  have each := converted.each
  rw [count] at each
  refine forall₂_range each fun i net entry current stored => ?_
  have listed := List.mem_of_getElem? current
  rw [relays] at listed
  have member := List.mem_of_mem_filter listed
  exact turn i net entry current
    ⟨OnePass.lineNets_parallel _ net member, OnePass.lineNets_rows member⟩
    (convertRelay_stored current stored)

theorem Converted.ground {files : Files} {strNetlist : Text} {relay : Relay} {input : Input}
    (converted : Converted files strNetlist relay input) :
    input.gndData = groundLabels ((files.lines strNetlist).map Netlist.columns) :=
  congrArg OnePass.Input.gndData (OnePass.getNetlistData_ok converted.read).2

/-- In the configuration of any files a relay is normally closed exactly if a row of its net has
the label `identifier_device` of a relay's row on the ground of the netlist. -/
theorem convertBoard_normalState {files : Files} {fuel : Nat} {strBom strNetlist : Text}
    {relay : Relay} (ran : convertBoard files fuel strBom strNetlist = some (.ok relay)) :
    ∃ read, OnePass.getNetlistData files { netlistPath := strNetlist } =
        .ok (relay.relayAmount, read) ∧
      List.Forall₂ (fun net entry => entry.normalState =
        normalStateOf (Shorted ((files.lines strNetlist).map Netlist.columns) net))
        read.relayList relay.relayData := by
  obtain ⟨input, converted⟩ := convertBoard_converted ran
  exact ⟨input.toInput, converted.read, converted.entries fun i net entry current copied stored =>
    stored.state current copied.1 converted.ground⟩

def groundedBoard : Files := fun path =>
  if path = "bom.csv".toList then some "1,1,TI,MAX6957,U1,EXPANDER,,ACTIVE,85".toList
  else if path = "netlist.txt".toList then
    some (List.intercalate ['\n']
      ["SDI U1 33 ".toList ++ expanderDevice, "SDO U1 40 ".toList ++ expanderDevice,
        "K1_CNTL_1 U1 1 ".toList ++ expanderDevice, "K1_CNTL_1 K1 2 AQY225R3TY".toList,
        "GND K1 3 AQY225R3TY".toList, "K2_CNTL_2 U1 2 ".toList ++ expanderDevice,
        "K2_CNTL_2 K2 2 SIP-1A05".toList])
  else none

def groundedRelays : Relay where
  relayAmount := 2
  relayData :=
    [{ pin := "DUT_PIN_1".toList, enumeration := "K1_CIB_1".toList, deviceNumber := 22,
       portNumber := "P8".toList, driveStrength := "CONFIG_LED_10p5_mA".toList,
       normalState := normallyClosed, relayName := "K1_CNTL_1".toList },
      { pin := "DUT_PIN_2".toList, enumeration := "K2_CIB_2".toList, deviceNumber := 22,
        portNumber := "P12".toList, normalState := normallyOpen,
        relayName := "K2_CNTL_2".toList }]

theorem groundedBoard_converted :
    convertBoard groundedBoard 3 "bom.csv".toList "netlist.txt".toList =
      some (.ok groundedRelays) := by
  decide +kernel

theorem groundedBoard_normalState :
    ∃ read, OnePass.getNetlistData groundedBoard { netlistPath := "netlist.txt".toList } =
        .ok (2, read) ∧
      List.Forall₂ (fun net entry => entry.normalState = normalStateOf
        (Shorted ((groundedBoard.lines "netlist.txt".toList).map Netlist.columns) net))
        read.relayList groundedRelays.relayData :=
  convertBoard_normalState groundedBoard_converted

/-- In the configuration of any files a relay has the strength of the first row of its net that
gives one, and none at all if no row does: the strength the search starts from is not kept. -/
theorem convertBoard_driveStrength {files : Files} {fuel : Nat} {strBom strNetlist : Text}
    {relay : Relay} (ran : convertBoard files fuel strBom strNetlist = some (.ok relay)) :
    ∃ read, OnePass.getNetlistData files { netlistPath := strNetlist } =
        .ok (relay.relayAmount, read) ∧
      List.Forall₂ (fun net entry =>
        entry.driveStrength = (net.rows.findSome? rowStrength).getD []) read.relayList
        relay.relayData := by
  obtain ⟨input, converted⟩ := convertBoard_converted ran
  exact ⟨input.toInput, converted.read, converted.entries fun i net entry current copied stored =>
    stored.strength current copied.1 converted.table⟩

theorem groundedBoard_driveStrength :
    ∃ read, OnePass.getNetlistData groundedBoard { netlistPath := "netlist.txt".toList } =
        .ok (2, read) ∧
      List.Forall₂ (fun net entry =>
        entry.driveStrength = (net.rows.findSome? rowStrength).getD []) read.relayList
        groundedRelays.relayData :=
  convertBoard_driveStrength groundedBoard_converted

end RelayDev.Standalone
