import RelayDev.DriveStrength
import RelayDev.StandaloneBill
import RelayDev.StandaloneChain
import RelayDev.StandaloneRelay

/-! The relays of `relay.cpp` beside those of the server, from the same two files. -/

namespace RelayDev.Standalone

open Cpp Text Loop Bill DeviceOrder RelayFilter RelayConvert InputData PullDown Netlist
open OnePass (groundLabels lineNets)

section Relay

variable {input : Input} {i : Nat} {net : NetlistData}

theorem convertPort_eq (current : input.relayList[i]? = some net) (parallel : net.Parallel) :
    convertPort input.relayList i =
      (stoi (((pickedRow net).map Row.connection).getD [])).map portNumber := by
  rw [convertPort, index_of_getElem? current, ok_bind]
  rcases expanderRow_cases net parallel with ⟨found, picked⟩ | ⟨k, row, found, place, picked⟩
  · rw [found, picked]
    rfl
  · rw [found, picked, Option.map_some, Option.getD_some]
    simp only [(index_column parallel place).2, ok_bind]
    cases stoi row.connection <;> rfl

theorem convertDevice_eq (current : input.relayList[i]? = some net) (parallel : net.Parallel)
    (board : input.boardType = "Power".toList) :
    convertDevice input.relayList i input.boardType input.ioData =
      .ok (((pickedRow net).bind fun row =>
        (expanderOf input.ioData row.identifier).map (·.position + 21)).getD 21) := by
  rw [convertDevice, index_of_getElem? current, ok_bind, board]
  rcases expanderRow_cases net parallel with ⟨found, picked⟩ | ⟨k, row, found, place, picked⟩
  · rw [found, picked]
    rfl
  · rw [found, picked]
    simp only [(index_column parallel place).1, ok_bind]
    rw [forIn_find input.ioData (decide <| ·.identifier = row.identifier) IOData.position]
    · rw [Option.bind_some, expanderOf]
      cases input.ioData.find? (decide <| ·.identifier = row.identifier) <;> rfl
    · intro io _
      by_cases same : io.identifier = row.identifier <;> simp [same]

/-- The server with the two locals it leaves unset at what `relay.cpp` returns for them: chain
number 0, and for an expander off the chain the 0 its search starts from plus the 21 of a power
board. -/
def initialised : Uninit := ⟨0, fun _ => 21⟩

def placed (entry : RelayData) : RelayData := { entry with driveStrength := [], normalState := [] }

structure SameBoard (input : Input) (read : RelayDev.Input) : Prop where
  board : input.boardType = "Power".toList
  unset : read.boardType = []
  table : input.mapDriveStrength = driveStrengths
  ground : ∃ rows, input.gndData = groundLabels rows
  relays : read.relayList = input.relayList
  expanders : read.ioData = input.ioData
  copied : ∀ net ∈ input.relayList, net.Parallel
  columns : ∀ net ∈ read.netlistData, net.Parallel

theorem convertRelay_agree {read : RelayDev.Input} {relay : RelayConvert.Relay}
    (same : SameBoard input read) (current : input.relayList[i]? = some net)
    (turn : relay.currentRelay = i) (modifier : relay.deviceModifier = 21) :
    Agree (fun entry other => placed entry = placed other) (convertRelay input i)
      (RelayConvert.convertRelay initialised read {} relay) := by
  obtain ⟨board, _, table, ⟨rows, ground⟩, relays, expanders, copied, columns⟩ := same
  have parallel := copied net (List.mem_of_getElem? current)
  have here : read.relayList[relay.currentRelay]? = some net := by rw [relays, turn, current]
  have device := convertDevice_eq current parallel board
  have device' := RelayConvert.convertDevice_eq here parallel
  have port :=
    (convertPort_eq current parallel).trans (RelayConvert.convertPort_eq here parallel).symm
  obtain ⟨driveStrength, drive⟩ : ∃ driveStrength,
      convertDriveStrength input i = .ok driveStrength :=
    ⟨_, convertDriveStrength_eq current parallel table⟩
  have normal := convertNormalState_eq current parallel ground
  have normal' := PullDown.convertNormalState_eq columns parallel here
  have drive' := DriveStrength.convertDriveStrength_eq here
  rw [expanders, modifier] at device'
  cases name : index net.name 0 with
  | error fault =>
      rw [convertRelay, index_of_getElem? current, ok_bind, name, RelayConvert.convertRelay,
        RelayConvert.convertPin, index_of_getElem? here, ok_bind, name]
      exact .fails fault
  | ok relayName =>
      have pin : RelayConvert.convertPin read relay = convertPin relayName := by
        rw [RelayConvert.convertPin, index_of_getElem? here, ok_bind, name, ok_bind]
        rfl
      have enumeration : RelayConvert.convertEnum read relay = convertEnum relayName := by
        rw [RelayConvert.convertEnum, index_of_getElem? here, ok_bind, name, ok_bind]
        rfl
      rw [convertRelay, RelayConvert.convertRelay, index_of_getElem? current, ok_bind, name,
        ok_bind, pin, enumeration]
      refine .bind_same _ fun pin => .bind_same _ fun enumeration => ?_
      rw [device, device', ok_bind, ok_bind, port]
      refine .bind_same _ fun portNumber => ?_
      rw [drive, normal, normal', ok_bind, ok_bind, ok_bind, index_of_getElem? here, ok_bind, name,
        ok_bind, board]
      split
      · refine .returns ?_
        rw [turn]
        rfl
      · rw [drive']
        refine .returns ?_
        rw [turn]
        rfl

end Relay

def SameRelays (relay : Relay) (other : RelayConvert.Relay) : Prop :=
  relay.relayAmount = other.relayAmount ∧ relay.relayData.map placed = other.relayData.map placed

theorem relayConvert_agree {input : Input} {read : RelayDev.Input} (same : SameBoard input read) :
    Agree SameRelays (relayConvert input { relayAmount := input.relayList.length })
      (RelayConvert.relayConvert initialised read {}) := by
  have setting : chainSetting initialised read = (0, 21) := by
    rw [chainSetting, convertChain, same.unset]
    rfl
  have stores (relay : Relay) (other : RelayConvert.Relay) (i : Nat)
      (inside : i ∈ List.range input.relayList.length)
      (sofar : SameRelays relay other ∧ other.deviceModifier = 21) :
      Agree (fun relay other => SameRelays relay other ∧ other.deviceModifier = 21)
        (convertRelay input i >>= fun temp => .ok (storeEntry relay temp))
        (storeRelay initialised read {} other i) := by
    have current := List.getElem?_eq_getElem (List.mem_range.mp inside)
    have turn := @convertRelay_agree _ _ _ _ { other with currentRelay := i } same current rfl
      sofar.2
    refine turn.bind fun entry stored alike => ?_
    refine .returns ⟨⟨sofar.1.1, ?_⟩, sofar.2⟩
    simp only [storeEntry, List.map_append, sofar.1.2, List.map_cons, List.map_nil, alike]
  unfold relayConvert RelayConvert.relayConvert
  rw [setting, same.relays]
  rw [← bind_pure (List.foldlM _ _ _)]
  refine (agree_foldlM stores ⟨⟨rfl, rfl⟩, rfl⟩).bind fun relay other alike => ?_
  exact .returns alike.1

theorem steady_getDeviceOrder (input : Input) : Steady (getDeviceOrder · input) := by
  intro fuel more r enough returned
  unfold getDeviceOrder at returned ⊢
  split at returned
  · exact returned
  · obtain ⟨outcome, left, same⟩ := Option.map_eq_some_iff.mp returned
    exact Option.map_eq_some_iff.mpr
      ⟨outcome, steady_whileLoop _ _ _ fuel more outcome enough left, same⟩

theorem steady_readLines (r : Bill.Reader) (lines : List Text) :
    Steady (readLines · r lines) := by
  induction lines generalizing r with
  | nil => exact steady_const _
  | cons line lines ih =>
      refine Steady.andThen ?_ ih
      unfold readLine
      split
      · exact (steady_readPart line).andThen fun temp => steady_const _
      · exact steady_const _

theorem getBillData_returns (files : Files) (input : Input) (start : input.billData = []) :
    Returns (getBillData files · input) (∀ line ∈ files.lines input.bomPath, LineCloses line)
      fun out => ∃ billData, out = { input with billData } := by
  have lines := (Bill.readLines_returns (r := ⟨[], 0⟩) (Nat.zero_le _)
    (files.lines input.bomPath)).of_image fun fuel => readLines_upper fuel ⟨[], 0⟩ _
  unfold getBillData
  rw [start]
  exact (lines.andThen (steady_readLines _ _) (fun _ => steady_const _) fun r _ =>
    returns_const _ ⟨r.billData, rfl⟩).congr (by simp) fun _ holds => holds

def Ordered (nets : List NetlistData) (first : IOData) (ioData : List IOData) : Prop :=
  ∃ moved, Chase.Walk (links nets) first.identifier moved ∧ ioData = chainFrom first moved

theorem Ordered.unique {nets : List NetlistData} {first : IOData} {one two : List IOData}
    (ordered : Ordered nets first one) (ordered' : Ordered nets first two) : one = two := by
  obtain ⟨moved, walk, rfl⟩ := ordered
  obtain ⟨moved', walk', rfl⟩ := ordered'
  rw [Chase.walk_unique walk walk']

theorem getDeviceOrder_returns {nets : List NetlistData} (parallel : ∀ net ∈ nets, net.Parallel)
    (input : Input) (read : input.netlistData = nets) (start : input.ioData = []) :
    Returns (getDeviceOrder · input)
      (∃ moved, Chase.Walk (links nets) (headDevice nets).identifier moved)
      fun out => ∃ ioData, Ordered nets (headDevice nets) ioData ∧ out = { input with ioData } := by
  subst read
  have ends := ends_getDeviceOrder_iff input parallel start
  constructor
  · rintro ⟨moved, walk⟩
    exact ⟨_, (ends _).mpr ⟨moved, walk, rfl⟩, _, ⟨moved, walk, rfl⟩, rfl⟩
  · intro r ended
    obtain ⟨moved, walk, rfl⟩ := (ends r).mp ended
    exact ⟨⟨moved, walk⟩, _, rfl, _, ⟨moved, walk, rfl⟩, rfl⟩

theorem orders_returns {nets : List NetlistData} (parallel : ∀ net ∈ nets, net.Parallel)
    {head : Text} (first : firstLink nets = some head) (input : RelayDev.Input)
    (read : input.netlistData = nets) (start : input.ioData = []) :
    Returns (DeviceOrder.getDeviceOrder · input) (∃ moved, Chase.Walk (links nets) head moved)
      fun out => ∃ ioData, Ordered nets ⟨head, 1⟩ ioData ∧ out = { input with ioData } := by
  subst read
  constructor
  · rintro ⟨moved, walk⟩
    refine ⟨_, getDeviceOrder_of_walk input parallel start first walk, _, ⟨moved, walk, rfl⟩, ?_⟩
    rw [chainFrom_head]
  · intro r ended
    have found := findHead_eq input parallel start
    rw [first] at found
    obtain ⟨outcome, left, rfl⟩ := (ends_getDeviceOrder found r).mp ended
    obtain ⟨moved, walk, rfl⟩ :=
      (DeviceOrder.chain_leaves_iff input.netlistData parallel head outcome).mp left
    refine ⟨⟨moved, walk⟩, _, rfl, _, ⟨moved, walk, rfl⟩, ?_⟩
    rw [chainFrom_head]
    rfl

section Read

variable {files : Files} {strBom strNetlist : Text}

structure BoardRead (nets relayList : List NetlistData) (read : Nat × Input) : Prop where
  count : read.1 = relayList.length
  board : read.2.boardType = "Power".toList
  table : read.2.mapDriveStrength = driveStrengths
  ground : ∃ rows, read.2.gndData = groundLabels rows
  relays : read.2.relayList = relayList
  expanders : Ordered nets (headDevice nets) read.2.ioData

structure RequestRead (nets relayList : List NetlistData) (first : IOData)
    (read : RelayDev.Input) : Prop where
  unset : read.boardType = []
  models : read.modelData = relayModels
  netlist : read.netlistData = nets
  relays : read.relayList = relayList
  expanders : Ordered nets first read.ioData

theorem RequestRead.relays_agree {nets relayList : List NetlistData} {board : Nat × Input}
    {read : RelayDev.Input} (request : RequestRead nets relayList (headDevice nets) read)
    (own : BoardRead nets relayList board) (columns : ∀ net ∈ nets, net.Parallel)
    (copied : ∀ net ∈ relayList, net.Parallel) :
    Agree SameRelays (relayConvert board.2 { relayAmount := board.1 })
      (RelayConvert.relayConvert initialised read {}) := by
  rw [own.count, ← own.relays]
  exact relayConvert_agree
    { board := own.board
      unset := request.unset
      table := own.table
      ground := own.ground
      relays := request.relays.trans own.relays.symm
      expanders := request.expanders.unique own.expanders
      copied := by rw [own.relays]; exact copied
      columns := by rw [request.netlist]; exact columns }

theorem getNetlistData_filtered {input : Input}
    (start : input.toInput = { netlistPath := strNetlist }) :
    let lines := files.lines strNetlist
    getNetlistData files input = ((lineNets lines).foldlM acceptNet []).map fun relayList =>
      (relayList.length, { input with
        netlistPath := strNetlist
        netlistData := lineNets lines
        relayList
        gndData := groundLabels (lines.map columns) }) := by
  intro lines
  rw [getNetlistData, start, OnePass.getNetlistData_lines]
  cases (lineNets lines).foldlM acceptNet [] <;> rfl

theorem steady_readNets (files : Files) (input : Input) : Steady (readNets files · input) :=
  (steady_const _).andThen fun (_, input) =>
    (steady_getDeviceOrder input).andThen fun _ => steady_const _

theorem steady_getBillData (files : Files) (input : Input) : Steady (getBillData files · input) :=
  (steady_readLines _ _).andThen fun _ => steady_const _

theorem steady_readBoard (files : Files) (strBom strNetlist : Text) :
    Steady (readBoard files · strBom strNetlist) :=
  (steady_getBillData files _).andThen (steady_readNets files)

theorem readBoard_returns {relayList : List NetlistData}
    (filtered : (lineNets (files.lines strNetlist)).foldlM acceptNet [] = .ok relayList) :
    let nets := lineNets (files.lines strNetlist)
    Returns (readBoard files · strBom strNetlist)
      ((∀ line ∈ files.lines strBom, LineCloses line) ∧
        ∃ moved, Chase.Walk (links nets) (headDevice nets).identifier moved)
      (BoardRead nets relayList) := by
  intro nets
  refine (getBillData_returns files _ rfl).andThen (steady_getBillData files _)
    (steady_readNets files) ?_
  rintro _ ⟨billData, rfl⟩
  unfold readNets
  rw [getNetlistData_filtered rfl, filtered]
  have ordered := getDeviceOrder_returns (OnePass.lineNets_parallel (files.lines strNetlist))
  refine ((ordered _ rfl rfl).andThen (steady_getDeviceOrder _) (fun _ => steady_const _)
    fun input along => returns_const (BoardRead nets relayList) ?_).congr (by simp [nets])
      fun _ holds => holds
  obtain ⟨ioData, along, rfl⟩ := along
  exact ⟨rfl, rfl, rfl, ⟨_, rfl⟩, rfl, along⟩

theorem readNetlist_filtered (fuel : Nat) (input : RelayDev.Input) (noNets : input.netlistData = [])
    (noRelays : input.relayList = []) :
    let nets := fileNets files input.netlistName
    readNetlist files fuel input =
      andThen (some ((nets.foldlM acceptNet []).map fun relayList =>
        { input with netlistData := nets, relayList })) (DeviceOrder.getDeviceOrder fuel) := by
  intro nets
  have filtered := filterNetlistData_eq { input with netlistData := nets }
    (fileNets_parallel files input.netlistName) noRelays
  rw [readNetlist, getNetlistData_eq files input noNets, andThen_ok, filtered]

theorem readNetlist_returns (input : RelayDev.Input) (noNets : input.netlistData = [])
    (noRelays : input.relayList = []) (noExpanders : input.ioData = []) {head : Text}
    (first : firstLink (fileNets files input.netlistName) = some head)
    {relayList : List NetlistData}
    (filtered : (fileNets files input.netlistName).foldlM acceptNet [] = .ok relayList) :
    let nets := fileNets files input.netlistName
    Returns (readNetlist files · input) (∃ moved, Chase.Walk (links nets) head moved) fun out =>
      ∃ ioData, Ordered nets ⟨head, 1⟩ ioData ∧
        out = { input with netlistData := nets, relayList, ioData } := by
  intro nets
  have order : (readNetlist files · input) =
      (DeviceOrder.getDeviceOrder · { input with netlistData := nets, relayList }) := by
    funext fuel
    rw [readNetlist_filtered fuel input noNets noRelays, filtered]
    rfl
  rw [order]
  exact orders_returns (fileNets_parallel files _) first _ rfl noExpanders

theorem getInputData_returns {head : Text}
    (first : firstLink (fileNets files strNetlist) = some head) {relayList : List NetlistData}
    (filtered : (fileNets files strNetlist).foldlM acceptNet [] = .ok relayList) :
    Returns (getInputData files · { billName := strBom, netlistName := strNetlist })
      ((∀ line ∈ files.lines strBom, LineCloses line) ∧
        ∃ moved, Chase.Walk (links (fileNets files strNetlist)) head moved)
      (RequestRead (fileNets files strNetlist) relayList ⟨head, 1⟩) := by
  refine (Bill.getBillData_returns files _).andThen (Bill.steady_getBillData files _)
    (steady_readNetlist files) ?_
  rintro _ ⟨billData, rfl⟩
  refine (readNetlist_returns _ rfl rfl rfl first filtered).congr Iff.rfl ?_
  rintro _ ⟨ioData, ordered, rfl⟩
  exact ⟨rfl, rfl, rfl, rfl, ordered⟩

def requestBoard (files : Files) (fuel : Nat) (billName netlistName : Text) :
    Call RelayConvert.Relay :=
  andThen (getInputData files fuel { billName, netlistName }) fun read =>
    some (RelayConvert.relayConvert initialised read {})

theorem convertBoard_throws {fault : Fault}
    (throws : (lineNets (files.lines strNetlist)).foldlM acceptNet [] = .error fault)
    {r : Result Relay} :
    Ends (convertBoard files · strBom strNetlist) r ↔
      (∀ line ∈ files.lines strBom, LineCloses line) ∧ r = .error fault := by
  simp only [convertBoard, readBoard, andThen_assoc]
  refine (getBillData_returns files _ rfl).ends_fails (steady_getBillData files _)
    (fun input => (steady_readNets files input).andThen fun _ => steady_const _) ?_
  rintro _ ⟨billData, rfl⟩ fuel
  rw [readNets, getNetlistData_filtered rfl, throws]
  rfl

theorem requestBoard_throws {fault : Fault}
    (throws : (fileNets files strNetlist).foldlM acceptNet [] = .error fault)
    {r : Result RelayConvert.Relay} :
    Ends (requestBoard files · strBom strNetlist) r ↔
      (∀ line ∈ files.lines strBom, LineCloses line) ∧ r = .error fault := by
  have assoc : (requestBoard files · strBom strNetlist) = fun fuel =>
      andThen (Bill.getBillData files fuel
        (getRelayModels { billName := strBom, netlistName := strNetlist })) fun input =>
          andThen (readNetlist files fuel input) fun read =>
            some (RelayConvert.relayConvert initialised read {}) :=
    funext fun fuel => andThen_assoc _ _ _
  rw [assoc]
  refine (Bill.getBillData_returns files _).ends_fails (Bill.steady_getBillData files _)
    (fun input => (steady_readNetlist files input).andThen fun _ => steady_const _) ?_
  rintro _ ⟨billData, rfl⟩ fuel
  have filtered := @readNetlist_filtered files fuel
    { getRelayModels { billName := strBom, netlistName := strNetlist } with billData } rfl rfl
  dsimp only [getRelayModels] at filtered ⊢
  rw [filtered, throws]
  rfl

end Read

/-- On a netlist without lower-case letters, where both programs start at the same expander,
they end on the same boards, and fail alike or give each relay the same but for its drive
strength and its normal state. -/
theorem programs_agree (files : Files) (strBom strNetlist : Text)
    (upper : ∀ line ∈ files.lines strNetlist, ∀ c ∈ line, c.isLower = false)
    (start : firstLink (fileNets files strNetlist) =
      some (headDevice (fileNets files strNetlist)).identifier) :
    (∀ r, Ends (convertBoard files · strBom strNetlist) r →
        ∃ r', Ends (requestBoard files · strBom strNetlist) r' ∧ Agree SameRelays r r') ∧
      ∀ r', Ends (requestBoard files · strBom strNetlist) r' →
        ∃ r, Ends (convertBoard files · strBom strNetlist) r ∧ Agree SameRelays r r' := by
  have same : lineNets (files.lines strNetlist) = fileNets files strNetlist :=
    OnePass.lineNets_fileNets fun line member => toUpper_of_not_lower (upper line member)
  have parallel := fileNets_parallel files strNetlist
  rcases foldlM_acceptNet_cases (fileNets files strNetlist) [] with
    ⟨⟨exception, throws⟩, _⟩ | ⟨⟨relayList, filtered⟩, _⟩
  · have one (r : Result Relay) := @convertBoard_throws files strBom strNetlist _ (same ▸ throws) r
    have two (r : Result RelayConvert.Relay) :=
      @requestBoard_throws files strBom strNetlist _ throws r
    constructor
    · intro r ended
      obtain ⟨closes, rfl⟩ := (one r).mp ended
      exact ⟨_, (two _).mpr ⟨closes, rfl⟩, .fails _⟩
    · intro r' ended
      obtain ⟨closes, rfl⟩ := (two r').mp ended
      exact ⟨_, (one _).mpr ⟨closes, rfl⟩, .fails _⟩
  · have one := @readBoard_returns files strBom strNetlist relayList (same ▸ filtered)
    have two := @getInputData_returns files strBom strNetlist _ start relayList filtered
    rw [same] at one
    rw [← (headDevice_eq_iff start).mpr rfl] at two
    have copied : ∀ net ∈ relayList, net.Parallel := by
      intro net member
      rw [foldlM_acceptNet_eq_ok filtered, List.nil_append] at member
      exact parallel net (List.mem_of_mem_filter member)
    constructor
    · intro r ended
      exact one.agree two (steady_readBoard _ _ _) (steady_getInputData _ _)
        (fun board read own request => request.relays_agree own parallel copied) ended
    · intro r' ended
      obtain ⟨r, ended', agree⟩ := two.agree one (steady_getInputData _ _) (steady_readBoard _ _ _)
        (fun read board request own => (request.relays_agree own parallel copied).flip) ended
      exact ⟨r, ended', agree.flip⟩

theorem groundedBoard_upper :
    ∀ line ∈ groundedBoard.lines "netlist.txt".toList, ∀ c ∈ line, c.isLower = false := by
  have upper : (groundedBoard.lines "netlist.txt".toList).all
      (fun line => line.all fun c => !c.isLower) = true := by decide +kernel
  intro line member c occurs
  simpa using List.all_eq_true.mp (List.all_eq_true.mp upper line member) c occurs

theorem programs_agree_groundedBoard :
    (∀ r, Ends (convertBoard groundedBoard · "bom.csv".toList "netlist.txt".toList) r →
        ∃ r', Ends (requestBoard groundedBoard · "bom.csv".toList "netlist.txt".toList) r' ∧
          Agree SameRelays r r') ∧
      ∀ r', Ends (requestBoard groundedBoard · "bom.csv".toList "netlist.txt".toList) r' →
        ∃ r, Ends (convertBoard groundedBoard · "bom.csv".toList "netlist.txt".toList) r ∧
          Agree SameRelays r r' :=
  programs_agree groundedBoard "bom.csv".toList "netlist.txt".toList groundedBoard_upper
    (by decide +kernel)

end RelayDev.Standalone
