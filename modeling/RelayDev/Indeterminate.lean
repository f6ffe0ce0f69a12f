import RelayDev.InputData
import RelayDev.Selection

/-! The two locals that can be returned without a value. -/

namespace RelayDev.Indeterminate

open Cpp Text DeviceOrder RelayFilter RelayConvert Selection InputData Netlist

/-- The DOUT rows lead from the first link to the expander of the net's first expander row. -/
def OnChain (nets : List NetlistData) (net : NetlistData) : Prop :=
  ∃ row head moved, pickedRow net = some row ∧ firstLink nets = some head ∧
    Chase.Walk (links nets) head moved ∧ row.identifier ∈ head :: moved

theorem onChain_iff {nets : List NetlistData} {net : NetlistData} {head : Text}
    {moved : List Text} (first : firstLink nets = some head)
    (walk : Chase.Walk (links nets) head moved) :
    OnChain nets net ↔ ∃ row, pickedRow net = some row ∧ row.identifier ∈ head :: moved := by
  constructor
  · intro onChain
    obtain ⟨row, head', moved', picked, first', walk', inside⟩ := onChain
    obtain rfl : head = head' := Option.some.inj (first.symm.trans first')
    obtain rfl : moved = moved' := Chase.walk_unique walk walk'
    exact ⟨row, picked, inside⟩
  · intro reached
    obtain ⟨row, picked, inside⟩ := reached
    exact ⟨row, head, moved, picked, first, walk, inside⟩

/-- `convertDevice` returns a value that it has assigned: the place of the net's expander in
the chain and the modifier of the board, which is then the device number of the record. -/
def Assigned (input : Input) (relay : Relay) (net : NetlistData) : Prop :=
  ∃ (row : Row) (k : Nat) (io : IOData), pickedRow net = some row ∧
    input.ioData[k]? = some io ∧ io.identifier = row.identifier ∧
    convertDevice input relay = .ok (some (k + 1 + relay.deviceModifier)) ∧
    ∀ uninit temp entry, convertRelay uninit input temp relay = .ok entry →
      entry.deviceNumber = k + 1 + relay.deviceModifier

theorem expanderOf_chainData {path : List Text} {identifier : Text} :
    (identifier ∉ path ∧ expanderOf (chainData path) identifier = none) ∨
      ∃ (k : Nat) (io : IOData), identifier ∈ path ∧ (chainData path)[k]? = some io ∧
        io.identifier = identifier ∧ io.position = k + 1 ∧
          expanderOf (chainData path) identifier = some io := by
  cases found : expanderOf (chainData path) identifier with
  | none =>
      refine .inl ⟨?_, rfl⟩
      intro member
      obtain ⟨k, bound, place⟩ := List.mem_iff_getElem.mp member
      have listed : (⟨identifier, (k : Int) + 1⟩ : IOData) ∈ chainData path :=
        List.mem_mapIdx.mpr ⟨k, bound, by rw [place]⟩
      have other := List.find?_eq_none.mp found _ listed
      exact other (decide_eq_true rfl)
  | some io =>
      have named : io.identifier = identifier := of_decide_eq_true (List.find?_some found :)
      obtain ⟨k, bound, rfl⟩ := List.mem_mapIdx.mp (List.mem_of_find?_eq_some found)
      have place : (chainData path)[k]? = some ⟨path[k], (k : Int) + 1⟩ := by
        simp [chainData, bound]
      have member : identifier ∈ path := named ▸ List.getElem_mem bound
      exact .inr ⟨k, _, member, place, named, rfl, rfl⟩

theorem convertDevice_cases {input : Input} {relay : Relay} {net : NetlistData}
    {path : List Text} (chained : input.ioData = chainData path)
    (current : input.relayList[relay.currentRelay]? = some net) (parallel : net.Parallel) :
    ((∀ row, pickedRow net = some row → row.identifier ∉ path) ∧
        convertDevice input relay = .ok none) ∨
      (∃ row, pickedRow net = some row ∧ row.identifier ∈ path) ∧ Assigned input relay net := by
  have number := convertDevice_eq current parallel
  cases picked : pickedRow net with
  | none =>
      rw [picked] at number
      exact .inl ⟨by simp, number⟩
  | some row =>
      rw [picked, Option.bind_some, chained] at number
      rcases @expanderOf_chainData path row.identifier with
        ⟨absent, none⟩ | ⟨k, io, member, place, named, position, found⟩
      · rw [none] at number
        refine .inl ⟨?_, number⟩
        intro other same
        cases same
        exact absent
      · rw [found, Option.map_some, position] at number
        refine .inr ⟨⟨row, rfl, member⟩, row, k, io, picked, ?_, named, number, ?_⟩
        · rw [chained]
          exact place
        · intro uninit temp entry converted
          obtain ⟨device, deviceOk, stored⟩ := (convertRelay_eq_ok.mp converted).device
          rw [number] at deviceOk
          cases deviceOk
          exact stored

/-- The device number of a relay is assigned exactly if its expander is on the chain that
the head search has begun, and on every other expander it is left unset. -/
theorem convertDevice_assigned_iff (input filtered ordered : Input) (fuel : Nat) (relay : Relay)
    (net : NetlistData) (parallel : ∀ net ∈ input.netlistData, net.Parallel)
    (noRelays : input.relayList = []) (noExpanders : input.ioData = [])
    (filter : filterNetlistData input = .ok filtered)
    (order : getDeviceOrder fuel filtered = some (.ok ordered))
    (current : ordered.relayList[relay.currentRelay]? = some net) :
    (Assigned ordered relay net ↔ OnChain input.netlistData net) ∧
      (convertDevice ordered relay = .ok none ↔ ¬ OnChain input.netlistData net) := by
  have selected := filterNetlistData_selects input filtered parallel noRelays filter
  subst selected
  obtain ⟨head, moved, first, walk, rfl⟩ : ∃ head moved,
      firstLink input.netlistData = some head ∧
        Chase.Walk (links input.netlistData) head moved ∧
          ordered = { input with
            relayList := input.netlistData.filter relayNet
            ioData := chainData (head :: moved) } := by
    rcases getDeviceOrder_outcome { input with relayList := input.netlistData.filter relayNet }
      parallel noExpanders ⟨fuel, order⟩ with ⟨_, failed⟩ | ⟨head, moved, first, walk, same⟩
    · cases failed
    · exact ⟨head, moved, first, walk, Except.ok.inj same⟩
  have member := List.mem_of_mem_filter (List.mem_of_getElem? current)
  rw [onChain_iff first walk]
  rcases convertDevice_cases rfl current (parallel net member) with
    ⟨absent, unset⟩ | ⟨reached, assigned⟩
  · have off : ¬ ∃ row, pickedRow net = some row ∧ row.identifier ∈ head :: moved := by
      rintro ⟨row, picked, inside⟩
      exact absent row picked inside
    refine ⟨iff_of_false ?_ off, iff_of_true unset off⟩
    rintro ⟨row, k, io, _, _, _, number, _⟩
    rw [unset] at number
    cases number
  · refine ⟨iff_of_true assigned reached, iff_of_false ?_ (not_not_intro reached)⟩
    intro unset
    obtain ⟨row, k, io, _, _, _, number, _⟩ := assigned
    rw [unset] at number
    cases number

def strayBoard : List NetlistData :=
  [.ofRows [⟨"SDI".toList, "U1".toList, dinPin, expanderDevice⟩],
    .ofRows [⟨"SDO".toList, "U1".toList, doutPin, expanderDevice⟩],
    .ofRows [⟨"AB_K1_1".toList, "U2".toList, "5".toList, expanderDevice⟩]]

def strayFiltered : Input where
  netlistData := strayBoard
  relayList := [strayBoard[2]]

def strayOrdered : Input := { strayFiltered with ioData := chainData ["U1".toList] }

def addressed (uninit : Uninit) (input : Input) : Result (List (Int × Int)) :=
  (relayConvert uninit input {}).map fun relay =>
    relay.relayData.map fun entry => (entry.chainNumber, entry.deviceNumber)

theorem strayBoard_unassigned :
    filterNetlistData { netlistData := strayBoard } = .ok strayFiltered ∧
      getDeviceOrder 2 strayFiltered = some (.ok strayOrdered) ∧
      convertDevice strayOrdered {} = .ok none ∧
      addressed ⟨0, fun _ => 7⟩ strayOrdered = .ok [(0, 7)] ∧
      addressed ⟨0, fun _ => 8⟩ strayOrdered = .ok [(0, 8)] := by
  decide +kernel

theorem convertDevice_assigned_iff_strayBoard :
    (Assigned strayOrdered {} strayBoard[2] ↔ OnChain strayBoard strayBoard[2]) ∧
      (convertDevice strayOrdered {} = .ok none ↔ ¬ OnChain strayBoard strayBoard[2]) :=
  convertDevice_assigned_iff { netlistData := strayBoard } strayFiltered strayOrdered 2 {}
    strayBoard[2] (by decide) rfl rfl (by decide) (by decide) rfl

def SameRelayData (input : Input) : Prop :=
  ∀ one two first second, relayConvert one input {} = .ok first →
    relayConvert two input {} = .ok second → first.relayData = second.relayData

def SameSetting (input : Input) : Prop :=
  ∀ one two, chainSetting one input = chainSetting two input

def KnownBoard (boardType : Text) : Prop :=
  boardType = "Power".toList ∨ boardType = "Precision".toList

theorem convertChain_unset {input : Input} (unknown : ¬ KnownBoard input.boardType) :
    convertChain input = none := by
  obtain ⟨notPower, notPrecision⟩ := not_or.mp unknown
  rw [convertChain, if_neg notPower, if_neg notPrecision]

theorem sameSetting_iff (input : Input) : SameSetting input ↔ KnownBoard input.boardType := by
  constructor
  · intro same
    by_contra unknown
    have differ := same ⟨1, fun _ => 0⟩ ⟨0, fun _ => 0⟩
    rw [chainSetting, chainSetting, convertChain_unset unknown] at differ
    exact absurd differ (by decide)
  · intro known one two
    rcases known with power | precision
    · rw [chainSetting, chainSetting, convertChain, if_pos power]
      rfl
    · have notPower : input.boardType ≠ "Power".toList := by
        rw [precision]
        decide
      rw [chainSetting, chainSetting, convertChain, if_neg notPower, if_pos precision]
      rfl

theorem convertRelay_same {input : Input} {relay : Relay} {device : Int}
    (assigned : convertDevice input relay = .ok (some device)) (one two : Uninit)
    (temp : RelayData) : convertRelay one input temp relay = convertRelay two input temp relay := by
  simp only [convertRelay, assigned, ok_bind, Option.getD_some]

theorem relayData_same {one two : Uninit} {input : Input} {first second : Relay}
    (setting : chainSetting one input = chainSetting two input)
    (assigned : ∀ relay : Relay, relay.currentRelay < input.relayList.length →
      ∃ device, convertDevice input relay = .ok (some device))
    (converted : relayConvert one input {} = .ok first)
    (converted' : relayConvert two input {} = .ok second) :
    first.relayData = second.relayData := by
  obtain ⟨_, entries, stored, each⟩ := relayConvert_entries converted
  obtain ⟨_, entries', stored', each'⟩ := relayConvert_entries converted'
  rw [stored, stored', List.nil_append, List.nil_append]
  rw [← setting] at each'
  have listed : ∀ k ∈ List.range input.relayList.length, k < input.relayList.length :=
    fun k member => List.mem_range.mp member
  have again := (List.forall₂_and_left _ _).mpr ⟨listed, each'⟩
  have each'' := again.imp fun k entry turn => by
    obtain ⟨device, number⟩ := assigned
      { deviceModifier := (chainSetting one input).2, currentRelay := k } turn.1
    exact (convertRelay_same number one two _).trans turn.2
  apply Relator.RightUnique.forall₂ _ each each''
  intro k entry entry' turn turn'
  exact Except.ok.inj (turn.symm.trans turn')

theorem relayData_chainNumber {uninit : Uninit} {input : Input} {out : Relay}
    (converted : relayConvert uninit input {} = .ok out) :
    out.relayData.map RelayData.chainNumber =
      List.replicate input.relayList.length (chainSetting uninit input).1 := by
  rw [List.eq_replicate_iff]
  constructor
  · rw [List.length_map]
    exact (relayConvert_length converted).1
  · intro number member
    obtain ⟨entry, inside, rfl⟩ := List.mem_map.mp member
    obtain ⟨k, place⟩ := List.mem_iff_getElem?.mp inside
    obtain ⟨_, turn⟩ := relayConvert_stored converted place
    exact congrArg RelayData.chainNumber (convertRelay_eq_ok.mp turn).kept

theorem convertRelay_reruns {one two : Uninit} {input : Input} {temp temp' entry : RelayData}
    {relay relay' : Relay} (same : relay.currentRelay = relay'.currentRelay)
    (converted : convertRelay one input temp relay = .ok entry) :
    ∃ entry', convertRelay two input temp' relay' = .ok entry' := by
  have stored := convertRelay_eq_ok.mp converted
  obtain ⟨_, assigned, _⟩ := stored.device
  obtain ⟨place, places⟩ := convertDevice_place assigned
  have number := places relay' same.symm
  generalize place.map (· + relay'.deviceModifier) = device at number
  obtain ⟨modifier, currentRelay, relayData, relayAmount⟩ := relay'
  obtain rfl := same
  refine ⟨{ temp' with
    pin := entry.pin, enumeration := entry.enumeration,
    deviceNumber := device.getD (two.deviceNumber relay.currentRelay),
    portNumber := entry.portNumber, normalState := entry.normalState,
    relayName := entry.relayName, driveStrength := entry.driveStrength }, ?_⟩
  apply convertRelay_eq_ok.mpr
  exact ⟨stored.pin, stored.enumeration, ⟨device, number, rfl⟩, stored.port, stored.normalState,
    stored.name, stored.drive, rfl⟩

theorem foldlM_storeRelay_returns {uninit : Uninit} {input : Input} {temp : RelayData}
    {relays : List Nat} {relay : Relay}
    (each : ∀ k ∈ relays, ∀ next : Relay, next.currentRelay = k →
      ∃ entry, convertRelay uninit input temp next = .ok entry) :
    ∃ out, relays.foldlM (storeRelay uninit input temp) relay = .ok out := by
  induction relays generalizing relay with
  | nil => exact ⟨relay, rfl⟩
  | cons currentRelay relays ih =>
      obtain ⟨entry, converted⟩ := each currentRelay (by simp) { relay with currentRelay } rfl
      rw [List.foldlM_cons, storeRelay, converted]
      exact ih fun k member => each k (List.mem_cons_of_mem _ member)

theorem relayConvert_reruns {one : Uninit} (two : Uninit) {input : Input} {first : Relay}
    (converted : relayConvert one input {} = .ok first) :
    ∃ second, relayConvert two input {} = .ok second := by
  obtain ⟨_, entries, _, each⟩ := relayConvert_entries converted
  have turns : ∀ k ∈ List.range input.relayList.length, ∀ next : Relay, next.currentRelay = k →
      ∃ entry, convertRelay two input { chainNumber := (chainSetting two input).1 } next =
        .ok entry := by
    intro k member next at_k
    have bound := List.mem_range.mp member
    have turn := (List.forall₂_iff_get.mp each).2 k (by simpa using bound)
      (by rw [← each.length_eq, List.length_range]; exact bound)
    simp only [List.get_eq_getElem, List.getElem_range] at turn
    exact convertRelay_reruns at_k.symm turn
  obtain ⟨last, stored⟩ := foldlM_storeRelay_returns turns
  exact ⟨_, bind_eq_ok.mpr ⟨last, stored, rfl⟩⟩

/-- Once `convertChain` can return its local unset, two runs give a relay different chains. -/
theorem relayData_differs {uninit : Uninit} {input : Input} {out : Relay}
    (relays : input.relayList ≠ []) (unknown : ¬ KnownBoard input.boardType)
    (converted : relayConvert uninit input {} = .ok out) :
    ¬ SameRelayData input := by
  intro same
  have unset := convertChain_unset unknown
  obtain ⟨first, one⟩ := relayConvert_reruns ⟨1, fun _ => 0⟩ converted
  obtain ⟨second, zero⟩ := relayConvert_reruns ⟨0, fun _ => 0⟩ converted
  have chains := congrArg (List.map RelayData.chainNumber) (same _ _ _ _ one zero)
  rw [relayData_chainNumber one, relayData_chainNumber zero, chainSetting, chainSetting, unset,
    List.replicate_right_inj (by simpa using relays)] at chains
  exact absurd chains (by decide)

theorem relayData_of_no_relays {uninit : Uninit} {input : Input} {out : Relay}
    (none : input.relayList = []) (converted : relayConvert uninit input {} = .ok out) :
    out.relayData = [] := by
  have count := (relayConvert_length converted).1
  rw [none] at count
  exact List.length_eq_zero_iff.mp count

theorem assigned_of_onChain {nets : List NetlistData} {input : Input} {head : Text}
    {moved : List Text} (first : firstLink nets = some head)
    (walk : Chase.Walk (links nets) head moved)
    (filled : input.ioData = chainData (head :: moved))
    (parallel : ∀ net ∈ input.relayList, net.Parallel)
    (chained : ∀ net ∈ input.relayList, OnChain nets net) (relay : Relay)
    (bound : relay.currentRelay < input.relayList.length) :
    ∃ device, convertDevice input relay = .ok (some device) := by
  have current := List.getElem?_eq_getElem bound
  have member := List.getElem_mem bound
  rcases convertDevice_cases filled current (parallel _ member) with
    ⟨absent, _⟩ | ⟨_, row, k, io, _, _, _, number, _⟩
  · obtain ⟨row, picked, inside⟩ := (onChain_iff first walk).mp (chained _ member)
    exact absurd inside (absent row picked)
  · exact ⟨_, number⟩

/-- Two runs on one request give the same relay data and the same setting exactly if the
board type is one that `convertChain` knows; the data alone also where there is no relay. -/
theorem relayConvert_same_iff (files : Files) (fuel : Nat) (billName netlistName boardType : Text)
    (uninit : Uninit) (read : Input) (out : Relay)
    (filled : getInputData files fuel { billName, netlistName, boardType } = some (.ok read))
    (converted : relayConvert uninit read {} = .ok out)
    (chained : ∀ net ∈ read.relayList, OnChain (fileNets files netlistName) net) :
    (SameRelayData read ∧ SameSetting read ↔ KnownBoard boardType) ∧
      (SameRelayData read ↔ KnownBoard boardType ∨
        ∀ net ∈ fileNets files netlistName, relayNet net = false) := by
  obtain ⟨billData, head, moved, first, walk, same⟩ :=
    getInputData_outcome rfl rfl rfl filled
  have board : read.boardType = boardType := by rw [same]; rfl
  have relays : read.relayList = (fileNets files netlistName).filter relayNet := by rw [same]
  have parallel : ∀ net ∈ read.relayList, net.Parallel := by
    rw [relays]
    exact fun net member => fileNets_parallel files netlistName net (List.mem_of_mem_filter member)
  have noRelays : read.relayList = [] ↔
      ∀ net ∈ fileNets files netlistName, relayNet net = false := by
    simp [relays, List.filter_eq_nil_iff]
  have setting := sameSetting_iff read
  rw [board] at setting
  have known (boardKnown : KnownBoard boardType) : SameRelayData read := by
    intro one two first' second one' two'
    exact relayData_same (setting.mpr boardKnown one two)
      (assigned_of_onChain first walk (by rw [same]) parallel chained) one' two'
  constructor
  · constructor
    · intro both
      exact setting.mp both.2
    · intro boardKnown
      exact ⟨known boardKnown, setting.mpr boardKnown⟩
  · rw [← noRelays]
    constructor
    · intro data
      by_contra neither
      obtain ⟨unknown, some_relay⟩ := not_or.mp neither
      exact relayData_differs some_relay (board ▸ unknown) converted data
    · rintro (boardKnown | none)
      · exact known boardKnown
      · intro one two first' second one' two'
        rw [relayData_of_no_relays none one', relayData_of_no_relays none two']

theorem singleBoard_differs :
    getInputData singleBoard 5
          { billName := "bom.csv".toList, netlistName := "netlist.txt".toList } =
        some (.ok singleRead) ∧
      convertDevice singleRead {} = .ok (some 1) ∧
      addressed ⟨1, fun _ => 0⟩ singleRead = .ok [(1, 19)] ∧
      addressed ⟨0, fun _ => 0⟩ singleRead = .ok [(0, 22)] :=
  ⟨singleBoard_read, by decide, by decide +kernel, by decide +kernel⟩

theorem relayConvert_same_iff_singleBoard :
    (SameRelayData singleRead ∧ SameSetting singleRead ↔ KnownBoard []) ∧
      (SameRelayData singleRead ↔ KnownBoard [] ∨
        ∀ net ∈ fileNets singleBoard "netlist.txt".toList, relayNet net = false) := by
  have runs : addressed ⟨0, fun _ => 0⟩ singleRead = .ok [(0, 22)] := by decide +kernel
  obtain ⟨out, converted⟩ : ∃ out, relayConvert ⟨0, fun _ => 0⟩ singleRead {} = .ok out := by
    cases converted : relayConvert ⟨0, fun _ => 0⟩ singleRead {} with
    | error fault =>
        rw [addressed, converted] at runs
        cases runs
    | ok out => exact ⟨out, rfl⟩
  have chain : links singleNets = [⟨"U1".toList, none⟩] := by decide
  refine relayConvert_same_iff singleBoard 5 "bom.csv".toList "netlist.txt".toList []
    ⟨0, fun _ => 0⟩ singleRead out singleBoard_read converted ?_
  intro net member
  obtain rfl := List.mem_singleton.mp member
  rw [singleBoard_nets]
  refine ⟨_, "U1".toList, [], rfl, by decide, ?_, by decide⟩
  rw [chain]
  exact .stop [] [] _ (by simp)

end RelayDev.Indeterminate
