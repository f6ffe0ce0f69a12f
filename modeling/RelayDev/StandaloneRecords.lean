import RelayDev.StandaloneAgreement

/-! Where the two programs give a relay different records. -/

namespace RelayDev.Standalone

open Cpp Text DeviceOrder RelayFilter RelayConvert InputData PullDown Netlist DriveStrength
open OnePass (groundLabels lineNets)

def boardOf (nets : List NetlistData) : RelayDev.Input :=
  { netlistData := nets, modelData := relayModels }

def serverCloses (nets : List NetlistData) (net : NetlistData) : Bool :=
  (decidingResistor (boardOf nets) net).any (Grounded (boardOf nets))

def serverStrength (nets : List NetlistData) (net : NetlistData) : Text :=
  if serverCloses nets net then configOut
  else ((strengths (boardOf nets) net).find? (· ≠ configOut)).getD configOut

theorem RequestRead.records {nets relayList : List NetlistData} {first : IOData}
    {read : RelayDev.Input} {other : RelayConvert.Relay}
    (request : RequestRead nets relayList first read) (columns : ∀ net ∈ nets, net.Parallel)
    (copied : ∀ net ∈ relayList, net.Parallel)
    (converted : RelayConvert.relayConvert initialised read {} = .ok other) :
    List.Forall₂ (fun net entry =>
      entry.normalState = normalStateOf (serverCloses nets net = true) ∧
        entry.driveStrength = serverStrength nets net) relayList other.relayData := by
  obtain ⟨_, entries, appended, each⟩ := relayConvert_entries converted
  obtain rfl : other.relayData = entries := appended
  obtain ⟨unset, models, netlist, relays, expanders⟩ := request
  have closed :
      (fun net => (decidingResistor read net).any (Grounded read)) = serverCloses nets := by
    obtain ⟨_, _, _, _, _, _, _⟩ := read
    subst models netlist
    rfl
  have given : strengths read = strengths (boardOf nets) := by
    obtain ⟨_, _, _, _, _, _, _⟩ := read
    subst models
    rfl
  rw [← netlist] at columns
  rw [← relays] at copied ⊢
  refine forall₂_range each fun i net entry current turn => ?_
  have fields := convertRelay_eq_ok.mp turn
  have parallel := copied net (List.mem_of_getElem? current)
  have state := (@PullDown.convertNormalState_eq read { deviceModifier := _, currentRelay := i }
    net columns parallel current).symm.trans fields.normalState
  have drive := fields.drive
  rw [@DriveStrength.convertDriveStrength_eq read { deviceModifier := _, currentRelay := i } net
    current, ← Except.ok.inj state, congrFun closed net, given] at drive
  refine ⟨?_, ?_⟩
  · rw [← Except.ok.inj state, congrFun closed net]
  · rw [serverStrength]
    cases decided : serverCloses nets net with
    | true =>
        rw [decided, if_pos (by decide)] at drive
        exact (Except.ok.inj drive).symm
    | false =>
        rw [decided, if_neg (by decide)] at drive
        exact (Except.ok.inj drive).symm

theorem eq_iff_of_placed {entry other : RelayData} (alike : placed entry = placed other) :
    entry = other ↔
      entry.normalState = other.normalState ∧ entry.driveStrength = other.driveStrength := by
  constructor
  · rintro rfl
    exact ⟨rfl, rfl⟩
  · rintro ⟨state, drive⟩
    cases entry
    cases other
    simp_all [placed]

theorem records_eq_iff {nets : List NetlistData} {entries others : List RelayData}
    {state state' drive drive' : NetlistData → Text}
    (one : List.Forall₂ (fun net entry => entry.normalState = state net ∧
      entry.driveStrength = drive net) nets entries)
    (two : List.Forall₂ (fun net entry => entry.normalState = state' net ∧
      entry.driveStrength = drive' net) nets others)
    (alike : entries.map placed = others.map placed) :
    entries = others ↔ ∀ net ∈ nets, state net = state' net ∧ drive net = drive' net := by
  induction one generalizing others with
  | nil =>
      cases two
      simp
  | cons here rest ih =>
      cases two with
      | cons here' rest' =>
          obtain ⟨first, behind⟩ := List.cons.inj alike
          rw [List.cons.injEq, List.forall_mem_cons, ih rest' behind, eq_iff_of_placed first,
            here.1, here.2, here'.1, here'.2]

theorem normalStateOf_inj {p q : Prop} [Decidable p] [Decidable q] :
    normalStateOf p = normalStateOf q ↔ (p ↔ q) := by
  by_cases left : p <;> by_cases right : q <;> simp [normalStateOf, left, right] <;> decide

/-- Where `relay.cpp` gives a configuration the server gives one too, and the records are the
same exactly if, for each relay, the resistor the server decides by is on the ground where
`relay.cpp` finds the relay itself there, and the strengths that they pick agree. -/
theorem records_agree_iff (files : Files) (strBom strNetlist : Text)
    (upper : ∀ line ∈ files.lines strNetlist, ∀ c ∈ line, c.isLower = false)
    (start : firstLink (fileNets files strNetlist) =
      some (headDevice (fileNets files strNetlist)).identifier) (relay : Relay)
    (ended : Ends (convertBoard files · strBom strNetlist) (.ok relay)) :
    ∃ other, Ends (requestBoard files · strBom strNetlist) (.ok other) ∧
      (relay.relayData = other.relayData ↔
        ∀ net ∈ (fileNets files strNetlist).filter relayNet,
          (Shorted ((files.lines strNetlist).map columns) net ↔
              serverCloses (fileNets files strNetlist) net = true) ∧
            (net.rows.findSome? rowStrength).getD [] =
              serverStrength (fileNets files strNetlist) net) := by
  have same : lineNets (files.lines strNetlist) = fileNets files strNetlist :=
    OnePass.lineNets_fileNets fun line member => toUpper_of_not_lower (upper line member)
  have parallel := fileNets_parallel files strNetlist
  obtain ⟨fuel, ran⟩ := ended
  obtain ⟨input, converted⟩ := convertBoard_converted ran
  have filtered := converted.read
  rw [OnePass.getNetlistData_lines, same] at filtered
  obtain ⟨relayList, filtered, _⟩ := map_eq_ok.mp filtered
  have selected := foldlM_acceptNet_eq_ok filtered
  rw [List.nil_append] at selected
  have copied : ∀ net ∈ relayList, net.Parallel := by
    intro net member
    rw [selected] at member
    exact parallel net (List.mem_of_mem_filter member)
  have one := @readBoard_returns files strBom strNetlist relayList (same ▸ filtered)
  have two := @getInputData_returns files strBom strNetlist _ start relayList filtered
  rw [same] at one
  rw [← (headDevice_eq_iff start).mpr rfl] at two
  obtain ⟨_, ended', agree⟩ := one.agree two (steady_readBoard _ _ _) (steady_getInputData _ _)
    (fun board read own request => request.relays_agree own parallel copied) ⟨fuel, ran⟩
  cases agree with
  | @returns _ other alike =>
      refine ⟨other, ended', ?_⟩
      obtain ⟨_, read, request, result⟩ :=
        two.ends_andThen (steady_getInputData _ _) (fun _ => steady_const _) ended'
      have records := request.records parallel copied (ends_const.mp result).symm
      have own := converted.entries fun i net entry current copied stored =>
        And.intro (stored.state current copied.1 converted.ground)
          (stored.strength current copied.1 converted.table)
      have relays : input.relayList = (lineNets (files.lines strNetlist)).filter relayNet :=
        congrArg OnePass.Input.relayList (OnePass.getNetlistData_ok converted.read).2
      rw [relays, same] at own
      rw [selected] at records
      rw [records_eq_iff own records alike.2]
      simp only [normalStateOf_inj]

theorem groundedBoard_records :
    ∃ other, Ends (requestBoard groundedBoard · "bom.csv".toList "netlist.txt".toList)
        (.ok other) ∧
      (groundedRelays.relayData = other.relayData ↔
        ∀ net ∈ (fileNets groundedBoard "netlist.txt".toList).filter relayNet,
          (Shorted ((groundedBoard.lines "netlist.txt".toList).map columns) net ↔
              serverCloses (fileNets groundedBoard "netlist.txt".toList) net = true) ∧
            (net.rows.findSome? rowStrength).getD [] =
              serverStrength (fileNets groundedBoard "netlist.txt".toList) net) :=
  records_agree_iff groundedBoard _ _ groundedBoard_upper (by decide +kernel) groundedRelays
    ⟨3, groundedBoard_converted⟩

end RelayDev.Standalone
