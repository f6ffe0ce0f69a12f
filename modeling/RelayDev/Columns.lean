import RelayDev.Netlist
import RelayDev.RelayConvert
import RelayDev.RelayFilter

/-! The four columns of a net: what every netlist file leaves behind, well formed or not,
and the indices into it. -/

namespace RelayDev.Columns

open Cpp Text Netlist RelayConvert RelayFilter

/-- A loop bounded by `name.size()` or by `device.size()` stays inside all four columns. -/
def Indexed (net : NetlistData) : Prop :=
  ∀ i, i < net.name.length ∨ i < net.device.length →
    ∃ row : Row, index net.name i = .ok row.name ∧ index net.identifier i = .ok row.identifier ∧
      index net.connection i = .ok row.connection ∧ index net.device i = .ok row.device

theorem parallel_indexed {net : NetlistData} (parallel : net.Parallel) : Indexed net := by
  intro i bound
  rw [← NetlistData.ofRows_rows net parallel] at bound ⊢
  have inside : i < net.rows.length := by simpa using bound
  have found := List.getElem?_eq_getElem inside
  exact ⟨net.rows[i], index_map _ found, index_map _ found, index_map _ found, index_map _ found⟩

theorem nets_filled (lines : List Text) : ∀ net ∈ nets lines, net.name ≠ [] := by
  intro net member
  obtain ⟨run, inside, rfl⟩ := List.mem_map.mp member
  have nonempty := List.ne_nil_of_mem_splitBy inside
  simpa [netOf] using nonempty

theorem nets_rows (lines : List Text) :
    ((nets lines).flatMap (·.name)).length = lines.length := by
  have split := congrArg List.length (List.flatten_splitBy sameNet (lines.map toUpper))
  rw [List.length_flatten, List.length_map] at split
  rw [nets, List.length_flatMap, List.map_map, ← split]
  congr 1
  apply List.map_congr_left
  intro run _
  simp [netOf]

theorem nets_length (lines : List Text) : (nets lines).length ≤ lines.length := by
  rw [nets, List.length_map]
  cases lines with
  | nil => simp
  | cons line lines =>
      have bound := Runs.loop_length sameNet (lines.map toUpper) (toUpper line) [] []
      simp only [List.length_map, List.length_nil] at bound
      simp only [List.map_cons, List.splitBy, List.length_cons]
      omega

theorem pulldownNet_ok {net : NetlistData} (indexed : Indexed net) (resistorIdentifier : Text)
    (s : Pulldown) : ∃ r, pulldownNet resistorIdentifier net s = .ok r := by
  have rows (s : Pulldown) :
      ∃ last, forIn (List.range net.name.length) s (pulldownRow net resistorIdentifier) =
        .ok last := by
    apply Loop.forIn_ok
    intro k member s
    obtain ⟨row, name, identifier, _⟩ := indexed k (.inl (List.mem_range.mp member))
    rw [pulldownRow, identifier, name]
    simp only [ok_bind]
    split
    · split
      · exact ⟨_, rfl⟩
      · split
        · exact ⟨_, rfl⟩
        · exact ⟨_, rfl⟩
    · exact ⟨_, rfl⟩
  obtain ⟨last, read⟩ := rows s
  rw [pulldownNet, read, ok_bind]
  split
  · exact ⟨_, rfl⟩
  · exact ⟨_, rfl⟩

theorem normalRow_ok {input : Input} (indexed : ∀ net ∈ input.netlistData, Indexed net)
    {net : NetlistData} (columns : Indexed net) {i : Nat} (bound : i < net.device.length)
    (s : Normal) : ∃ r, normalRow input net i s = .ok r := by
  obtain ⟨row, _, identifier, _, device⟩ := columns i (.inr bound)
  have search (resistorIdentifier : Text) :
      ∃ last, forIn input.netlistData ⟨false, 0⟩ (pulldownNet resistorIdentifier) = .ok last :=
    Loop.forIn_ok input.netlistData (pulldownNet resistorIdentifier)
      (fun net member s => pulldownNet_ok (indexed net member) resistorIdentifier s) ⟨false, 0⟩
  rw [normalRow, device, ok_bind]
  dsimp only
  split
  all_goals
    simp only [identifier, ok_bind, pure_eq_ok]
    split
    · obtain ⟨pulldown, searched⟩ := search _
      rw [searched]
      exact ⟨_, rfl⟩
    · exact ⟨_, rfl⟩

theorem convertNormalState_ok {input : Input} {relay : Relay} {net : NetlistData}
    (indexed : ∀ net ∈ input.netlistData, Indexed net)
    (current : input.relayList[relay.currentRelay]? = some net) (columns : Indexed net) :
    ∃ normalState, convertNormalState input relay = .ok normalState := by
  obtain ⟨last, read⟩ := Loop.forIn_ok (List.range net.device.length) (normalRow input net)
    (fun i member s => normalRow_ok indexed columns (List.mem_range.mp member) s)
    ⟨"RELAY_NO".toList, [], false⟩
  rw [convertNormalState, index_of_getElem? current, ok_bind, read]
  exact ⟨_, rfl⟩

theorem convertDriveStrength_ok {input : Input} {relay : Relay} {net : NetlistData}
    (current : input.relayList[relay.currentRelay]? = some net) :
    ∃ driveStrength, convertDriveStrength input relay = .ok driveStrength := by
  rw [convertDriveStrength, index_of_getElem? current, ok_bind]
  apply Loop.forIn_ok
  intro device _ driveStrength
  dsimp only
  split
  · exact ⟨_, rfl⟩
  · exact ⟨_, rfl⟩

/-- The conversions that read the columns of a relay read none of them out of bounds. -/
structure Converts (input : Input) (relay : Relay) : Prop where
  device : ∃ device, convertDevice input relay = .ok device
  port : convertPort input relay ≠ .error .undefined
  normalState : ∃ normalState, convertNormalState input relay = .ok normalState
  driveStrength : ∃ driveStrength, convertDriveStrength input relay = .ok driveStrength

theorem parallel_converts {input : Input} {relay : Relay} {net : NetlistData}
    (columns : ∀ net ∈ input.netlistData, net.Parallel)
    (current : input.relayList[relay.currentRelay]? = some net) (parallel : net.Parallel) :
    Converts input relay := by
  refine ⟨⟨_, convertDevice_eq current parallel⟩, ?_, ?_, convertDriveStrength_ok current⟩
  · rw [convertPort_eq current parallel]
    intro failed
    exact stoi_defined _ (map_eq_error.mp failed)
  · exact convertNormalState_ok (fun net member => parallel_indexed (columns net member)) current
      (parallel_indexed parallel)

theorem relayNet_filled {net : NetlistData} (relay : relayNet net = true) : net.name ≠ [] := by
  intro empty
  have none : net.rows = [] := by simp [NetlistData.rows, empty]
  rw [relayNet, none] at relay
  cases relay

/-- Whatever the lines of a netlist file are, it leaves one element for each of them, the
filled ones first, with four columns of one length that together hold every line once; and
every relay the filter finds has rows, so that no index of the later loops is out of bounds. -/
theorem netlist_columns (files : Files) (input : Input) (noNets : input.netlistData = [])
    (noRelays : input.relayList = []) :
    let lines := files.lines input.netlistName
    ∃ read, getNetlistData files input = .ok read ∧
      read.netlistData.length = lines.length ∧
      (∃ filled spare, read.netlistData = filled ++ List.replicate spare .empty ∧
        ∀ net ∈ filled, net.name ≠ []) ∧
      (read.netlistData.flatMap (·.name)).length = lines.length ∧
      (∀ net ∈ read.netlistData, net.Parallel ∧ Indexed net) ∧
      ∀ filtered, filterNetlistData read = .ok filtered →
        filtered.netlistData = read.netlistData ∧
        (∀ net ∈ filtered.relayList, net.Parallel ∧ Indexed net ∧ net.name ≠ []) ∧
        ∀ (ordered : Input) (relay : Relay), ordered.netlistData = filtered.netlistData →
          ordered.relayList = filtered.relayList →
          relay.currentRelay < filtered.relayList.length → Converts ordered relay := by
  intro lines
  have parallel := fileNets_parallel files input.netlistName
  refine ⟨_, getNetlistData_eq files input noNets, ?_, ?_, ?_, ?_, ?_⟩
  · have bound := nets_length lines
    simp only [fileNets, List.length_append, List.length_replicate]
    exact Nat.add_sub_cancel' bound
  · exact ⟨nets lines, _, rfl, nets_filled lines⟩
  · simp only [fileNets, List.flatMap_append, List.length_append, nets_rows]
    simp [NetlistData.empty, lines]
  · intro net member
    exact ⟨parallel net member, parallel_indexed (parallel net member)⟩
  · intro filtered finished
    have selected := filterNetlistData_selects
      { input with netlistData := fileNets files input.netlistName } filtered parallel noRelays
      finished
    have relays (net : NetlistData) (member : net ∈ filtered.relayList) :
        net.Parallel ∧ relayNet net = true := by
      rw [selected] at member
      obtain ⟨member, relay⟩ := List.mem_filter.mp member
      exact ⟨parallel net member, relay⟩
    refine ⟨by rw [selected], ?_, ?_⟩
    · intro net member
      obtain ⟨columns, relay⟩ := relays net member
      exact ⟨columns, parallel_indexed columns, relayNet_filled relay⟩
    · intro ordered relay sameNets sameRelays bound
      have current : ordered.relayList[relay.currentRelay]? =
          some filtered.relayList[relay.currentRelay] := by
        rw [sameRelays, List.getElem?_eq_getElem bound]
      apply parallel_converts _ current
      · exact (relays _ (List.getElem_mem bound)).1
      · rw [sameNets, selected]
        exact parallel

def malformedFile : Text := "K1 U1 5 MAX6957ATL_TQFN-40-MAX6957ATL+\n\n \nK2".toList

theorem netlist_columns_malformedFile :
    ∃ read, getNetlistData (fun _ => some malformedFile) {} = .ok read ∧
      read.netlistData.length = 4 ∧
      (∃ filled spare, read.netlistData = filled ++ List.replicate spare .empty ∧
        ∀ net ∈ filled, net.name ≠ []) ∧
      ∀ net ∈ read.netlistData, net.Parallel ∧ Indexed net := by
  obtain ⟨read, same, count, filled, _, columns, _⟩ :=
    netlist_columns (fun _ => some malformedFile) {} rfl rfl
  exact ⟨read, same, count, filled, columns⟩

end RelayDev.Columns
