import RelayDev.Records
import RelayDev.StandaloneRelay

/-! The file `relay.cpp` leaves, as a reader of comma-separated values has it. -/

namespace RelayDev.Standalone

open Cpp Text Loop Output
open OnePass (groundLabels)

def readTable (content : Text) : Option (List RelayData) :=
  (textLines content).mapM fun line => readRecord (line.splitOn ',')

theorem csvLine_eq (entry : RelayData) :
    csvLine entry = List.intercalate [','] ((recordValues entry).map Value.cell) := rfl

def Foreign (c : Char) : Prop := c = ',' ∨ c = '\n'

theorem Foreign.absent {c : Char} (foreign : Foreign c) {s : Text} (cell : IsCell s) : c ∉ s := by
  rcases foreign with rfl | rfl
  · exact cell.1
  · exact cell.2

theorem convertPin_cell {relayName pin : Text} (converted : convertPin relayName = .ok pin) :
    IsCell pin := by
  obtain ⟨lastChar, _, rest⟩ := bind_eq_ok.mp converted
  split at rest
  · obtain ⟨tens, _, rest⟩ := bind_eq_ok.mp rest
    cases rest
    apply IsCell.append
    · decide
    · exact isCell_numeral _
  · cases rest
    decide

theorem convertEnum_foreign {relayName enumeration : Text} {c : Char} (foreign : Foreign c)
    (absent : c ∉ relayName) (converted : convertEnum relayName = .ok enumeration) :
    c ∉ enumeration := by
  have front (count : Nat) : c ∉ relayName.take count :=
    fun member => absent (List.take_subset count relayName member)
  have cib : c ∉ "CIB".toList := foreign.absent (by decide)
  have sysgnd : c ∉ "SYSGND".toList := foreign.absent (by decide)
  obtain ⟨lastChar, _, rest⟩ := bind_eq_ok.mp converted
  split at rest
  · obtain ⟨break_, _, rest⟩ := bind_eq_ok.mp rest
    obtain ⟨last, cut, rest⟩ := bind_eq_ok.mp rest
    cases rest
    simp only [List.mem_append, not_or]
    exact ⟨⟨front _, cib⟩, fun member => absent (substrFrom_subset cut member)⟩
  · split at rest
    · cases rest
      simp only [List.mem_append, not_or]
      exact ⟨front _, sysgnd⟩
    · dsimp only at rest
      split at rest
      · cases rest
        simp only [List.mem_append, not_or]
        exact ⟨front _, cib⟩
      · cases rest

theorem rowStrength_cell {row : Row} {strength : Text} (gives : rowStrength row = some strength) :
    IsCell strength := by
  have table : ∀ entry ∈ driveStrengths, IsCell entry.2 := by decide
  unfold rowStrength at gives
  split at gives
  · cases gives
    decide
  · obtain ⟨entry, found, rfl⟩ := Option.map_eq_some_iff.mp gives
    exact table entry (List.mem_of_find?_eq_some found)

theorem convertPort_cell {input : List NetlistData} {i : Nat} {port : Text}
    (converted : convertPort input i = .ok port) : IsCell port := by
  obtain ⟨net, _, rest⟩ := bind_eq_ok.mp converted
  have read (portIdentifier : Text) (rest : (stoi portIdentifier >>= fun number =>
      pure (RelayConvert.portNumber number)) = .ok port) : IsCell port := by
    obtain ⟨connectionNumber, _, same⟩ := bind_eq_ok.mp rest
    cases same
    exact portNumber_cell connectionNumber
  dsimp only at rest
  split at rest
  · exact read [] rest
  · obtain ⟨portIdentifier, _, rest⟩ := bind_eq_ok.mp rest
    exact read portIdentifier rest

theorem recordValues_absent {entry : RelayData} {c : Char} (foreign : Foreign c)
    (pin : IsCell entry.pin) (enumeration : c ∉ entry.enumeration)
    (port : IsCell entry.portNumber) (strength : IsCell entry.driveStrength)
    (state : IsCell entry.normalState) (name : c ∉ entry.relayName) :
    ∀ cell ∈ (recordValues entry).map Value.cell, c ∉ cell := by
  have number (n : Int) : c ∉ written n := foreign.absent (isCell_written n)
  simp [recordValues, Value.cell, number, enumeration, name, foreign.absent pin,
    foreign.absent port, foreign.absent strength, foreign.absent state]

theorem Stored.cells {input : Input} {i : Nat} {net : NetlistData} {entry : RelayData}
    (stored : Stored input i net entry) (current : input.relayList[i]? = some net)
    (parallel : net.Parallel) (table : input.mapDriveStrength = driveStrengths) {rows : List Row}
    (ground : input.gndData = groundLabels rows) {c : Char} (foreign : Foreign c)
    (absent : c ∉ entry.relayName) : ∀ cell ∈ (recordValues entry).map Value.cell, c ∉ cell := by
  have strength : IsCell entry.driveStrength := by
    rw [stored.strength current parallel table]
    cases gives : net.rows.findSome? rowStrength with
    | none => decide
    | some strength =>
        obtain ⟨row, _, decides⟩ := List.exists_of_findSome?_eq_some gives
        exact rowStrength_cell decides
  have state : IsCell entry.normalState := by
    rw [stored.state current parallel ground, PullDown.normalStateOf]
    split <;> decide
  exact recordValues_absent foreign (convertPin_cell stored.pin)
    (convertEnum_foreign foreign absent stored.enumeration) (convertPort_cell stored.port)
    strength state absent

theorem readRecord_name {cells : List Text} {entry : RelayData}
    (read : readRecord cells = some entry) : entry.relayName ∈ cells := by
  unfold readRecord at read
  split at read
  · simp only [Option.bind_eq_bind, Option.bind_eq_some_iff, Option.pure_def,
      Option.some.injEq] at read
    obtain ⟨_, _, _, _, _, _, _, _, _, _, _, _, _, _, _, _, rfl⟩ := read
    simp
  · cases read

theorem mapM_read_iff {α β : Type} {write : α → β} {read : β → Option α} {xs : List α} :
    (xs.map write).mapM read = some xs ↔ ∀ x ∈ xs, read (write x) = some x := by
  refine ⟨fun decoded => ?_, mapM_read⟩
  induction xs with
  | nil => simp
  | cons x xs ih =>
      rw [List.map_cons, List.mapM_cons] at decoded
      obtain ⟨y, here, decoded⟩ := Option.bind_eq_some_iff.mp decoded
      obtain ⟨ys, rest, same⟩ := Option.bind_eq_some_iff.mp decoded
      cases same
      exact List.forall_mem_cons.mpr ⟨here, ih rest⟩

theorem readRecord_csvLine_iff {entry : RelayData}
    (others : ',' ∉ entry.relayName → ∀ cell ∈ (recordValues entry).map Value.cell, ',' ∉ cell) :
    readRecord ((csvLine entry).splitOn ',') = some entry ↔ ',' ∉ entry.relayName := by
  constructor
  · intro read
    exact splitOn_apart (readRecord_name read)
  · intro absent
    rw [csvLine_eq, List.splitOn_intercalate ',' (others absent) (by simp [recordValues])]
    exact readRecord_cells entry

theorem csvLine_unbroken {entry : RelayData}
    (unbroken : ∀ cell ∈ (recordValues entry).map Value.cell, '\n' ∉ cell) :
    '\n' ∉ csvLine entry := by
  intro broken
  rw [csvLine_eq] at broken
  rcases mem_intercalate broken with comma | ⟨cell, inside, broken⟩
  · exact absurd comma (by decide)
  · exact unbroken cell inside broken

theorem textLines_csv {entries : List RelayData}
    (unbroken : ∀ entry ∈ entries, ∀ cell ∈ (recordValues entry).map Value.cell, '\n' ∉ cell) :
    textLines (List.intercalate ['\n'] (entries.map csvLine)) = entries.map csvLine := by
  apply textLines_intercalate
  · intro line member
    obtain ⟨entry, listed, rfl⟩ := List.mem_map.mp member
    exact csvLine_unbroken (unbroken entry listed)
  · intro line member
    obtain ⟨entry, _, rfl⟩ := List.mem_map.mp member
    rw [csvLine_eq]
    simp [recordValues, List.intercalate]

theorem name_unbroken {files : Files} {path : Text} {net : NetlistData} {row : Row}
    (copied : net.rows ⊆ (files.lines path).map Netlist.columns) (member : row ∈ net.rows) :
    '\n' ∉ row.name := by
  obtain ⟨line, listed, rfl⟩ := List.mem_map.mp (copied member)
  have taken : Netlist.column line ⊆ line := by
    rw [Netlist.column, substr_find]
    exact List.takeWhile_subset _
  exact fun broken => Netlist.lines_unbroken listed (taken broken)

/-- The name of the relay has no line break, and what else has a comma has it from the name. -/
def Delimited (entry : RelayData) : Prop :=
  '\n' ∉ entry.relayName ∧ ∀ c, Foreign c → c ∉ entry.relayName →
    ∀ cell ∈ (recordValues entry).map Value.cell, c ∉ cell

theorem Converted.delimited {files : Files} {strNetlist : Text} {relay : Relay} {input : Input}
    (converted : Converted files strNetlist relay input) :
    ∀ entry ∈ relay.relayData, Delimited entry := by
  have each : List.Forall₂ (fun _ entry => Delimited entry) input.relayList relay.relayData := by
    refine converted.entries fun i net entry current copied stored => ?_
    obtain ⟨row, rest, rows, name⟩ := stored.first_row copied.1
    constructor
    · rw [name]
      exact name_unbroken copied.2 (by simp [rows])
    · intro c foreign absent
      exact stored.cells current copied.1 converted.table converted.ground foreign absent
  exact forall_of_forall₂ each

theorem Converted.length {files : Files} {strNetlist : Text} {relay : Relay} {input : Input}
    (converted : Converted files strNetlist relay input) :
    relay.relayData.length = relay.relayAmount := by
  rw [← converted.each.length_eq, List.length_range]

theorem writeCSV_eq {opens : Text → Bool} {relay : Relay} {outputName : Text} {disk : Disk}
    (count : relay.relayData.length = relay.relayAmount) :
    writeCSV opens relay outputName disk = .ok (if opens outputName then
      (outputName, List.intercalate ['\n'] (relay.relayData.map csvLine)) ::
        disk.filter (·.1 ≠ outputName) else disk) := by
  have records := mapM_index relay.relayData
  rw [count] at records
  unfold writeCSV
  split
  · rw [records]
    rfl
  · rfl

theorem lookup_written {disk : Disk} {outputName name content : Text} (other : name ≠ outputName) :
    List.lookup name ((outputName, content) :: disk.filter (·.1 ≠ outputName)) =
      disk.lookup name := by
  have apart : (name == outputName) = false := beq_false_of_ne other
  rw [List.lookup_cons, apart]
  induction disk with
  | nil => rfl
  | cons entry disk ih =>
      by_cases same : entry.1 = outputName
      · rw [List.filter_cons_of_neg (by simpa using same), List.lookup_cons, same, apart]
        exact ih
      · rw [List.filter_cons_of_pos (by simpa using same), List.lookup_cons, List.lookup_cons]
        cases name == entry.1 with
        | true => rfl
        | false => exact ih

/-- What a run of the program that returns leaves: nothing for arguments without both paths,
and also for an output file that does not open, though the exit code is then that of a success.
Otherwise the output file alone is written, a line for each relay, and it reads back as the
relays exactly if no name of a relay has a comma. -/
theorem main_leaves {files : Files} {opens : Text → Bool} {fuel : Nat} {args : List Text}
    {disk left : Disk} {code : Int}
    (ran : main files opens fuel args disk = some (.ok (code, left))) :
    let (strBom, strNetlist, outputName) := arguments args
    (code = 1 ∧ left = disk ∧ (strBom = [] ∨ strNetlist = [])) ∨
      code = 0 ∧ strBom ≠ [] ∧ strNetlist ≠ [] ∧
        (opens outputName = false → left = disk) ∧
        (∀ name, name ≠ outputName → left.lookup name = disk.lookup name) ∧
        ∃ relay, convertBoard files fuel strBom strNetlist = some (.ok relay) ∧
          (opens outputName = true → ∃ content, left.lookup outputName = some content ∧
            (textLines content).length = relay.relayAmount ∧
            (readTable content = some relay.relayData ↔
              ∀ entry ∈ relay.relayData, ',' ∉ entry.relayName)) := by
  unfold main at ran
  rcases named : arguments args with ⟨strBom, strNetlist, outputName⟩
  simp only [named] at ran
  dsimp only
  split at ran
  · rename_i missing
    cases ran
    exact .inl ⟨rfl, rfl, missing⟩
  · rename_i given
    obtain ⟨bom, netlist⟩ := not_or.mp given
    rcases andThen_eq_some.mp ran with ⟨fault, _, failed⟩ | ⟨relay, converted, ran⟩
    · cases failed
    obtain ⟨input, run⟩ := convertBoard_converted converted
    rw [writeCSV_eq run.length] at ran
    cases ran
    refine .inr ⟨rfl, bom, netlist, ?_, ?_, relay, converted, ?_⟩
    · intro closed
      simp [closed]
    · intro name other
      split
      · exact lookup_written other
      · rfl
    · intro opened
      have lines := textLines_csv fun entry member =>
        (run.delimited entry member).2 '\n' (.inr rfl) (run.delimited entry member).1
      refine ⟨List.intercalate ['\n'] (relay.relayData.map csvLine), by simp [opened], ?_, ?_⟩
      · rw [lines, List.length_map, run.length]
      · rw [readTable, lines, mapM_read_iff]
        refine forall₂_congr fun entry member => ?_
        exact readRecord_csvLine_iff ((run.delimited entry member).2 ',' (.inl rfl))

def groundedFile : Text := List.intercalate ['\n']
  ["DUT_PIN_1,K1_CIB_1,0,22,P8,CONFIG_LED_10p5_mA,RELAY_NC,0,60,200,0,100,500,K1_CNTL_1".toList,
    "DUT_PIN_2,K2_CIB_2,0,22,P12,,RELAY_NO,0,60,200,0,100,500,K2_CNTL_2".toList]

theorem groundedBoard_main :
    main groundedBoard (fun _ => true) 3 ["bom.csv".toList, "netlist.txt".toList] [] =
      some (.ok (0, [("Configuration.csv".toList, groundedFile)])) := by
  decide +kernel

theorem groundedBoard_leaves :
    ∃ relay, convertBoard groundedBoard 3 "bom.csv".toList "netlist.txt".toList =
        some (.ok relay) ∧
      (readTable groundedFile = some relay.relayData ↔
        ∀ entry ∈ relay.relayData, ',' ∉ entry.relayName) := by
  rcases main_leaves groundedBoard_main with
    ⟨failed, _⟩ | ⟨_, _, _, _, _, relay, converted, written⟩
  · exact absurd failed (by decide)
  · obtain ⟨content, found, _, reads⟩ := written rfl
    obtain rfl : groundedFile = content := Option.some.inj found
    exact ⟨relay, converted, reads⟩

end RelayDev.Standalone
