import RelayDev.Serving
import RelayDev.StandaloneAgreement
import RelayDev.StandaloneFile

/-! Which boards `relay.cpp` gets through: when a run of the program ends with success. -/

namespace RelayDev.Standalone

open Cpp Text Bill DeviceOrder RelayFilter RelayConvert FilterFaults Netlist
open OnePass (groundLabels lineNets)

theorem relayConvert_ok_iff {input : Input} (board : input.boardType = "Power".toList)
    (table : input.mapDriveStrength = driveStrengths)
    (ground : ∃ rows, input.gndData = groundLabels rows)
    (copied : ∀ net ∈ input.relayList, net.Parallel) :
    (∃ relay, relayConvert input { relayAmount := input.relayList.length } = .ok relay) ↔
      ∀ net ∈ input.relayList, Convertible net := by
  let read : RelayDev.Input := { relayList := input.relayList, ioData := input.ioData }
  have same : SameBoard input read :=
    ⟨board, rfl, table, ground, rfl, rfl, copied, fun _ member => nomatch member⟩
  rw [(relayConvert_agree same).ok_iff]
  exact RelayConvert.relayConvert_ok_iff copied fun _ member => nomatch member

structure Configures (files : Files) (strBom strNetlist : Text) : Prop where
  bill : ∀ line ∈ files.lines strBom, LineCloses line
  reader : ¬ ∃ net ∈ lineNets (files.lines strNetlist), Overflows net.rows
  chain : ∃ moved, Chase.Walk (links (lineNets (files.lines strNetlist)))
    (headDevice (lineNets (files.lines strNetlist))).identifier moved
  relays : ∀ net ∈ lineNets (files.lines strNetlist), relayNet net = true → Convertible net

theorem convertBoard_ok_iff (files : Files) (strBom strNetlist : Text) :
    (∃ relay, Ends (convertBoard files · strBom strNetlist) (.ok relay)) ↔
      Configures files strBom strNetlist := by
  have parallel := OnePass.lineNets_parallel (files.lines strNetlist)
  have connected := OnePass.lineNets_connected (files.lines strNetlist)
  rcases foldlM_acceptNet_cases (lineNets (files.lines strNetlist)) [] with
    ⟨⟨exception, throws⟩, net, member, stops⟩ | ⟨⟨relayList, filtered⟩, reads⟩
  · have overflows := (stops_iff (connected net member)).mp stops
    refine iff_of_false ?_ fun configures => configures.reader ⟨net, member, overflows⟩
    rintro ⟨relay, ended⟩
    obtain ⟨_, failed⟩ := (convertBoard_throws throws).mp ended
    cases failed
  · obtain rfl : relayList = _ := foldlM_acceptNet_eq_ok filtered
    have board := @readBoard_returns files strBom strNetlist _ filtered
    have turn (read : Nat × Input) (own : BoardRead (lineNets (files.lines strNetlist))
        ((lineNets (files.lines strNetlist)).filter relayNet) read) :
        (∃ relay, relayConvert read.2 { relayAmount := read.1 } = .ok relay) ↔
          ∀ net ∈ lineNets (files.lines strNetlist), relayNet net = true → Convertible net := by
      have copied : ∀ net ∈ read.2.relayList, net.Parallel := by
        rw [own.relays]
        exact fun net member => parallel net (List.mem_of_mem_filter member)
      rw [own.count, ← own.relays, relayConvert_ok_iff own.board own.table own.ground copied,
        own.relays]
      simp only [List.mem_filter, and_imp]
    refine (board.ends_ok_iff (steady_readBoard files strBom strNetlist) turn).trans ?_
    constructor
    · rintro ⟨⟨bill, chain⟩, relays⟩
      refine ⟨bill, ?_, chain, relays⟩
      rintro ⟨net, member, overflows⟩
      exact reads ⟨net, member, (stops_iff (connected net member)).mpr overflows⟩
    · rintro ⟨bill, _, chain, relays⟩
      exact ⟨⟨bill, chain⟩, relays⟩

section Arguments

variable {files : Files} {opens : Text → Bool} {args : List Text} {disk left : Disk}
  {strBom strNetlist outputName : Text} (named : arguments args = (strBom, strNetlist, outputName))

include named

theorem configures_of_main {fuel : Nat}
    (ran : main files opens fuel args disk = some (.ok (0, left))) :
    strBom ≠ [] ∧ strNetlist ≠ [] ∧ Configures files strBom strNetlist := by
  simp only [main, named] at ran
  split at ran
  · cases ran
  · rename_i given
    obtain ⟨bom, netlist⟩ := not_or.mp given
    rcases andThen_eq_some.mp ran with ⟨fault, _, failed⟩ | ⟨relay, converted, _⟩
    · cases failed
    · have configures := (convertBoard_ok_iff files strBom strNetlist).mp ⟨relay, fuel, converted⟩
      exact ⟨bom, netlist, configures⟩

theorem main_of_configures (opens : Text → Bool) (disk : Disk) (bom : strBom ≠ [])
    (netlist : strNetlist ≠ []) (configures : Configures files strBom strNetlist) :
    ∃ fuel left, main files opens fuel args disk = some (.ok (0, left)) := by
  obtain ⟨relay, fuel, converted⟩ := (convertBoard_ok_iff files strBom strNetlist).mpr configures
  dsimp only at converted
  obtain ⟨input, run⟩ := convertBoard_converted converted
  have ran : main files opens fuel args disk =
      some ((writeCSV opens relay outputName disk).map fun disk => (0, disk)) := by
    simp only [main, named]
    rw [if_neg (by simp [bom, netlist]), converted, andThen_ok]
  rw [writeCSV_eq run.length] at ran
  exact ⟨fuel, _, ran⟩

end Arguments

/-- A run ends with the exit code of a success exactly if it is given both paths and the two
files hold what the conversion asks of them, whatever becomes of the output file. -/
theorem main_succeeds_iff (files : Files) (opens : Text → Bool) (args : List Text) (disk : Disk) :
    let (strBom, strNetlist, _) := arguments args
    (∃ fuel left, main files opens fuel args disk = some (.ok (0, left))) ↔
      strBom ≠ [] ∧ strNetlist ≠ [] ∧ Configures files strBom strNetlist := by
  rcases named : arguments args with ⟨strBom, strNetlist, outputName⟩
  constructor
  · rintro ⟨fuel, left, ran⟩
    exact configures_of_main named ran
  · rintro ⟨bom, netlist, configures⟩
    exact main_of_configures named opens disk bom netlist configures

/-- On a netlist without lower-case letters, where both programs start at the same expander,
the server asks of the two files what `relay.cpp` does, and of the bill that its rows bind. -/
theorem serves_iff_configures {files : Files} {strBom strNetlist : Text}
    (upper : ∀ line ∈ files.lines strNetlist, ∀ c ∈ line, c.isLower = false)
    (start : firstLink (fileNets files strNetlist) =
      some (headDevice (fileNets files strNetlist)).identifier) :
    Server.Serves files strBom strNetlist ↔
      Configures files strBom strNetlist ∧ Server.BillBinds files strBom := by
  have same : lineNets (files.lines strNetlist) = fileNets files strNetlist :=
    OnePass.lineNets_fileNets fun line member => toUpper_of_not_lower (upper line member)
  have connected := fileNets_connected files strNetlist
  have stops : (∃ net ∈ fileNets files strNetlist, Stops net.rows) ↔
      ∃ net ∈ fileNets files strNetlist, Overflows net.rows :=
    exists_congr fun net => and_congr_right fun member => stops_iff (connected net member)
  constructor
  · rintro ⟨binds, reads, ⟨head, moved, first, walk⟩, relays⟩
    obtain rfl := Option.some.inj (start.symm.trans first)
    rw [stops] at reads
    exact ⟨⟨binds.closes, same ▸ reads, same ▸ ⟨moved, walk⟩, same ▸ relays⟩, binds⟩
  · rintro ⟨⟨_, reads, chain, relays⟩, binds⟩
    rw [same] at reads chain relays
    obtain ⟨moved, walk⟩ := chain
    exact ⟨binds, stops.not.mpr reads, ⟨_, moved, start, walk⟩, relays⟩

/-- On such a netlist a request with two paths that are not empty is served, by a database that
refuses nothing, exactly if `relay.cpp` ends with success on them and the rows of the bill
bind. -/
theorem served_iff_succeeds (env : Server.Environment)
    (calm : ∀ k, env.world.databaseThrows k = false) (store : Output.Store)
    (opens : Text → Bool) (disk : Disk) (strBom strNetlist : Text) (bom : strBom ≠ [])
    (netlist : strNetlist ≠ [])
    (upper : ∀ line ∈ env.files.lines strNetlist, ∀ c ∈ line, c.isLower = false)
    (start : firstLink (fileNets env.files strNetlist) =
      some (headDevice (fileNets env.files strNetlist)).identifier) :
    (∃ fuel relayAmount left,
        Server.process env fuel store strBom strNetlist = some (.ok relayAmount, left)) ↔
      (∃ fuel left,
        main env.files opens fuel [strBom, strNetlist] disk = some (.ok (0, left))) ∧
        Server.BillBinds env.files strBom := by
  have named : arguments [strBom, strNetlist] =
      (strBom, strNetlist, "Configuration.csv".toList) := rfl
  have both := @serves_iff_configures _ strBom _ upper start
  constructor
  · rintro ⟨fuel, relayAmount, left, served⟩
    obtain ⟨serves, _⟩ := Server.serves_of_process calm served
    obtain ⟨configures, binds⟩ := both.mp serves
    exact ⟨main_of_configures named opens disk bom netlist configures, binds⟩
  · rintro ⟨⟨fuel, left, ran⟩, binds⟩
    obtain ⟨_, _, configures⟩ := configures_of_main named ran
    have serves := both.mpr ⟨configures, binds⟩
    obtain ⟨fuel, left, served⟩ := Server.process_of_serves calm store serves
    exact ⟨fuel, _, left, served⟩

def groundedEnvironment : Server.Environment where
  files := groundedBoard
  world := ⟨fun _ => false, fun _ => true⟩
  uninit := initialised
  what := fun _ => []

theorem served_iff_succeeds_groundedBoard :
    (∃ fuel relayAmount left, Server.process groundedEnvironment fuel {} "bom.csv".toList
        "netlist.txt".toList = some (.ok relayAmount, left)) ↔
      (∃ fuel left, main groundedBoard (fun _ => true) fuel
          ["bom.csv".toList, "netlist.txt".toList] [] = some (.ok (0, left))) ∧
        Server.BillBinds groundedBoard "bom.csv".toList :=
  served_iff_succeeds groundedEnvironment (fun _ => rfl) {} (fun _ => true) [] _ _ (by decide)
    (by decide) groundedBoard_upper (by decide +kernel)

end RelayDev.Standalone
