import RelayDev.FilterFaults
import RelayDev.OnePass

/-! What the reader of `relay.cpp` makes of any netlist file, whatever its letters. -/

namespace RelayDev.OnePass

open Cpp Text Netlist RelayFilter FilterFaults

/-- The row of a relay, as `relay.cpp` tells it by its identifier. -/
def Marked (row : Row) : Prop := first row.identifier = 'K'

instance (row : Row) : Decidable (Marked row) := inferInstanceAs (Decidable (_ = _))

def label (row : Row) : Text := row.identifier ++ "_".toList ++ row.device

def OnGround (row : Row) : Prop := row.name = "GND".toList ∧ Marked row

instance (row : Row) : Decidable (OnGround row) := inferInstanceAs (Decidable (_ ∧ _))

def groundLabels (rows : List Row) : List Text := (rows.filter (decide <| OnGround ·)).map label

theorem groundLabels_concat (rows : List Row) (row : Row) :
    groundLabels (rows ++ [row]) = groundRow (groundLabels rows) row := by
  have added : groundRow (groundLabels rows) row =
      if OnGround row then groundLabels rows ++ [label row] else groundLabels rows := rfl
  rw [added, groundLabels, List.filter_append, List.map_append]
  by_cases ground : OnGround row
  · rw [if_pos ground, List.filter_cons_of_pos (by simpa using ground)]
    rfl
  · rw [if_neg ground, List.filter_cons_of_neg (by simpa using ground)]
    exact List.append_nil _

/-- One net for each run of lines that belong together, and one empty element for each line
that opened no net. -/
def lineNets (lines : List Text) : List NetlistData :=
  let runs := lines.splitBy sameNet
  runs.map netOf ++ List.replicate (lines.length - runs.length) .empty

theorem mem_lineNets {lines : List Text} {net : NetlistData} (member : net ∈ lineNets lines) :
    ∃ run, net = netOf run ∧ run ⊆ lines := by
  rcases List.mem_append.mp member with isNet | isSpare
  · obtain ⟨run, listed, rfl⟩ := List.mem_map.mp isNet
    refine ⟨run, rfl, fun line inside => ?_⟩
    rw [← List.flatten_splitBy sameNet lines]
    exact List.mem_flatten.mpr ⟨run, listed, inside⟩
  · exact ⟨[], List.eq_of_mem_replicate isSpare, List.nil_subset _⟩

theorem lineNets_parallel (lines : List Text) : ∀ net ∈ lineNets lines, net.Parallel := by
  intro net member
  obtain ⟨run, rfl, _⟩ := mem_lineNets member
  exact NetlistData.ofRows_parallel _

theorem lineNets_rows {lines : List Text} {net : NetlistData} (member : net ∈ lineNets lines) :
    net.rows ⊆ lines.map columns := by
  obtain ⟨run, rfl, part⟩ := mem_lineNets member
  rw [netOf, NetlistData.rows_ofRows]
  exact List.map_subset columns part

theorem lineNets_connected (lines : List Text) : ∀ net ∈ lineNets lines, Connected net.rows := by
  intro net member row inside device empty
  obtain ⟨line, _, rfl⟩ := List.mem_map.mp (lineNets_rows member inside)
  rw [columns_device_nil empty] at device
  exact absurd device (by decide)

theorem lineNets_fileNets {files : Files} {path : Text}
    (upper : ∀ line ∈ files.lines path, toUpper line = line) :
    lineNets (files.lines path) = fileNets files path := by
  have lines : (files.lines path).map toUpper = files.lines path := by
    rw [List.map_congr_left upper, List.map_id']
  simp only [lineNets, fileNets, nets, lines, List.length_map]

theorem midway_stays (runs : List (List Text)) (run : List Text) (last line : Text) (spare : Nat) :
    update ((Netlist.Reader.midway runs run last spare).netlistData ++ [.empty]) runs.length
        (fun net => net.push (columns line)) =
      .ok (Netlist.Reader.midway runs (last :: run) line (spare + 1)).netlistData := by
  have grown := update_middle (runs.reverse.map netOf)
    (List.replicate spare .empty ++ [.empty]) (netOf (last :: run).reverse)
    (fun net => net.push (columns line))
  rw [List.length_map, List.length_reverse, ← List.replicate_succ', netOf_push] at grown
  simpa [Netlist.Reader.midway, List.replicate_succ'] using grown

theorem midway_opens (runs : List (List Text)) (run : List Text) (last line : Text) (spare : Nat) :
    update ((Netlist.Reader.midway runs run last spare).netlistData ++ [.empty]) (runs.length + 1)
        (fun net => net.push (columns line)) =
      .ok (Netlist.Reader.midway ((last :: run).reverse :: runs) [] line spare).netlistData := by
  have opened := update_middle (runs.reverse.map netOf ++ [netOf (last :: run).reverse])
    (List.replicate spare .empty) .empty (fun net => net.push (columns line))
  rw [← List.replicate_succ, List.length_append, List.length_map, List.length_reverse,
    List.length_singleton] at opened
  simpa [Netlist.Reader.midway, ← List.replicate_succ', netOf] using opened

theorem readLine_lines (runs : List (List Text)) (run : List Text) (last line : Text) (spare : Nat)
    (relayList : List NetlistData) (relayConnection : Bool) (rows : List Row) :
    readLine (.over (.midway runs run last spare) relayList relayConnection (groundLabels rows))
        line =
      let ground := groundLabels (rows ++ [columns line])
      if sameNet last line then
        (if relayConnection then .ok true else readRow (columns line)).map fun relayConnection =>
          .over (.midway runs (last :: run) line (spare + 1)) relayList relayConnection ground
      else
        (readRow (columns line)).map fun relayConnection' =>
          .over (.midway ((last :: run).reverse :: runs) [] line spare)
            (if relayConnection then relayList ++ [netOf (last :: run).reverse] else relayList)
            relayConnection' ground := by
  have moved :=
    nextNet_midway runs run last line spare relayList relayConnection (groundLabels rows)
  dsimp only at moved ⊢
  rw [groundLabels_concat]
  by_cases same : sameNet last line = true
  · simp only [same, if_true] at moved ⊢
    exact readLine_moved moved rfl rfl (midway_stays runs run last line spare)
  · simp only [same, if_false, Bool.false_eq_true] at moved ⊢
    exact readLine_moved moved rfl rfl (midway_opens runs run last line spare)

theorem readLine_first (line : Text) :
    readLine ⟨" ".toList, 0, 0, false, [], [], []⟩ line =
      (readRow (columns line)).map fun accepted =>
        .over (.midway [] [] line 0) [] accepted (groundLabels [columns line]) := by
  have stays : nextNet ⟨" ".toList, 0, 0, false, [], [], []⟩ line =
      .ok (.over ⟨" ".toList, 0, []⟩ [] false (groundLabels [])) := by
    simp [nextNet, Reader.over, groundLabels]
  have pushed : update ([] ++ [NetlistData.empty]) 0 (fun net => net.push (columns line)) =
      .ok (Netlist.Reader.midway [] [] line 0).netlistData := rfl
  have read := @readLine_moved _ _ (.midway [] [] line 0) _ _ _ _ stays rfl rfl pushed
  rw [read, ← groundLabels_concat]
  rfl

/-- The nets of the runs before a line and from it on, and the elements behind them that stay
empty, with `count` lines still to come. -/
def allNets (runs rest : List (List Text)) (spare count : Nat) : List NetlistData :=
  (runs.reverse ++ rest).map netOf ++ List.replicate (spare + (count + 1 - rest.length)) .empty

theorem allNets_stays {rest : List (List Text)} (runs : List (List Text)) (spare : Nat)
    {count : Nat} (bound : rest.length ≤ count + 1) :
    allNets runs rest (spare + 1) count = allNets runs rest spare (count + 1) := by
  rw [allNets, allNets]
  congr 2
  omega

theorem allNets_opens (run : List Text) (runs rest : List (List Text)) (spare count : Nat) :
    allNets (run :: runs) rest spare count = allNets runs (run :: rest) spare (count + 1) := by
  simp [allNets]

def left (nets : List NetlistData) (rows : List Row) (relayList : List NetlistData) :
    Nat × List NetlistData × List NetlistData × List Text :=
  (relayList.length, nets, relayList, groundLabels rows)

def Reader.left (r : Reader) : Nat × List NetlistData × List NetlistData × List Text :=
  (r.relayCounter, r.netlistData, r.relayList, r.gndData)

/-- From the middle of a file on, the reader does what the filter does on the nets still to
come: `relayConnection` tells whether the rows of the net read so far have a relay connection. -/
theorem foldlM_readLine_lines (lines : List Text) (runs : List (List Text)) (run : List Text)
    (last : Text) (spare : Nat) (relayList : List NetlistData) (relayConnection : Bool)
    (rows : List Row)
    (tested : ((last :: run).reverse.map columns).anyM readRow = .ok relayConnection) :
    (lines.foldlM readLine
          (.over (.midway runs run last spare) relayList relayConnection (groundLabels rows))
        >>= storeRelay).map Reader.left =
      let rest := List.splitBy.loop sameNet lines last run []
      ((rest.map netOf).foldlM acceptNet relayList).map
        (left (allNets runs rest spare lines.length) (rows ++ lines.map columns)) := by
  induction lines generalizing runs run last spare relayList relayConnection rows with
  | nil =>
      rw [List.foldlM_nil, pure_eq_ok, ok_bind, storeRelay_midway]
      simp only [List.splitBy.loop, List.reverse_cons, List.reverse_nil, List.nil_append,
        List.map_cons, List.map_nil, List.foldlM_cons, List.foldlM_nil] at tested ⊢
      rw [acceptNet_netOf, tested]
      simp [Except.map, Reader.left, Reader.over, Netlist.Reader.midway, left, allNets]
  | cons line lines ih =>
      rw [List.foldlM_cons, readLine_lines]
      simp only [List.splitBy.loop, List.map_cons, List.length_cons]
      rw [List.append_cons rows (columns line) (lines.map columns)]
      by_cases same : sameNet last line = true
      · simp only [same, if_true]
        have extended := anyM_reverse_cons line last run
        rw [tested, ok_bind] at extended
        have bound := Runs.loop_length sameNet lines line (last :: run) []
        rw [← allNets_stays runs spare (by simpa [Nat.add_comm] using bound)]
        generalize (if relayConnection then .ok true else readRow (columns line)) = test
          at extended ⊢
        cases test with
        | error fault =>
            rw [acceptNet_throws sameNet lines line (last :: run) relayList extended]
            rfl
        | ok accepted =>
            exact ih runs (last :: run) line (spare + 1) relayList accepted _ extended
      · simp only [same, if_false, Bool.false_eq_true]
        rw [Runs.loop_runs, List.reverse_singleton, List.singleton_append, List.map_cons,
          List.foldlM_cons, acceptNet_netOf, tested, ← allNets_opens]
        simp only [Except.map, ok_bind]
        generalize (if relayConnection then relayList ++ [netOf (last :: run).reverse]
          else relayList) = copied
        have single := anyM_single line
        cases test : readRow (columns line) with
        | error fault =>
            rw [acceptNet_throws sameNet lines line [] copied (single.trans test)]
            rfl
        | ok accepted =>
            exact ih ((last :: run).reverse :: runs) [] line spare copied accepted _
              (single.trans test)

theorem lines_left (lines : List Text) :
    (lines.foldlM readLine ⟨" ".toList, 0, 0, false, [], [], []⟩ >>= storeRelay).map Reader.left =
      ((lineNets lines).foldlM acceptNet []).map (left (lineNets lines) (lines.map columns)) := by
  cases lines with
  | nil => rfl
  | cons line lines =>
      have nets : lineNets (line :: lines) =
          allNets [] (List.splitBy.loop sameNet lines line [] []) 0 lines.length := by
        simp [lineNets, allNets, List.splitBy]
      have filtered : (lineNets (line :: lines)).foldlM acceptNet [] =
          ((List.splitBy.loop sameNet lines line [] []).map netOf).foldlM acceptNet [] := by
        rw [nets, allNets, List.foldlM_append, List.reverse_nil, List.nil_append]
        cases ((List.splitBy.loop sameNet lines line [] []).map netOf).foldlM acceptNet [] with
        | error fault => rfl
        | ok relayList => rw [ok_bind, foldlM_acceptNet_spare]
      have single := anyM_single line
      rw [List.foldlM_cons, readLine_first, filtered, nets]
      cases test : readRow (columns line) with
      | error fault =>
          rw [acceptNet_throws sameNet lines line [] [] (single.trans test)]
          rfl
      | ok accepted =>
          exact foldlM_readLine_lines lines [] [] line 0 [] accepted [columns line]
            (single.trans test)

theorem getNetlistData_lines (files : Files) (path : Text) :
    let lines := files.lines path
    getNetlistData files { netlistPath := path } =
      ((lineNets lines).foldlM acceptNet []).map fun relayList =>
        (relayList.length,
          { netlistPath := path
            netlistData := lineNets lines
            relayList
            gndData := groundLabels (lines.map columns) }) := by
  intro lines
  have ended : getNetlistData files { netlistPath := path } =
      ((lines.foldlM readLine ⟨" ".toList, 0, 0, false, [], [], []⟩ >>= storeRelay).map
        Reader.left).map fun (count, netlistData, relayList, gndData) =>
          (count, { netlistPath := path, netlistData, relayList, gndData }) := by
    unfold getNetlistData
    dsimp only
    cases lines.foldlM readLine ⟨" ".toList, 0, 0, false, [], [], []⟩ with
    | error fault => rfl
    | ok r =>
        rw [ok_bind, ok_bind]
        cases storeRelay r <;> rfl
  rw [ended, lines_left]
  cases (lineNets lines).foldlM acceptNet [] <;> rfl

theorem getNetlistData_ok {files : Files} {path : Text} {count : Nat} {read : Input}
    (done : getNetlistData files { netlistPath := path } = .ok (count, read)) :
    let lines := files.lines path
    count = read.relayList.length ∧
      read =
        { netlistPath := path
          netlistData := lineNets lines
          relayList := (lineNets lines).filter relayNet
          gndData := groundLabels (lines.map columns) } := by
  rw [getNetlistData_lines] at done
  obtain ⟨relayList, filtered, same⟩ := map_eq_ok.mp done
  obtain rfl : relayList = _ := foldlM_acceptNet_eq_ok filtered
  cases same
  exact ⟨rfl, rfl⟩

/-- On any netlist the reader throws `out_of_range`, exactly where some net has an overlong row
before any accepted one, or returns: one net for each run of lines, the nets with a relay row as
the relays, and the labels of the rows on the ground, all in the order of the file. A run goes on
while the reader's own test does, so a line behind one that is one blank is in the net of it. -/
theorem getNetlistData_reads (files : Files) (path : Text) :
    let lines := files.lines path
    let relayList := (lineNets lines).filter relayNet
    (getNetlistData files { netlistPath := path } = throwing .outOfRange ∧
        ∃ net ∈ lineNets lines, Overflows net.rows) ∨
      getNetlistData files { netlistPath := path } =
          .ok (relayList.length,
            { netlistPath := path
              netlistData := lineNets lines
              relayList
              gndData := groundLabels (lines.map columns) }) ∧
        ¬ ∃ net ∈ lineNets lines, Overflows net.rows := by
  intro lines relayList
  have read := getNetlistData_lines files path
  have connected := lineNets_connected lines
  have stops : (∃ net ∈ lineNets lines, Stops net.rows) ↔
      ∃ net ∈ lineNets lines, Overflows net.rows :=
    exists_congr fun net => and_congr_right fun member => stops_iff (connected net member)
  rcases foldlM_acceptNet_cases (lineNets lines) [] with
    ⟨⟨exception, throws⟩, stopped⟩ | ⟨⟨out, finished⟩, reads⟩
  · have same := foldlM_acceptNet_fault connected throws
    cases same
    exact .inl ⟨read.trans (by rw [throws]; rfl), stops.mp stopped⟩
  · obtain rfl : out = relayList := foldlM_acceptNet_eq_ok finished
    exact .inr ⟨read.trans (by rw [finished]; rfl), fun overflows => reads (stops.mpr overflows)⟩

end RelayDev.OnePass
