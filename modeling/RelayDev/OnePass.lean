import RelayDev.Netlist
import RelayDev.RelayFilter

/-! `relay.cpp`: the reader that finds the relays while it reads the netlist, and its
agreement with the two passes of `Input.cpp`. -/

namespace RelayDev.OnePass

open Cpp Text Netlist RelayFilter

/-- The fields of `Input` in `relay.cpp` that `getNetlistData` uses. Its `NetlistData` has
the same four columns. -/
structure Input where
  netlistPath : Text := []
  netlistData : List NetlistData := []
  relayList : List NetlistData := []
  gndData : List Text := []
  deriving DecidableEq, Repr

def checkConnection (input : NetlistData) : Result Bool := do
  let connection ← index input.connection 0
  if connection.all Char.isDigit then return decide ((← stoi connection) ∉ serialPins)
  else return false

structure Reader where
  comparator : Text
  loopCounter : Nat
  relayCounter : Nat
  relayConnection : Bool
  netlistData : List NetlistData
  relayList : List NetlistData
  gndData : List Text

/-- What is done at the end of a net, and of the file: the net is copied where it has a
relay connection. -/
def storeRelay (r : Reader) : Result Reader :=
  if r.relayConnection then do
    let net ← index r.netlistData r.loopCounter
    let relayList ← copyNet net r.relayCounter (r.relayList ++ [.empty])
    return { r with relayList, relayCounter := r.relayCounter + 1, relayConnection := false }
  else return r

def nextNet (r : Reader) (holder : Text) : Result Reader :=
  if r.comparator ≠ " ".toList ∧ column r.comparator ≠ column holder then do
    let r ← storeRelay r
    return { r with loopCounter := r.loopCounter + 1 }
  else return r

def checkRow (r : Reader) (temp : Row) : Result Bool :=
  if temp.device = expanderDevice ∧ r.relayConnection = false then checkConnection (.ofRows [temp])
  else return r.relayConnection

def groundRow (gndData : List Text) (temp : Row) : List Text :=
  if temp.name = "GND".toList ∧ first temp.identifier = 'K' then
    gndData ++ [temp.identifier ++ "_".toList ++ temp.device]
  else gndData

def readLine (r : Reader) (holder : Text) : Result Reader := do
  let r ← nextNet r holder
  let temp := columns holder
  let relayConnection ← checkRow r temp
  let netlistData ← update (r.netlistData ++ [.empty]) r.loopCounter fun net => net.push temp
  return { r with
    comparator := holder, relayConnection, netlistData, gndData := groundRow r.gndData temp }

def getNetlistData (files : Files) (input : Input) : Result (Nat × Input) := do
  let start : Reader :=
    ⟨" ".toList, 0, 0, false, input.netlistData, input.relayList, input.gndData⟩
  let r ← (files.lines input.netlistPath).foldlM readLine start
  let r ← storeRelay r
  return (r.relayCounter,
    { input with netlistData := r.netlistData, relayList := r.relayList, gndData := r.gndData })

def Reader.over (scan : Netlist.Reader) (relayList : List NetlistData) (relayConnection : Bool)
    (gndData : List Text) : Reader :=
  ⟨scan.comparator, scan.loopCounter, relayList.length, relayConnection, scan.netlistData,
    relayList, gndData⟩

theorem checkConnection_ofRows (temp : Row) :
    checkConnection (.ofRows [temp]) =
      if temp.connection.all Char.isDigit then do
        return decide ((← stoi temp.connection) ∉ serialPins)
      else .ok false := by
  have front : index [temp.connection] 0 = .ok temp.connection := rfl
  rw [checkConnection, NetlistData.ofRows_connection, List.map_cons, List.map_nil, front, ok_bind]
  rfl

theorem checkRow_eq (r : Reader) (temp : Row) :
    checkRow r temp = if r.relayConnection then .ok true else readRow temp := by
  cases tested : r.relayConnection with
  | true => rw [checkRow, tested, if_neg (fun h => Bool.noConfusion h.2), if_pos rfl, pure_eq_ok]
  | false =>
      rw [if_neg Bool.false_ne_true, checkRow, tested, readRow]
      by_cases device : temp.device = expanderDevice
      · rw [if_pos ⟨device, rfl⟩, if_pos device, checkConnection_ofRows]
      · rw [if_neg (fun h => device h.1), if_neg device, pure_eq_ok]

theorem storeRelay_midway (runs : List (List Text)) (run : List Text) (last : Text) (spare : Nat)
    (relayList : List NetlistData) (relayConnection : Bool) (gndData : List Text) :
    storeRelay (.over (.midway runs run last spare) relayList relayConnection gndData) =
      .ok (.over (.midway runs run last spare)
        (if relayConnection then relayList ++ [netOf (last :: run).reverse] else relayList) false
        gndData) := by
  cases relayConnection with
  | false => rfl
  | true =>
      have current : index (Netlist.Reader.midway runs run last spare).netlistData runs.length =
          .ok (netOf (last :: run).reverse) := by
        apply index_of_getElem?
        simp [Netlist.Reader.midway]
      have copied := copyNet_ofRows ((last :: run).reverse.map columns) relayList
      have same : netOf (last :: run).reverse = .ofRows ((last :: run).reverse.map columns) := rfl
      simp only [storeRelay, Reader.over, if_true]
      rw [show (Netlist.Reader.midway runs run last spare).loopCounter = runs.length from rfl,
        current, ok_bind, same, copied, ok_bind]
      simp

theorem nextNet_midway (runs : List (List Text)) (run : List Text) (last line : Text)
    (spare : Nat) (relayList : List NetlistData) (relayConnection : Bool) (gndData : List Text) :
    let scan := Netlist.Reader.midway runs run last spare
    nextNet (.over scan relayList relayConnection gndData) line =
      .ok (if sameNet last line then .over scan relayList relayConnection gndData
        else .over { scan with loopCounter := scan.loopCounter + 1 }
          (if relayConnection then relayList ++ [netOf (last :: run).reverse] else relayList) false
          gndData) := by
  intro scan
  have test : (last ≠ " ".toList ∧ column last ≠ column line) ↔ ¬ sameNet last line = true := by
    simp [sameNet]
  unfold nextNet
  rw [show (Reader.over scan relayList relayConnection gndData).comparator = last from rfl]
  simp only [test, ite_not]
  by_cases same : sameNet last line = true
  · simp [same]
  · simp only [same, if_false, Bool.false_eq_true]
    rw [storeRelay_midway, ok_bind]
    rfl

theorem scan_step {scan next : Netlist.Reader} {line : Text} (upper : toUpper line = line)
    (read : Netlist.readLine scan line = .ok next) :
    next.comparator = line ∧
      next.loopCounter =
        (if sameNet scan.comparator line then scan.loopCounter else scan.loopCounter + 1) ∧
      update (scan.netlistData ++ [.empty]) next.loopCounter (fun net => net.push (columns line)) =
        .ok next.netlistData := by
  rw [readLine_step, upper] at read
  obtain ⟨netlistData, pushed, rfl⟩ := map_eq_ok.mp read
  exact ⟨rfl, rfl, pushed⟩

theorem readLine_moved {r : Reader} {scan next : Netlist.Reader} {line : Text}
    {relayList : List NetlistData} {relayConnection : Bool} {gndData : List Text}
    (moved : nextNet r line = .ok (.over scan relayList relayConnection gndData))
    (comparator : next.comparator = line) (loopCounter : next.loopCounter = scan.loopCounter)
    (pushed : update (scan.netlistData ++ [.empty]) scan.loopCounter
      (fun net => net.push (columns line)) = .ok next.netlistData) :
    readLine r line = (if relayConnection then .ok true else readRow (columns line)).map
      fun relayConnection =>
        .over next relayList relayConnection (groundRow gndData (columns line)) := by
  obtain ⟨holder, counter, netlistData⟩ := next
  dsimp only at comparator loopCounter pushed
  subst comparator loopCounter
  have tested : checkRow (.over scan relayList relayConnection gndData) (columns holder) =
      if relayConnection then .ok true else readRow (columns holder) := checkRow_eq _ _
  rw [readLine, moved, ok_bind, ← tested]
  dsimp only
  cases checkRow (.over scan relayList relayConnection gndData) (columns holder) with
  | error fault => rfl
  | ok relayConnection =>
      simp only [Reader.over, ok_bind, pushed]
      rfl

/-- One line: the scan goes on as in `Input.cpp`, the net before is copied when the line
begins another one, and the row is tested unless its net has a relay connection already. -/
theorem readLine_over (runs : List (List Text)) (run : List Text) (last : Text) (spare : Nat)
    {line : Text} (upper : toUpper line = line) (relayList : List NetlistData)
    (relayConnection : Bool) (gndData : List Text) {next : Netlist.Reader}
    (read : Netlist.readLine (.midway runs run last spare) line = .ok next) :
    ∃ gndData', readLine (.over (.midway runs run last spare) relayList relayConnection gndData)
        line =
      if sameNet last line then
        (if relayConnection then .ok true else readRow (columns line)).map
          fun relayConnection => .over next relayList relayConnection gndData'
      else
        (readRow (columns line)).map fun relayConnection' => .over next
          (if relayConnection then relayList ++ [netOf (last :: run).reverse] else relayList)
          relayConnection' gndData' := by
  obtain ⟨comparator, loopCounter, pushed⟩ := scan_step upper read
  rw [show (Netlist.Reader.midway runs run last spare).comparator = last from rfl] at loopCounter
  have moved := nextNet_midway runs run last line spare relayList relayConnection gndData
  refine ⟨groundRow gndData (columns line), ?_⟩
  rw [loopCounter] at pushed
  dsimp only at moved
  by_cases same : sameNet last line = true
  · simp only [same, if_true] at moved loopCounter pushed ⊢
    exact readLine_moved moved comparator loopCounter pushed
  · simp only [same, if_false, Bool.false_eq_true] at moved loopCounter pushed ⊢
    exact readLine_moved moved comparator loopCounter pushed

def Reader.view (r : Reader) : Nat × List NetlistData × List NetlistData :=
  (r.relayCounter, r.netlistData, r.relayList)

theorem acceptNet_netOf (relayList : List NetlistData) (run : List Text) :
    acceptNet relayList (netOf run) = ((run.map columns).anyM readRow).map fun accepted =>
      if accepted then relayList ++ [netOf run] else relayList := by
  rw [acceptNet, netOf, NetlistData.rows_ofRows]

theorem acceptNet_throws (q : Text → Text → Bool) (lines : List Text) (last : Text)
    (run : List Text) (relayList : List NetlistData) {fault : Fault}
    (failed : ((last :: run).reverse.map columns).anyM readRow = .error fault) :
    ((List.splitBy.loop q lines last run []).map netOf).foldlM acceptNet relayList =
      .error fault := by
  obtain ⟨more, rest, split⟩ := Runs.loop_first q lines last run
  rw [split, List.map_cons, List.foldlM_cons, acceptNet_netOf, List.map_append, Loop.anyM_append,
    failed]
  rfl

theorem anyM_single (line : Text) :
    (([line].reverse).map columns).anyM readRow = readRow (columns line) := by
  simp only [List.reverse_singleton, List.map_cons, List.map_nil, List.anyM_cons, List.anyM_nil]
  cases readRow (columns line) with
  | error fault => rfl
  | ok accepted => cases accepted <;> rfl

theorem anyM_reverse_cons (line last : Text) (run : List Text) :
    ((line :: last :: run).reverse.map columns).anyM readRow =
      ((last :: run).reverse.map columns).anyM readRow >>= fun hit =>
        if hit then .ok true else readRow (columns line) := by
  rw [List.reverse_cons (a := line), List.map_append, Loop.anyM_append]
  congr 1
  funext hit
  cases hit with
  | true => rfl
  | false =>
      simpa using anyM_single line

/-- From the middle of a file on, both programs do the same: `relayConnection` tells whether
the rows of the net read so far have a relay connection. -/
theorem foldlM_readLine (lines : List Text) (upper : ∀ line ∈ lines, toUpper line = line)
    (runs : List (List Text)) (run : List Text) (last : Text) (spare : Nat)
    (relayList : List NetlistData) (relayConnection : Bool) (gndData : List Text)
    (tested : ((last :: run).reverse.map columns).anyM readRow = .ok relayConnection) :
    ∃ scan, lines.foldlM Netlist.readLine (.midway runs run last spare) = .ok scan ∧
      (lines.foldlM readLine (.over (.midway runs run last spare) relayList relayConnection gndData)
          >>= storeRelay).map Reader.view =
        (((List.splitBy.loop sameNet lines last run []).map netOf).foldlM acceptNet relayList).map
          fun relayList => (relayList.length, scan.netlistData, relayList) := by
  induction lines generalizing runs run last spare relayList relayConnection gndData with
  | nil =>
      refine ⟨_, rfl, ?_⟩
      rw [List.foldlM_nil, pure_eq_ok, ok_bind, storeRelay_midway]
      simp only [List.splitBy.loop, List.reverse_cons, List.reverse_nil, List.nil_append,
        List.map_cons, List.map_nil, List.foldlM_cons, List.foldlM_nil] at tested ⊢
      rw [acceptNet_netOf, tested]
      rfl
  | cons line lines ih =>
      have upperLine : toUpper line = line := upper line (by simp)
      have further := ih (fun next member => upper next (List.mem_cons_of_mem _ member))
      have read := readLine_midway runs run last spare line
      rw [upperLine] at read
      obtain ⟨gndData', here⟩ :=
        readLine_over runs run last spare upperLine relayList relayConnection gndData read
      rw [List.foldlM_cons, List.foldlM_cons, read, ok_bind, here, List.splitBy.loop]
      by_cases same : sameNet last line = true
      · simp only [same, if_true]
        have extended := anyM_reverse_cons line last run
        rw [tested, ok_bind] at extended
        generalize (if relayConnection then .ok true else readRow (columns line)) = test
          at extended ⊢
        cases test with
        | error fault =>
            obtain ⟨scan, done, _⟩ := foldlM_midway lines runs (last :: run) line (spare + 1)
            refine ⟨scan, done, ?_⟩
            rw [acceptNet_throws sameNet lines line (last :: run) relayList extended]
            rfl
        | ok accepted =>
            exact further runs (last :: run) line (spare + 1) relayList accepted gndData' extended
      · simp only [same, if_false, Bool.false_eq_true]
        rw [Runs.loop_runs, List.reverse_singleton, List.singleton_append, List.map_cons,
          List.foldlM_cons, acceptNet_netOf, tested]
        simp only [Except.map, ok_bind]
        generalize (if relayConnection then relayList ++ [netOf (last :: run).reverse]
          else relayList) = copied
        have single := anyM_single line
        cases test : readRow (columns line) with
        | error fault =>
            obtain ⟨scan, done, _⟩ :=
              foldlM_midway lines ((last :: run).reverse :: runs) [] line spare
            refine ⟨scan, done, ?_⟩
            rw [acceptNet_throws sameNet lines line [] copied (single.trans test)]
            rfl
        | ok accepted =>
            exact further ((last :: run).reverse :: runs) [] line spare copied accepted gndData'
              (single.trans test)

theorem foldlM_acceptNet_spare (spare : Nat) (relayList : List NetlistData) :
    (List.replicate spare NetlistData.empty).foldlM acceptNet relayList = .ok relayList := by
  induction spare with
  | zero => rfl
  | succ spare ih =>
      rw [List.replicate_succ, List.foldlM_cons]
      exact ih

theorem readLine_opens (line : Text) :
    ∃ gndData, readLine ⟨" ".toList, 0, 0, false, [], [], []⟩ line =
      (readRow (columns line)).map fun accepted =>
        .over (.midway [] [] line 0) [] accepted gndData := by
  have stays : nextNet ⟨" ".toList, 0, 0, false, [], [], []⟩ line =
      .ok (.over ⟨" ".toList, 0, []⟩ [] false []) := by
    simp [nextNet, Reader.over]
  exact ⟨groundRow [] (columns line), readLine_moved stays rfl rfl rfl⟩

theorem fileNets_scan {files : Files} {path line : Text} {lines : List Text}
    {scan : Netlist.Reader} (content : files.lines path = line :: lines)
    (upper : toUpper line = line)
    (done : lines.foldlM Netlist.readLine (.midway [] [] line 0) = .ok scan) :
    fileNets files path = scan.netlistData := by
  have read := getNetlistData_eq files { netlistName := path } rfl
  have opened : Netlist.readLine ⟨" ".toList, 0, []⟩ line =
      .ok (.midway [] [] (toUpper line) 0) := rfl
  rw [upper] at opened
  rw [Netlist.getNetlistData, content, List.foldlM_cons, opened, ok_bind, done, ok_bind,
    pure_eq_ok] at read
  exact (congrArg RelayDev.Input.netlistData (Except.ok.inj read)).symm

theorem getNetlistData_view (files : Files) (path : Text)
    (upper : ∀ line ∈ files.lines path, toUpper line = line) :
    (getNetlistData files { netlistPath := path }).map
        (fun (count, out) => (count, out.netlistData, out.relayList)) =
      ((fileNets files path).foldlM acceptNet []).map
        fun relayList => (relayList.length, fileNets files path, relayList) := by
  have whole : (getNetlistData files { netlistPath := path }).map
      (fun (count, out) => (count, out.netlistData, out.relayList)) =
        ((files.lines path).foldlM readLine ⟨" ".toList, 0, 0, false, [], [], []⟩
          >>= storeRelay).map Reader.view := by
    unfold getNetlistData
    dsimp only
    cases (files.lines path).foldlM readLine ⟨" ".toList, 0, 0, false, [], [], []⟩ with
    | error fault => rfl
    | ok r =>
        rw [ok_bind, ok_bind]
        cases storeRelay r <;> rfl
  have lines := List.map_congr_left upper
  rw [whole]
  cases content : files.lines path with
  | nil => simp [fileNets, content, nets, storeRelay, Reader.view, Except.map]
  | cons line rest =>
      rw [content] at upper lines
      have spared : (fileNets files path).foldlM acceptNet [] =
          ((List.splitBy.loop sameNet rest line [] []).map netOf).foldlM acceptNet [] := by
        have split : nets (line :: rest) =
            (List.splitBy.loop sameNet rest line [] []).map netOf := by
          rw [nets, lines, List.map_id']
          rfl
        rw [fileNets, content, List.foldlM_append, split]
        cases ((List.splitBy.loop sameNet rest line [] []).map netOf).foldlM acceptNet [] with
        | error fault => rfl
        | ok relayList => rw [ok_bind, foldlM_acceptNet_spare]
      obtain ⟨gndData, opened⟩ := readLine_opens line
      rw [spared, List.foldlM_cons, opened]
      have single : (([line].reverse).map columns).anyM readRow = readRow (columns line) :=
        anyM_single line
      cases test : readRow (columns line) with
      | error fault =>
          rw [acceptNet_throws sameNet rest line [] [] (single.trans test)]
          rfl
      | ok accepted =>
          obtain ⟨scan, done, same⟩ := foldlM_readLine rest
            (fun next member => upper next (List.mem_cons_of_mem _ member)) [] [] line 0 []
            accepted gndData (single.trans test)
          rw [fileNets_scan content (upper line (by simp)) done]
          exact same

/-- On lines without lower-case letters the reader of `relay.cpp` and the two passes of
`Input.cpp` throw the same exception, or build the same nets and the same relays, and the
reader counts the relays. -/
theorem readers_agree (files : Files) (path : Text)
    (upper : ∀ line ∈ files.lines path, ∀ c ∈ line, c.isLower = false) :
    let onePass := getNetlistData files { netlistPath := path }
    let twoPasses := Netlist.getNetlistData files { netlistName := path } >>= filterNetlistData
    (∃ exception, onePass = throwing exception ∧ twoPasses = throwing exception) ∨
      ∃ count out filtered, onePass = .ok (count, out) ∧ twoPasses = .ok filtered ∧
        out.netlistData = filtered.netlistData ∧ out.relayList = filtered.relayList ∧
        count = filtered.relayList.length := by
  intro onePass twoPasses
  have view : onePass.map (fun (count, out) => (count, out.netlistData, out.relayList)) = _ :=
    getNetlistData_view files path
      (fun line member => toUpper_of_not_lower (upper line member))
  have second : twoPasses = ((fileNets files path).foldlM acceptNet []).map
      fun relayList => { netlistName := path, netlistData := fileNets files path, relayList } := by
    have read := getNetlistData_eq files { netlistName := path } rfl
    have filtered := filterNetlistData_eq
      { netlistName := path, netlistData := fileNets files path }
      (fileNets_parallel files path) rfl
    simp only [twoPasses, read, ok_bind]
    exact filtered
  rcases foldlM_acceptNet_cases (fileNets files path) [] with
    ⟨⟨exception, throws⟩, _⟩ | ⟨⟨relayList, finished⟩, _⟩
  · left
    rw [throws] at view
    refine ⟨exception, map_eq_error.mp view, ?_⟩
    rw [second, throws]
    rfl
  · right
    rw [finished] at view
    obtain ⟨⟨count, out⟩, done, same⟩ := map_eq_ok.mp view
    obtain ⟨counted, stored⟩ := Prod.mk.inj same
    obtain ⟨sameNets, sameRelays⟩ := Prod.mk.inj stored
    refine ⟨count, out, _, done, second.trans (congrArg _ finished), sameNets, sameRelays, ?_⟩
    exact counted

def sampleFile : Text :=
  List.intercalate ['\n']
    ["K1 U1 5 ".toList ++ expanderDevice, "K1 U1 6 ".toList ++ expanderDevice,
      "GND K1 2 RELAY".toList, "K2 U1 EP ".toList ++ expanderDevice,
      "K2 U1 7 ".toList ++ expanderDevice, "GND U1 2 ".toList ++ expanderDevice]

theorem readers_agree_sampleFile :
    let files : Files := fun _ => some sampleFile
    ∃ count out filtered, getNetlistData files {} = .ok (count, out) ∧
      (Netlist.getNetlistData files {} >>= filterNetlistData) = .ok filtered ∧
      out.netlistData = filtered.netlistData ∧ out.relayList = filtered.relayList ∧
      count = filtered.relayList.length := by
  intro files
  have upper : (getlines sampleFile).all (fun line => line.all fun c => !c.isLower) = true := by
    decide +kernel
  have agree := readers_agree files [] fun line member c occurs => by
    simpa using List.all_eq_true.mp (List.all_eq_true.mp upper line member) c occurs
  rcases agree with ⟨exception, throws, _⟩ | both
  · have finishes : (getNetlistData files {}).isOk = true := by decide +kernel
    rw [show getNetlistData files {} = throwing exception from throws] at finishes
    cases finishes
  · exact both

end RelayDev.OnePass
