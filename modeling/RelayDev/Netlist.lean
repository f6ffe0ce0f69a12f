import RelayDev.Data
import RelayDev.Lib.Runs

/-! `Input::getNetlistData`: reading the netlist file, line by line, into nets. -/

namespace RelayDev.Netlist

open Cpp Text

def column (holder : Text) : Text := substr holder (find holder ' ')

def nextColumn (holder : Text) : Text := stripBlanks (erase holder (find holder ' '))

def columns (holder : Text) : Row where
  name := column holder
  identifier := column (nextColumn holder)
  connection := column (nextColumn (nextColumn holder))
  device := nextColumn (nextColumn (nextColumn holder))

structure Reader where
  comparator : Text
  loopCounter : Nat
  netlistData : List NetlistData

def readLine (r : Reader) (line : Text) : Result Reader := do
  let holder := toUpper line
  let loopCounter :=
    if r.comparator ≠ " ".toList ∧ column r.comparator ≠ column holder then r.loopCounter + 1
    else r.loopCounter
  let netlistData ←
    update (r.netlistData ++ [.empty]) loopCounter fun net => net.push (columns holder)
  return ⟨holder, loopCounter, netlistData⟩

def getNetlistData (files : Files) (input : Input) : Result Input := do
  let r ← (files.lines input.netlistName).foldlM readLine ⟨" ".toList, 0, input.netlistData⟩
  return { input with netlistData := r.netlistData }

/-- The test that keeps a line in the net of the line before it: a line that is
one blank also passes for the start of the file. -/
def sameNet (comparator holder : Text) : Bool :=
  comparator == " ".toList || column comparator == column holder

def netOf (run : List Text) : NetlistData := .ofRows (run.map columns)

def nets (lines : List Text) : List NetlistData :=
  ((lines.map toUpper).splitBy sameNet).map netOf

theorem readLine_step (r : Reader) (line : Text) :
    readLine r line =
      let loopCounter := if sameNet r.comparator (toUpper line) then r.loopCounter
        else r.loopCounter + 1
      (update (r.netlistData ++ [.empty]) loopCounter
        fun net => net.push (columns (toUpper line))).map
          fun netlistData => ⟨toUpper line, loopCounter, netlistData⟩ := by
  have test : (r.comparator ≠ " ".toList ∧ column r.comparator ≠ column (toUpper line)) ↔
      ¬ sameNet r.comparator (toUpper line) = true := by
    simp [sameNet]
  unfold readLine
  simp only [test, ite_not]
  rfl

/-- The reader in the middle of a file: the nets finished so far (latest first),
the net of the last line, and the elements pushed behind them that stay empty. -/
def Reader.midway (runs : List (List Text)) (run : List Text) (last : Text) (spare : Nat) :
    Reader where
  comparator := last
  loopCounter := runs.length
  netlistData :=
    runs.reverse.map netOf ++ netOf (last :: run).reverse :: List.replicate spare .empty

theorem netOf_push (run : List Text) (last line : Text) :
    (netOf (last :: run).reverse).push (columns line) = netOf (line :: last :: run).reverse := by
  rw [netOf, NetlistData.push_ofRows, netOf, List.reverse_cons (a := line), List.map_append]
  rfl

theorem readLine_midway (runs : List (List Text)) (run : List Text) (last : Text) (spare : Nat)
    (line : Text) :
    readLine (.midway runs run last spare) line =
      .ok (if sameNet last (toUpper line) then .midway runs (last :: run) (toUpper line) (spare + 1)
        else .midway ((last :: run).reverse :: runs) [] (toUpper line) spare) := by
  rw [readLine_step]
  by_cases same : sameNet last (toUpper line) = true
  · simp only [Reader.midway, same, if_true]
    have grown := update_middle (runs.reverse.map netOf)
      (List.replicate spare .empty ++ [.empty]) (netOf (last :: run).reverse)
      (fun net => net.push (columns (toUpper line)))
    rw [List.length_map, List.length_reverse] at grown
    rw [List.append_assoc, List.cons_append, grown, ← List.replicate_succ', netOf_push]
    rfl
  · simp only [Reader.midway, same, if_false, Bool.false_eq_true]
    have opened := update_middle (runs.reverse.map netOf ++ [netOf (last :: run).reverse])
      (List.replicate spare .empty) .empty (fun net => net.push (columns (toUpper line)))
    have spares : List.replicate spare NetlistData.empty ++ [.empty] =
        .empty :: List.replicate spare .empty := by
      rw [← List.replicate_succ', List.replicate_succ]
    simp only [List.length_append, List.length_map, List.length_reverse, List.length_singleton,
      List.append_assoc, List.singleton_append] at opened
    rw [List.append_assoc, List.cons_append, spares, opened]
    simp [Except.map, netOf]

theorem foldlM_midway (lines : List Text) (runs : List (List Text)) (run : List Text)
    (last : Text) (spare : Nat) :
    ∃ r, lines.foldlM readLine (.midway runs run last spare) = .ok r ∧
      r.netlistData =
        let whole := List.splitBy.loop sameNet (lines.map toUpper) last run runs
        whole.map netOf ++
          List.replicate (spare + (runs.length + 1 + lines.length - whole.length)) .empty := by
  induction lines generalizing runs run last spare with
  | nil => exact ⟨_, rfl, by simp [Reader.midway, List.splitBy.loop]⟩
  | cons line lines ih =>
      rw [List.foldlM_cons, readLine_midway, ok_bind]
      by_cases same : sameNet last (toUpper line) = true
      · obtain ⟨r, done, stored⟩ := ih runs (last :: run) (toUpper line) (spare + 1)
        have bound := Runs.loop_length sameNet (lines.map toUpper) (toUpper line) (last :: run) runs
        rw [List.length_map] at bound
        refine ⟨r, by rw [if_pos same]; exact done, ?_⟩
        simp only [List.map_cons, List.splitBy.loop, same, List.length_cons] at stored ⊢
        rw [stored]
        congr 2
        omega
      · obtain ⟨r, done, stored⟩ := ih ((last :: run).reverse :: runs) [] (toUpper line) spare
        refine ⟨r, by rw [if_neg same]; exact done, ?_⟩
        simp only [List.map_cons, List.splitBy.loop, same, List.length_cons] at stored ⊢
        rw [stored]
        congr 2
        omega

/-- The nets of a file followed by one empty element for each line that opened no net. -/
def fileNets (files : Files) (path : Text) : List NetlistData :=
  let lines := files.lines path
  nets lines ++ List.replicate (lines.length - (nets lines).length) .empty

theorem fileNets_parallel (files : Files) (path : Text) :
    ∀ net ∈ fileNets files path, net.Parallel := by
  intro net member
  rcases List.mem_append.mp member with isNet | isSpare
  · obtain ⟨run, _, rfl⟩ := List.mem_map.mp isNet
    exact NetlistData.ofRows_parallel _
  · rw [List.eq_of_mem_replicate isSpare]
    exact NetlistData.ofRows_parallel []

theorem lines_unbroken {files : Files} {path line : Text} (member : line ∈ files.lines path) :
    '\n' ∉ line := by
  unfold Files.lines at member
  split at member
  · exact getlines_unbroken member
  · cases member

theorem fileNets_name_unbroken {files : Files} {path : Text} {net : NetlistData}
    (member : net ∈ fileNets files path) : ∀ name ∈ net.name, '\n' ∉ name := by
  intro name named
  rcases List.mem_append.mp member with isNet | isSpare
  · obtain ⟨run, listed, rfl⟩ := List.mem_map.mp isNet
    rw [netOf, NetlistData.ofRows_name, List.map_map] at named
    obtain ⟨holder, inside, rfl⟩ := List.mem_map.mp named
    have read : holder ∈ (files.lines path).map toUpper := by
      rw [← List.flatten_splitBy sameNet ((files.lines path).map toUpper)]
      exact List.mem_flatten.mpr ⟨run, listed, inside⟩
    obtain ⟨line, fromFile, rfl⟩ := List.mem_map.mp read
    intro broken
    have taken : column (toUpper line) ⊆ toUpper line := by
      rw [column, substr_find]
      exact List.takeWhile_subset _
    exact lines_unbroken fromFile ((newline_mem_toUpper line).mp (taken broken))
  · rw [List.eq_of_mem_replicate isSpare] at named
    cases named

theorem getNetlistData_eq (files : Files) (input : Input) (start : input.netlistData = []) :
    getNetlistData files input =
      .ok { input with netlistData := fileNets files input.netlistName } := by
  unfold getNetlistData fileNets
  rw [start]
  cases files.lines input.netlistName with
  | nil => simp [nets]
  | cons line lines =>
      have opened : readLine ⟨" ".toList, 0, []⟩ line = .ok (.midway [] [] (toUpper line) 0) := rfl
      obtain ⟨r, done, stored⟩ := foldlM_midway lines [] [] (toUpper line) 0
      rw [List.foldlM_cons, opened, ok_bind, done, ok_bind, stored]
      simp [nets, List.splitBy, Nat.add_comm]

structure FileRow where
  row : Row
  afterName : Nat
  afterIdentifier : Nat
  afterConnection : Nat
  name_nonempty : row.name ≠ [] := by decide
  identifier_nonempty : row.identifier ≠ [] := by decide
  connection_nonempty : row.connection ≠ [] := by decide
  name_unblank : ' ' ∉ row.name := by decide
  identifier_unblank : ' ' ∉ row.identifier := by decide
  connection_unblank : ' ' ∉ row.connection := by decide
  device_start : row.device.head? ≠ some ' ' := by decide
  gaps : 0 < afterName ∧ 0 < afterIdentifier ∧ 0 < afterConnection := by decide
  one_line : '\n' ∉ row.name ∧ '\n' ∉ row.identifier ∧ '\n' ∉ row.connection ∧
    '\n' ∉ row.device := by decide

def FileRow.line (r : FileRow) : Text :=
  r.row.name ++ (List.replicate r.afterName ' ' ++ (r.row.identifier ++
    (List.replicate r.afterIdentifier ' ' ++ (r.row.connection ++
      (List.replicate r.afterConnection ' ' ++ r.row.device)))))

def fileText (rows : List FileRow) : Text := (rows.map FileRow.line).flatMap (· ++ ['\n'])

def upperRow (row : Row) : Row :=
  ⟨toUpper row.name, toUpper row.identifier, toUpper row.connection, toUpper row.device⟩

theorem unblank_all {word : Text} (unblank : ' ' ∉ word) : ∀ c ∈ word, (c != ' ') = true := by
  intro c member
  simpa using ne_of_mem_of_not_mem member unblank

theorem column_padded (word rest : Text) (count : Nat) (unblank : ' ' ∉ word)
    (gap : 0 < count) : column (word ++ (List.replicate count ' ' ++ rest)) = word := by
  obtain ⟨more, rfl⟩ : ∃ more, count = more + 1 := ⟨count - 1, by omega⟩
  have kept := unblank_all unblank
  rw [column, substr_find, List.takeWhile_append_of_pos kept, List.replicate_succ]
  simp

theorem nextColumn_padded (word rest : Text) (count : Nat) (unblank : ' ' ∉ word)
    (gap : 0 < count) (start : rest.head? ≠ some ' ') :
    nextColumn (word ++ (List.replicate count ' ' ++ rest)) = rest := by
  obtain ⟨more, rfl⟩ : ∃ more, count = more + 1 := ⟨count - 1, by omega⟩
  have kept := unblank_all unblank
  have stripped : rest.dropWhile (· == ' ') = rest := by
    cases rest with
    | nil => rfl
    | cons c rest =>
        have other : c ≠ ' ' := by simpa using start
        simp [other]
  rw [nextColumn, erase_find, List.dropWhile_append_of_pos kept, stripBlanks_eq_dropWhile,
    List.replicate_succ, List.cons_append, List.dropWhile_cons_of_neg (by simp),
    ← List.cons_append, ← List.replicate_succ, List.dropWhile_append_of_pos (by simp), stripped]

private theorem head_unblank {word : Text} (rest : Text) (nonempty : word ≠ [])
    (unblank : ' ' ∉ word) : (word ++ rest).head? ≠ some ' ' := by
  cases word with
  | nil => exact absurd rfl nonempty
  | cons c word =>
      simp only [List.mem_cons, not_or] at unblank
      simpa using fun same : c = ' ' => unblank.1 same.symm

private theorem toUpper_head {word : Text} (start : word.head? ≠ some ' ') :
    (toUpper word).head? ≠ some ' ' := by
  cases word with
  | nil => simp [toUpper]
  | cons c word => simpa [toUpper] using start

theorem columns_line (r : FileRow) : columns (toUpper r.line) = upperRow r.row := by
  obtain ⟨first, second, third⟩ := r.gaps
  have name := mt (blank_mem_toUpper _).mp r.name_unblank
  have identifier := mt (blank_mem_toUpper _).mp r.identifier_unblank
  have connection := mt (blank_mem_toUpper _).mp r.connection_unblank
  have device := toUpper_head r.device_start
  have identifierHead (rest : Text) := head_unblank rest
    (mt (toUpper_eq_nil _).mp r.identifier_nonempty) identifier
  have connectionHead (rest : Text) := head_unblank rest
    (mt (toUpper_eq_nil _).mp r.connection_nonempty) connection
  simp only [columns, FileRow.line, toUpper_append, toUpper_blanks]
  rw [nextColumn_padded _ _ _ name first (identifierHead _),
    nextColumn_padded _ _ _ identifier second (connectionHead _),
    nextColumn_padded _ _ _ connection third device, column_padded _ _ _ name first,
    column_padded _ _ _ identifier second, column_padded _ _ _ connection third]
  rfl

theorem sameNet_line (r next : FileRow) :
    sameNet (toUpper r.line) (toUpper next.line) =
      (toUpper r.row.name == toUpper next.row.name) := by
  have names (r : FileRow) : column (toUpper r.line) = toUpper r.row.name :=
    congrArg Row.name (columns_line r)
  have filled : (toUpper r.line == " ".toList) = false := by
    have start : (toUpper r.line).head? ≠ some ' ' :=
      toUpper_head (head_unblank _ r.name_nonempty r.name_unblank)
    rw [beq_eq_false_iff_ne]
    intro blank
    rw [blank] at start
    exact start rfl
  rw [sameNet, filled, names, names, Bool.false_or]

theorem nets_lines (rows : List FileRow) :
    nets (rows.map FileRow.line) =
      (rows.splitBy fun r next => toUpper r.row.name == toUpper next.row.name).map
        fun run => .ofRows (run.map fun r => upperRow r.row) := by
  have split := Runs.splitBy_map sameNet
    (fun r next : FileRow => toUpper r.row.name == toUpper next.row.name)
    (fun r => toUpper r.line) rows (fun r _ next _ => sameNet_line r next)
  rw [nets, List.map_map, Function.comp_def, split, List.map_map]
  apply List.map_congr_left
  intro run _
  simp only [Function.comp_apply, netOf, List.map_map]
  congr 1
  exact List.map_congr_left fun r _ => columns_line r

theorem line_unbroken (r : FileRow) : '\n' ∉ r.line := by
  obtain ⟨name, identifier, connection, device⟩ := r.one_line
  simp [FileRow.line, name, identifier, connection, device]

/-- Decoding undoes encoding: the file written for a list of rows, whatever the
padding, is read into the maximal runs of rows with one upper-cased name, and
one empty element for every row that opened no run. -/
theorem getNetlistData_fileText (rows : List FileRow) (files : Files) (input : Input)
    (start : input.netlistData = [])
    (stored : files input.netlistName = some (fileText rows)) :
    let runs := rows.splitBy fun r next => toUpper r.row.name == toUpper next.row.name
    getNetlistData files input = .ok { input with
      netlistData := (runs.map fun run => .ofRows (run.map fun r => upperRow r.row)) ++
        List.replicate (rows.length - runs.length) .empty } := by
  have lines : files.lines input.netlistName = rows.map FileRow.line := by
    unfold Files.lines
    rw [stored]
    refine getlines_written _ fun line member => ?_
    obtain ⟨r, _, rfl⟩ := List.mem_map.mp member
    exact line_unbroken r
  have read := getNetlistData_eq files input start
  simp only [fileNets, lines, nets_lines, List.length_map] at read
  exact read

def sampleRows : List FileRow :=
  [{ row := ⟨"k1_1".toList, "u1".toList, "5".toList, "max6957".toList⟩
     afterName := 1, afterIdentifier := 2, afterConnection := 1 },
    { row := ⟨"K1_1".toList, "J1".toList, "2".toList, "pin header".toList⟩
      afterName := 3, afterIdentifier := 1, afterConnection := 1 },
    { row := ⟨"GND".toList, "J1".toList, "1".toList, []⟩
      afterName := 1, afterIdentifier := 1, afterConnection := 2 }]

theorem getNetlistData_sampleRows :
    getNetlistData (fun _ => some (fileText sampleRows)) {} = .ok { netlistData :=
      [.ofRows [⟨"K1_1".toList, "U1".toList, "5".toList, "MAX6957".toList⟩,
          ⟨"K1_1".toList, "J1".toList, "2".toList, "PIN HEADER".toList⟩],
        .ofRows [⟨"GND".toList, "J1".toList, "1".toList, []⟩], .empty] } :=
  (getNetlistData_fileText sampleRows _ {} rfl rfl).trans rfl

end RelayDev.Netlist
