import RelayDev.Data
import RelayDev.Lib.Loop

/-! `Input::filterNetlistData`: the nets that are wired to a relay pin of an IO
expander. -/

namespace RelayDev.RelayFilter

open Cpp Text

def serialPins : List Int := [11, 20, 31, 32, 33, 34, 35, 36, 37, 38, 39, 40]

/-- The two tests on row `j`: a numbered connection to the IO expander, and a
relay based one. -/
def relayConnection (net : NetlistData) (j : Nat) : Result Bool := do
  if (← index net.device j) = expanderDevice then
    let connection ← index net.connection j
    if connection.all Char.isDigit then return decide ((← stoi connection) ∉ serialPins)
    else return false
  else return false

def copyNet (net : NetlistData) (relayCounter : Nat) (relayList : List NetlistData) :
    Result (List NetlistData) :=
  (List.range net.name.length).foldlM
    (fun relayList m => do
      let row : Row := ⟨← index net.name m, ← index net.identifier m,
        ← index net.connection m, ← index net.device m⟩
      update relayList relayCounter fun relay => relay.push row)
    relayList

structure State where
  relayList : List NetlistData
  relayCounter : Nat

def filterRow (net : NetlistData) (relevant : Result Bool) (s : State) :
    Result (ForInStep State) := do
  let relayList ←
    if ← relevant then copyNet net s.relayCounter (s.relayList ++ [.empty])
    else pure s.relayList
  if s.relayCounter < relayList.length then return .done ⟨relayList, s.relayCounter + 1⟩
  else return .yield ⟨relayList, s.relayCounter⟩

def filterNet (s : State) (net : NetlistData) : Result State :=
  forIn (List.range net.name.length) s fun j => filterRow net (relayConnection net j)

def filterNetlistData (input : Input) : Result Input := do
  let s ← input.netlistData.foldlM filterNet ⟨input.relayList, 0⟩
  return { input with relayList := s.relayList }

/-- A row that makes its net a relay: an expander row whose connection is a
number that is no power or serial pin. -/
def RelayRow (row : Row) : Prop :=
  row.device = expanderDevice ∧ row.connection ≠ [] ∧ row.connection.all Char.isDigit = true ∧
    (Nat.ofDigitChars 10 row.connection 0 : Int) ∉ serialPins

instance (row : Row) : Decidable (RelayRow row) := inferInstanceAs (Decidable (_ ∧ _ ∧ _ ∧ _))

def readRow (row : Row) : Result Bool :=
  if row.device = expanderDevice then
    if row.connection.all Char.isDigit then do
      return decide ((← stoi row.connection) ∉ serialPins)
    else .ok false
  else .ok false

theorem relayConnection_ofRows {rows : List Row} {j : Nat} {row : Row} (found : rows[j]? = some row) :
    relayConnection (.ofRows rows) j = readRow row := by
  simp only [relayConnection, NetlistData.ofRows_device, NetlistData.ofRows_connection,
    index_map _ found, ok_bind]
  rfl

theorem readRow_eq_ok {row : Row} {accepted : Bool} (read : readRow row = .ok accepted) :
    accepted = decide (RelayRow row) := by
  unfold readRow at read
  split at read
  · rename_i device
    split at read
    · rename_i digits
      rw [stoi_digits row.connection digits] at read
      split at read
      · cases read
      · rename_i nonempty
        split at read
        · cases read
        · cases read
          simp [RelayRow, device, nonempty, digits]
    · rename_i other
      cases read
      simp [RelayRow, other]
  · rename_i other
    cases read
    simp [RelayRow, other]

theorem stoi_relayRow {row : Row} (relay : RelayRow row) {accepted : Bool}
    (read : readRow row = .ok accepted) :
    stoi row.connection = .ok (Nat.ofDigitChars 10 row.connection 0 : Int) := by
  obtain ⟨device, nonempty, digits, _⟩ := relay
  rw [readRow, if_pos device, if_pos digits] at read
  obtain ⟨number, parsed, _⟩ := bind_eq_ok.mp read
  have value := stoi_digits row.connection digits
  rw [if_neg nonempty, parsed] at value
  split at value
  · cases value
  · rw [parsed, value]

private theorem copyRows (read left : List Row) (relayList : List NetlistData) :
    (List.range' read.length left.length).foldlM
      (fun relayList' m => do
        let net := NetlistData.ofRows (read ++ left)
        let row : Row := ⟨← index net.name m, ← index net.identifier m,
          ← index net.connection m, ← index net.device m⟩
        update relayList' relayList.length fun relay => relay.push row)
      (relayList ++ [.ofRows read]) = .ok (relayList ++ [.ofRows (read ++ left)]) := by
  induction left generalizing read with
  | nil => simp
  | cons row left ih =>
      have found : (read ++ row :: left)[read.length]? = some row := by simp
      have further := ih (read ++ [row])
      rw [List.length_append, List.length_singleton, List.append_assoc,
        List.singleton_append] at further
      rw [List.length_cons, List.range'_succ, List.foldlM_cons]
      simp only [NetlistData.ofRows_name, NetlistData.ofRows_identifier,
        NetlistData.ofRows_connection, NetlistData.ofRows_device, index_map _ found,
        ok_bind, update_middle, NetlistData.push_ofRows] at further ⊢
      exact further

theorem copyNet_ofRows (rows : List Row) (relayList : List NetlistData) :
    copyNet (.ofRows rows) relayList.length (relayList ++ [.empty]) =
      .ok (relayList ++ [.ofRows rows]) := by
  have copied := copyRows [] rows relayList
  rw [List.length_nil, ← List.range_eq_range'] at copied
  simpa [copyNet] using copied

/-- One turn on a row: the counter stays equal to the number of relays, and the
loop is left as soon as the net is copied. -/
theorem filterRow_ofRows (rows : List Row) (relevant : Result Bool) (relayList : List NetlistData) :
    filterRow (.ofRows rows) relevant ⟨relayList, relayList.length⟩ =
      relevant.map fun accepted =>
        if accepted then .done ⟨relayList ++ [.ofRows rows], relayList.length + 1⟩
        else .yield ⟨relayList, relayList.length⟩ := by
  cases relevant with
  | error fault => rfl
  | ok accepted =>
      cases accepted with
      | true => simp [filterRow, copyNet_ofRows, Except.map]
      | false => simp [filterRow, Except.map]

theorem filterNet_ofRows (rows : List Row) (relayList : List NetlistData) :
    filterNet ⟨relayList, relayList.length⟩ (.ofRows rows) =
      (rows.anyM readRow).map fun accepted =>
        if accepted then ⟨relayList ++ [.ofRows rows], relayList.length + 1⟩
        else ⟨relayList, relayList.length⟩ := by
  have overRows : filterNet ⟨relayList, relayList.length⟩ (.ofRows rows) =
      forIn rows ⟨relayList, relayList.length⟩
        fun row => filterRow (.ofRows rows) (readRow row) := by
    rw [filterNet, NetlistData.ofRows_name, List.length_map]
    refine Loop.forIn_range rows _ _ (fun j row found => ?_) _
    rw [relayConnection_ofRows found]
  rw [overRows]
  exact Loop.forIn_search rows readRow _ _ _
    fun row _ => filterRow_ofRows rows (readRow row) relayList

def acceptNet (relayList : List NetlistData) (net : NetlistData) : Result (List NetlistData) :=
  (net.rows.anyM readRow).map fun accepted => if accepted then relayList ++ [net] else relayList

theorem foldlM_filterNet (nets : List NetlistData) (parallel : ∀ net ∈ nets, net.Parallel)
    (relayList : List NetlistData) :
    nets.foldlM filterNet ⟨relayList, relayList.length⟩ =
      (nets.foldlM acceptNet relayList).map fun relayList => ⟨relayList, relayList.length⟩ := by
  induction nets generalizing relayList with
  | nil => rfl
  | cons net nets ih =>
      have rest := ih (fun next member => parallel next (List.mem_cons_of_mem _ member))
      have step := filterNet_ofRows net.rows relayList
      rw [NetlistData.ofRows_rows net (parallel net (by simp))] at step
      rw [List.foldlM_cons, List.foldlM_cons, step, acceptNet]
      cases net.rows.anyM readRow with
      | error fault => rfl
      | ok accepted =>
          cases accepted with
          | true =>
              have grown := rest (relayList ++ [net])
              rw [List.length_append, List.length_singleton] at grown
              exact grown
          | false => exact rest relayList

theorem filterNetlistData_eq (input : Input) (parallel : ∀ net ∈ input.netlistData, net.Parallel)
    (start : input.relayList = []) :
    filterNetlistData input =
      (input.netlistData.foldlM acceptNet []).map fun relayList => { input with relayList } := by
  have counted := foldlM_filterNet input.netlistData parallel []
  unfold filterNetlistData
  rw [start]
  rw [List.length_nil] at counted
  rw [counted]
  cases input.netlistData.foldlM acceptNet [] with
  | error fault => rfl
  | ok relayList => rfl

theorem anyM_readRow_eq_ok {rows : List Row} {accepted : Bool}
    (read : rows.anyM readRow = .ok accepted) : accepted = rows.any (decide <| RelayRow ·) := by
  induction rows with
  | nil => cases read; rfl
  | cons row rows ih =>
      rw [List.anyM_cons] at read
      obtain ⟨relay, here, rest⟩ := bind_eq_ok.mp read
      have decided := readRow_eq_ok here
      cases relay with
      | true =>
          cases rest
          rw [List.any_cons, ← decided, Bool.true_or]
      | false => rw [List.any_cons, ← decided, Bool.false_or, ih rest]

def relayNet (net : NetlistData) : Bool := net.rows.any (decide <| RelayRow ·)

theorem foldlM_acceptNet_eq_ok {nets relayList out : List NetlistData}
    (finished : nets.foldlM acceptNet relayList = .ok out) :
    out = relayList ++ nets.filter relayNet := by
  induction nets generalizing relayList with
  | nil =>
      cases finished
      simp
  | cons net nets ih =>
      rw [List.foldlM_cons] at finished
      obtain ⟨next, here, rest⟩ := bind_eq_ok.mp finished
      obtain ⟨accepted, read, rfl⟩ := map_eq_ok.mp here
      have decided : accepted = relayNet net := anyM_readRow_eq_ok read
      rw [ih rest, List.filter_cons, ← decided]
      cases accepted <;> simp

theorem anyM_readRow_first {rows : List Row} {accepted : Bool}
    (read : rows.anyM readRow = .ok accepted) {row : Row}
    (first : rows.find? (decide <| ·.device = expanderDevice) = some row) :
    ∃ relay, readRow row = .ok relay := by
  induction rows with
  | nil => cases first
  | cons head rows ih =>
      rw [List.anyM_cons] at read
      obtain ⟨relay, here, rest⟩ := bind_eq_ok.mp read
      by_cases device : head.device = expanderDevice
      · rw [List.find?_cons_of_pos (by simpa using device)] at first
        cases first
        exact ⟨relay, here⟩
      · rw [List.find?_cons_of_neg (by simpa using device)] at first
        have skipped : readRow head = .ok false := by rw [readRow, if_neg device]
        obtain rfl := Except.ok.inj (here.symm.trans skipped)
        exact ih rest first

theorem foldlM_acceptNet_reads {nets relayList out : List NetlistData}
    (finished : nets.foldlM acceptNet relayList = .ok out) :
    ∀ net ∈ nets, ∃ accepted, net.rows.anyM readRow = .ok accepted := by
  induction nets generalizing relayList with
  | nil => simp
  | cons net nets ih =>
      rw [List.foldlM_cons] at finished
      obtain ⟨next, here, rest⟩ := bind_eq_ok.mp finished
      obtain ⟨accepted, read, _⟩ := map_eq_ok.mp here
      exact List.forall_mem_cons.mpr ⟨⟨accepted, read⟩, ih rest⟩

/-- When the filter finishes, `relayList` is the sublist of the nets with a relay
row, each copied whole and once, and nothing else has changed. -/
theorem filterNetlistData_selects (input out : Input)
    (parallel : ∀ net ∈ input.netlistData, net.Parallel) (start : input.relayList = [])
    (finished : filterNetlistData input = .ok out) :
    out = { input with relayList := input.netlistData.filter relayNet } := by
  rw [filterNetlistData_eq input parallel start] at finished
  obtain ⟨relayList, read, rfl⟩ := map_eq_ok.mp finished
  rw [foldlM_acceptNet_eq_ok read, List.nil_append]

theorem filterNetlistData_reads (input out : Input)
    (parallel : ∀ net ∈ input.netlistData, net.Parallel) (start : input.relayList = [])
    (finished : filterNetlistData input = .ok out) :
    ∀ net ∈ input.netlistData, ∃ accepted, net.rows.anyM readRow = .ok accepted := by
  rw [filterNetlistData_eq input parallel start] at finished
  obtain ⟨relayList, read, _⟩ := map_eq_ok.mp finished
  exact foldlM_acceptNet_reads read

def Unreadable (row : Row) : Prop :=
  row.device = expanderDevice ∧ row.connection.all Char.isDigit = true ∧
    (row.connection = [] ∨ 2147483647 < Nat.ofDigitChars 10 row.connection 0)

/-- An unreadable row comes before any relay row. -/
def Stops (rows : List Row) : Prop :=
  ∃ before row after, rows = before ++ row :: after ∧ Unreadable row ∧
    ∀ other ∈ before, ¬ RelayRow other

theorem readRow_throws_iff (row : Row) :
    (∃ exception, readRow row = throwing exception) ↔ Unreadable row := by
  unfold readRow Unreadable
  by_cases device : row.device = expanderDevice
  · by_cases digits : row.connection.all Char.isDigit = true
    · simp only [device, digits, if_true, stoi_digits row.connection digits, true_and]
      by_cases nonempty : row.connection = []
      · simp [nonempty, throwing]
      · by_cases large : 2147483647 < Nat.ofDigitChars 10 row.connection 0
        · simp [nonempty, large, throwing]
        · simp [nonempty, large, throwing]
    · simp [device, digits, throwing]
  · simp [device, throwing]

theorem readRow_cases (row : Row) :
    (∃ exception, readRow row = throwing exception) ∨ readRow row = .ok (decide (RelayRow row)) := by
  cases read : readRow row with
  | ok accepted => exact .inr (by rw [readRow_eq_ok read])
  | error fault =>
      unfold readRow at read
      split at read
      · split at read
        · rename_i digits
          rw [stoi_digits row.connection digits] at read
          split at read
          · cases read
            exact .inl ⟨_, rfl⟩
          · split at read
            · cases read
              exact .inl ⟨_, rfl⟩
            · cases read
        · cases read
      · cases read

theorem not_stops_nil : ¬ Stops [] := Loop.not_hit_first_nil

theorem stops_cons (row : Row) (rows : List Row) :
    Stops (row :: rows) ↔ Unreadable row ∨ ¬ RelayRow row ∧ Stops rows :=
  Loop.hit_first_cons row rows

theorem anyM_readRow_cases (rows : List Row) :
    (∃ exception, rows.anyM readRow = throwing exception) ∧ Stops rows ∨
      (∃ accepted, rows.anyM readRow = .ok accepted) ∧ ¬ Stops rows := by
  induction rows with
  | nil => exact .inr ⟨⟨false, rfl⟩, not_stops_nil⟩
  | cons row rows ih =>
      rw [List.anyM_cons, stops_cons]
      rcases readRow_cases row with ⟨exception, throws⟩ | read
      · rw [throws]
        exact .inl ⟨⟨exception, rfl⟩, .inl ((readRow_throws_iff row).mp ⟨exception, throws⟩)⟩
      · have readable : ¬ Unreadable row := by
          rw [← readRow_throws_iff, read]
          rintro ⟨exception, clash⟩
          cases clash
        rw [read, ok_bind]
        by_cases relay : RelayRow row
        · exact .inr ⟨⟨true, by simp [relay]⟩, by simp [relay, readable]⟩
        · simpa [relay, readable] using ih

theorem foldlM_acceptNet_cases (nets relayList : List NetlistData) :
    (∃ exception, nets.foldlM acceptNet relayList = throwing exception) ∧
        (∃ net ∈ nets, Stops net.rows) ∨
      (∃ out, nets.foldlM acceptNet relayList = .ok out) ∧ ¬ ∃ net ∈ nets, Stops net.rows := by
  induction nets generalizing relayList with
  | nil => exact .inr ⟨⟨relayList, rfl⟩, by simp⟩
  | cons net nets ih =>
      rw [List.foldlM_cons, acceptNet]
      rcases anyM_readRow_cases net.rows with ⟨⟨exception, throws⟩, stops⟩ | ⟨⟨accepted, read⟩, reads⟩
      · rw [throws]
        exact .inl ⟨⟨exception, rfl⟩, net, by simp, stops⟩
      · rw [read]
        simpa [Except.map, reads] using ih (if accepted then relayList ++ [net] else relayList)

theorem filterNetlistData_cases (input : Input)
    (parallel : ∀ net ∈ input.netlistData, net.Parallel) (start : input.relayList = []) :
    (∃ exception, filterNetlistData input = throwing exception) ∧
        (∃ net ∈ input.netlistData, Stops net.rows) ∨
      (∃ out, filterNetlistData input = .ok out) ∧
        ¬ ∃ net ∈ input.netlistData, Stops net.rows := by
  rw [filterNetlistData_eq input parallel start]
  rcases foldlM_acceptNet_cases input.netlistData [] with
    ⟨⟨exception, throws⟩, stops⟩ | ⟨⟨out, finished⟩, reads⟩
  · rw [throws]
    exact .inl ⟨⟨exception, rfl⟩, stops⟩
  · rw [finished]
    exact .inr ⟨⟨_, rfl⟩, reads⟩

/-- What the filter leaves in `relayList`: the nets with a row that makes them relays, in order. -/
theorem filterNetlistData_relayList (input out : Input)
    (parallel : ∀ net ∈ input.netlistData, net.Parallel) (start : input.relayList = [])
    (finished : filterNetlistData input = .ok out) :
    out.relayList = input.netlistData.filter (fun net => ∃ row ∈ net.rows, RelayRow row) ∧
      out.netlistData = input.netlistData := by
  have whole := filterNetlistData_selects input out parallel start finished
  have same : relayNet = fun net : NetlistData => decide (∃ row ∈ net.rows, RelayRow row) := by
    funext net
    rw [Bool.eq_iff_iff]
    simp [relayNet]
  rw [whole, same]
  exact ⟨rfl, rfl⟩

def sampleNets : List NetlistData :=
  [.ofRows [⟨"K1".toList, "U1".toList, "33".toList, expanderDevice⟩,
      ⟨"K1".toList, "U1".toList, "5".toList, expanderDevice⟩,
      ⟨"K1".toList, "J1".toList, "2".toList, "HEADER".toList⟩,
      ⟨"K1".toList, "U2".toList, "7".toList, expanderDevice⟩],
    .ofRows [⟨"SDI".toList, "U1".toList, "33".toList, expanderDevice⟩,
      ⟨"SDI".toList, "U1".toList, "EP".toList, expanderDevice⟩]]

theorem filterNetlistData_sampleNets :
    let out : Input := { netlistData := sampleNets, relayList := sampleNets.take 1 }
    out.relayList = sampleNets.filter (fun net => ∃ row ∈ net.rows, RelayRow row) ∧
      out.netlistData = sampleNets :=
  filterNetlistData_relayList { netlistData := sampleNets } _ (by decide) rfl (by decide)

end RelayDev.RelayFilter
