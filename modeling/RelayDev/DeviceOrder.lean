import RelayDev.Data
import RelayDev.Lib.Chase

/-! `Input::getDeviceOrder`: the daisy chain of the IO expanders. -/

namespace RelayDev.DeviceOrder

open Cpp Text Loop

def dinPin : Text := "33".toList

def doutPin : Text := "40".toList

/-- What the head search keeps instead of an identifier in a net with a DOUT row. -/
def outputMark : Text := "OUTPUT".toList

def onPin (net : NetlistData) (pin : Text) (j : Nat) : Result Bool := do
  if (← index net.device j) = expanderDevice then
    return decide ((← index net.connection j) = pin)
  else return false

def headRow (net : NetlistData) (j : Nat) (identifier : Text) : Result (ForInStep Text) := do
  if (← onPin net dinPin j) ∧ identifier = [] then return .yield (← index net.identifier j)
  else if ← onPin net doutPin j then return .done outputMark
  else return .yield identifier

structure Head where
  identifier : Text
  ioData : List IOData
  expanders : Nat

def headNet (net : NetlistData) (s : Head) : Result (ForInStep Head) := do
  let identifier ← forIn (List.range net.name.length) s.identifier (headRow net)
  if identifier ≠ [] ∧ identifier ≠ outputMark then
    let ioData ← update s.ioData s.expanders fun _ => ⟨identifier, s.expanders + 1⟩
    return .done ⟨identifier, ioData, s.expanders + 1⟩
  else return .yield { s with identifier := [] }

structure Chain where
  ioData : List IOData
  expanders : Nat
  connectionFound : Bool
  lastDevice : Bool

/-- `ioData[expanders - 1].identifier`: without an expander this reads in front of
the first element. -/
def Chain.tail (s : Chain) : Result Text :=
  match s.expanders with
  | 0 => .error .undefined
  | last + 1 => (index s.ioData last).map IOData.identifier

def onTail (net : NetlistData) (l : Nat) (s : Chain) : Result Bool := do
  if ← onPin net doutPin l then return decide ((← index net.identifier l) = (← s.tail))
  else return false

def dinRow (net : NetlistData) (m : Nat) (s : Chain) : Result (ForInStep Chain) := do
  if ← onPin net dinPin m then
    let identifier ← index net.identifier m
    let ioData ← update (s.ioData ++ [.empty]) s.expanders fun _ => ⟨identifier, s.expanders + 1⟩
    return .done { s with ioData, expanders := s.expanders + 1, connectionFound := true }
  else return .yield s

/-- One turn of the row loop that follows the chain, on a row with test `atTail`. -/
def chainRow (net : NetlistData) (atTail : Chain → Result Bool) (s : Chain) :
    Result (ForInStep Chain) := do
  if ← atTail s then
    let s ← forIn (List.range net.name.length) s (dinRow net)
    if !s.connectionFound then return .done { s with lastDevice := true }
    else return .yield { s with connectionFound := false }
  else return .yield s

def chainNet (net : NetlistData) (s : Chain) : Result (ForInStep Chain) := do
  let s ← forIn (List.range net.name.length) s fun l => chainRow net (onTail net l)
  if s.lastDevice then return .done s else return .yield s

def chainPass (nets : List NetlistData) (s : Chain) : Result Chain := forIn nets s chainNet

def findHead (input : Input) : Result Chain := do
  let head ← forIn input.netlistData (⟨[], input.ioData ++ [.empty], 0⟩ : Head) headNet
  return ⟨head.ioData, head.expanders, false, false⟩

/-- `none` when the fuel does not cover the passes over the netlist. -/
def getDeviceOrder (fuel : Nat) (input : Input) : Option (Result Input) :=
  match findHead input with
  | .error fault => some (.error fault)
  | .ok s =>
      (whileLoop (fun s : Chain => !s.lastDevice) (chainPass input.netlistData) fuel s).map
        fun outcome => outcome.map fun s => { input with ioData := s.ioData }

def Din (row : Row) : Prop := row.device = expanderDevice ∧ row.connection = dinPin

def Dout (row : Row) : Prop := row.device = expanderDevice ∧ row.connection = doutPin

instance (row : Row) : Decidable (Din row) := inferInstanceAs (Decidable (_ ∧ _))

instance (row : Row) : Decidable (Dout row) := inferInstanceAs (Decidable (_ ∧ _))

def firstDin (rows : List Row) : Option Text := (rows.find? (decide <| Din ·)).map Row.identifier

def netLinks (rows : List Row) : List (Chase.Link Text) :=
  (rows.filter (decide <| Dout ·)).map fun row => ⟨row.identifier, firstDin rows⟩

def links (nets : List NetlistData) : List (Chase.Link Text) :=
  nets.flatMap fun net => netLinks net.rows

/-- The expander a net makes the first of the chain: the net has no DOUT row, and
the identifier is that of its first DIN row that has one. -/
def headOf (rows : List Row) : Option Text :=
  if rows.any (decide <| Dout ·) then none
  else
    (((rows.filter (decide <| Din ·)).map Row.identifier).find? (decide <| · ≠ [])).filter
      (decide <| · ≠ outputMark)

def firstLink (nets : List NetlistData) : Option Text := nets.findSome? fun net => headOf net.rows

def chainData (path : List Text) : List IOData := path.mapIdx fun k identifier => ⟨identifier, k + 1⟩

theorem onPin_ofRows {rows : List Row} {j : Nat} {row : Row} (pin : Text)
    (found : rows[j]? = some row) :
    onPin (.ofRows rows) pin j =
      .ok (decide (row.device = expanderDevice ∧ row.connection = pin)) := by
  simp only [onPin, NetlistData.ofRows_device, NetlistData.ofRows_connection,
    index_map _ found, ok_bind, pure_eq_ok]
  by_cases device : row.device = expanderDevice <;> simp [device]

def headScan : List Row → Text → Text
  | [], identifier => identifier
  | row :: rows, identifier =>
      if Din row ∧ identifier = [] then headScan rows row.identifier
      else if Dout row then outputMark
      else headScan rows identifier

theorem headRow_loop (rows : List Row) (identifier : Text) :
    forIn (List.range rows.length) identifier (headRow (.ofRows rows)) =
      .ok (headScan rows identifier) := by
  have overRows := forIn_range rows (headRow (.ofRows rows))
    (fun row identifier =>
      if Din row ∧ identifier = [] then .ok (.yield row.identifier)
      else if Dout row then .ok (.done outputMark)
      else .ok (.yield identifier))
    (by
      intro j row found
      funext identifier
      simp only [headRow, onPin_ofRows _ found, NetlistData.ofRows_identifier,
        index_map _ found, ok_bind, pure_eq_ok, decide_eq_true_eq]
      rfl) identifier
  rw [overRows]
  clear overRows
  induction rows generalizing identifier with
  | nil => rfl
  | cons row rows ih =>
      rw [List.forIn_cons, headScan]
      split
      · exact ih row.identifier
      · split
        · rfl
        · exact ih identifier

theorem Dout.not_din {row : Row} (dout : Dout row) : ¬ Din row := by
  rintro ⟨_, din⟩
  have clash : doutPin = dinPin := dout.2.symm.trans din
  exact absurd clash (by decide)

theorem headScan_eq (rows : List Row) (identifier : Text) :
    headScan rows identifier =
      if rows.any (decide <| Dout ·) then outputMark
      else if identifier = [] then
        (((rows.filter (decide <| Din ·)).map Row.identifier).find? (decide <| · ≠ [])).getD []
      else identifier := by
  induction rows generalizing identifier with
  | nil => by_cases blank : identifier = [] <;> simp [headScan, blank]
  | cons row rows ih =>
      rw [headScan]
      by_cases dout : Dout row
      · simp [dout, dout.not_din]
      · by_cases din : Din row
        · by_cases blank : identifier = []
          · by_cases unnamed : row.identifier = []
            · simp [dout, din, blank, unnamed, ih]
            · simp [dout, din, blank, unnamed, ih]
          · simp [dout, din, blank, ih]
        · simp [dout, din, ih]

theorem headOf_eq (rows : List Row) :
    headOf rows =
      if headScan rows [] ≠ [] ∧ headScan rows [] ≠ outputMark then some (headScan rows [])
      else none := by
  rw [headScan_eq, headOf]
  by_cases dout : rows.any (decide <| Dout ·) = true
  · simp [dout]
  · simp only [dout, if_false, if_true, Bool.false_eq_true]
    cases found : ((rows.filter (decide <| Din ·)).map Row.identifier).find? (decide <| · ≠ []) with
    | none => simp
    | some identifier =>
        have named : identifier ≠ [] := by simpa using List.find?_some found
        by_cases mark : identifier = outputMark <;> simp [mark, named]

theorem headNet_ofRows (rows : List Row) (ioData : List IOData) :
    headNet (.ofRows rows) ⟨[], ioData ++ [.empty], ioData.length⟩ =
      .ok (match headOf rows with
        | some identifier => .done ⟨identifier, ioData ++ [⟨identifier, ioData.length + 1⟩],
            ioData.length + 1⟩
        | none => .yield ⟨[], ioData ++ [.empty], ioData.length⟩) := by
  rw [headNet, NetlistData.ofRows_name, List.length_map, headRow_loop, ok_bind, headOf_eq]
  split
  · rw [update_middle]
    rfl
  · rfl

/-- The head search finds the first link, or leaves `ioData` with its one empty
element and the count at zero. -/
theorem findHead_eq (input : Input) (parallel : ∀ net ∈ input.netlistData, net.Parallel)
    (start : input.ioData = []) :
    findHead input = .ok (match firstLink input.netlistData with
      | some head => ⟨chainData [head], 1, false, false⟩
      | none => ⟨[.empty], 0, false, false⟩) := by
  have search (nets : List NetlistData) (parallel : ∀ net ∈ nets, net.Parallel) :
      forIn nets (⟨[], [.empty], 0⟩ : Head) headNet =
        .ok (match firstLink nets with
          | some head => ⟨head, chainData [head], 1⟩
          | none => ⟨[], [.empty], 0⟩) := by
    induction nets with
    | nil => rfl
    | cons net nets ih =>
        have rest := ih (fun next member => parallel next (List.mem_cons_of_mem _ member))
        have step := headNet_ofRows net.rows []
        rw [NetlistData.ofRows_rows net (parallel net (by simp))] at step
        rw [List.forIn_cons, firstLink, List.findSome?_cons]
        simp only [List.nil_append, List.length_nil] at step
        rw [step]
        cases headOf net.rows with
        | some head => rfl
        | none => exact rest
  rw [findHead, start, List.nil_append, search input.netlistData parallel, ok_bind]
  cases firstLink input.netlistData <;> rfl

def Chain.ofPath (path : List Text) (ended : Bool) : Chain :=
  ⟨chainData path, path.length, false, ended⟩

theorem chainData_length (path : List Text) : (chainData path).length = path.length := by
  simp [chainData]

theorem chainData_concat (path : List Text) (identifier : Text) :
    chainData (path ++ [identifier]) = chainData path ++ [⟨identifier, path.length + 1⟩] := by
  simp [chainData, List.mapIdx_concat]

theorem chainData_position_inj {path : List Text} {first second : IOData}
    (one : first ∈ chainData path) (two : second ∈ chainData path)
    (same : first.position = second.position) : first = second := by
  obtain ⟨i, _, rfl⟩ := List.mem_mapIdx.mp one
  obtain ⟨j, _, rfl⟩ := List.mem_mapIdx.mp two
  obtain rfl : i = j := by
    simp only at same
    omega
  rfl

theorem tail_ofPath (path : List Text) (current : Text) (ended : Bool) :
    (Chain.ofPath (path ++ [current]) ended).tail = .ok current := by
  have last : (chainData path ++ [⟨current, (path.length : Int) + 1⟩])[path.length]? =
      some ⟨current, path.length + 1⟩ := by
    rw [← chainData_length path]
    simp
  simp [Chain.tail, Chain.ofPath, chainData_concat, index_of_getElem? last, Except.map]

def rowOnTail (row : Row) (s : Chain) : Result Bool :=
  if Dout row then s.tail.map fun current => decide (row.identifier = current) else .ok false

theorem onTail_ofRows {rows : List Row} {l : Nat} {row : Row} (found : rows[l]? = some row) :
    onTail (.ofRows rows) l = rowOnTail row := by
  funext s
  simp only [onTail, onPin_ofRows _ found, NetlistData.ofRows_identifier, index_map _ found,
    ok_bind, decide_eq_true_eq]
  rfl

theorem dinRow_loop (rows : List Row) (path : List Text) :
    forIn (List.range rows.length) (Chain.ofPath path false) (dinRow (.ofRows rows)) =
      .ok (((firstDin rows).map fun identifier =>
        { Chain.ofPath (path ++ [identifier]) false with connectionFound := true }).getD
          (.ofPath path false)) := by
  have append (identifier : Text) :
      update (chainData path ++ [.empty]) path.length
        (fun _ => ⟨identifier, (path.length : Int) + 1⟩) =
          .ok (chainData (path ++ [identifier])) := by
    rw [chainData_concat, ← chainData_length path, update_middle]
  have overRows := forIn_range rows (dinRow (.ofRows rows))
    (fun row s => if Din row then do
        let ioData ← update (s.ioData ++ [.empty]) s.expanders
          fun _ => ⟨row.identifier, s.expanders + 1⟩
        return .done { s with ioData, expanders := s.expanders + 1, connectionFound := true }
      else return .yield s)
    (by
      intro j row found
      funext s
      simp only [dinRow, onPin_ofRows _ found, NetlistData.ofRows_identifier,
        index_map _ found, ok_bind, decide_eq_true_eq]
      rfl) (Chain.ofPath path false)
  rw [overRows, forIn_find rows (decide <| Din ·) (fun row =>
    { Chain.ofPath (path ++ [row.identifier]) false with connectionFound := true })]
  · rw [firstDin, Option.map_map]
    rfl
  · intro row _
    by_cases din : Din row
    · simp [din, Chain.ofPath, append]
    · simp [din]

theorem chainRow_ofRows (rows : List Row) (row : Row) (path : List Text) (current : Text) :
    chainRow (.ofRows rows) (rowOnTail row) (.ofPath (path ++ [current]) false) =
      .ok (if Dout row ∧ row.identifier = current then
        match firstDin rows with
        | none => .done (.ofPath (path ++ [current]) true)
        | some next => .yield (.ofPath (path ++ [current] ++ [next]) false)
      else .yield (.ofPath (path ++ [current]) false)) := by
  have search := dinRow_loop rows (path ++ [current])
  by_cases dout : Dout row
  · by_cases here : row.identifier = current
    · cases din : firstDin rows with
      | none =>
          rw [din] at search
          simp [chainRow, rowOnTail, dout, here, tail_ofPath, Except.map, search]
          rfl
      | some next =>
          rw [din] at search
          simp [chainRow, rowOnTail, dout, here, tail_ofPath, Except.map, search]
          rfl
    · simp [chainRow, rowOnTail, dout, here, tail_ofPath, Except.map]
  · simp [chainRow, rowOnTail, dout]

theorem getLast?_append_moved {path : List Text} {current : Text} (moved : List Text)
    (last : path.getLast? = some current) :
    (path ++ moved).getLast? = some (moved.getLastD current) := by
  rw [List.getLast?_append, last]
  cases moved with
  | nil => rfl
  | cons next moved => simp [List.getLast?_cons]

theorem chainRow_loop (rows part : List Row) (path : List Text) (current : Text)
    (last : path.getLast? = some current) :
    forIn part (Chain.ofPath path false) (fun row => chainRow (.ofRows rows) (rowOnTail row)) =
      .ok (let moved := Chase.pass ((part.filter (decide <| Dout ·)).map
          fun row => ⟨row.identifier, firstDin rows⟩) current
        .ofPath (path ++ moved.1) moved.2) := by
  induction part generalizing path current with
  | nil => simp [Chase.pass]
  | cons row part ih =>
      obtain ⟨before, rfl⟩ := List.getLast?_eq_some_iff.mp last
      rw [List.forIn_cons, chainRow_ofRows]
      by_cases dout : Dout row
      · by_cases here : row.identifier = current
        · cases din : firstDin rows with
          | none => simp [dout, here, Chase.pass]
          | some next =>
              have rest := ih (before ++ [current] ++ [next]) next (by simp)
              rw [din] at rest
              simp only [dout, here, and_self, if_true, ok_bind, List.filter_cons, decide_true,
                List.map_cons, Chase.pass, List.append_assoc, List.cons_append,
                List.nil_append] at rest ⊢
              exact rest
        · simp only [here, and_false, if_false, ok_bind, ih _ current last, List.filter_cons, dout,
            decide_true, if_true, List.map_cons, Chase.pass]
      · simp only [dout, false_and, if_false, ok_bind, ih _ current last, List.filter_cons,
          decide_false, Bool.false_eq_true]

theorem chainNet_eq (net : NetlistData) (parallel : net.Parallel) (path : List Text)
    (current : Text) (last : path.getLast? = some current) :
    chainNet net (.ofPath path false) =
      .ok (let moved := Chase.pass (netLinks net.rows) current
        if moved.2 then .done (.ofPath (path ++ moved.1) true)
        else .yield (.ofPath (path ++ moved.1) false)) := by
  rw [← NetlistData.ofRows_rows net parallel]
  generalize net.rows = rows
  have overRows := forIn_range rows
    (fun l => chainRow (.ofRows rows) (onTail (.ofRows rows) l))
    (fun row => chainRow (.ofRows rows) (rowOnTail row))
    (fun l row found => by rw [onTail_ofRows found]) (.ofPath path false)
  rw [chainNet, NetlistData.ofRows_name, List.length_map, overRows,
    chainRow_loop rows rows path current last, ok_bind, NetlistData.rows_ofRows, netLinks]
  generalize Chase.pass _ current = moved
  obtain ⟨moved, ended⟩ := moved
  cases ended <;> rfl

/-- The body of the chain loop is a pass over the links of the netlist. -/
theorem chainPass_eq (nets : List NetlistData) (parallel : ∀ net ∈ nets, net.Parallel)
    (path : List Text) (current : Text) (last : path.getLast? = some current) :
    chainPass nets (.ofPath path false) =
      .ok (let moved := Chase.pass (links nets) current
        .ofPath (path ++ moved.1) moved.2) := by
  induction nets generalizing path current with
  | nil => simp [chainPass, links, Chase.pass]
  | cons net nets ih =>
      have rest := ih (fun next member => parallel next (List.mem_cons_of_mem _ member))
      have step := chainNet_eq net (parallel net (by simp)) path current last
      simp only [chainPass] at rest ⊢
      rw [List.forIn_cons, step, ok_bind, links, List.flatMap_cons, Chase.pass_append]
      have last' := getLast?_append_moved (Chase.pass (netLinks net.rows) current).1 last
      generalize Chase.pass (netLinks net.rows) current = moved at last' ⊢
      obtain ⟨moved, ended⟩ := moved
      cases ended with
      | true => rfl
      | false =>
          have further := rest (path ++ moved) (moved.getLastD current) last'
          simp only [Bool.false_eq_true, if_false, further, links, List.append_assoc]

def Related (s : Chain) (t : Chase.State Text) : Prop :=
  s = .ofPath t.path t.ended ∧ t.path.getLast? = some t.current

theorem chainPass_related (nets : List NetlistData) (parallel : ∀ net ∈ nets, net.Parallel)
    {s : Chain} {t : Chase.State Text} (related : Related s t) (running : t.ended = false) :
    ∃ next next', chainPass nets s = .ok next ∧
      Chase.turn (ε := Fault) (links nets) t = .ok next' ∧ Related next next' := by
  obtain ⟨path, current, ended⟩ := t
  obtain ⟨rfl, last⟩ := related
  subst running
  refine ⟨_, _, chainPass_eq nets parallel path current last, rfl, ?_, ?_⟩
  · rfl
  · exact getLast?_append_moved _ last

theorem chain_leaves_iff (nets : List NetlistData) (parallel : ∀ net ∈ nets, net.Parallel)
    (head : Text) (outcome : Result Chain) :
    Leaves (fun s : Chain => !s.lastDevice) (chainPass nets) (.ofPath [head] false) outcome ↔
      ∃ moved, Chase.Walk (links nets) head moved ∧ outcome = .ok (.ofPath (head :: moved) true) := by
  have start : Related (.ofPath [head] false) ⟨[head], head, false⟩ := ⟨rfl, rfl⟩
  have guard (s : Chain) (t : Chase.State Text) (related : Related s t) :
      (!s.lastDevice) = Chase.running t := by
    rw [related.1]
    rfl
  have turn (s : Chain) (t : Chase.State Text) (related : Related s t)
      (running : Chase.running t = true) := chainPass_related nets parallel related
    (by simpa [Chase.running] using running)
  constructor
  · intro left
    rcases @leaves_simulation _ _ _ Chase.running (Chase.turn (links nets)) _ _
      (fun t s => Related s t) (fun t s related => (guard s t related).symm)
      (fun t s related running => by
        obtain ⟨next, next', one, two, keeps⟩ := turn s t related
          ((guard s t related).symm.trans running)
        exact .inl ⟨next', next, two, one, keeps⟩) _ _ start _ left with
      ⟨t, s, ended, rfl, related⟩ | ⟨e, failed, _⟩
    · obtain ⟨moved, walk, same⟩ := (Chase.leaves_iff_walk (links nets) [head] head t.path).mp
        ⟨t, ended, rfl⟩
      have stopped : t.ended = true := by simpa [Chase.running] using leaves_stopped ended
      refine ⟨moved, walk, ?_⟩
      rw [related.1, stopped, same]
      rfl
    · exact absurd failed (Chase.turn_never_fails _ _ e)
  · rintro ⟨moved, walk, rfl⟩
    obtain ⟨t, ended, same⟩ := (Chase.leaves_iff_walk (ε := Fault) (links nets) [head] head _).mpr
      ⟨moved, walk, rfl⟩
    have stopped : t.ended = true := by simpa [Chase.running] using leaves_stopped ended
    rcases leaves_simulation Related guard
      (fun s t related running => .inl (turn s t related running)) start ended with
      ⟨s, t', left, eq, related⟩ | ⟨e, _, failed⟩
    · cases eq
      rw [related.1, stopped, same] at left
      exact left
    · cases failed

/-- The state of the chain loop when no first link was found. -/
def Chain.headless : Chain := ⟨[.empty], 0, false, false⟩

/-- Without a first link a pass either runs into a DOUT row, and compares it with
an element in front of `ioData`, or changes nothing. -/
theorem chainPass_headless (nets : List NetlistData) (parallel : ∀ net ∈ nets, net.Parallel) :
    chainPass nets .headless = if links nets = [] then .ok .headless else .error .undefined := by
  have overRows (rows part : List Row) :
      forIn part Chain.headless (fun row => chainRow (.ofRows rows) (rowOnTail row)) =
        if part.filter (decide <| Dout ·) = [] then .ok .headless else .error .undefined := by
    induction part with
    | nil => rfl
    | cons row part ih =>
        rw [List.forIn_cons, List.filter_cons]
        by_cases dout : Dout row
        · simp [chainRow, rowOnTail, dout, Chain.tail, Chain.headless, Except.map]
        · simpa [chainRow, rowOnTail, dout] using ih
  induction nets with
  | nil => rfl
  | cons net nets ih =>
      have rest := ih (fun next member => parallel next (List.mem_cons_of_mem _ member))
      have step : chainNet net .headless =
          if netLinks net.rows = [] then .ok (.yield .headless) else .error .undefined := by
        rw [← NetlistData.ofRows_rows net (parallel net (by simp))]
        generalize net.rows = rows
        have loop := forIn_range rows
          (fun l => chainRow (.ofRows rows) (onTail (.ofRows rows) l))
          (fun row => chainRow (.ofRows rows) (rowOnTail row))
          (fun l row found => by rw [onTail_ofRows found]) .headless
        rw [chainNet, NetlistData.ofRows_name, List.length_map, loop, overRows,
          NetlistData.rows_ofRows, netLinks]
        simp only [List.map_eq_nil_iff]
        split <;> rfl
      simp only [chainPass] at rest ⊢
      rw [List.forIn_cons, step, links, List.flatMap_cons]
      by_cases none : netLinks net.rows = []
      · rw [if_pos none, none, List.nil_append]
        exact rest
      · simp [none]

theorem headless_outcome (nets : List NetlistData) (parallel : ∀ net ∈ nets, net.Parallel)
    {outcome : Result Chain}
    (left : Leaves (fun s : Chain => !s.lastDevice) (chainPass nets) .headless outcome) :
    links nets ≠ [] ∧ outcome = .error .undefined := by
  have pass := chainPass_headless nets parallel
  by_cases none : links nets = []
  · rw [if_pos none] at pass
    exact absurd left (never_leaves (· = Chain.headless)
      (by rintro s rfl; exact ⟨rfl, _, pass, rfl⟩) rfl outcome)
  · rw [if_neg none] at pass
    exact ⟨none, leaves_unique left (leaves_error rfl pass)⟩

theorem ends_getDeviceOrder {input : Input} {start : Chain} (found : findHead input = .ok start)
    (r : Result Input) :
    Ends (getDeviceOrder · input) r ↔
      ∃ outcome, Leaves (fun s : Chain => !s.lastDevice) (chainPass input.netlistData) start
          outcome ∧
        outcome.map (fun s => { input with ioData := s.ioData }) = r := by
  constructor
  · rintro ⟨fuel, returned⟩
    simp only [getDeviceOrder, found, Option.map_eq_some_iff] at returned
    obtain ⟨outcome, left, same⟩ := returned
    exact ⟨outcome, ⟨fuel, left⟩, same⟩
  · rintro ⟨outcome, ⟨fuel, left⟩, same⟩
    refine ⟨fuel, ?_⟩
    simp only [getDeviceOrder, found, Option.map_eq_some_iff]
    exact ⟨outcome, left, same⟩

theorem getDeviceOrder_outcome (input : Input) (parallel : ∀ net ∈ input.netlistData, net.Parallel)
    (start : input.ioData = []) {r : Result Input} (ended : Ends (getDeviceOrder · input) r) :
    (links input.netlistData ≠ [] ∧ r = .error .undefined) ∨
      ∃ head moved, firstLink input.netlistData = some head ∧
        Chase.Walk (links input.netlistData) head moved ∧
          r = .ok { input with ioData := chainData (head :: moved) } := by
  obtain ⟨outcome, left, rfl⟩ :=
    (ends_getDeviceOrder (findHead_eq input parallel start) r).mp ended
  cases first : firstLink input.netlistData with
  | none =>
      rw [first] at left
      obtain ⟨linked, rfl⟩ := headless_outcome input.netlistData parallel left
      exact .inl ⟨linked, rfl⟩
  | some head =>
      rw [first] at left
      obtain ⟨moved, walk, rfl⟩ :=
        (chain_leaves_iff input.netlistData parallel head outcome).mp left
      exact .inr ⟨head, moved, rfl, walk, rfl⟩

theorem getDeviceOrder_of_walk (input : Input) (parallel : ∀ net ∈ input.netlistData, net.Parallel)
    (start : input.ioData = []) {head : Text} {moved : List Text}
    (first : firstLink input.netlistData = some head)
    (walk : Chase.Walk (links input.netlistData) head moved) :
    Ends (getDeviceOrder · input) (.ok { input with ioData := chainData (head :: moved) }) := by
  have found := findHead_eq input parallel start
  have left := (chain_leaves_iff input.netlistData parallel head _).mpr ⟨moved, walk, rfl⟩
  rw [first] at found
  exact (ends_getDeviceOrder found _).mpr ⟨_, left, rfl⟩

theorem steady_getDeviceOrder (input : Input) : Steady (getDeviceOrder · input) := by
  intro fuel more r enough returned
  unfold getDeviceOrder at returned ⊢
  split at returned
  · exact returned
  · obtain ⟨outcome, left, same⟩ := Option.map_eq_some_iff.mp returned
    exact Option.map_eq_some_iff.mpr
      ⟨outcome, steady_whileLoop _ _ _ fuel more outcome enough left, same⟩

/-- There is a first link, and from it the DOUT rows lead to one without a DIN. -/
def ChainEnds (nets : List NetlistData) : Prop :=
  ∃ head moved, firstLink nets = some head ∧ Chase.Walk (links nets) head moved

theorem getDeviceOrder_settles_iff (input : Input)
    (parallel : ∀ net ∈ input.netlistData, net.Parallel) (start : input.ioData = []) :
    Settles (getDeviceOrder · input) ↔ ChainEnds input.netlistData := by
  constructor
  · rintro ⟨r, ended, defined⟩
    rcases getDeviceOrder_outcome input parallel start ended with
      ⟨_, failed⟩ | ⟨head, moved, first, walk, _⟩
    · exact absurd failed defined
    · exact ⟨head, moved, first, walk⟩
  · rintro ⟨head, moved, first, walk⟩
    exact ⟨_, getDeviceOrder_of_walk input parallel start first walk, by simp⟩

end RelayDev.DeviceOrder
