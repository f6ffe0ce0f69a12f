import RelayDev.Columns
import RelayDev.InputData

/-! The resistor that `convertNormalState` decides at, and the normal state it gives. -/

namespace RelayDev.PullDown

open Cpp Text RelayConvert InputData

def normallyOpen : Text := "RELAY_NO".toList

def normallyClosed : Text := "RELAY_NC".toList

def Resistor (row : Row) : Bool := (findText "RESISTOR".toList row.device).isSome

def ofModel (input : Input) (row : Row) : Bool :=
  input.modelData.any fun model => (findText model.relayModel row.device).isSome

def PulledDown (input : Input) (identifier : Text) : Prop :=
  ∃ row ∈ allRows input.netlistData, row.identifier = identifier ∧ row.name = "GND".toList

instance (input : Input) (identifier : Text) : Decidable (PulledDown input identifier) :=
  inferInstanceAs (Decidable (∃ row ∈ _, _))

def Closed (input : Input) (net : NetlistData) : Prop :=
  (∃ row ∈ net.rows, ofModel input row = true) ∧
    ∃ row ∈ net.rows, Resistor row = true ∧ PulledDown input row.identifier

instance (input : Input) (net : NetlistData) : Decidable (Closed input net) :=
  inferInstanceAs (Decidable (_ ∧ _))

def normalStateOf (closed : Prop) [Decidable closed] : Text :=
  if closed then normallyClosed else normallyOpen

def Paired (nets : List NetlistData) : Prop :=
  ∀ row ∈ allRows nets, Resistor row = true →
    (allRows nets).countP (decide <| ·.identifier = row.identifier) = 2

instance (nets : List NetlistData) : Decidable (Paired nets) :=
  inferInstanceAs (Decidable (∀ row ∈ _, _))

def resistors (rows : List Row) : List Text := (rows.filter Resistor).map Row.identifier

/-- The resistor the scan of a net holds at its first relay: the last one up to there. If there
is none, or it has no identifier, it is the first one behind that has. -/
def decidingFrom (input : Input) (held : Text) (rows : List Row) : Option Text :=
  (rows.findIdx? (ofModel input)).bind fun i =>
    let held := (resistors (rows.take (i + 1))).getLastD held
    if held ≠ [] then some held else (resistors (rows.drop (i + 1))).find? (· ≠ [])

def decidingResistor (input : Input) (net : NetlistData) : Option Text :=
  decidingFrom input [] net.rows

/-- What the search finds: the ground on one of the first two rows of the resistor. -/
def Grounded (input : Input) (identifier : Text) : Bool :=
  (((allRows input.netlistData).filter (decide <| ·.identifier = identifier)).take 2).any
    (decide <| ·.name = "GND".toList)

def pulldownStep (identifier : Text) (row : Row) (s : Pulldown) : Result (ForInStep Pulldown) :=
  if row.identifier = identifier then
    if row.name = "GND".toList then .ok (.done { s with gndConnection := true })
    else if s.tracker + 1 = 2 then .ok (.done { s with tracker := s.tracker + 1 })
    else .ok (.yield { s with tracker := s.tracker + 1 })
  else .ok (.yield s)

def stopped (s : Pulldown) : Bool := s.gndConnection ∨ s.tracker = 2

theorem pulldownNet_rows {net : NetlistData} (parallel : net.Parallel) (identifier : Text)
    (s : Pulldown) :
    pulldownNet identifier net s = forIn net.rows s (pulldownStep identifier) >>= fun next =>
      .ok (if stopped next then .done next else .yield next) := by
  have overRows : forIn (List.range net.name.length) s (pulldownRow net identifier) =
      forIn net.rows s (pulldownStep identifier) := by
    rw [← NetlistData.ofRows_rows net parallel, NetlistData.rows_ofRows,
      NetlistData.ofRows_name, List.length_map]
    apply Loop.forIn_range
    intro k row found
    funext s
    rw [pulldownRow, NetlistData.ofRows_identifier, index_map Row.identifier found, ok_bind,
      NetlistData.ofRows_name, index_map Row.name found, ok_bind]
    rfl
  rw [pulldownNet, overRows]
  congr 1
  funext next
  by_cases halted : next.gndConnection = true ∨ next.tracker = 2 <;> simp [stopped, halted]

theorem pulldownStep_done {identifier : Text} {row : Row} {s next : Pulldown}
    (stepped : pulldownStep identifier row s = .ok (.done next)) : stopped next = true := by
  unfold pulldownStep at stepped
  split at stepped
  · split at stepped
    · cases stepped
      simp [stopped]
    · split at stepped
      · rename_i both
        cases stepped
        simp [stopped, both]
      · cases stepped
  · cases stepped

theorem pulldownStep_yield {identifier : Text} {row : Row} {s next : Pulldown}
    (running : stopped s = false)
    (stepped : pulldownStep identifier row s = .ok (.yield next)) : stopped next = false := by
  unfold pulldownStep at stepped
  split at stepped
  · split at stepped
    · cases stepped
    · split at stepped
      · cases stepped
      · rename_i single
        cases stepped
        have open' : s.gndConnection = false := by simp_all [stopped]
        simp [stopped, open', single]
  · cases stepped
    exact running

theorem pulldown_rows (identifier : Text) (rows : List Row) {tracker : Nat} (few : tracker < 2) :
    ∃ last, forIn rows ⟨false, tracker⟩ (pulldownStep identifier) = .ok last ∧
      last.gndConnection = ((rows.filter (decide <| ·.identifier = identifier)).take
        (2 - tracker)).any (decide <| ·.name = "GND".toList) := by
  induction rows generalizing tracker with
  | nil => exact ⟨_, rfl, by simp⟩
  | cons row rows ih =>
      have left : 2 - tracker = (1 - tracker) + 1 := by omega
      rw [List.forIn_cons]
      by_cases same : row.identifier = identifier
      · rw [List.filter_cons_of_pos (by simpa using same), left, List.take_succ_cons, List.any_cons]
        by_cases ground : row.name = "GND".toList
        · simp only [pulldownStep, same, ground, if_true]
          exact ⟨_, rfl, by simp⟩
        · by_cases both : tracker + 1 = 2
          · simp only [pulldownStep, same, ground, both, if_true, if_false]
            have none : 1 - tracker = 0 := by omega
            exact ⟨_, rfl, by simp [none]⟩
          · simp only [pulldownStep, same, ground, both, if_true, if_false]
            obtain ⟨last, read, found⟩ := @ih (tracker + 1) (by omega)
            refine ⟨last, read, ?_⟩
            have count : 2 - (tracker + 1) = 1 - tracker := by omega
            rw [found, count]
            simp
      · rw [List.filter_cons_of_neg (by simpa using same)]
        simp only [pulldownStep, same, if_false]
        exact ih few

theorem pulldown_eq {input : Input} (columns : ∀ net ∈ input.netlistData, net.Parallel)
    (identifier : Text) :
    ∃ last, forIn input.netlistData ⟨false, 0⟩ (pulldownNet identifier) = .ok last ∧
      last.gndConnection = Grounded input identifier := by
  rw [Loop.forIn_flatMap input.netlistData NetlistData.rows (pulldownStep identifier)
    stopped (fun _ _ _ => pulldownStep_done) (fun _ _ _ => pulldownStep_yield) rfl
    (pulldownNet identifier) fun net member s => pulldownNet_rows (columns net member) identifier s]
  exact pulldown_rows identifier (allRows input.netlistData) (by decide)

theorem grounded_iff {input : Input} {row : Row} (paired : Paired input.netlistData)
    (member : row ∈ allRows input.netlistData) (resistor : Resistor row = true) :
    Grounded input row.identifier = true ↔ PulledDown input row.identifier := by
  have count := paired row member resistor
  rw [List.countP_eq_length_filter] at count
  rw [Grounded, List.take_of_length_le (Nat.le_of_eq count), List.any_eq_true]
  simp only [List.mem_filter, decide_eq_true_eq, and_assoc, PulledDown]

def normalStep (input : Input) (row : Row) (s : Normal) : ForInStep Normal :=
  let resistorIdentifier := if Resistor row then row.identifier else s.resistorIdentifier
  let presentRelay := s.presentRelay || ofModel input row
  if presentRelay ∧ resistorIdentifier ≠ [] then
    .done ⟨if Grounded input resistorIdentifier then normallyClosed else s.normalState,
      resistorIdentifier, presentRelay⟩
  else .yield ⟨s.normalState, resistorIdentifier, presentRelay⟩

theorem modelOf_isSome (input : Input) (row : Row) :
    (modelOf input row.device).isSome = ofModel input row := List.isSome_find?

theorem normalRow_eq {input : Input} (columns : ∀ net ∈ input.netlistData, net.Parallel)
    {net : NetlistData} (parallel : net.Parallel) {i : Nat} {row : Row}
    (found : net.rows[i]? = some row) (s : Normal) :
    normalRow input net i s = .ok (normalStep input row s) := by
  have device : index net.device i = .ok row.device := by
    rw [← NetlistData.ofRows_rows net parallel]
    exact index_map Row.device found
  rw [normalRow, device, ok_bind]
  dsimp only
  split
  all_goals
    rename_i resistor
    simp only [(index_column parallel found).1, ok_bind, pure_eq_ok, modelOf_isSome, normalStep,
      Resistor, resistor, if_true, if_false, Bool.false_eq_true]
    split
    · obtain ⟨last, searched, ground⟩ := pulldown_eq columns _
      rw [searched, ok_bind, ground]
      rfl
    · rfl

theorem resistors_cons (row : Row) (rows : List Row) :
    resistors (row :: rows) =
      if Resistor row then row.identifier :: resistors rows else resistors rows := by
  rw [resistors, List.filter_cons]
  split <;> rfl

theorem decidingFrom_cons (input : Input) (held : Text) (row : Row) (rows : List Row) :
    decidingFrom input held (row :: rows) =
      let held := if Resistor row then row.identifier else held
      if ofModel input row then
        if held ≠ [] then some held else (resistors rows).find? (· ≠ [])
      else decidingFrom input held rows := by
  have first (rows : List Row) : (resistors (row :: rows)).getLastD held =
      (resistors rows).getLastD (if Resistor row then row.identifier else held) := by
    rw [resistors_cons]
    split
    · rw [List.getLastD_cons]
    · rfl
  rw [decidingFrom, List.findIdx?_cons]
  by_cases model : ofModel input row = true
  · simp only [model, if_true, Option.bind_some, List.take_succ_cons, List.drop_succ_cons, first,
      List.take_zero, List.drop_zero]
    rfl
  · simp only [model, if_false, Bool.false_eq_true, Option.bind_map, decidingFrom]
    congr 1
    funext i
    simp only [Function.comp_apply, List.take_succ_cons, List.drop_succ_cons, first]

theorem scan_present (input : Input) (rows : List Row) :
    ∃ last, forIn rows ⟨normallyOpen, [], true⟩
        (fun row s => (.ok (normalStep input row s) : Result (ForInStep Normal))) = .ok last ∧
      last.normalState =
        normalStateOf (((resistors rows).find? (· ≠ [])).any (Grounded input) = true) := by
  induction rows with
  | nil => exact ⟨_, rfl, rfl⟩
  | cons row rows ih =>
      rw [List.forIn_cons, ok_bind, resistors_cons]
      by_cases resistor : Resistor row = true
      · by_cases named : row.identifier = []
        · rw [if_pos resistor, List.find?_cons_of_neg (by simp [named])]
          simp only [normalStep, resistor, named, if_true, ne_eq, not_true, and_false, if_false]
          exact ih
        · simp only [normalStep, resistor, named, if_true, ne_eq, not_false_iff, Bool.true_or,
            and_self]
          exact ⟨_, rfl, by simp [named, normalStateOf]⟩
      · simp only [normalStep, resistor, if_false, Bool.false_eq_true, ne_eq, not_true, and_false]
        exact ih

theorem scan (input : Input) (rows : List Row) (held : Text) :
    ∃ last, forIn rows ⟨normallyOpen, held, false⟩
        (fun row s => (.ok (normalStep input row s) : Result (ForInStep Normal))) = .ok last ∧
      last.normalState =
        normalStateOf ((decidingFrom input held rows).any (Grounded input) = true) := by
  induction rows generalizing held with
  | nil => exact ⟨_, rfl, rfl⟩
  | cons row rows ih =>
      rw [List.forIn_cons, ok_bind, decidingFrom_cons]
      dsimp only [normalStep]
      generalize (if Resistor row = true then row.identifier else held) = next
      by_cases model : ofModel input row = true
      · by_cases named : next = []
        · subst named
          simp only [model, Bool.or_true, ne_eq, not_true, and_false, if_false, if_true]
          exact scan_present input rows
        · simp only [model, named, Bool.or_true, ne_eq, not_false_iff, and_self, if_true]
          exact ⟨_, rfl, by simp [normalStateOf]⟩
      · simp only [model, Bool.or_false, Bool.false_eq_true, false_and, if_false]
        exact ih next

theorem convertNormalState_eq {input : Input} {relay : Relay} {net : NetlistData}
    (columns : ∀ net ∈ input.netlistData, net.Parallel) (parallel : net.Parallel)
    (current : input.relayList[relay.currentRelay]? = some net) :
    convertNormalState input relay =
      .ok (normalStateOf ((decidingResistor input net).any (Grounded input) = true)) := by
  have overRows := Loop.forIn_range net.rows (normalRow input net)
    (fun row s => (.ok (normalStep input row s) : Result (ForInStep Normal)))
    (fun i row found => funext fun s => normalRow_eq columns parallel found s)
    (⟨normallyOpen, [], false⟩ : Normal)
  have count : net.device.length = net.rows.length := by
    rw [← NetlistData.ofRows_rows net parallel]
    simp
  obtain ⟨last, read, state⟩ := scan input net.rows []
  rw [convertNormalState, index_of_getElem? current, ok_bind, count]
  change forIn _ (⟨normallyOpen, [], false⟩ : Normal) _ >>= _ = _
  rw [overRows, read, ok_bind, state]
  rfl

theorem mem_resistors {rows : List Row} {identifier : Text} :
    identifier ∈ resistors rows ↔
      ∃ row ∈ rows, Resistor row = true ∧ row.identifier = identifier := by
  simp only [resistors, List.mem_map, List.mem_filter, and_assoc]

theorem decidingResistor_eq_some {input : Input} {net : NetlistData} {identifier : Text}
    (decides : decidingResistor input net = some identifier) :
    (∃ row ∈ net.rows, ofModel input row = true) ∧ identifier ∈ resistors net.rows := by
  obtain ⟨i, first, decides⟩ := Option.bind_eq_some_iff.mp decides
  obtain ⟨bound, model, _⟩ := List.findIdx?_eq_some_iff_getElem.mp first
  refine ⟨⟨_, List.getElem_mem bound, model⟩, ?_⟩
  dsimp only at decides
  split at decides
  · rename_i named
    cases decides
    cases last : (resistors (net.rows.take (i + 1))).getLast? with
    | none =>
        rw [List.getLastD_eq_getLast?, last] at named
        exact absurd rfl named
    | some held =>
        rw [List.getLastD_eq_getLast?, last, Option.getD_some]
        obtain ⟨row, inside, resistor⟩ := mem_resistors.mp (List.mem_of_getLast? last)
        exact mem_resistors.mpr ⟨row, List.mem_of_mem_take inside, resistor⟩
  · obtain ⟨row, inside, resistor⟩ := mem_resistors.mp (List.mem_of_find?_eq_some decides)
    exact mem_resistors.mpr ⟨row, List.mem_of_mem_drop inside, resistor⟩

theorem normalStateOf_eq_iff (p q : Prop) [Decidable p] [Decidable q] :
    normalStateOf p = normalStateOf q ↔ (p ↔ q) := by
  have apart : normallyClosed ≠ normallyOpen := by decide
  unfold normalStateOf
  by_cases one : p <;> by_cases two : q <;> simp [one, two, apart, apart.symm]

/-- A relay is taken to be normally closed for its pull-down resistor exactly if it has none,
or the resistor the scan decides at is one. -/
theorem convertNormalState_closed_iff (input : Input) (relay : Relay) (net : NetlistData)
    (columns : ∀ net ∈ input.netlistData, net.Parallel)
    (selected : ∀ net ∈ input.relayList, net ∈ input.netlistData)
    (paired : Paired input.netlistData)
    (current : input.relayList[relay.currentRelay]? = some net) :
    convertNormalState input relay = .ok (normalStateOf (Closed input net)) ↔
      ¬ Closed input net ∨
        ∃ identifier ∈ decidingResistor input net, PulledDown input identifier := by
  have member := selected net (List.mem_of_getElem? current)
  have decided : (decidingResistor input net).any (Grounded input) = true ↔
      ∃ identifier ∈ decidingResistor input net, PulledDown input identifier := by
    rw [Option.any_eq_true]
    apply exists_congr
    intro identifier
    apply and_congr_right
    intro decides
    obtain ⟨row, inside, resistor, rfl⟩ :=
      mem_resistors.mp (decidingResistor_eq_some decides).2
    exact grounded_iff paired (List.mem_flatMap.mpr ⟨net, member, inside⟩) resistor
  have closed : (∃ identifier ∈ decidingResistor input net, PulledDown input identifier) →
      Closed input net := by
    rintro ⟨identifier, decides, down⟩
    obtain ⟨model, listed⟩ := decidingResistor_eq_some decides
    obtain ⟨row, inside, resistor, rfl⟩ := mem_resistors.mp listed
    exact ⟨model, row, inside, resistor, down⟩
  rw [convertNormalState_eq columns (columns net member) current, Except.ok.injEq,
    normalStateOf_eq_iff, decided]
  constructor
  · intro same
    by_cases isClosed : Closed input net
    · exact .inr (same.mpr isClosed)
    · exact .inl isClosed
  · rintro (opened | down)
    · exact iff_of_false (fun down => opened (closed down)) opened
    · exact iff_of_true down (closed down)

def resistorNet (first second : Text) : NetlistData :=
  .ofRows [⟨"AB_K1_1".toList, first, "1".toList, "RESISTOR".toList⟩,
    ⟨"AB_K1_1".toList, second, "1".toList, "RESISTOR".toList⟩,
    ⟨"AB_K1_1".toList, "U1".toList, "5".toList, expanderDevice⟩,
    ⟨"AB_K1_1".toList, "K1".toList, "1".toList, "G3VM-41QR10".toList⟩]

/-- `R1` is a pull-down, and `R2` goes to the supply. -/
def twoResistors (first second : Text) : Input where
  netlistData := [resistorNet first second,
    .ofRows [⟨"GND".toList, "R1".toList, "2".toList, "RESISTOR".toList⟩],
    .ofRows [⟨"VCC".toList, "R2".toList, "2".toList, "RESISTOR".toList⟩]]
  relayList := [resistorNet first second]
  modelData := relayModels

theorem twoResistors_order :
    let behind := twoResistors "R1".toList "R2".toList
    let before := twoResistors "R2".toList "R1".toList
    Paired behind.netlistData ∧ Paired before.netlistData ∧
      (∀ net ∈ behind.relayList, Closed behind net) ∧
      (∀ net ∈ before.relayList, Closed before net) ∧
      convertNormalState behind {} = .ok normallyOpen ∧
      convertNormalState before {} = .ok normallyClosed := by
  decide +kernel

theorem convertNormalState_closed_iff_twoResistors :
    let input := twoResistors "R1".toList "R2".toList
    let net := resistorNet "R1".toList "R2".toList
    convertNormalState input {} = .ok (normalStateOf (Closed input net)) ↔
      ¬ Closed input net ∨
        ∃ identifier ∈ decidingResistor input net, PulledDown input identifier :=
  convertNormalState_closed_iff (twoResistors "R1".toList "R2".toList) {}
    (resistorNet "R1".toList "R2".toList) (by decide +kernel) (by decide +kernel)
    (by decide +kernel) rfl

end RelayDev.PullDown
