import RelayDev.Saving
import RelayDev.Server

/-! What the answer to a request says about the rows it left in the database. -/

namespace RelayDev.Server

open Cpp Text InputData Output RelayConvert

/-- The end of `handleQuery`, on any `Input` and `Relay`. -/
def conclude (world : World) (store : Store) (input : Input) (relay : Relay) :
    Result Nat × Store :=
  let output : Effect Nat := do
    outputRelayData world "Configuration.csv".toList relay
    saveData world input relay
    return relay.relayAmount
  let (result, session) := output.run.run ⟨store, 0⟩
  (result, session.store)

def respond (what : Exception → Text) : Result Nat → Option Response
  | .ok relayAmount => some ⟨.ok, "relayAmount:".toList ++ numeral relayAmount⟩
  | .error (.thrown exception) => some (failure what exception)
  | .error .undefined => none

theorem process_eq (env : Environment) (fuel : Nat) (store : Store) (billName netlistName : Text) :
    process env fuel store billName netlistName =
      (getInputData env.files fuel { billName, netlistName }).map fun read =>
        match read.bind fun input => (relayConvert env.uninit input {}).map (input, ·) with
        | .ok (input, relay) => conclude env.world store input relay
        | .error fault => (.error fault, store) := by
  rw [process]
  rcases getInputData env.files fuel { billName, netlistName } with _ | fault | input
  · rfl
  · rfl
  · simp only [Option.map_some, Except.bind]
    cases converted : relayConvert env.uninit input {} with
    | error fault => rfl
    | ok relay => rfl

theorem finish_responds {s next : State} {request : Request} {conn : Nat} {env : Environment}
    {fuel : Nat} {notified : Option Request}
    (finished : s.finish request conn env fuel notified = some next) :
    ∃ result answer, request.outcome env fuel s.store = some (result, next.store) ∧
      respond env.what result = some answer ∧ next.answers = (request, answer) :: s.answers := by
  unfold State.finish at finished
  split at finished
  · rename_i returned
    obtain ⟨clients, _, rfl⟩ := Option.map_eq_some_iff.mp finished
    exact ⟨_, _, returned, rfl, rfl⟩
  · rename_i failed
    cases finished
    exact ⟨_, _, failed, rfl, rfl⟩
  · cases finished

def AllInserted (input : Input) (relay : Relay) (before after : Store) : Prop :=
  ∃ bills nets configs : List (List Value), billRows input = bills.map .ok ∧
    netlistRows input = nets.map .ok ∧ configRows relay = configs.map .ok ∧
    after.rows = before.rows ++ bills.map (.inputBOM, ·) ++ nets.map (.inputNetlist, ·) ++
      configs.map (.outputConfigFile, ·)

/-- A success is answered only with all rows stored, and an error only with none. -/
def Truthful (input : Input) (relay : Relay) (before : Store) (answer : Response)
    (after : Store) : Prop :=
  (answer.status = .ok → answer.body = "relayAmount:".toList ++ numeral relay.relayAmount ∧
      AllInserted input relay before after) ∧
    (answer.status ≠ .ok → after.rows = before.rows)

def Readable (bill : BillData) : Prop :=
  (∃ item, stoi bill.item = .ok item) ∧ ∃ quantity, stoi bill.quantity = .ok quantity

/-- Either the first part cannot be read, behind a statement that can be prepared, or all
can and the database refuses nothing. -/
def SavesWhole (world : World) (input : Input) (relay : Relay) : Prop :=
  (∃ bill rest, input.billData = bill :: rest ∧ ¬ Readable bill ∧
      world.databaseThrows 0 = false) ∨
    (∀ bill ∈ input.billData, Readable bill) ∧
      let bills := input.billData.length + 1
      let nets := (input.netlistData.flatMap (·.name)).length + 1
      Quiet world 0 input.billData.length ∧
        Quiet world bills (input.netlistData.flatMap (·.name)).length ∧
        Quiet world (bills + nets) relay.relayAmount

theorem readable_of_ok {bill : BillData} {values : List Value} (read : billRow bill = .ok values) :
    Readable bill := by
  obtain ⟨item, first, read⟩ := bind_eq_ok.mp read
  obtain ⟨quantity, second, _⟩ := bind_eq_ok.mp read
  exact ⟨⟨item, first⟩, quantity, second⟩

theorem not_readable_of_error {bill : BillData} {fault : Fault}
    (failed : billRow bill = .error fault) (defined : fault ≠ .undefined) : ¬ Readable bill := by
  rintro ⟨⟨item, first⟩, quantity, second⟩
  rw [billRow, first, ok_bind, second, ok_bind] at failed
  rcases bind_eq_error.mp failed with identifier | ⟨_, _, other⟩
  · exact defined (index_eq_error identifier)
  · cases other

theorem out_outputRelayData (world : World) (outputName : Text) (relay : Relay) (s : Session) :
    (outputRelayData world outputName relay).out s = (.error .undefined, s) ∨
      ∃ files, (outputRelayData world outputName relay).out s =
        (.ok (), ⟨{ s.store with files }, s.calls⟩) := by
  rw [outputRelayData]
  by_cases opened : world.opens outputName = true
  · rw [if_pos opened]
    cases read : (List.range relay.relayAmount).mapM (index relay.relayData) with
    | error fault =>
        obtain ⟨i, _, outside⟩ := mapM_eq_error read
        obtain rfl := index_eq_error outside
        exact .inl (out_bind_error rfl _)
    | ok records => exact .inr ⟨_, rfl⟩
  · rw [if_neg opened]
    exact .inr ⟨s.store.files, rfl⟩

theorem conclude_cases (world : World) (store : Store) (input : Input) (relay : Relay) :
    (conclude world store input relay).1 = .error .undefined ∨
      ∃ files result next,
        SavedData world input relay ⟨{ store with files }, 0⟩ (result, next) ∧
          conclude world store input relay =
            (result.map fun _ => relay.relayAmount, next.store) := by
  have run : conclude world store input relay =
      let ended := (do
        outputRelayData world "Configuration.csv".toList relay
        saveData world input relay
        return relay.relayAmount : Effect Nat).out ⟨store, 0⟩
      (ended.1, ended.2.store) := rfl
  rw [run]
  rcases out_outputRelayData world "Configuration.csv".toList relay ⟨store, 0⟩ with
    failed | ⟨files, returned⟩
  · rw [out_bind_error failed]
    exact .inl rfl
  · rw [out_bind_ok returned]
    have blocks := savedData world input relay ⟨{ store with files }, 0⟩
    rcases ended : (saveData world input relay).out ⟨{ store with files }, 0⟩ with
      ⟨fault | _, next⟩
    · rw [ended] at blocks
      rw [out_bind_error ended]
      exact .inr ⟨files, _, next, blocks, rfl⟩
    · rw [ended] at blocks
      rw [out_bind_ok ended]
      exact .inr ⟨files, _, next, blocks, rfl⟩

theorem savesWhole_iff_of_error {world : World} {input : Input} {relay : Relay}
    {values : List (List Value)} {fault : Fault} {rest : List (Result (List Value))}
    (rows : billRows input = values.map .ok ++ .error fault :: rest) (defined : fault ≠ .undefined)
    (silent : Silent world 0 (values.length + 1)) :
    SavesWhole world input relay ↔ values = [] := by
  constructor
  · rintro (⟨bill, bills, same, unreadable, _⟩ | ⟨readable, _⟩)
    · rw [billRows, same, List.map_cons] at rows
      cases values with
      | nil => rfl
      | cons value values =>
          exact absurd (readable_of_ok (List.cons.inj rows).1) unreadable
    · have failed : .error fault ∈ billRows input := by simp [rows]
      obtain ⟨bill, member, failed⟩ := List.mem_map.mp failed
      exact absurd (readable bill member) (not_readable_of_error failed defined)
  · rintro rfl
    obtain ⟨bill, bills, same, failed, _⟩ := List.map_eq_cons_iff.mp rows
    exact .inl ⟨bill, bills, same, not_readable_of_error failed defined, silent 0 (Nat.succ_pos _)⟩

section Success

variable {world : World} {input : Input} {relay : Relay} {s : Session} {more most : Nat}
  {bills nets configs : List (List Value)}
  (one : Ended world (billRows input) s.calls bills more)
  (two : Ended world (netlistRows input) (s.calls + bills.length + more) nets most)

include one two

theorem allInserted_iff {calls least : Nat} {before after : Store}
    (three : Ended world (configRows relay) calls configs least)
    (left : after.rows = before.rows ++ bills.map (.inputBOM, ·) ++ nets.map (.inputNetlist, ·) ++
      configs.map (.outputConfigFile, ·)) :
    AllInserted input relay before after ↔
      billRows input = bills.map .ok ∧ netlistRows input = nets.map .ok ∧
        configRows relay = configs.map .ok := by
  constructor
  · rintro ⟨bills', nets', configs', billsOk, netsOk, configsOk, all⟩
    have count := congrArg List.length (left.symm.trans all)
    have billCount := congrArg List.length billsOk
    have netCount := congrArg List.length netsOk
    have configCount := congrArg List.length configsOk
    have billMost := one.length_le
    have netMost := two.length_le
    have configMost := three.length_le
    simp only [List.length_append, List.length_map] at count billCount netCount configCount
    exact ⟨one.whole_of_length (by omega), two.whole_of_length (by omega),
      three.whole_of_length (by omega)⟩
  · rintro ⟨billsOk, netsOk, configsOk⟩
    exact ⟨bills, nets, configs, billsOk, netsOk, configsOk, left⟩

theorem savesWhole_iff_of_ok {least : Nat} (start : s.calls = 0)
    (three : Ended world (configRows relay)
      (s.calls + bills.length + more + nets.length + most) configs least) :
    SavesWhole world input relay ↔
      billRows input = bills.map .ok ∧ netlistRows input = nets.map .ok ∧
        configRows relay = configs.map .ok := by
  rw [start] at one two three
  have quietBills := one.whole_iff
  have quietNets := two.whole_iff
  have quietConfigs := three.whole_iff
  rw [billRows_length] at quietBills
  rw [netlistRows_length] at quietNets
  rw [configRows_length] at quietConfigs
  have counts (billsOk : billRows input = bills.map .ok) :
      0 + bills.length + more = input.billData.length + 1 := by
    have same := one.calls_eq billsOk
    rw [billRows_length] at same
    omega
  have netCounts (netsOk : netlistRows input = nets.map .ok) :
      nets.length + most = (input.netlistData.flatMap (·.name)).length + 1 := by
    have same := two.calls_eq netsOk
    rw [netlistRows_length] at same
    omega
  constructor
  · rintro (⟨bill, rest, same, unreadable, prepared⟩ | ⟨_, billsQuiet, netsQuiet, configsQuiet⟩)
    · obtain ⟨value, read⟩ := one.first_ok (by rw [billRows, same, List.map_cons]) prepared
      exact absurd (readable_of_ok read) unreadable
    · have billsOk := quietBills.mpr billsQuiet
      rw [counts billsOk] at quietNets
      have netsOk := quietNets.mpr netsQuiet
      rw [counts billsOk, Nat.add_assoc, netCounts netsOk] at quietConfigs
      exact ⟨billsOk, netsOk, quietConfigs.mpr configsQuiet⟩
  · rintro ⟨billsOk, netsOk, configsOk⟩
    refine .inr ⟨?_, quietBills.mp billsOk, ?_, ?_⟩
    · intro bill member
      have read : billRow bill ∈ billRows input := List.mem_map_of_mem member
      rw [billsOk] at read
      obtain ⟨values, _, same⟩ := List.mem_map.mp read
      exact readable_of_ok same.symm
    · rw [← counts billsOk]
      exact quietNets.mp netsOk
    · rw [← counts billsOk, ← netCounts netsOk, ← Nat.add_assoc]
      exact quietConfigs.mp configsOk

end Success

theorem truthful_iff_of_ok {world : World} {input : Input} {relay : Relay} {store : Store}
    {s first second next : Session} {answer : Response} (start : s.calls = 0)
    (same : s.store.rows = store.rows)
    (savedBills : Saved world .inputBOM s (billRows input) (.ok (), first))
    (savedNets : Saved world .inputNetlist first (netlistRows input) (.ok (), second))
    (savedConfigs : Saved world .outputConfigFile second (configRows relay) (.ok (), next))
    (answered : answer = ⟨.ok, "relayAmount:".toList ++ numeral relay.relayAmount⟩) :
    Truthful input relay store answer next.store ↔ SavesWhole world input relay := by
  obtain ⟨bills, more, rfl, one⟩ := savedBills.of_ok
  obtain ⟨nets, most, rfl, two⟩ := savedNets.of_ok
  obtain ⟨configs, least, rfl, three⟩ := savedConfigs.of_ok
  simp only [insert_calls] at two three
  have left : (((s.insert .inputBOM bills more).insert .inputNetlist nets most).insert
      .outputConfigFile configs least).store.rows =
        store.rows ++ bills.map (.inputBOM, ·) ++ nets.map (.inputNetlist, ·) ++
          configs.map (.outputConfigFile, ·) := by
    simp only [insert_rows, same]
  rw [savesWhole_iff_of_ok one two start three, ← allInserted_iff one two three left, answered]
  constructor
  · intro truthful
    exact (truthful.1 rfl).2
  · intro inserted
    exact ⟨fun _ => ⟨rfl, inserted⟩, fun failed => absurd rfl failed⟩

theorem truthful_iff_of_error {world : World} {input : Input} {relay : Relay} {store : Store}
    {s next : Session} {fault : Fault} {answer : Response} (start : s.calls = 0)
    (same : s.store.rows = store.rows) (defined : fault ≠ .undefined)
    (savedBills : Saved world .inputBOM s (billRows input) (.error fault, next))
    (answered : answer.status ≠ .ok) :
    Truthful input relay store answer next.store ↔ SavesWhole world input relay := by
  obtain ⟨values, rest, rows, silent, rfl⟩ := savedBills.of_error
  rw [start] at silent
  rw [savesWhole_iff_of_error rows defined silent]
  have left : (s.insert .inputBOM values 1).store.rows = store.rows ↔ values = [] := by
    simp [same]
  rw [← left]
  constructor
  · intro truthful
    exact truthful.2 answered
  · intro unchanged
    exact ⟨fun succeeded => absurd succeeded answered, fun _ => unchanged⟩

theorem failure_status (what : Exception → Text) (exception : Exception) :
    (failure what exception).status ≠ .ok := by
  cases exception with
  | sqlException => simp [failure]
  | invalidArgument => simp [failure]
  | outOfRange => simp [failure]

/-- The answer to a request tells the truth about the rows it has stored exactly if the
request stores all of them, or fails on the first part of the bill. -/
theorem answer_truthful_iff (env : Environment) (store : Store) (input : Input) (relay : Relay)
    (answer : Response)
    (answered : respond env.what (conclude env.world store input relay).1 = some answer) :
    Truthful input relay store answer (conclude env.world store input relay).2 ↔
      SavesWhole env.world input relay := by
  rcases conclude_cases env.world store input relay with
    undefined | ⟨files, result, next, blocks, ended⟩
  · rw [undefined] at answered
    cases answered
  · rw [ended] at answered ⊢
    cases blocks with
    | bill savedBills =>
        rename_i fault
        cases fault with
        | undefined => cases answered
        | thrown exception =>
            cases answered
            exact truthful_iff_of_error rfl rfl (by simp) savedBills (failure_status _ _)
    | netlist _ savedNets =>
        have undefined := netlistRows_eq_error savedNets.error_mem
        subst undefined
        cases answered
    | config savedBills savedNets savedConfigs =>
        cases result with
        | error fault =>
            have undefined := configRows_eq_error savedConfigs.error_mem
            subst undefined
            cases answered
        | ok _ =>
            cases answered
            exact truthful_iff_of_ok rfl rfl savedBills savedNets savedConfigs rfl

def sampleRequest (bill : Text) (databaseThrows : Nat → Bool) : Environment where
  files := fun path => if path = "bom.csv".toList then some bill else singleBoard path
  world := ⟨databaseThrows, fun _ => true⟩
  uninit := ⟨0, fun _ => 0⟩
  what := fun _ => []

def sampleAnswer (env : Environment) : Option (Option Response × List Table) :=
  (process env 5 {} "bom.csv".toList "netlist.txt".toList).map fun (result, store) =>
    (respond env.what result, store.rows.map Prod.fst)

/-- The row of the only part is refused, and the answer is a success; the quantity of the
second part is no number, and the answer is an error that leaves the first. -/
theorem sampleAnswer_untruthful :
    sampleAnswer (sampleRequest "1,2,TI,MAX6957,U1,EXPANDER,N,ACTIVE,85".toList (· == 1)) =
        some (some ⟨.ok, "relayAmount:1".toList⟩,
          [.inputNetlist, .inputNetlist, .inputNetlist, .outputConfigFile]) ∧
      sampleAnswer (sampleRequest "1,2,TI,MAX6957,U1,EXPANDER\n2,x,TI,MAX6957,U2,EXPANDER".toList
        fun _ => false) = some (some ⟨.internalServerError, "Error: ".toList⟩, [.inputBOM]) := by
  decide +kernel

def samplePart : Input where
  billData := [{ item := "1".toList, quantity := "2".toList, identifier := ["U1".toList] }]

theorem answer_truthful_iff_samplePart :
    Truthful samplePart {} {} ⟨.ok, "relayAmount:0".toList⟩
        (conclude (sampleRequest [] (· == 1)).world {} samplePart {}).2 ↔
      SavesWhole (sampleRequest [] (· == 1)).world samplePart {} :=
  answer_truthful_iff (sampleRequest [] (· == 1)) {} samplePart {} ⟨.ok, "relayAmount:0".toList⟩
    (by decide)

end RelayDev.Server
