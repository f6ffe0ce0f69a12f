import RelayDev.Answering

/-! What the pool of the server can still hand out, and what each error answer costs. -/

namespace RelayDev.Server

open Cpp Text InputData Output Pool RelayConvert RelayFilter Transition

def Own (fault : Fault) : Prop := fault ≠ .thrown .sqlException

theorem own_undefined : Own .undefined := by simp [Own]

theorem raises_stoi (s : Text) : Raises Own (stoi s) := by
  intro fault failed
  rcases stoi_eq_error failed with rfl | rfl <;> simp [Own]

theorem raises_back (s : Text) : Raises Own (back s) := by
  unfold back
  split
  · exact raises_ok _
  · intro fault failed
    cases failed
    exact own_undefined

theorem raises_charFromEnd (s : Text) (k : Nat) : Raises Own (charFromEnd s k) := by
  unfold charFromEnd charAt
  split
  · split
    · exact raises_ok _
    · exact raises_index own_undefined _ _
  · intro fault failed
    cases failed
    exact own_undefined

theorem raises_substrFrom (s : Text) (pos : Nat) (count : Option Nat) :
    Raises Own (substrFrom s pos count) := by
  unfold substrFrom
  split
  · exact raises_ok _
  · intro fault failed
    cases failed
    simp [Own]

theorem raises_convertPin (input : Input) (relay : Relay) :
    Raises Own (convertPin input relay) := by
  refine (raises_index own_undefined _ _).bind fun net => ?_
  refine (raises_index own_undefined _ _).bind fun relayName => ?_
  refine (raises_back _).bind fun lastChar => .ite ?_ (raises_ok _)
  exact (raises_charFromEnd _ _).bind fun tens => raises_ok _

theorem raises_convertEnum (input : Input) (relay : Relay) :
    Raises Own (convertEnum input relay) := by
  refine (raises_index own_undefined _ _).bind fun net => ?_
  refine (raises_index own_undefined _ _).bind fun relayName => ?_
  refine (raises_back _).bind fun lastChar => .ite ?_ ?_
  · refine (raises_index own_undefined _ _).bind fun front => ?_
    exact (raises_substrFrom _ _ _).bind fun rest => raises_ok _
  · split
    · exact raises_ok _
    · split
      · exact raises_ok _
      · intro fault failed
        cases failed
        exact own_undefined

theorem raises_convertDevice (input : Input) (relay : Relay) :
    Raises Own (convertDevice input relay) := by
  refine (raises_index own_undefined _ _).bind fun net => ?_
  split
  · exact raises_ok _
  · refine raises_forIn (fun io s => ?_) none
    exact (raises_index own_undefined _ _).bind fun identifier => .ite (raises_ok _) (raises_ok _)

theorem raises_convertPort (input : Input) (relay : Relay) :
    Raises Own (convertPort input relay) := by
  refine (raises_index own_undefined _ _).bind fun net => ?_
  have number (portIdentifier : Text) : Raises Own (do
      return portNumber (← stoi portIdentifier)) := (raises_stoi _).bind fun number => raises_ok _
  cases expanderRow net with
  | none => exact number []
  | some i => exact (raises_index own_undefined _ _).bind number

theorem raises_convertDriveStrength (input : Input) (relay : Relay) :
    Raises Own (convertDriveStrength input relay) := by
  refine (raises_index own_undefined _ _).bind fun net => ?_
  exact raises_forIn (fun device s => .ite (raises_ok _) (raises_ok _)) configOut

theorem raises_pulldownNet (resistorIdentifier : Text) (net : NetlistData) (s : Pulldown) :
    Raises Own (pulldownNet resistorIdentifier net s) := by
  refine (raises_forIn (fun k s => ?_) s).bind fun s => .ite (raises_ok _) (raises_ok _)
  refine (raises_index own_undefined _ _).bind fun identifier => .ite ?_ (raises_ok _)
  refine (raises_index own_undefined _ _).bind fun name => .ite (raises_ok _) ?_
  exact .ite (raises_ok _) (raises_ok _)

theorem raises_normalRow (input : Input) (net : NetlistData) (i : Nat) (s : Normal) :
    Raises Own (normalRow input net i s) := by
  refine (raises_index own_undefined _ _).bind fun device => .ite ?_ ?_
  · refine (raises_index own_undefined _ _).bind fun resistorIdentifier => .ite ?_ (raises_ok _)
    exact (raises_forIn (raises_pulldownNet _) _).bind fun pulldown => raises_ok _
  · refine (raises_ok _).bind fun resistorIdentifier => .ite ?_ (raises_ok _)
    exact (raises_forIn (raises_pulldownNet _) _).bind fun pulldown => raises_ok _

theorem raises_convertNormalState (input : Input) (relay : Relay) :
    Raises Own (convertNormalState input relay) := by
  refine (raises_index own_undefined _ _).bind fun net => ?_
  exact (raises_forIn (raises_normalRow input net) _).bind fun s => raises_ok _

theorem raises_relayConvert (uninit : Uninit) (input : Input) (relay : Relay) :
    Raises Own (relayConvert uninit input relay) := by
  refine (raises_foldlM (fun relay currentRelay => ?_) _).bind fun relay => raises_ok _
  refine Raises.bind ?_ fun temp => raises_ok _
  refine (raises_convertPin _ _).bind fun pin => ?_
  refine (raises_convertEnum _ _).bind fun enumeration => ?_
  refine (raises_convertDevice _ _).bind fun deviceNumber => ?_
  refine (raises_convertPort _ _).bind fun portNumber => ?_
  refine (raises_convertNormalState _ _).bind fun normalState => ?_
  refine (raises_index own_undefined _ _).bind fun net => ?_
  refine (raises_index own_undefined _ _).bind fun relayName => .ite ?_ ?_
  · exact (raises_ok _).bind fun driveStrength => raises_ok _
  · exact (raises_convertDriveStrength _ _).bind fun driveStrength => raises_ok _

theorem raises_filterNetlistData (input : Input) : Raises Own (filterNetlistData input) := by
  refine (raises_foldlM (fun s net => raises_forIn (fun j s => ?_) s) _).bind fun s => raises_ok _
  have copy (s : RelayFilter.State) :
      Raises Own (copyNet net s.relayCounter (s.relayList ++ [.empty])) := by
    refine raises_foldlM (fun relayList m => ?_) _
    refine (raises_index own_undefined _ _).bind fun name => ?_
    refine (raises_index own_undefined _ _).bind fun identifier => ?_
    refine (raises_index own_undefined _ _).bind fun connection => ?_
    exact (raises_index own_undefined _ _).bind fun device => raises_update own_undefined _ _ _
  have test : Raises Own (relayConnection net j) := by
    refine (raises_index own_undefined _ _).bind fun device => .ite ?_ (raises_ok _)
    refine (raises_index own_undefined _ _).bind fun connection => .ite ?_ (raises_ok _)
    exact (raises_stoi _).bind fun number => raises_ok _
  refine test.bind fun relevant => .ite ?_ ?_
  · exact (copy s).bind fun relayList => .ite (raises_ok _) (raises_ok _)
  · exact (raises_ok _).bind fun relayList => .ite (raises_ok _) (raises_ok _)

theorem getInputData_raises {files : Files} {fuel : Nat} {billName netlistName : Text}
    {fault : Fault}
    (failed : getInputData files fuel { billName, netlistName } = some (.error fault)) :
    Own fault := by
  rcases andThen_eq_some.mp failed with ⟨_, bill, same⟩ | ⟨afterBill, billRead, failed⟩
  · obtain ⟨_, _, other, _⟩ := (Bill.getBillData_returns files _).only _ ⟨fuel, bill⟩
    cases other
  · obtain ⟨_, _, same, billData, rfl⟩ :=
      (Bill.getBillData_returns files _).only _ ⟨fuel, billRead⟩
    cases same
    have read := Netlist.getNetlistData_eq files
      { getRelayModels { billName, netlistName } with billData } rfl
    rw [read, andThen_ok] at failed
    rcases andThen_eq_some.mp failed with ⟨_, filter, same⟩ | ⟨filtered, finished, failed⟩
    · cases same
      exact raises_filterNetlistData _ _ (Option.some.inj filter)
    · have parallel := Netlist.fileNets_parallel files netlistName
      have selected := filterNetlistData_selects
        { getRelayModels { billName, netlistName } with
          billData, netlistData := Netlist.fileNets files netlistName }
        filtered parallel rfl (Option.some.inj finished)
      rw [selected] at failed
      rcases DeviceOrder.getDeviceOrder_outcome _ parallel rfl ⟨fuel, failed⟩ with
        ⟨_, same⟩ | ⟨_, _, _, _, same⟩
      · cases same
        exact own_undefined
      · cases same

theorem raises_conclude (world : World) (store : Store) (input : Input) (relay : Relay) :
    Raises Own (conclude world store input relay).1 := by
  intro fault failed
  rcases conclude_cases world store input relay with
    undefined | ⟨files, result, next, blocks, ended⟩
  · rw [undefined] at failed
    cases failed
    exact own_undefined
  · rw [ended] at failed
    obtain rfl := map_eq_error.mp failed
    cases blocks with
    | bill savedBills =>
        obtain ⟨bill, _, failed⟩ := List.mem_map.mp savedBills.error_mem
        exact billRow_eq_error failed
    | netlist _ savedNets =>
        rw [netlistRows_eq_error savedNets.error_mem]
        exact own_undefined
    | config _ _ savedConfigs =>
        rw [configRows_eq_error savedConfigs.error_mem]
        exact own_undefined

theorem raises_outcome {request : Request} {env : Environment} {fuel : Nat} {store next : Store}
    {result : Result Nat} (ended : request.outcome env fuel store = some (result, next)) :
    Raises Own result := by
  unfold Request.outcome at ended
  split at ended
  · rw [process_eq] at ended
    obtain ⟨read, called, same⟩ := Option.map_eq_some_iff.mp ended
    cases read with
    | error fault =>
        cases same
        intro other failed
        cases failed
        exact getInputData_raises called
    | ok input =>
        have converts := raises_relayConvert env.uninit input {}
        simp only [Except.bind] at same
        cases converted : relayConvert env.uninit input {} with
        | error fault =>
            rw [converted] at same
            cases same
            intro other failed
            cases failed
            exact converts fault converted
        | ok relay =>
            rw [converted] at same
            have whole : (conclude env.world store input relay).1 = result :=
              congrArg Prod.fst same
            rw [← whole]
            exact raises_conclude env.world store input relay
  · cases ended

def Response.ofDatabase (answer : Response) : Bool :=
  "Database error: ".toList.isPrefixOf answer.body

theorem failure_ofDatabase (what : Exception → Text) :
    (failure what .sqlException).ofDatabase = true := by
  simp [Response.ofDatabase, failure]

theorem failure_own (what : Exception → Text) {exception : Exception}
    (own : Own (.thrown exception)) : (failure what exception).ofDatabase = false := by
  cases exception with
  | sqlException => exact absurd rfl own
  | invalidArgument => rfl
  | outOfRange => rfl

namespace State

/-- How many requests that ask for a connection have been answered with an error of the
server. -/
def errors (s : State) : Nat :=
  s.answers.countP fun (request, answer) =>
    decide request.Named && decide (answer.status = .internalServerError)

def databaseErrors (s : State) : Nat :=
  s.answers.countP fun (request, answer) =>
    decide request.Named && decide (answer.status = .internalServerError) && answer.ofDatabase

theorem errors_answer (s : State) (request : Request) (response : Response) :
    (s.answer request response).errors = s.errors +
      if request.Named ∧ response.status = .internalServerError then 1 else 0 := by
  simp [errors, answer, List.countP_cons]

theorem databaseErrors_answer (s : State) (request : Request) (response : Response) :
    (s.answer request response).databaseErrors = s.databaseErrors +
      if (request.Named ∧ response.status = .internalServerError) ∧ response.ofDatabase = true
        then 1 else 0 := by
  simp [databaseErrors, answer, List.countP_cons]

/-- Where the errors come from: the database fails in `getConnection` only, and counts one
connection there that nobody gets; each other error has closed the connection it had. -/
structure Costs (s : State) : Prop where
  counted : s.clients.pool.activeConnections ≤ s.clients.pool.poolSize
  connects : s.databaseErrors + s.clients.onDemand = s.clients.pool.activeConnections
  drops : s.databaseErrors + s.closed.length = s.errors

theorem init_costs (poolSize : Nat) (store : Store) : (init poolSize store).Costs where
  counted := Nat.zero_le _
  connects := rfl
  drops := rfl

theorem Acquired.costs {s next : State} {request : Request} {connects : Bool}
    {what : Exception → Text} (costs : s.Costs) (named : request.Named)
    (acquired : s.Acquired request connects what next) : next.Costs := by
  obtain ⟨counted, connected, drops⟩ := costs
  cases acquired with
  | idle conn rest stocked => exact ⟨counted, connected, drops⟩
  | created onDemand _ =>
      refine ⟨onDemand.2, ?_, drops⟩
      change s.databaseErrors + (s.clients.onDemand + 1) = _
      rw [← Nat.add_assoc, connected]
  | threw onDemand failed =>
      have error := And.intro named (failure_internalServerError what .sqlException)
      have database := failure_ofDatabase what
      refine ⟨onDemand.2, ?_, ?_⟩
      · rw [databaseErrors_answer, if_pos ⟨error, database⟩]
        change s.databaseErrors + 1 + s.clients.onDemand = s.clients.pool.activeConnections + 1
        omega
      · rw [databaseErrors_answer, errors_answer, if_pos ⟨error, database⟩, if_pos error]
        change s.databaseErrors + 1 + s.closed.length = s.errors + 1
        omega
  | waits empty full => exact ⟨counted, connected, drops⟩

theorem giveBack_pool {s next : System Request} {request : Request} {conn : Nat}
    {notified : Option Request} (gave : s.giveBack request conn notified = some next) :
    next.pool = s.pool.releaseConnection conn ∧ next.onDemand = s.onDemand ∧
      next.lent = s.lent.erase (request, conn) := by
  rcases giveBack_cases gave with ⟨_, rfl⟩ | ⟨_, _, rfl⟩
  · exact ⟨rfl, rfl, rfl⟩
  · exact ⟨rfl, rfl, rfl⟩

theorem named_of_outcome {request : Request} {env : Environment} {fuel : Nat}
    {store : Store} {ended : Result Nat × Store}
    (outcome : request.outcome env fuel store = some ended) : request.Named := by
  unfold Request.outcome at outcome
  split at outcome
  · rename_i billName netlistName body
    exact ⟨billName, netlistName, body⟩
  · cases outcome

theorem step_costs (s : State) (e : Event) (next : State) (both : s.Orderly ∧ s.Costs)
    (possible : s.step e = some next) : next.Orderly ∧ next.Costs := by
  obtain ⟨orderly, costs⟩ := both
  refine ⟨step_orderly s e next orderly possible, ?_⟩
  cases stepped possible with
  | refused request connects what response refusal =>
      obtain ⟨counted, connected, drops⟩ := costs
      have unnamed := Request.not_named_of_refusal refusal
      have errors : (s.answer request response).errors = s.errors := by
        simp [errors_answer, unnamed]
      have databaseErrors : (s.answer request response).databaseErrors = s.databaseErrors := by
        simp [databaseErrors_answer, unnamed]
      refine ⟨counted, ?_, ?_⟩
      · rw [databaseErrors]
        exact connected
      · rw [databaseErrors, errors]
        exact drops
  | arrived request connects what fresh named =>
      exact (acquired s request connects what).costs costs named
  | retried request connects what woken =>
      have named := orderly.named request (List.mem_append_right _ woken)
      have before : { s with clients := { s.clients with
          woken := s.clients.woken.erase request } }.Costs :=
        ⟨costs.counted, costs.connects, costs.drops⟩
      exact (acquired _ request connects what).costs before named
  | woke request blocked => exact ⟨costs.counted, costs.connects, costs.drops⟩
  | returned request conn env fuel notified clients store relayAmount held outcome gave =>
      obtain ⟨counted, connected, drops⟩ := costs
      obtain ⟨pool, onDemand, _⟩ := giveBack_pool gave
      refine ⟨?_, ?_, ?_⟩
      · change clients.pool.activeConnections ≤ clients.pool.poolSize
        rw [pool]
        exact counted
      · rw [databaseErrors_answer, if_neg (by simp)]
        change s.databaseErrors + clients.onDemand = clients.pool.activeConnections
        rw [pool, onDemand]
        exact connected
      · rw [databaseErrors_answer, errors_answer, if_neg (by simp), if_neg (by simp)]
        exact drops
  | failed request conn env fuel notified store exception held outcome =>
      obtain ⟨counted, connected, drops⟩ := costs
      have error := And.intro (named_of_outcome outcome)
        (failure_internalServerError env.what exception)
      have own : Own (.thrown exception) := raises_outcome outcome _ rfl
      have other : ¬ ((request.Named ∧ (failure env.what exception).status =
          .internalServerError) ∧ (failure env.what exception).ofDatabase = true) := by
        simp [failure_own env.what own]
      refine ⟨counted, ?_, ?_⟩
      · rw [databaseErrors_answer, if_neg other]
        exact connected
      · rw [databaseErrors_answer, errors_answer, if_neg other, if_pos error]
        change s.databaseErrors + (s.closed.length + 1) = s.errors + 1
        rw [← drops]
        rfl

theorem run_costs {poolSize : Nat} {store : Store} {s : State} {es : List Event}
    (ran : run step (init poolSize store) es = some s) : s.Costs :=
  (run_invariant step_costs ⟨init_orderly poolSize store, init_costs poolSize store⟩ ran).2

/-- The connections that a caller can still get: the idle ones, those that are lent, and
those that may be created. -/
def capacity (s : State) : Nat :=
  s.clients.pool.pool.length + s.clients.lent.length +
    (s.clients.pool.poolSize - s.clients.pool.activeConnections)

theorem capacity_errors {poolSize : Nat} {s : State} (accounts : s.Accounts poolSize)
    (costs : s.Costs) : s.capacity + s.errors = 2 * poolSize := by
  have size := accounts.size
  have count : s.clients.pool.pool.length + s.clients.lent.length + s.closed.length =
      poolSize + s.clients.onDemand := by
    have length := accounts.partition.length_eq
    simpa [System.connections, System.created, size, Nat.add_assoc] using length
  have counted := costs.counted
  have connects := costs.connects
  have drops := costs.drops
  unfold capacity
  omega

end State

end RelayDev.Server
