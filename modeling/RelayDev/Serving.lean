import RelayDev.BillRecords
import RelayDev.Convertible
import RelayDev.Progress
import RelayDev.Records

/-! Which boards the server can serve: when a request with a connection succeeds. -/

namespace RelayDev.Server

open Cpp Text InputData Output RelayConvert RelayFilter DeviceOrder Bill Netlist Columns Transition

/-- Each line of a part ends, and gives a row that can be bound. -/
def BillBinds (files : Files) (billName : Text) : Prop :=
  ∀ line ∈ files.lines billName, PartLine line = true →
    ∃ bill values, ReadAs line bill ∧ billRow bill = .ok values

theorem BillBinds.closes {files : Files} {billName : Text} (binds : BillBinds files billName) :
    ∀ line ∈ files.lines billName, LineCloses line := by
  intro line member part
  obtain ⟨bill, _, read, _⟩ := binds line member part
  exact ((readPart_returns _).only _ read).1

theorem binds_iff {line : Text} {bill : BillData} (read : ReadAs line bill) :
    (∃ bill values, ReadAs line bill ∧ billRow bill = .ok values) ↔ (billRow bill).isOk = true := by
  constructor
  · rintro ⟨other, values, read', row⟩
    obtain rfl : bill = other := Except.ok.inj ((steady_readPart _).unique read read')
    rw [row]
    rfl
  · intro ok
    cases row : billRow bill with
    | error fault =>
        rw [row] at ok
        cases ok
    | ok values => exact ⟨bill, values, read, row⟩

theorem billBinds_iff {files : Files} {input out : Input} (start : input.billData = [])
    (read : Ends (getBillData files · input) (.ok out)) :
    BillBinds files input.billName ↔ ∀ row ∈ billRows out, row.isOk = true := by
  have records := getBillData_records start read
  have parts : BillBinds files input.billName ↔
      ∀ line ∈ (files.lines input.billName).filter PartLine,
        ∃ bill values, ReadAs line bill ∧ billRow bill = .ok values := by
    simp only [BillBinds, List.mem_filter, and_imp]
  rw [parts, billRows, List.forall_mem_map]
  generalize (files.lines input.billName).filter PartLine = lines at records ⊢
  generalize out.billData = stored at records ⊢
  induction records with
  | nil => simp
  | cons taken rest ih =>
      rw [List.forall_mem_cons, List.forall_mem_cons, binds_iff taken]
      exact and_congr_right' ih

theorem netlistRows_isOk {input : Input} (columns : ∀ net ∈ input.netlistData, net.Parallel) :
    ∀ row ∈ netlistRows input, row.isOk = true := by
  intro row member
  obtain ⟨net, listed, inside⟩ := List.mem_flatMap.mp member
  obtain ⟨i, bound, rfl⟩ := List.mem_map.mp inside
  obtain ⟨_, name, identifier, connection, device⟩ :=
    parallel_indexed (columns net listed) i (.inl (List.mem_range.mp bound))
  rw [netlistRow, name, identifier, connection, device]
  rfl

theorem configRows_isOk {relay : Relay} (count : relay.relayData.length = relay.relayAmount) :
    ∀ row ∈ configRows relay, row.isOk = true := by
  rw [configRows_eq count]
  intro row member
  obtain ⟨values, _, rfl⟩ := List.mem_map.mp member
  rfl

theorem conclude_ok_iff {world : World} (calm : ∀ k, world.databaseThrows k = false)
    (store : Store) {input : Input} {relay : Relay}
    (count : relay.relayData.length = relay.relayAmount)
    (columns : ∀ net ∈ input.netlistData, net.Parallel) {relayAmount : Nat} :
    (∃ next, conclude world store input relay = (.ok relayAmount, next)) ↔
      (∀ row ∈ billRows input, row.isOk = true) ∧ relayAmount = relay.relayAmount := by
  constructor
  · rintro ⟨next, concluded⟩
    rcases conclude_cases world store input relay with
      undefined | ⟨files, result, last, blocks, ended⟩
    · rw [concluded] at undefined
      cases undefined
    · rw [concluded] at ended
      obtain ⟨_, rfl, amount⟩ := map_eq_ok.mp (congrArg Prod.fst ended).symm
      cases blocks with
      | config bills _ _ =>
          obtain ⟨values, more, _, whole⟩ := bills.of_ok
          refine ⟨?_, amount.symm⟩
          rw [whole.whole_iff.mpr (quiet_of_calm calm _ _)]
          intro row member
          obtain ⟨_, _, rfl⟩ := List.mem_map.mp member
          rfl
  · rintro ⟨bills, rfl⟩
    exact conclude_returns world store count bills (netlistRows_isOk columns)
      (configRows_isOk count)

def filled (bill : Input) (nets : List NetlistData) (expanders : List Text) : Input :=
  { bill with
    netlistData := nets
    relayList := nets.filter relayNet
    ioData := chainData expanders }

theorem getInputData_ok_iff {files : Files} {billName netlistName : Text} {read : Input} :
    let nets := fileNets files netlistName
    Ends (getInputData files · { billName, netlistName }) (.ok read) ↔
      ∃ bill, Ends (getBillData files · (getRelayModels { billName, netlistName })) (.ok bill) ∧
        (¬ ∃ net ∈ nets, Stops net.rows) ∧ ∃ head moved, firstLink nets = some head ∧
          Chase.Walk (links nets) head moved ∧ read = filled bill nets (head :: moved) := by
  intro nets
  have split := @ends_andThen_ok _ _
    (getBillData files · (getRelayModels { billName, netlistName }))
    (fun bill fuel => readNetlist files fuel bill) (steady_getBillData files _)
    (steady_readNetlist files) read
  refine split.trans (exists_congr fun bill => and_congr_right fun returned => ?_)
  obtain ⟨_, _, stored, billData, rfl⟩ := (getBillData_returns files _).only _ returned
  cases stored
  rcases readNetlist_cases files { getRelayModels { billName, netlistName } with billData } rfl rfl
    with ⟨⟨exception, throws⟩, stops⟩ | ⟨order, reads⟩
  · rw [throws, ends_const]
    exact iff_of_false (by simp [throwing]) fun holds => holds.1 stops
  · rw [order]
    constructor
    · intro ordered
      rcases getDeviceOrder_outcome _ (fileNets_parallel files netlistName) rfl ordered with
        ⟨_, failed⟩ | ⟨head, moved, first, walk, same⟩
      · cases failed
      · exact ⟨reads, head, moved, first, walk, Except.ok.inj same⟩
    · rintro ⟨_, head, moved, first, walk, rfl⟩
      exact getDeviceOrder_of_walk { getRelayModels { billName, netlistName } with
        billData, netlistData := nets, relayList := nets.filter relayNet }
        (fileNets_parallel files netlistName) rfl first walk

/-- What the two files must hold for a request that names them to succeed. -/
structure Serves (files : Files) (billName netlistName : Text) : Prop where
  bill : BillBinds files billName
  filter : ¬ ∃ net ∈ fileNets files netlistName, Stops net.rows
  chain : ChainEnds (fileNets files netlistName)
  relays : ∀ net ∈ fileNets files netlistName, relayNet net = true → Convertible net

theorem process_ok_iff {env : Environment} {fuel : Nat} {store left : Store}
    {billName netlistName : Text} {relayAmount : Nat} :
    process env fuel store billName netlistName = some (.ok relayAmount, left) ↔
      ∃ input relay, getInputData env.files fuel { billName, netlistName } = some (.ok input) ∧
        relayConvert env.uninit input {} = .ok relay ∧
          conclude env.world store input relay = (.ok relayAmount, left) := by
  rw [process_eq]
  rcases getInputData env.files fuel { billName, netlistName } with _ | fault | input
  · simp
  · simp [Except.bind]
  · cases converted : relayConvert env.uninit input {} <;>
      simp [Except.bind, Except.map, converted]

section Calm

variable {env : Environment} (calm : ∀ k, env.world.databaseThrows k = false) {fuel : Nat}
  {store left : Store} {billName netlistName : Text}

include calm

theorem serves_of_process {relayAmount : Nat}
    (served : process env fuel store billName netlistName = some (.ok relayAmount, left)) :
    Serves env.files billName netlistName ∧
      relayAmount = ((fileNets env.files netlistName).filter relayNet).length := by
  have parallel := fileNets_parallel env.files netlistName
  obtain ⟨input, relay, called, converted, concluded⟩ := process_ok_iff.mp served
  obtain ⟨bill, returned, reads, head, moved, first, walk, rfl⟩ :=
    getInputData_ok_iff.mp ⟨fuel, called⟩
  obtain ⟨length, amount⟩ := relayConvert_length converted
  obtain ⟨bills, rfl⟩ := (@conclude_ok_iff _ calm store (filled bill _ _) _
    (length.trans amount.symm) parallel _).mp ⟨left, concluded⟩
  have copied : ∀ net ∈ (fileNets env.files netlistName).filter relayNet, net.Parallel :=
    fun net member => parallel net (List.mem_of_mem_filter member)
  have convertible := (relayConvert_ok_iff copied parallel).mp ⟨relay, converted⟩
  refine ⟨⟨?_, reads, ⟨head, moved, first, walk⟩, ?_⟩, amount⟩
  · exact (billBinds_iff rfl returned).mpr bills
  · exact fun net member selected => convertible net (List.mem_filter.mpr ⟨member, selected⟩)

theorem process_of_serves (store : Store) (serves : Serves env.files billName netlistName) :
    ∃ fuel left, process env fuel store billName netlistName =
      some (.ok ((fileNets env.files netlistName).filter relayNet).length, left) := by
  have parallel := fileNets_parallel env.files netlistName
  obtain ⟨binds, reads, ⟨head, moved, first, walk⟩, relays⟩ := serves
  obtain ⟨bill, returned, _⟩ := (getBillData_returns env.files
    (getRelayModels { billName, netlistName })).returns binds.closes
  obtain ⟨fuel, called⟩ := getInputData_ok_iff.mpr
    ⟨bill, returned, reads, head, moved, first, walk, rfl⟩
  have copied : ∀ net ∈ (fileNets env.files netlistName).filter relayNet, net.Parallel :=
    fun net member => parallel net (List.mem_of_mem_filter member)
  obtain ⟨relay, converted⟩ := (@relayConvert_ok_iff env.uninit
    (filled bill (fileNets env.files netlistName) (head :: moved)) copied parallel).mpr
    fun net member => relays net (List.mem_of_mem_filter member) (List.of_mem_filter member)
  obtain ⟨length, amount⟩ := relayConvert_length converted
  obtain ⟨left, concluded⟩ := (@conclude_ok_iff _ calm store (filled bill _ _) _
    (length.trans amount.symm) parallel _).mpr ⟨(billBinds_iff rfl returned).mp binds, amount.symm⟩
  exact ⟨fuel, left, process_ok_iff.mpr ⟨_, relay, called, converted, concluded⟩⟩

end Calm

theorem process_unique {env : Environment} {fuel more : Nat} {store : Store}
    {billName netlistName : Text} {one two : Result Nat × Store}
    (first : process env fuel store billName netlistName = some one)
    (second : process env more store billName netlistName = some two) : one = two := by
  rw [process_eq] at first second
  obtain ⟨read, called, rfl⟩ := Option.map_eq_some_iff.mp first
  obtain ⟨read', called', rfl⟩ := Option.map_eq_some_iff.mp second
  rw [(steady_getInputData env.files _).unique ⟨fuel, called⟩ ⟨more, called'⟩]

/-- With a database that refuses nothing, whether a request succeeds is up to its two files
alone, and the amount it is answered with is that of the nets the filter selects. The cell of
identifiers that has to close is what four cuts at commas leave of a part's line. -/
theorem process_serves_iff (env : Environment) (calm : ∀ k, env.world.databaseThrows k = false)
    (store : Store) (billName netlistName : Text) (relayAmount : Nat) :
    (∃ fuel left, process env fuel store billName netlistName = some (.ok relayAmount, left)) ↔
      Serves env.files billName netlistName ∧
        relayAmount = ((fileNets env.files netlistName).filter relayNet).length := by
  constructor
  · rintro ⟨fuel, left, served⟩
    exact serves_of_process calm served
  · rintro ⟨serves, rfl⟩
    exact process_of_serves calm store serves

def servedBoard : Environment where
  files := fun path =>
    if path = "bom.csv".toList then some "1,2,ti,x,U1,d,n,a,85".toList else singleBoard path
  world := ⟨fun _ => false, fun _ => true⟩
  uninit := ⟨0, fun _ => 0⟩
  what := fun _ => []

theorem servedBoard_serves :
    Serves servedBoard.files "bom.csv".toList "netlist.txt".toList ∧
      1 = ((fileNets servedBoard.files "netlist.txt".toList).filter relayNet).length := by
  have served : (process servedBoard 60 {} "bom.csv".toList "netlist.txt".toList).map (·.1) =
      some (.ok 1) := by decide +kernel
  obtain ⟨⟨result, left⟩, ended, rfl⟩ := Option.map_eq_some_iff.mp served
  exact (process_serves_iff servedBoard (fun _ => rfl) {} _ _ 1).mp ⟨60, left, ended⟩

/-- Connects succeed, the files are always the same, and the database refuses nothing. -/
def Calm (files : Files) : Event → Prop
  | .arrive _ connects _ => connects = true
  | .rerun _ connects _ => connects = true
  | .spurious _ => True
  | .finish _ _ env _ _ => env.files = files ∧ ∀ k, env.world.databaseThrows k = false

inductive Fitting (files : Files) (request : Request) : Response → Prop
  | served {billName netlistName : Text} (body : request.body = .paths billName netlistName)
      (serves : Serves files billName netlistName) :
      Fitting files request ⟨.ok, "relayAmount:".toList ++
        numeral ((fileNets files netlistName).filter relayNet).length⟩
  | failed {billName netlistName : Text} (body : request.body = .paths billName netlistName)
      (unserved : ¬ Serves files billName netlistName) {answer : Response}
      (error : answer.status = .internalServerError) : Fitting files request answer
  | refused {answer : Response} (refusal : request.body.refusal = some answer) :
      Fitting files request answer

theorem fitting_of_outcome {request : Request} {env : Environment} {fuel : Nat}
    {store left : Store} {relayAmount : Nat} (calm : ∀ k, env.world.databaseThrows k = false)
    (outcome : request.outcome env fuel store = some (.ok relayAmount, left)) :
    Fitting env.files request ⟨.ok, "relayAmount:".toList ++ numeral relayAmount⟩ := by
  unfold Request.outcome at outcome
  split at outcome
  · rename_i body
    obtain ⟨serves, rfl⟩ := serves_of_process calm outcome
    exact .served body serves
  · cases outcome

theorem fitting_of_failure {request : Request} {env : Environment} {fuel : Nat}
    {store left : Store} {exception : Exception} (calm : ∀ k, env.world.databaseThrows k = false)
    (outcome : request.outcome env fuel store = some (.error (.thrown exception), left)) :
    Fitting env.files request (failure env.what exception) := by
  unfold Request.outcome at outcome
  split at outcome
  · rename_i body
    refine .failed body (fun serves => ?_) (State.failure_internalServerError _ _)
    obtain ⟨more, last, served⟩ := process_of_serves calm store serves
    cases process_unique outcome served
  · cases outcome

namespace State

theorem Acquired.unanswered {s next : State} {request : Request} {what : Exception → Text}
    (acquired : s.Acquired request true what next) : next.answers = s.answers := by
  cases acquired with
  | idle conn rest _ => rfl
  | created onDemand _ => rfl
  | threw onDemand failed => cases failed
  | waits _ _ => rfl

theorem step_answers {files : Files} {s next : State} {e : Event} (calm : Calm files e)
    (possible : s.step e = some next) :
    next.answers = s.answers ∨ ∃ request answer,
      next.answers = (request, answer) :: s.answers ∧ Fitting files request answer := by
  cases stepped possible with
  | refused request connects what response refusal =>
      exact .inr ⟨request, response, rfl, .refused refusal⟩
  | arrived request connects what _ _ =>
      obtain rfl : connects = true := calm
      exact .inl (acquired s request true what).unanswered
  | retried request connects what _ =>
      obtain rfl : connects = true := calm
      exact .inl (acquired _ request true what).unanswered
  | woke request _ => exact .inl rfl
  | returned request conn env fuel notified clients store relayAmount _ outcome _ =>
      obtain ⟨rfl, calm⟩ := calm
      exact .inr ⟨request, _, rfl, fitting_of_outcome calm outcome⟩
  | failed request conn env fuel notified store exception _ outcome =>
      obtain ⟨rfl, calm⟩ := calm
      exact .inr ⟨request, _, rfl, fitting_of_failure calm outcome⟩

def Fit (files : Files) (s : State) : Prop :=
  ∀ request answer, (request, answer) ∈ s.answers → Fitting files request answer

theorem step_fit {files : Files} (s : State) (e : Event) (next : State) (fit : s.Fit files)
    (calm : Calm files e) (possible : s.step e = some next) : next.Fit files := by
  intro other response member
  rcases step_answers calm possible with same | ⟨request, answer, answered, fitting⟩
  · rw [same] at member
    exact fit other response member
  · rw [answered] at member
    rcases List.mem_cons.mp member with new | before
    · cases new
      exact fitting
    · exact fit other response before

/-- In every run in which nothing but the boards can fail, an answer that is given is a success
exactly if the files of the request can be served, and says how many relays they have; it is
an error of the server exactly if the request names other files, or the parser throws. -/
theorem answers_fit (files : Files) (poolSize : Nat) (store : Store) (s : State) (es : List Event)
    (ran : run step (init poolSize store) es = some s) (calm : ∀ e ∈ es, Calm files e) :
    ∀ request answer, (request, answer) ∈ s.answers →
      (answer.status = .ok ↔ ∃ billName netlistName,
        request.body = .paths billName netlistName ∧ Serves files billName netlistName ∧
          answer.body = "relayAmount:".toList ++
            numeral ((fileNets files netlistName).filter relayNet).length) ∧
        (answer.status = .internalServerError ↔
          (∃ billName netlistName,
            request.body = .paths billName netlistName ∧ ¬ Serves files billName netlistName) ∨
          ∃ what, request.body = .throws what) ∧
        (answer.status = .badRequest ↔ request.Malformed) := by
  have start : (init poolSize store).Fit files := fun _ _ member => nomatch member
  have fit : s.Fit files := guarded_invariant step_fit start (guarded_of_forall _ calm) ran
  intro request answer member
  cases fit request answer member with
  | @served billName netlistName body serves =>
      have named : request.Named := ⟨billName, netlistName, body⟩
      refine ⟨iff_of_true rfl ⟨_, _, body, serves, rfl⟩, iff_of_false (by simp) ?_,
        iff_of_false (by simp) named.not_malformed⟩
      simp [body, serves]
  | @failed billName netlistName body unserved _ error =>
      have named : request.Named := ⟨billName, netlistName, body⟩
      refine ⟨iff_of_false (by simp [error]) ?_, iff_of_true error (.inl ⟨_, _, body, unserved⟩),
        iff_of_false (by simp [error]) named.not_malformed⟩
      simp [body, unserved]
  | refused refusal =>
      have unnamed := Request.not_named_of_refusal refusal
      obtain ⟨bad, error, other⟩ := Request.refusal_status refusal
      refine ⟨iff_of_false other ?_, error.trans (or_iff_right ?_).symm, bad⟩
      · rintro ⟨billName, netlistName, body, _⟩
        exact unnamed ⟨billName, netlistName, body⟩
      · rintro ⟨billName, netlistName, body, _⟩
        exact unnamed ⟨billName, netlistName, body⟩

def bothBoards : Files := fun path =>
  if path = "netlist.txt".toList then some sampleBoard
  else if path = "overlong.txt".toList then some overlongBoard
  else none

def bothEvents : List Event :=
  let env : Environment :=
    { files := bothBoards, world := ⟨fun _ => false, fun _ => true⟩, uninit := ⟨0, fun _ => 0⟩,
      what := fun _ => [] }
  let served : Request := ⟨0, .paths "bom.csv".toList "netlist.txt".toList⟩
  let failed : Request := ⟨1, .paths "bom.csv".toList "overlong.txt".toList⟩
  [.arrive served true env.what, .arrive failed true env.what, .finish failed 1 env 5 none,
    .arrive ⟨2, .throws []⟩ true env.what, .finish served 0 env 5 none]

theorem bothEvents_fit :
    ∃ s, run step (init 5 {}) bothEvents = some s ∧
      s.answers.map (·.2.status) = [.ok, .internalServerError, .internalServerError] ∧
      ∀ request answer, (request, answer) ∈ s.answers →
        (answer.status = .ok ↔ ∃ billName netlistName,
          request.body = .paths billName netlistName ∧ Serves bothBoards billName netlistName ∧
            answer.body = "relayAmount:".toList ++
              numeral ((fileNets bothBoards netlistName).filter relayNet).length) ∧
          (answer.status = .internalServerError ↔
            (∃ billName netlistName, request.body = .paths billName netlistName ∧
              ¬ Serves bothBoards billName netlistName) ∨
            ∃ what, request.body = .throws what) ∧
          (answer.status = .badRequest ↔ request.Malformed) := by
  have ends : (run step (init 5 {}) bothEvents).map (·.answers.map (·.2.status)) =
      some [.ok, .internalServerError, .internalServerError] := by decide +kernel
  obtain ⟨s, ran, statuses⟩ := Option.map_eq_some_iff.mp ends
  refine ⟨s, ran, statuses, answers_fit bothBoards 5 {} s bothEvents ran ?_⟩
  simp [bothEvents, Calm]

end State

end RelayDev.Server
