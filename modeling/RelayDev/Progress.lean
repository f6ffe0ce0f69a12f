import RelayDev.Capacity

/-! Who can still be served: what a waiting request can count on in any state of the
server. -/

namespace RelayDev.Server

open Cpp Text InputData Output Pool RelayConvert DeviceOrder Transition

theorem saveData_returns (world : World) {input : Input} {relay : Relay} (s : Session)
    (bills : ∀ row ∈ billRows input, row.isOk = true)
    (nets : ∀ row ∈ netlistRows input, row.isOk = true)
    (configs : ∀ row ∈ configRows relay, row.isOk = true) :
    ∃ next, (saveData world input relay).out s = (.ok (), next) := by
  have blocks := savedData world input relay s
  generalize (saveData world input relay).out s = out at blocks ⊢
  cases blocks with
  | bill savedBills => cases bills _ savedBills.error_mem
  | netlist _ savedNets => cases nets _ savedNets.error_mem
  | config _ _ savedConfigs =>
      obtain ⟨result, next⟩ := out
      cases result with
      | ok _ => exact ⟨next, rfl⟩
      | error fault => cases configs _ savedConfigs.error_mem

def configuration (relay : Relay) : Text :=
  List.intercalate ['\n'] (relay.relayData.map configLine)

/-- The files behind `outputRelayData`. -/
def configured (world : World) (relay : Relay) (files : List (Text × Text)) : List (Text × Text) :=
  if world.opens "Configuration.csv".toList then
    ("Configuration.csv".toList, configuration relay) ::
      files.filter (·.1 ≠ "Configuration.csv".toList)
  else files

theorem outputRelayData_written (world : World) (store : Store) {relay : Relay}
    (count : relay.relayData.length = relay.relayAmount) :
    (outputRelayData world "Configuration.csv".toList relay).out ⟨store, 0⟩ =
      (.ok (), ⟨{ store with files := configured world relay store.files }, 0⟩) := by
  have records := mapM_index relay.relayData
  rw [count] at records
  rw [outputRelayData, configured]
  split
  · rw [records]
    rfl
  · rfl

/-- Once the file is written, whether it can be opened or not, `saveData` decides. -/
theorem conclude_saves (world : World) (store : Store) (input : Input) {relay : Relay}
    (count : relay.relayData.length = relay.relayAmount) :
    conclude world store input relay =
      let saved := (saveData world input relay).out
        ⟨{ store with files := configured world relay store.files }, 0⟩
      (saved.1.map fun _ => relay.relayAmount, saved.2.store) := by
  have run : conclude world store input relay =
      let ended := (do
        outputRelayData world "Configuration.csv".toList relay
        saveData world input relay
        return relay.relayAmount : Effect Nat).out ⟨store, 0⟩
      (ended.1, ended.2.store) := rfl
  rw [run, out_bind_ok (outputRelayData_written world store count)]
  rcases saved : (saveData world input relay).out
    ⟨{ store with files := configured world relay store.files }, 0⟩ with ⟨fault | _, next⟩
  · rw [out_bind_error saved]
    rfl
  · rw [out_bind_ok saved]
    rfl

theorem conclude_returns (world : World) (store : Store) {input : Input} {relay : Relay}
    (count : relay.relayData.length = relay.relayAmount)
    (bills : ∀ row ∈ billRows input, row.isOk = true)
    (nets : ∀ row ∈ netlistRows input, row.isOk = true)
    (configs : ∀ row ∈ configRows relay, row.isOk = true) :
    ∃ next, conclude world store input relay = (.ok relay.relayAmount, next) := by
  obtain ⟨next, saved⟩ := saveData_returns world
    ⟨{ store with files := configured world relay store.files }, 0⟩ bills nets configs
  rw [conclude_saves world store input count, saved]
  exact ⟨next.store, rfl⟩

/-- What a request converts before it writes anything. -/
def Request.conversion (request : Request) (env : Environment) (fuel : Nat) : Call (Input × Relay) :=
  match request.body with
  | .paths billName netlistName =>
      (getInputData env.files fuel { billName, netlistName }).map fun read =>
        read.bind fun input => (relayConvert env.uninit input {}).map (input, ·)
  | _ => none

theorem Request.outcome_eq (request : Request) (env : Environment) (fuel : Nat) (store : Store) :
    request.outcome env fuel store = (request.conversion env fuel).map fun converted =>
      match converted with
      | .ok (input, relay) => conclude env.world store input relay
      | .error fault => (.error fault, store) := by
  cases body : request.body with
  | throws => rw [Request.outcome, Request.conversion, body, Option.map_none]
  | unreadable => rw [Request.outcome, Request.conversion, body, Option.map_none]
  | incomplete => rw [Request.outcome, Request.conversion, body, Option.map_none]
  | paths billName netlistName =>
      rw [Request.outcome, Request.conversion, body]
      dsimp only
      rw [process_eq, Option.map_map]
      rfl

theorem Request.conversion_eq_ok {request : Request} {env : Environment} {fuel : Nat} {input : Input}
    {relay : Relay} (converted : request.conversion env fuel = some (.ok (input, relay))) :
    ∃ billName netlistName,
      getInputData env.files fuel { billName, netlistName } = some (.ok input) ∧
        relayConvert env.uninit input {} = .ok relay := by
  unfold Request.conversion at converted
  split at converted
  · rename_i billName netlistName _
    obtain ⟨read, filled, same⟩ := Option.map_eq_some_iff.mp converted
    rcases read with fault | board
    · cases same
    · obtain ⟨_, ran, rfl, rfl⟩ := map_eq_ok.mp same
      exact ⟨billName, netlistName, filled, ran⟩
  · cases converted

theorem Request.conversion_amount {request : Request} {env : Environment} {fuel : Nat} {input : Input}
    {relay : Relay} (converted : request.conversion env fuel = some (.ok (input, relay))) :
    relay.relayData.length = relay.relayAmount := by
  obtain ⟨_, _, _, ran⟩ := conversion_eq_ok converted
  obtain ⟨length, amount⟩ := relayConvert_length ran
  exact length.trans amount.symm

namespace State

/-- Seen from the pool, a step is one of a caller, or takes a lent connection away. -/
theorem step_clients {s next : State} {e : Event} (orderly : s.Orderly)
    (possible : s.step e = some next) :
    next.clients = s.clients ∨ (∃ e', s.clients.step e' = some next.clients) ∨
      ∃ held ∈ s.clients.lent,
        next.clients = { s.clients with lent := s.clients.lent.erase held } := by
  have running {request : Request} (absent : request ∉ s.clients.blocked ++ s.clients.woken) :
      s.clients.Running request := by
    rwa [List.mem_append, not_or] at absent
  cases stepped possible with
  | refused request connects what response refusal => exact .inl rfl
  | arrived request connects what fresh named =>
      have absent : request ∉ s.clients.blocked ++ s.clients.woken := by
        rw [inProgress, List.append_assoc, List.mem_append, not_or] at fresh
        exact fresh.2
      refine .inr (.inl ⟨.get request connects, ?_⟩)
      rw [System.step, if_pos (running absent), (acquire_clients s request connects what).1]
  | retried request connects what woken =>
      refine .inr (.inl ⟨.rerun request connects, ?_⟩)
      rw [System.step, if_pos woken, (acquire_clients _ request connects what).1]
  | woke request blocked =>
      refine .inr (.inl ⟨.spurious request, ?_⟩)
      rw [System.step, if_pos blocked]
  | returned request conn env fuel notified clients store relayAmount held outcome gave =>
      have absent : request ∉ s.clients.blocked ++ s.clients.woken := by
        have distinct := orderly.distinct
        rw [inProgress, List.append_assoc] at distinct
        exact (List.nodup_append.mp distinct).2.2 request (List.mem_map_of_mem held) |>
          fun apart member => apart request member rfl
      refine .inr (.inl ⟨.release request conn notified, ?_⟩)
      rw [System.step, if_pos ⟨running absent, held⟩]
      exact gave
  | failed request conn env fuel notified store exception held outcome =>
      exact .inr (.inr ⟨(request, conn), held, rfl⟩)

theorem step_waiting (s : State) (e : Event) (next : State)
    (both : s.Orderly ∧ s.clients.Waiting) (possible : s.step e = some next) :
    next.Orderly ∧ next.clients.Waiting := by
  obtain ⟨orderly, waiting⟩ := both
  refine ⟨step_orderly s e next orderly possible, ?_⟩
  rcases step_clients orderly possible with same | ⟨e', moved⟩ | ⟨held, _, same⟩
  · rwa [same]
  · exact System.step_waiting _ _ _ waiting moved
  · rw [same]
    exact ⟨waiting.counted, waiting.full, waiting.coming⟩

structure Exhausted (s : State) : Prop where
  empty : s.clients.pool.pool = []
  nobody : s.clients.lent = []
  full : s.clients.pool.poolSize ≤ s.clients.pool.activeConnections

theorem exhausted_iff (s : State) : s.Exhausted ↔ s.capacity = 0 := by
  constructor
  · rintro ⟨empty, nobody, full⟩
    simp [capacity, empty, nobody, Nat.sub_eq_zero_of_le full]
  · intro none
    simp only [capacity, Nat.add_eq_zero_iff, List.length_eq_zero_iff] at none
    exact ⟨none.1.1, none.1.2, Nat.sub_eq_zero_iff_le.mp none.2⟩

theorem Acquired.of_full {s next : State} {request : Request} {connects : Bool}
    {what : Exception → Text} (acquired : s.Acquired request connects what next)
    (empty : s.clients.pool.pool = [])
    (full : s.clients.pool.poolSize ≤ s.clients.pool.activeConnections) :
    next = { s with clients := { s.clients with blocked := request :: s.clients.blocked } } := by
  cases acquired with
  | idle conn rest stocked =>
      rw [empty] at stocked
      cases stocked
  | created onDemand _ => exact absurd onDemand.2 (Nat.not_lt_of_le full)
  | threw onDemand _ => exact absurd onDemand.2 (Nat.not_lt_of_le full)
  | waits _ _ => rfl

def sampleNamed (number : Nat) : Request :=
  ⟨number, .paths "bom.csv".toList "netlist.txt".toList⟩

end State

end RelayDev.Server
