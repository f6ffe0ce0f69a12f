import RelayDev.InputData
import RelayDev.Output
import RelayDev.Pool

/-! `handleQuery`: any number of requests over one pool of connections. -/

namespace RelayDev.Server

open Cpp Text InputData Output Pool RelayConvert Transition

/-- What the JSON reader makes of the body of a request; it throws on one that is nested too
deeply. -/
inductive Body where
  | throws (what : Text)
  | unreadable
  | incomplete
  | paths (billName netlistName : Text)
  deriving DecidableEq, Repr

structure Request where
  number : Nat
  body : Body
  deriving DecidableEq, Repr

inductive Status where
  | ok
  | badRequest
  | internalServerError
  deriving DecidableEq, Repr

structure Response where
  status : Status
  body : Text
  deriving DecidableEq, Repr

/-- The answer of a request that returns, or throws, before `getConnection`. -/
def Body.refusal : Body → Option Response
  | .throws what => some ⟨.internalServerError, "Error: ".toList ++ what⟩
  | .unreadable => some ⟨.badRequest, "Invalid JSON format.".toList⟩
  | .incomplete => some ⟨.badRequest, "BomPath or NetListPath empty.".toList⟩
  | .paths _ _ => none

structure Environment where
  files : Files
  world : World
  uninit : Uninit
  what : Exception → Text

def failure (what : Exception → Text) (exception : Exception) : Response :=
  match exception with
  | .sqlException => ⟨.internalServerError, "Database error: ".toList ++ what exception⟩
  | other => ⟨.internalServerError, "Error: ".toList ++ what other⟩

/-- The calls of `handleQuery` between `getConnection` and `releaseConnection`: the number
of relays, and what is stored, also where they fail. -/
def process (env : Environment) (fuel : Nat) (store : Store) (billName netlistName : Text) :
    Option (Result Nat × Store) :=
  match getInputData env.files fuel { billName, netlistName } with
  | none => none
  | some (.error fault) => some (.error fault, store)
  | some (.ok input) =>
      let output : Effect Nat := do
        let relay ← Effect.of (relayConvert env.uninit input {})
        outputRelayData env.world "Configuration.csv".toList relay
        saveData env.world input relay
        return relay.relayAmount
      let (result, session) := output.run.run ⟨store, 0⟩
      some (result, session.store)

/-- What a request with a connection comes to; only those that name their files have one. -/
def Request.outcome (request : Request) (env : Environment) (fuel : Nat) (store : Store) :
    Option (Result Nat × Store) :=
  match request.body with
  | .paths billName netlistName => process env fuel store billName netlistName
  | _ => none

structure State where
  clients : System Request
  /-- the connections closed because their request failed -/
  closed : List Nat
  store : Store
  answers : List (Request × Response)
  deriving DecidableEq, Repr

inductive Event where
  | arrive (request : Request) (connects : Bool) (what : Exception → Text)
  | rerun (request : Request) (connects : Bool) (what : Exception → Text)
  | spurious (request : Request)
  | finish (request : Request) (conn : Nat) (env : Environment) (fuel : Nat)
      (notified : Option Request)

namespace State

def init (poolSize : Nat) (store : Store) : State := ⟨System.init poolSize, [], store, []⟩

def inProgress (s : State) : List Request :=
  s.clients.lent.map Prod.fst ++ s.clients.blocked ++ s.clients.woken

def answer (s : State) (request : Request) (response : Response) : State :=
  { s with answers := (request, response) :: s.answers }

def acquire (s : State) (request : Request) (connects : Bool) (what : Exception → Text) : State :=
  let next := { s with clients := s.clients.acquire request connects }
  if s.clients.pool.OnDemand ∧ connects = false then
    next.answer request (failure what .sqlException)
  else next

/-- An exception leaves `handleQuery` without `releaseConnection`, and the last pointer to
the connection with it. -/
def drop (s : State) (request : Request) (conn : Nat) : State :=
  { s with
    clients := { s.clients with lent := s.clients.lent.erase (request, conn) }
    closed := conn :: s.closed }

def finish (s : State) (request : Request) (conn : Nat) (env : Environment) (fuel : Nat)
    (notified : Option Request) : Option State :=
  match request.outcome env fuel s.store with
  | some (.ok relayAmount, store) =>
      (s.clients.giveBack request conn notified).map fun clients =>
        { s with clients, store }.answer request
          ⟨.ok, "relayAmount:".toList ++ numeral relayAmount⟩
  | some (.error (.thrown exception), store) =>
      some (({ s with store }.drop request conn).answer request (failure env.what exception))
  | _ => none

def step (s : State) : Event → Option State
  | .arrive request connects what =>
      if request ∈ s.inProgress then none
      else
        match request.body.refusal with
        | some response => some (s.answer request response)
        | none => some (s.acquire request connects what)
  | .rerun request connects what =>
      if request ∈ s.clients.woken then
        let clients := { s.clients with woken := s.clients.woken.erase request }
        some ({ s with clients }.acquire request connects what)
      else none
  | .spurious request => (s.clients.step (.spurious request)).map fun clients => { s with clients }
  | .finish request conn env fuel notified =>
      if (request, conn) ∈ s.clients.lent then s.finish request conn env fuel notified else none

def FailsHolding (s : State) : Event → Prop
  | .finish request _ env fuel _ =>
      ∃ exception store, request.outcome env fuel s.store = some (.error (.thrown exception), store)
  | _ => False

structure Accounts (poolSize : Nat) (s : State) : Prop where
  size : s.clients.pool.poolSize = poolSize
  partition : (s.clients.connections ++ s.closed).Perm (List.range s.clients.created)

theorem init_accounts (poolSize : Nat) (store : Store) : (init poolSize store).Accounts poolSize where
  size := rfl
  partition := by
    rw [init, List.append_nil]
    exact System.init_partition poolSize

theorem acquire_clients (s : State) (request : Request) (connects : Bool)
    (what : Exception → Text) :
    (s.acquire request connects what).clients = s.clients.acquire request connects ∧
      (s.acquire request connects what).closed = s.closed := by
  unfold acquire
  dsimp only
  split
  · exact ⟨rfl, rfl⟩
  · exact ⟨rfl, rfl⟩

theorem acquire_accounts {poolSize : Nat} {s : State} (accounts : s.Accounts poolSize)
    (request : Request) (connects : Bool) (what : Exception → Text) :
    (s.acquire request connects what).Accounts poolSize := by
  obtain ⟨clients, closed⟩ := acquire_clients s request connects what
  constructor
  · rw [clients, System.acquire_poolSize, accounts.size]
  · rw [clients, closed]
    rcases System.acquire_connections s.clients request connects with
      ⟨_, created, same⟩ | ⟨_, created, same⟩
    · rw [created]
      exact (same.append_right _).trans accounts.partition
    · rw [created, List.range_succ]
      calc
        List.Perm _ (s.clients.created :: (s.clients.connections ++ s.closed)) :=
          same.append_right _
        List.Perm _ (s.clients.created :: List.range s.clients.created) :=
          accounts.partition.cons _
        List.Perm _ (List.range s.clients.created ++ [s.clients.created]) :=
          (List.perm_append_singleton _ _).symm

theorem giveBack_accounts {poolSize : Nat} {s : State} (accounts : s.Accounts poolSize)
    {request : Request} {conn : Nat} {notified : Option Request} {clients : System Request}
    (held : (request, conn) ∈ s.clients.lent)
    (gave : s.clients.giveBack request conn notified = some clients) :
    { s with clients }.Accounts poolSize := by
  obtain ⟨created, same⟩ := System.giveBack_connections held gave
  constructor
  · rw [System.giveBack_poolSize gave, accounts.size]
  · rw [created]
    exact (same.append_right _).trans accounts.partition

theorem drop_accounts {poolSize : Nat} {s : State} (accounts : s.Accounts poolSize)
    {request : Request} {conn : Nat} (held : (request, conn) ∈ s.clients.lent) :
    (s.drop request conn).Accounts poolSize := by
  have split := (List.perm_cons_erase held).map Prod.snd
  constructor
  · exact accounts.size
  · calc
      List.Perm ((s.drop request conn).clients.connections ++ (s.drop request conn).closed)
          (s.clients.pool.pool ++ (s.clients.lent.map Prod.snd ++ s.closed)) := by
        simp only [drop, System.connections, List.append_assoc]
        exact (List.perm_middle.trans (split.symm.append_right _)).append_left _
      List.Perm _ (s.clients.connections ++ s.closed) := by
        rw [System.connections, List.append_assoc]
      List.Perm _ (List.range s.clients.created) := accounts.partition

inductive Moved (s : State) (e : Event) : State → Prop
  | refused (request : Request) (response : Response) (safe : ¬ s.FailsHolding e) :
      Moved s e (s.answer request response)
  | acquired (woken : List Request) (request : Request) (connects : Bool) (what : Exception → Text)
      (safe : ¬ s.FailsHolding e) :
      Moved s e ({ s with clients := { s.clients with woken } }.acquire request connects what)
  | woke (blocked woken : List Request) (safe : ¬ s.FailsHolding e) :
      Moved s e { s with clients := { s.clients with blocked, woken } }
  | returned (request : Request) (conn : Nat) (notified : Option Request)
      (clients : System Request) (store : Store) (response : Response)
      (held : (request, conn) ∈ s.clients.lent)
      (gave : s.clients.giveBack request conn notified = some clients)
      (safe : ¬ s.FailsHolding e) :
      Moved s e ({ s with clients, store }.answer request response)
  | failed (request : Request) (conn : Nat) (store : Store) (response : Response)
      (held : (request, conn) ∈ s.clients.lent) (fails : s.FailsHolding e) :
      Moved s e (({ s with store }.drop request conn).answer request response)

theorem finish_moved {s next : State} {request : Request} {conn : Nat} {env : Environment}
    {fuel : Nat} {notified : Option Request} (held : (request, conn) ∈ s.clients.lent)
    (finished : s.finish request conn env fuel notified = some next) :
    s.Moved (.finish request conn env fuel notified) next := by
  unfold finish at finished
  split at finished
  · rename_i returned
    obtain ⟨clients, gave, rfl⟩ := Option.map_eq_some_iff.mp finished
    apply Moved.returned request conn notified clients _ _ held gave
    rintro ⟨exception, store, failed⟩
    rw [returned] at failed
    cases failed
  · rename_i failed
    cases finished
    exact .failed request conn _ _ held ⟨_, _, failed⟩
  · cases finished

theorem step_moved {s next : State} {e : Event} (stepped : s.step e = some next) :
    s.Moved e next := by
  cases e with
  | arrive request connects what =>
      rw [step, Option.ite_none_left_eq_some] at stepped
      obtain ⟨_, stepped⟩ := stepped
      split at stepped
      · cases stepped
        exact .refused request _ id
      · cases stepped
        exact .acquired s.clients.woken request connects what id
  | rerun request connects what =>
      rw [step, Option.ite_none_right_eq_some] at stepped
      cases stepped.2
      exact .acquired (s.clients.woken.erase request) request connects what id
  | spurious request =>
      obtain ⟨clients, woke, rfl⟩ := Option.map_eq_some_iff.mp stepped
      rw [System.step, Option.ite_none_right_eq_some] at woke
      cases woke.2
      exact .woke (s.clients.blocked.erase request) (request :: s.clients.woken) id
  | finish request conn env fuel notified =>
      rw [step, Option.ite_none_right_eq_some] at stepped
      exact finish_moved stepped.1 stepped.2

theorem step_accounts (poolSize : Nat) (s : State) (e : Event) (next : State)
    (accounts : s.Accounts poolSize) (stepped : s.step e = some next) : next.Accounts poolSize := by
  have same (s' : State) (clients : s'.clients.pool = s.clients.pool)
      (lent : s'.clients.lent = s.clients.lent) (created : s'.clients.onDemand = s.clients.onDemand)
      (closed : s'.closed = s.closed) : s'.Accounts poolSize := by
    constructor
    · rw [clients, accounts.size]
    · rw [System.connections, System.created, clients, lent, created, closed]
      exact accounts.partition
  cases step_moved stepped with
  | refused request response _ => exact same _ rfl rfl rfl rfl
  | acquired woken request connects what _ =>
      have before := same { s with clients := { s.clients with woken } } rfl rfl rfl rfl
      exact acquire_accounts before request connects what
  | woke blocked woken _ => exact same _ rfl rfl rfl rfl
  | returned request conn notified clients store response held gave _ =>
      have kept := giveBack_accounts accounts held gave
      exact ⟨kept.size, kept.partition⟩
  | failed request conn store response held _ =>
      have kept := drop_accounts accounts held
      exact ⟨kept.size, kept.partition⟩

theorem step_closed (s : State) (e : Event) (next : State) (stepped : s.step e = some next) :
    ¬ s.FailsHolding e ∧ next.closed.length = s.closed.length ∨
      ¬ ¬ s.FailsHolding e ∧ next.closed.length = s.closed.length + 1 := by
  cases step_moved stepped with
  | refused request response safe => exact .inl ⟨safe, rfl⟩
  | acquired woken request connects what safe =>
      have kept := (acquire_clients { s with clients := { s.clients with woken } } request connects
        what).2
      exact .inl ⟨safe, congrArg List.length kept⟩
  | woke blocked woken safe => exact .inl ⟨safe, rfl⟩
  | returned request conn notified clients store response held gave safe =>
      exact .inl ⟨safe, rfl⟩
  | failed request conn store response held fails => exact .inr ⟨not_not_intro fails, rfl⟩

/-- Whenever no request is in progress, the pool holds all connections exactly when no
request has failed with one, and then the next caller does not wait. -/
theorem all_returned_iff (poolSize : Nat) (store : Store) (s : State) (es : List Event)
    (ran : run step (init poolSize store) es = some s) (quiet : s.inProgress = []) :
    (s.clients.pool.pool.length = poolSize + s.clients.onDemand ↔
      Guarded step (fun s e => ¬ s.FailsHolding e) (init poolSize store) es) ∧
    (Guarded step (fun s e => ¬ s.FailsHolding e) (init poolSize store) es → 0 < poolSize →
      ∀ connect, ∃ conn, (s.clients.pool.getConnection connect).1 = .returned conn) := by
  have accounts : s.Accounts poolSize :=
    run_invariant (step_accounts poolSize) (init_accounts poolSize store) ran
  obtain ⟨_, guarded⟩ := guarded_iff_constant (fun s => s.closed.length) step_closed ran
  have idle : s.clients.pool.pool.length + s.closed.length = poolSize + s.clients.onDemand := by
    have nobody : s.clients.lent = [] := by
      have none := quiet
      simp only [inProgress, List.append_eq_nil_iff, List.map_eq_nil_iff] at none
      exact none.1.1
    have count := accounts.partition.length_eq
    simpa [System.connections, System.created, nobody, accounts.size] using count
  have returned : s.clients.pool.pool.length = poolSize + s.clients.onDemand ↔
      Guarded step (fun s e => ¬ s.FailsHolding e) (init poolSize store) es := by
    rw [guarded]
    simp only [init, List.length_nil]
    omega
  refine ⟨returned, fun safe positive connect => ?_⟩
  have stocked := returned.mpr safe
  cases pool : s.clients.pool.pool with
  | nil =>
      rw [pool, List.length_nil] at stocked
      omega
  | cons conn rest => exact ⟨conn, by rw [MySQLConnectionPool.getConnection, pool]⟩

def sampleEvents (netlist : Text) : List Event :=
  let request : Request := ⟨0, .paths "bom.csv".toList "netlist.txt".toList⟩
  let env : Environment :=
    { files := fun path => if path = "netlist.txt".toList then some netlist else none
      world := ⟨fun _ => false, fun _ => true⟩
      uninit := ⟨0, fun _ => 0⟩
      what := fun _ => [] }
  [.arrive request true env.what, .finish request 0 env 5 none]

def sampleBoard : Text :=
  ("SDI U1 33 MAX6957ATL_TQFN-40-MAX6957ATL+\n" ++ "SDO U1 40 MAX6957ATL_TQFN-40-MAX6957ATL+\n" ++
    "AB_K1_1 U1 5 MAX6957ATL_TQFN-40-MAX6957ATL+\n").toList

def overlongBoard : Text := "AB_K1_1 U1 99999999999 MAX6957ATL_TQFN-40-MAX6957ATL+\n".toList

theorem sampleBoard_returned :
    ∃ s, run step (init 5 {}) (sampleEvents sampleBoard) = some s ∧
      (s.clients.pool.pool.length = 5 + s.clients.onDemand ↔ Guarded step
        (fun s e => ¬ s.FailsHolding e) (init 5 {}) (sampleEvents sampleBoard)) := by
  have ends : (run step (init 5 {}) (sampleEvents sampleBoard)).map inProgress = some [] := by
    decide +kernel
  obtain ⟨s, ran, quiet⟩ := Option.map_eq_some_iff.mp ends
  exact ⟨s, ran, (all_returned_iff 5 {} s (sampleEvents sampleBoard) ran quiet).1⟩

theorem overlongBoard_leaks :
    ∃ s, run step (init 5 {}) (sampleEvents overlongBoard) = some s ∧ s.inProgress = [] ∧
      s.clients.pool.pool.length ≠ 5 + s.clients.onDemand := by
  have ends : (run step (init 5 {}) (sampleEvents overlongBoard)).map (fun s =>
      (s.inProgress, s.clients.pool.pool.length, s.clients.onDemand)) = some ([], 4, 0) := by
    decide +kernel
  obtain ⟨s, ran, view⟩ := Option.map_eq_some_iff.mp ends
  obtain ⟨quiet, rest⟩ := Prod.mk.inj view
  obtain ⟨idle, onDemand⟩ := Prod.mk.inj rest
  exact ⟨s, ran, quiet, by rw [idle, onDemand]; decide⟩

end State

end RelayDev.Server
