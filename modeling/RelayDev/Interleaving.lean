import RelayDev.Progress
import RelayDev.Statements

/-! The server with requests that save side by side: the call that writes the configuration file
and each call to the database are steps of their own, in any order over the requests. -/

namespace RelayDev.Interleaving

open Cpp Text InputData Output Pool RelayConvert Transition Server

/-- The rows that a request leaves in an empty database that it has for itself. -/
def leaves (request : Request) (env : Environment) (fuel : Nat) : List (Table × List Value) :=
  match request.conversion env fuel with
  | some (.ok (input, relay)) => ((saveData env.world input relay).out ⟨{}, 0⟩).2.store.rows
  | _ => []

/-- A request between its conversion and its answer; `configured` once `outputRelayData` has
returned. -/
structure Saving where
  request : Request
  conn : Nat
  env : Environment
  fuel : Nat
  relay : Relay
  configured : Bool
  saver : Saver

/-- The store of `server` holds what has been written so far, also by requests that are still
saving. -/
structure State where
  server : Server.State
  savings : List Saving

inductive Event where
  | arrive (request : Request) (connects : Bool) (what : Exception → Text)
  | rerun (request : Request) (connects : Bool) (what : Exception → Text)
  | spurious (request : Request)
  | convert (request : Request) (conn : Nat) (env : Environment) (fuel : Nat)
  | write (conn : Nat)
  | call (conn : Nat)
  | finish (conn : Nat) (notified : Option Request)

namespace State

def init (poolSize : Nat) (store : Store) : State := ⟨.init poolSize store, []⟩

def saving (s : State) (conn : Nat) : Option Saving := s.savings.find? (·.conn = conn)

def others (s : State) (conn : Nat) : List Saving := s.savings.eraseP (·.conn = conn)

def convert (s : State) (request : Request) (conn : Nat) (env : Environment) (fuel : Nat) :
    Option State :=
  match request.conversion env fuel with
  | some (.ok (input, relay)) =>
      some { s with
        savings := ⟨request, conn, env, fuel, relay, false, .begin input relay⟩ :: s.savings }
  | some (.error (.thrown exception)) =>
      some { s with
        server := (s.server.drop request conn).answer request (failure env.what exception) }
  | _ => none

def write (s : State) (saving : Saving) : Option State :=
  if saving.configured then none
  else
    match (outputRelayData saving.env.world "Configuration.csv".toList saving.relay).out
      ⟨s.server.store, 0⟩ with
    | (.ok _, session) =>
        some {
          server := { s.server with store := session.store }
          savings := { saving with configured := true } :: s.others saving.conn }
    | _ => none

def insert (s : State) (saving : Saving) : Option State :=
  if saving.configured then
    (saving.saver.call saving.env.world).map fun saver =>
      { server := { s.server with store := { s.server.store with
          rows := s.server.store.rows ++ saving.saver.inserts saving.env.world } }
        savings := { saving with saver } :: s.others saving.conn }
  else none

def finish (s : State) (saving : Saving) (notified : Option Request) : Option State :=
  if saving.configured then
    match saving.saver.result with
    | some (.ok ()) =>
        (s.server.clients.giveBack saving.request saving.conn notified).map fun clients =>
          { server := { s.server with clients }.answer saving.request
              ⟨.ok, "relayAmount:".toList ++ numeral saving.relay.relayAmount⟩
            savings := s.others saving.conn }
    | some (.error (.thrown exception)) =>
        some {
          server := (s.server.drop saving.request saving.conn).answer saving.request
            (failure saving.env.what exception)
          savings := s.others saving.conn }
    | _ => none
  else none

def client (s : State) (e : Server.Event) : Option State :=
  (s.server.step e).map fun server => { s with server }

def step (s : State) : Event → Option State
  | .arrive request connects what => s.client (.arrive request connects what)
  | .rerun request connects what => s.client (.rerun request connects what)
  | .spurious request => s.client (.spurious request)
  | .convert request conn env fuel =>
      if s.server.clients.lent.contains (request, conn) ∧ (s.saving conn).isNone then
        s.convert request conn env fuel
      else none
  | .write conn => (s.saving conn).bind s.write
  | .call conn => (s.saving conn).bind s.insert
  | .finish conn notified => (s.saving conn).bind (s.finish · notified)

/-- The steps of `Server.State` that a step stands for: a request that has to save ends
there with its last step, and its calls before that are none. -/
def stands (s : State) : Event → List Server.Event
  | .arrive request connects what => [.arrive request connects what]
  | .rerun request connects what => [.rerun request connects what]
  | .spurious request => [.spurious request]
  | .convert request conn env fuel =>
      match request.conversion env fuel with
      | some (.error _) => [.finish request conn env fuel none]
      | _ => []
  | .write _ => []
  | .call _ => []
  | .finish conn notified =>
      (s.saving conn).toList.map fun saving =>
        .finish saving.request conn saving.env saving.fuel notified

def ends (s : State) : Event → List (Table × List Value)
  | .finish conn _ =>
      (s.saving conn).toList.flatMap fun saving => leaves saving.request saving.env saving.fuel
  | _ => []

theorem write_eq_some {s next : State} {saving : Saving}
    (amount : saving.relay.relayData.length = saving.relay.relayAmount)
    (possible : s.write saving = some next) :
    saving.configured = false ∧ next = {
      server := { s.server with store := { s.server.store with
        files := configured saving.env.world saving.relay s.server.store.files } }
      savings := { saving with configured := true } :: s.others saving.conn } := by
  rw [write, Option.ite_none_left_eq_some, outputRelayData_written _ _ amount] at possible
  obtain ⟨unwritten, same⟩ := possible
  cases same
  exact ⟨Bool.eq_false_iff.mpr unwritten, rfl⟩

theorem insert_eq_some {s next : State} {saving : Saving} (possible : s.insert saving = some next) :
    saving.configured = true ∧ ∃ saver, saving.saver.call saving.env.world = some saver ∧ next = {
      server := { s.server with store := { s.server.store with
        rows := s.server.store.rows ++ saving.saver.inserts saving.env.world } }
      savings := { saving with saver } :: s.others saving.conn } := by
  rw [insert, Option.ite_none_right_eq_some] at possible
  obtain ⟨written, possible⟩ := possible
  obtain ⟨saver, called, same⟩ := Option.map_eq_some_iff.mp possible
  exact ⟨written, saver, called, same.symm⟩

inductive Finished (s : State) (saving : Saving) (notified : Option Request) : State → Prop
  | returned (clients : System Request) (stopped : saving.saver.result = some (.ok ()))
      (gave : s.server.clients.giveBack saving.request saving.conn notified = some clients) :
      Finished s saving notified {
        server := { s.server with clients }.answer saving.request
          ⟨.ok, "relayAmount:".toList ++ numeral saving.relay.relayAmount⟩
        savings := s.others saving.conn }
  | failed (exception : Exception)
      (stopped : saving.saver.result = some (.error (.thrown exception))) :
      Finished s saving notified {
        server := (s.server.drop saving.request saving.conn).answer saving.request
          (failure saving.env.what exception)
        savings := s.others saving.conn }

theorem finished {s next : State} {saving : Saving} {notified : Option Request}
    (possible : s.finish saving notified = some next) :
    saving.configured = true ∧ s.Finished saving notified next := by
  rw [finish, Option.ite_none_right_eq_some] at possible
  obtain ⟨written, possible⟩ := possible
  refine ⟨written, ?_⟩
  split at possible
  · rename_i stopped
    obtain ⟨clients, gave, rfl⟩ := Option.map_eq_some_iff.mp possible
    exact .returned clients stopped gave
  · rename_i exception stopped
    cases possible
    exact .failed exception stopped
  · cases possible

end State

def Client : Server.Event → Prop
  | .finish _ _ _ _ _ => False
  | _ => True

theorem acquire_store (s : Server.State) (store : Store) (request : Request) (connects : Bool)
    (what : Exception → Text) :
    { s with store }.acquire request connects what =
      { s.acquire request connects what with store } := by
  unfold Server.State.acquire
  dsimp only
  split <;> rfl

theorem step_store (s : Server.State) (store : Store) {e : Server.Event} (client : Client e) :
    { s with store }.step e = (s.step e).map fun next => { next with store } := by
  cases e with
  | arrive request connects what =>
      have same : { s with store }.inProgress = s.inProgress := rfl
      rw [Server.State.step, Server.State.step, same]
      by_cases busy : request ∈ s.inProgress
      · rw [if_pos busy, if_pos busy]
        rfl
      · rw [if_neg busy, if_neg busy]
        cases request.body.refusal with
        | some response => rfl
        | none => exact congrArg some (acquire_store s store _ _ _)
  | rerun request connects what =>
      have same : { s with store }.clients = s.clients := rfl
      rw [Server.State.step, Server.State.step, same]
      by_cases woken : request ∈ s.clients.woken
      · rw [if_pos woken, if_pos woken]
        exact congrArg some (acquire_store { s with clients := { s.clients with
          woken := s.clients.woken.erase request } } store request connects what)
      · rw [if_neg woken, if_neg woken]
        rfl
  | spurious request =>
      rw [Server.State.step, Server.State.step, Option.map_map]
      rfl
  | finish request conn env fuel notified => cases client

theorem client_keeps {s next : Server.State} {e : Server.Event} (client : Client e)
    (possible : s.step e = some next) :
    next.store = s.store ∧ s.clients.lent ⊆ next.clients.lent := by
  have acquired (s : Server.State) (request : Request) (connects : Bool) (what : Exception → Text) :
      (s.acquire request connects what).store = s.store ∧
        s.clients.lent ⊆ (s.acquire request connects what).clients.lent := by
    have known := s.acquired request connects what
    generalize s.acquire request connects what = next at known ⊢
    cases known with
    | idle conn rest _ => exact ⟨rfl, List.subset_cons_self _ _⟩
    | created _ _ => exact ⟨rfl, List.subset_cons_self _ _⟩
    | threw _ _ => exact ⟨rfl, List.Subset.refl _⟩
    | waits _ _ => exact ⟨rfl, List.Subset.refl _⟩
  cases Server.State.stepped possible with
  | refused request connects what response _ => exact ⟨rfl, List.Subset.refl _⟩
  | arrived request connects what _ _ => exact acquired s request connects what
  | retried request connects what _ =>
      exact acquired { s with clients := { s.clients with
        woken := s.clients.woken.erase request } } request connects what
  | woke request _ => exact ⟨rfl, List.Subset.refl _⟩
  | returned => cases client
  | failed => cases client

/-- The request holds its connection, and has made some of the calls of its `saveData`. -/
structure Sound (lent : List (Request × Nat)) (saving : Saving) : Prop where
  held : (saving.request, saving.conn) ∈ lent
  saves : ∃ input, saving.request.conversion saving.env saving.fuel =
      some (.ok (input, saving.relay)) ∧
    (Saver.begin input saving.relay).Leads saving.env.world saving.saver

theorem Sound.amount {lent : List (Request × Nat)} {saving : Saving} (sound : Sound lent saving) :
    saving.relay.relayData.length = saving.relay.relayAmount := by
  obtain ⟨input, converted, _⟩ := sound.saves
  exact Request.conversion_amount converted

theorem Sound.outcome {lent : List (Request × Nat)} {saving : Saving} {ended : Result Unit}
    (sound : Sound lent saving) (stopped : saving.saver.result = some ended) (store : Store) :
    ∃ next, saving.request.outcome saving.env saving.fuel store =
        some (ended.map fun _ => saving.relay.relayAmount, next) ∧
      next.rows = store.rows ++ saving.saver.written := by
  obtain ⟨input, converted, led⟩ := sound.saves
  have concluded := conclude_saves saving.env.world store input sound.amount
  refine ⟨(saving.saver.session
    { store with files := configured saving.env.world saving.relay store.files }).store, ?_, rfl⟩
  rw [Request.outcome_eq, converted, Option.map_some]
  dsimp only
  rw [concluded, Saver.saveData_of_leads _ led stopped]

theorem Sound.leaves {lent : List (Request × Nat)} {saving : Saving} {ended : Result Unit}
    (sound : Sound lent saving) (stopped : saving.saver.result = some ended) :
    leaves saving.request saving.env saving.fuel = saving.saver.written := by
  obtain ⟨input, converted, led⟩ := sound.saves
  rw [Interleaving.leaves, converted]
  dsimp only
  rw [Saver.saveData_of_leads _ led stopped]
  rfl

theorem Sound.written {lent : List (Request × Nat)} {saving : Saving}
    (sound : Sound lent saving) :
    saving.saver.written <+: Interleaving.leaves saving.request saving.env saving.fuel := by
  obtain ⟨input, converted, led⟩ := sound.saves
  obtain ⟨last, result, finished, stopped, out⟩ :=
    Saver.begin_leads saving.env.world input saving.relay {}
  rw [Interleaving.leaves, converted]
  dsimp only
  rw [out]
  exact Saver.leads_written (Saver.leads_on led finished stopped)

end RelayDev.Interleaving
