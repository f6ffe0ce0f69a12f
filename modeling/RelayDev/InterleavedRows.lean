import RelayDev.InterleavedRuns

/-! The tables when requests save side by side: what each request has left in them, and what
the answers say about it. -/

namespace RelayDev.Interleaving

open Cpp Text InputData Output Pool RelayConvert Transition Server

namespace State

theorem step_alone {store : Store} (s : State) (e : Event) (next : State)
    (emitted : List (Table × List Value)) (before : s.Follows ⟨store.rows ++ emitted, []⟩)
    (possible : s.step e = some next) :
    next.Follows ⟨store.rows ++ (emitted ++ s.ends e), []⟩ := by
  obtain ⟨left, rows, kept, _⟩ := step_matches before possible
  refine ⟨?_, kept.distinct, kept.sound⟩
  rw [← List.append_assoc, ← rows]
  exact kept.rows

theorem init_alone (poolSize : Nat) (store : Store) :
    (init poolSize store).Follows ⟨store.rows ++ [], []⟩ := by
  obtain ⟨rows, distinct, sound⟩ := init_follows poolSize store
  rw [List.append_nil]
  exact ⟨rows, distinct, sound⟩

/-- However the calls of the requests interleave, each request that has ended has left what
it leaves on its own, and each that is still saving the beginning of it. -/
theorem rows_alone (poolSize : Nat) (store : Store) (s : State) (es : List Event)
    (ran : run step (init poolSize store) es = some s) :
    s.server.store.rows.Perm (store.rows ++ trace step ends (init poolSize store) es ++
        s.savings.flatMap (·.saver.written)) ∧
      ∀ saving ∈ s.savings,
        saving.saver.written <+: leaves saving.request saving.env saving.fuel := by
  have follows := trace_invariant step_alone (init_alone poolSize store) ran
  rw [List.nil_append] at follows
  exact ⟨follows.rows, fun saving member => (follows.sound saving member).written⟩

theorem sideBySide_alone :
    ∃ s, run step (init 5 {}) sideBySide = some s ∧
      s.server.store.rows.Perm (([] : List (Table × List Value)) ++
        trace step ends (init 5 {}) sideBySide ++ s.savings.flatMap (·.saver.written)) ∧
      ∀ saving ∈ s.savings,
        saving.saver.written <+: leaves saving.request saving.env saving.fuel := by
  obtain ⟨s, ran, _⟩ := sideBySide_run
  exact ⟨s, ran, rows_alone 5 {} s sideBySide ran⟩

def records (rows : List (Table × List Value)) : Nat := rows.countP (·.1 = .outputConfigFile)

theorem records_append (first second : List (Table × List Value)) :
    records (first ++ second) = records first + records second := List.countP_append

def amount (response : Response) : Nat :=
  if response.status = .ok then
    Nat.ofDigitChars 10 (response.body.drop "relayAmount:".length) 0
  else 0

theorem amount_ok (relayAmount : Nat) :
    amount ⟨.ok, "relayAmount:".toList ++ numeral relayAmount⟩ = relayAmount := by
  rw [amount, if_pos rfl]
  exact numeral_value relayAmount

theorem amount_of_ne {response : Response} (failed : response.status ≠ .ok) :
    amount response = 0 := if_neg failed

theorem records_saved {world : World} {input : Input} {relay : Relay} {last : Saver}
    (led : (Saver.begin input relay).Leads world last) (returned : last.result = some (.ok ())) :
    records last.written ≤ relay.relayAmount ∧
      ((∀ k, world.databaseThrows k = false) → records last.written = relay.relayAmount) := by
  have saved := Saver.saveData_of_leads {} led returned
  obtain ⟨_, _, calls, more, ended⟩ := saveData_inserts saved
  have count : (inserted .outputConfigFile {} (last.session {}).store).length =
      records last.written := by
    simp [inserted, Saver.session, records, List.countP_eq_length_filter]
  have bound := ended.length_le
  rw [configRows_length, count] at bound
  refine ⟨bound, fun calm => ?_⟩
  have whole := congrArg List.length (ended.whole_iff.mpr (quiet_of_calm calm _ _))
  rw [configRows_length, List.length_map, count] at whole
  exact whole.symm

theorem records_failed {world : World} {input : Input} {relay : Relay} {last : Saver}
    {exception : Exception} (led : (Saver.begin input relay).Leads world last)
    (failed : last.result = some (.error (.thrown exception))) : records last.written = 0 := by
  have blocks := savedData world input relay ⟨{}, 0⟩
  rw [Saver.saveData_of_leads {} led failed] at blocks
  cases blocks with
  | bill bills =>
      obtain ⟨values, _, _, _, same⟩ := bills.of_error
      have written : last.written = values.map (.inputBOM, ·) :=
        (congrArg (fun s : Session => s.store.rows) same).trans (List.nil_append _)
      rw [written]
      simp [records]
  | netlist _ nets => cases netlistRows_eq_error nets.error_mem
  | config _ _ configs => cases configRows_eq_error configs.error_mem

def Quiet : Event → Prop
  | .convert _ _ env _ => ∀ k, env.world.databaseThrows k = false
  | _ => True

def amounts (s : Server.State) : Nat :=
  s.answers.foldr (fun answer total => amount answer.2 + total) 0

theorem amounts_answer (s : Server.State) (request : Request) (response : Response) :
    amounts (s.answer request response) = amount response + amounts s := rfl

theorem client_amounts {s next : Server.State} {e : Server.Event} (client : Client e)
    (possible : s.step e = some next) : amounts next = amounts s := by
  have acquired (s : Server.State) (request : Request) (connects : Bool) (what : Exception → Text) :
      amounts (s.acquire request connects what) = amounts s := by
    have known := s.acquired request connects what
    generalize s.acquire request connects what = next at known ⊢
    cases known with
    | idle conn rest _ => rfl
    | created _ _ => rfl
    | threw _ _ =>
        rw [amounts_answer, amount_of_ne (failure_status _ _), Nat.zero_add]
        rfl
    | waits _ _ => rfl
  cases Server.State.stepped possible with
  | refused request connects what response refusal =>
      rw [amounts_answer, amount_of_ne (Request.refusal_status refusal).2.2, Nat.zero_add]
  | arrived request connects what _ _ => exact acquired s request connects what
  | retried request connects what _ =>
      exact acquired { s with clients := { s.clients with
        woken := s.clients.woken.erase request } } request connects what
  | woke request _ => rfl
  | returned => cases client
  | failed => cases client

/-- The configurations that ended requests have left, against the amounts they were answered
with, where `quiet` says that the database refuses nothing. -/
structure Accounted (quiet : Prop) (store : Store) (s : State)
    (emitted : List (Table × List Value)) : Prop where
  follows : s.Follows ⟨store.rows ++ emitted, []⟩
  calm : quiet → ∀ saving ∈ s.savings, ∀ k, saving.env.world.databaseThrows k = false
  bound : records emitted ≤ amounts s.server
  exact : quiet → records emitted = amounts s.server

theorem failed_amounts (s : Server.State) (request : Request) (conn : Nat)
    (what : Exception → Text) (exception : Exception) :
    amounts ((s.drop request conn).answer request (failure what exception)) = amounts s := by
  rw [amounts_answer, amount_of_ne (failure_status _ _), Nat.zero_add]
  rfl

section Accounted

variable {quiet : Prop} {store : Store} {s next : State} {emitted : List (Table × List Value)}

theorem Accounted.keep (before : Accounted quiet store s emitted)
    (follows : next.Follows ⟨store.rows ++ emitted, []⟩)
    (same : amounts next.server = amounts s.server)
    (calm : quiet → ∀ saving ∈ next.savings, ∀ k, saving.env.world.databaseThrows k = false) :
    Accounted quiet store next emitted := by
  refine ⟨follows, calm, ?_, ?_⟩
  · rw [same]
    exact before.bound
  · rw [same]
    exact before.exact

theorem client_accounted {e : Server.Event} (client : Client e)
    (before : Accounted quiet store s emitted) (possible : s.client e = some next)
    (follows : next.Follows ⟨store.rows ++ emitted, []⟩) :
    Accounted quiet store next emitted := by
  obtain ⟨server, stepped, rfl⟩ := Option.map_eq_some_iff.mp possible
  exact before.keep follows (client_amounts client stepped) before.calm

theorem convert_accounted {request : Request} {conn : Nat} {env : Environment} {fuel : Nat}
    (before : Accounted quiet store s emitted)
    (calm : quiet → ∀ k, env.world.databaseThrows k = false)
    (possible : s.convert request conn env fuel = some next)
    (follows : next.Follows ⟨store.rows ++ emitted, []⟩) :
    Accounted quiet store next emitted := by
  unfold convert at possible
  split at possible
  · cases possible
    refine before.keep follows rfl fun quiet saving member => ?_
    rcases List.mem_cons.mp member with rfl | earlier
    · exact calm quiet
    · exact before.calm quiet saving earlier
  · cases possible
    exact before.keep follows (failed_amounts _ _ _ _ _) before.calm
  · cases possible

theorem Accounted.replace (before : Accounted quiet store s emitted) {conn : Nat}
    {saving : Saving} (found : s.saving conn = some saving) (saver : Saver) (written : Bool) :
    quiet → ∀ other ∈ { saving with saver, configured := written } :: s.others saving.conn,
      ∀ k, other.env.world.databaseThrows k = false := by
  intro quiet other member
  rcases List.mem_cons.mp member with rfl | earlier
  · exact before.calm quiet saving (List.mem_of_find?_eq_some found)
  · exact before.calm quiet other (List.mem_of_mem_eraseP earlier)

theorem write_accounted {conn : Nat} {saving : Saving}
    (before : Accounted quiet store s emitted) (found : s.saving conn = some saving)
    (possible : s.write saving = some next)
    (follows : next.Follows ⟨store.rows ++ emitted, []⟩) :
    Accounted quiet store next emitted := by
  obtain ⟨_, rfl⟩ := write_eq_some (before.follows.of_found found).1.amount possible
  exact before.keep follows rfl (before.replace found saving.saver true)

theorem insert_accounted {conn : Nat} {saving : Saving}
    (before : Accounted quiet store s emitted) (found : s.saving conn = some saving)
    (possible : s.insert saving = some next)
    (follows : next.Follows ⟨store.rows ++ emitted, []⟩) :
    Accounted quiet store next emitted := by
  obtain ⟨_, saver, _, rfl⟩ := insert_eq_some possible
  exact before.keep follows rfl (before.replace found saver saving.configured)

theorem finish_accounted {conn : Nat} {saving : Saving} {notified : Option Request}
    (before : Accounted quiet store s emitted) (found : s.saving conn = some saving)
    (possible : s.finish saving notified = some next)
    (follows : next.Follows ⟨store.rows ++ (emitted ++ s.ends (.finish conn notified)), []⟩) :
    Accounted quiet store next (emitted ++ s.ends (.finish conn notified)) := by
  have sound := (before.follows.of_found found).1
  obtain ⟨input, _, led⟩ := sound.saves
  have others : quiet → ∀ other ∈ s.others saving.conn, ∀ k,
      other.env.world.databaseThrows k = false := fun quiet other member =>
    before.calm quiet other (List.mem_of_mem_eraseP member)
  have left {ended : Result Unit} (stopped : saving.saver.result = some ended) :
      s.ends (.finish conn notified) = saving.saver.written :=
    (ends_finish found notified).trans (sound.leaves stopped)
  cases (finished possible).2 with
  | returned clients stopped _ =>
      obtain ⟨bound, exact⟩ := records_saved led stopped
      have same : amounts ({ s.server with clients }.answer saving.request
          ⟨.ok, "relayAmount:".toList ++ numeral saving.relay.relayAmount⟩) =
            saving.relay.relayAmount + amounts s.server := by
        rw [amounts_answer, amount_ok]
        rfl
      rw [left stopped] at follows ⊢
      refine ⟨follows, others, ?_, fun quiet => ?_⟩
      · rw [same, records_append, Nat.add_comm]
        exact Nat.add_le_add bound before.bound
      · have calm := before.calm quiet saving (List.mem_of_find?_eq_some found)
        rw [same, records_append, Nat.add_comm, exact calm, before.exact quiet]
  | failed exception stopped =>
      rw [left stopped] at follows ⊢
      refine ⟨follows, others, ?_, fun quiet => ?_⟩
      · rw [failed_amounts, records_append, records_failed led stopped]
        exact before.bound
      · rw [failed_amounts, records_append, records_failed led stopped]
        exact before.exact quiet

end Accounted

theorem step_accounted {quiet : Prop} {store : Store} (s : State) (e : Event) (next : State)
    (emitted : List (Table × List Value)) (before : Accounted quiet store s emitted)
    (calm : quiet → Quiet e) (possible : s.step e = some next) :
    Accounted quiet store next (emitted ++ s.ends e) := by
  have follows := step_alone s e next emitted before.follows possible
  have silent {e : Event} (none : s.ends e = []) : emitted ++ s.ends e = emitted := by
    rw [none, List.append_nil]
  cases e with
  | arrive request connects what =>
      rw [silent rfl] at follows ⊢
      exact @client_accounted _ _ _ _ _ (.arrive request connects what) trivial before possible
        follows
  | rerun request connects what =>
      rw [silent rfl] at follows ⊢
      exact @client_accounted _ _ _ _ _ (.rerun request connects what) trivial before possible
        follows
  | spurious request =>
      rw [silent rfl] at follows ⊢
      exact @client_accounted _ _ _ _ _ (.spurious request) trivial before possible follows
  | convert request conn env fuel =>
      rw [silent rfl] at follows ⊢
      rw [step, Option.ite_none_right_eq_some] at possible
      exact convert_accounted before calm possible.2 follows
  | write conn =>
      rw [silent rfl] at follows ⊢
      obtain ⟨saving, found, possible⟩ := Option.bind_eq_some_iff.mp possible
      exact write_accounted before found possible follows
  | call conn =>
      rw [silent rfl] at follows ⊢
      obtain ⟨saving, found, possible⟩ := Option.bind_eq_some_iff.mp possible
      exact insert_accounted before found possible follows
  | finish conn notified =>
      obtain ⟨saving, found, possible⟩ := Option.bind_eq_some_iff.mp possible
      exact finish_accounted before found possible follows

/-- What a request leaves that the step answers with an error. -/
def failures (s : State) : Event → List (Table × List Value)
  | .convert request _ env fuel =>
      match request.conversion env fuel with
      | some (.error _) => leaves request env fuel
      | _ => []
  | .finish conn _ =>
      (s.saving conn).toList.flatMap fun saving =>
        match saving.saver.result with
        | some (.error _) => leaves saving.request saving.env saving.fuel
        | _ => []
  | _ => []

theorem failures_records {s next : State} {store : Store} {e : Event} (follows : s.Follows store)
    (possible : s.step e = some next) : records (s.failures e) = 0 := by
  cases e with
  | arrive => rfl
  | rerun => rfl
  | spurious => rfl
  | convert request conn env fuel =>
      rcases converted : request.conversion env fuel with _ | fault | converted'
      · rw [failures, converted]
        rfl
      · rw [failures, leaves, converted]
        rfl
      · rw [failures, converted]
        rfl
  | write => rfl
  | call => rfl
  | finish conn notified =>
      obtain ⟨saving, found, possible⟩ := Option.bind_eq_some_iff.mp possible
      have sound := (follows.of_found found).1
      obtain ⟨input, _, led⟩ := sound.saves
      rw [failures, found, Option.toList_some, List.flatMap_singleton]
      cases (finished possible).2 with
      | returned _ stopped _ =>
          rw [stopped]
          rfl
      | failed exception stopped =>
          rw [sound.leaves stopped, stopped]
          exact records_failed led stopped

theorem step_failures (s : State) (e : Event) (next : State)
    (emitted : List (Table × List Value))
    (before : (∃ store, s.Follows store) ∧ records emitted = 0) (possible : s.step e = some next) :
    (∃ store, next.Follows store) ∧ records (emitted ++ s.failures e) = 0 := by
  obtain ⟨⟨store, follows⟩, none⟩ := before
  obtain ⟨left, _, kept, _⟩ := step_matches follows possible
  refine ⟨⟨left, kept⟩, ?_⟩
  rw [records_append, none, failures_records follows possible]

/-- In every run of requests that save side by side there are never more configurations of
relays in the database than were answered for, besides those of requests that are still
saving, and where the database refuses nothing there are exactly as many; requests answered
with an error leave none. -/
theorem amounts_stored (poolSize : Nat) (store : Store) (s : State) (es : List Event)
    (ran : run step (init poolSize store) es = some s) :
    records s.server.store.rows ≤ records store.rows + amounts s.server +
        records (s.savings.flatMap (·.saver.written)) ∧
      ((∀ e ∈ es, Quiet e) → records s.server.store.rows =
        records store.rows + amounts s.server +
          records (s.savings.flatMap (·.saver.written))) ∧
      records (trace step failures (init poolSize store) es) = 0 := by
  have start : Accounted (∀ e ∈ es, Quiet e) store (init poolSize store) [] :=
    ⟨init_alone poolSize store, fun _ => List.forall_mem_nil _, Nat.le_refl _, fun _ => rfl⟩
  have accounted := guarded_trace_invariant step_accounted start
    (guarded_of_forall _ fun e member calm => calm e member) ran
  have none : (∃ left, (init poolSize store).Follows left) ∧ records [] = 0 :=
    ⟨⟨store, init_follows poolSize store⟩, rfl⟩
  have failed := trace_invariant step_failures none ran
  have rows := accounted.follows.rows.countP_eq (·.1 = .outputConfigFile)
  have count : records s.server.store.rows = records store.rows +
      records (trace step ends (init poolSize store) es) +
        records (s.savings.flatMap (·.saver.written)) := by
    rw [← records_append, ← records_append]
    exact rows
  refine ⟨?_, fun calm => ?_, failed.2⟩
  · rw [count]
    exact Nat.add_le_add_right (Nat.add_le_add_left accounted.bound _) _
  · rw [count]
    exact congrArg (records store.rows + · + _) (accounted.exact calm)

theorem sideBySide_amounts :
    ∃ s, run step (init 5 {}) sideBySide = some s ∧ records s.server.store.rows = 1 ∧
      records s.server.store.rows ≤ records [] + amounts s.server +
          records (s.savings.flatMap (·.saver.written)) ∧
        ((∀ e ∈ sideBySide, Quiet e) → records s.server.store.rows =
          records [] + amounts s.server + records (s.savings.flatMap (·.saver.written))) ∧
        records (trace step failures (init 5 {}) sideBySide) = 0 := by
  obtain ⟨s, ran, tables⟩ := sideBySide_run
  refine ⟨s, ran, ?_, amounts_stored 5 {} s sideBySide ran⟩
  have counted : records s.server.store.rows =
      (s.server.store.rows.map Prod.fst).countP (· = .outputConfigFile) := by
    rw [records, List.countP_map]
    rfl
  rw [counted, tables]
  rfl

end State

end RelayDev.Interleaving
