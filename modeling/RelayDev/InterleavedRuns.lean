import RelayDev.Interleaving
import RelayDev.Serving

/-! The server with requests that save side by side, and the one that ends each request in
one step: the same connections, and the same answers. -/

namespace RelayDev.Interleaving

open Cpp Text InputData Output Pool RelayConvert Transition Server
open Server.State (sampleEvents sampleBoard)

namespace State

/-- What the database holds besides `store` is what the requests that are still saving have
inserted. -/
structure Follows (s : State) (store : Store) : Prop where
  rows : s.server.store.rows.Perm (store.rows ++ s.savings.flatMap (·.saver.written))
  distinct : (s.savings.map Saving.conn).Nodup
  sound : ∀ saving ∈ s.savings, Sound s.server.clients.lent saving

theorem saving_perm {s : State} {conn : Nat} {saving : Saving}
    (found : s.saving conn = some saving) :
    saving.conn = conn ∧ s.savings.Perm (saving :: s.others conn) := by
  unfold State.saving at found
  unfold others
  generalize s.savings = savings at found ⊢
  induction savings with
  | nil => cases found
  | cons head rest ih =>
      by_cases here : head.conn = conn
      · rw [List.find?_cons_of_pos (by simpa using here)] at found
        cases found
        rw [List.eraseP_cons_of_pos (by simpa using here)]
        exact ⟨here, .refl _⟩
      · rw [List.find?_cons_of_neg (by simpa using here)] at found
        rw [List.eraseP_cons_of_neg (by simpa using here)]
        obtain ⟨same, perm⟩ := ih found
        exact ⟨same, (perm.cons head).trans (.swap _ _ _)⟩

theorem saving_eq_none {s : State} {conn : Nat} (absent : s.saving conn = none) :
    ∀ saving ∈ s.savings, saving.conn ≠ conn := by
  simpa [State.saving] using absent

theorem init_follows (poolSize : Nat) (store : Store) : (init poolSize store).Follows store where
  rows := by simp [init, Server.State.init]
  distinct := List.nodup_nil
  sound := fun _ member => nomatch member

section Found

variable {s : State} {store : Store} {conn : Nat} {saving : Saving}
  (follows : s.Follows store) (found : s.saving conn = some saving)

include follows found

theorem Follows.of_found : Sound s.server.clients.lent saving ∧ saving.conn = conn := by
  exact ⟨follows.sound saving (List.mem_of_find?_eq_some found), (saving_perm found).1⟩

theorem Follows.split : s.server.store.rows.Perm
    (store.rows ++ (saving.saver.written ++ (s.others conn).flatMap (·.saver.written))) :=
  follows.rows.trans (((saving_perm found).2.flatMap_right _).append_left _)

theorem Follows.apart : (saving.conn :: (s.others conn).map Saving.conn).Nodup :=
  ((saving_perm found).2.map Saving.conn).nodup_iff.mp follows.distinct

theorem Follows.others_sound :
    ∀ other ∈ s.others conn,
      Sound (s.server.clients.lent.erase (saving.request, saving.conn)) other := by
  intro other member
  have before := follows.sound other (List.mem_of_mem_eraseP member)
  have apart := (List.nodup_cons.mp (follows.apart found)).1
  have different : (other.request, other.conn) ≠ (saving.request, saving.conn) := by
    intro same
    have conns : other.conn = saving.conn := congrArg Prod.snd same
    rw [← conns] at apart
    exact apart (List.mem_map_of_mem member)
  exact ⟨(List.mem_erase_of_ne different).mpr before.held, before.saves⟩

end Found

theorem ends_finish {s : State} {conn : Nat} {saving : Saving}
    (found : s.saving conn = some saving) (notified : Option Request) :
    s.ends (.finish conn notified) = leaves saving.request saving.env saving.fuel := by
  rw [ends, found, Option.toList_some, List.flatMap_singleton]

def Matches (s next : State) (store : Store) (e : Event) : Prop :=
  ∃ left, left.rows = store.rows ++ s.ends e ∧ next.Follows left ∧
    run Server.State.step { s.server with store } (s.stands e) =
      some { next.server with store := left }

theorem client_matches {s next : State} {store : Store} {e : Server.Event} (client : Client e)
    (follows : s.Follows store) (possible : s.client e = some next) :
    next.Follows store ∧
      run Server.State.step { s.server with store } [e] = some { next.server with store } := by
  obtain ⟨server, stepped, rfl⟩ := Option.map_eq_some_iff.mp possible
  obtain ⟨same, kept⟩ := client_keeps client stepped
  refine ⟨⟨?_, follows.distinct, fun saving member => ?_⟩, run_single ?_⟩
  · rw [same]
    exact follows.rows
  · have before := follows.sound saving member
    exact ⟨kept before.held, before.saves⟩
  · rw [step_store s.server store client, stepped, Option.map_some]

theorem convert_matches {s next : State} {store : Store} {request : Request} {conn : Nat}
    {env : Environment} {fuel : Nat} (follows : s.Follows store)
    (held : (request, conn) ∈ s.server.clients.lent) (absent : s.saving conn = none)
    (possible : s.convert request conn env fuel = some next) :
    s.Matches next store (.convert request conn env fuel) := by
  refine ⟨store, (List.append_nil _).symm, ?_⟩
  rw [stands]
  unfold convert at possible
  split at possible
  · rename_i input relay converted
    cases possible
    rw [converted]
    refine ⟨⟨follows.rows, ?_, fun saving member => ?_⟩, rfl⟩
    · refine List.nodup_cons.mpr ⟨fun member => ?_, follows.distinct⟩
      obtain ⟨saving, before, same⟩ := List.mem_map.mp member
      exact saving_eq_none absent saving before same
    · rcases List.mem_cons.mp member with rfl | before
      · exact ⟨held, input, converted, .refl⟩
      · exact follows.sound saving before
  · rename_i exception converted
    cases possible
    rw [converted]
    have outcome : request.outcome env fuel store = some (.error (.thrown exception), store) := by
      rw [Request.outcome_eq, converted, Option.map_some]
    refine ⟨⟨follows.rows, follows.distinct, fun saving member => ?_⟩, run_single ?_⟩
    · have before := follows.sound saving member
      have different : (saving.request, saving.conn) ≠ (request, conn) := fun same =>
        saving_eq_none absent saving member (congrArg Prod.snd same)
      exact ⟨(List.mem_erase_of_ne different).mpr before.held, before.saves⟩
    · rw [Server.State.step, if_pos held, Server.State.finish, outcome]
      rfl
  · cases possible

theorem Follows.replace {s : State} {store : Store} {conn : Nat} {saving : Saving}
    (follows : s.Follows store) (found : s.saving conn = some saving) {saver : Saver}
    {written : Bool} (sound : Sound s.server.clients.lent { saving with saver, configured := written }) :
    let savings := { saving with saver, configured := written } :: s.others saving.conn
    (savings.map Saving.conn).Nodup ∧ ∀ other ∈ savings, Sound s.server.clients.lent other := by
  obtain rfl := (follows.of_found found).2
  have apart := follows.apart found
  refine ⟨apart, fun other member => ?_⟩
  rcases List.mem_cons.mp member with rfl | before
  · exact sound
  · exact follows.sound other (List.mem_of_mem_eraseP before)

theorem write_matches {s next : State} {store : Store} {conn : Nat} {saving : Saving}
    (follows : s.Follows store) (found : s.saving conn = some saving)
    (possible : s.write saving = some next) : s.Matches next store (.write conn) := by
  obtain ⟨sound, rfl⟩ := follows.of_found found
  obtain ⟨_, rfl⟩ := write_eq_some sound.amount possible
  obtain ⟨distinct, kept⟩ := @Follows.replace _ _ _ _ follows found saving.saver true
    ⟨sound.held, sound.saves⟩
  have rows := follows.split found
  refine ⟨store, (List.append_nil _).symm, ⟨?_, distinct, kept⟩, rfl⟩
  rw [List.flatMap_cons]
  exact rows

theorem insert_matches {s next : State} {store : Store} {conn : Nat} {saving : Saving}
    (follows : s.Follows store) (found : s.saving conn = some saving)
    (possible : s.insert saving = some next) : s.Matches next store (.call conn) := by
  obtain ⟨sound, rfl⟩ := follows.of_found found
  obtain ⟨_, saver, called, rfl⟩ := insert_eq_some possible
  obtain ⟨input, converted, led⟩ := sound.saves
  obtain ⟨distinct, kept⟩ := @Follows.replace _ _ _ _ follows found saver saving.configured
    ⟨sound.held, input, converted, led.tail called⟩
  refine ⟨store, (List.append_nil _).symm, ⟨?_, distinct, kept⟩, rfl⟩
  rw [List.flatMap_cons, Saver.call_written called]
  calc
    List.Perm (s.server.store.rows ++ saving.saver.inserts saving.env.world)
        (store.rows ++ (saving.saver.written ++ (s.others saving.conn).flatMap (·.saver.written)) ++
          saving.saver.inserts saving.env.world) := (follows.split found).append_right _
    List.Perm _ _ := by
      simp only [List.append_assoc]
      exact (List.perm_append_comm.append_left _).append_left _

theorem finish_matches {s next : State} {store : Store} {conn : Nat} {saving : Saving}
    {notified : Option Request} (follows : s.Follows store)
    (found : s.saving conn = some saving) (possible : s.finish saving notified = some next) :
    s.Matches next store (.finish conn notified) := by
  obtain ⟨sound, rfl⟩ := follows.of_found found
  have apart := (List.nodup_cons.mp (follows.apart found)).2
  have kept := follows.others_sound found
  rw [Matches, ends_finish found, stands, found, Option.toList_some, List.map_singleton]
  cases (finished possible).2 with
  | returned clients stopped gave =>
      obtain ⟨left, outcome, rows⟩ := sound.outcome stopped store
      have lent : clients.lent = s.server.clients.lent.erase (saving.request, saving.conn) := by
        rcases Server.State.giveBack_cases gave with ⟨_, rfl⟩ | ⟨_, _, rfl⟩ <;> rfl
      rw [sound.leaves stopped]
      refine ⟨left, rows, ⟨?_, apart, ?_⟩, run_single ?_⟩
      · rw [rows, List.append_assoc]
        exact follows.split found
      · rwa [← lent] at kept
      · rw [Server.State.step, if_pos sound.held, Server.State.finish, outcome]
        exact congrArg (Option.map _) gave
  | failed exception stopped =>
      obtain ⟨left, outcome, rows⟩ := sound.outcome stopped store
      rw [sound.leaves stopped]
      refine ⟨left, rows, ⟨?_, apart, kept⟩, run_single ?_⟩
      · rw [rows, List.append_assoc]
        exact follows.split found
      · rw [Server.State.step, if_pos sound.held, Server.State.finish, outcome]
        rfl

theorem step_matches {s next : State} {store : Store} {e : Event} (follows : s.Follows store)
    (possible : s.step e = some next) : s.Matches next store e := by
  have client {e' : Server.Event} (client : Client e') (possible : s.client e' = some next)
      (stood : s.stands e = [e']) (ended : s.ends e = []) : s.Matches next store e := by
    rw [Matches, stood, ended]
    exact ⟨store, (List.append_nil _).symm, client_matches client follows possible⟩
  cases e with
  | arrive request connects what =>
      exact @client (.arrive request connects what) trivial possible rfl rfl
  | rerun request connects what =>
      exact @client (.rerun request connects what) trivial possible rfl rfl
  | spurious request => exact @client (.spurious request) trivial possible rfl rfl
  | convert request conn env fuel =>
      rw [step, Option.ite_none_right_eq_some] at possible
      obtain ⟨⟨held, absent⟩, possible⟩ := possible
      exact convert_matches follows (List.contains_iff_mem.mp held)
        (Option.isNone_iff_eq_none.mp absent) possible
  | write conn =>
      obtain ⟨saving, found, possible⟩ := Option.bind_eq_some_iff.mp possible
      exact write_matches follows found possible
  | call conn =>
      obtain ⟨saving, found, possible⟩ := Option.bind_eq_some_iff.mp possible
      exact insert_matches follows found possible
  | finish conn notified =>
      obtain ⟨saving, found, possible⟩ := Option.bind_eq_some_iff.mp possible
      exact finish_matches follows found possible

/-- Every run of the server with requests that save side by side is one of the server that
ends each request in one step: the same connections, and the same answers in the same order.
The rows in the database are those that are there, and those of the requests that are
still saving. -/
theorem interleaving_follows (poolSize : Nat) (store : Store) (s : State) (es : List Event)
    (ran : run step (init poolSize store) es = some s) :
    ∃ t, run Server.State.step (.init poolSize store)
        (trace step stands (init poolSize store) es) = some t ∧
      t.clients = s.server.clients ∧ t.closed = s.server.closed ∧ t.answers = s.server.answers ∧
      s.server.store.rows.Perm (t.store.rows ++ s.savings.flatMap (·.saver.written)) := by
  have keeps (s : State) (e : Event) (next : State) (t : Server.State)
      (before : ∃ left, t = { s.server with store := left } ∧ s.Follows left)
      (possible : s.step e = some next) : ∃ t', run Server.State.step t (s.stands e) = some t' ∧
        ∃ left, t' = { next.server with store := left } ∧ next.Follows left := by
    obtain ⟨left, rfl, follows⟩ := before
    obtain ⟨left, _, kept, moved⟩ := step_matches follows possible
    exact ⟨_, moved, left, rfl, kept⟩
  obtain ⟨t, moved, left, rfl, follows⟩ :=
    simulates keeps ⟨store, rfl, init_follows poolSize store⟩ ran
  exact ⟨_, moved, rfl, rfl, rfl, follows.rows⟩

/-- Two requests for one board: the second has ended before the first has come to its
netlist. -/
def sideBySide : List Event :=
  let first : Request := ⟨0, .paths "bom.csv".toList "netlist.txt".toList⟩
  let second : Request := ⟨1, .paths "bom.csv".toList "netlist.txt".toList⟩
  [.arrive first true servedBoard.what, .arrive second true servedBoard.what,
    .convert first 0 servedBoard 60, .convert second 1 servedBoard 60, .write 1, .write 0,
    .call 0, .call 1, .call 0] ++ List.replicate 7 (.call 1) ++ [.call 0, .finish 1 none]

theorem sideBySide_run :
    ∃ s, run step (init 5 {}) sideBySide = some s ∧ s.server.store.rows.map Prod.fst =
      [.inputBOM, .inputBOM, .inputNetlist, .inputNetlist, .inputNetlist, .outputConfigFile] := by
  have ends : (run step (init 5 {}) sideBySide).map (·.server.store.rows.map Prod.fst) =
      some [.inputBOM, .inputBOM, .inputNetlist, .inputNetlist, .inputNetlist,
        .outputConfigFile] := by decide +kernel
  obtain ⟨s, ran, tables⟩ := Option.map_eq_some_iff.mp ends
  exact ⟨s, ran, tables⟩

theorem sideBySide_follows :
    ∃ s t, run step (init 5 {}) sideBySide = some s ∧
      run Server.State.step (.init 5 {}) (trace step stands (init 5 {}) sideBySide) = some t ∧
      t.clients = s.server.clients ∧ t.closed = s.server.closed ∧ t.answers = s.server.answers ∧
      s.server.store.rows.Perm (t.store.rows ++ s.savings.flatMap (·.saver.written)) := by
  obtain ⟨s, ran, _⟩ := sideBySide_run
  obtain ⟨t, follows⟩ := interleaving_follows 5 {} s sideBySide ran
  exact ⟨s, t, ran, follows⟩

theorem client_alone {t next : Server.State} {e : Server.Event} (possible : t.step e = some next) :
    State.client ⟨t, []⟩ e = some ⟨next, []⟩ := by
  rw [State.client, possible, Option.map_some]

theorem saving_single (server : Server.State) (saving : Saving) :
    State.saving ⟨server, [saving]⟩ saving.conn = some saving := by
  simp [State.saving]

theorem others_single (server : Server.State) (saving : Saving) :
    State.others ⟨server, [saving]⟩ saving.conn = [] := by
  simp [others]

theorem run_calls {saver last : Saver} {saving : Saving} (led : saver.Leads saving.env.world last)
    (written : saving.configured = true) (server : Server.State)
    (rows : List (Table × List Value)) :
    ∃ es, run step
      ⟨{ server with store := { server.store with rows := rows ++ saver.written } },
        [{ saving with saver }]⟩ es = some
      ⟨{ server with store := { server.store with rows := rows ++ last.written } },
        [{ saving with saver := last }]⟩ := by
  induction led with
  | refl => exact ⟨[], rfl⟩
  | @tail middle last _ called ih =>
      obtain ⟨es, ran⟩ := ih
      refine ⟨es ++ [.call saving.conn], run_append.mpr ⟨_, ran, run_single ?_⟩⟩
      have found := saving_single
        { server with store := { server.store with rows := rows ++ middle.written } }
        { saving with saver := middle }
      rw [step, found, Option.bind_some, insert, if_pos written, called, Option.map_some,
        others_single, Saver.call_written called, List.append_assoc]

theorem run_saving {t : Server.State} {request : Request} {conn : Nat} {env : Environment}
    {fuel : Nat} {input : Input} {relay : Relay} {last : Saver}
    (held : (request, conn) ∈ t.clients.lent)
    (converted : request.conversion env fuel = some (.ok (input, relay)))
    (led : (Saver.begin input relay).Leads env.world last) :
    ∃ es, run step ⟨t, []⟩ es = some ⟨{ t with store := (last.session
      { t.store with files := configured env.world relay t.store.files }).store },
        [⟨request, conn, env, fuel, relay, true, last⟩]⟩ := by
  let saving : Saving := ⟨request, conn, env, fuel, relay, false, .begin input relay⟩
  have begun : step ⟨t, []⟩ (.convert request conn env fuel) = some ⟨t, [saving]⟩ := by
    rw [step, if_pos ⟨List.contains_iff_mem.mpr held, rfl⟩, convert, converted]
  have wrote : step ⟨t, [saving]⟩ (.write conn) = some ⟨{ t with store := { t.store with
      files := configured env.world relay t.store.files
      rows := t.store.rows ++ (Saver.begin input relay).written } },
        [{ saving with configured := true }]⟩ := by
    have found : State.saving ⟨t, [saving]⟩ conn = some saving := saving_single t saving
    have unwritten : ¬ saving.configured = true := Bool.false_ne_true
    have none : State.others ⟨t, [saving]⟩ saving.conn = [] := others_single t saving
    rw [step, found, Option.bind_some, write, if_neg unwritten,
      outputRelayData_written _ _ (Request.conversion_amount converted), none]
    simp [saving, Saver.begin]
  obtain ⟨es, called⟩ := @run_calls _ _ { saving with configured := true } led rfl
    { t with store := { t.store with files := configured env.world relay t.store.files } }
    t.store.rows
  exact ⟨_, run_append.mpr ⟨_, run_single begun, run_append.mpr ⟨_, run_single wrote, called⟩⟩⟩

theorem finish_alone {t next : Server.State} {request : Request} {conn : Nat}
    {env : Environment} {fuel : Nat} {notified : Option Request}
    (possible : t.step (.finish request conn env fuel notified) = some next) :
    ∃ es, run step ⟨t, []⟩ es = some ⟨next, []⟩ := by
  rw [Server.State.step, Option.ite_none_right_eq_some] at possible
  obtain ⟨held, possible⟩ := possible
  rw [Server.State.finish, Request.outcome_eq] at possible
  rcases converted : request.conversion env fuel with _ | ⟨⟨exception⟩ | _⟩ | ⟨input, relay⟩
  · rw [converted] at possible
    cases possible
  · rw [converted] at possible
    cases possible
    refine ⟨[.convert request conn env fuel], run_single ?_⟩
    rw [step, if_pos ⟨List.contains_iff_mem.mpr held, rfl⟩, convert, converted]
  · rw [converted] at possible
    cases possible
  · have concluded :=
      conclude_saves env.world t.store input (Request.conversion_amount converted)
    obtain ⟨last, result, led, stopped, out⟩ := Saver.begin_leads env.world input relay
      { t.store with files := configured env.world relay t.store.files }
    obtain ⟨es, saved⟩ := run_saving held converted led
    rw [converted, Option.map_some] at possible
    dsimp only at possible
    rw [concluded, out] at possible
    refine ⟨es ++ [.finish conn notified], run_append.mpr ⟨_, saved, run_single ?_⟩⟩
    have found := saving_single { t with store := (last.session
      { t.store with files := configured env.world relay t.store.files }).store }
      ⟨request, conn, env, fuel, relay, true, last⟩
    rw [step, found, Option.bind_some, finish, if_pos rfl, others_single]
    dsimp only at possible ⊢
    rw [stopped]
    rcases result with ⟨⟨exception⟩ | _⟩ | _
    · cases possible
      rfl
    · cases possible
    · obtain ⟨clients, gave, rfl⟩ := Option.map_eq_some_iff.mp possible
      dsimp only
      rw [gave]
      rfl

/-- Every run of the server that ends each request in one step is one of the server with
requests that save side by side, in the database and in the files: its requests can make their
calls one after the other. -/
theorem interleaving_covers (poolSize : Nat) (store : Store) (t : Server.State)
    (es : List Server.Event) (ran : run Server.State.step (.init poolSize store) es = some t) :
    ∃ fs s, run step (init poolSize store) fs = some s ∧ s.savings = [] ∧
      s.server.clients = t.clients ∧ s.server.closed = t.closed ∧ s.server.answers = t.answers ∧
      s.server.store.rows = t.store.rows ∧ s.server.store.files = t.store.files := by
  have keeps (t : Server.State) (e : Server.Event) (next : Server.State) (s : State)
      (alone : s = ⟨t, []⟩) (possible : t.step e = some next) :
      ∃ fs s', run step s fs = some s' ∧ s' = ⟨next, []⟩ := by
    subst alone
    cases e with
    | arrive request connects what =>
        exact ⟨[.arrive request connects what], _, run_single (client_alone possible), rfl⟩
    | rerun request connects what =>
        exact ⟨[.rerun request connects what], _, run_single (client_alone possible), rfl⟩
    | spurious request => exact ⟨[.spurious request], _, run_single (client_alone possible), rfl⟩
    | finish request conn env fuel notified =>
        obtain ⟨fs, moved⟩ := finish_alone possible
        exact ⟨fs, _, moved, rfl⟩
  obtain ⟨fs, s, moved, rfl⟩ := simulates_some keeps rfl ran
  exact ⟨fs, _, moved, rfl, rfl, rfl, rfl, rfl, rfl⟩

theorem sampleBoard_covers :
    ∃ t fs s, run Server.State.step (.init 5 {}) (sampleEvents sampleBoard) = some t ∧
      run step (init 5 {}) fs = some s ∧ s.savings = [] ∧
      s.server.clients = t.clients ∧ s.server.closed = t.closed ∧ s.server.answers = t.answers ∧
      s.server.store.rows = t.store.rows ∧ s.server.store.files = t.store.files := by
  have ends : (run Server.State.step (.init 5 {}) (sampleEvents sampleBoard)).isSome = true := by
    decide +kernel
  obtain ⟨t, ran⟩ := Option.isSome_iff_exists.mp ends
  obtain ⟨fs, s, covers⟩ := interleaving_covers 5 {} t (sampleEvents sampleBoard) ran
  exact ⟨t, fs, s, ran, covers⟩

end State

end RelayDev.Interleaving
