import RelayDev.InterleavedRuns
import RelayDev.StandaloneFile

/-! `Configuration.csv` when requests save side by side: one file, written anew by each request
that converts its board, before it saves and whatever it is answered with. -/

namespace RelayDev.Server

open Cpp Text InputData Output Netlist RelayConvert
open Standalone (Delimited csvLine csvLine_unbroken readRecord_csvLine_iff
  recordValues_absent convertEnum_foreign mapM_read_iff)

def readConfiguration (content : Text) : Option (List RelayData) :=
  (textLines content).mapM fun line => (recordCells line).bind readRecord

theorem configLine_csv (entry : RelayData) :
    configLine entry = "RELAY(".toList ++ csvLine entry ++ [')'] := rfl

theorem textLines_configuration {relay : Relay}
    (delimited : ∀ entry ∈ relay.relayData, Delimited entry) :
    textLines (configuration relay) = relay.relayData.map configLine := by
  apply textLines_intercalate
  · intro line member broken
    obtain ⟨entry, listed, rfl⟩ := List.mem_map.mp member
    obtain ⟨name, others⟩ := delimited entry listed
    have inside : '\n' ∉ csvLine entry := csvLine_unbroken (others '\n' (.inr rfl) name)
    rw [configLine_csv, List.mem_append, List.mem_append] at broken
    rcases broken with (front | broken) | last
    · exact absurd front (by decide)
    · exact inside broken
    · exact absurd last (by decide)
  · intro line member
    obtain ⟨entry, _, rfl⟩ := List.mem_map.mp member
    simp [configLine_csv]

theorem readConfiguration_iff {relay : Relay}
    (delimited : ∀ entry ∈ relay.relayData, Delimited entry) :
    readConfiguration (configuration relay) = some relay.relayData ↔
      ∀ entry ∈ relay.relayData, ',' ∉ entry.relayName := by
  rw [readConfiguration, textLines_configuration delimited, mapM_read_iff]
  refine forall₂_congr fun entry member => ?_
  rw [configLine_csv, recordCells_framed, Option.bind_some]
  exact readRecord_csvLine_iff ((delimited entry member).2 ',' (.inl rfl))

theorem entry_delimited {uninit : Uninit} {input : Input} {temp entry : RelayData} {relay : Relay}
    (names : ∀ net ∈ input.relayList, ∀ name ∈ net.name, '\n' ∉ name)
    (models : ∀ model ∈ input.modelData, IsCell model.driveStrength)
    (stored : Entry uninit input temp relay entry) : Delimited entry := by
  obtain ⟨net, current, named⟩ := stored.name
  have enumeration : Standalone.convertEnum entry.relayName = .ok entry.enumeration := by
    rw [← stored.enumeration, convertEnum, index_of_getElem? current, ok_bind,
      index_of_getElem? named, ok_bind]
    rfl
  constructor
  · exact names net (List.mem_of_getElem? current) _ (List.mem_of_getElem? named)
  · intro c foreign absent
    exact recordValues_absent foreign (convertPin_cell stored.pin)
      (convertEnum_foreign foreign absent enumeration) (convertPort_cell stored.port)
      (entry_driveStrength_cell models stored) (convertNormalState_cell stored.normalState) absent

theorem Request.conversion_delimited {request : Request} {env : Environment} {fuel : Nat}
    {input : Input} {relay : Relay}
    (converted : request.conversion env fuel = some (.ok (input, relay))) :
    ∀ entry ∈ relay.relayData, Delimited entry := by
  obtain ⟨billName, netlistName, filled, ran⟩ := conversion_eq_ok converted
  obtain ⟨billData, head, moved, _, _, rfl⟩ := getInputData_outcome rfl rfl rfl filled
  intro entry member
  obtain ⟨k, place⟩ := List.mem_iff_getElem?.mp member
  obtain ⟨_, turn⟩ := relayConvert_stored ran place
  have models : ∀ model ∈ relayModels, IsCell model.driveStrength := by decide
  refine entry_delimited ?_ models (convertRelay_eq_ok.mp turn)
  intro net listed
  exact fileNets_name_unbroken (List.mem_of_mem_filter listed)

end RelayDev.Server

namespace RelayDev.Interleaving

open Cpp Text InputData Output Pool RelayConvert Transition Server
open Standalone (Delimited lookup_written)
open Server.State (sampleNamed)

namespace State

def writes (s : State) : Event → List Relay
  | .write conn =>
      (s.saving conn).toList.flatMap fun saving =>
        if saving.env.world.opens "Configuration.csv".toList then [saving.relay] else []
  | _ => []

structure Written (relay : Relay) : Prop where
  amount : relay.relayData.length = relay.relayAmount
  delimited : ∀ entry ∈ relay.relayData, Delimited entry

theorem sound_written {lent : List (Request × Nat)} {saving : Saving} (sound : Sound lent saving) :
    Written saving.relay := by
  obtain ⟨input, converted, _⟩ := sound.saves
  exact ⟨sound.amount, Request.conversion_delimited converted⟩

theorem write_files {s next : State} {store : Store} {conn : Nat} {saving : Saving}
    (follows : s.Follows store) (found : s.saving conn = some saving)
    (possible : s.write saving = some next) :
    (s.writes (.write conn) = [] ∧ next.server.store.files = s.server.store.files) ∨
      ∃ relay, s.writes (.write conn) = [relay] ∧ Written relay ∧
        next.server.store.files = ("Configuration.csv".toList, configuration relay) ::
          s.server.store.files.filter (·.1 ≠ "Configuration.csv".toList) := by
  have sound := (follows.of_found found).1
  obtain ⟨_, rfl⟩ := write_eq_some sound.amount possible
  rw [writes, found, Option.toList_some, List.flatMap_singleton]
  by_cases opened : saving.env.world.opens "Configuration.csv".toList = true
  · refine .inr ⟨saving.relay, if_pos opened, sound_written sound, ?_⟩
    exact if_pos opened
  · refine .inl ⟨if_neg opened, ?_⟩
    exact if_neg opened

theorem step_files {s next : State} {store : Store} {e : Event} (follows : s.Follows store)
    (possible : s.step e = some next) :
    (s.writes e = [] ∧ next.server.store.files = s.server.store.files) ∨
      ∃ relay, s.writes e = [relay] ∧ Written relay ∧
        next.server.store.files = ("Configuration.csv".toList, configuration relay) ::
          s.server.store.files.filter (·.1 ≠ "Configuration.csv".toList) := by
  have client {e' : Server.Event} (client : Client e') (possible : s.client e' = some next) :
      next.server.store.files = s.server.store.files := by
    obtain ⟨server, stepped, rfl⟩ := Option.map_eq_some_iff.mp possible
    rw [(client_keeps client stepped).1]
  cases e with
  | arrive request connects what =>
      exact .inl ⟨rfl, @client (.arrive request connects what) trivial possible⟩
  | rerun request connects what =>
      exact .inl ⟨rfl, @client (.rerun request connects what) trivial possible⟩
  | spurious request => exact .inl ⟨rfl, @client (.spurious request) trivial possible⟩
  | convert request conn env fuel =>
      rw [step, Option.ite_none_right_eq_some] at possible
      obtain ⟨_, possible⟩ := possible
      unfold convert at possible
      split at possible
      · cases possible
        exact .inl ⟨rfl, rfl⟩
      · cases possible
        exact .inl ⟨rfl, rfl⟩
      · cases possible
  | write conn =>
      obtain ⟨saving, found, possible⟩ := Option.bind_eq_some_iff.mp possible
      exact write_files follows found possible
  | call conn =>
      obtain ⟨saving, _, possible⟩ := Option.bind_eq_some_iff.mp possible
      obtain ⟨_, saver, _, rfl⟩ := insert_eq_some possible
      exact .inl ⟨rfl, rfl⟩
  | finish conn notified =>
      obtain ⟨saving, _, possible⟩ := Option.bind_eq_some_iff.mp possible
      cases (finished possible).2 with
      | returned => exact .inl ⟨rfl, rfl⟩
      | failed => exact .inl ⟨rfl, rfl⟩

/-- The files after `relays` have been written, one after the other. -/
structure Holds (store : Store) (files : List (Text × Text)) (relays : List Relay) : Prop where
  others : ∀ name, name ≠ "Configuration.csv".toList → files.lookup name = store.files.lookup name
  last : files.lookup "Configuration.csv".toList =
    (relays.getLast?.map configuration).or (store.files.lookup "Configuration.csv".toList)
  written : ∀ relay ∈ relays, Written relay

theorem step_holds {store : Store} (s : State) (e : Event) (next : State) (relays : List Relay)
    (before : (∃ left, s.Follows left) ∧ Holds store s.server.store.files relays)
    (possible : s.step e = some next) :
    (∃ left, next.Follows left) ∧ Holds store next.server.store.files (relays ++ s.writes e) := by
  obtain ⟨⟨left, follows⟩, holds⟩ := before
  obtain ⟨after, _, kept, _⟩ := step_matches follows possible
  refine ⟨⟨after, kept⟩, ?_⟩
  rcases step_files follows possible with ⟨none, same⟩ | ⟨relay, one, written, same⟩
  · rw [none, same, List.append_nil]
    exact holds
  · rw [one, same]
    constructor
    · intro name other
      rw [lookup_written other]
      exact holds.others name other
    · rw [List.lookup_cons, beq_self_eq_true, List.getLast?_concat]
      rfl
    · intro other member
      rcases List.mem_append.mp member with before | new
      · exact holds.written other before
      · rwa [List.mem_singleton.mp new]

/-- After any run the file holds the relays of the last request to write it, whether that
request is still saving, or has been answered, and with what: a line for each, and they read
back exactly if no name of a relay has a comma. No other file has changed. -/
theorem configuration_last (poolSize : Nat) (store : Store) (s : State) (es : List Event)
    (ran : run step (init poolSize store) es = some s) :
    (∀ name, name ≠ "Configuration.csv".toList →
        s.server.store.files.lookup name = store.files.lookup name) ∧
      match (trace step writes (init poolSize store) es).getLast? with
      | none => s.server.store.files.lookup "Configuration.csv".toList =
          store.files.lookup "Configuration.csv".toList
      | some relay => ∃ content,
          s.server.store.files.lookup "Configuration.csv".toList = some content ∧
            (textLines content).length = relay.relayAmount ∧
            (readConfiguration content = some relay.relayData ↔
              ∀ entry ∈ relay.relayData, ',' ∉ entry.relayName) := by
  have start : (∃ left, (init poolSize store).Follows left) ∧
      Holds store (init poolSize store).server.store.files [] :=
    ⟨⟨store, init_follows poolSize store⟩, fun _ _ => rfl, rfl, fun _ member => nomatch member⟩
  have holds := (trace_invariant step_holds start ran).2
  rw [List.nil_append] at holds
  refine ⟨holds.others, ?_⟩
  cases last : (trace step writes (init poolSize store) es).getLast? with
  | none =>
      rw [holds.last, last]
      rfl
  | some relay =>
      have written := holds.written relay (List.mem_of_getLast? last)
      refine ⟨configuration relay, ?_, ?_, readConfiguration_iff written.delimited⟩
      · rw [holds.last, last]
        rfl
      · rw [textLines_configuration written.delimited, List.length_map, written.amount]

def uncountedBoard : Files := fun path =>
  if path = "bom.csv".toList then some "1,x,TI,MAX6957,U1,EXPANDER".toList
  else if path = "netlist.txt".toList then
    some (List.intercalate ['\n']
      ["SDI U1 33 ".toList ++ expanderDevice, "SDO U1 40 ".toList ++ expanderDevice,
        "AB_K2_2 U1 6 ".toList ++ expanderDevice, []])
  else none

/-- The second request has failed before the first, which wrote before it, has saved. -/
def overwrittenEvents : List Event :=
  let env (files : Files) : Environment :=
    { files, world := ⟨fun _ => false, fun _ => true⟩, uninit := ⟨0, fun _ => 0⟩
      what := fun _ => [] }
  [.arrive (sampleNamed 0) true fun _ => [], .arrive (sampleNamed 1) true fun _ => [],
    .convert (sampleNamed 0) 0 (env singleBoard) 5, .convert (sampleNamed 1) 1 (env uncountedBoard) 5,
    .write 0, .write 1, .call 1, .finish 1 none] ++ List.replicate 7 (.call 0) ++ [.finish 0 none]

theorem overwritten_last :
    ∃ s, run step (init 5 {}) overwrittenEvents = some s ∧
      s.server.answers.map (·.2.status) = [.ok, .internalServerError] ∧
      (trace step writes (init 5 {}) overwrittenEvents).map (·.relayData.map (·.relayName)) =
        [["AB_K1_1".toList], ["AB_K2_2".toList]] ∧
      (∀ name, name ≠ "Configuration.csv".toList → s.server.store.files.lookup name = none) ∧
      match (trace step writes (init 5 {}) overwrittenEvents).getLast? with
      | none => s.server.store.files.lookup "Configuration.csv".toList = none
      | some relay => ∃ content,
          s.server.store.files.lookup "Configuration.csv".toList = some content ∧
            (textLines content).length = relay.relayAmount ∧
            (readConfiguration content = some relay.relayData ↔
              ∀ entry ∈ relay.relayData, ',' ∉ entry.relayName) := by
  have ends : (run step (init 5 {}) overwrittenEvents).map (·.server.answers.map (·.2.status)) =
      some [.ok, .internalServerError] := by decide +kernel
  obtain ⟨s, ran, statuses⟩ := Option.map_eq_some_iff.mp ends
  exact ⟨s, ran, statuses, by decide +kernel, configuration_last 5 {} s overwrittenEvents ran⟩

end State

end RelayDev.Interleaving
