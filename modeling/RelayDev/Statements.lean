import Mathlib.Logic.Relation
import RelayDev.Saving

/-! `saveData` one call to the database at a time, for requests that save side by side. -/

namespace RelayDev.Output

open Cpp Text RelayConvert

inductive Statement where
  | prepare (table : Table)
  | execute (table : Table) (row : Result (List Value))

def Statement.executes : Statement → Bool
  | .prepare _ => false
  | .execute _ _ => true

def block (table : Table) (rows : List (Result (List Value))) : List Statement :=
  .prepare table :: rows.map (.execute table)

def statements (input : Input) (relay : Relay) : List Statement :=
  block .inputBOM (billRows input) ++
    (block .inputNetlist (netlistRows input) ++ block .outputConfigFile (configRows relay))

/-- What a database error leaves of the calls behind it. -/
def laterBlocks (left : List Statement) : List Statement := left.dropWhile Statement.executes

/-- A `saveData` on its way: the calls it has left, the number of those it has made, and the
rows they have inserted. -/
structure Saver where
  left : List Statement
  calls : Nat
  written : List (Table × List Value)

namespace Saver

def inserts (world : World) (s : Saver) : List (Table × List Value) :=
  match s.left with
  | .execute table (.ok values) :: _ =>
      if world.databaseThrows s.calls then [] else [(table, values)]
  | _ => []

def call (world : World) (s : Saver) : Option Saver :=
  match s.left with
  | [] => none
  | .execute _ (.error _) :: _ => none
  | _ :: rest =>
      some ⟨if world.databaseThrows s.calls then laterBlocks rest else rest, s.calls + 1,
        s.written ++ s.inserts world⟩

/-- How `saveData` ends where no call is left, or the parameters of the next one cannot be
bound. -/
def result (s : Saver) : Option (Result Unit) :=
  match s.left with
  | [] => some (.ok ())
  | .execute _ (.error fault) :: _ => some (.error fault)
  | _ => none

def Leads (world : World) : Saver → Saver → Prop :=
  Relation.ReflTransGen fun s next => s.call world = some next

def session (s : Saver) (store : Store) : Session :=
  ⟨{ store with rows := store.rows ++ s.written }, s.calls⟩

variable {world : World}

theorem call_of_result {s : Saver} {ended : Result Unit} (stopped : s.result = some ended) :
    s.call world = none := by
  unfold result at stopped
  unfold call
  split at stopped
  · rename_i left
    rw [left]
  · rename_i left
    rw [left]
  · cases stopped

theorem call_execute {s : Saver} {table : Table} {values : List Value} {rest : List Statement}
    (left : s.left = .execute table (.ok values) :: rest) :
    s.call world = some (if world.databaseThrows s.calls then
      ⟨laterBlocks rest, s.calls + 1, s.written⟩
      else ⟨rest, s.calls + 1, s.written ++ [(table, values)]⟩) := by
  obtain ⟨_, calls, written⟩ := s
  dsimp only at left
  subst left
  by_cases throws : world.databaseThrows calls = true <;> simp [call, inserts, throws]

theorem call_prepare {s : Saver} {table : Table} {rest : List Statement}
    (left : s.left = .prepare table :: rest) :
    s.call world = some
      ⟨if world.databaseThrows s.calls then laterBlocks rest else rest, s.calls + 1, s.written⟩ := by
  obtain ⟨_, calls, written⟩ := s
  dsimp only at left
  subst left
  simp [call, inserts]

theorem call_written {s next : Saver} (called : s.call world = some next) :
    next.written = s.written ++ s.inserts world := by
  unfold call at called
  split at called
  · cases called
  · cases called
  · cases called
    rfl

/-- How far the calls of one block go: to the next block, or to a row that cannot be bound. -/
inductive Through (later : List Statement) (next : Saver) : Result Unit → Prop
  | past (left : next.left = later) : Through later next (.ok ())
  | refused (left : next.left = later) : Through later next (.error (.thrown .sqlException))
  | stopped {fault : Fault} (other : fault ≠ .thrown .sqlException)
      (ended : next.result = some (.error fault)) : Through later next (.error fault)

theorem laterBlocks_rows {later : List Statement} (begun : laterBlocks later = later)
    (table : Table) (rows : List (Result (List Value))) :
    laterBlocks (rows.map (.execute table) ++ later) = later := by
  induction rows with
  | nil => exact begun
  | cons row rows ih => exact ih

theorem rows_lead {later : List Statement} (begun : laterBlocks later = later) (store : Store)
    {table : Table} {rows : List (Result (List Value))}
    (clean : ∀ row ∈ rows, row ≠ .error (.thrown .sqlException)) {s : Saver}
    (left : s.left = rows.map (.execute table) ++ later) :
    ∃ next result, s.Leads world next ∧ Through later next result ∧
      (rows.forM (execute world table)).out (s.session store) = (result, next.session store) := by
  rw [List.forM_eq_forM]
  induction rows generalizing s with
  | nil => exact ⟨s, .ok (), .refl, .past left, rfl⟩
  | cons row rows ih =>
      rw [List.forM_cons]
      cases row with
      | error fault =>
          have failed : (execute world table (.error fault)).out (s.session store) =
              (.error fault, s.session store) := rfl
          have other : fault ≠ .thrown .sqlException := by
            rintro rfl
            exact clean _ (List.mem_cons_self ..) rfl
          have ended : s.result = some (.error fault) := by
            rw [result, left]
            rfl
          exact ⟨s, .error fault, .refl, .stopped other ended, out_bind_error failed _⟩
      | ok values =>
          have called := @call_execute world s table values _ left
          have executed : (execute world table (.ok values)).out (s.session store) =
              (databaseCall world fun store =>
                { store with rows := store.rows ++ [(table, values)] }).out (s.session store) := rfl
          rw [out_databaseCall] at executed
          by_cases throws : world.databaseThrows s.calls = true
          · rw [if_pos throws] at called
            rw [if_pos (show world.databaseThrows (s.session store).calls = true from throws)]
              at executed
            exact ⟨_, _, .single called, .refused (laterBlocks_rows begun table rows),
              out_bind_error executed _⟩
          · rw [if_neg throws] at called
            rw [if_neg (show ¬ world.databaseThrows (s.session store).calls = true from throws)]
              at executed
            have inserted : (⟨{ (s.session store).store with
                rows := (s.session store).store.rows ++ [(table, values)] },
                  (s.session store).calls + 1⟩ : Session) =
                session ⟨rows.map (.execute table) ++ later, s.calls + 1,
                  s.written ++ [(table, values)]⟩ store := by
              simp [session]
            rw [inserted] at executed
            obtain ⟨next, result, led, through, out⟩ :=
              @ih (fun row member => clean row (List.mem_cons_of_mem _ member))
                ⟨rows.map (.execute table) ++ later, s.calls + 1,
                  s.written ++ [(table, values)]⟩ rfl
            exact ⟨next, result, .head called led, through, (out_bind_ok executed _).trans out⟩

theorem block_leads {later : List Statement} (begun : laterBlocks later = later) (store : Store)
    {table : Table} {rows : List (Result (List Value))}
    (clean : ∀ row ∈ rows, row ≠ .error (.thrown .sqlException)) {s : Saver}
    (left : s.left = block table rows ++ later) :
    ∃ next result, s.Leads world next ∧
      (saveTable world table rows).out (s.session store) = (result, next.session store) ∧
        (result = .ok () ∧ next.left = later ∨
          ∃ fault, result = .error fault ∧ next.result = some (.error fault)) := by
  have first : s.left = .prepare table :: (rows.map (.execute table) ++ later) := left
  have prepared := @call_prepare world s table _ first
  have call := out_databaseCall world id (s.session store)
  by_cases throws : world.databaseThrows s.calls = true
  · rw [if_pos throws, laterBlocks_rows begun] at prepared
    rw [if_pos (show world.databaseThrows (s.session store).calls = true from throws)] at call
    exact ⟨_, _, .single prepared, out_saveTable (out_bind_error call _), .inl ⟨rfl, rfl⟩⟩
  · rw [if_neg throws] at prepared
    rw [if_neg (show ¬ world.databaseThrows (s.session store).calls = true from throws)] at call
    obtain ⟨next, result, led, through, out⟩ :=
      @rows_lead world later begun store table rows clean
        ⟨rows.map (.execute table) ++ later, s.calls + 1, s.written⟩ rfl
    have saved := out_saveTable ((out_bind_ok call _).trans out)
    refine ⟨next, swallowed result, .head prepared led, saved, ?_⟩
    cases through with
    | past reached => exact .inl ⟨rfl, reached⟩
    | refused reached => exact .inl ⟨rfl, reached⟩
    | stopped other ended => exact .inr ⟨_, swallowed_error other, ended⟩

def begin (input : Input) (relay : Relay) : Saver := ⟨statements input relay, 0, []⟩

theorem session_begin (input : Input) (relay : Relay) (store : Store) :
    (begin input relay).session store = ⟨store, 0⟩ := by
  simp [begin, session]

theorem begin_leads (world : World) (input : Input) (relay : Relay) (store : Store) :
    ∃ last result, (begin input relay).Leads world last ∧ last.result = some result ∧
      (saveData world input relay).out ⟨store, 0⟩ = (result, last.session store) := by
  rw [saveData_eq, ← session_begin input relay store]
  obtain ⟨first, result, ledBills, bills, ⟨rfl, left⟩ | ⟨fault, rfl, ended⟩⟩ :=
    @block_leads world _ rfl store _ _ (billRows_clean input) (begin input relay) rfl
  · rw [out_bind_ok bills]
    obtain ⟨second, result, ledNets, nets, ⟨rfl, left⟩ | ⟨fault, rfl, ended⟩⟩ :=
      @block_leads world _ rfl store _ _ (netlistRows_clean input) first left
    · rw [out_bind_ok nets]
      obtain ⟨last, result, ledConfigs, configs, ended⟩ :=
        @block_leads world [] rfl store _ _ (configRows_clean relay) second
          (left.trans (List.append_nil _).symm)
      refine ⟨last, result, (ledBills.trans ledNets).trans ledConfigs, ?_, configs⟩
      rcases ended with ⟨rfl, left⟩ | ⟨fault, rfl, ended⟩
      · rw [Saver.result, left]
      · exact ended
    · exact ⟨second, _, ledBills.trans ledNets, ended, out_bind_error nets _⟩
  · exact ⟨first, _, ledBills, ended, out_bind_error bills _⟩

theorem leads_stopped {s last : Saver} {ended : Result Unit} (stopped : s.result = some ended)
    (led : s.Leads world last) : last = s := by
  rcases Relation.ReflTransGen.cases_head led with same | ⟨next, called, _⟩
  · exact same.symm
  · rw [call_of_result stopped] at called
    cases called

theorem leads_on {s middle last : Saver} {ended : Result Unit} (led : s.Leads world middle)
    (finished : s.Leads world last) (stopped : last.result = some ended) :
    middle.Leads world last := by
  have one : Relator.RightUnique fun s next : Saver => s.call world = some next := by
    intro s next other called called'
    exact Option.some.inj (called.symm.trans called')
  rcases Relation.ReflTransGen.total_of_right_unique one led finished with on | back
  · exact on
  · obtain rfl := leads_stopped stopped back
    exact .refl

theorem leads_written {s next : Saver} (led : s.Leads world next) :
    s.written <+: next.written := by
  induction led with
  | refl => exact List.prefix_rfl
  | tail _ called ih =>
      rw [call_written called]
      exact ih.trans (List.prefix_append _ _)

theorem saveData_of_leads {input : Input} {relay : Relay} {last : Saver} {ended : Result Unit}
    (store : Store) (led : (begin input relay).Leads world last)
    (stopped : last.result = some ended) :
    (saveData world input relay).out ⟨store, 0⟩ = (ended, last.session store) := by
  obtain ⟨final, result, finished, stopped', out⟩ := begin_leads world input relay store
  obtain rfl := leads_stopped stopped (leads_on led finished stopped')
  rw [stopped] at stopped'
  cases stopped'
  exact out

end Saver

end RelayDev.Output
