import RelayDev.Output

/-! What `saveData` leaves in the tables, wherever the database fails. -/

namespace RelayDev.Output

open Cpp Text RelayConvert

variable {α β : Type}

def Effect.out (x : Effect α) (s : Session) : Result α × Session := x.run.run s

@[simp] theorem out_pure (a : α) (s : Session) : (pure a : Effect α).out s = (.ok a, s) := rfl

@[simp] theorem out_of (r : Result α) (s : Session) : (Effect.of r).out s = (r, s) := rfl

theorem out_bind_ok {x : Effect α} {s next : Session} {a : α} (returned : x.out s = (.ok a, next))
    (f : α → Effect β) : (x >>= f).out s = (f a).out next := by
  have run : x.run.run s = (.ok a, next) := returned
  rw [Effect.out, ExceptT.run_bind, StateT.run_bind, run]
  rfl

theorem out_bind_error {x : Effect α} {s next : Session} {fault : Fault}
    (failed : x.out s = (.error fault, next)) (f : α → Effect β) :
    (x >>= f).out s = (.error fault, next) := by
  have run : x.run.run s = (.error fault, next) := failed
  rw [Effect.out, ExceptT.run_bind, StateT.run_bind, run]
  rfl

theorem out_tryCatch_ok {x : Effect α} {s next : Session} {a : α}
    (returned : x.out s = (.ok a, next)) (handler : Fault → Effect α) :
    (tryCatch x handler).out s = (.ok a, next) := by
  have run : x.run.run s = (.ok a, next) := returned
  rw [Effect.out, ExceptT.run_tryCatch, StateT.run_bind, run]
  rfl

theorem out_tryCatch_error {x : Effect α} {s next : Session} {fault : Fault}
    (failed : x.out s = (.error fault, next)) (handler : Fault → Effect α) :
    (tryCatch x handler).out s = (handler fault).out next := by
  have run : x.run.run s = (.error fault, next) := failed
  rw [Effect.out, ExceptT.run_tryCatch, StateT.run_bind, run]
  rfl

theorem out_databaseCall (world : World) (effect : Store → Store) (s : Session) :
    (databaseCall world effect).out s =
      if world.databaseThrows s.calls then
        (.error (.thrown .sqlException), { s with calls := s.calls + 1 })
      else (.ok (), ⟨effect s.store, s.calls + 1⟩) := by
  have unfolded : (databaseCall world effect).out s =
      (if world.databaseThrows s.calls then throw (.thrown .sqlException)
        else modify fun s => { s with store := effect s.store } : Effect Unit).out
          { s with calls := s.calls + 1 } := rfl
  rw [unfolded]
  split <;> rfl

def Session.insert (s : Session) (table : Table) (values : List (List Value)) (more : Nat) :
    Session :=
  ⟨{ s.store with rows := s.store.rows ++ values.map (table, ·) }, s.calls + values.length + more⟩

@[simp] theorem insert_calls (s : Session) (table : Table) (values : List (List Value))
    (more : Nat) : (s.insert table values more).calls = s.calls + values.length + more := rfl

@[simp] theorem insert_rows (s : Session) (table : Table) (values : List (List Value))
    (more : Nat) :
    (s.insert table values more).store.rows = s.store.rows ++ values.map (table, ·) := rfl

theorem insert_nil (s : Session) (table : Table) (more : Nat) :
    s.insert table [] more = { s with calls := s.calls + more } := by
  simp [Session.insert]

theorem insert_insert (s : Session) (table : Table) (first second : List (List Value))
    (more most : Nat) :
    (s.insert table first more).insert table second most =
      s.insert table (first ++ second) (more + most) := by
  simp only [Session.insert, List.map_append, List.append_assoc, List.length_append,
    Session.mk.injEq, true_and]
  omega

/-- No call from number `first` on throws, for `count` calls. -/
def Silent (world : World) (first count : Nat) : Prop :=
  ∀ k < count, world.databaseThrows (first + k) = false

theorem silent_succ {world : World} {first count : Nat} :
    Silent world first (count + 1) ↔
      world.databaseThrows first = false ∧ Silent world (first + 1) count := by
  constructor
  · intro silent
    refine ⟨silent 0 (Nat.succ_pos count), fun k less => ?_⟩
    have later := silent (k + 1) (Nat.succ_lt_succ less)
    rwa [Nat.add_comm k 1, ← Nat.add_assoc] at later
  · rintro ⟨now, later⟩ k less
    cases k with
    | zero => exact now
    | succ k =>
        have next := later k (Nat.lt_of_succ_lt_succ less)
        rwa [Nat.add_assoc, Nat.add_comm 1 k] at next

/-- What the row loop of a block comes to: all rows are in, or the database refuses one, or
the parameters of one cannot be bound. -/
inductive Executed (world : World) (table : Table) (s : Session) :
    List (Result (List Value)) → Result Unit × Session → Prop
  | whole (values : List (List Value)) (silent : Silent world s.calls values.length) :
      Executed world table s (values.map .ok) (.ok (), s.insert table values 0)
  | refused (values : List (List Value)) (value : List Value) (rest : List (Result (List Value)))
      (silent : Silent world s.calls values.length)
      (throws : world.databaseThrows (s.calls + values.length) = true) :
      Executed world table s (values.map .ok ++ .ok value :: rest)
        (.error (.thrown .sqlException), s.insert table values 1)
  | failed (values : List (List Value)) (fault : Fault) (rest : List (Result (List Value)))
      (silent : Silent world s.calls values.length) :
      Executed world table s (values.map .ok ++ .error fault :: rest)
        (.error fault, s.insert table values 0)

theorem executed_cons {world : World} {table : Table} {s : Session}
    {rows : List (Result (List Value))} {out : Result Unit × Session} {value : List Value}
    (quiet : world.databaseThrows s.calls = false)
    (rest : Executed world table (s.insert table [value] 0) rows out) :
    Executed world table s (.ok value :: rows) out := by
  have further {count : Nat} (silent : Silent world (s.calls + 1) count) :
      Silent world s.calls (count + 1) := silent_succ.mpr ⟨quiet, silent⟩
  cases rest with
  | whole values silent =>
      rw [insert_insert]
      exact .whole (value :: values) (further silent)
  | refused values next rows silent throws =>
      rw [insert_insert]
      have later : world.databaseThrows (s.calls + (value :: values).length) = true := by
        rwa [List.length_cons, Nat.add_comm values.length 1, ← Nat.add_assoc]
      exact .refused (value :: values) next rows (further silent) later
  | failed values fault rows silent =>
      rw [insert_insert]
      exact .failed (value :: values) fault rows (further silent)

theorem executed (world : World) (table : Table) (rows : List (Result (List Value)))
    (s : Session) :
    Executed world table s rows ((rows.forM (execute world table)).out s) := by
  have none : Silent world s.calls 0 := fun k less => absurd less (Nat.not_lt_zero k)
  rw [List.forM_eq_forM]
  induction rows generalizing s with
  | nil =>
      have whole := @Executed.whole world table s [] none
      rwa [insert_nil] at whole
  | cons row rows ih =>
      rw [List.forM_cons]
      cases row with
      | error fault =>
          have failed : (execute world table (.error fault)).out s = (.error fault, s) := rfl
          have out := @Executed.failed world table s [] fault rows none
          rw [out_bind_error failed]
          rwa [insert_nil] at out
      | ok value =>
          have call : (execute world table (.ok value)).out s =
              (databaseCall world fun store =>
                { store with rows := store.rows ++ [(table, value)] }).out s := rfl
          rw [out_databaseCall] at call
          by_cases throws : world.databaseThrows s.calls = true
          · have out := @Executed.refused world table s [] value rows none throws
            rw [if_pos throws] at call
            rw [out_bind_error call]
            rwa [insert_nil] at out
          · rw [if_neg throws] at call
            rw [out_bind_ok call]
            exact executed_cons (Bool.eq_false_iff.mpr throws)
              (ih (s.insert table [value] 0) fun k less => absurd less (Nat.not_lt_zero k))

/-- No call of a block throws: it prepares a statement and executes it `count` times. A
block without rows leaves nothing out either way. -/
def Quiet (world : World) (first count : Nat) : Prop := count = 0 ∨ Silent world first (count + 1)

inductive Saved (world : World) (table : Table) (s : Session) :
    List (Result (List Value)) → Result Unit × Session → Prop
  | whole (values : List (List Value)) (quiet : Quiet world s.calls values.length) :
      Saved world table s (values.map .ok) (.ok (), s.insert table values 1)
  | cut {rows : List (Result (List Value))} (values : List (List Value)) (more : Nat)
      (part : values.map .ok <+: rows) (short : values.length < rows.length)
      (loud : ¬ Quiet world s.calls rows.length)
      (start : world.databaseThrows s.calls = true ∨ ∃ value rest, rows = .ok value :: rest) :
      Saved world table s rows (.ok (), s.insert table values more)
  | failed (values : List (List Value)) (fault : Fault) (rest : List (Result (List Value)))
      (silent : Silent world s.calls (values.length + 1))
      (other : fault ≠ .thrown .sqlException) :
      Saved world table s (values.map .ok ++ .error fault :: rest)
        (.error fault, s.insert table values 1)

def swallowed : Result Unit → Result Unit
  | .error (.thrown .sqlException) => .ok ()
  | other => other

theorem out_saveTable {world : World} {table : Table} {rows : List (Result (List Value))}
    {s next : Session} {result : Result Unit}
    (block : (do
      databaseCall world id
      rows.forM (execute world table) : Effect Unit).out s = (result, next)) :
    (saveTable world table rows).out s = (swallowed result, next) := by
  rw [saveTable]
  cases result with
  | ok _ => exact out_tryCatch_ok block _
  | error fault =>
      rw [out_tryCatch_error block]
      rcases fault with ⟨_ | _ | _⟩ | _ <;> rfl

theorem cut_of_prepare {world : World} {table : Table} {s : Session}
    {rows : List (Result (List Value))} (throws : world.databaseThrows s.calls = true) :
    Saved world table s rows (.ok (), { s with calls := s.calls + 1 }) := by
  rw [← insert_nil s table 1]
  cases rows with
  | nil => exact .whole [] (.inl rfl)
  | cons row rows =>
      refine .cut [] 1 List.nil_prefix (Nat.succ_pos _) ?_ (.inl throws)
      rintro (none | silent)
      · cases none
      · have quiet := silent 0 (Nat.succ_pos _)
        rw [Nat.add_zero, throws] at quiet
        cases quiet

theorem swallowed_error {fault : Fault} (other : fault ≠ .thrown .sqlException) :
    swallowed (.error fault) = .error fault := by
  rcases fault with ⟨_ | _ | _⟩ | _
  · rfl
  · rfl
  · exact absurd rfl other
  · rfl

theorem saved {world : World} {table : Table} {rows : List (Result (List Value))} {s : Session}
    (clean : ∀ row ∈ rows, row ≠ .error (.thrown .sqlException)) :
    Saved world table s rows ((saveTable world table rows).out s) := by
  have call := out_databaseCall world id s
  by_cases throws : world.databaseThrows s.calls = true
  · rw [if_pos throws] at call
    rw [out_saveTable (out_bind_error call _)]
    exact cut_of_prepare throws
  · rw [if_neg throws] at call
    have prepared := Bool.eq_false_iff.mpr throws
    have begun : (⟨id s.store, s.calls + 1⟩ : Session) = s.insert table [] 1 :=
      (insert_nil s table 1).symm
    have loop := executed world table rows (s.insert table [] 1)
    have block := out_bind_ok call fun _ => rows.forM (execute world table)
    rw [begun] at block
    generalize (rows.forM (execute world table)).out (s.insert table [] 1) = out at loop block
    obtain ⟨result, next⟩ := out
    rw [out_saveTable block]
    have silently {count : Nat} (silent : Silent world (s.insert table [] 1).calls count) :
        Silent world s.calls (count + 1) := silent_succ.mpr ⟨prepared, silent⟩
    cases loop with
    | whole values silent =>
        rw [insert_insert]
        exact .whole values (.inr (silently silent))
    | refused values value rest silent throws =>
        rw [insert_insert]
        refine .cut values (1 + 1) (List.prefix_append _ _) (by simp) ?_ ?_
        · rintro (none | silent)
          · simp at none
          · have quiet := silent (values.length + 1) (by simp)
            have same : (s.insert table [] 1).calls + values.length =
                s.calls + (values.length + 1) := by
              simp only [insert_calls, List.length_nil]
              omega
            rw [same, quiet] at throws
            cases throws
        · cases values with
          | nil => exact .inr ⟨value, rest, rfl⟩
          | cons first values => exact .inr ⟨first, values.map .ok ++ .ok value :: rest, rfl⟩
    | failed values fault rest silent =>
        have other : fault ≠ .thrown .sqlException := by
          rintro rfl
          exact clean (.error (.thrown .sqlException)) (by simp) rfl
        rw [insert_insert, swallowed_error other]
        exact .failed values fault rest (silently silent) other

theorem Saved.of_error {world : World} {table : Table} {rows : List (Result (List Value))}
    {s next : Session} {fault : Fault} (saved : Saved world table s rows (.error fault, next)) :
    ∃ values rest, rows = values.map .ok ++ .error fault :: rest ∧
      Silent world s.calls (values.length + 1) ∧ next = s.insert table values 1 := by
  cases saved with
  | failed values _ rest silent _ => exact ⟨values, rest, rfl, silent, rfl⟩

theorem Saved.error_mem {world : World} {table : Table} {rows : List (Result (List Value))}
    {s next : Session} {fault : Fault} (saved : Saved world table s rows (.error fault, next)) :
    .error fault ∈ rows := by
  obtain ⟨values, rest, same, _, _⟩ := saved.of_error
  simp [same]

/-- A block has returned with the rows `values` in, after `more` calls besides. -/
def Ended (world : World) (rows : List (Result (List Value))) (calls : Nat)
    (values : List (List Value)) (more : Nat) : Prop :=
  rows = values.map .ok ∧ more = 1 ∧ Quiet world calls rows.length ∨
    values.map .ok <+: rows ∧ values.length < rows.length ∧ ¬ Quiet world calls rows.length ∧
      (world.databaseThrows calls = true ∨ ∃ value rest, rows = .ok value :: rest)

theorem Saved.of_ok {world : World} {table : Table} {rows : List (Result (List Value))}
    {s next : Session} (saved : Saved world table s rows (.ok (), next)) :
    ∃ values more, next = s.insert table values more ∧ Ended world rows s.calls values more := by
  cases saved with
  | whole values quiet =>
      exact ⟨values, 1, rfl, .inl ⟨rfl, rfl, by rwa [List.length_map]⟩⟩
  | cut values more part short loud start =>
      exact ⟨values, more, rfl, .inr ⟨part, short, loud, start⟩⟩

section Ended

variable {world : World} {rows : List (Result (List Value))} {calls more : Nat}
  {values : List (List Value)} (ended : Ended world rows calls values more)

include ended

theorem Ended.whole_iff : rows = values.map .ok ↔ Quiet world calls rows.length := by
  rcases ended with ⟨whole, _, quiet⟩ | ⟨_, short, loud, _⟩
  · exact iff_of_true whole quiet
  · refine iff_of_false ?_ loud
    rintro rfl
    simp at short

theorem Ended.calls_eq (whole : rows = values.map .ok) :
    values.length = rows.length ∧ more = 1 := by
  rcases ended with ⟨_, one, _⟩ | ⟨_, short, _, _⟩
  · exact ⟨by simp [whole], one⟩
  · simp [whole] at short

theorem Ended.part : values.map .ok <+: rows := by
  rcases ended with ⟨whole, _, _⟩ | ⟨part, _, _, _⟩
  · exact whole ▸ List.prefix_rfl
  · exact part

theorem Ended.length_le : values.length ≤ rows.length := by
  simpa using ended.part.length_le

theorem Ended.whole_of_length (same : values.length = rows.length) : rows = values.map .ok := by
  rcases ended with ⟨whole, _, _⟩ | ⟨_, short, _, _⟩
  · exact whole
  · exact absurd same (Nat.ne_of_lt short)

theorem Ended.first_ok {row : Result (List Value)} {rest : List (Result (List Value))}
    (first : rows = row :: rest) (prepared : world.databaseThrows calls = false) :
    ∃ value, row = .ok value := by
  rcases ended with ⟨whole, _, _⟩ | ⟨_, _, _, throws | ⟨value, others, same⟩⟩
  · rw [first] at whole
    cases values with
    | nil => cases whole
    | cons value values => exact ⟨value, (List.cons.inj whole).1⟩
  · rw [prepared] at throws
    cases throws
  · rw [first] at same
    exact ⟨value, (List.cons.inj same).1⟩

end Ended

def billRows (input : Input) : List (Result (List Value)) := input.billData.map billRow

def netlistRows (input : Input) : List (Result (List Value)) :=
  input.netlistData.flatMap fun netlist =>
    (List.range netlist.name.length).map (netlistRow netlist)

def configRows (relay : Relay) : List (Result (List Value)) :=
  (List.range relay.relayAmount).map (configRow relay)

@[simp] theorem billRows_length (input : Input) :
    (billRows input).length = input.billData.length := by
  simp [billRows]

@[simp] theorem netlistRows_length (input : Input) :
    (netlistRows input).length = (input.netlistData.flatMap (·.name)).length := by
  simp only [netlistRows, List.length_flatMap, List.length_map, List.length_range]

@[simp] theorem configRows_length (relay : Relay) :
    (configRows relay).length = relay.relayAmount := by
  simp [configRows]

theorem billRow_eq_error {bill : BillData} {fault : Fault}
    (failed : billRow bill = .error fault) : fault ≠ .thrown .sqlException := by
  rintro rfl
  rcases bind_eq_error.mp failed with item | ⟨_, _, failed⟩
  · rcases stoi_eq_error item with same | same <;> cases same
  · rcases bind_eq_error.mp failed with quantity | ⟨_, _, failed⟩
    · rcases stoi_eq_error quantity with same | same <;> cases same
    · rcases bind_eq_error.mp failed with identifier | ⟨_, _, failed⟩
      · cases index_eq_error identifier
      · cases failed

theorem netlistRow_eq_error {netlist : NetlistData} {i : Nat} {fault : Fault}
    (failed : netlistRow netlist i = .error fault) : fault = .undefined := by
  rcases bind_eq_error.mp failed with name | ⟨_, _, failed⟩
  · exact index_eq_error name
  · rcases bind_eq_error.mp failed with identifier | ⟨_, _, failed⟩
    · exact index_eq_error identifier
    · rcases bind_eq_error.mp failed with connection | ⟨_, _, failed⟩
      · exact index_eq_error connection
      · rcases bind_eq_error.mp failed with device | ⟨_, _, failed⟩
        · exact index_eq_error device
        · cases failed

theorem configRow_eq_error {relay : Relay} {i : Nat} {fault : Fault}
    (failed : configRow relay i = .error fault) : fault = .undefined := by
  rcases bind_eq_error.mp failed with entry | ⟨_, _, failed⟩
  · exact index_eq_error entry
  · cases failed

theorem netlistRows_eq_error {input : Input} {fault : Fault}
    (member : .error fault ∈ netlistRows input) : fault = .undefined := by
  obtain ⟨netlist, _, inside⟩ := List.mem_flatMap.mp member
  obtain ⟨i, _, failed⟩ := List.mem_map.mp inside
  exact netlistRow_eq_error failed

theorem configRows_eq_error {relay : Relay} {fault : Fault}
    (member : .error fault ∈ configRows relay) : fault = .undefined := by
  obtain ⟨i, _, failed⟩ := List.mem_map.mp member
  exact configRow_eq_error failed

theorem billRows_clean (input : Input) :
    ∀ row ∈ billRows input, row ≠ .error (.thrown .sqlException) := by
  rintro row member rfl
  obtain ⟨bill, _, failed⟩ := List.mem_map.mp member
  exact billRow_eq_error failed rfl

theorem netlistRows_clean (input : Input) :
    ∀ row ∈ netlistRows input, row ≠ .error (.thrown .sqlException) := by
  rintro row member rfl
  cases netlistRows_eq_error member

theorem configRows_clean (relay : Relay) :
    ∀ row ∈ configRows relay, row ≠ .error (.thrown .sqlException) := by
  rintro row member rfl
  cases configRows_eq_error member

theorem saveData_eq (world : World) (input : Input) (relay : Relay) :
    saveData world input relay = (do
      saveTable world .inputBOM (billRows input)
      saveTable world .inputNetlist (netlistRows input)
      saveTable world .outputConfigFile (configRows relay)) := rfl

def inserted (table : Table) (before after : Store) : List (List Value) :=
  ((after.rows.drop before.rows.length).filter (·.1 = table)).map Prod.snd

theorem inserted_blocks (s : Session) (bills nets configs : List (List Value))
    (more most least : Nat) :
    let next := ((s.insert .inputBOM bills more).insert .inputNetlist nets most).insert
      .outputConfigFile configs least
    inserted .inputBOM s.store next.store = bills ∧
      inserted .inputNetlist s.store next.store = nets ∧
      inserted .outputConfigFile s.store next.store = configs := by
  simp [inserted, List.filter_map, Function.comp_def]

/-- What `saveData` comes to: an exception in the first two blocks skips the others, a
database error does not. -/
inductive SavedData (world : World) (input : Input) (relay : Relay) (s : Session) :
    Result Unit × Session → Prop
  | bill {fault : Fault} {next : Session}
      (bills : Saved world .inputBOM s (billRows input) (.error fault, next)) :
      SavedData world input relay s (.error fault, next)
  | netlist {fault : Fault} {first next : Session}
      (bills : Saved world .inputBOM s (billRows input) (.ok (), first))
      (nets : Saved world .inputNetlist first (netlistRows input) (.error fault, next)) :
      SavedData world input relay s (.error fault, next)
  | config {first second : Session} {out : Result Unit × Session}
      (bills : Saved world .inputBOM s (billRows input) (.ok (), first))
      (nets : Saved world .inputNetlist first (netlistRows input) (.ok (), second))
      (configs : Saved world .outputConfigFile second (configRows relay) out) :
      SavedData world input relay s out

theorem savedData (world : World) (input : Input) (relay : Relay) (s : Session) :
    SavedData world input relay s ((saveData world input relay).out s) := by
  have bills := @saved world .inputBOM _ s (billRows_clean input)
  have nets (first : Session) := @saved world .inputNetlist _ first (netlistRows_clean input)
  have configs (second : Session) := @saved world .outputConfigFile _ second (configRows_clean relay)
  rw [saveData_eq]
  rcases one : (saveTable world .inputBOM (billRows input)).out s with ⟨fault | _, first⟩
  · rw [one] at bills
    rw [out_bind_error one]
    exact .bill bills
  · rw [one] at bills
    rw [out_bind_ok one]
    have second := nets first
    rcases two : (saveTable world .inputNetlist (netlistRows input)).out first with
      ⟨fault | _, next⟩
    · rw [two] at second
      rw [out_bind_error two]
      exact .netlist bills second
    · rw [two] at second
      rw [out_bind_ok two]
      exact .config bills second (configs next)

/-- Where `saveData` returns, each block has ended with the rows its table has got. -/
theorem saveData_inserts {world : World} {input : Input} {relay : Relay} {s next : Session}
    (saved : (saveData world input relay).out s = (.ok (), next)) :
    (∃ calls more, Ended world (billRows input) calls
        (inserted .inputBOM s.store next.store) more) ∧
      (∃ calls more, Ended world (netlistRows input) calls
        (inserted .inputNetlist s.store next.store) more) ∧
      ∃ calls more, Ended world (configRows relay) calls
        (inserted .outputConfigFile s.store next.store) more := by
  have blocks := savedData world input relay s
  rw [saved] at blocks
  cases blocks with
  | config savedBills savedNets savedConfigs =>
      obtain ⟨bills, more, rfl, one⟩ := savedBills.of_ok
      obtain ⟨nets, most, rfl, two⟩ := savedNets.of_ok
      obtain ⟨configs, least, rfl, three⟩ := savedConfigs.of_ok
      obtain ⟨ofBill, ofNetlist, ofConfig⟩ := inserted_blocks s bills nets configs more most least
      rw [ofBill, ofNetlist, ofConfig]
      exact ⟨⟨_, _, one⟩, ⟨_, _, two⟩, ⟨_, _, three⟩⟩

theorem quiet_of_calm {world : World} (calm : ∀ k, world.databaseThrows k = false)
    (first count : Nat) : Quiet world first count := .inr fun k _ => calm (first + k)

end RelayDev.Output
