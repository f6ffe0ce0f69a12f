import RelayDev.RelayConvert

/-! `Output.cpp`: the configuration file, and the rows that go into the database. -/

namespace RelayDev.Output

open Cpp Text RelayConvert

inductive Value where
  | int (n : Int)
  | text (s : Text)
  deriving DecidableEq, Repr

inductive Table where
  | inputBOM
  | inputNetlist
  | outputConfigFile
  deriving DecidableEq, Repr

/-- What a request leaves behind: rows in the database, in the order of their insertion,
and the content last written to each file. -/
structure Store where
  rows : List (Table × List Value) := []
  files : List (Text × Text) := []
  deriving DecidableEq, Repr

/-- The world of one request: which of its calls to the database throw, counted from the
first one, and which files can be opened for writing. -/
structure World where
  databaseThrows : Nat → Bool
  opens : Text → Bool

structure Session where
  store : Store
  calls : Nat := 0

/-- Code that changes the session, and keeps its changes when it fails. -/
abbrev Effect (α : Type) := ExceptT Fault (StateM Session) α

def Effect.of {α : Type} (r : Result α) : Effect α := ExceptT.mk (pure r)

def databaseCall (world : World) (effect : Store → Store) : Effect Unit := do
  let s ← get
  set { s with calls := s.calls + 1 }
  if world.databaseThrows s.calls then throw (.thrown .sqlException)
  else modify fun s => { s with store := effect s.store }

def execute (world : World) (table : Table) (parameters : Result (List Value)) : Effect Unit := do
  let values ← Effect.of parameters
  databaseCall world fun store => { store with rows := store.rows ++ [(table, values)] }

/-- One `try` block of `saveData`: a statement is prepared and executed for each row. A
database error ends the block and nothing else. -/
def saveTable (world : World) (table : Table) (rows : List (Result (List Value))) : Effect Unit :=
  tryCatch
    (do
      databaseCall world id
      rows.forM (execute world table))
    fun fault =>
      match fault with
      | .thrown .sqlException => pure ()
      | other => throw other

def billRow (bill : BillData) : Result (List Value) := do
  let item ← stoi bill.item
  let quantity ← stoi bill.quantity
  let identifier ← index bill.identifier 0
  return [.int 1, .int item, .int quantity, .text bill.manufacturer, .text bill.partNumber,
    .text identifier, .text bill.description, .text bill.dni, .text bill.status, .text bill.maxTemp]

def netlistRow (netlist : NetlistData) (i : Nat) : Result (List Value) := do
  return [.int 1, .int 1, .text (← index netlist.name i), .text (← index netlist.identifier i),
    .text (← index netlist.connection i), .text (← index netlist.device i)]

def configRow (relay : Relay) (i : Nat) : Result (List Value) := do
  let entry ← index relay.relayData i
  return [.int 1, .int i, .text entry.pin, .text entry.enumeration, .int entry.chainNumber,
    .int entry.deviceNumber, .text entry.portNumber, .text entry.driveStrength,
    .text entry.normalState, .int entry.minOpenTime, .int entry.typOpenTime,
    .int entry.maxOpenTime, .int entry.minCloseTime, .int entry.typCloseTime,
    .int entry.maxCloseTime, .text entry.relayName]

def saveData (world : World) (input : Input) (relay : Relay) : Effect Unit := do
  saveTable world .inputBOM (input.billData.map billRow)
  saveTable world .inputNetlist
    (input.netlistData.flatMap fun netlist =>
      (List.range netlist.name.length).map (netlistRow netlist))
  saveTable world .outputConfigFile ((List.range relay.relayAmount).map (configRow relay))

def written (n : Int) : Text := (toString n).toList

def configLine (entry : RelayData) : Text :=
  "RELAY(".toList ++ List.intercalate [','] [entry.pin, entry.enumeration,
    written entry.chainNumber, written entry.deviceNumber, entry.portNumber, entry.driveStrength,
    entry.normalState, written entry.minOpenTime, written entry.typOpenTime,
    written entry.maxOpenTime, written entry.minCloseTime, written entry.typCloseTime,
    written entry.maxCloseTime, entry.relayName] ++ [')']

def outputRelayData (world : World) (outputName : Text) (relay : Relay) : Effect Unit :=
  if world.opens outputName then do
    let records ← Effect.of ((List.range relay.relayAmount).mapM (index relay.relayData))
    let content := List.intercalate ['\n'] (records.map configLine)
    modify fun s => { s with store := { s.store with
      files := (outputName, content) :: s.store.files.filter (·.1 ≠ outputName) } }
  else pure ()

end RelayDev.Output
