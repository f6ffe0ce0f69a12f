import RelayDev.Bill
import RelayDev.DeviceOrder
import RelayDev.OnePass
import RelayDev.Output

/-! `relay.cpp`: the program that writes the configuration without a server, from its
arguments to its file. Its reader of the netlist is that of `OnePass`. -/

namespace RelayDev.Standalone

open Cpp Text Loop

def driveStrengths : List (Text × Text) :=
  [("120-1-A-5/1", "CONFIG_LED_21p0_mA"), ("50935", "CONFIG_LED_21p0_mA"),
    ("9901-05-20", "CONFIG_LED_18p0_mA"), ("AQY225R3TY", "CONFIG_LED_10p5_mA"),
    ("G3VM-101QR1", "CONFIG_LED_10p5_mA"), ("G3VM-41QR10", "CONFIG_LED_10p5_mA")].map
      fun (relayModel, driveStrength) => (relayModel.toList, driveStrength.toList)

/-- A map is walked in the order of its keys. -/
example : (driveStrengths.map Prod.fst).Pairwise (· < ·) := by decide

structure Input extends OnePass.Input where
  bomPath : Text := []
  boardType : Text := []
  billData : List BillData := []
  ioData : List IOData := []
  mapDriveStrength : List (Text × Text) := driveStrengths
  deriving DecidableEq, Repr

/-- One turn of the `getline` loop: the line is taken as it stands. -/
def readLine (fuel : Nat) (r : Bill.Reader) (holder : Text) : Call Bill.Reader :=
  if (first holder).isDigit then
    andThen (Bill.readPart fuel holder) fun temp => some (Bill.storePart r temp)
  else some (.ok r)

def readLines (fuel : Nat) : Bill.Reader → List Text → Call Bill.Reader
  | r, [] => some (.ok r)
  | r, line :: lines => andThen (readLine fuel r line) fun r => readLines fuel r lines

def getBillData (files : Files) (fuel : Nat) (input : Input) : Call Input :=
  andThen (readLines fuel ⟨input.billData, 0⟩ (files.lines input.bomPath)) fun r =>
    some (.ok { input with billData := r.billData })

def getNetlistData (files : Files) (input : Input) : Result (Nat × Input) := do
  let (relayCounter, read) ← OnePass.getNetlistData files input.toInput
  return (relayCounter, { input with toInput := read })

structure Ports where
  input : Bool
  output : Bool

def portRow (net : NetlistData) (j : Nat) (s : Ports) : Result (ForInStep Ports) := do
  if ← DeviceOrder.onPin net DeviceOrder.dinPin j then return .yield { s with input := true }
  else if ← DeviceOrder.onPin net DeviceOrder.doutPin j then return .done { s with output := true }
  else return .yield s

/-- One turn of its second row loop: any expander is taken. -/
def firstRow (net : NetlistData) (k : Nat) (list : List IOData) :
    Result (ForInStep (List IOData)) := do
  if (← index net.device k) = expanderDevice then
    let identifier ← index net.identifier k
    return .done (← update list 0 fun _ => ⟨identifier, 1⟩)
  else return .yield list

def firstNet (net : NetlistData) (list : List IOData) : Result (ForInStep (List IOData)) := do
  let s ← forIn (List.range net.name.length) (⟨false, false⟩ : Ports) (portRow net)
  if s.input ∧ s.output = false then
    return .done (← forIn (List.range net.name.length) list (firstRow net))
  else return .yield list

def getFirstDevice (netlist : List NetlistData) (list : List IOData) : Result (List IOData) :=
  forIn netlist list firstNet

structure Chain where
  ioData : List IOData
  expanders : Nat
  connectionFound : Bool
  lastDevice : Bool

def Chain.tail (s : Chain) : Result Text := (index s.ioData s.expanders).map IOData.identifier

def onTail (net : NetlistData) (j : Nat) (s : Chain) : Result Bool := do
  if ← DeviceOrder.onPin net DeviceOrder.doutPin j then
    return decide ((← index net.identifier j) = (← s.tail))
  else return false

def dinRow (net : NetlistData) (k : Nat) (s : Chain) : Result (ForInStep Chain) := do
  if ← DeviceOrder.onPin net DeviceOrder.dinPin k then
    let expanders := s.expanders + 1
    let identifier ← index net.identifier k
    let ioData ← update (s.ioData ++ [.empty]) expanders fun _ => ⟨identifier, expanders + 1⟩
    return .done { s with ioData, expanders, connectionFound := true }
  else return .yield s

def chainRow (net : NetlistData) (j : Nat) (s : Chain) : Result (ForInStep Chain) := do
  if ← onTail net j s then
    let s ← forIn (List.range net.name.length) s (dinRow net)
    if !s.connectionFound then return .done { s with lastDevice := true }
    else return .yield { s with connectionFound := false }
  else return .yield s

def chainNet (net : NetlistData) (s : Chain) : Result (ForInStep Chain) := do
  let s ← forIn (List.range net.name.length) s (chainRow net)
  if s.lastDevice then return .done s else return .yield s

def chainPass (nets : List NetlistData) (s : Chain) : Result Chain := forIn nets s chainNet

def getDeviceOrder (fuel : Nat) (input : Input) : Call Input :=
  match getFirstDevice input.netlistData (input.ioData ++ [.empty]) with
  | .error fault => some (.error fault)
  | .ok ioData =>
      (whileLoop (fun s : Chain => !s.lastDevice) (chainPass input.netlistData) fuel
        ⟨ioData, 0, false, false⟩).map
          fun outcome => outcome.map fun s => { input with ioData := s.ioData }

structure Relay where
  relayData : List RelayData := []
  relayAmount : Nat := 0
  deriving DecidableEq, Repr

def convertPin (relayName : Text) : Result Text := do
  let lastChar ← back relayName
  if lastChar.isDigit then
    let tens ← charFromEnd relayName 2
    let pinNumber :=
      if tens.isDigit then RelayConvert.digit lastChar + RelayConvert.digit tens * 10
      else RelayConvert.digit lastChar
    return "DUT_PIN_".toList ++ numeral pinNumber
  else return "DUT_PIN_1".toList

def convertEnum (relayName : Text) : Result Text := do
  let lastChar ← back relayName
  let nameBreaks := relayName.findIdxs (· == '_')
  if lastChar.isDigit then
    let front ← index nameBreaks 0
    let last := nameBreaks.getLastD 0
    -- the length is counted from the code of the last character
    let count : Int := lastChar.toNat - last + 1
    let rest ← substrFrom relayName last (if count < 0 then none else some count.toNat)
    return relayName.take (front + 1) ++ "CIB".toList ++ rest
  else
    match findText "SYSGND".toList relayName with
    | some start => return relayName.take start ++ "SYSGND".toList
    | none =>
        match nameBreaks.getLast? with
        | some last => return relayName.take (last + 1) ++ "CIB".toList
        | none => .error .undefined

def converChain (boardType : Text) : Int :=
  if boardType = "Power".toList then 0 else if boardType = "Precision".toList then 1 else 0

def convertDevice (input : List NetlistData) (i : Nat) (boardType : Text)
    (expanders : List IOData) : Result Int := do
  let net ← index input i
  let deviceNumber ←
    match RelayConvert.expanderRow net with
    | none => pure 0
    | some row =>
        forIn expanders (0 : Int) fun io _ => do
          if io.identifier = (← index net.identifier row) then return .done io.position
          else return .yield 0
  return if boardType = "Power".toList then deviceNumber + 21
    else if boardType = "Precision".toList then deviceNumber + 18 else deviceNumber

def convertPort (input : List NetlistData) (i : Nat) : Result Text := do
  let net ← index input i
  let portIdentifier ←
    match RelayConvert.expanderRow net with
    | none => pure []
    | some row => index net.connection row
  return RelayConvert.portNumber (← stoi portIdentifier)

def getStrengthFromMap (device : Text) (input : Input) : Text :=
  ((input.mapDriveStrength.find? fun entry => (findText entry.1 device).isSome).map
    Prod.snd).getD []

def driveRow (input : Input) (net : NetlistData) (k : Nat) (_ : Text) :
    Result (ForInStep Text) := do
  if (findText "_NC_".toList (← index net.identifier k)).isSome then
    return .done RelayConvert.configOut
  else if (findText "_EN".toList (← index net.name k)).isSome then
    return .done RelayConvert.configOut
  else
    let driveStrength := getStrengthFromMap (← index net.device k) input
    if driveStrength ≠ [] then return .done driveStrength else return .yield driveStrength

def convertDriveStrength (input : Input) (i : Nat) : Result Text := do
  let net ← index input.relayList i
  forIn (List.range net.identifier.length) "CONFIG_LED_10p5_mA".toList (driveRow input net)

def normalRow (input : Input) (net : NetlistData) (k : Nat) (normalState : Text) :
    Result (ForInStep Text) := do
  let strId ← index net.identifier k
  if first strId ≠ 'K' then return .yield normalState
  else
    let str := strId ++ "_".toList ++ (← index net.device k)
    return .yield (if str ∈ input.gndData then "RELAY_NC".toList else normalState)

def convertNormalState (input : Input) (i : Nat) : Result Text := do
  let net ← index input.relayList i
  forIn (List.range net.identifier.length) "RELAY_NO".toList (normalRow input net)

def convertRelay (input : Input) (i : Nat) : Result RelayData := do
  let net ← index input.relayList i
  let relayName ← index net.name 0
  let pin ← convertPin relayName
  let enumeration ← convertEnum relayName
  let deviceNumber ← convertDevice input.relayList i input.boardType input.ioData
  let portNumber ← convertPort input.relayList i
  let driveStrength ← convertDriveStrength input i
  let normalState ← convertNormalState input i
  return { chainNumber := converChain input.boardType,
           pin, enumeration, deviceNumber, portNumber, driveStrength, normalState, relayName }

def relayConvert (input : Input) (relay : Relay) : Result Relay :=
  (List.range relay.relayAmount).foldlM
    (fun relay i => do
      let temp ← convertRelay input i
      return { relay with relayData := relay.relayData ++ [temp] })
    relay

def csvLine (entry : RelayData) : Text :=
  List.intercalate [','] [entry.pin, entry.enumeration, Output.written entry.chainNumber,
    Output.written entry.deviceNumber, entry.portNumber, entry.driveStrength, entry.normalState,
    Output.written entry.minOpenTime, Output.written entry.typOpenTime,
    Output.written entry.maxOpenTime, Output.written entry.minCloseTime,
    Output.written entry.typCloseTime, Output.written entry.maxCloseTime, entry.relayName]

/-- What the files written so far hold, newest first. -/
abbrev Disk := List (Text × Text)

def writeCSV (opens : Text → Bool) (relay : Relay) (outputName : Text) (disk : Disk) :
    Result Disk :=
  if opens outputName then do
    let records ← (List.range relay.relayAmount).mapM (index relay.relayData)
    let content := List.intercalate ['\n'] (records.map csvLine)
    return (outputName, content) :: disk.filter (·.1 ≠ outputName)
  else .ok disk

def arguments (args : List Text) : Text × Text × Text :=
  match args with
  | [strBom, strNetlist, outputName] => (strBom, strNetlist, outputName)
  | strBom :: strNetlist :: _ => (strBom, strNetlist, "Configuration.csv".toList)
  | _ => ([], [], "Configuration.csv".toList)

def readNets (files : Files) (fuel : Nat) (input : Input) : Call (Nat × Input) :=
  andThen (some (getNetlistData files input)) fun (relayAmount, input) =>
    andThen (getDeviceOrder fuel input) fun input => some (.ok (relayAmount, input))

def readBoard (files : Files) (fuel : Nat) (strBom strNetlist : Text) : Call (Nat × Input) :=
  andThen (getBillData files fuel
      { bomPath := strBom, netlistPath := strNetlist, boardType := "Power".toList })
    (readNets files fuel)

def convertBoard (files : Files) (fuel : Nat) (strBom strNetlist : Text) : Call Relay :=
  andThen (readBoard files fuel strBom strNetlist) fun (relayAmount, input) =>
    some (relayConvert input { relayAmount })

/-- The exit code, and the files left, of the program as built without `_DEBUG`. An exception
that leaves `main` ends the program. -/
def main (files : Files) (opens : Text → Bool) (fuel : Nat) (args : List Text) (disk : Disk) :
    Call (Int × Disk) :=
  let (strBom, strNetlist, outputName) := arguments args
  if strBom = [] ∨ strNetlist = [] then some (.ok (1, disk))
  else
    andThen (convertBoard files fuel strBom strNetlist) fun relay =>
      some ((writeCSV opens relay outputName disk).map fun disk => (0, disk))

end RelayDev.Standalone
