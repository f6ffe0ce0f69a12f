import RelayDev.Lib.Text

/-! The records of `CIBData.h` and the fields of `Input`. -/

namespace RelayDev

open Text

structure RelayData where
  pin : Text := []
  enumeration : Text := []
  chainNumber : Int := 0
  deviceNumber : Int := 0
  portNumber : Text := []
  driveStrength : Text := []
  normalState : Text := []
  minOpenTime : Int := 0
  typOpenTime : Int := 60
  maxOpenTime : Int := 200
  minCloseTime : Int := 0
  typCloseTime : Int := 100
  maxCloseTime : Int := 500
  relayName : Text := []
  deriving DecidableEq, Repr

/-- One net of the netlist: four columns, filled side by side. -/
structure NetlistData where
  name : List Text := []
  identifier : List Text := []
  connection : List Text := []
  device : List Text := []
  deriving DecidableEq, Repr

structure BillData where
  item : Text := []
  quantity : Text := []
  manufacturer : Text := []
  partNumber : Text := []
  identifier : List Text := []
  description : Text := []
  dni : Text := []
  status : Text := []
  maxTemp : Text := []
  deriving DecidableEq, Repr

def BillData.empty : BillData := {}

structure IOData where
  identifier : Text := []
  position : Int := 0
  deriving DecidableEq, Repr

def IOData.empty : IOData := {}

structure ModelData where
  relayModel : Text
  driveStrength : Text
  deriving DecidableEq, Repr

structure Input where
  netlistName : Text := []
  billName : Text := []
  boardType : Text := []
  billData : List BillData := []
  ioData : List IOData := []
  netlistData : List NetlistData := []
  relayList : List NetlistData := []
  modelData : List ModelData := []
  deriving DecidableEq, Repr

/-- What the files hold: `none` for a path that cannot be opened. -/
abbrev Files := Text → Option Text

/-- The lines a `getline` loop sees; a stream that is not open has none. -/
def Files.lines (files : Files) (path : Text) : List Text :=
  match files path with
  | some content => getlines content
  | none => []

def expanderDevice : Text := "MAX6957ATL_TQFN-40-MAX6957ATL+".toList

structure Row where
  name : Text
  identifier : Text
  connection : Text
  device : Text
  deriving DecidableEq, Repr

namespace NetlistData

def Parallel (net : NetlistData) : Prop :=
  net.identifier.length = net.name.length ∧ net.connection.length = net.name.length ∧
    net.device.length = net.name.length

instance (net : NetlistData) : Decidable net.Parallel :=
  inferInstanceAs (Decidable (_ ∧ _ ∧ _))

def empty : NetlistData := {}

def rows (net : NetlistData) : List Row :=
  (net.name.zip (net.identifier.zip (net.connection.zip net.device))).map
    fun (name, identifier, connection, device) => ⟨name, identifier, connection, device⟩

def ofRows (rows : List Row) : NetlistData :=
  ⟨rows.map Row.name, rows.map Row.identifier, rows.map Row.connection, rows.map Row.device⟩

def push (net : NetlistData) (row : Row) : NetlistData :=
  ⟨net.name ++ [row.name], net.identifier ++ [row.identifier],
    net.connection ++ [row.connection], net.device ++ [row.device]⟩

@[simp] theorem ofRows_name (rows : List Row) : (ofRows rows).name = rows.map Row.name := rfl

@[simp] theorem ofRows_identifier (rows : List Row) :
    (ofRows rows).identifier = rows.map Row.identifier := rfl

@[simp] theorem ofRows_connection (rows : List Row) :
    (ofRows rows).connection = rows.map Row.connection := rfl

@[simp] theorem ofRows_device (rows : List Row) : (ofRows rows).device = rows.map Row.device := rfl

@[simp] theorem ofRows_nil : ofRows [] = empty := rfl

@[simp] theorem rows_ofRows (rows : List Row) : (ofRows rows).rows = rows := by
  induction rows with
  | nil => rfl
  | cons row rows ih =>
      simp only [NetlistData.rows, ofRows, List.map_cons, List.zip_cons_cons] at ih ⊢
      rw [ih]

theorem ofRows_rows (net : NetlistData) (parallel : net.Parallel) : ofRows net.rows = net := by
  obtain ⟨name, identifier, connection, device⟩ := net
  obtain ⟨first, second, third⟩ := parallel
  simp only at first second third
  induction name generalizing identifier connection device with
  | nil =>
      simp_all [NetlistData.rows, ofRows]
  | cons n name ih =>
      obtain ⟨i, identifier, rfl⟩ := List.exists_cons_of_length_eq_add_one first
      obtain ⟨c, connection, rfl⟩ := List.exists_cons_of_length_eq_add_one second
      obtain ⟨d, device, rfl⟩ := List.exists_cons_of_length_eq_add_one third
      have rest := ih identifier connection device (by simpa using first) (by simpa using second)
        (by simpa using third)
      simp only [NetlistData.rows, ofRows, List.zip_cons_cons, List.map_cons, mk.injEq] at rest ⊢
      simp [rest]

theorem ofRows_parallel (rows : List Row) : (ofRows rows).Parallel := by
  simp [Parallel]

@[simp] theorem empty_push (row : Row) : empty.push row = ofRows [row] := rfl

theorem push_ofRows (rows : List Row) (row : Row) :
    (ofRows rows).push row = ofRows (rows ++ [row]) := by
  simp [push, ofRows]

end NetlistData

def allRows (nets : List NetlistData) : List Row := nets.flatMap NetlistData.rows

end RelayDev
