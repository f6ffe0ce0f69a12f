import RelayDev.Netlist
import RelayDev.RelayFilter

/-! When `filterNetlistData` throws on the nets that `getNetlistData` has read. -/

namespace RelayDev.FilterFaults

open Cpp Text Netlist RelayFilter

/-- A numbered connection to the IO expander that does not fit into `int`. -/
def Overlong (row : Row) : Prop :=
  row.device = expanderDevice ∧ row.connection.all Char.isDigit = true ∧
    2147483647 < Nat.ofDigitChars 10 row.connection 0

/-- A numbered connection to the IO expander that `switch` sends to its default. -/
def Accepted (row : Row) : Prop :=
  row.device = expanderDevice ∧ row.connection.all Char.isDigit = true ∧
    Nat.ofDigitChars 10 row.connection 0 ≤ 2147483647 ∧
    (Nat.ofDigitChars 10 row.connection 0 : Int) ∉ serialPins

def Overflows (rows : List Row) : Prop :=
  ∃ before row after, rows = before ++ row :: after ∧ Overlong row ∧
    ∀ other ∈ before, ¬ Accepted other

def Connected (rows : List Row) : Prop :=
  ∀ row ∈ rows, row.device = expanderDevice → row.connection ≠ []

theorem stripBlanks_head (s : Text) : (stripBlanks s).head? ≠ some ' ' := by
  induction s with
  | nil => simp [stripBlanks]
  | cons c s ih =>
      by_cases blank : c = ' '
      · rw [blank]
        simpa [stripBlanks] using ih
      · simp [stripBlanks, blank]

theorem column_eq_nil {s : Text} (start : s.head? ≠ some ' ') (empty : column s = []) : s = [] := by
  cases s with
  | nil => rfl
  | cons c s =>
      have visible : c ≠ ' ' := by simpa using start
      simp [column, substr_find, visible] at empty

theorem columns_device_nil {holder : Text} (empty : (columns holder).connection = []) :
    (columns holder).device = [] := by
  have nothing : nextColumn (nextColumn holder) = [] :=
    column_eq_nil (stripBlanks_head _) empty
  rw [columns, nothing]
  rfl

theorem fileNets_connected (files : Files) (path : Text) :
    ∀ net ∈ fileNets files path, Connected net.rows := by
  intro net member row inside device empty
  rcases List.mem_append.mp member with isNet | isSpare
  · obtain ⟨run, _, rfl⟩ := List.mem_map.mp isNet
    rw [netOf, NetlistData.rows_ofRows] at inside
    obtain ⟨line, _, rfl⟩ := List.mem_map.mp inside
    rw [columns_device_nil empty] at device
    exact absurd device (by decide)
  · rw [List.eq_of_mem_replicate isSpare] at inside
    cases inside

theorem readRow_fault {row : Row} {fault : Fault}
    (connected : row.device = expanderDevice → row.connection ≠ [])
    (failed : readRow row = .error fault) : fault = .thrown .outOfRange := by
  unfold readRow at failed
  split at failed
  · rename_i device
    split at failed
    · rename_i digits
      rw [stoi_digits row.connection digits, if_neg (connected device)] at failed
      split at failed
      · cases failed
        rfl
      · cases failed
    · cases failed
  · cases failed

theorem foldlM_acceptNet_fault {nets relayList : List NetlistData} {fault : Fault}
    (connected : ∀ net ∈ nets, Connected net.rows)
    (failed : nets.foldlM acceptNet relayList = .error fault) : fault = .thrown .outOfRange := by
  induction nets generalizing relayList with
  | nil => cases failed
  | cons net nets ih =>
      rw [List.foldlM_cons] at failed
      rcases bind_eq_error.mp failed with here | ⟨next, _, later⟩
      · obtain ⟨row, inside, threw⟩ := Loop.anyM_eq_error (map_eq_error.mp here)
        exact readRow_fault (connected net (by simp) row inside) threw
      · exact ih (fun net member => connected net (List.mem_cons_of_mem _ member)) later

theorem not_overflows_nil : ¬ Overflows [] := Loop.not_hit_first_nil

theorem overflows_cons (row : Row) (rows : List Row) :
    Overflows (row :: rows) ↔ Overlong row ∨ ¬ Accepted row ∧ Overflows rows :=
  Loop.hit_first_cons row rows

theorem unreadable_iff {row : Row} (connected : row.device = expanderDevice → row.connection ≠ []) :
    Unreadable row ↔ Overlong row := by
  constructor
  · rintro ⟨device, digits, empty | large⟩
    · exact absurd empty (connected device)
    · exact ⟨device, digits, large⟩
  · rintro ⟨device, digits, large⟩
    exact ⟨device, digits, .inr large⟩

theorem relayRow_iff {row : Row} (connected : row.device = expanderDevice → row.connection ≠ [])
    (fits : ¬ Overlong row) : RelayRow row ↔ Accepted row := by
  constructor
  · rintro ⟨device, _, digits, relay⟩
    have range : ¬ 2147483647 < Nat.ofDigitChars 10 row.connection 0 :=
      fun large => fits ⟨device, digits, large⟩
    exact ⟨device, digits, Nat.le_of_not_lt range, relay⟩
  · rintro ⟨device, digits, _, relay⟩
    exact ⟨device, connected device, digits, relay⟩

theorem stops_iff {rows : List Row} (connected : Connected rows) : Stops rows ↔ Overflows rows := by
  induction rows with
  | nil => exact iff_of_false not_stops_nil not_overflows_nil
  | cons row rows ih =>
      have here := connected row (by simp)
      have rest := ih fun other member => connected other (List.mem_cons_of_mem _ member)
      rw [stops_cons, overflows_cons, unreadable_iff here, rest]
      by_cases overlong : Overlong row
      · exact iff_of_true (.inl overlong) (.inl overlong)
      · rw [relayRow_iff here overlong]

/-- The filter never reads an empty connection, and so never throws `invalid_argument`; it
throws `out_of_range` exactly where a net has an overlong row before any accepted one. -/
theorem filterNetlistData_faults (files : Files) (input : Input)
    (noNets : input.netlistData = []) (noRelays : input.relayList = []) :
    ∃ read, getNetlistData files input = .ok read ∧
      (∀ net ∈ read.netlistData, Connected net.rows) ∧
      filterNetlistData read ≠ throwing .invalidArgument ∧
      (filterNetlistData read = throwing .outOfRange ↔
        ∃ net ∈ read.netlistData, Overflows net.rows) := by
  have parallel := fileNets_parallel files input.netlistName
  have connected := fileNets_connected files input.netlistName
  refine ⟨_, getNetlistData_eq files input noNets, connected, ?_⟩
  generalize fileNets files input.netlistName = nets at parallel connected ⊢
  have stops : (∃ net ∈ nets, Stops net.rows) ↔ ∃ net ∈ nets, Overflows net.rows := by
    constructor
    · rintro ⟨net, member, stopped⟩
      exact ⟨net, member, (stops_iff (connected net member)).mp stopped⟩
    · rintro ⟨net, member, overflows⟩
      exact ⟨net, member, (stops_iff (connected net member)).mpr overflows⟩
  rw [filterNetlistData_eq { input with netlistData := nets } parallel noRelays, ← stops]
  rcases foldlM_acceptNet_cases nets [] with
    ⟨⟨exception, throws⟩, stopped⟩ | ⟨⟨out, finished⟩, reads⟩
  · have same := foldlM_acceptNet_fault connected throws
    cases same
    rw [throws]
    exact ⟨fun other => (by cases other), iff_of_true rfl stopped⟩
  · rw [finished]
    exact ⟨fun other => (by cases other), iff_of_false (fun other => by cases other) reads⟩

def overlongFile : Text :=
  List.intercalate ['\n']
    ["K1 U1 5 ".toList ++ expanderDevice, "K1 U1 99999999999 ".toList ++ expanderDevice,
      "K2 U1 33 ".toList ++ expanderDevice, "K2 U1 2147483648 ".toList ++ expanderDevice]

theorem filterNetlistData_faults_overlongFile :
    ∃ read, getNetlistData (fun _ => some overlongFile) {} = .ok read ∧
      (∀ net ∈ read.netlistData, Connected net.rows) ∧
      filterNetlistData read ≠ throwing .invalidArgument ∧
      (filterNetlistData read = throwing .outOfRange ↔
        ∃ net ∈ read.netlistData, Overflows net.rows) :=
  filterNetlistData_faults (fun _ => some overlongFile) {} rfl rfl

end RelayDev.FilterFaults
