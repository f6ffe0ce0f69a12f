import RelayDev.Saving
import RelayDev.Bill

/-! What the rows in the table of the bill still tell of it. -/

namespace RelayDev.Output

open Cpp Text RelayConvert Bill

def PlainNumeral (s : Text) : Prop :=
  s ≠ [] ∧ s.all Char.isDigit = true ∧ Nat.ofDigitChars 10 s 0 ≤ 2147483647

instance (s : Text) : Decidable (PlainNumeral s) := inferInstanceAs (Decidable (_ ∧ _ ∧ _))

def PlainPart (bill : BillData) : Prop := PlainNumeral bill.item ∧ PlainNumeral bill.quantity

instance (bill : BillData) : Decidable (PlainPart bill) := inferInstanceAs (Decidable (_ ∧ _))

/-- Two parts agree in the value of their numerals, in every text, and in what `shown` shows
of their identifiers. -/
structure Agree (shown : List Text → List Text) (bill other : BillData) : Prop where
  item : Nat.ofDigitChars 10 bill.item 0 = Nat.ofDigitChars 10 other.item 0
  quantity : Nat.ofDigitChars 10 bill.quantity 0 = Nat.ofDigitChars 10 other.quantity 0
  manufacturer : bill.manufacturer = other.manufacturer
  partNumber : bill.partNumber = other.partNumber
  identifier : shown bill.identifier = shown other.identifier
  description : bill.description = other.description
  dni : bill.dni = other.dni
  status : bill.status = other.status
  maxTemp : bill.maxTemp = other.maxTemp

def SameBill (bills others : List BillData) : Prop := List.Forall₂ (Agree id) bills others

/-- The bills differ, but in nothing besides identifiers behind the first one of a part. -/
def DifferOnlyInLaterIdentifiers (bills others : List BillData) : Prop :=
  List.Forall₂ (Agree (List.take 1)) bills others ∧
    ¬ List.Forall₂ (fun bill other => bill.identifier = other.identifier) bills others

theorem stoi_plain {s : Text} (plain : PlainNumeral s) :
    stoi s = .ok (Nat.ofDigitChars 10 s 0 : Int) := by
  rw [stoi_digits s plain.2.1, if_neg plain.1, if_neg (Nat.not_lt.mpr plain.2.2)]

theorem billRow_plain {bill : BillData} {values : List Value} (plain : PlainPart bill)
    (bound : billRow bill = .ok values) :
    ∃ identifier, bill.identifier.take 1 = [identifier] ∧
      values = [.int 1, .int (Nat.ofDigitChars 10 bill.item 0),
        .int (Nat.ofDigitChars 10 bill.quantity 0), .text bill.manufacturer, .text bill.partNumber,
        .text identifier, .text bill.description, .text bill.dni, .text bill.status,
        .text bill.maxTemp] := by
  rw [billRow, stoi_plain plain.1, ok_bind, stoi_plain plain.2, ok_bind] at bound
  obtain ⟨identifier, first, same⟩ := bind_eq_ok.mp bound
  cases same
  refine ⟨identifier, ?_, rfl⟩
  cases listed : bill.identifier with
  | nil =>
      rw [listed] at first
      cases first
  | cons head rest =>
      rw [listed] at first
      cases first
      rfl

theorem billRow_eq_iff {bill other : BillData} {values values' : List Value}
    (plain : PlainPart bill) (plain' : PlainPart other) (bound : billRow bill = .ok values)
    (bound' : billRow other = .ok values') :
    values = values' ↔ Agree (List.take 1) bill other := by
  obtain ⟨identifier, first, rfl⟩ := billRow_plain plain bound
  obtain ⟨identifier', first', rfl⟩ := billRow_plain plain' bound'
  constructor
  · intro same
    simp only [List.cons.injEq, Value.int.injEq, Value.text.injEq, Int.natCast_inj] at same
    obtain ⟨_, item, quantity, manufacturer, partNumber, shown, description, dni, status, maxTemp,
      _⟩ := same
    exact ⟨item, quantity, manufacturer, partNumber, by rw [first, first', shown], description, dni,
      status, maxTemp⟩
  · intro agree
    have shown := agree.identifier
    rw [first, first'] at shown
    rw [agree.item, agree.quantity, agree.manufacturer, agree.partNumber,
      (List.cons.inj shown).1, agree.description, agree.dni, agree.status, agree.maxTemp]

theorem rows_eq_iff {bills others : List BillData} {rows rows' : List (List Value)}
    (plain : ∀ bill ∈ bills, PlainPart bill) (plain' : ∀ bill ∈ others, PlainPart bill)
    (bound : bills.map billRow = rows.map .ok) (bound' : others.map billRow = rows'.map .ok) :
    rows = rows' ↔ List.Forall₂ (Agree (List.take 1)) bills others := by
  induction bills generalizing others rows rows' with
  | nil =>
      obtain rfl : rows = [] := List.map_eq_nil_iff.mp bound.symm
      cases others with
      | nil =>
          obtain rfl : rows' = [] := List.map_eq_nil_iff.mp bound'.symm
          exact iff_of_true rfl .nil
      | cons other others =>
          obtain ⟨value', rows', rfl, _⟩ := List.map_eq_cons_iff.mp bound'.symm
          exact iff_of_false (by simp) fun agree => by cases agree
  | cons bill bills ih =>
      obtain ⟨value, rows, rfl, read, bound⟩ := List.map_eq_cons_iff.mp bound.symm
      cases others with
      | nil =>
          obtain rfl : rows' = [] := List.map_eq_nil_iff.mp bound'.symm
          exact iff_of_false (by simp) fun agree => by cases agree
      | cons other others =>
          obtain ⟨value', rows', rfl, read', bound'⟩ := List.map_eq_cons_iff.mp bound'.symm
          have here := billRow_eq_iff (plain bill (by simp)) (plain' other (by simp)) read.symm
            read'.symm
          have rest := ih (fun b member => plain b (List.mem_cons_of_mem _ member))
            (fun b member => plain' b (List.mem_cons_of_mem _ member)) bound.symm bound'.symm
          rw [List.cons.injEq, List.forall₂_cons, here, rest]

theorem inserted_bills {world : World} {input : Input} {relay : Relay} {s next : Session}
    (quiet : ∀ k, world.databaseThrows k = false)
    (saved : (saveData world input relay).out s = (.ok (), next)) :
    input.billData.map billRow = (inserted .inputBOM s.store next.store).map .ok := by
  obtain ⟨⟨calls, more, ended⟩, _⟩ := saveData_inserts saved
  exact ended.whole_iff.mpr (quiet_of_calm quiet _ _)

theorem sameBill_iff {bills others : List BillData}
    (agree : List.Forall₂ (Agree (List.take 1)) bills others) :
    SameBill bills others ↔
      List.Forall₂ (fun bill other => bill.identifier = other.identifier) bills others := by
  constructor
  · intro same
    exact same.imp fun _ _ part => part.identifier
  · intro same
    induction agree with
    | nil => exact .nil
    | cons part rest ih =>
        cases same with
        | cons identifier same =>
            refine .cons ?_ (ih same)
            exact ⟨part.item, part.quantity, part.manufacturer, part.partNumber, identifier,
              part.description, part.dni, part.status, part.maxTemp⟩

/-- With plain numerals and no failing insert, the rows of two bills tell them apart exactly
if the bills do not differ in later identifiers only. -/
theorem inserted_determine_iff (world world' : World) (input input' : Input) (relay relay' : Relay)
    (s s' next next' : Session) (plain : ∀ bill ∈ input.billData, PlainPart bill)
    (plain' : ∀ bill ∈ input'.billData, PlainPart bill)
    (quiet : ∀ k, world.databaseThrows k = false) (quiet' : ∀ k, world'.databaseThrows k = false)
    (saved : (saveData world input relay).out s = (.ok (), next))
    (saved' : (saveData world' input' relay').out s' = (.ok (), next')) :
    (inserted .inputBOM s.store next.store = inserted .inputBOM s'.store next'.store →
        SameBill input.billData input'.billData) ↔
      ¬ DifferOnlyInLaterIdentifiers input.billData input'.billData := by
  rw [rows_eq_iff plain plain' (inserted_bills quiet saved) (inserted_bills quiet' saved')]
  constructor
  · intro determined differ
    exact differ.2 ((sameBill_iff differ.1).mp (determined differ.1))
  · intro allowed agree
    apply (sameBill_iff agree).mpr
    by_contra later
    exact allowed ⟨agree, later⟩

def pairBill (second : Text) : Files := fun _ =>
  some ("1,2,TI,MAX6957,\x22U1,".toList ++ second ++ "\x22,EXPANDER,N,ACTIVE,85".toList)

def pairPart (second : Text) : BillData where
  item := "1".toList
  quantity := "2".toList
  manufacturer := "TI".toList
  partNumber := "MAX6957".toList
  identifier := ["U1".toList, second]
  description := "EXPANDER".toList
  dni := "N".toList
  status := "ACTIVE".toList
  maxTemp := "85".toList

def calm : World := ⟨fun _ => false, fun _ => true⟩

def savedPair (second : Text) : Result Unit × Session :=
  (saveData calm { billData := [pairPart second] } {}).out ⟨{}, 0⟩

theorem savedPair_loses :
    getBillData (pairBill "U2".toList) 5 {} = some (.ok { billData := [pairPart "U2".toList] }) ∧
      getBillData (pairBill "U3".toList) 5 {} = some (.ok { billData := [pairPart "U3".toList] }) ∧
      (savedPair "U2".toList).1 = .ok () ∧ (savedPair "U3".toList).1 = .ok () ∧
      inserted .inputBOM {} (savedPair "U2".toList).2.store =
        inserted .inputBOM {} (savedPair "U3".toList).2.store ∧
      ¬ SameBill [pairPart "U2".toList] [pairPart "U3".toList] := by
  refine ⟨by decide +kernel, by decide +kernel, by decide, by decide, by decide, ?_⟩
  intro same
  cases same with
  | cons part _ => exact absurd part.identifier (by decide)

theorem inserted_determine_iff_savedPair :
    (inserted .inputBOM {} (savedPair "U2".toList).2.store =
        inserted .inputBOM {} (savedPair "U3".toList).2.store →
          SameBill [pairPart "U2".toList] [pairPart "U3".toList]) ↔
      ¬ DifferOnlyInLaterIdentifiers [pairPart "U2".toList] [pairPart "U3".toList] :=
  inserted_determine_iff calm calm { billData := [pairPart "U2".toList] }
    { billData := [pairPart "U3".toList] } {} {} ⟨{}, 0⟩ ⟨{}, 0⟩ _ _
    (by decide) (by decide) (fun _ => rfl) (fun _ => rfl) rfl rfl

end RelayDev.Output
