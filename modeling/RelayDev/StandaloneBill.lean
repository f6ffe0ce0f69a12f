import RelayDev.BillFile
import RelayDev.Standalone

/-! The bill as both programs read it: upper-casing the lines first comes to upper-casing
what is read. -/

namespace RelayDev.Standalone

open Cpp Text Loop Bill

theorem find_comma (s : Text) : find (toUpper s) ',' = find s ',' :=
  find_toUpper s (by decide) (by decide)

theorem find_quote (s : Text) : find (toUpper s) quote = find s quote :=
  find_toUpper s (by decide) (by decide)

theorem first_quote (s : Text) : first (toUpper s) = quote ↔ first s = quote := by
  rw [first_toUpper]
  exact toUpper_eq_iff _ _ (by decide) (by decide)

theorem cell_toUpper (holder : Text) : cell (toUpper holder) = toUpper (cell holder) := by
  rw [cell, find_comma, substr_toUpper]
  rfl

theorem nextCell_toUpper (holder : Text) :
    nextCell (toUpper holder) = toUpper (nextCell holder) := by
  rw [nextCell, find_comma, erase_toUpper]
  rfl

def upperQuoted (s : Quoted) : Quoted := ⟨toUpper s.holder, s.identifier.map toUpper⟩

theorem quotedTurn_upper (s : Quoted) :
    quotedTurn (upperQuoted s) = (quotedTurn s).map upperQuoted := by
  simp only [quotedTurn, upperQuoted, find_comma, find_quote, cell_toUpper, nextCell_toUpper,
    substr_toUpper, erase_toUpper]
  split
  · simp [Except.map, upperQuoted]
  · simp [Except.map, upperQuoted]

theorem quoted_upper (fuel : Nat) (holder : Text) :
    quoted fuel (toUpper holder) = (quoted fuel holder).map (·.map upperQuoted) := by
  have inside (s : Quoted) : (upperQuoted s).inside = s.inside := by
    rw [Quoted.inside, Quoted.inside, Bool.eq_iff_iff, bne_iff_ne, bne_iff_ne]
    exact not_congr (first_quote s.holder)
  exact whileLoop_image upperQuoted inside quotedTurn_upper fuel ⟨holder, []⟩

theorem identifiers_upper (fuel : Nat) (holder : Text) :
    identifiers fuel (toUpper holder) = (identifiers fuel holder).map (·.map upperQuoted) := by
  by_cases starts : first holder = quote
  · rw [identifiers, identifiers, if_pos starts, if_pos ((first_quote holder).mpr starts),
      erase_toUpper, quoted_upper]
    apply andThen_image
    intro s
    simp [upperQuoted, erase_toUpper, Except.map]
  · rw [identifiers, identifiers, if_neg starts, if_neg (mt (first_quote holder).mp starts),
      cell_toUpper, nextCell_toUpper]
    rfl

theorem description_upper (holder : Text) :
    description (toUpper holder) =
      (toUpper (description holder).1, toUpper (description holder).2) := by
  by_cases starts : first holder = quote
  · simp only [description, if_pos starts, if_pos ((first_quote holder).mpr starts),
      erase_toUpper, find_quote, substr_toUpper]
  · simp only [description, if_neg starts, if_neg (mt (first_quote holder).mp starts),
      cell_toUpper, nextCell_toUpper]

theorem readPart_upper (fuel : Nat) (holder : Text) :
    readPart fuel (toUpper holder) = (readPart fuel holder).map (·.map upperPart) := by
  unfold readPart
  simp only [nextCell_toUpper, cell_toUpper, identifiers_upper]
  apply andThen_image
  intro s
  simp only [upperQuoted, description_upper, cell_toUpper, nextCell_toUpper]
  rfl

def upperReader (r : Bill.Reader) : Bill.Reader := ⟨r.billData.map upperPart, r.loopCounter⟩

theorem storePart_upper (r : Bill.Reader) (temp : BillData) :
    storePart (upperReader r) (upperPart temp) = (storePart r temp).map upperReader := by
  have room : (upperReader r).billData ++ [BillData.empty] =
      (r.billData ++ [BillData.empty]).map upperPart := by
    rw [List.map_append]
    rfl
  rw [storePart, storePart, room]
  have stored := @update_image _ _ upperPart
    (fun bill => { temp with identifier := bill.identifier ++ temp.identifier })
    (fun bill => { upperPart temp with
      identifier := bill.identifier ++ (upperPart temp).identifier })
    (by intro bill; simp [upperPart]) (r.billData ++ [BillData.empty]) r.loopCounter
  rw [show (upperReader r).loopCounter = r.loopCounter from rfl, stored]
  cases update (r.billData ++ [BillData.empty]) r.loopCounter _ <;> rfl

theorem readLine_upper (fuel : Nat) (r : Bill.Reader) (line : Text) :
    Bill.readLine fuel (upperReader r) line =
      (readLine fuel r line).map (·.map upperReader) := by
  have digit : (first (toUpper line)).isDigit = (first line).isDigit := by
    rw [first_toUpper, isDigit_toUpper]
  unfold Bill.readLine readLine
  dsimp only
  rw [digit]
  by_cases part : (first line).isDigit = true
  · rw [if_pos part, if_pos part, readPart_upper]
    exact andThen_image fun temp => congrArg some (storePart_upper r temp)
  · rw [if_neg part, if_neg part]
    rfl

theorem readLines_upper (fuel : Nat) (r : Bill.Reader) (lines : List Text) :
    Bill.readLines fuel (upperReader r) lines =
      (readLines fuel r lines).map (·.map upperReader) := by
  induction lines generalizing r with
  | nil => rfl
  | cons line lines ih =>
      rw [Bill.readLines, readLines, readLine_upper]
      exact andThen_image fun next => ih next

/-- On every file both readers of the bill end or both do not, within the same number of
turns, and the server stores what `relay.cpp` stores in upper case. -/
theorem getBillData_upper (files : Files) (fuel : Nat) (path : Text) :
    (Bill.getBillData files fuel { billName := path }).map (·.map RelayDev.Input.billData) =
      (getBillData files fuel { bomPath := path }).map
        (·.map fun read => read.billData.map upperPart) := by
  have start : upperReader ⟨[], 0⟩ = ⟨[], 0⟩ := rfl
  have lines := readLines_upper fuel ⟨[], 0⟩ (files.lines path)
  rw [start] at lines
  simp only [Bill.getBillData, getBillData, lines]
  rcases readLines fuel ⟨[], 0⟩ (files.lines path) with _ | fault | r <;> rfl

end RelayDev.Standalone
