import RelayDev.Data

/-! `Input::getBillData`: reading the bill of materials, line by line. -/

namespace RelayDev.Bill

open Cpp Text Loop

def quote : Char := '\x22'

def cell (holder : Text) : Text := substr holder (find holder ',')

/-- What is left of `holder` from its next cell on; without a comma nothing is erased,
for `npos + 1` is zero. -/
def nextCell (holder : Text) : Text := erase holder (some (past (find holder ',') 1))

structure Quoted where
  holder : Text
  identifier : List Text

def Quoted.inside (s : Quoted) : Bool := first s.holder != quote

/-- The body of `while (holder[0] != '"')`. -/
def quotedTurn (s : Quoted) : Result Quoted :=
  if before (find s.holder ',') (find s.holder quote) then
    .ok ⟨nextCell s.holder, s.identifier ++ [cell s.holder]⟩
  else
    .ok ⟨erase s.holder (find s.holder quote),
      s.identifier ++ [substr s.holder (find s.holder quote)]⟩

def quoted (fuel : Nat) (holder : Text) : Call Quoted :=
  whileLoop Quoted.inside quotedTurn fuel ⟨holder, []⟩

def identifiers (fuel : Nat) (holder : Text) : Call Quoted :=
  if first holder = quote then
    andThen (quoted fuel (erase holder (some 1))) fun s =>
      some (.ok { s with holder := erase s.holder (some 2) })
  else some (.ok ⟨nextCell holder, [cell holder]⟩)

def description (holder : Text) : Text × Text :=
  if first holder = quote then
    let holder := erase holder (some 1)
    (substr holder (find holder quote), erase holder (some (past (find holder quote) 2)))
  else (cell holder, nextCell holder)

def readPart (fuel : Nat) (holder : Text) : Call BillData :=
  let afterItem := nextCell holder
  let afterQuantity := nextCell afterItem
  let afterManufacturer := nextCell afterQuantity
  andThen (identifiers fuel (nextCell afterManufacturer)) fun s =>
    let (text, afterDescription) := description s.holder
    let afterDni := nextCell afterDescription
    some (.ok {
      item := cell holder
      quantity := cell afterItem
      manufacturer := cell afterQuantity
      partNumber := cell afterManufacturer
      identifier := s.identifier
      description := text
      dni := cell afterDescription
      status := cell afterDni
      maxTemp := nextCell afterDni })

structure Reader where
  billData : List BillData
  loopCounter : Nat

def storePart (r : Reader) (temp : BillData) : Result Reader := do
  let billData ← update (r.billData ++ [.empty]) r.loopCounter fun bill =>
    { temp with identifier := bill.identifier ++ temp.identifier }
  return ⟨billData, r.loopCounter + 1⟩

def readLine (fuel : Nat) (r : Reader) (line : Text) : Call Reader :=
  let holder := toUpper line
  if (first holder).isDigit then andThen (readPart fuel holder) fun temp => some (storePart r temp)
  else some (.ok r)

def readLines (fuel : Nat) : Reader → List Text → Call Reader
  | r, [] => some (.ok r)
  | r, line :: lines => andThen (readLine fuel r line) fun r => readLines fuel r lines

def getBillData (files : Files) (fuel : Nat) (input : Input) : Call Input :=
  andThen (readLines fuel ⟨input.billData, 0⟩ (files.lines input.billName)) fun r =>
    some (.ok { input with billData := r.billData })

theorem mem_of_first {s : Text} {c : Char} (starts : first s = c) (visible : c ≠ '\x00') : c ∈ s := by
  cases s with
  | nil => exact absurd starts.symm visible
  | cons d s => simpa [first] using Or.inl starts.symm

theorem quote_mem_nextCell {holder : Text} (closed : quote ∈ holder)
    (comma : before (find holder ',') (find holder quote) = true) :
    quote ∈ nextCell holder ∧ (nextCell holder).length < holder.length := by
  cases foundQuote : find holder quote with
  | none => exact absurd closed (find_eq_none.mp foundQuote)
  | some j =>
      cases foundComma : find holder ',' with
      | none => simp [foundComma, before] at comma
      | some i =>
          have less : i < j := by simpa [foundComma, foundQuote, before] using comma
          have atQuote := find_eq_some foundQuote
          obtain ⟨bound, _⟩ := List.getElem?_eq_some_iff.mp atQuote
          rw [nextCell, foundComma, past, erase]
          constructor
          · refine List.mem_of_getElem? (i := j - (i + 1)) ?_
            rw [List.getElem?_drop, ← atQuote]
            congr 1
            omega
          · rw [List.length_drop]
            omega

theorem quoted_leaves_iff (s : Quoted) :
    (∃ out, Leaves Quoted.inside quotedTurn s out) ↔ quote ∈ s.holder := by
  constructor
  · rintro ⟨out, left⟩
    by_contra unclosed
    refine never_leaves (fun s => quote ∉ s.holder) ?_ unclosed out left
    intro s open'
    have running : first s.holder ≠ quote := fun starts =>
      open' (mem_of_first starts (by decide))
    refine ⟨by simpa [Quoted.inside] using running, ?_⟩
    rw [quotedTurn]
    split
    · exact ⟨_, rfl, fun member => open' (List.mem_of_mem_drop member)⟩
    · rw [find_eq_none.mpr open']
      exact ⟨_, rfl, by simp [erase]⟩
  · intro closed
    generalize size : s.holder.length = count
    -- on the length of what is left of the line
    induction count using Nat.strong_induction_on generalizing s with
    | _ count ih =>
        by_cases stopped : first s.holder = quote
        · exact ⟨_, leaves_exit (by simpa [Quoted.inside] using stopped)⟩
        · have running : s.inside = true := by simpa [Quoted.inside] using stopped
          by_cases comma : before (find s.holder ',') (find s.holder quote) = true
          · have turn : quotedTurn s =
                .ok ⟨nextCell s.holder, s.identifier ++ [cell s.holder]⟩ := by
              rw [quotedTurn, if_pos comma]
            obtain ⟨kept, shorter⟩ := quote_mem_nextCell closed comma
            obtain ⟨out, left⟩ := ih _ (size ▸ shorter)
              ⟨nextCell s.holder, s.identifier ++ [cell s.holder]⟩ kept rfl
            exact ⟨out, (leaves_step running turn out).mpr left⟩
          · have turn : quotedTurn s = .ok ⟨erase s.holder (find s.holder quote),
                s.identifier ++ [substr s.holder (find s.holder quote)]⟩ := by
              rw [quotedTurn, if_neg comma]
            have stops : Quoted.inside ⟨erase s.holder (find s.holder quote),
                s.identifier ++ [substr s.holder (find s.holder quote)]⟩ = false := by
              simpa [Quoted.inside] using first_erase_find closed
            exact ⟨_, (leaves_step running turn _).mpr (leaves_exit stops)⟩

theorem quoted_never_fails {s : Quoted} {out : Result Quoted}
    (left : Leaves Quoted.inside quotedTurn s out) : ∃ last, out = .ok last := by
  refine leaves_induction (P := fun _ => ∃ last, out = .ok last) ?_ ?_ ?_ left
  · intro s _ same
    exact ⟨s, same⟩
  · intro s e _ failed _
    rw [quotedTurn] at failed
    split at failed <;> cases failed
  · intro s next _ _ ih
    exact ih

def Closed (holder : Text) : Prop := first holder = quote → quote ∈ holder.drop 1

theorem quoted_returns (holder : Text) :
    Returns (quoted · holder) (quote ∈ holder) fun _ => True where
  returns := by
    intro closed
    obtain ⟨out, left⟩ := (quoted_leaves_iff ⟨holder, []⟩).mpr closed
    obtain ⟨last, rfl⟩ := quoted_never_fails left
    exact ⟨last, left, trivial⟩
  only := by
    intro r ended
    obtain ⟨last, rfl⟩ := quoted_never_fails ended
    exact ⟨(quoted_leaves_iff ⟨holder, []⟩).mp ⟨_, ended⟩, last, rfl, trivial⟩

theorem steady_quoted (holder : Text) : Steady (quoted · holder) := steady_whileLoop _ _ _

theorem steady_identifiers (holder : Text) : Steady (identifiers · holder) := by
  unfold identifiers
  split
  · exact (steady_quoted _).andThen fun s => steady_const _
  · exact steady_const _

theorem identifiers_returns (holder : Text) :
    Returns (identifiers · holder) (Closed holder) fun _ => True := by
  unfold identifiers
  by_cases starts : first holder = quote
  · simp only [starts, if_true]
    refine ((quoted_returns _).andThen (steady_quoted _) (fun s => steady_const _)
      fun s _ => returns_const (fun _ => True) trivial).congr ?_ fun _ _ => trivial
    simp [Closed, starts, erase]
  · simp only [starts, if_false]
    exact (returns_const (fun _ => True) trivial).congr (by simp [Closed, starts]) fun _ _ => trivial

def identifierCell (holder : Text) : Text := nextCell (nextCell (nextCell (nextCell holder)))

/-- A line is no part, or its cell of identifiers is closed. -/
def LineCloses (line : Text) : Prop :=
  (first (toUpper line)).isDigit = true → Closed (identifierCell (toUpper line))

theorem steady_readPart (holder : Text) : Steady (readPart · holder) :=
  (steady_identifiers _).andThen fun _ => steady_const _

theorem readPart_returns (holder : Text) :
    Returns (readPart · holder) (Closed (identifierCell holder)) fun _ => True :=
  ((identifiers_returns _).andThen (steady_identifiers _) (fun s => steady_const _)
    fun s _ => returns_const (fun _ => True) trivial).congr (by simp [identifierCell]) fun _ _ => trivial

def Reader.Counts (r : Reader) : Prop := r.loopCounter ≤ r.billData.length

theorem storePart_counts {r : Reader} (counts : r.Counts) (temp : BillData) :
    ∃ next, storePart r temp = .ok next ∧ next.Counts := by
  have bound : r.loopCounter < (r.billData ++ [BillData.empty]).length := by
    rw [List.length_append, List.length_singleton]
    exact Nat.lt_succ_of_le counts
  simp only [storePart, update, if_pos bound, ok_bind, pure_eq_ok]
  exact ⟨_, rfl, by simpa [Reader.Counts] using counts⟩

theorem steady_readLine (r : Reader) (line : Text) : Steady (readLine · r line) := by
  unfold readLine
  dsimp only
  split
  · exact (steady_readPart _).andThen fun temp => steady_const _
  · exact steady_const _

theorem readLine_returns {r : Reader} (counts : r.Counts) (line : Text) :
    Returns (readLine · r line) (LineCloses line) Reader.Counts := by
  unfold readLine
  by_cases part : (first (toUpper line)).isDigit = true
  · have stores (temp : BillData) : Returns (fun _ => some (storePart r temp)) True Reader.Counts := by
      obtain ⟨next, stored, counts'⟩ := storePart_counts counts temp
      rw [stored]
      exact returns_const _ counts'
    simp only [part, if_true]
    exact ((readPart_returns _).andThen (steady_readPart _) (fun _ => steady_const _)
      fun temp _ => stores temp).congr (by simp [LineCloses, part]) fun _ holds => holds
  · simp only [part, if_false, Bool.false_eq_true]
    exact (returns_const _ counts).congr (by simp [LineCloses, part]) fun _ holds => holds

theorem steady_readLines (r : Reader) (lines : List Text) : Steady (readLines · r lines) := by
  induction lines generalizing r with
  | nil => exact steady_const _
  | cons line lines ih => exact (steady_readLine r line).andThen ih

theorem readLines_returns {r : Reader} (counts : r.Counts) (lines : List Text) :
    Returns (readLines · r lines) (∀ line ∈ lines, LineCloses line) Reader.Counts := by
  induction lines generalizing r with
  | nil => exact (returns_const _ counts).congr (by simp) fun _ holds => holds
  | cons line lines ih =>
      refine ((readLine_returns counts line).andThen (steady_readLine r line)
        (fun r => steady_readLines r lines) fun r holds => ih holds).congr ?_ fun _ holds => holds
      simp

theorem steady_getBillData (files : Files) (input : Input) :
    Steady (getBillData files · input) :=
  (steady_readLines _ _).andThen fun _ => steady_const _

theorem getBillData_returns (files : Files) (input : Input) :
    Returns (getBillData files · input) (∀ line ∈ files.lines input.billName, LineCloses line)
      fun out => ∃ billData, out = { input with billData } :=
  ((readLines_returns (Nat.zero_le _) _).andThen (steady_readLines _ _) (fun _ => steady_const _)
    fun r _ => returns_const _ ⟨r.billData, rfl⟩).congr (by simp) fun _ holds => holds

def PartLine (line : Text) : Bool := (first (toUpper line)).isDigit

def ReadAs (line : Text) (bill : BillData) : Prop := Ends (readPart · (toUpper line)) (.ok bill)

theorem readLine_stores {r next : Reader} {line : Text}
    (counted : r.loopCounter = r.billData.length) (part : PartLine line = true) :
    Ends (readLine · r line) (.ok next) ↔
      ∃ bill, ReadAs line bill ∧ next = ⟨r.billData ++ [bill], r.loopCounter + 1⟩ := by
  have digit : (first (toUpper line)).isDigit = true := part
  have stored (bill : BillData) :
      storePart r bill = .ok ⟨r.billData ++ [bill], r.loopCounter + 1⟩ := by
    rw [storePart, counted, update_middle]
    rfl
  unfold readLine
  simp only [digit, if_true]
  rw [ends_andThen_ok (steady_readPart _) fun bill => steady_const _]
  constructor
  · rintro ⟨bill, read, same⟩
    rw [ends_const, stored] at same
    exact ⟨bill, read, Except.ok.inj same⟩
  · rintro ⟨bill, read, rfl⟩
    exact ⟨bill, read, ends_const.mpr (stored bill).symm⟩

theorem readLine_skips {r next : Reader} {line : Text} (other : PartLine line = false) :
    Ends (readLine · r line) (.ok next) ↔ next = r := by
  have start : (first (toUpper line)).isDigit = false := other
  unfold readLine
  simp only [start, Bool.false_eq_true, if_false, ends_const, Except.ok.injEq]

theorem quotedTurn_shorter {s next : Quoted} (closed : quote ∈ s.holder)
    (running : first s.holder ≠ quote) (stepped : quotedTurn s = .ok next) :
    quote ∈ next.holder ∧ next.identifier.length + next.holder.length ≤
      s.identifier.length + s.holder.length := by
  by_cases comma : before (find s.holder ',') (find s.holder quote) = true
  · rw [quotedTurn, if_pos comma] at stepped
    cases stepped
    obtain ⟨kept, shorter⟩ := quote_mem_nextCell closed comma
    refine ⟨kept, ?_⟩
    simp only [List.length_append, List.length_singleton]
    omega
  · rw [quotedTurn, if_neg comma] at stepped
    cases stepped
    have stops := first_erase_find closed
    refine ⟨mem_of_first stops (by decide), ?_⟩
    cases found : find s.holder quote with
    | none => exact absurd closed (find_eq_none.mp found)
    | some i =>
        have inside := find_eq_some found
        obtain ⟨bound, _⟩ := List.getElem?_eq_some_iff.mp inside
        have ahead : i ≠ 0 := by
          intro zero
          rw [found, zero, erase, List.drop_zero] at stops
          exact running stops
        simp only [erase, List.length_append, List.length_singleton, List.length_drop]
        omega

theorem quoted_count {s last : Quoted} (left : Leaves Quoted.inside quotedTurn s (.ok last))
    (closed : quote ∈ s.holder) :
    last.identifier.length + last.holder.length ≤ s.identifier.length + s.holder.length := by
  revert closed
  apply leaves_induction ?_ ?_ ?_ left
  · intro s _ same _
    cases same
    exact Nat.le_refl _
  · intro s e _ _ same
    cases same
  · intro s next running stepped ih closed
    have outside : first s.holder ≠ quote := by simpa [Quoted.inside] using running
    obtain ⟨kept, bound⟩ := quotedTurn_shorter closed outside stepped
    exact Nat.le_trans (ih kept) bound

theorem nextCell_length (holder : Text) : (nextCell holder).length ≤ holder.length := by
  rw [nextCell, erase, List.length_drop]
  exact Nat.sub_le _ _

/-- On a line of a part the loop over a quoted cell ends, and pushes at most as many
identifiers as the line has characters. -/
def LineSplits (line : Text) : Prop :=
  (first (toUpper line)).isDigit = true → first (identifierCell (toUpper line)) = quote →
    ∃ s, Ends (quoted · (erase (identifierCell (toUpper line)) (some 1))) (.ok s) ∧
      s.identifier.length ≤ line.length

theorem lineSplits_iff (line : Text) : LineSplits line ↔ LineCloses line := by
  constructor
  · intro splits part starts
    obtain ⟨s, ended, _⟩ := splits part starts
    exact ((quoted_returns _).only _ ended).1
  · intro closes part starts
    have closed := closes part starts
    obtain ⟨s, ended, _⟩ := (quoted_returns _).returns closed
    refine ⟨s, ended, ?_⟩
    have count := quoted_count ended closed
    have shorter : (identifierCell (toUpper line)).length ≤ line.length := by
      calc
        (identifierCell (toUpper line)).length ≤ (toUpper line).length :=
          (nextCell_length _).trans ((nextCell_length _).trans
            ((nextCell_length _).trans (nextCell_length _)))
        _ = line.length := List.length_map _
    simp only [List.length_drop, List.length_nil] at count
    omega

/-- `getBillData` ends, and its loop over quoted identifiers with it, exactly on the bills
where each quoted cell of identifiers is closed. The cell is what four cuts at commas leave of
the line, from its fifth cell on or, of a shorter line, the last one. -/
theorem getBillData_ends_iff (files : Files) (input : Input) :
    ((∃ r, Ends (getBillData files · input) r) ∧
        ∀ line ∈ files.lines input.billName, LineSplits line) ↔
      ∀ line ∈ files.lines input.billName, LineCloses line := by
  constructor
  · rintro ⟨⟨r, ended⟩, _⟩
    exact ((getBillData_returns files input).only r ended).1
  · intro closes
    obtain ⟨out, ended, _⟩ := (getBillData_returns files input).returns closes
    refine ⟨⟨_, ended⟩, ?_⟩
    intro line member
    exact (lineSplits_iff line).mpr (closes line member)

def cutBill : Files := fun _ => some "1,2,TI,MAX6957,\x22U1,U2".toList

theorem getBillData_cutBill :
    ¬ (∃ r, Ends (getBillData cutBill · {}) r) ∧
      ∀ s, ¬ Ends (quoted · "U1,U2".toList) s := by
  constructor
  · rintro ⟨r, ended⟩
    have closes := ((getBillData_returns cutBill {}).only r ended).1
    exact absurd (closes "1,2,TI,MAX6957,\x22U1,U2".toList (by decide) (by decide) (by decide))
      (by decide)
  · intro s ended
    exact absurd ((quoted_returns _).only s ended).1 (by decide)

end RelayDev.Bill
