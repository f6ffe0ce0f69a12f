import RelayDev.BillFile

/-! Which records `getBillData` stores for the lines of parts. -/

namespace RelayDev.Bill

open Cpp Text Loop

def fields (bill : BillData) : List (List Text) :=
  [[bill.item], [bill.quantity], [bill.manufacturer], [bill.partNumber], bill.identifier,
    [bill.description], [bill.dni], [bill.status], [bill.maxTemp]]

/-- The first fields hold the cells, one each, and the others no text. -/
def HoldsCells (cells : List Text) (bill : BillData) : Prop :=
  (fields bill).take cells.length = cells.map ([·]) ∧
    ∀ texts ∈ (fields bill).drop cells.length, ∀ text ∈ texts, text = []

instance (cells : List Text) (bill : BillData) : Decidable (HoldsCells cells bill) :=
  inferInstanceAs (Decidable (_ ∧ _))

/-- `n` cuts in front of commas, and what they leave. -/
def plainCells : Nat → Text → List Text
  | 0, holder => [holder]
  | n + 1, holder => cell holder :: plainCells n (nextCell holder)

theorem readLines_records {r last : Reader} {lines : List Text}
    (counted : r.loopCounter = r.billData.length)
    (read : Ends (readLines · r lines) (.ok last)) :
    ∃ records, List.Forall₂ ReadAs (lines.filter PartLine) records ∧
      last.billData = r.billData ++ records := by
  induction lines generalizing r with
  | nil =>
      cases Except.ok.inj (ends_const.mp read)
      exact ⟨[], .nil, by simp⟩
  | cons line lines ih =>
      obtain ⟨next, here, rest⟩ := (ends_andThen_ok (steady_readLine r line)
        fun next => steady_readLines next lines).mp read
      cases part : PartLine line with
      | true =>
          obtain ⟨bill, taken, rfl⟩ := (readLine_stores counted part).mp here
          obtain ⟨records, found, stored⟩ := ih (by simp [counted]) rest
          refine ⟨bill :: records, ?_, by simpa using stored⟩
          rw [List.filter_cons_of_pos part]
          exact .cons taken found
      | false =>
          obtain rfl := (readLine_skips part).mp here
          rw [List.filter_cons_of_neg (by simp [part])]
          exact ih counted rest

theorem getBillData_records {files : Files} {input out : Input} (start : input.billData = [])
    (read : Ends (getBillData files · input) (.ok out)) :
    List.Forall₂ ReadAs ((files.lines input.billName).filter PartLine) out.billData := by
  obtain ⟨last, lines, same⟩ :=
    (ends_andThen_ok (steady_readLines _ _) fun r => steady_const _).mp read
  cases Except.ok.inj (ends_const.mp same)
  rw [start] at lines
  obtain ⟨records, found, stored⟩ := @readLines_records ⟨[], 0⟩ _ _ rfl lines
  rw [stored]
  exact found

theorem getBillData_record_at {files : Files} {input out : Input} {line : Text} {bill : BillData}
    (start : input.billData = []) (read : Ends (getBillData files · input) (.ok out))
    (part : PartLine line = true) (taken : ReadAs line bill) {before after : List Text}
    (split : files.lines input.billName = before ++ line :: after) :
    out.billData[(before.filter PartLine).length]? = some bill := by
  have found := List.forall₂_drop (before.filter PartLine).length (getBillData_records start read)
  rw [split, List.filter_append, List.drop_left, List.filter_cons_of_pos part] at found
  obtain ⟨here, records, same, _, rest⟩ := List.forall₂_cons_left_iff.mp found
  have read' := (steady_readPart _).unique taken same
  rw [← Nat.add_zero (before.filter PartLine).length, ← List.getElem?_drop, rest]
  simpa using (Except.ok.inj read').symm

theorem quote_notMem_nextCell {holder : Text} (unquoted : quote ∉ holder) :
    quote ∉ nextCell holder := fun member => unquoted (List.mem_of_mem_drop member)

theorem first_ne_quote {holder : Text} (unquoted : quote ∉ holder) : first holder ≠ quote :=
  fun starts => unquoted (mem_of_first starts (by decide))

theorem readPart_ends {holder text after : Text} {s : Quoted}
    (listed : Ends (identifiers · (identifierCell holder)) (.ok s))
    (described : description s.holder = (text, after)) :
    Ends (readPart · holder) (.ok {
      item := cell holder
      quantity := cell (nextCell holder)
      manufacturer := cell (nextCell (nextCell holder))
      partNumber := cell (nextCell (nextCell (nextCell holder)))
      identifier := s.identifier
      description := text
      dni := cell after
      status := cell (nextCell after)
      maxTemp := nextCell (nextCell after) }) := by
  obtain ⟨rfl, rfl⟩ : text = (description s.holder).1 ∧ after = (description s.holder).2 := by
    rw [described]
    exact ⟨rfl, rfl⟩
  exact (ends_andThen (steady_identifiers _) fun s => steady_const _).mpr
    (.inr ⟨s, listed, ends_const.mpr rfl⟩)

theorem readPart_plain {holder : Text} (unquoted : quote ∉ holder) :
    ∃ bill, Ends (readPart · holder) (.ok bill) ∧
      fields bill = (plainCells 8 holder).map ([·]) := by
  have fifth : quote ∉ identifierCell holder :=
    quote_notMem_nextCell (quote_notMem_nextCell (quote_notMem_nextCell
      (quote_notMem_nextCell unquoted)))
  have listed : Ends (identifiers · (identifierCell holder))
      (.ok ⟨nextCell (identifierCell holder), [cell (identifierCell holder)]⟩) := by
    simp only [identifiers, first_ne_quote fifth, if_false]
    exact ends_const.mpr rfl
  have described : description (nextCell (identifierCell holder)) =
      (cell (nextCell (identifierCell holder)),
        nextCell (nextCell (identifierCell holder))) := by
    rw [description, if_neg (first_ne_quote (quote_notMem_nextCell fifth))]
  refine ⟨_, readPart_ends listed described, ?_⟩
  simp only [fields, plainCells, List.map_cons, List.map_nil, identifierCell]

theorem plain_cell {text : Text} (commaless : ',' ∉ text) :
    cell text = text ∧ nextCell text = text := by
  rw [cell, nextCell, find_eq_none.mpr commaless]
  exact ⟨rfl, rfl⟩

theorem plainCells_cell {text : Text} (commaless : ',' ∉ text) (n : Nat) :
    plainCells n text = List.replicate (n + 1) text := by
  induction n with
  | zero => rfl
  | succ n ih =>
      rw [plainCells, (plain_cell commaless).1, (plain_cell commaless).2, ih]
      rfl

/-- Behind the last comma nothing is cut off any more, and the last cell is read again. -/
theorem plainCells_intercalate {cells : List Text} (nonempty : cells ≠ [])
    (commaless : ∀ text ∈ cells, ',' ∉ text) {n : Nat} (fit : cells.length ≤ n + 1) :
    plainCells n (List.intercalate [','] cells) =
      cells ++ List.replicate (n + 1 - cells.length) (cells.getLast nonempty) := by
  induction n generalizing cells with
  | zero =>
      obtain ⟨text, rfl⟩ := List.length_eq_one_iff.mp
        (Nat.le_antisymm fit (List.length_pos_iff.mpr nonempty))
      simp [plainCells]
  | succ n ih =>
      obtain ⟨text, cells, rfl⟩ := List.exists_cons_of_ne_nil nonempty
      have here := commaless text (by simp)
      cases cells with
      | nil =>
          rw [List.intercalate_singleton, plainCells_cell here]
          simp [List.replicate_succ]
      | cons next cells =>
          have rest := @ih (next :: cells) (by simp)
            (fun text member => commaless text (List.mem_cons_of_mem _ member))
            (by simpa using fit)
          rw [List.intercalate_cons_cons, List.append_assoc, List.singleton_append, plainCells,
            (cell_word here _).1, (cell_word here _).2, rest]
          simp

theorem holdsCells_iff {cells : List Text} (nonempty : cells ≠ []) (atMost : cells.length ≤ 9)
    {bill : BillData}
    (read : fields bill =
      (cells ++ List.replicate (9 - cells.length) (cells.getLast nonempty)).map ([·])) :
    HoldsCells cells bill ↔ cells.length = 9 ∨ cells.getLast nonempty = [] := by
  rw [HoldsCells, read, List.map_append, List.take_left' (by simp), List.drop_left' (by simp)]
  constructor
  · rintro ⟨_, empty⟩
    by_cases full : cells.length = 9
    · exact .inl full
    · refine .inr (empty [cells.getLast nonempty] ?_ _ (by simp))
      rw [List.map_replicate]
      exact List.mem_replicate.mpr ⟨by omega, rfl⟩
  · rintro (full | last)
    · simp [full]
    · simp [last]

/-- A line of at most nine plain cells fills its record as the cells say exactly if it has
nine of them or its last one is empty; otherwise the last cell fills every field behind. -/
theorem getBillData_cells_iff (cells : List Text) (atMost : cells.length ≤ 9)
    (commaless : ∀ text ∈ cells, ',' ∉ text) (unquoted : ∀ text ∈ cells, quote ∉ text)
    (start : (first (List.intercalate [','] cells)).isDigit = true) :
    ∃ bill,
      (∀ r : Reader, r.loopCounter = r.billData.length →
        Ends (readLine · r (List.intercalate [','] cells))
          (.ok ⟨r.billData ++ [bill], r.loopCounter + 1⟩)) ∧
      (∀ files input out, input.billData = [] → Ends (getBillData files · input) (.ok out) →
        ∀ before after, files.lines input.billName =
            before ++ List.intercalate [','] cells :: after →
          out.billData[(before.filter PartLine).length]? = some bill) ∧
      (HoldsCells (cells.map toUpper) bill ↔ cells.length = 9 ∨ cells.getLast? = some []) := by
  have nonempty : cells ≠ [] := by
    rintro rfl
    exact absurd start (by decide)
  have upper : cells.map toUpper ≠ [] := by simpa using nonempty
  have part : PartLine (List.intercalate [','] cells) = true := by
    rw [PartLine, first_toUpper_isDigit, start]
  have plain : quote ∉ List.intercalate [','] (cells.map toUpper) := by
    rw [← toUpper_intercalate, quote_mem_toUpper]
    intro member
    rcases mem_intercalate member with comma | ⟨text, inside, marked⟩
    · exact absurd comma (by decide)
    · exact unquoted text inside marked
  obtain ⟨bill, taken, read⟩ := readPart_plain plain
  rw [← toUpper_intercalate] at taken
  have cut := @plainCells_intercalate _ upper (by simpa [comma_mem_toUpper] using commaless) 8
    (by simpa using atMost)
  rw [cut] at read
  refine ⟨bill, ?_, ?_, ?_⟩
  · intro r counted
    exact (readLine_stores counted part).mpr ⟨bill, taken, rfl⟩
  · intro files input out fresh returned before after split
    exact getBillData_record_at fresh returned part taken split
  · rw [holdsCells_iff upper (by simpa using atMost) read, List.length_map, List.getLast_map,
      toUpper_eq_nil, List.getLast?_eq_some_getLast nonempty, Option.some.injEq]

def shortLine : List Text := ["1".toList, "2".toList, "ti".toList]

theorem getBillData_cells_iff_shortLine :
    ∃ bill,
      (∀ r : Reader, r.loopCounter = r.billData.length →
        Ends (readLine · r (List.intercalate [','] shortLine))
          (.ok ⟨r.billData ++ [bill], r.loopCounter + 1⟩)) ∧
      (∀ files input out, input.billData = [] → Ends (getBillData files · input) (.ok out) →
        ∀ before after, files.lines input.billName =
            before ++ List.intercalate [','] shortLine :: after →
          out.billData[(before.filter PartLine).length]? = some bill) ∧
      (HoldsCells (shortLine.map toUpper) bill ↔
        shortLine.length = 9 ∨ shortLine.getLast? = some []) :=
  getBillData_cells_iff shortLine (by decide) (by decide) (by decide) (by decide)

theorem shortLine_repeated :
    Ends (getBillData (fun _ => some (List.intercalate [','] shortLine)) · {}) (.ok { billData :=
        [⟨"1".toList, "2".toList, "TI".toList, "TI".toList, ["TI".toList], "TI".toList, "TI".toList,
          "TI".toList, "TI".toList⟩] }) ∧
      ¬ HoldsCells (shortLine.map toUpper) ⟨"1".toList, "2".toList, "TI".toList, "TI".toList,
        ["TI".toList], "TI".toList, "TI".toList, "TI".toList, "TI".toList⟩ :=
  ⟨⟨1, by decide⟩, by decide⟩

/-- A turn of the loop over quoted identifiers pushes one, so the list is empty only behind a
loop that is not entered. -/
theorem quoted_identifier_nil {s last : Quoted}
    (left : Leaves Quoted.inside quotedTurn s (.ok last)) :
    last.identifier = [] ↔ s.identifier = [] ∧ s.inside = false := by
  refine leaves_induction
    (P := fun s => last.identifier = [] ↔ s.identifier = [] ∧ s.inside = false) ?_ ?_ ?_ left
  · intro s stopped same
    cases same
    simp [stopped]
  · intro s e _ _ same
    cases same
  · intro s next running stepped ih
    have pushed : next.identifier ≠ [] := by
      rw [quotedTurn] at stepped
      split at stepped <;> cases stepped <;> simp
    rw [ih]
    exact iff_of_false (fun empty => pushed empty.1) (by simp [running])

theorem identifiers_nil {holder : Text} {s : Quoted}
    (read : Ends (identifiers · holder) (.ok s)) :
    s.identifier = [] ↔ [quote, quote] <+: holder := by
  unfold identifiers at read
  by_cases starts : first holder = quote
  · obtain ⟨rest, rfl⟩ : ∃ rest, holder = quote :: rest := by
      cases holder with
      | nil => exact absurd starts (by decide)
      | cons c rest => exact ⟨rest, by rw [← starts]; rfl⟩
    simp only [starts, if_true] at read
    obtain ⟨last, left, same⟩ :=
      (ends_andThen_ok (steady_quoted _) fun s => steady_const _).mp read
    cases Except.ok.inj (ends_const.mp same)
    rw [quoted_identifier_nil left, List.cons_prefix_cons]
    cases rest with
    | nil => simp [Quoted.inside, first, erase, quote]
    | cons c rest => simp [Quoted.inside, first, erase, @eq_comm _ quote c]
  · simp only [starts, if_false] at read
    cases Except.ok.inj (ends_const.mp read)
    refine iff_of_false (by simp) ?_
    rintro ⟨rest, rfl⟩
    exact starts rfl

theorem readAs_identifier_nil {line : Text} {bill : BillData} (read : ReadAs line bill) :
    bill.identifier = [] ↔ [quote, quote] <+: identifierCell (toUpper line) := by
  unfold ReadAs readPart at read
  obtain ⟨s, listed, same⟩ :=
    (ends_andThen_ok (steady_identifiers _) fun s => steady_const _).mp read
  cases Except.ok.inj (ends_const.mp same)
  exact identifiers_nil listed

theorem index_zero {xs : List Text} : (∃ text, index xs 0 = .ok text) ↔ xs ≠ [] := by
  cases xs with
  | nil => simp [index]
  | cons text xs => simp [index]

/-- `identifier[0]` exists in every stored record exactly if no part has an empty pair of
quotation marks for its identifiers, in the cell that four cuts at commas leave of its line. -/
theorem getBillData_identified_iff (files : Files) (input out : Input) (start : input.billData = [])
    (read : Ends (getBillData files · input) (.ok out)) :
    (∀ bill ∈ out.billData, ∃ identifier, index bill.identifier 0 = .ok identifier) ↔
      ∀ line ∈ files.lines input.billName, PartLine line = true →
        ¬ [quote, quote] <+: identifierCell (toUpper line) := by
  have records := getBillData_records start read
  have parts : (∀ line ∈ files.lines input.billName, PartLine line = true →
      ¬ [quote, quote] <+: identifierCell (toUpper line)) ↔
      ∀ line ∈ (files.lines input.billName).filter PartLine,
        ¬ [quote, quote] <+: identifierCell (toUpper line) := by
    simp only [List.mem_filter, and_imp]
  rw [parts]
  generalize (files.lines input.billName).filter PartLine = lines at records ⊢
  generalize out.billData = stored at records ⊢
  induction records with
  | nil => simp
  | cons taken rest ih =>
      rw [List.forall_mem_cons, List.forall_mem_cons, index_zero, ne_eq,
        readAs_identifier_nil taken]
      exact and_congr_right' ih

def unlistedBill : Files := fun _ => some "1,2,ti,x,\x22\x22,d,n,a,85".toList

def unlistedPart : BillData where
  item := "1".toList
  quantity := "2".toList
  manufacturer := "TI".toList
  partNumber := "X".toList
  identifier := []
  description := "D".toList
  dni := "N".toList
  status := "A".toList
  maxTemp := "85".toList

theorem getBillData_identified_iff_unlistedBill :
    (∀ bill ∈ [unlistedPart], ∃ identifier, index bill.identifier 0 = .ok identifier) ↔
      ∀ line ∈ unlistedBill.lines [], PartLine line = true →
        ¬ [quote, quote] <+: identifierCell (toUpper line) :=
  getBillData_identified_iff unlistedBill {} { billData := [unlistedPart] } rfl
    ⟨1, by decide⟩

theorem unlistedBill_undefined :
    Ends (getBillData unlistedBill · {}) (.ok { billData := [unlistedPart] }) ∧
      index unlistedPart.identifier 0 = .error .undefined :=
  ⟨⟨1, by decide⟩, rfl⟩

end RelayDev.Bill
