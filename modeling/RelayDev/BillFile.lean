import RelayDev.Bill

/-! Writing a bill of materials and reading it back. -/

namespace RelayDev.Bill

open Cpp Text Loop

def quotedText (s : Text) : Text := quote :: (s ++ [quote])

/-- One line of a bill: the nine cells of a part, the identifiers and the description in
quotation marks or not. -/
def partLine (quotesIdentifiers quotesDescription : Bool) (part : BillData) : Text :=
  let listed := List.intercalate [','] part.identifier
  List.intercalate [','] [part.item, part.quantity, part.manufacturer, part.partNumber,
    if quotesIdentifiers then quotedText listed else listed,
    if quotesDescription then quotedText part.description else part.description,
    part.dni, part.status, part.maxTemp]

structure FilePart where
  part : BillData
  quotesIdentifiers : Bool
  quotesDescription : Bool
  item_start : (first part.item).isDigit = true := by decide
  cells : ∀ text ∈ [part.item, part.quantity, part.manufacturer, part.partNumber, part.dni,
    part.status], ',' ∉ text := by decide
  listed : part.identifier ≠ [] := by decide
  identifiers : ∀ text ∈ part.identifier, text ≠ [] ∧ ',' ∉ text ∧ quote ∉ text := by decide
  single : quotesIdentifiers = false → part.identifier.length = 1 := by decide
  quoted_description : quotesDescription = true → quote ∉ part.description := by decide
  plain_description : quotesDescription = false →
    ',' ∉ part.description ∧ part.description.head? ≠ some quote := by decide
  one_line : '\n' ∉ partLine quotesIdentifiers quotesDescription part := by decide

def FilePart.line (p : FilePart) : Text := partLine p.quotesIdentifiers p.quotesDescription p.part

/-- A line of a bill: a part, or a line that does not start with a digit. -/
inductive FileLine where
  | part (part : FilePart)
  | other (text : Text) (start : (first text).isDigit = false) (one_line : '\n' ∉ text)

def FileLine.text : FileLine → Text
  | .part p => p.line
  | .other text _ _ => text

def FileLine.part? : FileLine → Option FilePart
  | .part p => some p
  | .other _ _ _ => none

def fileText (lines : List FileLine) : Text := (lines.map FileLine.text).flatMap (· ++ ['\n'])

def upperPart (part : BillData) : BillData where
  item := toUpper part.item
  quantity := toUpper part.quantity
  manufacturer := toUpper part.manufacturer
  partNumber := toUpper part.partNumber
  identifier := part.identifier.map toUpper
  description := toUpper part.description
  dni := toUpper part.dni
  status := toUpper part.status
  maxTemp := toUpper part.maxTemp

theorem cell_word {word : Text} (absent : ',' ∉ word) (rest : Text) :
    cell (word ++ ',' :: rest) = word ∧ nextCell (word ++ ',' :: rest) = rest := by
  rw [cell, nextCell, find_append absent, find_cons_self]
  constructor
  · simp [substr]
  · simp [past, erase]

theorem first_word {word : Text} (nonempty : word ≠ []) (absent : quote ∉ word) (rest : Text) :
    first (word ++ rest) ≠ quote := by
  cases word with
  | nil => exact absurd rfl nonempty
  | cons c word =>
      intro starts
      apply absent
      rw [← starts]
      exact List.mem_cons_self

theorem quoted_leaves_list (ids : List Text) (nonempty : ids ≠ [])
    (words : ∀ text ∈ ids, text ≠ [] ∧ ',' ∉ text ∧ quote ∉ text) (rest : Text)
    (read : List Text) :
    Leaves Quoted.inside quotedTurn ⟨List.intercalate [','] ids ++ quote :: rest, read⟩
      (.ok ⟨quote :: rest, read ++ ids⟩) := by
  induction ids generalizing read with
  | nil => exact absurd rfl nonempty
  | cons id ids ih =>
      obtain ⟨filled, commaless, unquoted⟩ := words id (by simp)
      cases ids with
      | nil =>
          rw [List.intercalate_singleton]
          have running : Quoted.inside ⟨id ++ quote :: rest, read⟩ = true := by
            simpa [Quoted.inside] using first_word filled unquoted (quote :: rest)
          have last := (before_word unquoted commaless (by decide) rest).2
          have turn : quotedTurn ⟨id ++ quote :: rest, read⟩ =
              .ok ⟨quote :: rest, read ++ [id]⟩ := by
            rw [quotedTurn, if_neg (by rw [last]; decide), find_append unquoted, find_cons_self]
            simp [erase, substr]
          apply (leaves_step running turn _).mpr
          exact leaves_exit (by simp [Quoted.inside, first])
      | cons next ids =>
          have further := ih (by simp)
            (fun text member => words text (List.mem_cons_of_mem _ member)) (read ++ [id])
          rw [List.intercalate_cons_cons, List.append_assoc, List.append_assoc]
          generalize List.intercalate [','] (next :: ids) ++ quote :: rest = left at further ⊢
          have running : Quoted.inside ⟨id ++ ([','] ++ left), read⟩ = true := by
            simpa [Quoted.inside] using first_word filled unquoted (',' :: left)
          have ahead := (before_word commaless unquoted (by decide) left).1
          have turn : quotedTurn ⟨id ++ ([','] ++ left), read⟩ = .ok ⟨left, read ++ [id]⟩ := by
            rw [quotedTurn, List.singleton_append, if_pos ahead, (cell_word commaless left).1,
              (cell_word commaless left).2]
          apply (leaves_step running turn _).mpr
          simpa using further

theorem identifiers_list {ids : List Text} (nonempty : ids ≠ [])
    (words : ∀ text ∈ ids, text ≠ [] ∧ ',' ∉ text ∧ quote ∉ text) (quotes : Bool)
    (single : quotes = false → ids.length = 1) (rest : Text) :
    Ends (identifiers · ((if quotes then quotedText (List.intercalate [','] ids)
      else List.intercalate [','] ids) ++ ',' :: rest)) (.ok ⟨rest, ids⟩) := by
  cases quotes with
  | true =>
      have taken := quoted_leaves_list ids nonempty words (',' :: rest) []
      have starts (s : Text) : first (quote :: s) = quote := rfl
      simp only [identifiers, quotedText, if_true, List.cons_append, starts, List.append_assoc]
      exact (ends_andThen (steady_quoted _) fun s => steady_const _).mpr
        (.inr ⟨_, taken, ends_const.mpr rfl⟩)
  | false =>
      obtain ⟨id, rfl⟩ := List.length_eq_one_iff.mp (single rfl)
      obtain ⟨filled, commaless, unquoted⟩ := words id (by simp)
      have plain := first_word filled unquoted (',' :: rest)
      simp only [identifiers, Bool.false_eq_true, if_false, List.intercalate_singleton, plain,
        (cell_word commaless rest).1, (cell_word commaless rest).2]
      exact ends_const.mpr rfl

theorem description_text {text : Text} (quotes : Bool)
    (quoted : quotes = true → quote ∉ text)
    (plain : quotes = false → ',' ∉ text ∧ text.head? ≠ some quote) (rest : Text) :
    description ((if quotes then quotedText text else text) ++ ',' :: rest) = (text, rest) := by
  cases quotes with
  | true =>
      have starts (s : Text) : first (quote :: s) = quote := rfl
      have cut : description (quote :: (text ++ quote :: ',' :: rest)) = (text, rest) := by
        rw [description, if_pos (starts _)]
        simp only [erase, List.drop_succ_cons, List.drop_zero]
        rw [find_append (quoted rfl), find_cons_self]
        simp [substr, past]
      simpa [quotedText] using cut
  | false =>
      obtain ⟨commaless, start⟩ := plain rfl
      have plain : first (text ++ ',' :: rest) ≠ quote := by
        cases text with
        | nil => simp [first, quote]
        | cons c text => simpa [first] using start
      simp only [description, Bool.false_eq_true, if_false, plain, (cell_word commaless rest).1,
        (cell_word commaless rest).2]

theorem readPart_line (p : FilePart) : Ends (readPart · p.line) (.ok p.part) := by
  obtain ⟨⟨item, quantity, manufacturer, partNumber, ids, text, dni, status, maxTemp⟩, quotesIds,
    quotesText, _, cells, listed, words, single, quoted, plain, _⟩ := p
  simp only [List.mem_cons, List.not_mem_nil, or_false, forall_eq_or_imp, forall_eq] at cells
  obtain ⟨noItem, noQuantity, noManufacturer, noNumber, noDni, noStatus⟩ := cells
  simp only [FilePart.line, partLine, List.intercalate_cons_cons, List.intercalate_singleton,
    List.append_assoc, List.singleton_append]
  have taken := identifiers_list listed words quotesIds single
    ((if quotesText then quotedText text else text) ++
      ',' :: (dni ++ ',' :: (status ++ ',' :: maxTemp)))
  have described := description_text quotesText quoted plain
    (dni ++ ',' :: (status ++ ',' :: maxTemp))
  unfold readPart
  simp only [(cell_word noItem _).1, (cell_word noItem _).2, (cell_word noQuantity _).1,
    (cell_word noQuantity _).2, (cell_word noManufacturer _).1, (cell_word noManufacturer _).2,
    (cell_word noNumber _).1, (cell_word noNumber _).2]
  apply (ends_andThen (steady_identifiers _) fun s => steady_const _).mpr
  refine .inr ⟨_, taken, ends_const.mpr ?_⟩
  simp only [described, (cell_word noDni _).1, (cell_word noDni _).2, (cell_word noStatus _).1,
    (cell_word noStatus _).2]

theorem comma_mem_toUpper (s : Text) : ',' ∈ toUpper s ↔ ',' ∈ s :=
  mem_toUpper_iff (by decide) (by decide) s

theorem quote_mem_toUpper (s : Text) : quote ∈ toUpper s ↔ quote ∈ s :=
  mem_toUpper_iff (by decide) (by decide) s

theorem toUpper_intercalate (cells : List Text) :
    toUpper (List.intercalate [','] cells) = List.intercalate [','] (cells.map toUpper) := by
  induction cells with
  | nil => rfl
  | cons text cells ih =>
      cases cells with
      | nil => simp
      | cons next cells =>
          have comma : toUpper [','] = [','] := rfl
          rw [List.map_cons] at ih
          rw [List.intercalate_cons_cons, List.map_cons, List.map_cons, List.intercalate_cons_cons,
            toUpper_append, toUpper_append, ih, comma]

theorem toUpper_quotedText (s : Text) : toUpper (quotedText s) = quotedText (toUpper s) := by
  have mark : toUpper [quote] = [quote] := rfl
  rw [quotedText, ← List.singleton_append, toUpper_append, toUpper_append, mark]
  rfl

theorem toUpper_partLine (quotesIdentifiers quotesDescription : Bool) (part : BillData) :
    toUpper (partLine quotesIdentifiers quotesDescription part) =
      partLine quotesIdentifiers quotesDescription (upperPart part) := by
  unfold partLine
  rw [toUpper_intercalate]
  simp only [List.map_cons, List.map_nil, upperPart]
  rw [apply_ite toUpper, apply_ite toUpper, toUpper_quotedText, toUpper_quotedText,
    toUpper_intercalate]

theorem first_toUpper_isDigit (s : Text) : (first (toUpper s)).isDigit = (first s).isDigit := by
  rw [first_toUpper, isDigit_toUpper]

theorem head_toUpper (s : Text) : (toUpper s).head? = some quote ↔ s.head? = some quote := by
  cases s with
  | nil => simp [toUpper]
  | cons c s => simp [toUpper, toUpper_eq_iff c quote (by decide) (by decide)]

def FilePart.upper (p : FilePart) : FilePart where
  part := upperPart p.part
  quotesIdentifiers := p.quotesIdentifiers
  quotesDescription := p.quotesDescription
  item_start := by rw [upperPart, first_toUpper_isDigit, p.item_start]
  cells := by
    have cells := p.cells
    simp only [List.mem_cons, List.not_mem_nil, or_false, forall_eq_or_imp, forall_eq] at cells
    simpa [upperPart, comma_mem_toUpper] using cells
  listed := by simpa [upperPart] using p.listed
  identifiers := by
    intro text member
    obtain ⟨id, listed, rfl⟩ := List.mem_map.mp member
    obtain ⟨filled, commaless, unquoted⟩ := p.identifiers id listed
    exact ⟨mt (toUpper_eq_nil id).mp filled, mt (comma_mem_toUpper id).mp commaless,
      mt (quote_mem_toUpper id).mp unquoted⟩
  single := by
    intro unquoted
    rw [upperPart, List.length_map, p.single unquoted]
  quoted_description := fun quotes => mt (quote_mem_toUpper _).mp (p.quoted_description quotes)
  plain_description := by
    intro unquoted
    obtain ⟨commaless, start⟩ := p.plain_description unquoted
    exact ⟨mt (comma_mem_toUpper _).mp commaless, mt (head_toUpper _).mp start⟩
  one_line := by
    rw [← toUpper_partLine]
    exact mt (newline_mem_toUpper _).mp p.one_line

theorem FilePart.line_start (p : FilePart) : (first p.line).isDigit = true := by
  have start := p.item_start
  cases item : p.part.item with
  | nil =>
      rw [item] at start
      exact absurd start (by decide)
  | cons c rest =>
      rw [item] at start
      simpa [FilePart.line, partLine, item, List.intercalate_cons_cons, first] using start

theorem readLine_part {r : Reader} (counted : r.loopCounter = r.billData.length) (p : FilePart) :
    Ends (readLine · r p.line)
      (.ok ⟨r.billData ++ [upperPart p.part], r.loopCounter + 1⟩) := by
  have part : PartLine p.line = true := by rw [PartLine, first_toUpper_isDigit, p.line_start]
  have upper : toUpper p.line = p.upper.line := toUpper_partLine _ _ _
  have read : ReadAs p.line (upperPart p.part) := by
    rw [ReadAs, upper]
    exact readPart_line p.upper
  exact (readLine_stores counted part).mpr ⟨_, read, rfl⟩

theorem readLine_other (r : Reader) {text : Text} (start : (first text).isDigit = false) :
    Ends (readLine · r text) (.ok r) := by
  have other : PartLine text = false := by rw [PartLine, first_toUpper_isDigit, start]
  exact (readLine_skips other).mpr rfl

def storedParts (lines : List FileLine) : List BillData :=
  (lines.filterMap FileLine.part?).map fun p => upperPart p.part

theorem readLines_fileLines {r : Reader} (counted : r.loopCounter = r.billData.length)
    (lines : List FileLine) :
    ∃ last, Ends (readLines · r (lines.map FileLine.text)) (.ok last) ∧
      last.billData = r.billData ++ storedParts lines := by
  induction lines generalizing r with
  | nil => exact ⟨r, ends_const.mpr rfl, by simp [storedParts]⟩
  | cons line lines ih =>
      have step {next : Reader} (read : Ends (readLine · r line.text) (.ok next)) {last : Reader}
          (rest : Ends (readLines · next (lines.map FileLine.text)) (.ok last)) :
          Ends (readLines · r ((line :: lines).map FileLine.text)) (.ok last) :=
        (ends_andThen (steady_readLine r line.text)
          fun next => steady_readLines next (lines.map FileLine.text)).mpr (.inr ⟨_, read, rest⟩)
      cases line with
      | part p =>
          obtain ⟨last, rest, stored⟩ := @ih
            ⟨r.billData ++ [upperPart p.part], r.loopCounter + 1⟩ (by simp [counted])
          refine ⟨last, step (readLine_part counted p) rest, ?_⟩
          rw [stored]
          simp [storedParts, FileLine.part?]
      | other text start _ =>
          obtain ⟨last, rest, stored⟩ := ih counted
          refine ⟨last, step (readLine_other r start) rest, ?_⟩
          rw [stored]
          simp [storedParts, List.filterMap_cons, FileLine.part?]

theorem FileLine.unbroken (line : FileLine) : '\n' ∉ line.text := by
  cases line with
  | part p => exact p.one_line
  | other text _ one_line => exact one_line

/-- Decoding undoes encoding: from the file written for a list of parts, between any lines
that are none, `getBillData` reads one upper-cased record for each part, in order. -/
theorem getBillData_fileText (lines : List FileLine) (files : Files) (input : Input)
    (start : input.billData = [])
    (stored : files input.billName = some (fileText lines)) :
    Ends (getBillData files · input) (.ok { input with
      billData := (lines.filterMap FileLine.part?).map fun p => upperPart p.part }) := by
  have split : files.lines input.billName = lines.map FileLine.text := by
    unfold Files.lines
    rw [stored]
    apply getlines_written
    intro text member
    obtain ⟨line, _, rfl⟩ := List.mem_map.mp member
    exact line.unbroken
  obtain ⟨last, read, same⟩ := @readLines_fileLines ⟨[], 0⟩ rfl lines
  unfold getBillData
  rw [split, start]
  apply (ends_andThen (steady_readLines _ _) fun r => steady_const _).mpr
  refine .inr ⟨last, read, ends_const.mpr ?_⟩
  rw [same]
  rfl

def sampleLines : List FileLine :=
  [.other "Item,Qty".toList (by decide) (by decide),
    .part {
      part := ⟨"1".toList, "3".toList, "ti".toList, "x-1".toList,
        ["U1".toList, "U2".toList, "u3".toList], "expander, serial".toList, [], "ok".toList,
        "85,C".toList⟩
      quotesIdentifiers := true
      quotesDescription := true },
    .other [] (by decide) (by decide),
    .part {
      part := ⟨"2".toList, "1".toList, [], "r\x22".toList, ["R1".toList], [], "DNI".toList, [], []⟩
      quotesIdentifiers := false
      quotesDescription := false }]

theorem getBillData_sampleLines :
    Ends (getBillData (fun _ => some (fileText sampleLines)) · {}) (.ok { billData :=
      [⟨"1".toList, "3".toList, "TI".toList, "X-1".toList,
          ["U1".toList, "U2".toList, "U3".toList], "EXPANDER, SERIAL".toList, [], "OK".toList,
          "85,C".toList⟩,
        ⟨"2".toList, "1".toList, [], "R\x22".toList, ["R1".toList], [], "DNI".toList, [], []⟩] }) :=
  getBillData_fileText sampleLines (fun _ => some (fileText sampleLines)) {} rfl rfl

end RelayDev.Bill
