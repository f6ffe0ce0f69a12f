import RelayDev.Lib.Cpp
import Mathlib.Data.List.TakeWhile

/-! `std::string` as the list of its characters, and the operations of it that
cut a line into columns. A position is `none` where the code has `npos`. -/

namespace RelayDev

abbrev Text := List Char

namespace Text

open Cpp

def find (s : Text) (c : Char) : Option Nat := s.findIdx? (· == c)

def findText (pattern : Text) : Text → Option Nat
  | [] => if pattern.isEmpty then some 0 else none
  | c :: s =>
      if pattern.isPrefixOf (c :: s) then some 0 else (findText pattern s).map (· + 1)

/-- `s.find(..) + k` in `size_t`: `npos` is its largest value, so the sum wraps. -/
def past (found : Option Nat) (k : Nat) : Nat :=
  match found with
  | some i => i + k
  | none => k - 1

def before : Option Nat → Option Nat → Bool
  | some i, some j => i < j
  | some _, none => true
  | none, _ => false

def substr (s : Text) : Option Nat → Text
  | some count => s.take count
  | none => s

def substrFrom (s : Text) (pos : Nat) (count : Option Nat) : Result Text :=
  if pos ≤ s.length then .ok (substr (s.drop pos) count) else throwing .outOfRange

def erase (s : Text) : Option Nat → Text
  | some count => s.drop count
  | none => []

/-- `s[0]`, the terminating null character when `s` is empty. -/
def first (s : Text) : Char := s.headD '\x00'

def charAt (s : Text) (i : Nat) : Result Char :=
  if i = s.length then .ok '\x00' else index s i

/-- `s.back()`, which an empty string does not have. -/
def back (s : Text) : Result Char :=
  match s.getLast? with
  | some c => .ok c
  | none => .error .undefined

/-- `s[s.size() - k]`: for a shorter text the index wraps around. -/
def charFromEnd (s : Text) (k : Nat) : Result Char :=
  if k ≤ s.length then charAt s (s.length - k) else .error .undefined

def stripBlanks : Text → Text
  | [] => []
  | c :: s => if c = ' ' then stripBlanks s else c :: s

/-- The lines `getline` reads from a file: a last line without newline counts,
an empty one does not. -/
def getlines : Text → List Text
  | [] => []
  | c :: s =>
      if c = '\n' then [] :: getlines s
      else
        match getlines s with
        | [] => [[c]]
        | line :: lines => (c :: line) :: lines

def toUpper (s : Text) : Text := s.map Char.toUpper

def isSpace (c : Char) : Bool := c ∈ [' ', '\t', '\n', '\x0b', '\x0c', '\r']

/-- The number in front of `s`, without sign, in the range of `int`. -/
def readInt (negative : Bool) (s : Text) : Result Int :=
  let digits := s.takeWhile Char.isDigit
  let magnitude : Int := Nat.ofDigitChars 10 digits 0
  let value := if negative then -magnitude else magnitude
  if digits = [] then throwing .invalidArgument
  else if value < -2147483648 ∨ 2147483647 < value then throwing .outOfRange
  else .ok value

/-- `std::stoi(s)`: blanks, a sign, then digits up to the first other character. -/
def stoi (s : Text) : Result Int :=
  match s.dropWhile isSpace with
  | '-' :: unsigned => readInt true unsigned
  | '+' :: unsigned => readInt false unsigned
  | unsigned => readInt false unsigned

def numeral (n : Nat) : Text := Nat.toDigits 10 n

theorem substr_find (s : Text) (c : Char) : substr s (find s c) = s.takeWhile (· != c) := by
  induction s with
  | nil => rfl
  | cons d s ih =>
      by_cases same : d = c
      · simp [find, List.findIdx?_cons, same, substr]
      · cases found : find s c with
        | none =>
            rw [found] at ih
            simp only [find] at found
            simpa [find, List.findIdx?_cons, same, found, substr] using ih
        | some i =>
            rw [found] at ih
            simp only [find] at found
            simpa [find, List.findIdx?_cons, same, found, substr] using ih

theorem erase_find (s : Text) (c : Char) : erase s (find s c) = s.dropWhile (· != c) := by
  induction s with
  | nil => rfl
  | cons d s ih =>
      by_cases same : d = c
      · simp [find, List.findIdx?_cons, same, erase]
      · cases found : find s c with
        | none =>
            rw [found] at ih
            simp only [find] at found
            simpa [find, List.findIdx?_cons, same, found, erase] using ih
        | some i =>
            rw [found] at ih
            simp only [find] at found
            simpa [find, List.findIdx?_cons, same, found, erase] using ih

theorem find_eq_none {s : Text} {c : Char} : find s c = none ↔ c ∉ s := by
  rw [find, List.findIdx?_eq_none_iff]
  constructor
  · intro other member
    simpa using other c member
  · intro absent d member
    simpa using ne_of_mem_of_not_mem member absent

theorem find_eq_some {s : Text} {c : Char} {i : Nat} (found : find s c = some i) :
    s[i]? = some c := by
  obtain ⟨bound, same, _⟩ := List.findIdx?_eq_some_iff_getElem.mp found
  rw [List.getElem?_eq_getElem bound, eq_of_beq same]

theorem first_erase_find {s : Text} {c : Char} (member : c ∈ s) :
    first (erase s (find s c)) = c := by
  rw [erase_find]
  induction s with
  | nil => cases member
  | cons d s ih =>
      by_cases same : d = c
      · simp [same, first]
      · have rest : c ∈ s := (List.mem_cons.mp member).resolve_left (Ne.symm same)
        simpa [same] using ih rest

theorem find_append {word : Text} {c : Char} (absent : c ∉ word) (rest : Text) :
    find (word ++ rest) c = (find rest c).map (· + word.length) := by
  have none := find_eq_none.mpr absent
  rw [find] at none ⊢
  rw [List.findIdx?_append, none, Option.none_or]
  rfl

theorem find_cons_self (c : Char) (s : Text) : find (c :: s) c = some 0 := by
  simp [find, List.findIdx?_cons]

theorem find_cons_ne {c d : Char} (other : d ≠ c) (s : Text) :
    find (d :: s) c = (find s c).map (· + 1) := by
  simp [find, List.findIdx?_cons, other]

theorem before_word {word : Text} {c d : Char} (noC : c ∉ word) (noD : d ∉ word) (other : c ≠ d)
    (rest : Text) :
    before (find (word ++ c :: rest) c) (find (word ++ c :: rest) d) = true ∧
      before (find (word ++ c :: rest) d) (find (word ++ c :: rest) c) = false := by
  rw [find_append noC, find_append noD, find_cons_self, find_cons_ne other]
  cases find rest d with
  | none => exact ⟨rfl, rfl⟩
  | some i => simp [before]

theorem stripBlanks_eq_dropWhile (s : Text) : stripBlanks s = s.dropWhile (· == ' ') := by
  induction s with
  | nil => rfl
  | cons c s ih => by_cases blank : c = ' ' <;> simp [stripBlanks, blank, ih]

theorem getlines_written (lines : List Text) (whole : ∀ line ∈ lines, '\n' ∉ line) :
    getlines (lines.flatMap (· ++ ['\n'])) = lines := by
  induction lines with
  | nil => rfl
  | cons line lines ih =>
      have rest := ih (fun next member => whole next (List.mem_cons_of_mem _ member))
      have here : '\n' ∉ line := whole line (by simp)
      rw [List.flatMap_cons, List.append_assoc, List.singleton_append]
      clear ih whole
      induction line with
      | nil => simp [getlines, rest]
      | cons c line ih =>
          simp only [List.mem_cons, not_or] at here
          rw [List.cons_append, getlines, if_neg (fun same => here.1 same.symm), ih here.2]

theorem getlines_unbroken {s line : Text} (member : line ∈ getlines s) : '\n' ∉ line := by
  induction s generalizing line with
  | nil => cases member
  | cons c s ih =>
      rw [getlines] at member
      split at member
      · rcases List.mem_cons.mp member with rfl | later
        · exact List.not_mem_nil
        · exact ih later
      · rename_i other
        split at member
        · obtain rfl := List.mem_singleton.mp member
          simpa using Ne.symm other
        · rename_i first rest read
          rcases List.mem_cons.mp member with rfl | later
          · have inside := ih (read ▸ List.mem_cons_self)
            simpa [inside] using Ne.symm other
          · exact ih (read ▸ List.mem_cons_of_mem _ later)

/-- The lines of a text in which each newline stands between two lines. -/
def textLines (content : Text) : List Text := if content = [] then [] else content.splitOn '\n'

theorem textLines_intercalate {lines : List Text} (unbroken : ∀ line ∈ lines, '\n' ∉ line)
    (nonempty : ∀ line ∈ lines, line ≠ []) :
    textLines (List.intercalate ['\n'] lines) = lines := by
  cases lines with
  | nil => rfl
  | cons line lines =>
      have written : List.intercalate ['\n'] (line :: lines) ≠ [] := by
        intro empty
        have first := nonempty line (by simp)
        cases lines with
        | nil => simp [List.intercalate, first] at empty
        | cons next lines => simp [List.intercalate, first] at empty
      rw [textLines, if_neg written]
      exact List.splitOn_intercalate '\n' unbroken (by simp)

theorem splitOn_apart {c : Char} {s piece : Text} (member : piece ∈ s.splitOn c) : c ∉ piece := by
  induction s generalizing piece with
  | nil =>
      obtain rfl : piece = [] := by simpa [List.splitOn_eq_splitOnP] using member
      exact List.not_mem_nil
  | cons d s ih =>
      rw [List.splitOn_cons_eq_if_modifyHead] at member
      split at member
      · rcases List.mem_cons.mp member with rfl | later
        · exact List.not_mem_nil
        · exact ih later
      · rename_i other
        cases pieces : s.splitOn c with
        | nil => exact absurd pieces (List.splitOn_ne_nil c s)
        | cons front rest =>
            rw [pieces] at member ih
            rcases List.mem_cons.mp member with rfl | later
            · have inside := ih List.mem_cons_self
              simp only [beq_iff_eq] at other
              simpa [inside] using Ne.symm other
            · exact ih (List.mem_cons_of_mem _ later)

theorem mem_intercalate {c : Char} {sep : Text} {cells : List Text}
    (member : c ∈ List.intercalate sep cells) : c ∈ sep ∨ ∃ cell ∈ cells, c ∈ cell := by
  induction cells with
  | nil => cases member
  | cons cell cells ih =>
      cases cells with
      | nil =>
          rw [List.intercalate_singleton] at member
          exact .inr ⟨cell, List.mem_singleton_self cell, member⟩
      | cons next cells =>
          rw [List.intercalate_cons_cons] at member
          rcases List.mem_append.mp member with here | later
          · rcases List.mem_append.mp here with inCell | inSep
            · exact .inr ⟨cell, List.mem_cons_self, inCell⟩
            · exact .inl inSep
          · rcases ih later with inSep | ⟨other, listed, inside⟩
            · exact .inl inSep
            · exact .inr ⟨other, List.mem_cons_of_mem _ listed, inside⟩

theorem substrFrom_subset {s rest : Text} {pos : Nat} {count : Option Nat}
    (cut : substrFrom s pos count = .ok rest) : rest ⊆ s := by
  unfold substrFrom at cut
  split at cut
  · cases cut
    cases count with
    | none => exact List.drop_subset pos s
    | some count => exact List.Subset.trans (List.take_subset count _) (List.drop_subset pos s)
  · cases cut

theorem readInt_cases (negative : Bool) (s : Text) :
    (∃ n, readInt negative s = .ok n) ∨ readInt negative s = throwing .invalidArgument ∨
      readInt negative s = throwing .outOfRange := by
  rw [readInt]
  generalize (if negative then _ else _ : Int) = value
  by_cases none : s.takeWhile Char.isDigit = []
  · exact .inr (.inl (if_pos none))
  · rw [if_neg none]
    by_cases outside : value < -2147483648 ∨ 2147483647 < value
    · exact .inr (.inr (if_pos outside))
    · exact .inl ⟨value, if_neg outside⟩

theorem stoi_cases (s : Text) :
    (∃ n, stoi s = .ok n) ∨ stoi s = throwing .invalidArgument ∨ stoi s = throwing .outOfRange := by
  rw [stoi]
  split
  · exact readInt_cases true _
  · exact readInt_cases false _
  · exact readInt_cases false _

theorem stoi_eq_error {s : Text} {fault : Fault} (failed : stoi s = .error fault) :
    fault = .thrown .invalidArgument ∨ fault = .thrown .outOfRange := by
  rcases stoi_cases s with ⟨n, read⟩ | read | read
  · rw [read] at failed
    cases failed
  · exact .inl (Except.error.inj (failed.symm.trans read))
  · exact .inr (Except.error.inj (failed.symm.trans read))

theorem stoi_defined (s : Text) : stoi s ≠ .error .undefined := by
  intro failed
  rcases stoi_eq_error failed with same | same
  · cases same
  · cases same

theorem stoi_digits (s : Text) (digits : s.all Char.isDigit = true) :
    stoi s =
      if s = [] then throwing .invalidArgument
      else if 2147483647 < Nat.ofDigitChars 10 s 0 then throwing .outOfRange
      else .ok (Nat.ofDigitChars 10 s 0 : Int) := by
  have signless : stoi s = readInt false s := by
    cases s with
    | nil => rfl
    | cons c s =>
        have digit : c.isDigit = true := List.all_eq_true.mp digits c (by simp)
        have other (d : Char) (plain : d.isDigit = false) : c ≠ d := by
          rintro rfl
          rw [digit] at plain
          cases plain
        have visible : isSpace c = false := by
          simp [isSpace, other]
        rw [stoi, List.dropWhile_cons_of_neg (by simp [visible])]
        split
        · rename_i same
          exact absurd (List.cons.inj same).1 (other '-' rfl)
        · rename_i same
          exact absurd (List.cons.inj same).1 (other '+' rfl)
        · rfl
  have whole : s.takeWhile Char.isDigit = s :=
    List.takeWhile_eq_self_iff.mpr (List.all_eq_true.mp digits)
  have range : ((Nat.ofDigitChars 10 s 0 : Int) < -2147483648 ∨
      2147483647 < (Nat.ofDigitChars 10 s 0 : Int)) ↔ 2147483647 < Nat.ofDigitChars 10 s 0 := by
    omega
  rw [signless, readInt, whole]
  simp only [Bool.false_eq_true, if_false, range]

section Numeral

theorem isDigit_numeral {n : Nat} {c : Char} (member : c ∈ numeral n) : c.isDigit = true :=
  Nat.isDigit_of_mem_toDigits (by decide) (by decide) member

theorem numeral_digits (n : Nat) : (numeral n).all Char.isDigit = true :=
  List.all_eq_true.mpr fun _ => isDigit_numeral

theorem numeral_nonempty (n : Nat) : numeral n ≠ [] := Nat.toDigits_ne_nil

theorem numeral_value (n : Nat) : Nat.ofDigitChars 10 (numeral n) 0 = n :=
  Nat.ofDigitChars_toDigits (by decide) (by decide)

theorem stoi_numeral (n : Nat) (range : n ≤ 2147483647) : stoi (numeral n) = .ok n := by
  rw [stoi_digits _ (numeral_digits n), numeral_value, if_neg (numeral_nonempty n),
    if_neg (by omega)]

end Numeral

section ToUpper

theorem toUpper_toNat (c : Char) :
    c.toUpper.toNat = if 97 ≤ c.toNat ∧ c.toNat ≤ 122 then c.toNat - 32 else c.toNat := by
  have lower : ('a'.val ≤ c.val ∧ c.val ≤ 'z'.val) ↔ (97 ≤ c.toNat ∧ c.toNat ≤ 122) := by
    simp only [UInt32.le_iff_toNat_le]
    rfl
  unfold Char.toUpper
  split
  · rename_i small
    have range : 97 ≤ c.val.toNat ∧ c.val.toNat ≤ 122 := lower.mp small
    rw [if_pos (lower.mp small)]
    change (c.val + 4294967264).toNat = c.val.toNat - 32
    rw [UInt32.toNat_add]
    change (c.val.toNat + 4294967264) % 4294967296 = _
    omega
  · rename_i other
    rw [if_neg (fun range => other (lower.mpr range))]

theorem toUpper_eq_iff (c d : Char) (upper : 65 ≤ d.toNat → 90 < d.toNat)
    (lower : 97 ≤ d.toNat → 122 < d.toNat) : c.toUpper = d ↔ c = d := by
  constructor
  · intro same
    have code := congrArg Char.toNat same
    rw [toUpper_toNat] at code
    split at code
    · omega
    · exact Char.toNat_inj.mp code
  · rintro rfl
    apply Char.toNat_inj.mp
    rw [toUpper_toNat, if_neg (by omega)]

theorem isDigit_toUpper (c : Char) : c.toUpper.isDigit = c.isDigit := by
  have code (d : Char) : d.isDigit = decide (48 ≤ d.toNat ∧ d.toNat ≤ 57) := by
    simp only [Char.isDigit, Bool.decide_and, ge_iff_le, UInt32.le_iff_toNat_le]
    rfl
  rw [code, code, toUpper_toNat, decide_eq_decide]
  split <;> omega

theorem toUpper_of_not_lower {s : Text} (upper : ∀ c ∈ s, c.isLower = false) : toUpper s = s := by
  have code (c : Char) : c.isLower = (decide (97 ≤ c.toNat) && decide (c.toNat ≤ 122)) := rfl
  have kept : ∀ c ∈ s, c.toUpper = c := by
    intro c member
    have high := upper c member
    simp only [code, Bool.and_eq_false_iff, decide_eq_false_iff_not] at high
    apply Char.toNat_inj.mp
    rw [toUpper_toNat, if_neg (by omega)]
  rw [toUpper, List.map_congr_left kept, List.map_id']

theorem mem_toUpper_iff {c : Char} (upper : 65 ≤ c.toNat → 90 < c.toNat)
    (lower : 97 ≤ c.toNat → 122 < c.toNat) (s : Text) : c ∈ toUpper s ↔ c ∈ s := by
  simp [toUpper, toUpper_eq_iff _ c upper lower]

theorem first_toUpper (s : Text) : first (toUpper s) = (first s).toUpper := by
  cases s with
  | nil => rfl
  | cons c s => rfl

@[simp] theorem toUpper_eq_blank (c : Char) : c.toUpper = ' ' ↔ c = ' ' :=
  toUpper_eq_iff c ' ' (by decide) (by decide)

@[simp] theorem toUpper_append (s t : Text) : toUpper (s ++ t) = toUpper s ++ toUpper t := by
  simp [toUpper]

@[simp] theorem toUpper_blanks (count : Nat) :
    toUpper (List.replicate count ' ') = List.replicate count ' ' := by
  simp [toUpper]

@[simp] theorem blank_mem_toUpper (s : Text) : ' ' ∈ toUpper s ↔ ' ' ∈ s := by
  simp [toUpper]

theorem newline_mem_toUpper (s : Text) : '\n' ∈ toUpper s ↔ '\n' ∈ s :=
  mem_toUpper_iff (by decide) (by decide) s

@[simp] theorem toUpper_eq_nil (s : Text) : toUpper s = [] ↔ s = [] := by
  simp [toUpper]

theorem find_toUpper (s : Text) {c : Char} (upper : 65 ≤ c.toNat → 90 < c.toNat)
    (lower : 97 ≤ c.toNat → 122 < c.toNat) : find (toUpper s) c = find s c := by
  rw [find, toUpper, List.findIdx?_map]
  congr 1
  funext d
  simp [toUpper_eq_iff d c upper lower]

theorem erase_toUpper (s : Text) (count : Option Nat) :
    erase (toUpper s) count = toUpper (erase s count) := by
  cases count with
  | none => rfl
  | some count => exact List.map_drop.symm

theorem substr_toUpper (s : Text) (count : Option Nat) :
    substr (toUpper s) count = toUpper (substr s count) := by
  cases count with
  | none => rfl
  | some count => exact List.map_take.symm

end ToUpper

end Text

end RelayDev
