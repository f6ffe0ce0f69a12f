import RelayDev.Columns
import Mathlib.Data.List.DropRight
import Mathlib.Data.List.TakeDrop

/-! What `convertPin` and `convertEnum` make of the name of a relay. -/

namespace RelayDev.RelayName

open Cpp Text RelayConvert Netlist RelayFilter Columns

def DigitEnded (name : Text) : Bool := name.getLast?.any Char.isDigit

def trailingNumber (name : Text) : Nat := Nat.ofDigitChars 10 (name.rtakeWhile Char.isDigit) 0

def pinOf (pinNumber : Nat) : Text := "DUT_PIN_".toList ++ numeral pinNumber

def enumOf (name : Text) : Text :=
  if DigitEnded name then
    name.takeWhile (· ≠ '_') ++ "_CIB_".toList ++ name.rtakeWhile (· ≠ '_')
  else
    match findText "SYSGND".toList name with
    | some start => name.take start ++ "SYSGND".toList
    | none => name.rdropWhile (· ≠ '_') ++ "CIB".toList

/-- Behind a digit the whole text fits into as many characters as its code counts, and one; or
more than that stand in front of the last underscore. -/
def SuffixFits (name : Text) : Prop :=
  ∀ c ∈ name.getLast?, c.isDigit = true →
    name.length ≤ c.toNat + 1 ∨ c.toNat + 2 < (name.rdropWhile (· ≠ '_')).length

instance (name : Text) : Decidable (SuffixFits name) :=
  inferInstanceAs (Decidable (∀ c ∈ name.getLast?, _))

theorem split_first {name : Text} (member : '_' ∈ name) :
    ∃ behind, name = name.takeWhile (· ≠ '_') ++ '_' :: behind := by
  obtain ⟨front, behind, rfl, absent⟩ := List.eq_append_cons_of_mem member
  refine ⟨behind, ?_⟩
  have whole : ∀ c ∈ front, decide (c ≠ '_') = true := by
    intro c inside
    exact decide_eq_true fun same => absent (same ▸ inside)
  rw [List.takeWhile_append_of_pos whole]
  simp

theorem split_last {name : Text} (member : '_' ∈ name) :
    ∃ lead, name.rdropWhile (· ≠ '_') = lead ++ ['_'] ∧
      name = lead ++ '_' :: name.rtakeWhile (· ≠ '_') := by
  have nonempty : name.rdropWhile (· ≠ '_') ≠ [] := by
    intro empty
    have other := List.rdropWhile_eq_nil_iff.mp empty '_' member
    simp at other
  have ends := List.rdropWhile_last_not (fun c => decide (c ≠ '_')) name nonempty
  refine ⟨(name.rdropWhile (· ≠ '_')).dropLast, ?_, ?_⟩
  · conv_lhs => rw [← List.dropLast_append_getLast nonempty]
    congr 2
    simpa using ends
  · conv_lhs => rw [← @List.rdropWhile_append_rtakeWhile _ (fun c => decide (c ≠ '_')) name,
      ← List.dropLast_append_getLast nonempty]
    have last : (name.rdropWhile (· ≠ '_')).getLast nonempty = '_' := by simpa using ends
    rw [last, List.append_assoc, List.singleton_append]

theorem breaks_none {text : Text} (absent : '_' ∉ text) (start : Nat) :
    text.findIdxs (· == '_') start = [] := by
  rw [List.findIdxs_eq_nil_iff]
  intro c inside
  simpa using fun same : c = '_' => absent (same ▸ inside)

theorem breaks_first {front : Text} (absent : '_' ∉ front) (behind : Text) :
    (front ++ '_' :: behind).findIdxs (· == '_') =
      front.length :: behind.findIdxs (· == '_') (front.length + 1) := by
  rw [List.findIdxs_append, breaks_none absent _]
  simp

theorem breaks_last (lead : Text) {suffix : Text} (absent : '_' ∉ suffix) :
    (lead ++ '_' :: suffix).findIdxs (· == '_') = lead.findIdxs (· == '_') ++ [lead.length] := by
  rw [List.findIdxs_append]
  simp [breaks_none absent _]

theorem take_past (front behind : Text) :
    (front ++ '_' :: behind).take (front.length + 1) = front ++ ['_'] := by
  rw [List.append_cons]
  exact List.take_left' (by simp)

theorem notMem_takeWhile (name : Text) : '_' ∉ name.takeWhile (· ≠ '_') := by
  intro inside
  have other := List.mem_takeWhile_imp inside
  simp at other

theorem notMem_rtakeWhile (name : Text) : '_' ∉ name.rtakeWhile (· ≠ '_') := by
  intro inside
  have other := List.mem_rtakeWhile_imp inside
  simp at other

section Names

variable {input : Input} {relay : Relay} {net : NetlistData} {name : Text}

theorem convertEnum_digit (current : input.relayList[relay.currentRelay]? = some net)
    (named : net.name[0]? = some name) {c : Char} (last : name.getLast? = some c)
    (digit : c.isDigit = true) (member : '_' ∈ name) :
    ∃ lead : Text, name.rdropWhile (· ≠ '_') = lead ++ ['_'] ∧
      convertEnum input relay = .ok (name.takeWhile (· ≠ '_') ++ "_CIB".toList ++
        substr ('_' :: name.rtakeWhile (· ≠ '_'))
          (if (c.toNat : Int) - lead.length + 1 < 0 then none
            else some ((c.toNat : Int) - lead.length + 1).toNat)) := by
  obtain ⟨behind, split⟩ := split_first member
  obtain ⟨lead, untilLast, splitLast⟩ := split_last member
  refine ⟨lead, untilLast, ?_⟩
  have breaksFront := breaks_first (notMem_takeWhile name) behind
  have breaksBack := breaks_last lead (notMem_rtakeWhile name)
  rw [← split] at breaksFront
  rw [← splitLast] at breaksBack
  have front : index (name.findIdxs (· == '_')) 0 =
      .ok (name.takeWhile (· ≠ '_')).length := by
    rw [breaksFront]
    rfl
  have back' : (name.findIdxs (· == '_')).getLastD 0 = lead.length := by
    rw [breaksBack, List.getLastD_concat]
  have cut (count : Option Nat) : substrFrom name lead.length count =
      .ok (substr ('_' :: name.rtakeWhile (· ≠ '_')) count) := by
    rw [substrFrom]
    conv_lhs => rw [splitLast]
    simp
  have untilFirst : name.take ((name.takeWhile (· ≠ '_')).length + 1) =
      name.takeWhile (· ≠ '_') ++ ['_'] := by
    have taken := take_past (name.takeWhile (· ≠ '_')) behind
    rwa [← split] at taken
  rw [convertEnum, index_of_getElem? current, ok_bind, index_of_getElem? named, ok_bind, back, last]
  simp only [ok_bind, digit, if_true, front, back', cut, untilFirst, pure_eq_ok]
  simp

theorem last_of_word (nonempty : name ≠ []) (word : DigitEnded name = false) :
    ∃ c, name.getLast? = some c ∧ c.isDigit = false := by
  have last := List.getLast?_eq_some_getLast nonempty
  exact ⟨_, last, by simpa [DigitEnded, last] using word⟩

theorem convertEnum_word (current : input.relayList[relay.currentRelay]? = some net)
    (named : net.name[0]? = some name) (nonempty : name ≠ []) (word : DigitEnded name = false) :
    convertEnum input relay =
      match findText "SYSGND".toList name with
      | some start => .ok (name.take start ++ "SYSGND".toList)
      | none =>
          match (name.findIdxs (· == '_')).getLast? with
          | some last => .ok (name.take (last + 1) ++ "CIB".toList)
          | none => .error .undefined := by
  obtain ⟨c, last, other⟩ := last_of_word nonempty word
  rw [convertEnum, index_of_getElem? current, ok_bind, index_of_getElem? named, ok_bind, back, last]
  simp only [ok_bind, other, Bool.false_eq_true, if_false]
  rfl

theorem convertEnum_word_eq (current : input.relayList[relay.currentRelay]? = some net)
    (named : net.name[0]? = some name) (word : DigitEnded name = false) (member : '_' ∈ name) :
    convertEnum input relay = .ok (enumOf name) := by
  rw [convertEnum_word current named (List.ne_nil_of_mem member) word, enumOf, word]
  cases findText "SYSGND".toList name with
  | some start => rfl
  | none =>
      obtain ⟨lead, untilLast, splitLast⟩ := split_last member
      have breaks := breaks_last lead (notMem_rtakeWhile name)
      rw [← splitLast] at breaks
      have taken := take_past lead (name.rtakeWhile (· ≠ '_'))
      rw [← splitLast] at taken
      simp only [breaks, List.getLast?_concat, taken, untilLast, Bool.false_eq_true, if_false]

/-- For a name with an underscore the enumeration is as described exactly if the suffix of it
is not cut off, for which its length is taken from the code of the last character. -/
theorem convertEnum_iff (input : Input) (relay : Relay) (net : NetlistData) (name : Text)
    (current : input.relayList[relay.currentRelay]? = some net)
    (named : net.name[0]? = some name) (member : '_' ∈ name) :
    convertEnum input relay = .ok (enumOf name) ↔ SuffixFits name := by
  obtain ⟨c, last⟩ : ∃ c, name.getLast? = some c :=
    ⟨_, List.getLast?_eq_some_getLast (List.ne_nil_of_mem member)⟩
  cases digit : c.isDigit with
  | false =>
      have word : DigitEnded name = false := by simpa [DigitEnded, last] using digit
      refine iff_of_true (convertEnum_word_eq current named word member) ?_
      intro d found isDigit
      rw [last] at found
      cases found
      rw [digit] at isDigit
      cases isDigit
  | true =>
      obtain ⟨lead, untilLast, read⟩ := convertEnum_digit current named last digit member
      obtain ⟨_, untilLast', splitLast⟩ := split_last member
      obtain rfl := List.append_cancel_right (untilLast.symm.trans untilLast')
      have ended : DigitEnded name = true := by simp [DigitEnded, last, digit]
      have described : enumOf name = name.takeWhile (· ≠ '_') ++ "_CIB".toList ++
          ('_' :: name.rtakeWhile (· ≠ '_')) := by
        rw [enumOf, if_pos ended]
        simp
      have fits : SuffixFits name ↔
          name.length ≤ c.toNat + 1 ∨ c.toNat + 2 < (name.rdropWhile (· ≠ '_')).length := by
        simp [SuffixFits, last, digit]
      have size := congrArg List.length splitLast
      rw [List.length_append, List.length_cons] at size
      rw [read, described, Except.ok.injEq, List.append_cancel_left_eq, fits, untilLast,
        List.length_append, List.length_singleton]
      generalize name.rtakeWhile (· ≠ '_') = suffix at size ⊢
      by_cases negative : (c.toNat : Int) - lead.length + 1 < 0
      · rw [if_pos negative]
        exact iff_of_true rfl (.inr (by omega))
      · rw [if_neg negative, substr, List.take_eq_self_iff, List.length_cons]
        omega

def longName : Text := "AB_".toList ++ List.replicate 50 'K' ++ "1".toList

def longNet : NetlistData := .ofRows [⟨longName, "U1".toList, "5".toList, expanderDevice⟩]

theorem longName_truncated :
    convertEnum { relayList := [longNet] } {} =
        .ok ("AB_CIB_".toList ++ List.replicate 47 'K') ∧
      convertEnum { relayList := [longNet] } {} ≠ .ok (enumOf longName) := by
  decide +kernel

theorem convertEnum_iff_longName :
    convertEnum { relayList := [longNet] } {} = .ok (enumOf longName) ↔ SuffixFits longName :=
  convertEnum_iff { relayList := [longNet] } {} longNet longName rfl rfl (by decide +kernel)

theorem pinOf_inj {m n : Nat} : pinOf m = pinOf n ↔ m = n := by
  constructor
  · intro same
    have digits : numeral m = numeral n := List.append_cancel_left same
    calc
      m = Nat.ofDigitChars 10 (numeral m) 0 := (numeral_value m).symm
      _ = Nat.ofDigitChars 10 (numeral n) 0 := by rw [digits]
      _ = n := numeral_value n
  · intro same
    rw [same]

theorem digit_lt {c : Char} (isDigit : c.isDigit = true) : digit c < 10 := by
  have code : 48 ≤ c.toNat ∧ c.toNat ≤ 57 := by
    simpa [Char.isDigit, UInt32.le_iff_toNat_le] using isDigit
  change c.toNat - 48 < 10
  omega

theorem trailingNumber_digit (lead : Text) {c : Char} (isDigit : c.isDigit = true) :
    trailingNumber (lead ++ [c]) = 10 * trailingNumber lead + digit c := by
  rw [trailingNumber, List.rtakeWhile_concat_pos _ _ _ isDigit, Nat.ofDigitChars_append]
  rfl

theorem trailingNumber_other (lead : Text) {c : Char} (other : c.isDigit = false) :
    trailingNumber (lead ++ [c]) = 0 := by
  rw [trailingNumber, List.rtakeWhile_concat_neg _ _ _ (by simp [other])]
  rfl

theorem trailingNumber_mod (lead : Text) (tens : Char) {c : Char} (isDigit : c.isDigit = true) :
    trailingNumber (lead ++ [tens] ++ [c]) % 100 =
      if tens.isDigit then digit c + digit tens * 10 else digit c := by
  have units := digit_lt isDigit
  rw [trailingNumber_digit _ isDigit]
  cases high : tens.isDigit with
  | true =>
      have ten := digit_lt high
      rw [if_pos rfl]
      calc
        (10 * trailingNumber (lead ++ [tens]) + digit c) % 100 =
            (100 * trailingNumber lead + (digit c + digit tens * 10)) % 100 := by
          rw [trailingNumber_digit lead high]
          congr 1
          omega
        _ = (digit c + digit tens * 10) % 100 := Nat.mul_add_mod _ _ _
        _ = digit c + digit tens * 10 := Nat.mod_eq_of_lt (by omega)
  | false =>
      rw [if_neg Bool.false_ne_true]
      calc
        (10 * trailingNumber (lead ++ [tens]) + digit c) % 100 = (10 * 0 + digit c) % 100 := by
          rw [trailingNumber_other lead high]
        _ = digit c := by omega

theorem charFromEnd_two (lead : Text) (tens c : Char) :
    charFromEnd (lead ++ [tens] ++ [c]) 2 = .ok tens := by
  have two : 2 ≤ (lead ++ [tens] ++ [c]).length := by simp
  have place : (lead ++ [tens] ++ [c]).length - 2 = lead.length := by simp
  have inside : lead.length ≠ (lead ++ [tens] ++ [c]).length := by simp
  have found : (lead ++ [tens] ++ [c])[lead.length]? = some tens := by simp
  rw [charFromEnd, if_pos two, place, charAt, if_neg inside, index_of_getElem? found]

/-- Of the number at the end of a name the two last digits are read, if it has as many. -/
theorem convertPin_digit (current : input.relayList[relay.currentRelay]? = some net)
    (named : net.name[0]? = some name) (two : 2 ≤ name.length) (ended : DigitEnded name = true) :
    convertPin input relay = .ok (pinOf (trailingNumber name % 100)) := by
  obtain ⟨c, last, isDigit⟩ := (Option.any_eq_true _ _).mp ended
  obtain ⟨front, rfl⟩ := List.getLast?_eq_some_iff.mp last
  rcases List.eq_nil_or_concat' front with rfl | ⟨lead, tens, rfl⟩
  · simp at two
  · rw [trailingNumber_mod lead tens isDigit, convertPin, index_of_getElem? current, ok_bind,
      index_of_getElem? named, ok_bind, back, last, ok_bind, if_pos isDigit, charFromEnd_two,
      ok_bind]
    rfl

/-- A name gets the pin of the number at its end exactly if that is below 100, and two names get
the same pin exactly if their numbers agree modulo 100. -/
theorem convertPin_number_iff (input input' : Input) (relay relay' : Relay)
    (net net' : NetlistData) (name name' : Text)
    (current : input.relayList[relay.currentRelay]? = some net)
    (named : net.name[0]? = some name) (two : 2 ≤ name.length) (ended : DigitEnded name = true)
    (current' : input'.relayList[relay'.currentRelay]? = some net')
    (named' : net'.name[0]? = some name') (two' : 2 ≤ name'.length)
    (ended' : DigitEnded name' = true) :
    (convertPin input relay = .ok (pinOf (trailingNumber name)) ↔ trailingNumber name < 100) ∧
      (convertPin input relay = convertPin input' relay' ↔
        trailingNumber name % 100 = trailingNumber name' % 100) := by
  rw [convertPin_digit current named two ended, convertPin_digit current' named' two' ended',
    Except.ok.injEq, Except.ok.injEq, pinOf_inj, pinOf_inj]
  refine ⟨?_, Iff.rfl⟩
  constructor
  · intro same
    rw [← same]
    exact Nat.mod_lt _ (by decide)
  · exact Nat.mod_eq_of_lt

def numberedNet (name : Text) : NetlistData :=
  .ofRows [⟨name, "U1".toList, "5".toList, expanderDevice⟩]

def numberedRelays : Input where
  relayList := [numberedNet "AB_K_1".toList, numberedNet "AB_K_101".toList]

theorem numberedRelays_collide :
    trailingNumber "AB_K_1".toList = 1 ∧ trailingNumber "AB_K_101".toList = 101 ∧
      convertPin numberedRelays { currentRelay := 1 } = .ok "DUT_PIN_1".toList ∧
      convertPin numberedRelays { currentRelay := 1 } ≠ .ok (pinOf 101) ∧
      convertPin numberedRelays { currentRelay := 1 } = convertPin numberedRelays {} := by
  decide +kernel

theorem convertPin_number_iff_numberedRelays :
    (convertPin numberedRelays {} = .ok (pinOf (trailingNumber "AB_K_1".toList)) ↔
        trailingNumber "AB_K_1".toList < 100) ∧
      (convertPin numberedRelays {} = convertPin numberedRelays { currentRelay := 1 } ↔
        trailingNumber "AB_K_1".toList % 100 = trailingNumber "AB_K_101".toList % 100) :=
  convertPin_number_iff numberedRelays numberedRelays {} { currentRelay := 1 }
    (numberedNet "AB_K_1".toList) (numberedNet "AB_K_101".toList) "AB_K_1".toList
    "AB_K_101".toList rfl rfl (by decide) (by decide) rfl rfl (by decide) (by decide)

theorem relayConvert_pin {uninit : Uninit} {out : Relay} {k : Nat} {entry : RelayData}
    (converted : relayConvert uninit input {} = .ok out)
    (stored : out.relayData[k]? = some entry) (two : 2 ≤ entry.relayName.length)
    (ended : DigitEnded entry.relayName = true) :
    entry.pin = pinOf (trailingNumber entry.relayName % 100) := by
  obtain ⟨_, turn⟩ := relayConvert_stored converted stored
  have parts := convertRelay_eq_ok.mp turn
  obtain ⟨net, current, named⟩ := parts.name
  have pin := parts.pin
  rw [convertPin_digit current named two ended] at pin
  exact (Except.ok.inj pin).symm

def Defined {α : Type} (r : Result α) : Prop := r ≠ .error .undefined

theorem convertPin_defined (current : input.relayList[relay.currentRelay]? = some net)
    (named : net.name[0]? = some name) (nonempty : name ≠ [])
    (long : DigitEnded name = true → 2 ≤ name.length) : Defined (convertPin input relay) := by
  cases ended : DigitEnded name with
  | true =>
      rw [Defined, convertPin_digit current named (long ended) ended]
      simp
  | false =>
      obtain ⟨c, last, other⟩ := last_of_word nonempty ended
      rw [Defined, convertPin, index_of_getElem? current, ok_bind, index_of_getElem? named, ok_bind,
        back, last, ok_bind, if_neg (by simp [other])]
      simp

theorem convertEnum_word_defined (current : input.relayList[relay.currentRelay]? = some net)
    (named : net.name[0]? = some name) (nonempty : name ≠ []) (word : DigitEnded name = false) :
    Defined (convertEnum input relay) ↔
      '_' ∈ name ∨ (findText "SYSGND".toList name).isSome = true := by
  by_cases member : '_' ∈ name
  · rw [convertEnum_word_eq current named word member]
    exact iff_of_true (by simp [Defined]) (.inl member)
  · rw [convertEnum_word current named nonempty word, breaks_none member _]
    cases findText "SYSGND".toList name with
    | some start => exact iff_of_true (by simp [Defined]) (.inr rfl)
    | none => exact iff_of_false (fun defined => defined rfl) (by simpa using member)

theorem convertEnum_digit_defined (current : input.relayList[relay.currentRelay]? = some net)
    (named : net.name[0]? = some name) (ended : DigitEnded name = true) :
    Defined (convertEnum input relay) ↔ '_' ∈ name := by
  obtain ⟨c, last, digit⟩ := (Option.any_eq_true _ _).mp ended
  by_cases member : '_' ∈ name
  · obtain ⟨lead, _, read⟩ := convertEnum_digit current named last digit member
    rw [read]
    exact iff_of_true (by simp [Defined]) member
  · refine iff_of_false (fun defined => defined ?_) member
    rw [convertEnum, index_of_getElem? current, ok_bind, index_of_getElem? named, ok_bind, back,
      last]
    simp only [ok_bind, digit, if_true, breaks_none member _]
    rfl

theorem two_le_length (ended : DigitEnded name = true) (member : '_' ∈ name) :
    2 ≤ name.length := by
  obtain ⟨c, last, digit⟩ := (Option.any_eq_true _ _).mp ended
  match name, last, member with
  | [d], last, member =>
      obtain rfl : d = c := Option.some.inj last
      obtain rfl : '_' = d := List.mem_singleton.mp member
      exact absurd digit (by decide)
  | _ :: _ :: _, _, _ => simp

/-- A name with an underscore, or with `SYSGND` and no digit at its end. -/
def Readable (name : Text) : Prop :=
  '_' ∈ name ∨ (findText "SYSGND".toList name).isSome = true ∧ DigitEnded name = false

instance (name : Text) : Decidable (Readable name) := inferInstanceAs (Decidable (_ ∨ _))

theorem converts_defined_iff (current : input.relayList[relay.currentRelay]? = some net)
    (named : net.name[0]? = some name) :
    Defined (convertPin input relay) ∧ Defined (convertEnum input relay) ↔ Readable name := by
  by_cases empty : name = []
  · subst empty
    refine iff_of_false ?_ (by decide)
    rintro ⟨_, defined⟩
    rw [Defined, convertEnum, index_of_getElem? current, ok_bind, index_of_getElem? named]
      at defined
    exact defined rfl
  · cases ended : DigitEnded name with
    | false =>
        have pin := convertPin_defined current named empty (by simp [ended])
        rw [convertEnum_word_defined current named empty ended, Readable, ended]
        simp [pin]
    | true =>
        rw [convertEnum_digit_defined current named ended, Readable, ended]
        constructor
        · intro defined
          exact .inl defined.2
        · rintro (member | ⟨_, word⟩)
          · have pin := convertPin_defined current named empty fun _ => two_le_length ended member
            exact ⟨pin, member⟩
          · cases word

end Names

/-- For every relay the filter finds, its name is read within its bounds exactly if it has an
underscore, or `SYSGND` and no digit at its end. -/
theorem relayNames_defined_iff (files : Files) (input read filtered ordered : Input) (relay : Relay)
    (noNets : input.netlistData = []) (noRelays : input.relayList = [])
    (loaded : getNetlistData files input = .ok read)
    (finished : filterNetlistData read = .ok filtered)
    (sameRelays : ordered.relayList = filtered.relayList)
    (bound : relay.currentRelay < filtered.relayList.length) :
    ∃ net name, ordered.relayList[relay.currentRelay]? = some net ∧ net.name[0]? = some name ∧
      (Defined (convertPin ordered relay) ∧ Defined (convertEnum ordered relay) ↔
        Readable name) := by
  obtain rfl : _ = read := Except.ok.inj ((getNetlistData_eq files input noNets).symm.trans loaded)
  have filled : ∀ net ∈ filtered.relayList, net.name ≠ [] := by
    intro net listed
    rw [filterNetlistData_selects { input with netlistData := fileNets files input.netlistName }
      filtered (fileNets_parallel files input.netlistName) noRelays finished] at listed
    exact relayNet_filled (List.mem_filter.mp listed).2
  have current : ordered.relayList[relay.currentRelay]? =
      some filtered.relayList[relay.currentRelay] := by
    rw [sameRelays, List.getElem?_eq_getElem bound]
  have nonempty := filled _ (List.getElem_mem bound)
  have named := List.getElem?_eq_getElem (List.length_pos_iff.mpr nonempty)
  exact ⟨_, _, current, named, converts_defined_iff current named⟩

def unbrokenFile : Files := fun _ => some (List.intercalate ['\n']
  ["GND U1 5 ".toList ++ expanderDevice, "5 U1 6 ".toList ++ expanderDevice,
    " U1 7 ".toList ++ expanderDevice])

def unbrokenInput : Input :=
  let nets : List NetlistData := [
    .ofRows [⟨"GND".toList, "U1".toList, "5".toList, expanderDevice⟩],
    .ofRows [⟨"5".toList, "U1".toList, "6".toList, expanderDevice⟩],
    .ofRows [⟨[], "U1".toList, "7".toList, expanderDevice⟩]]
  { netlistData := nets, relayList := nets }

theorem unbrokenFile_undefined :
    getNetlistData unbrokenFile {} = .ok { unbrokenInput with relayList := [] } ∧
      filterNetlistData { unbrokenInput with relayList := [] } = .ok unbrokenInput ∧
      (∀ currentRelay < 3, convertEnum unbrokenInput { currentRelay } = .error .undefined) ∧
      convertPin unbrokenInput { currentRelay := 1 } = .error .undefined ∧
      convertPin unbrokenInput { currentRelay := 2 } = .error .undefined := by
  decide +kernel

theorem relayNames_defined_iff_unbrokenFile :
    ∃ net name, unbrokenInput.relayList[0]? = some net ∧ net.name[0]? = some name ∧
      (Defined (convertPin unbrokenInput {}) ∧ Defined (convertEnum unbrokenInput {}) ↔
        Readable name) :=
  relayNames_defined_iff unbrokenFile {} { unbrokenInput with relayList := [] } unbrokenInput
    unbrokenInput {} rfl rfl (by decide +kernel) (by decide +kernel) rfl (by decide)

end RelayDev.RelayName
