import RelayDev.Netlist

/-! Which lines of a netlist file go to one net. -/

namespace RelayDev.Grouping

open Cpp Text Netlist

def start : Reader := ⟨" ".toList, 0, []⟩

def element (lines : List Text) (i : Nat) : Result Nat :=
  ((lines.take (i + 1)).foldlM readLine start).map Reader.loopCounter

/-- Two neighbouring lines are stored in one element exactly if their first columns agree. -/
def GroupsByName (lines : List Text) : Prop :=
  ∀ i line next, lines[i]? = some line → lines[i + 1]? = some next →
    (element lines i = element lines (i + 1) ↔ column (toUpper line) = column (toUpper next))

def SingleNames (nets : List NetlistData) : Prop :=
  ∀ net ∈ nets, ∀ name ∈ net.name, ∀ other ∈ net.name, name = other

def NeighboursDiffer (nets : List NetlistData) : Prop :=
  nets.IsChain fun net next => ∀ name ∈ net.name, ∀ other ∈ next.name, name ≠ other

/-- A line that is one blank stands before a line that begins with something else. -/
def BlankBefore (lines : List Text) : Prop :=
  ∃ i next, lines[i]? = some " ".toList ∧ lines[i + 1]? = some next ∧ column (toUpper next) ≠ []

theorem foldlM_take {lines : List Text} {i : Nat} {line : Text} (read : lines[i]? = some line) :
    ∃ runs run spare, (lines.take (i + 1)).foldlM readLine start =
      .ok (.midway runs run (toUpper line) spare) := by
  induction i generalizing line with
  | zero =>
      obtain ⟨rest, rfl⟩ : ∃ rest, lines = line :: rest := by
        cases lines with
        | nil => cases read
        | cons first rest =>
            cases read
            exact ⟨rest, rfl⟩
      exact ⟨[], [], 0, rfl⟩
  | succ i ih =>
      obtain ⟨bound, rfl⟩ := List.getElem?_eq_some_iff.mp read
      obtain ⟨runs, run, spare, before⟩ := ih (List.getElem?_eq_getElem (Nat.lt_of_succ_lt bound))
      rw [List.take_succ_eq_append_getElem bound, List.foldlM_append, before, ok_bind,
        List.foldlM_cons, readLine_midway]
      split
      · exact ⟨_, _, _, rfl⟩
      · exact ⟨_, _, _, rfl⟩

/-- Neighbouring lines go to one element if their first columns agree, and behind a line
that is one blank. -/
theorem element_eq_iff {lines : List Text} {i : Nat} {line next : Text}
    (read : lines[i]? = some line) (follows : lines[i + 1]? = some next) :
    element lines i = element lines (i + 1) ↔
      sameNet (toUpper line) (toUpper next) = true := by
  obtain ⟨runs, run, spare, before⟩ := foldlM_take read
  obtain ⟨bound, rfl⟩ := List.getElem?_eq_some_iff.mp follows
  rw [element, element, List.take_succ_eq_append_getElem bound, List.foldlM_append, before,
    ok_bind, List.foldlM_cons, readLine_midway]
  by_cases same : sameNet (toUpper line) (toUpper lines[i + 1]) = true
  · rw [if_pos same]
    exact iff_of_true rfl same
  · rw [if_neg same]
    refine iff_of_false ?_ same
    intro stays
    have counters : runs.length = runs.length + 1 := Except.ok.inj stays
    exact absurd counters (Nat.ne_of_lt (Nat.lt_succ_self _))

theorem toUpper_eq_blank_line (line : Text) : toUpper line = " ".toList ↔ line = " ".toList := by
  cases line with
  | nil => simp [toUpper]
  | cons c rest => simp [toUpper]

theorem sameNet_iff (line next : Text) :
    sameNet (toUpper line) (toUpper next) = true ↔
      line = " ".toList ∨ column (toUpper line) = column (toUpper next) := by
  rw [sameNet, Bool.or_eq_true, beq_iff_eq, beq_iff_eq, toUpper_eq_blank_line]

theorem sameNet_agrees {lines : List Text} (unmarked : ¬ BlankBefore lines) :
    (lines.map toUpper).IsChain fun line next =>
      sameNet line next = (column line == column next) := by
  rw [List.isChain_iff_getElem]
  intro i bound
  rw [List.length_map] at bound
  simp only [List.getElem_map]
  rw [Bool.eq_iff_iff, beq_iff_eq, sameNet_iff]
  constructor
  · rintro (blank | same)
    · by_contra other
      refine unmarked ⟨i, lines[i + 1], ?_, List.getElem?_eq_getElem bound, ?_⟩
      · rw [List.getElem?_eq_getElem (Nat.lt_of_succ_lt bound), blank]
      · intro empty
        rw [blank, empty] at other
        exact other rfl
    · exact same
  · exact .inr

theorem groupsByName_iff (lines : List Text) : GroupsByName lines ↔ ¬ BlankBefore lines := by
  constructor
  · rintro groups ⟨i, next, blank, follows, named⟩
    have stays := (element_eq_iff blank follows).mpr ((sameNet_iff _ _).mpr (.inl rfl))
    exact named ((groups i _ next blank follows).mp stays).symm
  · intro unmarked i line next read follows
    rw [element_eq_iff read follows]
    obtain ⟨bound, rfl⟩ := List.getElem?_eq_some_iff.mp follows
    obtain ⟨bound', rfl⟩ := List.getElem?_eq_some_iff.mp read
    have agree := List.isChain_iff_getElem.mp (sameNet_agrees unmarked) i
      (by rwa [List.length_map])
    simp only [List.getElem_map] at agree
    rw [agree, beq_iff_eq]

theorem netOf_name (run : List Text) : (netOf run).name = run.map column := by
  rw [netOf, NetlistData.ofRows_name, List.map_map]
  rfl

theorem fileNets_singleNames {files : Files} {path : Text}
    (unmarked : ¬ BlankBefore (files.lines path)) : SingleNames (fileNets files path) := by
  intro net member name named other named'
  rcases List.mem_append.mp member with isNet | isSpare
  · rw [nets, Runs.splitBy_congr (sameNet_agrees unmarked)] at isNet
    obtain ⟨run, split, rfl⟩ := List.mem_map.mp isNet
    rw [netOf_name] at named named'
    obtain ⟨line, inside, rfl⟩ := List.mem_map.mp named
    obtain ⟨line', inside', rfl⟩ := List.mem_map.mp named'
    exact Runs.key_run column split line inside line' inside'
  · rw [List.eq_of_mem_replicate isSpare] at named
    cases named

theorem fileNets_neighboursDiffer {files : Files} {path : Text}
    (unmarked : ¬ BlankBefore (files.lines path)) : NeighboursDiffer (fileNets files path) := by
  rw [NeighboursDiffer, fileNets, List.isChain_append]
  refine ⟨?_, ?_, ?_⟩
  · rw [nets, Runs.splitBy_congr (sameNet_agrees unmarked), List.isChain_map]
    apply (Runs.key_changes column _).imp
    intro run next apart name named other named'
    rw [netOf_name] at named named'
    obtain ⟨line, inside, rfl⟩ := List.mem_map.mp named
    obtain ⟨line', inside', rfl⟩ := List.mem_map.mp named'
    exact apart line inside line' inside'
  · rw [List.isChain_iff_getElem]
    intro i bound name named
    rw [List.getElem_replicate] at named
    cases named
  · intro net _ spare first name _ other named'
    have member := List.mem_of_mem_head? first
    rw [List.eq_of_mem_replicate member] at named'
    cases named'

/-- The lines of a file are grouped by their first columns, each group under one name and
next to groups of other names, exactly if no line that is one blank stands before a line
that begins with something else: such a blank is taken for the mark of the first line. -/
theorem getNetlistData_groups_iff (files : Files) (input : Input)
    (noNets : input.netlistData = []) :
    let lines := files.lines input.netlistName
    ∃ read, getNetlistData files input = .ok read ∧
      (GroupsByName lines ∧ SingleNames read.netlistData ∧ NeighboursDiffer read.netlistData ↔
        ¬ BlankBefore lines) := by
  intro lines
  refine ⟨_, getNetlistData_eq files input noNets, ?_⟩
  constructor
  · intro grouped
    exact (groupsByName_iff lines).mp grouped.1
  · intro unmarked
    exact ⟨(groupsByName_iff lines).mpr unmarked, fileNets_singleNames unmarked,
      fileNets_neighboursDiffer unmarked⟩

def blankFile : Files := fun _ => some " \nK1 U1 5 HEADER".toList

theorem blankFile_merges :
    getNetlistData blankFile {} = .ok { netlistData :=
        [.ofRows [⟨[], [], [], []⟩, ⟨"K1".toList, "U1".toList, "5".toList, "HEADER".toList⟩],
          .empty] } ∧
      ¬ GroupsByName (blankFile.lines []) ∧
      ∀ read, getNetlistData blankFile {} = .ok read → ¬ SingleNames read.netlistData := by
  have merged : getNetlistData blankFile {} = .ok { netlistData :=
      [.ofRows [⟨[], [], [], []⟩, ⟨"K1".toList, "U1".toList, "5".toList, "HEADER".toList⟩],
        .empty] } := by decide +kernel
  refine ⟨merged, ?_, ?_⟩
  · intro groups
    have joined := groups 0 _ _ rfl rfl
    exact absurd (joined.mp rfl) (by decide)
  · intro read returned single
    rw [merged] at returned
    cases returned
    exact absurd (single _ List.mem_cons_self [] (by simp) "K1".toList (by simp)) (by decide)

theorem getNetlistData_groups_iff_blankFile :
    ∃ read, getNetlistData blankFile {} = .ok read ∧
      (GroupsByName (blankFile.lines []) ∧ SingleNames read.netlistData ∧
          NeighboursDiffer read.netlistData ↔ ¬ BlankBefore (blankFile.lines [])) :=
  getNetlistData_groups_iff blankFile {} rfl

end RelayDev.Grouping
