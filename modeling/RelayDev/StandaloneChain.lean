import RelayDev.DaisyChain
import RelayDev.RelayConvert
import RelayDev.Standalone

/-! The daisy chain as `relay.cpp` finds it, beside what `Input.cpp` finds. -/

namespace RelayDev.Standalone

open Cpp Text Loop DeviceOrder DaisyChain RelayConvert

/-- Where `relay.cpp` starts: at the first expander row of the first net that opens a chain,
whatever its pin. -/
def headDevice (nets : List NetlistData) : IOData :=
  match nets.find? (decide <| Opens ·) with
  | some net => ⟨((pickedRow net).map Row.identifier).getD [], 1⟩
  | none => .empty

def scanPorts : List Row → Ports → Ports
  | [], s => s
  | row :: rows, s =>
      if Din row then scanPorts rows { s with input := true }
      else if Dout row then { s with output := true }
      else scanPorts rows s

theorem portRow_loop (rows : List Row) (s : Ports) :
    forIn (List.range rows.length) s (portRow (.ofRows rows)) = .ok (scanPorts rows s) := by
  have overRows := forIn_range rows (portRow (.ofRows rows))
    (fun row s =>
      if Din row then .ok (.yield { s with input := true })
      else if Dout row then .ok (.done { s with output := true })
      else .ok (.yield s))
    (by
      intro j row found
      funext s
      simp only [portRow, onPin_ofRows _ found, ok_bind, pure_eq_ok, decide_eq_true_eq]
      rfl) s
  rw [overRows]
  clear overRows
  induction rows generalizing s with
  | nil => rfl
  | cons row rows ih =>
      rw [List.forIn_cons, scanPorts]
      split
      · exact ih _
      · split
        · rfl
        · exact ih s

theorem scanPorts_opens (rows : List Row) (input : Bool) :
    (scanPorts rows ⟨input, false⟩).input = true ∧ (scanPorts rows ⟨input, false⟩).output = false ↔
      (input = true ∨ ∃ row ∈ rows, Din row) ∧ ∀ row ∈ rows, ¬ Dout row := by
  induction rows generalizing input with
  | nil => simp [scanPorts]
  | cons row rows ih =>
      rw [scanPorts]
      by_cases din : Din row
      · have other : ¬ Dout row := fun dout => dout.not_din din
        rw [if_pos din, ih]
        simp [din, other]
      · rw [if_neg din]
        by_cases dout : Dout row
        · simp [dout]
        · rw [if_neg dout, ih]
          simp [din, dout]

theorem firstRow_loop (rows : List Row) (first : IOData) (rest : List IOData) :
    forIn (List.range rows.length) (first :: rest) (firstRow (.ofRows rows)) =
      .ok (((rows.find? (decide <| ·.device = expanderDevice)).map fun row =>
        ⟨row.identifier, 1⟩ :: rest).getD (first :: rest)) := by
  have overRows := forIn_range rows (firstRow (.ofRows rows))
    (fun row list =>
      if row.device = expanderDevice then do
        return .done (← update list 0 fun _ => ⟨row.identifier, 1⟩)
      else return .yield list)
    (by
      intro k row found
      funext list
      simp only [firstRow, NetlistData.ofRows_device, NetlistData.ofRows_identifier,
        index_map _ found, ok_bind]) (first :: rest)
  rw [overRows, forIn_find rows (decide <| ·.device = expanderDevice) (fun row =>
    ⟨row.identifier, 1⟩ :: rest)]
  intro row _
  by_cases device : row.device = expanderDevice
  · simp only [device, decide_true, if_true]
    rfl
  · simp [device]

theorem firstNet_ofRows (rows : List Row) (first : IOData) (rest : List IOData) :
    firstNet (.ofRows rows) (first :: rest) =
      .ok (if Opens (.ofRows rows) then
        .done (⟨((pickedRow (.ofRows rows)).map Row.identifier).getD [], 1⟩ :: rest)
      else .yield (first :: rest)) := by
  have opened := scanPorts_opens rows false
  simp only [Bool.false_eq_true, false_or] at opened
  rw [firstNet, NetlistData.ofRows_name, List.length_map, portRow_loop, ok_bind]
  have test : Opens (.ofRows rows) ↔ (scanPorts rows ⟨false, false⟩).input = true ∧
      (scanPorts rows ⟨false, false⟩).output = false := by
    rw [Opens, NetlistData.rows_ofRows]
    exact opened.symm
  by_cases opens : Opens (.ofRows rows)
  · rw [if_pos opens, if_pos (test.mp opens), firstRow_loop, pickedRow, NetlistData.rows_ofRows]
    have taken : (rows.find? (decide <| ·.device = expanderDevice)).isSome = true := by
      obtain ⟨⟨row, inside, din⟩, _⟩ := opens
      rw [NetlistData.rows_ofRows] at inside
      rw [List.find?_isSome]
      exact ⟨row, inside, by simp [din.1]⟩
    obtain ⟨row, found⟩ := Option.isSome_iff_exists.mp taken
    rw [found]
    rfl
  · rw [if_neg opens, if_neg (mt test.mpr opens)]
    rfl

theorem getFirstDevice_eq (nets : List NetlistData) (parallel : ∀ net ∈ nets, net.Parallel) :
    getFirstDevice nets [.empty] = .ok [headDevice nets] := by
  unfold getFirstDevice headDevice
  induction nets with
  | nil => rfl
  | cons net nets ih =>
      have rest := ih (fun next member => parallel next (List.mem_cons_of_mem _ member))
      have here := firstNet_ofRows net.rows .empty []
      rw [NetlistData.ofRows_rows net (parallel net (by simp))] at here
      rw [List.forIn_cons, here, List.find?_cons]
      by_cases opens : Opens net
      · simp [opens]
      · simpa [opens] using rest

def atPosition (p : Int) (ioData : List IOData) : List IOData :=
  ioData.modifyHead fun io => { io with position := p }

/-- The state of `Input.cpp` for this one: it counts the expanders, and has the first one at
the position `p`. -/
def Chain.shift (p : Int) (s : Chain) : DeviceOrder.Chain :=
  ⟨atPosition p s.ioData, s.expanders + 1, s.connectionFound, s.lastDevice⟩

theorem identifier_atPosition (p : Int) (ioData : List IOData) (i : Nat) :
    (index (atPosition p ioData) i).map IOData.identifier =
      (index ioData i).map IOData.identifier := by
  cases ioData with
  | nil => rfl
  | cons io ioData =>
      cases i with
      | zero => rfl
      | succ i => rfl

theorem update_atPosition (p : Int) (ioData : List IOData) (i : Nat) (f : IOData → IOData) :
    update (atPosition p ioData ++ [.empty]) (i + 1) f =
      (update (ioData ++ [.empty]) (i + 1) f).map (atPosition p) := by
  cases ioData with
  | nil => rfl
  | cons io ioData =>
      simp only [atPosition, List.modifyHead_cons, List.cons_append, update, List.length_cons]
      by_cases inside : i + 1 < (ioData ++ [IOData.empty]).length + 1
      · rw [if_pos inside, if_pos inside]
        rfl
      · rw [if_neg inside, if_neg inside]
        rfl

section Shift

variable (p : Int) (net : NetlistData)

theorem onTail_shift (j : Nat) (s : Chain) :
    DeviceOrder.onTail net j (s.shift p) = onTail net j s := by
  have tail : (s.shift p).tail = s.tail := identifier_atPosition p s.ioData s.expanders
  rw [DeviceOrder.onTail, onTail, tail]

theorem dinRow_shift (k : Nat) (s : Chain) :
    DeviceOrder.dinRow net k (s.shift p) = (dinRow net k s).map (stepMap (Chain.shift p)) := by
  unfold DeviceOrder.dinRow dinRow
  cases onPin net dinPin k with
  | error fault => rfl
  | ok din =>
      cases din with
      | false => rfl
      | true =>
          simp only [ok_bind, if_true]
          cases index net.identifier k with
          | error fault => rfl
          | ok identifier =>
              have moved := update_atPosition p s.ioData s.expanders
                fun _ => ⟨identifier, ((s.expanders + 1 : Nat) : Int) + 1⟩
              simp only [ok_bind, Chain.shift, moved]
              cases update (s.ioData ++ [.empty]) (s.expanders + 1) _ <;> rfl

theorem chainRow_shift (j : Nat) (s : Chain) :
    DeviceOrder.chainRow net (DeviceOrder.onTail net j) (s.shift p) =
      (chainRow net j s).map (stepMap (Chain.shift p)) := by
  rw [DeviceOrder.chainRow, chainRow, onTail_shift]
  cases onTail net j s with
  | error fault => rfl
  | ok here =>
      cases here with
      | false => rfl
      | true =>
          simp only [ok_bind, if_true]
          rw [forIn_image (Chain.shift p) (List.range net.name.length) (dinRow_shift p net) s]
          apply bind_image
          intro next
          cases found : next.connectionFound <;> simp [Chain.shift, found, Except.map, stepMap]

theorem chainNet_shift (s : Chain) :
    DeviceOrder.chainNet net (s.shift p) = (chainNet net s).map (stepMap (Chain.shift p)) := by
  unfold DeviceOrder.chainNet chainNet
  rw [forIn_image (Chain.shift p) (List.range net.name.length) (chainRow_shift p net) s]
  apply bind_image
  intro next
  cases ended : next.lastDevice <;> simp [Chain.shift, ended, Except.map, stepMap]

theorem chainPass_shift (nets : List NetlistData) (s : Chain) :
    DeviceOrder.chainPass nets (s.shift p) = (chainPass nets s).map (Chain.shift p) :=
  forIn_image (Chain.shift p) nets (chainNet_shift p) s

end Shift

def Starts (first : IOData) (s : Chain) : Prop := s.ioData.head? = some first

section Starts

variable {first : IOData}

theorem dinRow_starts (net : NetlistData) (k : Nat) (s : Chain) (step : ForInStep Chain)
    (starts : Starts first s) (stepped : dinRow net k s = .ok step) : Starts first step.value := by
  obtain ⟨din, _, stepped⟩ := bind_eq_ok.mp stepped
  cases din with
  | false =>
      cases stepped
      exact starts
  | true =>
      obtain ⟨identifier, _, stepped⟩ := bind_eq_ok.mp stepped
      obtain ⟨ioData, stored, stepped⟩ := bind_eq_ok.mp stepped
      cases stepped
      change ioData.head? = some first
      unfold Starts at starts
      unfold update at stored
      split at stored
      · cases stored
        cases list : s.ioData with
        | nil =>
            rw [list] at starts
            cases starts
        | cons io rest =>
            rw [list] at starts
            exact starts
      · cases stored

theorem chainRow_starts (net : NetlistData) (j : Nat) (s : Chain) (step : ForInStep Chain)
    (starts : Starts first s) (stepped : chainRow net j s = .ok step) :
    Starts first step.value := by
  obtain ⟨here, _, stepped⟩ := bind_eq_ok.mp stepped
  cases here with
  | false =>
      cases stepped
      exact starts
  | true =>
      obtain ⟨next, looped, stepped⟩ := bind_eq_ok.mp stepped
      have kept : Starts first next :=
        forIn_keeps (Starts first) _ _ (dinRow_starts net) starts looped
      split at stepped
      · cases stepped
        exact kept
      · cases stepped
        exact kept

theorem chainNet_starts (net : NetlistData) (s : Chain) (step : ForInStep Chain)
    (starts : Starts first s) (stepped : chainNet net s = .ok step) : Starts first step.value := by
  obtain ⟨next, looped, stepped⟩ := bind_eq_ok.mp stepped
  have kept : Starts first next :=
    forIn_keeps (Starts first) _ _ (chainRow_starts net) starts looped
  split at stepped
  · cases stepped
    exact kept
  · cases stepped
    exact kept

theorem chain_starts {nets : List NetlistData} {s last : Chain} (starts : Starts first s)
    (left : Leaves (fun s : Chain => !s.lastDevice) (chainPass nets) s (.ok last)) :
    Starts first last := by
  revert starts
  refine leaves_induction (P := fun s => Starts first s → Starts first last) ?_ ?_ ?_ left
  · intro s _ same starts
    cases same
    exact starts
  · intro s fault _ _ same
    cases same
  · intro s next _ passed further starts
    exact further (forIn_keeps (Starts first) nets _ chainNet_starts starts passed)

end Starts

def chainFrom (first : IOData) (moved : List Text) : List IOData :=
  first :: (chainData (first.identifier :: moved)).tail

theorem ioData_of_shift {first : IOData} {moved : List Text} {last : Chain}
    (starts : Starts first last)
    (shifted : last.shift 1 = .ofPath (first.identifier :: moved) true) :
    last.ioData = chainFrom first moved := by
  have whole : atPosition 1 last.ioData = chainData (first.identifier :: moved) :=
    congrArg DeviceOrder.Chain.ioData shifted
  unfold Starts at starts
  cases list : last.ioData with
  | nil =>
      rw [list] at starts
      cases starts
  | cons io rest =>
      rw [list] at starts whole
      cases starts
      have behind : rest = (chainData (first.identifier :: moved)).tail :=
        (congrArg List.tail whole :)
      rw [chainFrom, ← behind]

theorem chain_leaves_iff (nets : List NetlistData) (parallel : ∀ net ∈ nets, net.Parallel)
    (first : IOData) (outcome : Result (List IOData)) :
    (∃ last, Leaves (fun s : Chain => !s.lastDevice) (chainPass nets) ⟨[first], 0, false, false⟩
        last ∧ last.map Chain.ioData = outcome) ↔
      ∃ moved, Chase.Walk (links nets) first.identifier moved ∧
        outcome = .ok (chainFrom first moved) := by
  have image (fuel : Nat) : whileLoop (fun s : DeviceOrder.Chain => !s.lastDevice)
      (DeviceOrder.chainPass nets) fuel (Chain.shift 1 ⟨[first], 0, false, false⟩) =
        (whileLoop (fun s : Chain => !s.lastDevice) (chainPass nets) fuel
          ⟨[first], 0, false, false⟩).map (·.map (Chain.shift 1)) :=
    whileLoop_image (Chain.shift 1) (fun _ => rfl) (chainPass_shift 1 nets) fuel _
  have start : Chain.shift 1 ⟨[first], 0, false, false⟩ =
      DeviceOrder.Chain.ofPath [first.identifier] false := rfl
  have starts : Starts first ⟨[first], 0, false, false⟩ := rfl
  have walked (server : Result DeviceOrder.Chain) :=
    DeviceOrder.chain_leaves_iff nets parallel first.identifier server
  constructor
  · rintro ⟨result, ⟨fuel, left⟩, rfl⟩
    obtain ⟨moved, walk, same⟩ := (walked (result.map (Chain.shift 1))).mp
      ⟨fuel, by rw [← start, image, left]; rfl⟩
    obtain ⟨last, rfl, shifted⟩ := map_eq_ok.mp same
    have ioData := ioData_of_shift (chain_starts starts ⟨fuel, left⟩) shifted
    exact ⟨moved, walk, congrArg Except.ok ioData⟩
  · rintro ⟨moved, walk, rfl⟩
    obtain ⟨fuel, left⟩ := (walked _).mpr ⟨moved, walk, rfl⟩
    rw [← start, image] at left
    obtain ⟨result, ended, same⟩ := Option.map_eq_some_iff.mp left
    obtain ⟨last, rfl, shifted⟩ := map_eq_ok.mp same
    exact ⟨.ok last, ⟨fuel, ended⟩,
      congrArg Except.ok (ioData_of_shift (chain_starts starts ⟨fuel, ended⟩) shifted)⟩

theorem ends_getDeviceOrder_iff (input : Input) (parallel : ∀ net ∈ input.netlistData, net.Parallel)
    (start : input.ioData = []) (r : Result Input) :
    Ends (getDeviceOrder · input) r ↔
      ∃ moved, Chase.Walk (links input.netlistData) (headDevice input.netlistData).identifier
          moved ∧
        r = .ok { input with ioData := chainFrom (headDevice input.netlistData) moved } := by
  have found := getFirstDevice_eq input.netlistData parallel
  have chain := chain_leaves_iff input.netlistData parallel (headDevice input.netlistData)
  constructor
  · rintro ⟨fuel, returned⟩
    simp only [getDeviceOrder, start, List.nil_append, found, Option.map_eq_some_iff] at returned
    obtain ⟨outcome, left, rfl⟩ := returned
    obtain ⟨moved, walk, same⟩ := (chain (outcome.map Chain.ioData)).mp ⟨outcome, ⟨fuel, left⟩, rfl⟩
    obtain ⟨last, rfl, ioData⟩ := map_eq_ok.mp same
    exact ⟨moved, walk, by rw [← ioData]; rfl⟩
  · rintro ⟨moved, walk, rfl⟩
    obtain ⟨outcome, ⟨fuel, left⟩, same⟩ := (chain _).mpr ⟨moved, walk, rfl⟩
    obtain ⟨last, rfl, ioData⟩ := map_eq_ok.mp same
    refine ⟨fuel, ?_⟩
    simp only [getDeviceOrder, start, List.nil_append, found, Option.map_eq_some_iff]
    exact ⟨.ok last, left, by rw [← ioData]; rfl⟩

theorem chainFrom_head (head : Text) (moved : List Text) :
    chainFrom ⟨head, 1⟩ moved = chainData (head :: moved) := by
  simp [chainFrom, chainData, List.mapIdx_cons]

theorem firstLink_named {nets : List NetlistData} {head : Text}
    (first : firstLink nets = some head) : head ≠ [] := by
  obtain ⟨net, _, found⟩ := List.exists_of_findSome?_eq_some first
  rw [headOf_eq] at found
  split at found
  · rename_i named
    cases found
    exact named.1
  · cases found

theorem headDevice_eq_iff {nets : List NetlistData} {head : Text}
    (first : firstLink nets = some head) :
    headDevice nets = ⟨head, 1⟩ ↔ (headDevice nets).identifier = head := by
  constructor
  · intro same
    rw [same]
  · intro same
    unfold headDevice at same ⊢
    split at same
    · rw [← same]
    · exact absurd same.symm (firstLink_named first)

/-- Where `Input.cpp` has an order of the expanders, `relay.cpp` ends with the same one
exactly if it starts at the same expander. -/
theorem orders_agree_iff (input : Input) (parallel : ∀ net ∈ input.netlistData, net.Parallel)
    (start : input.ioData = []) {head : Text} {moved : List Text}
    (first : firstLink input.netlistData = some head)
    (walk : Chase.Walk (links input.netlistData) head moved) :
    Ends (getDeviceOrder · input) (.ok { input with ioData := chainData (head :: moved) }) ↔
      (headDevice input.netlistData).identifier = head := by
  rw [ends_getDeviceOrder_iff input parallel start]
  constructor
  · rintro ⟨moved', walk', same⟩
    have ioData : chainData (head :: moved) = chainFrom (headDevice input.netlistData) moved' :=
      congrArg Input.ioData (Except.ok.inj same)
    rw [← chainFrom_head] at ioData
    have front : some (⟨head, 1⟩ : IOData) = some (headDevice input.netlistData) :=
      congrArg List.head? ioData
    rw [← Option.some.inj front]
  · intro same
    refine ⟨moved, same ▸ walk, ?_⟩
    rw [(headDevice_eq_iff first).mpr same, chainFrom_head]

/-- On a board wired as a daisy chain `relay.cpp` finds the chain exactly if, on the net that
opens it, the first row of an expander belongs to the expander of the DIN row. -/
theorem finds_daisyChain_iff (input : Input) (wired : Wired input.netlistData)
    (start : input.ioData = []) :
    (∃ us, IsDaisyChain input.netlistData us ∧
        Ends (getDeviceOrder · input) (.ok { input with ioData := chainData us })) ↔
      ∀ net row, input.netlistData.find? (decide <| Opens ·) = some net → row ∈ net.rows →
        Din row → (pickedRow net).map Row.identifier = some row.identifier := by
  obtain ⟨net, row, opening, inside, din, first⟩ := firstLink_eq wired
  obtain ⟨head, moved, first', chain⟩ := exists_chain wired
  obtain rfl : row.identifier = head := Option.some.inj (first.symm.trans first')
  have walk := Chase.walk_of_chain (sources_nodup wired) chain (List.Perm.refl _)
  have agree := orders_agree_iff input wired.parallel start first walk
  have device : headDevice input.netlistData =
      ⟨((pickedRow net).map Row.identifier).getD [], 1⟩ := by
    rw [headDevice, opening]
  have named : row.identifier ≠ [] := firstLink_named first
  have picked : (headDevice input.netlistData).identifier = row.identifier ↔
      (pickedRow net).map Row.identifier = some row.identifier := by
    rw [device]
    cases (pickedRow net).map Row.identifier with
    | none => simp [named.symm]
    | some identifier => simp
  have one := wired.net_din net (List.mem_of_find?_eq_some opening)
  constructor
  · rintro ⟨us, isChain, ended⟩ net' row' opening' inside' din'
    obtain rfl : net = net' := Option.some.inj (opening.symm.trans opening')
    obtain ⟨head', moved', first'', rfl, chain'⟩ := (isDaisyChain_iff wired us).mp isChain
    obtain rfl : row.identifier = head' := Option.some.inj (first.symm.trans first'')
    obtain rfl := Chase.chain_unique (sources_nodup wired) chain chain'
    rw [picked.mp (agree.mp ended)]
    exact (firstDin_of_single one inside din).symm.trans (firstDin_of_single one inside' din')
  · intro same
    have isChain := (isDaisyChain_iff wired (row.identifier :: moved)).mpr
      ⟨row.identifier, moved, first, rfl, chain⟩
    exact ⟨_, isChain, agree.mpr (picked.mpr (same net row opening inside din))⟩

def pinAhead : List NetlistData :=
  [.ofRows [⟨"SDO".toList, "U2".toList, doutPin, expanderDevice⟩],
    .ofRows [⟨"LINK".toList, "U2".toList, dinPin, expanderDevice⟩,
      ⟨"LINK".toList, "U1".toList, doutPin, expanderDevice⟩],
    .ofRows [⟨"SDI".toList, "U2".toList, "4".toList, expanderDevice⟩,
      ⟨"SDI".toList, "U1".toList, dinPin, expanderDevice⟩]]

theorem pinAhead_wired : Wired pinAhead where
  parallel := by decide
  din_once := (once_iff_nodup _ Din).mpr (by decide)
  dout_once := (once_iff_nodup _ Dout).mpr (by decide)
  net_din := by decide
  net_dout := by decide
  passes_on := by decide
  opened := by decide
  named := by decide

theorem finds_daisyChain_iff_pinAhead :
    (∃ us, IsDaisyChain pinAhead us ∧
        Ends (getDeviceOrder · { netlistData := pinAhead })
          (.ok { netlistData := pinAhead, ioData := chainData us })) ↔
      ∀ net row, pinAhead.find? (decide <| Opens ·) = some net → row ∈ net.rows →
        Din row → (pickedRow net).map Row.identifier = some row.identifier :=
  finds_daisyChain_iff { netlistData := pinAhead } pinAhead_wired rfl

end RelayDev.Standalone
