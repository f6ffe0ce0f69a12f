import RelayDev.DeviceOrder

/-! The tail of the chain: where the chain loop of `getDeviceOrder` reads `ioData`. -/

namespace RelayDev.DeviceOrder

open Cpp Text Loop

/-- The chain loop, entered in `start`, comes to row `l` of net `k` in the state `s`. -/
inductive Reaches (nets : List NetlistData) (start : Chain) : Nat → Nat → Chain → Prop
  | enter : Reaches nets start 0 0 start
  | row {k l : Nat} {s next : Chain} {net : NetlistData} (reached : Reaches nets start k l s)
      (current : nets[k]? = some net) (inside : l < net.name.length)
      (stays : chainRow net (onTail net l) s = .ok (.yield next)) : Reaches nets start k (l + 1) next
  | net {k : Nat} {s : Chain} {net : NetlistData}
      (reached : Reaches nets start k net.name.length s) (current : nets[k]? = some net)
      (unended : s.lastDevice = false) : Reaches nets start (k + 1) 0 s
  | pass {s : Chain} (reached : Reaches nets start nets.length 0 s)
      (unended : s.lastDevice = false) : Reaches nets start 0 0 s

def Chain.TailInBounds (s : Chain) : Prop := 1 ≤ s.expanders ∧ s.expanders ≤ s.ioData.length

/-- Whenever a row on a DOUT pin is compared with the tail of the chain, there is a tail. -/
def TailsInBounds (nets : List NetlistData) (start : Chain) : Prop :=
  ∀ k l s net, Reaches nets start k l s → nets[k]? = some net → l < net.name.length →
    onPin net doutPin l = .ok true → s.TailInBounds

def HeadOrNoDout (nets : List NetlistData) : Prop :=
  firstLink nets ≠ none ∨ ∀ row ∈ allRows nets, ¬ Dout row

theorem dinRow_keeps {net : NetlistData} {m : Nat} {s next : Chain} (bounds : s.TailInBounds)
    (stepped : dinRow net m s = .ok (.yield next) ∨ dinRow net m s = .ok (.done next)) :
    next.TailInBounds := by
  obtain ⟨step, stepped, same⟩ : ∃ step, dinRow net m s = .ok step ∧
      (step = .yield next ∨ step = .done next) := by
    rcases stepped with yielded | ended
    · exact ⟨_, yielded, .inl rfl⟩
    · exact ⟨_, ended, .inr rfl⟩
  unfold dinRow at stepped
  obtain ⟨onDin, _, rest⟩ := bind_eq_ok.mp stepped
  cases onDin with
  | false =>
      cases rest
      rcases same with same | same
      · cases same
        exact bounds
      · cases same
  | true =>
      obtain ⟨identifier, _, rest⟩ := bind_eq_ok.mp rest
      have room : s.expanders < (s.ioData ++ [IOData.empty]).length := by
        rw [List.length_append, List.length_singleton]
        exact Nat.lt_succ_of_le bounds.2
      simp only [ok_bind, update, if_pos room, pure_eq_ok] at rest
      cases rest
      rcases same with same | same
      · cases same
      · cases same
        constructor
        · exact Nat.le_add_left 1 s.expanders
        · simpa using bounds.2

theorem chainRow_keeps {net : NetlistData} {atTail : Chain → Result Bool} {s next : Chain}
    (bounds : s.TailInBounds) (stays : chainRow net atTail s = .ok (.yield next)) :
    next.TailInBounds := by
  unfold chainRow at stays
  obtain ⟨here, _, rest⟩ := bind_eq_ok.mp stays
  cases here with
  | false =>
      cases rest
      exact bounds
  | true =>
      obtain ⟨found, looped, rest⟩ := bind_eq_ok.mp rest
      have kept : found.TailInBounds :=
        forIn_invariant Chain.TailInBounds _ _ (fun m s next => dinRow_keeps) bounds looped
      split at rest
      · cases rest
      · cases rest
        exact kept

theorem reaches_keeps {nets : List NetlistData} {start : Chain} (bounds : start.TailInBounds)
    {k l : Nat} {s : Chain} (reached : Reaches nets start k l s) : s.TailInBounds := by
  induction reached with
  | enter => exact bounds
  | row _ _ _ stays ih => exact chainRow_keeps ih stays
  | net _ _ _ ih => exact ih
  | pass _ _ ih => exact ih

theorem name_bound {net : NetlistData} (parallel : net.Parallel) {l : Nat} {row : Row}
    (place : net.rows[l]? = some row) : l < net.name.length := by
  have bound := (List.getElem?_eq_some_iff.mp place).1
  rw [← NetlistData.ofRows_rows net parallel, NetlistData.ofRows_name, List.length_map]
  exact bound

theorem row_of_name {net : NetlistData} (parallel : net.Parallel) {l : Nat}
    (inside : l < net.name.length) : ∃ row, net.rows[l]? = some row := by
  rw [← NetlistData.ofRows_rows net parallel, NetlistData.ofRows_name, List.length_map] at inside
  exact ⟨_, List.getElem?_eq_getElem inside⟩

theorem onPin_row {net : NetlistData} (parallel : net.Parallel) {l : Nat} {row : Row}
    (place : net.rows[l]? = some row) (pin : Text) :
    onPin net pin l = .ok (decide (row.device = expanderDevice ∧ row.connection = pin)) := by
  have read := onPin_ofRows pin place
  rwa [NetlistData.ofRows_rows net parallel] at read

theorem onPin_defined {net : NetlistData} (parallel : net.Parallel) {l : Nat}
    (inside : l < net.name.length) (pin : Text) : ∃ here, onPin net pin l = .ok here := by
  obtain ⟨row, place⟩ := row_of_name parallel inside
  exact ⟨_, onPin_row parallel place pin⟩

/-- As long as every comparison has a tail, the headless loop passes the rows of a net
unchanged, and none of them is on a DOUT pin. -/
theorem headless_row {nets : List NetlistData} (bounds : TailsInBounds nets .headless)
    {k : Nat} {net : NetlistData} (parallel : net.Parallel) (current : nets[k]? = some net)
    {l : Nat} (reached : Reaches nets .headless k l .headless) (inside : l < net.name.length) :
    onPin net doutPin l = .ok false ∧ Reaches nets .headless k (l + 1) .headless := by
  have tailless : ¬ Chain.headless.TailInBounds := fun tail => absurd tail.1 (by decide)
  obtain ⟨onDout, read⟩ := onPin_defined parallel inside doutPin
  cases onDout with
  | true => exact absurd (bounds k l _ net reached current inside read) tailless
  | false =>
      constructor
      · exact read
      · apply reached.row current inside
        rw [chainRow, onTail, read]
        rfl

theorem headless_net {nets : List NetlistData} (bounds : TailsInBounds nets .headless)
    {k : Nat} {net : NetlistData} (parallel : net.Parallel) (current : nets[k]? = some net)
    (reached : Reaches nets .headless k 0 .headless) :
    ∀ l ≤ net.name.length, Reaches nets .headless k l .headless := by
  intro l
  induction l with
  | zero =>
      intro _
      exact reached
  | succ l ih =>
      intro inside
      exact (headless_row bounds parallel current (ih (Nat.le_of_succ_le inside)) inside).2

theorem headless_reaches {nets : List NetlistData} (parallel : ∀ net ∈ nets, net.Parallel)
    (bounds : TailsInBounds nets .headless) :
    ∀ k ≤ nets.length, Reaches nets .headless k 0 .headless := by
  intro k
  induction k with
  | zero =>
      intro _
      exact .enter
  | succ k ih =>
      intro inside
      have current := List.getElem?_eq_getElem inside
      have columns := parallel nets[k] (List.getElem_mem inside)
      have reached := ih (Nat.le_of_succ_le inside)
      exact (headless_net bounds columns current reached _ (Nat.le_refl _)).net current rfl

theorem headless_no_dout {nets : List NetlistData} (parallel : ∀ net ∈ nets, net.Parallel)
    (bounds : TailsInBounds nets .headless) : ∀ row ∈ allRows nets, ¬ Dout row := by
  intro row member dout
  obtain ⟨net, listed, inside⟩ := List.mem_flatMap.mp member
  obtain ⟨k, current⟩ := List.mem_iff_getElem?.mp listed
  obtain ⟨l, place⟩ := List.mem_iff_getElem?.mp inside
  have columns := parallel net listed
  have onDout := onPin_row columns place doutPin
  have bound := name_bound columns place
  have reached := headless_reaches parallel bounds k
    (Nat.le_of_lt (List.getElem?_eq_some_iff.mp current).1)
  have before := headless_net bounds columns current reached l (Nat.le_of_lt bound)
  have off := (headless_row bounds columns current before bound).1
  rw [onDout] at off
  exact absurd dout (of_decide_eq_false (Except.ok.inj off))

theorem links_eq_nil_iff (nets : List NetlistData) :
    links nets = [] ↔ ∀ row ∈ allRows nets, ¬ Dout row := by
  simp only [links, netLinks, allRows, List.flatMap_eq_nil_iff, List.map_eq_nil_iff,
    List.filter_eq_nil_iff, decide_eq_true_eq, List.mem_flatMap]
  constructor
  · intro none row inside
    obtain ⟨net, listed, member⟩ := inside
    exact none net listed row member
  · intro none net listed row member
    exact none row ⟨net, listed, member⟩

theorem tailsInBounds_of_no_dout {nets : List NetlistData} {start : Chain}
    (parallel : ∀ net ∈ nets, net.Parallel) (noDout : ∀ row ∈ allRows nets, ¬ Dout row) :
    TailsInBounds nets start := by
  intro k l s net _ current inside onDout
  have listed := List.mem_of_getElem? current
  obtain ⟨row, place⟩ := row_of_name (parallel net listed) inside
  have off := onPin_row (parallel net listed) place doutPin
  have other : ¬ Dout row :=
    noDout row (List.mem_flatMap.mpr ⟨net, listed, List.mem_of_getElem? place⟩)
  rw [off] at onDout
  exact absurd (of_decide_eq_true (Except.ok.inj onDout)) other

theorem getDeviceOrder_undefined_iff (input : Input)
    (parallel : ∀ net ∈ input.netlistData, net.Parallel) (start : input.ioData = []) :
    (∃ fuel, getDeviceOrder fuel input = some (.error .undefined)) ↔
      firstLink input.netlistData = none ∧ links input.netlistData ≠ [] := by
  have found := findHead_eq input parallel start
  constructor
  · intro failed
    obtain ⟨outcome, left, same⟩ := (ends_getDeviceOrder found _).mp failed
    cases first : firstLink input.netlistData with
    | none =>
        rw [first] at left
        exact ⟨rfl, (headless_outcome input.netlistData parallel left).1⟩
    | some head =>
        rw [first] at left
        obtain ⟨moved, _, ok⟩ :=
          (chain_leaves_iff input.netlistData parallel head outcome).mp left
        rw [ok] at same
        cases same
  · rintro ⟨first, linked⟩
    have pass := chainPass_headless input.netlistData parallel
    rw [if_neg linked] at pass
    have leaves : Leaves (fun s : Chain => !s.lastDevice) (chainPass input.netlistData) .headless
        (.error .undefined) := leaves_error rfl pass
    rw [first] at found
    exact (ends_getDeviceOrder found _).mpr ⟨_, leaves, rfl⟩

/-- The chain loop reads `ioData` within its bounds exactly if the head search found a first
link or no row is on a DOUT pin, and otherwise the first such row reads in front of it. -/
theorem tail_in_bounds_iff (input : Input) (parallel : ∀ net ∈ input.netlistData, net.Parallel)
    (start : input.ioData = []) :
    ∃ s, findHead input = .ok s ∧
      (TailsInBounds input.netlistData s ↔ HeadOrNoDout input.netlistData) ∧
      ((∀ fuel, getDeviceOrder fuel input ≠ some (.error .undefined)) ↔
        HeadOrNoDout input.netlistData) := by
  refine ⟨_, findHead_eq input parallel start, ?_, ?_⟩
  · cases first : firstLink input.netlistData with
    | some head =>
        have entered : (⟨chainData [head], 1, false, false⟩ : Chain).TailInBounds :=
          ⟨Nat.le_refl 1, Nat.le_refl 1⟩
        constructor
        · intro _
          exact .inl (by simp [first])
        · intro _ k l s net reached _ _ _
          exact reaches_keeps entered reached
    | none =>
        constructor
        · intro bounds
          exact .inr (headless_no_dout parallel bounds)
        · rintro (headed | noDout)
          · exact absurd first headed
          · exact tailsInBounds_of_no_dout parallel noDout
  · have runs := getDeviceOrder_undefined_iff input parallel start
    rw [← not_iff_not, not_forall_not, runs, HeadOrNoDout, not_or, ← links_eq_nil_iff, not_not]

def outputOnly : List NetlistData :=
  [.ofRows [⟨"SDO".toList, "U1".toList, doutPin, expanderDevice⟩]]

theorem outputOnly_out_of_bounds :
    findHead { netlistData := outputOnly } = .ok .headless ∧
      ¬ TailsInBounds outputOnly .headless ∧
      ∀ fuel, getDeviceOrder (fuel + 1) { netlistData := outputOnly } =
        some (.error .undefined) := by
  refine ⟨by rfl, ?_, fun fuel => rfl⟩
  intro bounds
  have tail := bounds 0 0 .headless outputOnly[0] .enter rfl (by decide) (by decide)
  exact absurd tail.1 (by decide)

theorem tail_in_bounds_iff_outputOnly :
    ∃ s, findHead { netlistData := outputOnly } = .ok s ∧
      (TailsInBounds outputOnly s ↔ HeadOrNoDout outputOnly) ∧
      ((∀ fuel, getDeviceOrder fuel { netlistData := outputOnly } ≠ some (.error .undefined)) ↔
        HeadOrNoDout outputOnly) :=
  tail_in_bounds_iff { netlistData := outputOnly } (by decide) rfl

end RelayDev.DeviceOrder
