import RelayDev.DeviceOrder

/-! The daisy chain of a board that is wired as one, and `getDeviceOrder` on it. -/

namespace RelayDev.DaisyChain

open Cpp Text DeviceOrder

def Feeds (nets : List NetlistData) (u v : Text) : Prop :=
  ∃ net ∈ nets, (∃ row ∈ net.rows, Dout row ∧ row.identifier = u) ∧
    ∃ row ∈ net.rows, Din row ∧ row.identifier = v

def EndsAt (nets : List NetlistData) (u : Text) : Prop :=
  ∃ net ∈ nets, (∃ row ∈ net.rows, Dout row ∧ row.identifier = u) ∧ ∀ row ∈ net.rows, ¬ Din row

def Opens (net : NetlistData) : Prop :=
  (∃ row ∈ net.rows, Din row) ∧ ∀ row ∈ net.rows, ¬ Dout row

instance (net : NetlistData) : Decidable (Opens net) := inferInstanceAs (Decidable (_ ∧ _))

/-- `us` starts at the DIN expander of the first net that opens a chain, goes from
each DOUT to the DIN on the same net, and ends where there is none. -/
structure IsDaisyChain (nets : List NetlistData) (us : List Text) : Prop where
  head : ∃ net row, nets.find? (decide <| Opens ·) = some net ∧ row ∈ net.rows ∧ Din row ∧
    us.head? = some row.identifier
  linked : us.IsChain (Feeds nets)
  last : ∃ u, us.getLast? = some u ∧ EndsAt nets u

/-- A board wired as a daisy chain: no expander pin and no net is used twice, every
expander passes its data on, some net feeds the first one from outside, and no
identifier is one that the head search uses for itself. -/
structure Wired (nets : List NetlistData) : Prop where
  parallel : ∀ net ∈ nets, net.Parallel
  din_once : ∀ u, ((allRows nets).filter fun row => Din row ∧ row.identifier = u).length ≤ 1
  dout_once : ∀ u, ((allRows nets).filter fun row => Dout row ∧ row.identifier = u).length ≤ 1
  net_din : ∀ net ∈ nets, (net.rows.filter (decide <| Din ·)).length ≤ 1
  net_dout : ∀ net ∈ nets, (net.rows.filter (decide <| Dout ·)).length ≤ 1
  passes_on : ∀ row ∈ allRows nets, Din row →
    ∃ next ∈ allRows nets, Dout next ∧ next.identifier = row.identifier
  opened : ∃ net ∈ nets, Opens net
  named : ∀ row ∈ allRows nets, row.device = expanderDevice →
    row.identifier ≠ [] ∧ row.identifier ≠ outputMark

theorem once_iff_nodup (rows : List Row) (pin : Row → Prop) [DecidablePred pin] :
    (∀ u, (rows.filter fun row => pin row ∧ row.identifier = u).length ≤ 1) ↔
      ((rows.filter (decide <| pin ·)).map Row.identifier).Nodup := by
  rw [List.nodup_iff_count_le_one]
  refine forall_congr' fun u => ?_
  have same : (rows.filter fun row => pin row ∧ row.identifier = u).length =
      ((rows.filter (decide <| pin ·)).map Row.identifier).count u := by
    rw [List.count, List.countP_map, List.countP_filter, List.countP_eq_length_filter]
    congr 2
    funext row
    by_cases here : pin row <;> simp [here, beq_eq_decide]
  rw [same]

variable {nets : List NetlistData}

theorem links_sources (nets : List NetlistData) :
    (links nets).map Chase.Link.source =
      ((allRows nets).filter (decide <| Dout ·)).map Row.identifier := by
  simp only [links, netLinks, allRows, List.map_flatMap, List.filter_flatMap, List.map_map]
  rfl

theorem mem_sources (u : Text) :
    u ∈ (links nets).map Chase.Link.source ↔
      ∃ row ∈ allRows nets, Dout row ∧ row.identifier = u := by
  simp [links_sources, and_assoc]

theorem firstDin_eq_some {rows : List Row} {v : Text} (found : firstDin rows = some v) :
    ∃ row ∈ rows, Din row ∧ row.identifier = v := by
  obtain ⟨row, hit, rfl⟩ := Option.map_eq_some_iff.mp found
  exact ⟨row, List.mem_of_find?_eq_some hit, by simpa using List.find?_some hit, rfl⟩

theorem firstDin_eq_none {rows : List Row} : firstDin rows = none ↔ ∀ row ∈ rows, ¬ Din row := by
  simp [firstDin]

theorem firstDin_eq_head (rows : List Row) :
    firstDin rows = (rows.filter (decide <| Din ·)).head?.map Row.identifier := by
  rw [firstDin, List.head?_filter]

theorem firstDin_of_single {rows : List Row} (single : (rows.filter (decide <| Din ·)).length ≤ 1)
    {row : Row} (member : row ∈ rows) (din : Din row) : firstDin rows = some row.identifier := by
  have listed : row ∈ rows.filter (decide <| Din ·) := by simp [member, din]
  have only : rows.filter (decide <| Din ·) = [row] := by
    cases filtered : rows.filter (decide <| Din ·) with
    | nil => simp [filtered] at listed
    | cons other rest =>
        rw [filtered] at listed single
        obtain rfl : rest = [] := by simpa using single
        rw [List.mem_singleton.mp listed]
  rw [firstDin_eq_head, only]
  rfl

theorem mem_links {u : Text} {target : Option Text} :
    ⟨u, target⟩ ∈ links nets ↔
      ∃ net ∈ nets, (∃ row ∈ net.rows, Dout row ∧ row.identifier = u) ∧
        firstDin net.rows = target := by
  simp only [links, netLinks, List.mem_flatMap, List.mem_map, List.mem_filter, decide_eq_true_eq]
  constructor
  · rintro ⟨net, member, row, ⟨inside, dout⟩, same⟩
    cases same
    exact ⟨net, member, ⟨row, inside, dout, rfl⟩, rfl⟩
  · rintro ⟨net, member, ⟨row, inside, dout, rfl⟩, rfl⟩
    exact ⟨net, member, row, ⟨inside, dout⟩, rfl⟩

section Chains

variable (wired : Wired nets)

include wired

theorem sources_nodup : ((links nets).map Chase.Link.source).Nodup := by
  rw [links_sources]
  exact (once_iff_nodup (allRows nets) Dout).mp wired.dout_once

theorem dins_nodup : (((allRows nets).filter (decide <| Din ·)).map Row.identifier).Nodup :=
  (once_iff_nodup (allRows nets) Din).mp wired.din_once

theorem firstDin_eq_iff {net : NetlistData} (member : net ∈ nets) {v : Text} :
    firstDin net.rows = some v ↔ ∃ row ∈ net.rows, Din row ∧ row.identifier = v := by
  constructor
  · exact firstDin_eq_some
  · rintro ⟨row, inside, din, rfl⟩
    exact firstDin_of_single (wired.net_din net member) inside din

theorem mem_links_some {u v : Text} : ⟨u, some v⟩ ∈ links nets ↔ Feeds nets u v := by
  rw [mem_links]
  refine exists_congr fun net => and_congr_right fun member => and_congr_right fun _ => ?_
  exact firstDin_eq_iff wired member

omit wired in
theorem mem_links_none {u : Text} : ⟨u, none⟩ ∈ links nets ↔ EndsAt nets u := by
  simp only [mem_links, firstDin_eq_none, EndsAt]

theorem targets_sublist (part : List NetlistData) (included : ∀ net ∈ part, net ∈ nets) :
    ((links part).filterMap Chase.Link.target).Sublist
      (((allRows part).filter (decide <| Din ·)).map Row.identifier) := by
  induction part with
  | nil => exact List.Sublist.refl _
  | cons net part ih =>
      have rest := ih (fun next member => included next (List.mem_cons_of_mem _ member))
      have here : ((netLinks net.rows).filterMap Chase.Link.target).Sublist
          ((net.rows.filter (decide <| Din ·)).map Row.identifier) := by
        have single := wired.net_dout net (included net (by simp))
        rw [netLinks]
        cases douts : net.rows.filter (decide <| Dout ·) with
        | nil => simp
        | cons dout more =>
            rw [douts] at single
            obtain rfl : more = [] := by simpa using single
            rw [firstDin_eq_head]
            cases net.rows.filter (decide <| Din ·) with
            | nil => exact List.Sublist.refl _
            | cons din more => simp
      rw [links, List.flatMap_cons, List.filterMap_append, allRows, List.flatMap_cons,
        List.filter_append, List.map_append]
      exact here.append rest

theorem headOf_eq_firstDin {net : NetlistData} (member : net ∈ nets) :
    headOf net.rows = if Opens net then firstDin net.rows else none := by
  have named : ∀ row ∈ net.rows, Din row → row.identifier ≠ [] ∧ row.identifier ≠ outputMark :=
    fun row inside din => wired.named row (List.mem_flatMap.mpr ⟨net, member, inside⟩) din.1
  have head : (((net.rows.filter (decide <| Din ·)).map Row.identifier).find?
      (decide <| · ≠ [])).filter (decide <| · ≠ outputMark) = firstDin net.rows := by
    rw [firstDin_eq_head]
    cases dins : net.rows.filter (decide <| Din ·) with
    | nil => rfl
    | cons row rest =>
        have inside : row ∈ net.rows ∧ Din row := by
          have first : row ∈ net.rows.filter (decide <| Din ·) := by simp [dins]
          simpa using first
        obtain ⟨nonempty, other⟩ := named row inside.1 inside.2
        simp [nonempty, other, Option.filter]
  rw [headOf, head]
  by_cases fed : ∃ row ∈ net.rows, Dout row
  · have closed : ¬ Opens net := fun opens => fed.elim fun row dout => opens.2 row dout.1 dout.2
    rw [if_pos (by simpa using fed), if_neg closed]
  · have undriven : ∀ row ∈ net.rows, ¬ Dout row := fun row inside dout => fed ⟨row, inside, dout⟩
    rw [if_neg (by simpa using undriven)]
    by_cases dins : ∃ row ∈ net.rows, Din row
    · rw [if_pos ⟨dins, undriven⟩]
    · rw [if_neg (fun opens => dins opens.1), firstDin_eq_none.mpr]
      exact fun row inside din => dins ⟨row, inside, din⟩

theorem firstLink_eq : ∃ net row, nets.find? (decide <| Opens ·) = some net ∧
    row ∈ net.rows ∧ Din row ∧ firstLink nets = some row.identifier := by
  have search (part : List NetlistData) (included : ∀ net ∈ part, net ∈ nets) :
      firstLink part = (part.find? (decide <| Opens ·)).bind fun net => firstDin net.rows := by
    induction part with
    | nil => rfl
    | cons net part ih =>
        have rest := ih (fun next member => included next (List.mem_cons_of_mem _ member))
        have here := headOf_eq_firstDin wired (included net (by simp))
        rw [firstLink, List.findSome?_cons, here, List.find?_cons]
        by_cases opens : Opens net
        · obtain ⟨row, inside, din⟩ := opens.1
          have first := firstDin_of_single (wired.net_din net (included net (by simp))) inside din
          simp [opens, first]
        · simpa [opens, firstLink] using rest
  have some_open : (nets.find? (decide <| Opens ·)).isSome = true := by
    simpa using wired.opened
  obtain ⟨net, found⟩ := Option.isSome_iff_exists.mp some_open
  have isOpen : Opens net := of_decide_eq_true (List.find?_some found :)
  obtain ⟨row, inside, din⟩ := isOpen.1
  refine ⟨net, row, found, inside, din, ?_⟩
  rw [search nets (fun _ member => member), found, Option.bind_some]
  exact firstDin_of_single (wired.net_din net (List.mem_of_find?_eq_some found)) inside din

theorem head_not_target {net : NetlistData} (member : net ∈ nets) (opens : Opens net) {row : Row}
    (inside : row ∈ net.rows) (din : Din row) :
    row.identifier ∉ (links nets).filterMap Chase.Link.target := by
  obtain ⟨before, after, split⟩ := List.append_of_mem member
  have unlinked : netLinks net.rows = [] := by
    simpa [netLinks] using opens.2
  have others := targets_sublist wired (before ++ after) (by
    intro next isNext
    rw [split]
    simp only [List.mem_append, List.mem_cons] at isNext ⊢
    tauto)
  have distinct := dins_nodup wired
  have here : row.identifier ∈ (net.rows.filter (decide <| Din ·)).map Row.identifier :=
    List.mem_map_of_mem (by simp [inside, din])
  intro target
  have target' : row.identifier ∈ (links (before ++ after)).filterMap Chase.Link.target := by
    simpa [split, links, unlinked] using target
  have elsewhere := others.subset target'
  simp only [split, allRows, List.flatMap_append, List.flatMap_cons, List.filter_append,
    List.map_append] at distinct elsewhere
  rw [List.nodup_append, List.nodup_append] at distinct
  obtain ⟨_, ⟨_, _, apartAfter⟩, apartBefore⟩ := distinct
  rcases List.mem_append.mp elsewhere with early | late
  · exact apartBefore _ early _ (List.mem_append_left _ here) rfl
  · exact apartAfter _ here _ late rfl

theorem chain_iff (head : Text) (moved : List Text) :
    Chase.Chain (links nets) head moved ↔
      (head :: moved).IsChain (Feeds nets) ∧
        ∃ u, (head :: moved).getLast? = some u ∧ EndsAt nets u := by
  induction moved generalizing head with
  | nil =>
      constructor
      · intro chain
        cases chain with
        | stop _ last => exact ⟨.singleton _, head, rfl, mem_links_none.mp last⟩
      · rintro ⟨_, u, same, ends⟩
        cases same
        exact .stop head (mem_links_none.mpr ends)
  | cons next moved ih =>
      have behind : (head :: next :: moved).getLast? = (next :: moved).getLast? := by
        simp [List.getLast?_cons]
      rw [List.isChain_cons_cons, behind, and_assoc, ← ih next]
      constructor
      · intro chain
        cases chain with
        | move _ _ _ linked rest => exact ⟨(mem_links_some wired).mp linked, rest⟩
      · rintro ⟨feeds, rest⟩
        exact .move head next moved ((mem_links_some wired).mpr feeds) rest

theorem isDaisyChain_iff (us : List Text) :
    IsDaisyChain nets us ↔ ∃ head moved, firstLink nets = some head ∧ us = head :: moved ∧
      Chase.Chain (links nets) head moved := by
  obtain ⟨net, row, found, inside, din, first⟩ := firstLink_eq wired
  constructor
  · rintro ⟨⟨net', row', found', inside', din', start⟩, linked, last⟩
    obtain rfl : net = net' := Option.some.inj (found.symm.trans found')
    have one := wired.net_din net (List.mem_of_find?_eq_some found)
    have same := (firstDin_of_single one inside din).symm.trans
      (firstDin_of_single one inside' din')
    obtain ⟨moved, rfl⟩ : ∃ moved, us = row'.identifier :: moved := by
      cases us with
      | nil => cases start
      | cons u moved => exact ⟨moved, by rw [Option.some.inj start]⟩
    exact ⟨row'.identifier, moved, first.trans same, rfl,
      (chain_iff wired _ moved).mpr ⟨linked, last⟩⟩
  · rintro ⟨head, moved, first', rfl, chain⟩
    obtain rfl : row.identifier = head := Option.some.inj (first.symm.trans first')
    obtain ⟨linked, last⟩ := (chain_iff wired _ moved).mp chain
    exact ⟨⟨net, row, found, inside, din, rfl⟩, linked, last⟩

theorem exists_chain : ∃ head moved, firstLink nets = some head ∧
    Chase.Chain (links nets) head moved := by
  obtain ⟨net, row, found, inside, din, first⟩ := firstLink_eq wired
  have member := List.mem_of_find?_eq_some found
  have opens : Opens net := of_decide_eq_true (List.find?_some found :)
  have isSource {other : Row} (listed : other ∈ allRows nets) (din : Din other) :
      other.identifier ∈ (links nets).map Chase.Link.source :=
    (mem_sources _).mpr (wired.passes_on other listed din)
  have dins := targets_sublist wired nets (fun _ member => member)
  have closed : ∀ next ∈ (links nets).filterMap Chase.Link.target,
      next ∈ (links nets).map Chase.Link.source := by
    intro next target
    obtain ⟨other, listed, rfl⟩ := List.mem_map.mp (dins.subset target)
    obtain ⟨listed, din⟩ := List.mem_filter.mp listed
    exact isSource listed (of_decide_eq_true din)
  obtain ⟨moved, chain⟩ := Chase.exists_chain (links nets) row.identifier (sources_nodup wired)
    ((dins_nodup wired).sublist dins) closed
    (isSource (List.mem_flatMap.mpr ⟨net, member, inside⟩) din)
    (head_not_target wired member opens inside din)
  exact ⟨row.identifier, moved, first, chain⟩

end Chains

/-- On a wired board `getDeviceOrder` ends, and `ioData` is the one daisy chain of
the board with positions counted from one. -/
theorem getDeviceOrder_daisyChain (input : Input) (wired : Wired input.netlistData)
    (start : input.ioData = []) :
    ∃ us, IsDaisyChain input.netlistData us ∧
      (∀ other, IsDaisyChain input.netlistData other → other = us) ∧
      ∃ fuel, getDeviceOrder fuel input = some (.ok { input with ioData := chainData us }) := by
  obtain ⟨head, moved, first, chain⟩ := exists_chain wired
  refine ⟨head :: moved, (isDaisyChain_iff wired _).mpr ⟨head, moved, first, rfl, chain⟩, ?_, ?_⟩
  · intro other isChain
    obtain ⟨head', moved', first', rfl, chain'⟩ := (isDaisyChain_iff wired other).mp isChain
    obtain rfl : head = head' := Option.some.inj (first.symm.trans first')
    rw [Chase.chain_unique (sources_nodup wired) chain chain']
  · exact getDeviceOrder_of_walk input wired.parallel start first
      (Chase.walk_of_chain (sources_nodup wired) chain (List.Perm.refl _))

def twoExpanders : List NetlistData :=
  [.ofRows [⟨"SDO".toList, "U2".toList, doutPin, expanderDevice⟩],
    .ofRows [⟨"LINK".toList, "U2".toList, dinPin, expanderDevice⟩,
      ⟨"LINK".toList, "U1".toList, doutPin, expanderDevice⟩],
    .ofRows [⟨"SDI".toList, "J1".toList, "4".toList, "HEADER".toList⟩,
      ⟨"SDI".toList, "U1".toList, dinPin, expanderDevice⟩]]

theorem twoExpanders_wired : Wired twoExpanders where
  parallel := by decide
  din_once := (once_iff_nodup _ Din).mpr (by decide)
  dout_once := (once_iff_nodup _ Dout).mpr (by decide)
  net_din := by decide
  net_dout := by decide
  passes_on := by decide
  opened := by decide
  named := by decide

theorem getDeviceOrder_twoExpanders :
    ∃ us, IsDaisyChain twoExpanders us ∧
      (∀ other, IsDaisyChain twoExpanders other → other = us) ∧
      ∃ fuel, getDeviceOrder fuel { netlistData := twoExpanders } =
        some (.ok { netlistData := twoExpanders, ioData := chainData us }) :=
  getDeviceOrder_daisyChain { netlistData := twoExpanders } twoExpanders_wired rfl

end RelayDev.DaisyChain
