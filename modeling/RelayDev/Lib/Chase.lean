import RelayDev.Lib.Loop
import Mathlib.Data.List.Nodup
import Mathlib.Data.List.Perm.Basic

/-! Following links through repeated passes over a list.

A pass reads the links in order and moves on at every link that leaves the
current node, so it may move several times, or not at all, before the list is
read again from its start. -/

namespace RelayDev.Chase

open Loop

/-- A link leaves `source` and leads to `target`, or ends the chain (`none`). -/
structure Link (α : Type) where
  source : α
  target : Option α
  deriving DecidableEq, Repr

structure State (α : Type) where
  path : List α
  current : α
  ended : Bool

variable {α : Type} [DecidableEq α]

def pass : List (Link α) → α → List α × Bool
  | [], _ => ([], false)
  | link :: links, current =>
      if link.source = current then
        match link.target with
        | none => ([], true)
        | some next => (next :: (pass links next).1, (pass links next).2)
      else pass links current

def State.advance (s : State α) (moved : List α × Bool) : State α :=
  ⟨s.path ++ moved.1, moved.1.getLastD s.current, moved.2⟩

def turn {ε : Type} (links : List (Link α)) (s : State α) : Except ε (State α) :=
  .ok (s.advance (pass links s.current))

def running (s : State α) : Bool := !s.ended

/-- The walk over the links in cyclic order: skip the links that leave other
nodes, move along the first one that leaves `current`, and go on with the links
behind it, the skipped ones coming round last. -/
inductive Walk : List (Link α) → α → List α → Prop
  | stop (before after : List (Link α)) (current : α)
      (skipped : ∀ link ∈ before, link.source ≠ current) :
      Walk (before ++ ⟨current, none⟩ :: after) current []
  | move (before after : List (Link α)) (current next : α) (path : List α)
      (skipped : ∀ link ∈ before, link.source ≠ current)
      (rest : Walk (after ++ before ++ [⟨current, some next⟩]) next path) :
      Walk (before ++ ⟨current, some next⟩ :: after) current (next :: path)

theorem pass_append (links more : List (Link α)) (current : α) :
    pass (links ++ more) current =
      if (pass links current).2 then pass links current
      else
        let next := pass more ((pass links current).1.getLastD current)
        ((pass links current).1 ++ next.1, next.2) := by
  induction links generalizing current with
  | nil => simp [pass]
  | cons link links ih =>
      by_cases here : link.source = current
      · cases target : link.target with
        | none => simp [pass, here, target]
        | some next =>
            simp only [List.cons_append, pass, here, target, if_true, ih]
            split
            · rfl
            · rw [List.getLastD_cons]
      · simpa only [List.cons_append, pass, here, if_false] using ih current

section Passes

variable {ε : Type}

variable (ε) in
/-- What is left to do in the middle of a pass, with `rest` still unread, gives `out`. -/
def Finishes (links rest : List (Link α)) (path : List α) (current : α) (out : List α) : Prop :=
  ∃ last, Leaves running (turn (ε := ε) links)
    (State.advance ⟨path, current, false⟩ (pass rest current)) (.ok last) ∧ last.path = out

theorem finishes_wrap (links : List (Link α)) (path : List α) (current : α) (out : List α) :
    Finishes ε links [] path current out ↔ Finishes ε links links path current out := by
  have again : State.advance ⟨path, current, false⟩ (pass [] current) = ⟨path, current, false⟩ := by
    simp [State.advance, pass]
  unfold Finishes
  rw [again]
  refine exists_congr fun last => and_congr_left fun _ => ?_
  exact @leaves_step _ _ running (turn links) _ _ rfl rfl _

theorem finishes_skip (links before rest : List (Link α)) (path : List α) (current : α)
    (out : List α) (skipped : ∀ link ∈ before, link.source ≠ current) :
    Finishes ε links (before ++ rest) path current out ↔ Finishes ε links rest path current out := by
  have same : pass (before ++ rest) current = pass rest current := by
    induction before with
    | nil => rfl
    | cons link before ih =>
        rw [List.cons_append, pass, if_neg (skipped link (by simp))]
        exact ih (fun next member => skipped next (List.mem_cons_of_mem _ member))
  rw [Finishes, Finishes, same]

theorem finishes_stop (links rest : List (Link α)) (path : List α) (current : α) (out : List α) :
    Finishes ε links (⟨current, none⟩ :: rest) path current out ↔ path = out := by
  have ended : State.advance ⟨path, current, false⟩ (pass (⟨current, none⟩ :: rest) current) =
      ⟨path, current, true⟩ := by
    simp [State.advance, pass]
  unfold Finishes
  rw [ended]
  have exits : Leaves running (turn (ε := ε) links) ⟨path, current, true⟩
      (.ok ⟨path, current, true⟩) := leaves_exit rfl
  constructor
  · rintro ⟨last, left, rfl⟩
    exact congrArg State.path (Except.ok.inj (leaves_unique exits left))
  · intro same
    exact ⟨_, exits, same⟩

theorem advance_move (rest : List (Link α)) (path : List α) (current next : α) :
    State.advance ⟨path, current, false⟩ (pass (⟨current, some next⟩ :: rest) current) =
      State.advance ⟨path ++ [next], next, false⟩ (pass rest next) := by
  simp only [State.advance, pass, if_true, List.append_assoc, List.singleton_append]
  congr 1
  cases (pass rest next).1 <;> rfl

theorem finishes_move (links rest : List (Link α)) (path : List α) (current next : α)
    (out : List α) :
    Finishes ε links (⟨current, some next⟩ :: rest) path current out ↔
      Finishes ε links rest (path ++ [next]) next out := by
  rw [Finishes, Finishes, advance_move]

theorem finishes_reach (links read rest skipped after : List (Link α)) (link : Link α)
    (path : List α) (current : α) (out : List α) (whole : links = read ++ rest)
    (cycle : rest ++ read = skipped ++ link :: after)
    (others : ∀ next ∈ skipped, next.source ≠ current) :
    ∃ read' rest', links = read' ++ link :: rest' ∧ rest' ++ read' = after ++ skipped ∧
      (Finishes ε links rest path current out ↔
        Finishes ε links (link :: rest') path current out) := by
  rcases List.append_eq_append_iff.mp cycle with ⟨tail, skips, rests⟩ | ⟨tail, rests, tails⟩
  · -- the link was read already: the pass ends and the next one comes to it
    refine ⟨tail, after ++ rest, by simp [whole, rests], by simp [skips], ?_⟩
    have before : ∀ next ∈ rest, next.source ≠ current :=
      fun next member => others next (by simp [skips, member])
    have behind : ∀ next ∈ tail, next.source ≠ current :=
      fun next member => others next (by simp [skips, member])
    have toEnd := finishes_skip (ε := ε) links rest [] path current out before
    have fromStart := finishes_skip (ε := ε) links tail (link :: (after ++ rest)) path current out behind
    rw [List.append_nil] at toEnd
    rw [toEnd, finishes_wrap, ← fromStart]
    simp [whole, rests]
  · cases tail with
    | nil =>
        -- the link is the first one read: again the pass ends before it
        simp only [List.append_nil, List.nil_append] at rests tails
        subst rests
        refine ⟨[], after ++ rest, by simp [whole, ← tails], by simp, ?_⟩
        have toEnd := finishes_skip (ε := ε) links rest [] path current out others
        rw [List.append_nil] at toEnd
        rw [toEnd, finishes_wrap]
        simp [whole, ← tails]
    | cons head tail =>
        obtain ⟨rfl, rfl⟩ : link = head ∧ after = tail ++ read := by
          simpa using tails
        refine ⟨read ++ skipped, tail, by simp [whole, rests], by simp, ?_⟩
        rw [rests]
        exact finishes_skip (ε := ε) links skipped _ path current out others

theorem finishes_of_walk {cycle : List (Link α)} {current : α} {moved : List α}
    (walk : Walk cycle current moved) (links read rest : List (Link α)) (path : List α)
    (whole : links = read ++ rest) (turned : rest ++ read = cycle) :
    Finishes ε links rest path current (path ++ moved) := by
  induction walk generalizing read rest path with
  | stop before after current skipped =>
      obtain ⟨read', rest', _, _, reach⟩ := finishes_reach links read rest before after
        ⟨current, none⟩ path current (path ++ []) whole turned skipped
      rw [reach, finishes_stop, List.append_nil]
  | move before after current next moved skipped _ ih =>
      obtain ⟨read', rest', whole', turned', reach⟩ := finishes_reach links read rest before after
        ⟨current, some next⟩ path current (path ++ next :: moved) whole turned skipped
      rw [reach, finishes_move]
      have further := ih (read' ++ [⟨current, some next⟩]) rest' (path ++ [next])
        (by simp [whole']) (by rw [← List.append_assoc, turned'])
      simpa using further

omit [DecidableEq α] in
private theorem split_before_last {links before after : List (Link α)} {link hit : Link α}
    (turned : links ++ [link] = before ++ hit :: after) (other : link ≠ hit) :
    ∃ rest, after = rest ++ [link] ∧ links = before ++ hit :: rest := by
  rcases List.eq_nil_or_concat after with rfl | ⟨rest, last, rfl⟩
  · exact absurd (List.singleton_inj.mp (List.append_inj_right' turned rfl)) other
  · have split : links ++ [link] = (before ++ hit :: rest) ++ [last] := by simpa using turned
    obtain rfl : link = last := List.singleton_inj.mp (List.append_inj_right' split rfl)
    exact ⟨rest, by simp, List.append_inj_left' split rfl⟩

omit [DecidableEq α] in
theorem walk_rotate (link : Link α) (links : List (Link α)) (current : α) (moved : List α)
    (other : link.source ≠ current) (walk : Walk (links ++ [link]) current moved) :
    Walk (link :: links) current moved := by
  generalize turned : links ++ [link] = cycle at walk
  cases walk with
  | stop before after _ skipped =>
      obtain ⟨rest, rfl, rfl⟩ := split_before_last turned (by rintro rfl; exact other rfl)
      exact Walk.stop (link :: before) rest current (List.forall_mem_cons.mpr ⟨other, skipped⟩)
  | move before after _ next moved skipped further =>
      obtain ⟨rest, rfl, rfl⟩ := split_before_last turned (by rintro rfl; exact other rfl)
      refine Walk.move (link :: before) rest current next moved
        (List.forall_mem_cons.mpr ⟨other, skipped⟩) ?_
      simpa using further

theorem walk_of_pass (links : List (Link α)) (out : List α) (rest read : List (Link α))
    (path : List α) (current : α) (whole : links = read ++ rest)
    (ends : ∀ s, s = State.advance ⟨path, current, false⟩ (pass rest current) →
      s.ended = true ∧ s.path = out ∨
        s.ended = false ∧ ∃ moved, Walk links s.current moved ∧ out = s.path ++ moved) :
    ∃ moved, Walk (rest ++ read) current moved ∧ out = path ++ moved := by
  induction rest generalizing read path current with
  | nil =>
      rcases ends _ rfl with ⟨ended, _⟩ | ⟨_, moved, walk, rfl⟩
      · simp [State.advance, pass] at ended
      · refine ⟨moved, ?_, by simp [State.advance, pass]⟩
        simpa [State.advance, pass, whole] using walk
  | cons link rest ih =>
      have whole' : links = (read ++ [link]) ++ rest := by simp [whole]
      obtain ⟨source, target⟩ := link
      by_cases here : source = current
      · subst here
        cases target with
        | none =>
            refine ⟨[], Walk.stop [] (rest ++ read) source (by simp), ?_⟩
            rcases ends _ rfl with ⟨_, same⟩ | ⟨unended, _⟩
            · simpa [State.advance, pass] using same.symm
            · simp [State.advance, pass] at unended
        | some next =>
            obtain ⟨moved, walk, rfl⟩ := ih (read ++ [⟨source, some next⟩]) (path ++ [next]) next
              whole' (by intro s eq; exact ends s (by rw [eq, advance_move]))
            refine ⟨next :: moved, ?_, by simp⟩
            exact Walk.move [] (rest ++ read) source next moved (by simp) (by simpa using walk)
      · have same : pass (⟨source, target⟩ :: rest) current = pass rest current := by
          rw [pass, if_neg here]
        obtain ⟨moved, walk, rfl⟩ := ih (read ++ [⟨source, target⟩]) path current whole'
          (by intro s eq; exact ends s (by rw [eq, same]))
        refine ⟨moved, ?_, rfl⟩
        exact walk_rotate ⟨source, target⟩ (rest ++ read) current moved here (by simpa using walk)

theorem turn_never_fails (links : List (Link α)) (s : State α) (e : ε) :
    ¬ Leaves running (turn (ε := ε) links) s (.error e) := by
  intro left
  refine leaves_induction (P := fun _ => False) ?_ ?_ ?_ left
  · intro s _ same
    cases same
  · intro s e _ failed _
    cases failed
  · intro s next _ _ ih
    exact ih

/-- The passes end exactly when the walk does, having moved along it. -/
theorem leaves_iff_walk (links : List (Link α)) (path : List α) (current : α) (out : List α) :
    (∃ last, Leaves running (turn (ε := ε) links) ⟨path, current, false⟩ (.ok last) ∧
      last.path = out) ↔ ∃ moved, Walk links current moved ∧ out = path ++ moved := by
  constructor
  · rintro ⟨last, left, rfl⟩
    have fromTurn := leaves_induction (P := fun s => s.ended = true ∧ s.path = last.path ∨
      s.ended = false ∧ ∃ moved, Walk links s.current moved ∧ last.path = s.path ++ moved)
      ?_ ?_ ?_ left
    · simpa using fromTurn
    · intro s stopped same
      have ended : s.ended = true := by simpa [running] using stopped
      exact .inl ⟨ended, congrArg State.path (Except.ok.inj same).symm⟩
    · intro s e _ failed _
      cases failed
    · intro s next going stepped ih
      have unended : s.ended = false := by simpa [running] using going
      refine .inr ⟨unended, ?_⟩
      obtain ⟨path, current, ended⟩ := s
      obtain rfl := Except.ok.inj stepped
      simpa using walk_of_pass links last.path links [] path current rfl
        (by rintro s rfl; subst unended; exact ih)
  · rintro ⟨moved, walk, rfl⟩
    obtain ⟨last, left, same⟩ := (finishes_wrap (ε := ε) links path current _).mpr
      (finishes_of_walk walk links [] links path rfl (by simp))
    exact ⟨last, by simpa [State.advance, pass] using left, same⟩

theorem walk_unique {links : List (Link α)} {current : α} {first second : List α}
    (one : Walk links current first) (two : Walk links current second) : first = second := by
  obtain ⟨last, left, same⟩ :=
    (leaves_iff_walk (ε := Empty) links [] current first).mpr ⟨first, one, rfl⟩
  obtain ⟨last', left', same'⟩ :=
    (leaves_iff_walk (ε := Empty) links [] current second).mpr ⟨second, two, rfl⟩
  obtain rfl : last = last' := Except.ok.inj (leaves_unique left left')
  exact same.symm.trans same'

end Passes

inductive Chain (links : List (Link α)) : α → List α → Prop
  | stop (current : α) (last : ⟨current, none⟩ ∈ links) : Chain links current []
  | move (current next : α) (path : List α) (linked : ⟨current, some next⟩ ∈ links)
      (rest : Chain links next path) : Chain links current (next :: path)

section Chains

omit [DecidableEq α]

variable {links : List (Link α)} (sources : (links.map Link.source).Nodup)

include sources in
theorem target_unique {current : α} {first second : Option α} (one : ⟨current, first⟩ ∈ links)
    (two : ⟨current, second⟩ ∈ links) : first = second := by
  have same := List.inj_on_of_nodup_map sources one two rfl
  exact congrArg Link.target same

include sources in
theorem chain_unique {current : α} {first second : List α} (one : Chain links current first)
    (two : Chain links current second) : first = second := by
  induction one generalizing second with
  | stop current last =>
      cases two with
      | stop => rfl
      | move _ next _ linked => cases target_unique sources last linked
  | move current next path linked _ ih =>
      cases two with
      | stop _ last => cases target_unique sources last linked
      | move _ next' _ linked' rest =>
          cases target_unique sources linked linked'
          rw [ih rest]

theorem Chain.mono {more : List (Link α)} {current : α} {path : List α}
    (included : ∀ link ∈ links, link ∈ more) (chain : Chain links current path) :
    Chain more current path := by
  induction chain with
  | stop current last => exact .stop current (included _ last)
  | move current next path linked _ ih => exact .move current next path (included _ linked) ih

private theorem other_sources {before after : List (Link α)} {link : Link α}
    (sources : ((before ++ link :: after).map Link.source).Nodup) :
    ∀ next ∈ before ++ after, next.source ≠ link.source := by
  intro next member same
  rw [List.map_append, List.map_cons, List.nodup_middle, List.nodup_cons] at sources
  apply sources.1
  rw [← List.map_append, ← same]
  exact List.mem_map_of_mem member

include sources in
/-- Where each node has one link, the walk in any cyclic order is the chain. -/
theorem walk_of_chain {current : α} {moved : List α} (chain : Chain links current moved)
    {cycle : List (Link α)} (same : cycle.Perm links) : Walk cycle current moved := by
  induction chain generalizing cycle with
  | stop current last =>
      obtain ⟨before, after, rfl⟩ := List.append_of_mem (same.mem_iff.mpr last)
      have others := other_sources ((same.map Link.source).nodup_iff.mpr sources)
      exact .stop before after current
        (fun next member => others next (List.mem_append_left _ member))
  | move current next path linked _ ih =>
      obtain ⟨before, after, rfl⟩ := List.append_of_mem (same.mem_iff.mpr linked)
      have others := other_sources ((same.map Link.source).nodup_iff.mpr sources)
      refine .move before after current next path
        (fun next member => others next (List.mem_append_left _ member)) (ih ?_)
      have turned (link : Link α) :
          (after ++ before ++ [link]).Perm (before ++ link :: after) :=
        (List.perm_append_singleton link _).trans
          ((List.perm_append_comm.cons link).trans List.perm_middle.symm)
      exact (turned _).trans same

/-- Where no two links share a source or a target and every target has a link,
the chain from a node that is nobody's target ends: no node comes up twice. -/
theorem exists_chain (links : List (Link α)) (current : α)
    (sources : (links.map Link.source).Nodup) (targets : (links.filterMap Link.target).Nodup)
    (closed : ∀ next ∈ links.filterMap Link.target, next ∈ links.map Link.source)
    (linked : current ∈ links.map Link.source)
    (first : current ∉ links.filterMap Link.target) : ∃ path, Chain links current path := by
  generalize size : links.length = count
  -- on the number of links left: the link just used is taken away
  induction count generalizing links current with
  | zero =>
      have none : links = [] := List.length_eq_zero_iff.mp size
      simp [none] at linked
  | succ count ih =>
      obtain ⟨⟨source, target⟩, member, rfl⟩ := List.mem_map.mp linked
      cases target with
      | none => exact ⟨[], .stop source member⟩
      | some next =>
          obtain ⟨before, after, rfl⟩ := List.append_of_mem member
          have hit : next ∈ (before ++ ⟨source, some next⟩ :: after).filterMap Link.target := by
            simp
          have kept : ∀ node ∈ (before ++ ⟨source, some next⟩ :: after).filterMap Link.target,
              node ∈ (before ++ after).map Link.source := by
            intro node isTarget
            have isSource := closed node isTarget
            have differs : node ≠ source := by
              rintro rfl
              exact first isTarget
            simpa [differs] using isSource
          have shorter : (before ++ after).Sublist (before ++ ⟨source, some next⟩ :: after) :=
            (List.Sublist.refl before).append (List.sublist_cons_self _ _)
          have once : next ∉ (before ++ after).filterMap Link.target := by
            simp only [List.filterMap_append, List.filterMap_cons] at targets ⊢
            rw [List.nodup_middle, List.nodup_cons] at targets
            exact targets.1
          obtain ⟨path, chain⟩ := ih (before ++ after) next
            (sources.sublist (shorter.map _)) (targets.sublist (shorter.filterMap _))
            (fun node isTarget => kept node ((shorter.filterMap _).subset isTarget))
            (kept next hit) once (by simp at size ⊢; omega)
          exact ⟨next :: path, .move source next path member (chain.mono shorter.subset)⟩

end Chains

end RelayDev.Chase
