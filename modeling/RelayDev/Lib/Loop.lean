import Mathlib.Data.List.Basic

/-! Loops of an imperative program: `while` with fuel, and `for` over a list of
indices with `break`, both over a body that may fail. -/

namespace RelayDev.Loop

variable {ε σ τ : Type}

/-- `while (cond) body`, given up (`none`) when the fuel runs out. -/
def whileLoop (cond : σ → Bool) (body : σ → Except ε σ) : Nat → σ → Option (Except ε σ)
  | 0, _ => none
  | fuel + 1, s =>
      if cond s then
        match body s with
        | .error e => some (.error e)
        | .ok next => whileLoop cond body fuel next
      else some (.ok s)

/-- The loop entered in `s` ends, normally or by a failing body, with `out`. -/
def Leaves (cond : σ → Bool) (body : σ → Except ε σ) (s : σ) (out : Except ε σ) : Prop :=
  ∃ fuel, whileLoop cond body fuel s = some out

section Rules

variable {cond : σ → Bool} {body : σ → Except ε σ}

theorem whileLoop_mono (fuel more : Nat) (s : σ) (out : Except ε σ) (enough : fuel ≤ more)
    (left : whileLoop cond body fuel s = some out) :
    whileLoop cond body more s = some out := by
  induction fuel generalizing more s with
  | zero => cases left
  | succ fuel ih =>
      obtain ⟨rest, rfl⟩ : ∃ rest, more = rest + 1 := ⟨more - 1, by omega⟩
      have enoughRest : fuel ≤ rest := by omega
      by_cases running : cond s = true
      · cases stepped : body s with
        | error e => simpa [whileLoop, running, stepped] using left
        | ok next =>
            simp only [whileLoop, running, stepped, if_true] at left ⊢
            exact ih rest next enoughRest left
      · simpa [whileLoop, running] using left

theorem leaves_unique {s : σ} {first second : Except ε σ} (one : Leaves cond body s first)
    (two : Leaves cond body s second) : first = second := by
  obtain ⟨fuel, left⟩ := one
  obtain ⟨more, right⟩ := two
  have atLeft := whileLoop_mono fuel (max fuel more) s first (Nat.le_max_left _ _) left
  have atRight := whileLoop_mono more (max fuel more) s second (Nat.le_max_right _ _) right
  exact Option.some.inj (atLeft.symm.trans atRight)

theorem leaves_exit {s : σ} (stopped : cond s = false) : Leaves cond body s (.ok s) :=
  ⟨1, by simp [whileLoop, stopped]⟩

theorem leaves_error {s : σ} {e : ε} (running : cond s = true) (failed : body s = .error e) :
    Leaves cond body s (.error e) :=
  ⟨1, by simp [whileLoop, running, failed]⟩

theorem leaves_step {s next : σ} (running : cond s = true) (stepped : body s = .ok next)
    (out : Except ε σ) : Leaves cond body s out ↔ Leaves cond body next out := by
  constructor
  · rintro ⟨fuel, left⟩
    cases fuel with
    | zero => cases left
    | succ fuel => exact ⟨fuel, by simpa [whileLoop, running, stepped] using left⟩
  · rintro ⟨fuel, left⟩
    exact ⟨fuel + 1, by simpa [whileLoop, running, stepped] using left⟩

theorem leaves_induction {out : Except ε σ} {P : σ → Prop}
    (exit : ∀ s, cond s = false → out = .ok s → P s)
    (fail : ∀ s e, cond s = true → body s = .error e → out = .error e → P s)
    (turn : ∀ s next, cond s = true → body s = .ok next → P next → P s)
    {s : σ} (left : Leaves cond body s out) : P s := by
  obtain ⟨fuel, left⟩ := left
  induction fuel generalizing s with
  | zero => cases left
  | succ fuel ih =>
      by_cases running : cond s = true
      · cases stepped : body s with
        | error e =>
            simp only [whileLoop, running, stepped, if_true, Option.some.injEq] at left
            exact fail s e running stepped left.symm
        | ok next =>
            simp only [whileLoop, running, stepped, if_true] at left
            exact turn s next running stepped (ih left)
      · simp only [whileLoop, running, Bool.false_eq_true, if_false, Option.some.injEq] at left
        exact exit s (by simpa using running) left.symm

theorem leaves_stopped {s last : σ} (left : Leaves cond body s (.ok last)) : cond last = false := by
  refine leaves_induction (P := fun _ => cond last = false) ?_ ?_ ?_ left
  · intro s stopped same
    cases same
    exact stopped
  · intro s e _ _ same
    cases same
  · intro s next _ _ ih
    exact ih

theorem never_leaves (inv : σ → Prop)
    (turn : ∀ s, inv s → cond s = true ∧ ∃ next, body s = .ok next ∧ inv next)
    {s : σ} (start : inv s) (out : Except ε σ) : ¬ Leaves cond body s out := by
  intro left
  revert start
  refine leaves_induction (P := fun s => inv s → False) ?_ ?_ ?_ left
  · intro s stopped _ holds
    rw [(turn s holds).1] at stopped
    cases stopped
  · intro s e _ failed _ holds
    obtain ⟨_, next, stepped, _⟩ := turn s holds
    rw [failed] at stepped
    cases stepped
  · intro s next _ stepped ih holds
    obtain ⟨_, next', stepped', keeps⟩ := turn s holds
    rw [stepped] at stepped'
    cases stepped'
    exact ih keeps

theorem leaves_simulation {cond' : τ → Bool} {body' : τ → Except ε τ} (rel : σ → τ → Prop)
    (guard : ∀ s t, rel s t → cond s = cond' t)
    (turn : ∀ s t, rel s t → cond' t = true →
      (∃ next next', body s = .ok next ∧ body' t = .ok next' ∧ rel next next') ∨
        ∃ e, body s = .error e ∧ body' t = .error e)
    {s : σ} {t : τ} (start : rel s t) {out : Except ε τ} (left : Leaves cond' body' t out) :
    (∃ s' t', Leaves cond body s (.ok s') ∧ out = .ok t' ∧ rel s' t') ∨
      ∃ e, Leaves cond body s (.error e) ∧ out = .error e := by
  refine leaves_induction (P := fun t => ∀ s, rel s t →
    (∃ s' t', Leaves cond body s (.ok s') ∧ out = .ok t' ∧ rel s' t') ∨
      ∃ e, Leaves cond body s (.error e) ∧ out = .error e) ?_ ?_ ?_ left s start
  · intro t stopped ended s related
    exact .inl ⟨s, t, leaves_exit ((guard s t related).trans stopped), ended, related⟩
  · intro t e running failed ended s related
    rcases turn s t related running with ⟨next, next', _, stepped, _⟩ | ⟨e', failed', same⟩
    · rw [failed] at stepped
      cases stepped
    · rw [failed] at same
      cases same
      exact .inr ⟨e, leaves_error ((guard s t related).trans running) failed', ended⟩
  · intro t next running stepped ih s related
    rcases turn s t related running with ⟨mid, mid', steppedS, steppedT, keeps⟩ | ⟨e, _, failed⟩
    · rw [stepped] at steppedT
      cases steppedT
      have advance := leaves_step ((guard s t related).trans running) steppedS
      rcases ih mid keeps with ⟨s', t', left, ended, final⟩ | ⟨e, left, ended⟩
      · exact .inl ⟨s', t', (advance _).mpr left, ended, final⟩
      · exact .inr ⟨e, (advance _).mpr left, ended⟩
    · rw [stepped] at failed
      cases failed

end Rules

theorem forIn_range {α : Type} (xs : List α) (f : Nat → σ → Except ε (ForInStep σ))
    (g : α → σ → Except ε (ForInStep σ)) (reads : ∀ i x, xs[i]? = some x → f i = g x) (s : σ) :
    forIn (List.range xs.length) s f = forIn xs s g := by
  induction xs generalizing f s with
  | nil => rfl
  | cons x xs ih =>
      have tail : ∀ s, forIn (List.range xs.length) s (fun i => f (i + 1)) = forIn xs s g :=
        ih (fun i => f (i + 1)) (fun i y found => reads (i + 1) y (by simpa using found))
      rw [List.length_cons, List.range_succ_eq_map, List.forIn_cons, List.forIn_cons,
        reads 0 x (by simp)]
      simp only [List.forIn_map, tail]

theorem forIn_find {α : Type} (xs : List α) (hit : α → Bool) (found : α → σ) (s : σ)
    (body : α → σ → Except ε (ForInStep σ))
    (turn : ∀ x ∈ xs, body x s = .ok (if hit x then .done (found x) else .yield s)) :
    forIn xs s body = .ok (((xs.find? hit).map found).getD s) := by
  induction xs with
  | nil => rfl
  | cons x xs ih =>
      have rest := ih (fun y member => turn y (List.mem_cons_of_mem _ member))
      rw [List.forIn_cons, List.find?_cons, turn x (by simp)]
      cases hit x with
      | true => rfl
      | false => exact rest

/-- A loop that ends at the first element that decides, and otherwise leaves what every turn
leaves. -/
theorem forIn_decide {α : Type} (xs : List α) (decides : α → Option σ) (left : σ)
    (body : α → σ → Except ε (ForInStep σ))
    (turn : ∀ x ∈ xs, ∀ s, body x s = .ok ((decides x).elim (.yield left) .done)) (s : σ) :
    forIn xs s body = .ok ((xs.findSome? decides).getD (if xs = [] then s else left)) := by
  have from_left (xs : List α)
      (turn : ∀ x ∈ xs, ∀ s, body x s = .ok ((decides x).elim (.yield left) .done)) :
      forIn xs left body = .ok ((xs.findSome? decides).getD left) := by
    induction xs with
    | nil => rfl
    | cons x xs ih =>
        rw [List.forIn_cons, List.findSome?_cons, turn x (by simp)]
        cases decides x with
        | some v => rfl
        | none => exact ih fun y member => turn y (List.mem_cons_of_mem _ member)
  cases xs with
  | nil => rfl
  | cons x xs =>
      rw [List.forIn_cons, List.findSome?_cons, turn x (by simp), if_neg (by simp)]
      cases decides x with
      | some v => rfl
      | none => exact from_left xs fun y member => turn y (List.mem_cons_of_mem _ member)

theorem forIn_mark {α : Type} (xs : List α) (hit : α → Bool) (mark : σ)
    (body : α → σ → Except ε (ForInStep σ))
    (turn : ∀ x ∈ xs, ∀ s, body x s = .ok (.yield (if hit x then mark else s))) (s : σ) :
    forIn xs s body = .ok (if xs.any hit then mark else s) := by
  induction xs generalizing s with
  | nil => rfl
  | cons x xs ih =>
      rw [List.forIn_cons, turn x (by simp), List.any_cons]
      have rest := ih (fun y member => turn y (List.mem_cons_of_mem _ member))
        (if hit x then mark else s)
      change forIn xs (if hit x then mark else s) body = _
      rw [rest]
      cases hit x <;> cases xs.any hit <;> rfl

/-- A search that gives the default if it finds nothing finds the first value, unless that is
the default and another value is behind it. -/
theorem find_default_iff [DecidableEq σ] (xs : List σ) (default : σ) :
    (xs.find? (· ≠ default)).getD default = xs.head?.getD default ↔
      (xs.head? = some default → ∀ x ∈ xs, x = default) := by
  cases xs with
  | nil => simp
  | cons x xs =>
      rw [List.head?_cons, Option.getD_some]
      by_cases same : x = default
      · subst same
        rw [List.find?_cons_of_neg (by simp)]
        cases found : xs.find? (· ≠ x) with
        | none =>
            have rest : ∀ y ∈ xs, y = x := by simpa using List.find?_eq_none.mp found
            exact iff_of_true rfl fun _ => List.forall_mem_cons.mpr ⟨rfl, rest⟩
        | some y =>
            have other : y ≠ x := by simpa using List.find?_some found
            have member := List.mem_of_find?_eq_some found
            exact iff_of_false other fun all => other (all rfl y (List.mem_cons_of_mem _ member))
      · rw [List.find?_cons_of_pos (by simpa using same)]
        exact iff_of_true rfl fun first => absurd (Option.some.inj first) same

theorem forIn_ok {α : Type} (xs : List α) (body : α → σ → Except ε (ForInStep σ))
    (turn : ∀ x ∈ xs, ∀ s, ∃ r, body x s = .ok r) (s : σ) :
    ∃ last, forIn xs s body = .ok last := by
  induction xs generalizing s with
  | nil => exact ⟨s, rfl⟩
  | cons x xs ih =>
      have rest := ih (fun y member => turn y (List.mem_cons_of_mem _ member))
      obtain ⟨r, stepped⟩ := turn x (by simp) s
      rw [List.forIn_cons, stepped]
      cases r with
      | done last => exact ⟨last, rfl⟩
      | yield next => exact rest next

theorem forIn_invariant {α : Type} (inv : σ → Prop) (xs : List α)
    (body : α → σ → Except ε (ForInStep σ))
    (turn : ∀ x s next, inv s → body x s = .ok (.yield next) ∨ body x s = .ok (.done next) →
      inv next) {s last : σ} (start : inv s) (looped : forIn xs s body = .ok last) :
    inv last := by
  induction xs generalizing s with
  | nil =>
      cases looped
      exact start
  | cons x xs ih =>
      rw [List.forIn_cons] at looped
      cases stepped : body x s with
      | error e =>
          rw [stepped] at looped
          cases looped
      | ok r =>
          rw [stepped] at looped
          cases r with
          | done next =>
              cases looped
              exact turn x s _ start (.inr stepped)
          | yield next => exact ih (turn x s next start (.inl stepped)) looped

theorem forIn_keeps {α : Type} (inv : σ → Prop) (xs : List α)
    (body : α → σ → Except ε (ForInStep σ))
    (turn : ∀ x s step, inv s → body x s = .ok step → inv step.value) {s last : σ} (start : inv s)
    (looped : forIn xs s body = .ok last) : inv last := by
  refine forIn_invariant inv xs body ?_ start looped
  rintro x s next holds (yielded | finished)
  · exact turn x s _ holds yielded
  · exact turn x s _ holds finished

/-- A loop in a loop that both break when `stop` holds is one loop over what the inner ones
range over. -/
theorem forIn_flatMap {α β : Type} (xs : List α) (inner : α → List β)
    (body : β → σ → Except ε (ForInStep σ)) (stop : σ → Bool)
    (breaks : ∀ y s next, body y s = .ok (.done next) → stop next = true)
    (continues : ∀ y s next, stop s = false → body y s = .ok (.yield next) → stop next = false)
    {s : σ} (running : stop s = false) (outer : α → σ → Except ε (ForInStep σ))
    (turn : ∀ x ∈ xs, ∀ s, outer x s = forIn (inner x) s body >>= fun next =>
      .ok (if stop next then .done next else .yield next)) :
    forIn xs s outer = forIn (xs.flatMap inner) s body := by
  induction xs generalizing s with
  | nil => rfl
  | cons x xs ih =>
      have rest {s : σ} (running : stop s = false) :=
        ih running (fun y member => turn y (List.mem_cons_of_mem _ member))
      rw [List.forIn_cons, turn x (by simp), List.flatMap_cons]
      -- on the rows of one inner loop, at whose end the outer one goes on or breaks
      generalize inner x = ys
      induction ys generalizing s with
      | nil =>
          rw [List.nil_append, ← rest running]
          change ((.ok (if stop s then .done s else .yield s) : Except ε (ForInStep σ)) >>= _) = _
          rw [running]
          rfl
      | cons y ys ih =>
          rw [List.cons_append, List.forIn_cons, List.forIn_cons]
          cases stepped : body y s with
          | error e => rfl
          | ok r =>
              cases r with
              | done next =>
                  have stopped := breaks y s next stepped
                  change ((.ok (if stop next then .done next else .yield next) :
                    Except ε (ForInStep σ)) >>= _) = _
                  rw [stopped]
                  rfl
              | yield next => exact ih (continues y s next running stepped)

theorem anyM_append {α : Type} (xs ys : List α) (test : α → Except ε Bool) :
    (xs ++ ys).anyM test = xs.anyM test >>= fun hit => if hit then .ok true else ys.anyM test := by
  induction xs with
  | nil => rfl
  | cons x xs ih =>
      rw [List.cons_append, List.anyM_cons, List.anyM_cons, ih]
      cases test x with
      | error e => rfl
      | ok hit => cases hit <;> rfl

theorem anyM_eq_error {α : Type} {xs : List α} {test : α → Except ε Bool} {e : ε}
    (failed : xs.anyM test = .error e) : ∃ x ∈ xs, test x = .error e := by
  induction xs with
  | nil => cases failed
  | cons x xs ih =>
      rw [List.anyM_cons] at failed
      cases here : test x with
      | error other =>
          rw [here] at failed
          cases failed
          exact ⟨x, by simp, here⟩
      | ok hit =>
          rw [here] at failed
          cases hit with
          | true => cases failed
          | false =>
              obtain ⟨y, member, there⟩ := ih failed
              exact ⟨y, List.mem_cons_of_mem _ member, there⟩

theorem hit_first_cons {α : Type} {hit passed : α → Prop} (x : α) (xs : List α) :
    (∃ before y after, x :: xs = before ++ y :: after ∧ hit y ∧ ∀ z ∈ before, ¬ passed z) ↔
      hit x ∨ ¬ passed x ∧
        ∃ before y after, xs = before ++ y :: after ∧ hit y ∧ ∀ z ∈ before, ¬ passed z := by
  constructor
  · rintro ⟨before, y, after, split, here, clear⟩
    cases before with
    | nil =>
        cases split
        exact .inl here
    | cons head before =>
        cases split
        exact .inr ⟨clear _ (by simp), before, y, after, rfl, here,
          fun z member => clear z (List.mem_cons_of_mem _ member)⟩
  · rintro (here | ⟨other, before, y, after, rfl, here, clear⟩)
    · exact ⟨[], x, xs, rfl, here, by simp⟩
    · exact ⟨x :: before, y, after, rfl, here, List.forall_mem_cons.mpr ⟨other, clear⟩⟩

theorem not_hit_first_nil {α : Type} {hit passed : α → Prop} :
    ¬ ∃ before y after, ([] : List α) = before ++ y :: after ∧ hit y ∧
      ∀ z ∈ before, ¬ passed z := by
  rintro ⟨before, y, after, split, _⟩
  simp at split

theorem forIn_search {α : Type} (xs : List α) (test : α → Except ε Bool)
    (body : α → σ → Except ε (ForInStep σ)) (s found : σ)
    (turn : ∀ x ∈ xs, body x s = (test x).map fun hit => if hit then .done found else .yield s) :
    forIn xs s body = (xs.anyM test).map fun hit => if hit then found else s := by
  induction xs with
  | nil => rfl
  | cons x xs ih =>
      have rest := ih (fun y member => turn y (List.mem_cons_of_mem _ member))
      rw [List.forIn_cons, List.anyM_cons, turn x (by simp)]
      cases test x with
      | error e => rfl
      | ok hit =>
          cases hit with
          | true => rfl
          | false => exact rest

def stepMap (g : σ → τ) : ForInStep σ → ForInStep τ
  | .done s => .done (g s)
  | .yield s => .yield (g s)

theorem forIn_image {α : Type} (g : σ → τ) (xs : List α) {body : α → σ → Except ε (ForInStep σ)}
    {body' : α → τ → Except ε (ForInStep τ)}
    (turn : ∀ x s, body' x (g s) = (body x s).map (stepMap g)) (s : σ) :
    forIn xs (g s) body' = (forIn xs s body).map g := by
  induction xs generalizing s with
  | nil => rfl
  | cons x xs ih =>
      rw [List.forIn_cons, List.forIn_cons, turn]
      cases body x s with
      | error e => rfl
      | ok step =>
          cases step with
          | done last => rfl
          | yield next => exact ih next

theorem whileLoop_image (g : σ → τ) {cond : σ → Bool} {body : σ → Except ε σ}
    {cond' : τ → Bool} {body' : τ → Except ε τ} (guard : ∀ s, cond' (g s) = cond s)
    (turn : ∀ s, body' (g s) = (body s).map g) (fuel : Nat) (s : σ) :
    whileLoop cond' body' fuel (g s) = (whileLoop cond body fuel s).map (·.map g) := by
  induction fuel generalizing s with
  | zero => rfl
  | succ fuel ih =>
      rw [whileLoop, whileLoop, guard, turn]
      by_cases running : cond s = true
      · rw [if_pos running, if_pos running]
        cases body s with
        | error e => rfl
        | ok next => exact ih next
      · rw [if_neg running, if_neg running]
        rfl

end RelayDev.Loop
