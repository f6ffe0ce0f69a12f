import Mathlib.Data.List.SplitBy

/-! Maximal runs of consecutive elements that a test keeps together. -/

namespace RelayDev.Runs

variable {α β : Type}

private theorem loop_map (r : β → β → Bool) (q : α → α → Bool) (f : α → β) (xs : List α) (a : α)
    (run : List α) (runs : List (List α))
    (agree : ∀ x ∈ a :: xs, ∀ y ∈ a :: xs, r (f x) (f y) = q x y) :
    List.splitBy.loop r (xs.map f) (f a) (run.map f) (runs.map (List.map f)) =
      (List.splitBy.loop q xs a run runs).map (List.map f) := by
  induction xs generalizing a run runs with
  | nil => simp [List.splitBy.loop]
  | cons x xs ih =>
      have here : r (f a) (f x) = q a x := agree a (by simp) x (by simp)
      have rest : ∀ y ∈ x :: xs, ∀ z ∈ x :: xs, r (f y) (f z) = q y z := fun y hy z hz =>
        agree y (List.mem_cons_of_mem _ hy) z (List.mem_cons_of_mem _ hz)
      simp only [List.map_cons, List.splitBy.loop, here]
      cases q a x with
      | true => simpa using ih x (a :: run) runs rest
      | false => simpa using ih x [] ((a :: run).reverse :: runs) rest

theorem splitBy_map (r : β → β → Bool) (q : α → α → Bool) (f : α → β) (xs : List α)
    (agree : ∀ x ∈ xs, ∀ y ∈ xs, r (f x) (f y) = q x y) :
    (xs.map f).splitBy r = (xs.splitBy q).map (List.map f) := by
  cases xs with
  | nil => rfl
  | cons x xs => exact loop_map r q f xs x [] [] agree

theorem loop_runs (q : α → α → Bool) (xs : List α) (a : α) (run : List α) (runs : List (List α)) :
    List.splitBy.loop q xs a run runs = runs.reverse ++ List.splitBy.loop q xs a run [] := by
  induction xs generalizing a run runs with
  | nil => simp [List.splitBy.loop]
  | cons x xs ih =>
      rw [List.splitBy.loop, List.splitBy.loop]
      cases q a x with
      | true => exact ih x (a :: run) runs
      | false =>
          simp only
          rw [ih x [] ((a :: run).reverse :: runs), ih x [] [(a :: run).reverse]]
          simp

theorem loop_first (q : α → α → Bool) (xs : List α) (a : α) (run : List α) :
    ∃ more rest, List.splitBy.loop q xs a run [] = ((a :: run).reverse ++ more) :: rest := by
  induction xs generalizing a run with
  | nil => exact ⟨[], [], by simp [List.splitBy.loop]⟩
  | cons x xs ih =>
      rw [List.splitBy.loop]
      cases q a x with
      | true =>
          obtain ⟨more, rest, same⟩ := ih x (a :: run)
          exact ⟨x :: more, rest, by simp [same]⟩
      | false =>
          refine ⟨[], List.splitBy.loop q xs x [] [], ?_⟩
          simp only
          rw [loop_runs]
          simp

theorem loop_length (q : α → α → Bool) (xs : List α) (a : α) (run : List α)
    (runs : List (List α)) :
    (List.splitBy.loop q xs a run runs).length ≤ runs.length + 1 + xs.length := by
  induction xs generalizing a run runs with
  | nil => simp [List.splitBy.loop]
  | cons x xs ih =>
      rw [List.splitBy.loop]
      cases q a x with
      | true =>
          have bound := ih x (a :: run) runs
          simp only [List.length_cons]
          omega
      | false =>
          have bound := ih x [] ((a :: run).reverse :: runs)
          simp only [List.length_cons] at bound ⊢
          omega

theorem loop_congr {r q : α → α → Bool} (xs : List α) (a : α) (run : List α)
    (runs : List (List α)) (agree : (a :: xs).IsChain fun x y => r x y = q x y) :
    List.splitBy.loop r xs a run runs = List.splitBy.loop q xs a run runs := by
  induction xs generalizing a run runs with
  | nil => rfl
  | cons x xs ih =>
      obtain ⟨here, rest⟩ := List.isChain_cons_cons.mp agree
      rw [List.splitBy.loop, List.splitBy.loop, here]
      cases q a x with
      | true => exact ih x (a :: run) runs rest
      | false => exact ih x [] ((a :: run).reverse :: runs) rest

theorem splitBy_congr {r q : α → α → Bool} {xs : List α}
    (agree : xs.IsChain fun x y => r x y = q x y) : xs.splitBy r = xs.splitBy q := by
  cases xs with
  | nil => rfl
  | cons x xs => exact loop_congr xs x [] [] agree

section Key

variable [BEq β] [LawfulBEq β] (key : α → β)

theorem key_run {xs run : List α} (member : run ∈ xs.splitBy fun x y => key x == key y) :
    ∀ x ∈ run, ∀ y ∈ run, key x = key y := by
  let Same (x y : α) : Prop := key x = key y
  have chain : run.IsChain Same :=
    (List.isChain_of_mem_splitBy member).imp fun x y same => eq_of_beq same
  have trans : Trans Same Same Same := ⟨Eq.trans⟩
  have symm : Std.Symm Same := ⟨fun _ _ => Eq.symm⟩
  have every : ∀ x ∈ run, Same x x := fun x _ => rfl
  intro x inside y inside'
  exact chain.pairwise.forall_of_forall every inside inside'

theorem key_changes (xs : List α) :
    (xs.splitBy fun x y => key x == key y).IsChain
      fun run next => ∀ x ∈ run, ∀ y ∈ next, key x ≠ key y := by
  rw [List.isChain_iff_getElem]
  intro i bound x inside y inside' same
  obtain ⟨filled, filled', apart⟩ := List.isChain_iff_getElem.mp
    (List.isChain_getLast_head_splitBy (fun x y => key x == key y) xs) i bound
  have ends := key_run key (List.getElem_mem _) x inside _ (List.getLast_mem filled)
  have starts := key_run key (List.getElem_mem _) y inside' _ (List.head_mem filled')
  rw [← ends, ← starts, beq_eq_false_iff_ne] at apart
  exact apart same

end Key

end RelayDev.Runs
