import Mathlib.Data.List.Basic

/-! Runs of a machine whose steps are named by events: an event that is not possible in
a state has no next state. -/

namespace RelayDev.Transition

variable {S E : Type} (step : S → E → Option S)

def run : S → List E → Option S
  | s, [] => some s
  | s, e :: es => (step s e).bind (run · es)

def Reachable (start s : S) : Prop := ∃ es, run step start es = some s

def Guarded (guard : S → E → Prop) : S → List E → Prop
  | _, [] => True
  | s, e :: es => guard s e ∧ ∀ next ∈ step s e, Guarded guard next es

variable {step}

theorem run_cons {s last : S} {e : E} {es : List E} :
    run step s (e :: es) = some last ↔ ∃ next, step s e = some next ∧ run step next es = some last := by
  simp [run, Option.bind_eq_some_iff]

theorem run_single {s next : S} {e : E} (stepped : step s e = some next) :
    run step s [e] = some next := run_cons.mpr ⟨next, stepped, rfl⟩

theorem guarded_cons {guard : S → E → Prop} {s next : S} {e : E} {es : List E}
    (stepped : step s e = some next) :
    Guarded step guard s (e :: es) ↔ guard s e ∧ Guarded step guard next es := by
  simp [Guarded, stepped]

theorem guarded_invariant {guard : S → E → Prop} {inv : S → Prop}
    (keeps : ∀ s e next, inv s → guard s e → step s e = some next → inv next) {s last : S}
    {es : List E} (start : inv s) (guarded : Guarded step guard s es)
    (ran : run step s es = some last) : inv last := by
  induction es generalizing s with
  | nil =>
      cases ran
      exact start
  | cons e es ih =>
      obtain ⟨next, stepped, rest⟩ := run_cons.mp ran
      obtain ⟨here, behind⟩ := (guarded_cons stepped).mp guarded
      exact ih (keeps s e next start here stepped) behind rest

theorem guarded_true (s : S) (es : List E) : Guarded step (fun _ _ => True) s es := by
  induction es generalizing s with
  | nil => trivial
  | cons e es ih => exact ⟨trivial, fun next _ => ih next⟩

theorem guarded_of_forall {allowed : E → Prop} (s : S) {es : List E} (all : ∀ e ∈ es, allowed e) :
    Guarded step (fun _ e => allowed e) s es := by
  induction es generalizing s with
  | nil => trivial
  | cons e es ih =>
      exact ⟨all e (by simp), fun next _ => ih next fun e member => all e (by simp [member])⟩

theorem run_invariant {inv : S → Prop}
    (keeps : ∀ s e next, inv s → step s e = some next → inv next) {s last : S} {es : List E}
    (start : inv s) (ran : run step s es = some last) : inv last :=
  guarded_invariant (fun s e next holds _ stepped => keeps s e next holds stepped) start
    (guarded_true s es) ran

theorem reachable_invariant {inv : S → Prop}
    (keeps : ∀ s e next, inv s → step s e = some next → inv next) {start s : S}
    (initial : inv start) (reachable : Reachable step start s) : inv s := by
  obtain ⟨es, ran⟩ := reachable
  exact run_invariant keeps initial ran

/-- On states with an invariant, a number that grows by one at each step outside the guard,
and at no other step, has not grown exactly when the run was guarded. -/
theorem guarded_iff_constant_of_invariant {guard : S → E → Prop} {inv : S → Prop}
    (count : S → Nat) (keeps : ∀ s e next, inv s → step s e = some next → inv next)
    (grows : ∀ s e next, inv s → step s e = some next →
      guard s e ∧ count next = count s ∨ ¬ guard s e ∧ count next = count s + 1)
    {s last : S} {es : List E} (start : inv s) (ran : run step s es = some last) :
    count s ≤ count last ∧ (Guarded step guard s es ↔ count last = count s) := by
  induction es generalizing s with
  | nil =>
      cases ran
      exact ⟨Nat.le_refl _, by simp [Guarded]⟩
  | cons e es ih =>
      obtain ⟨next, stepped, rest⟩ := run_cons.mp ran
      obtain ⟨bound, same⟩ := ih (keeps s e next start stepped) rest
      rw [guarded_cons stepped, same]
      rcases grows s e next start stepped with ⟨here, kept⟩ | ⟨outside, grown⟩
      · exact ⟨by omega, by simp [here, kept]⟩
      · refine ⟨by omega, fun both => absurd both.1 outside, fun constant => ?_⟩
        omega

theorem guarded_iff_constant {guard : S → E → Prop} (count : S → Nat)
    (grows : ∀ s e next, step s e = some next →
      guard s e ∧ count next = count s ∨ ¬ guard s e ∧ count next = count s + 1)
    {s last : S} {es : List E} (ran : run step s es = some last) :
    count s ≤ count last ∧ (Guarded step guard s es ↔ count last = count s) :=
  @guarded_iff_constant_of_invariant S E step guard (fun _ => True) count
    (fun _ _ _ _ _ => trivial) (fun s e next _ stepped => grows s e next stepped) s last es
    trivial ran

theorem guarded_congr {guard guard' : S → E → Prop}
    (agree : ∀ s e next, step s e = some next → (guard s e ↔ guard' s e)) {s last : S}
    {es : List E} (ran : run step s es = some last) :
    Guarded step guard s es ↔ Guarded step guard' s es := by
  induction es generalizing s with
  | nil => exact Iff.rfl
  | cons e es ih =>
      obtain ⟨next, stepped, rest⟩ := run_cons.mp ran
      rw [guarded_cons stepped, guarded_cons stepped, agree s e next stepped, ih rest]

theorem run_append {s last : S} {es more : List E} :
    run step s (es ++ more) = some last ↔
      ∃ middle, run step s es = some middle ∧ run step middle more = some last := by
  induction es generalizing s with
  | nil => simp [run]
  | cons e es ih =>
      rw [List.cons_append, run_cons]
      constructor
      · rintro ⟨next, stepped, rest⟩
        obtain ⟨middle, ran, behind⟩ := ih.mp rest
        exact ⟨middle, run_cons.mpr ⟨next, stepped, ran⟩, behind⟩
      · rintro ⟨middle, ran, behind⟩
        obtain ⟨next, stepped, rest⟩ := run_cons.mp ran
        exact ⟨next, stepped, ih.mpr ⟨middle, rest, behind⟩⟩

def trace {A : Type} (step : S → E → Option S) (emit : S → E → List A) : S → List E → List A
  | _, [] => []
  | s, e :: es => emit s e ++ (step s e).elim [] (trace step emit · es)

theorem trace_cons {A : Type} {emit : S → E → List A} {s next : S} {e : E} {es : List E}
    (stepped : step s e = some next) :
    trace step emit s (e :: es) = emit s e ++ trace step emit next es := by
  rw [trace, stepped]
  rfl

theorem guarded_trace_invariant {A : Type} {emit : S → E → List A} {guard : S → E → Prop}
    {inv : S → List A → Prop}
    (keeps : ∀ s e next emitted, inv s emitted → guard s e → step s e = some next →
      inv next (emitted ++ emit s e)) {s last : S} {es : List E} {emitted : List A}
    (start : inv s emitted) (guarded : Guarded step guard s es) (ran : run step s es = some last) :
    inv last (emitted ++ trace step emit s es) := by
  induction es generalizing s emitted with
  | nil =>
      cases ran
      rwa [trace, List.append_nil]
  | cons e es ih =>
      obtain ⟨next, stepped, rest⟩ := run_cons.mp ran
      obtain ⟨here, behind⟩ := (guarded_cons stepped).mp guarded
      rw [trace_cons stepped, ← List.append_assoc]
      exact ih (keeps s e next emitted start here stepped) behind rest

theorem trace_invariant {A : Type} {emit : S → E → List A} {inv : S → List A → Prop}
    (keeps : ∀ s e next emitted, inv s emitted → step s e = some next →
      inv next (emitted ++ emit s e)) {s last : S} {es : List E} {emitted : List A}
    (start : inv s emitted) (ran : run step s es = some last) :
    inv last (emitted ++ trace step emit s es) :=
  guarded_trace_invariant
    (fun s e next emitted holds _ stepped => keeps s e next emitted holds stepped) start
    (guarded_true s es) ran

/-- A run is followed by a run of another system that takes the steps `emit` at each of
its steps. -/
theorem simulates {T F : Type} {other : T → F → Option T} {emit : S → E → List F}
    {follows : S → T → Prop}
    (keeps : ∀ s e next t, follows s t → step s e = some next →
      ∃ t', run other t (emit s e) = some t' ∧ follows next t')
    {s last : S} {t : T} {es : List E} (start : follows s t) (ran : run step s es = some last) :
    ∃ t', run other t (trace step emit s es) = some t' ∧ follows last t' := by
  induction es generalizing s t with
  | nil =>
      cases ran
      exact ⟨t, rfl, start⟩
  | cons e es ih =>
      obtain ⟨next, stepped, rest⟩ := run_cons.mp ran
      obtain ⟨middle, moved, there⟩ := keeps s e next t start stepped
      obtain ⟨t', behind, ended⟩ := ih there rest
      rw [trace_cons stepped]
      exact ⟨t', run_append.mpr ⟨middle, moved, behind⟩, ended⟩

theorem simulates_some {T F : Type} {other : T → F → Option T} {follows : S → T → Prop}
    (keeps : ∀ s e next t, follows s t → step s e = some next →
      ∃ fs t', run other t fs = some t' ∧ follows next t')
    {s last : S} {t : T} {es : List E} (start : follows s t) (ran : run step s es = some last) :
    ∃ fs t', run other t fs = some t' ∧ follows last t' := by
  induction es generalizing s t with
  | nil =>
      cases ran
      exact ⟨[], t, rfl, start⟩
  | cons e es ih =>
      obtain ⟨next, stepped, rest⟩ := run_cons.mp ran
      obtain ⟨fs, middle, moved, there⟩ := keeps s e next t start stepped
      obtain ⟨more, t', behind, ended⟩ := ih there rest
      exact ⟨fs ++ more, t', run_append.mpr ⟨middle, moved, behind⟩, ended⟩

end RelayDev.Transition
