import RelayDev.Pool

/-! The idle connections over a whole run: in which order they are handed out, and how many
there can be. -/

namespace RelayDev.Pool.System

open Transition

variable {ι : Type} [DecidableEq ι]

structure Bounded (s : System ι) : Prop where
  partition : s.Partition
  onDemand : s.onDemand ≤ s.pool.activeConnections
  waiting : s.Waiting

theorem step_bounded (s : System ι) (e : Event ι) (next : System ι) (bounded : s.Bounded)
    (stepped : s.step e = some next) : next.Bounded where
  partition := step_partition s e next bounded.partition stepped
  onDemand := step_onDemand_le s e next bounded.onDemand stepped
  waiting := step_waiting s e next bounded.waiting stepped

omit [DecidableEq ι] in
theorem init_bounded (poolSize : Nat) : (init poolSize : System ι).Bounded :=
  ⟨init_partition poolSize, Nat.le_refl 0, init_waiting poolSize⟩

theorem step_poolSize (s : System ι) (e : Event ι) (next : System ι)
    (stepped : s.step e = some next) : next.pool.poolSize = s.pool.poolSize := by
  rcases step_cases stepped with ⟨t, connects, rfl, rfl⟩ | ⟨t, connects, rfl, _, rfl⟩ |
    ⟨t, rfl, _, rfl⟩ | ⟨t, conn, notified, rfl, _, gave⟩
  · exact acquire_poolSize s t connects
  · exact acquire_poolSize _ t connects
  · rfl
  · exact giveBack_poolSize gave

theorem run_drain (t : ι) (idle : List Nat) (active poolSize onDemand : Nat)
    (lent : List (ι × Nat)) :
    run step ⟨⟨idle, active, poolSize⟩, onDemand, lent, [], []⟩
        (List.replicate idle.length (.get t true)) =
      some ⟨⟨[], active, poolSize⟩, onDemand, idle.reverse.map (t, ·) ++ lent, [], []⟩ := by
  induction idle generalizing lent with
  | nil => rfl
  | cons conn idle ih =>
      have taken : step (⟨⟨conn :: idle, active, poolSize⟩, onDemand, lent, [], []⟩ : System ι)
          (.get t true) =
            some ⟨⟨idle, active, poolSize⟩, onDemand, (t, conn) :: lent, [], []⟩ := by
        simp [step, Running, acquire, MySQLConnectionPool.getConnection,
          MySQLConnectionPool.OnDemand]
      rw [List.length_cons, List.replicate_succ]
      apply run_cons.mpr
      refine ⟨_, taken, ?_⟩
      rw [ih]
      simp

theorem run_create (t : ι) (count : Nat) {active poolSize : Nat} (room : active + count = poolSize)
    (onDemand : Nat) (lent : List (ι × Nat)) :
    ∃ more, more.length = count ∧
      run step ⟨⟨[], active, poolSize⟩, onDemand, lent, [], []⟩
          (List.replicate count (.get t true)) =
        some ⟨⟨[], poolSize, poolSize⟩, onDemand + count, more ++ lent, [], []⟩ := by
  induction count generalizing active onDemand lent with
  | zero => exact ⟨[], rfl, by rw [← room]; rfl⟩
  | succ count ih =>
      have below : active < poolSize := by omega
      have created : step (⟨⟨[], active, poolSize⟩, onDemand, lent, [], []⟩ : System ι)
          (.get t true) = some ⟨⟨[], active + 1, poolSize⟩, onDemand + 1,
            (t, poolSize + onDemand) :: lent, [], []⟩ := by
        simp [step, Running, acquire, MySQLConnectionPool.getConnection,
          MySQLConnectionPool.OnDemand, below, System.created]
      obtain ⟨more, size, ran⟩ := @ih (active + 1) (by omega) (onDemand + 1)
        ((t, poolSize + onDemand) :: lent)
      refine ⟨more ++ [(t, poolSize + onDemand)], by simp [size], ?_⟩
      rw [List.replicate_succ]
      apply run_cons.mpr
      refine ⟨_, created, ?_⟩
      rw [ran, List.append_assoc, List.singleton_append, Nat.add_assoc, Nat.add_comm 1 count]

/-- No run has more than twice `poolSize` connections, and for every `poolSize` some run has
as many: those of the constructor and as many on demand. -/
theorem total_le_double [Nonempty ι] (poolSize : Nat) :
    (∀ s : System ι, Reachable step (init poolSize) s → s.total ≤ 2 * poolSize) ∧
      ∃ s : System ι, Reachable step (init poolSize) s ∧ s.total = 2 * poolSize := by
  constructor
  · intro s reachable
    have bounded : s.Bounded := reachable_invariant step_bounded (init_bounded poolSize) reachable
    have kept (s : System ι) (e : Event ι) (next : System ι) (same : s.pool.poolSize = poolSize)
        (stepped : step s e = some next) : next.pool.poolSize = poolSize :=
      (step_poolSize s e next stepped).trans same
    have size : s.pool.poolSize = poolSize := reachable_invariant kept rfl reachable
    have count : s.total = s.created := by
      have length := bounded.partition.length_eq
      simpa [connections, total] using length
    have onDemand := bounded.onDemand
    have counted := bounded.waiting.counted
    rw [count, created]
    omega
  · obtain ⟨t⟩ := ‹Nonempty ι›
    have drained := run_drain t (List.range poolSize) 0 poolSize 0 []
    obtain ⟨more, size, created⟩ := run_create t poolSize (Nat.zero_add poolSize) 0
      ((List.range poolSize).reverse.map (t, ·) ++ [])
    refine ⟨_, ⟨_, run_append.mpr ⟨_, drained, created⟩⟩, ?_⟩
    simp [total, size, Nat.two_mul]

theorem singlePool_total :
    (∀ s : System Nat, Reachable step (init 1) s → s.total ≤ 2 * 1) ∧
      ∃ s : System Nat, Reachable step (init 1) s ∧ s.total = 2 * 1 :=
  total_le_double 1

end RelayDev.Pool.System
