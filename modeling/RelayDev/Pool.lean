import RelayDev.Lib.Transition
import Mathlib.Data.List.Nodup
import Mathlib.Data.List.Perm.Basic

/-! `MySQLConnectionPool`: its connections under any number of callers, each critical
section taken as one step. -/

namespace RelayDev.Pool

open Transition

/-- The members of `MySQLConnectionPool` that its functions change; `pool` is `pool_`,
front first. -/
structure MySQLConnectionPool (Conn : Type) where
  pool : List Conn
  activeConnections : Nat
  poolSize : Nat
  deriving DecidableEq, Repr

namespace MySQLConnectionPool

variable {Conn : Type}

/-- The constructor, with the connection each call of `createConnection` gives; `none`
where one of them throws. -/
def construct (poolSize : Nat) (createConnection : Nat → Option Conn) :
    Option (MySQLConnectionPool Conn) :=
  (List.range poolSize).foldlM
    (fun p i => (createConnection i).map fun conn => { p with pool := p.pool ++ [conn] })
    ⟨[], 0, poolSize⟩

/-- `pool_.empty()` and `activeConnections_ < poolSize_`: the branch of `getConnection`
that creates a connection. -/
def OnDemand (p : MySQLConnectionPool Conn) : Prop :=
  p.pool = [] ∧ p.activeConnections < p.poolSize

instance [DecidableEq Conn] (p : MySQLConnectionPool Conn) : Decidable p.OnDemand :=
  inferInstanceAs (Decidable (_ ∧ _))

inductive Acquired (Conn : Type) where
  | returned (conn : Conn)
  | threw
  | waits

/-- `getConnection` from its lock, or from the end of a wait, up to its return or its
next wait. `connect` is what `createConnection` gives, `none` where it throws. -/
def getConnection (p : MySQLConnectionPool Conn) (connect : Option Conn) :
    Acquired Conn × MySQLConnectionPool Conn :=
  match p.pool with
  | conn :: rest => (.returned conn, { p with pool := rest })
  | [] =>
      if p.activeConnections < p.poolSize then
        let p := { p with activeConnections := p.activeConnections + 1 }
        match connect with
        | some conn => (.returned conn, p)
        | none => (.threw, p)
      else (.waits, p)

/-- `releaseConnection`, without the notification that ends it. -/
def releaseConnection (p : MySQLConnectionPool Conn) (conn : Conn) : MySQLConnectionPool Conn :=
  { p with pool := p.pool ++ [conn] }

end MySQLConnectionPool

/-- A pool and its callers. Connections are numbered in the order of their creation. -/
structure System (ι : Type) where
  pool : MySQLConnectionPool Nat
  onDemand : Nat
  lent : List (ι × Nat)
  /-- the callers in `condition_.wait` that nobody has notified -/
  blocked : List ι
  woken : List ι
  deriving DecidableEq, Repr

inductive Event (ι : Type) where
  | get (t : ι) (connects : Bool)
  | rerun (t : ι) (connects : Bool)
  | spurious (t : ι)
  | release (t : ι) (conn : Nat) (notified : Option ι)

namespace System

variable {ι : Type} [DecidableEq ι]

def init (poolSize : Nat) : System ι := ⟨⟨List.range poolSize, 0, poolSize⟩, 0, [], [], []⟩

def created (s : System ι) : Nat := s.pool.poolSize + s.onDemand

def acquire (s : System ι) (t : ι) (connects : Bool) : System ι :=
  match s.pool.getConnection (if connects then some s.created else none) with
  | (.returned conn, pool) => { s with
      pool
      onDemand := if s.pool.OnDemand then s.onDemand + 1 else s.onDemand
      lent := (t, conn) :: s.lent }
  | (.threw, pool) => { s with pool }
  | (.waits, pool) => { s with pool, blocked := t :: s.blocked }

def notify (s : System ι) : Option ι → Option (System ι)
  | none => if s.blocked = [] then some s else none
  | some t =>
      if t ∈ s.blocked then some { s with blocked := s.blocked.erase t, woken := t :: s.woken }
      else none

def giveBack (s : System ι) (t : ι) (conn : Nat) (notified : Option ι) : Option (System ι) :=
  notify { s with pool := s.pool.releaseConnection conn, lent := s.lent.erase (t, conn) } notified

def Running (s : System ι) (t : ι) : Prop := t ∉ s.blocked ∧ t ∉ s.woken

instance (s : System ι) (t : ι) : Decidable (s.Running t) := inferInstanceAs (Decidable (_ ∧ _))

def step (s : System ι) : Event ι → Option (System ι)
  | .get t connects => if s.Running t then some (s.acquire t connects) else none
  | .rerun t connects =>
      if t ∈ s.woken then some ({ s with woken := s.woken.erase t }.acquire t connects) else none
  | .spurious t =>
      if t ∈ s.blocked then some { s with blocked := s.blocked.erase t, woken := t :: s.woken }
      else none
  | .release t conn notified =>
      if s.Running t ∧ (t, conn) ∈ s.lent then s.giveBack t conn notified else none

omit [DecidableEq ι] in
theorem construct_eq (poolSize : Nat) :
    MySQLConnectionPool.construct poolSize some = some (init poolSize : System ι).pool := by
  have filled (count : Nat) : (List.range count).foldlM
      (fun (p : MySQLConnectionPool Nat) i =>
        (some i).map fun conn => { p with pool := p.pool ++ [conn] })
      ⟨[], 0, poolSize⟩ = some ⟨List.range count, 0, poolSize⟩ := by
    induction count with
    | zero => rfl
    | succ count ih => rw [List.range_succ, List.foldlM_append, ih]; rfl
  exact filled poolSize

omit [DecidableEq ι] in
theorem acquire_cases (s : System ι) (t : ι) (connects : Bool) :
    (∃ conn rest, s.pool.pool = conn :: rest ∧ s.acquire t connects =
      { s with pool := { s.pool with pool := rest }, lent := (t, conn) :: s.lent }) ∨
    (s.pool.OnDemand ∧ connects = true ∧ s.acquire t connects =
      { s with
        pool := { s.pool with activeConnections := s.pool.activeConnections + 1 }
        onDemand := s.onDemand + 1
        lent := (t, s.created) :: s.lent }) ∨
    (s.pool.OnDemand ∧ connects = false ∧ s.acquire t connects =
      { s with pool := { s.pool with activeConnections := s.pool.activeConnections + 1 } }) ∨
    (s.pool.pool = [] ∧ s.pool.poolSize ≤ s.pool.activeConnections ∧ s.acquire t connects =
      { s with blocked := t :: s.blocked }) := by
  cases idle : s.pool.pool with
  | cons conn rest =>
      refine .inl ⟨conn, rest, rfl, ?_⟩
      simp [acquire, MySQLConnectionPool.getConnection, MySQLConnectionPool.OnDemand, idle]
  | nil =>
      refine .inr ?_
      by_cases below : s.pool.activeConnections < s.pool.poolSize
      · have onDemand : s.pool.OnDemand := ⟨idle, below⟩
        cases connects with
        | true =>
            refine .inl ⟨onDemand, rfl, ?_⟩
            simp [acquire, MySQLConnectionPool.getConnection, onDemand, idle, below]
        | false =>
            refine .inr (.inl ⟨onDemand, rfl, ?_⟩)
            simp [acquire, MySQLConnectionPool.getConnection, idle, below]
      · refine .inr (.inr ⟨rfl, Nat.le_of_not_lt below, ?_⟩)
        simp [acquire, MySQLConnectionPool.getConnection, idle, below]

theorem notify_cases {s next : System ι} {notified : Option ι}
    (stepped : s.notify notified = some next) :
    (s.blocked = [] ∧ next = s) ∨ ∃ t ∈ s.blocked,
      next = { s with blocked := s.blocked.erase t, woken := t :: s.woken } := by
  cases notified with
  | none =>
      rw [notify, Option.ite_none_right_eq_some] at stepped
      exact .inl ⟨stepped.1, (Option.some.inj stepped.2).symm⟩
  | some t =>
      rw [notify, Option.ite_none_right_eq_some] at stepped
      exact .inr ⟨t, stepped.1, (Option.some.inj stepped.2).symm⟩

theorem step_cases {s next : System ι} {e : Event ι} (stepped : s.step e = some next) :
    (∃ t connects, e = .get t connects ∧ next = s.acquire t connects) ∨
    (∃ t connects, e = .rerun t connects ∧ t ∈ s.woken ∧
      next = { s with woken := s.woken.erase t }.acquire t connects) ∨
    (∃ t, e = .spurious t ∧ t ∈ s.blocked ∧
      next = { s with blocked := s.blocked.erase t, woken := t :: s.woken }) ∨
    (∃ t conn notified, e = .release t conn notified ∧ (t, conn) ∈ s.lent ∧
      s.giveBack t conn notified = some next) := by
  cases e with
  | get t connects =>
      rw [step, Option.ite_none_right_eq_some] at stepped
      exact .inl ⟨t, connects, rfl, (Option.some.inj stepped.2).symm⟩
  | rerun t connects =>
      rw [step, Option.ite_none_right_eq_some] at stepped
      exact .inr (.inl ⟨t, connects, rfl, stepped.1, (Option.some.inj stepped.2).symm⟩)
  | spurious t =>
      rw [step, Option.ite_none_right_eq_some] at stepped
      exact .inr (.inr (.inl ⟨t, rfl, stepped.1, (Option.some.inj stepped.2).symm⟩))
  | release t conn notified =>
      rw [step, Option.ite_none_right_eq_some] at stepped
      exact .inr (.inr (.inr ⟨t, conn, notified, rfl, stepped.1.2, stepped.2⟩))

def connections (s : System ι) : List Nat := s.pool.pool ++ s.lent.map Prod.snd

def CreatesOnDemand (s : System ι) : Event ι → Prop
  | .get _ connects => s.pool.OnDemand ∧ connects = true
  | .rerun _ connects => s.pool.OnDemand ∧ connects = true
  | .spurious _ => False
  | .release _ _ _ => False

omit [DecidableEq ι] in
theorem acquire_connections (s : System ι) (t : ι) (connects : Bool) :
    (¬ (s.pool.OnDemand ∧ connects = true) ∧ (s.acquire t connects).created = s.created ∧
      (s.acquire t connects).connections.Perm s.connections) ∨
    ((s.pool.OnDemand ∧ connects = true) ∧ (s.acquire t connects).created = s.created + 1 ∧
      (s.acquire t connects).connections.Perm (s.created :: s.connections)) := by
  rcases acquire_cases s t connects with ⟨conn, rest, idle, same⟩ | ⟨onDemand, connected, same⟩ |
    ⟨_, failed, same⟩ | ⟨_, full, same⟩
  · refine .inl ⟨fun created => ?_, (congrArg created same).trans rfl, ?_⟩
    · rw [created.1.1] at idle
      cases idle
    · rw [same, connections, connections, idle]
      exact List.perm_middle
  · refine .inr ⟨⟨onDemand, connected⟩, (congrArg created same).trans rfl, ?_⟩
    rw [same, connections, connections, onDemand.1]
    exact List.Perm.refl _
  · exact .inl ⟨by simp [failed], (congrArg created same).trans rfl, by rw [same]; exact List.Perm.refl _⟩
  · refine .inl ⟨fun created => ?_, (congrArg created same).trans rfl, by rw [same]; exact List.Perm.refl _⟩
    exact absurd created.1.2 (Nat.not_lt_of_le full)

omit [DecidableEq ι] in
theorem acquire_poolSize (s : System ι) (t : ι) (connects : Bool) :
    (s.acquire t connects).pool.poolSize = s.pool.poolSize := by
  rcases acquire_cases s t connects with ⟨_, _, _, same⟩ | ⟨_, _, same⟩ | ⟨_, _, same⟩ |
    ⟨_, _, same⟩ <;> rw [same]

theorem giveBack_poolSize {s next : System ι} {t : ι} {conn : Nat} {notified : Option ι}
    (gave : s.giveBack t conn notified = some next) : next.pool.poolSize = s.pool.poolSize := by
  rcases notify_cases gave with ⟨_, rfl⟩ | ⟨_, _, rfl⟩ <;> rfl

theorem notify_connections {s next : System ι} {notified : Option ι}
    (stepped : s.notify notified = some next) :
    next.created = s.created ∧ next.connections = s.connections := by
  rcases notify_cases stepped with ⟨_, rfl⟩ | ⟨t, _, rfl⟩
  · exact ⟨rfl, rfl⟩
  · exact ⟨rfl, rfl⟩

theorem giveBack_connections {s next : System ι} {t : ι} {conn : Nat} {notified : Option ι}
    (held : (t, conn) ∈ s.lent) (stepped : s.giveBack t conn notified = some next) :
    next.created = s.created ∧ next.connections.Perm s.connections := by
  obtain ⟨created, same⟩ := notify_connections stepped
  refine ⟨created, ?_⟩
  have split := (List.perm_cons_erase held).map Prod.snd
  rw [same, connections, connections]
  simp only [MySQLConnectionPool.releaseConnection, List.append_assoc, List.singleton_append]
  exact split.symm.append_left _

theorem step_connections {s next : System ι} {e : Event ι} (stepped : s.step e = some next) :
    (¬ s.CreatesOnDemand e ∧ next.created = s.created ∧
      next.connections.Perm s.connections) ∨
    (s.CreatesOnDemand e ∧ next.created = s.created + 1 ∧
      next.connections.Perm (s.created :: s.connections)) := by
  rcases step_cases stepped with ⟨t, connects, rfl, rfl⟩ | ⟨t, connects, rfl, _, rfl⟩ |
    ⟨t, rfl, _, rfl⟩ | ⟨t, conn, notified, rfl, held, gave⟩
  · exact acquire_connections s t connects
  · exact acquire_connections { s with woken := s.woken.erase t } t connects
  · exact .inl ⟨id, rfl, List.Perm.refl _⟩
  · exact .inl ⟨id, giveBack_connections held gave⟩

def Partition (s : System ι) : Prop := s.connections.Perm (List.range s.created)

omit [DecidableEq ι] in
theorem init_partition (poolSize : Nat) : (init poolSize : System ι).Partition := by
  simp [Partition, connections, init, created]

theorem step_partition (s : System ι) (e : Event ι) (next : System ι) (partition : s.Partition)
    (stepped : s.step e = some next) : next.Partition := by
  rcases step_connections stepped with ⟨_, created, same⟩ | ⟨_, created, same⟩
  · rw [Partition, created]
    exact same.trans partition
  · rw [Partition, created, List.range_succ]
    calc
      List.Perm next.connections (s.created :: s.connections) := same
      List.Perm _ (s.created :: List.range s.created) := partition.cons _
      List.Perm _ (List.range s.created ++ [s.created]) := (List.perm_append_singleton _ _).symm

/-- In every reachable state no connection is lent twice, idle twice, or idle and lent, and
every connection created is idle or lent. -/
theorem connections_partitioned (poolSize : Nat) (s : System ι)
    (reachable : Reachable step (init poolSize) s) :
    (s.lent.map Prod.snd).Nodup ∧ s.pool.pool.Nodup ∧
      (∀ conn ∈ s.pool.pool, conn ∉ s.lent.map Prod.snd) ∧
      ∀ conn, conn < s.created ↔ conn ∈ s.pool.pool ∨ conn ∈ s.lent.map Prod.snd := by
  have partition : s.Partition :=
    reachable_invariant step_partition (init_partition poolSize) reachable
  have distinct : s.connections.Nodup := partition.nodup_iff.mpr List.nodup_range
  obtain ⟨idle, lent, apart⟩ := List.nodup_append.mp distinct
  refine ⟨lent, idle, fun conn isIdle isLent => apart conn isIdle conn isLent rfl, fun conn => ?_⟩
  rw [← List.mem_append, ← List.mem_range]
  exact partition.mem_iff.symm

theorem two_callers_partitioned :
    let s : System Nat := ⟨⟨[], 1, 1⟩, 1, [(1, 1), (0, 0)], [], []⟩
    (s.lent.map Prod.snd).Nodup ∧ s.pool.pool.Nodup ∧
      (∀ conn ∈ s.pool.pool, conn ∉ s.lent.map Prod.snd) ∧
      ∀ conn, conn < s.created ↔ conn ∈ s.pool.pool ∨ conn ∈ s.lent.map Prod.snd :=
  connections_partitioned 1 _ ⟨[.get 0 true, .get 1 true], by decide⟩

def total (s : System ι) : Nat := s.pool.pool.length + s.lent.length

theorem total_step (s : System ι) (e : Event ι) (next : System ι) (stepped : s.step e = some next) :
    ¬ s.CreatesOnDemand e ∧ next.total = s.total ∨
      ¬ ¬ s.CreatesOnDemand e ∧ next.total = s.total + 1 := by
  have count (s : System ι) : s.connections.length = s.total := by simp [connections, total]
  rcases step_connections stepped with ⟨kept, _, same⟩ | ⟨creates, _, same⟩
  · exact .inl ⟨kept, by rw [← count, same.length_eq, count]⟩
  · exact .inr ⟨not_not_intro creates, by rw [← count, same.length_eq, List.length_cons, count]⟩

/-- The pool keeps within its size exactly on the runs that create no connection on
demand: those of the constructor fill it already, and are not counted as active. -/
theorem total_bounded_iff (poolSize : Nat) (s : System ι) (es : List (Event ι))
    (ran : run step (init poolSize) es = some s) :
    s.total ≤ poolSize ↔ Guarded step (fun s e => ¬ s.CreatesOnDemand e) (init poolSize) es := by
  have start : (init poolSize : System ι).total = poolSize := by simp [total, init]
  obtain ⟨grown, constant⟩ := guarded_iff_constant total total_step ran
  rw [start] at grown constant
  rw [constant]
  exact ⟨fun bound => Nat.le_antisymm bound grown, Nat.le_of_eq⟩

theorem two_callers_unbounded :
    run step (init 1) [Event.get 0 true, .get 1 true] =
        some (⟨⟨[], 1, 1⟩, 1, [(1, 1), (0, 0)], [], []⟩ : System Nat) ∧
      ¬ (⟨⟨[], 1, 1⟩, 1, [(1, 1), (0, 0)], [], []⟩ : System Nat).total ≤ 1 := by
  decide

theorem one_caller_bounded :
    (⟨⟨[], 0, 1⟩, 0, [(0, 0)], [], []⟩ : System Nat).total ≤ 1 ↔
      Guarded step (fun s e => ¬ s.CreatesOnDemand e) (init 1) [Event.get 0 true] :=
  total_bounded_iff 1 _ [.get 0 true] (by decide)

/-- While somebody is blocked, no connection may be created, and each idle one has a caller
on its way to it. -/
structure Waiting (s : System ι) : Prop where
  counted : s.pool.activeConnections ≤ s.pool.poolSize
  full : s.blocked ≠ [] → s.pool.activeConnections = s.pool.poolSize
  coming : s.blocked ≠ [] → s.pool.pool.length ≤ s.woken.length

omit [DecidableEq ι] in
theorem acquire_waiting {s : System ι} (t : ι) (connects : Bool)
    (counted : s.pool.activeConnections ≤ s.pool.poolSize)
    (full : s.blocked ≠ [] → s.pool.activeConnections = s.pool.poolSize)
    (coming : s.blocked ≠ [] → s.pool.pool.length ≤ s.woken.length + 1) :
    (s.acquire t connects).Waiting := by
  have unblocked (below : s.pool.activeConnections < s.pool.poolSize) (blocked : s.blocked ≠ []) :
      False := absurd (full blocked) (Nat.ne_of_lt below)
  rcases acquire_cases s t connects with ⟨conn, rest, idle, same⟩ | ⟨⟨_, below⟩, _, same⟩ |
    ⟨⟨_, below⟩, _, same⟩ | ⟨empty, above, same⟩
  · rw [same]
    refine ⟨counted, full, fun blocked => ?_⟩
    have bound := coming blocked
    rw [idle, List.length_cons] at bound
    exact Nat.le_of_succ_le_succ bound
  · rw [same]
    exact ⟨below, fun blocked => (unblocked below blocked).elim,
      fun blocked => (unblocked below blocked).elim⟩
  · rw [same]
    exact ⟨below, fun blocked => (unblocked below blocked).elim,
      fun blocked => (unblocked below blocked).elim⟩
  · rw [same]
    refine ⟨counted, fun _ => Nat.le_antisymm counted above, fun _ => ?_⟩
    simp [empty]

theorem giveBack_waiting {s next : System ι} {t : ι} {conn : Nat} {notified : Option ι}
    (waiting : s.Waiting) (gave : s.giveBack t conn notified = some next) : next.Waiting := by
  obtain ⟨counted, full, coming⟩ := waiting
  rcases notify_cases gave with ⟨nobody, rfl⟩ | ⟨w, blocked, rfl⟩
  · exact ⟨counted, full, fun blocked => absurd nobody blocked⟩
  · have somebody : s.blocked ≠ [] := List.ne_nil_of_mem blocked
    refine ⟨counted, fun _ => full somebody, fun _ => ?_⟩
    simpa [MySQLConnectionPool.releaseConnection] using coming somebody

theorem step_waiting (s : System ι) (e : Event ι) (next : System ι) (waiting : s.Waiting)
    (stepped : s.step e = some next) : next.Waiting := by
  obtain ⟨counted, full, coming⟩ := waiting
  rcases step_cases stepped with ⟨t, connects, rfl, rfl⟩ | ⟨t, connects, rfl, woken, rfl⟩ |
    ⟨t, rfl, blocked, rfl⟩ | ⟨t, conn, notified, rfl, held, gave⟩
  · exact acquire_waiting t connects counted full fun blocked => Nat.le_succ_of_le (coming blocked)
  · refine acquire_waiting t connects counted full fun blocked => ?_
    have bound := coming blocked
    have one := List.length_pos_of_mem woken
    rw [List.length_erase_of_mem woken, Nat.sub_add_cancel one]
    exact bound
  · have somebody : s.blocked ≠ [] := List.ne_nil_of_mem blocked
    exact ⟨counted, fun _ => full somebody, fun _ => Nat.le_succ_of_le (coming somebody)⟩
  · exact giveBack_waiting ⟨counted, full, coming⟩ gave

omit [DecidableEq ι] in
theorem init_waiting (poolSize : Nat) : (init poolSize : System ι).Waiting :=
  ⟨Nat.zero_le _, fun blocked => absurd rfl blocked, fun blocked => absurd rfl blocked⟩

/-- In every reachable state with a blocked caller the counter stands at its limit, and no
connection is idle without a woken caller for it. -/
theorem blocked_only_when_full (poolSize : Nat) (s : System ι)
    (reachable : Reachable step (init poolSize) s) (blocked : s.blocked ≠ []) :
    s.pool.activeConnections = s.pool.poolSize ∧ s.pool.pool.length ≤ s.woken.length := by
  have waiting : s.Waiting := reachable_invariant step_waiting (init_waiting poolSize) reachable
  exact ⟨waiting.full blocked, waiting.coming blocked⟩

/-- Four callers on a pool of one connection, two of which wait; a release wakes one. -/
theorem two_waiters_full :
    let s : System Nat := ⟨⟨[0], 1, 1⟩, 1, [(1, 1)], [3], [2]⟩
    s.pool.activeConnections = s.pool.poolSize ∧ s.pool.pool.length ≤ s.woken.length :=
  blocked_only_when_full 1 ⟨⟨[0], 1, 1⟩, 1, [(1, 1)], [3], [2]⟩
    ⟨[.get 0 true, .get 1 true, .get 2 true, .get 3 true, .release 0 0 (some 2)], by decide⟩
    (by decide)

def Throws (s : System ι) : Event ι → Prop
  | .get _ connects => s.pool.OnDemand ∧ connects = false
  | .rerun _ connects => s.pool.OnDemand ∧ connects = false
  | .spurious _ => False
  | .release _ _ _ => False

/-- What `activeConnections` counts besides the connections created on demand. -/
def uncreated (s : System ι) : Nat := s.pool.activeConnections - s.onDemand

/-- A throwing call counts one connection that it has not created; no other step tells the
counter and the connections created on demand apart. -/
structure Counts (s next : System ι) (throws : Prop) : Prop where
  threw : throws → next.onDemand = s.onDemand ∧
    next.pool = { s.pool with activeConnections := s.pool.activeConnections + 1 }
  other : ¬ throws → ∃ more, next.onDemand = s.onDemand + more ∧
    next.pool.activeConnections = s.pool.activeConnections + more

omit [DecidableEq ι] in
theorem acquire_counts (s : System ι) (t : ι) (connects : Bool) :
    Counts s (s.acquire t connects) (s.pool.OnDemand ∧ connects = false) := by
  rcases acquire_cases s t connects with ⟨conn, rest, idle, same⟩ | ⟨_, connected, same⟩ |
    ⟨onDemand, failed, same⟩ | ⟨_, full, same⟩
  · rw [same]
    refine ⟨fun threw => ?_, fun _ => ⟨0, rfl, rfl⟩⟩
    rw [threw.1.1] at idle
    cases idle
  · rw [same]
    refine ⟨fun threw => ?_, fun _ => ⟨1, rfl, rfl⟩⟩
    rw [connected] at threw
    cases threw.2
  · rw [same]
    exact ⟨fun _ => ⟨rfl, rfl⟩, fun returned => absurd ⟨onDemand, failed⟩ returned⟩
  · rw [same]
    refine ⟨fun threw => ?_, fun _ => ⟨0, rfl, rfl⟩⟩
    exact absurd threw.1.2 (Nat.not_lt_of_le full)

theorem step_counts {s next : System ι} {e : Event ι} (stepped : s.step e = some next) :
    Counts s next (s.Throws e) := by
  rcases step_cases stepped with ⟨t, connects, rfl, rfl⟩ | ⟨t, connects, rfl, _, rfl⟩ |
    ⟨t, rfl, _, rfl⟩ | ⟨t, conn, notified, rfl, _, gave⟩
  · exact acquire_counts s t connects
  · have counts := acquire_counts { s with woken := s.woken.erase t } t connects
    exact ⟨counts.threw, counts.other⟩
  · exact ⟨fun threw => threw.elim, fun _ => ⟨0, rfl, rfl⟩⟩
  · refine ⟨fun threw => threw.elim, fun _ => ⟨0, ?_⟩⟩
    rcases notify_cases gave with ⟨_, rfl⟩ | ⟨_, _, rfl⟩
    · exact ⟨rfl, rfl⟩
    · exact ⟨rfl, rfl⟩

theorem step_onDemand_le (s : System ι) (e : Event ι) (next : System ι)
    (bound : s.onDemand ≤ s.pool.activeConnections) (stepped : s.step e = some next) :
    next.onDemand ≤ next.pool.activeConnections := by
  have counts := step_counts stepped
  by_cases throws : s.Throws e
  · obtain ⟨created, pool⟩ := counts.threw throws
    rw [created, pool]
    exact Nat.le_succ_of_le bound
  · obtain ⟨more, created, active⟩ := counts.other throws
    omega

theorem uncreated_step (s : System ι) (e : Event ι) (next : System ι)
    (bound : s.onDemand ≤ s.pool.activeConnections) (stepped : s.step e = some next) :
    ¬ s.Throws e ∧ next.uncreated = s.uncreated ∨
      ¬ ¬ s.Throws e ∧ next.uncreated = s.uncreated + 1 := by
  have counts := step_counts stepped
  unfold uncreated
  by_cases throws : s.Throws e
  · obtain ⟨created, pool⟩ := counts.threw throws
    refine .inr ⟨not_not_intro throws, ?_⟩
    rw [created, pool]
    exact Nat.succ_sub bound
  · obtain ⟨more, created, active⟩ := counts.other throws
    refine .inl ⟨throws, ?_⟩
    omega

/-- A run counts as many active connections as it has created on demand, and each of its
throwing calls leaves the pool as it was, exactly if no call of it throws. -/
theorem active_counts_created_iff (poolSize : Nat) (s : System ι) (es : List (Event ι))
    (ran : run step (init poolSize) es = some s) :
    (s.pool.activeConnections = s.onDemand ↔
        Guarded step (fun s e => ¬ s.Throws e) (init poolSize) es) ∧
      (Guarded step (fun s e => s.Throws e → ∀ next ∈ s.step e, next.pool = s.pool)
          (init poolSize) es ↔
        Guarded step (fun s e => ¬ s.Throws e) (init poolSize) es) := by
  have start : (init poolSize : System ι).onDemand ≤
      (init poolSize : System ι).pool.activeConnections := Nat.le_refl 0
  constructor
  · have bound : s.onDemand ≤ s.pool.activeConnections :=
      run_invariant step_onDemand_le start ran
    obtain ⟨_, constant⟩ :=
      guarded_iff_constant_of_invariant uncreated step_onDemand_le uncreated_step start ran
    have none : (init poolSize : System ι).uncreated = 0 := rfl
    rw [constant, none, uncreated]
    omega
  · apply guarded_congr _ ran
    intro s e next stepped
    constructor
    · intro leaves throws
      have kept := leaves throws next stepped
      rw [((step_counts stepped).threw throws).2] at kept
      have counted := congrArg MySQLConnectionPool.activeConnections kept
      exact absurd counted (Nat.succ_ne_self _)
    · intro returned throws
      exact absurd throws returned

/-- The connect of the second caller fails; the third waits, though nobody has been given a
second connection. -/
theorem failed_connect_counted :
    let s : System Nat := ⟨⟨[], 1, 1⟩, 0, [(0, 0)], [], []⟩
    run step (init 1) [.get 0 true, .get 1 false] = some s ∧
      s.pool.activeConnections ≠ s.onDemand ∧
      run step (init 1) [.get 0 true, .get 1 false, .get 2 true] =
        some { s with blocked := [2] } := by
  decide

theorem active_counts_created_iff_failed :
    let s : System Nat := ⟨⟨[], 1, 1⟩, 0, [(0, 0)], [], []⟩
    let es : List (Event Nat) := [.get 0 true, .get 1 false]
    (s.pool.activeConnections = s.onDemand ↔
        Guarded step (fun s e => ¬ s.Throws e) (init 1) es) ∧
      (Guarded step (fun s e => s.Throws e → ∀ next ∈ s.step e, next.pool = s.pool) (init 1) es ↔
        Guarded step (fun s e => ¬ s.Throws e) (init 1) es) :=
  active_counts_created_iff 1 _ [.get 0 true, .get 1 false] (by decide)

end System

end RelayDev.Pool
