import Mathlib.Data.Fintype.EquivFin
import RelayDev.Serving

/-! Which waiting requests the server can still answer with success, on files that stay as
they are. -/

namespace RelayDev.Server

open Cpp Text InputData Output Pool RelayConvert Transition

def Request.Completes (files : Files) (request : Request) : Prop :=
  ∃ billName netlistName,
    request.body = .paths billName netlistName ∧ Serves files billName netlistName

theorem Fitting.completes {files : Files} {request : Request} {answer : Response}
    (fitting : Fitting files request answer) (served : answer.status = .ok) :
    request.Completes files := by
  cases fitting with
  | served body serves => exact ⟨_, _, body, serves⟩
  | failed _ _ error =>
      rw [error] at served
      cases served
  | refused refusal => exact absurd served (Request.refusal_status refusal).2.2

namespace State

/-- Nothing but the boards can fail, and nobody wakes up without being notified. -/
def Prompt (files : Files) : Event → Prop
  | .spurious _ => False
  | e => Calm files e

def Inside (files : Files) : Event → Prop
  | .arrive _ _ _ => False
  | e => Prompt files e

/-- The server can go on with such steps so that the last of them answers the request with
success. -/
def Servable (allowed : Event → Prop) (s : State) (request : Request) : Prop :=
  ∃ es before e last body, run step s es = some before ∧ before.step e = some last ∧
    last.answers = (request, ⟨.ok, body⟩) :: before.answers ∧ request ∉ last.inProgress ∧
      ∀ e' ∈ es ++ [e], allowed e'

/-- A connection is idle, or may be created, or is held by a request that gives it back. -/
def Supplied (files : Files) (s : State) : Prop :=
  (s.clients.pool.pool ≠ [] ∨ s.clients.pool.activeConnections < s.clients.pool.poolSize) ∨
    ∃ holder conn, (holder, conn) ∈ s.clients.lent ∧ holder.Completes files

theorem prompt_of_inside {files : Files} {e : Event} (inside : Inside files e) :
    Prompt files e := by
  cases e with
  | arrive => cases inside
  | rerun => exact inside
  | spurious => exact inside
  | finish => exact inside

theorem calm_of_prompt {files : Files} {e : Event} (prompt : Prompt files e) : Calm files e := by
  cases e with
  | arrive => exact prompt
  | rerun => exact prompt
  | spurious => cases prompt
  | finish => exact prompt

theorem Servable.mono {allowed more : Event → Prop} {s : State} {request : Request}
    (weaker : ∀ e, allowed e → more e) (servable : s.Servable allowed request) :
    s.Servable more request := by
  obtain ⟨es, before, e, last, body, ran, possible, answered, gone, all⟩ := servable
  exact ⟨es, before, e, last, body, ran, possible, answered, gone,
    fun e' member => weaker e' (all e' member)⟩

theorem servable_of_step {allowed : Event → Prop} {s next : State} {e : Event} {request : Request}
    (possible : s.step e = some next) (here : allowed e)
    (servable : next.Servable allowed request) : s.Servable allowed request := by
  obtain ⟨es, before, last, final, body, ran, ended, answered, gone, all⟩ := servable
  refine ⟨e :: es, before, last, final, body, run_cons.mpr ⟨next, possible, ran⟩, ended, answered,
    gone, ?_⟩
  intro other member
  rcases List.mem_cons.mp member with rfl | later
  · exact here
  · exact all other later

section Schedule

variable {files : Files} {s : State} {request other : Request} {conn : Nat}

theorem finish_possible (completes : request.Completes files)
    (held : (request, conn) ∈ s.clients.lent) {notified : Option Request}
    {clients : System Request} (gave : s.clients.giveBack request conn notified = some clients) :
    ∃ e store body, Inside files e ∧
      s.step e = some ({ s with clients, store }.answer request ⟨.ok, body⟩) := by
  obtain ⟨billName, netlistName, body, serves⟩ := completes
  let env : Environment := ⟨files, ⟨fun _ => false, fun _ => true⟩, ⟨0, fun _ => 0⟩, fun _ => []⟩
  have calm : ∀ k, env.world.databaseThrows k = false := fun _ => rfl
  obtain ⟨fuel, store, served⟩ := process_of_serves calm s.store serves
  have outcome : request.outcome env fuel s.store =
      process env fuel s.store billName netlistName := by
    rw [Request.outcome, body]
  rw [served] at outcome
  refine ⟨.finish request conn env fuel notified, store, "relayAmount:".toList ++ numeral
    ((Netlist.fileNets files netlistName).filter RelayFilter.relayNet).length,
      ⟨rfl, fun _ => rfl⟩, ?_⟩
  rw [step, if_pos held, finish, outcome]
  simp only [gave, Option.map_some]
  rfl

theorem giveBack_possible (s : System Request) (request : Request) (conn : Nat) :
    ∃ notified clients, s.giveBack request conn notified = some clients := by
  cases blocked : s.blocked with
  | nil => exact ⟨none, _, if_pos blocked⟩
  | cons waiter rest => exact ⟨some waiter, _, if_pos (by simp [blocked])⟩

theorem acquire_stocked (stocked : s.clients.pool.pool ≠ [] ∨
      s.clients.pool.activeConnections < s.clients.pool.poolSize) (request : Request)
    (what : Exception → Text) :
    (∃ conn, (request, conn) ∈ (s.acquire request true what).clients.lent) ∧
      (s.acquire request true what).clients.blocked = s.clients.blocked := by
  have outcome := acquired s request true what
  generalize s.acquire request true what = next at outcome
  cases outcome with
  | idle conn rest _ => exact ⟨⟨conn, List.mem_cons_self ..⟩, rfl⟩
  | created onDemand _ => exact ⟨⟨_, List.mem_cons_self ..⟩, rfl⟩
  | threw onDemand failed => cases failed
  | waits empty full =>
      rcases stocked with idle | below
      · exact absurd empty idle
      · exact absurd below (Nat.not_lt_of_le full)

theorem servable_lent (orderly : s.Orderly) (completes : request.Completes files)
    (held : (request, conn) ∈ s.clients.lent) : s.Servable (Inside files) request := by
  obtain ⟨notified, clients, gave⟩ := giveBack_possible s.clients request conn
  obtain ⟨e, store, body, inside, possible⟩ := finish_possible completes held gave
  refine ⟨[], s, e, _, body, rfl, possible, rfl, ?_, by simpa using inside⟩
  have left := (giveBack_inProgress held gave).nodup_iff.mpr orderly.distinct
  exact (List.nodup_cons.mp left).1

theorem servable_woken (orderly : s.Orderly) (completes : request.Completes files)
    (woken : request ∈ s.clients.woken)
    (stocked : s.clients.pool.pool ≠ [] ∨
      s.clients.pool.activeConnections < s.clients.pool.poolSize) :
    s.Servable (Inside files) request := by
  have possible : s.step (.rerun request true fun _ => []) = some ({ s with
      clients := { s.clients with woken := s.clients.woken.erase request } }.acquire request true
        fun _ => []) := if_pos woken
  apply servable_of_step possible (show Inside files (.rerun request true fun _ => []) from rfl)
  obtain ⟨⟨conn, held⟩, _⟩ := acquire_stocked (s := { s with clients := { s.clients with
    woken := s.clients.woken.erase request } }) stocked request fun _ => []
  exact servable_lent (step_orderly s _ _ orderly possible) completes held

theorem servable_after (orderly : s.Orderly) (completes : request.Completes files)
    (waits : request ∈ s.clients.blocked ∨ request ∈ s.clients.woken)
    (held : (other, conn) ∈ s.clients.lent) (gives : other.Completes files) :
    s.Servable (Inside files) request := by
  have stocked {clients : System Request}
      (pool : clients.pool = s.clients.pool.releaseConnection conn) :
      clients.pool.pool ≠ [] ∨ clients.pool.activeConnections < clients.pool.poolSize := by
    rw [pool]
    exact .inl (List.append_ne_nil_of_right_ne_nil _ (List.cons_ne_nil _ _))
  rcases waits with blocked | woken
  · have gave : s.clients.giveBack other conn (some request) = some { s.clients with
        pool := s.clients.pool.releaseConnection conn
        lent := s.clients.lent.erase (other, conn)
        blocked := s.clients.blocked.erase request
        woken := request :: s.clients.woken } := if_pos blocked
    obtain ⟨e, store, body, inside, possible⟩ := finish_possible gives held gave
    apply servable_of_step possible inside
    exact servable_woken (step_orderly s _ _ orderly possible) completes (List.mem_cons_self ..)
      (stocked rfl)
  · obtain ⟨notified, clients, gave⟩ := giveBack_possible s.clients other conn
    obtain ⟨e, store, body, inside, possible⟩ := finish_possible gives held gave
    apply servable_of_step possible inside
    have orderly' := step_orderly s _ _ orderly possible
    rcases giveBack_cases gave with ⟨_, rfl⟩ | ⟨waiter, _, rfl⟩
    · exact servable_woken orderly' completes woken (stocked rfl)
    · exact servable_woken orderly' completes (List.mem_cons_of_mem _ woken) (stocked rfl)

theorem exists_fresh (s : State) (body : Body) :
    ∃ number, (⟨number, body⟩ : Request) ∉ s.inProgress := by
  obtain ⟨number, absent⟩ :=
    Infinite.exists_notMem_finset (s.inProgress.map Request.number).toFinset
  refine ⟨number, fun member => absent ?_⟩
  exact List.mem_toFinset.mpr (List.mem_map_of_mem (f := Request.number) member)

/-- A blocked request needs somebody to wake it: another request with its files takes the
connection, and gives it back. -/
theorem servable_stocked (orderly : s.Orderly) (completes : request.Completes files)
    (waits : request ∈ s.clients.blocked ∨ request ∈ s.clients.woken)
    (stocked : s.clients.pool.pool ≠ [] ∨
      s.clients.pool.activeConnections < s.clients.pool.poolSize) :
    s.Servable (Prompt files) request := by
  rcases waits with blocked | woken
  · obtain ⟨number, fresh⟩ := exists_fresh s request.body
    have newcomer : Request.Completes files ⟨number, request.body⟩ := completes
    have unrefused : request.body.refusal = none := by
      obtain ⟨billName, netlistName, body, _⟩ := completes
      exact request.refusal_eq_none.mpr ⟨billName, netlistName, body⟩
    have possible : s.step (.arrive ⟨number, request.body⟩ true fun _ => []) =
        some (s.acquire ⟨number, request.body⟩ true fun _ => []) := by
      rw [step, if_neg fresh]
      dsimp only
      rw [unrefused]
    apply servable_of_step possible
      (show Prompt files (.arrive ⟨number, request.body⟩ true fun _ => []) from rfl)
    apply Servable.mono fun _ => prompt_of_inside
    obtain ⟨⟨conn, held⟩, same⟩ := acquire_stocked stocked ⟨number, request.body⟩ fun _ => []
    exact servable_after (step_orderly s _ _ orderly possible) completes (.inl (same ▸ blocked))
      held newcomer
  · exact (servable_woken orderly completes woken stocked).mono fun _ => prompt_of_inside

/-- Somebody blocked and nothing lent: an idle connection has a woken request coming for it,
and that one can serve the blocked one. -/
theorem servable_waiting (orderly : s.Orderly) (waiting : s.clients.Waiting)
    (completes : ∀ other ∈ s.inProgress, other.Completes files)
    (waits : request ∈ s.clients.blocked ∨ request ∈ s.clients.woken) (left : ¬ s.Exhausted) :
    s.Servable (Inside files) request := by
  have member : request ∈ s.inProgress := by
    simp only [inProgress, List.mem_append]
    tauto
  cases lent : s.clients.lent with
  | cons holder rest =>
      obtain ⟨other, conn⟩ := holder
      have held : (other, conn) ∈ s.clients.lent := by simp [lent]
      have inside : other ∈ s.inProgress :=
        List.mem_append_left _ (List.mem_append_left _ (List.mem_map_of_mem held))
      exact servable_after orderly (completes request member) waits held (completes other inside)
  | nil =>
      have stocked : s.clients.pool.pool ≠ [] ∨
          s.clients.pool.activeConnections < s.clients.pool.poolSize := by
        by_contra none
        rw [not_or, not_not, Nat.not_lt] at none
        exact left ⟨none.1, lent, none.2⟩
      rcases waits with blocked | woken
      · have somebody : s.clients.blocked ≠ [] := List.ne_nil_of_mem blocked
        obtain ⟨conn, rest, idle⟩ : ∃ conn rest, s.clients.pool.pool = conn :: rest := by
          rcases stocked with idle | below
          · exact List.exists_cons_of_ne_nil idle
          · exact absurd below (Nat.not_lt_of_le (Nat.le_of_eq (waiting.full somebody).symm))
        have coming := waiting.coming somebody
        rw [idle, List.length_cons] at coming
        obtain ⟨other, woken⟩ : ∃ other, other ∈ s.clients.woken :=
          List.exists_mem_of_length_pos (by omega)
        have gives := completes other (List.mem_append_right _ woken)
        have possible : s.step (.rerun other true fun _ => []) = some ({ s with
            clients := { s.clients with woken := s.clients.woken.erase other } }.acquire other
              true fun _ => []) := if_pos woken
        apply servable_of_step possible (show Inside files (.rerun other true fun _ => []) from rfl)
        obtain ⟨⟨first, held⟩, same⟩ := acquire_stocked (s := { s with clients := { s.clients with
          woken := s.clients.woken.erase other } }) stocked other fun _ => []
        exact servable_after (step_orderly s _ _ orderly possible) (completes request member)
          (.inl (same ▸ blocked)) held gives
      · exact servable_woken orderly (completes request member) woken stocked

end Schedule

structure Starved (files : Files) (s : State) : Prop where
  empty : s.clients.pool.pool = []
  full : s.clients.pool.poolSize ≤ s.clients.pool.activeConnections
  kept : ∀ holder conn, (holder, conn) ∈ s.clients.lent → ¬ holder.Completes files

theorem starved_iff (files : Files) (s : State) : s.Starved files ↔ ¬ s.Supplied files := by
  constructor
  · rintro ⟨empty, full, kept⟩ ((idle | below) | ⟨holder, conn, held, completes⟩)
    · exact idle empty
    · exact absurd below (Nat.not_lt_of_le full)
    · exact kept holder conn held completes
  · intro unsupplied
    simp only [Supplied, not_or, not_not, Nat.not_lt] at unsupplied
    obtain ⟨⟨empty, full⟩, nobody⟩ := unsupplied
    exact ⟨empty, full, fun holder conn held completes => nobody ⟨holder, conn, held, completes⟩⟩

theorem step_starved {files : Files} {s next : State} {e : Event} (starved : s.Starved files)
    (calm : Calm files e) (possible : s.step e = some next) :
    next.Starved files ∧
      s.clients.blocked ++ s.clients.woken ⊆ next.clients.blocked ++ next.clients.woken := by
  obtain ⟨empty, full, kept⟩ := starved
  cases stepped possible with
  | refused request connects what response refusal => exact ⟨⟨empty, full, kept⟩, List.Subset.refl _⟩
  | arrived request connects what fresh named =>
      rw [(acquired s request connects what).of_full empty full]
      exact ⟨⟨empty, full, kept⟩, List.subset_cons_self _ _⟩
  | retried request connects what woken =>
      have outcome := acquired { s with clients := { s.clients with
        woken := s.clients.woken.erase request } } request connects what
      rw [outcome.of_full empty full]
      refine ⟨⟨empty, full, kept⟩, fun other member => ?_⟩
      have place := (List.perm_cons_erase woken).mem_iff (a := other)
      simp only [List.mem_append, List.mem_cons] at member place ⊢
      tauto
  | woke request blocked =>
      refine ⟨⟨empty, full, kept⟩, ?_⟩
      exact (@wake_inProgress [] _ _ _ blocked).symm.subset
  | returned request conn env fuel notified clients store relayAmount held outcome gave =>
      obtain ⟨rfl, calm⟩ := calm
      exact absurd ((fitting_of_outcome calm outcome).completes rfl) (kept request conn held)
  | failed request conn env fuel notified store exception held outcome =>
      refine ⟨⟨empty, full, fun holder conn held => ?_⟩, List.Subset.refl _⟩
      exact kept holder conn (List.mem_of_mem_erase held)

theorem run_starved {files : Files} {s last : State} {es : List Event} {request : Request}
    (starved : s.Starved files) (waits : request ∈ s.clients.blocked ++ s.clients.woken)
    (ran : run step s es = some last) (calm : ∀ e ∈ es, Calm files e) :
    request ∈ last.inProgress := by
  have both := @guarded_invariant _ _ step (fun _ e => Calm files e)
    (fun s => s.Starved files ∧ request ∈ s.clients.blocked ++ s.clients.woken)
    (fun s e next before calm possible =>
      (step_starved before.1 calm possible).imp_right fun kept => kept before.2)
    s last es ⟨starved, waits⟩ (guarded_of_forall _ calm) ran
  rw [inProgress, List.append_assoc]
  exact List.mem_append_right _ both.2

theorem Servable.necessary {files : Files} {s : State} {request : Request}
    (servable : s.Servable (Prompt files) request)
    (waits : request ∈ s.clients.blocked ++ s.clients.woken) :
    request.Completes files ∧ s.Supplied files := by
  obtain ⟨es, before, e, last, body, ran, possible, answered, gone, all⟩ := servable
  have calm : ∀ e' ∈ es ++ [e], Calm files e' := fun e' member => calm_of_prompt (all e' member)
  constructor
  · rcases step_answers (calm e (by simp)) possible with same | ⟨other, answer, new, fitting⟩
    · rw [same] at answered
      exact absurd (congrArg List.length answered) (by simp)
    · rw [answered] at new
      cases new
      exact fitting.completes rfl
  · by_contra unsupplied
    exact gone (run_starved ((starved_iff files s).mpr unsupplied) waits
      (run_append.mpr ⟨before, ran, run_single possible⟩) calm)

/-- On files that stay as they are a waiting request can be answered with success exactly if
its own files can be served and a connection is idle, may be created, or is held by a request
that gives it back; otherwise no connection ever comes. Where the files of all requests in
progress can be served, those requests alone can bring it about exactly while fewer errors
have been answered than the pool can have connections. -/
theorem waiting_servable_iff (files : Files) (poolSize : Nat) (store : Store) (s : State)
    (es : List Event) (ran : run step (init poolSize store) es = some s) (request : Request)
    (waits : request ∈ s.clients.blocked ∨ request ∈ s.clients.woken) :
    (s.Servable (Prompt files) request ↔ request.Completes files ∧ s.Supplied files) ∧
      (¬ s.Supplied files → ∀ more last, run step s more = some last →
        (∀ e ∈ more, Calm files e) → request ∈ last.inProgress) ∧
      ((∀ other ∈ s.inProgress, other.Completes files) →
        (s.Servable (Inside files) request ↔ s.errors < 2 * poolSize)) := by
  have accounts : s.Accounts poolSize :=
    run_invariant (step_accounts poolSize) (init_accounts poolSize store) ran
  obtain ⟨orderly, waiting⟩ : s.Orderly ∧ s.clients.Waiting :=
    run_invariant step_waiting ⟨init_orderly poolSize store, System.init_waiting poolSize⟩ ran
  have waits' := List.mem_append.mpr waits
  refine ⟨⟨fun servable => servable.necessary waits', ?_⟩, ?_, fun completes => ?_⟩
  · rintro ⟨completes, stocked | ⟨holder, conn, held, gives⟩⟩
    · exact servable_stocked orderly completes waits stocked
    · exact (servable_after orderly completes waits held gives).mono fun _ => prompt_of_inside
  · intro unsupplied more last ranOn calm
    exact run_starved ((starved_iff files s).mpr unsupplied) waits' ranOn calm
  · have left := capacity_errors accounts (run_costs ran)
    have some_left : s.errors < 2 * poolSize ↔ ¬ s.Exhausted := by
      rw [exhausted_iff]
      omega
    rw [some_left]
    refine ⟨fun servable exhausted => ?_, servable_waiting orderly waiting completes waits⟩
    obtain ⟨_, supplied⟩ := (servable.mono fun _ => prompt_of_inside).necessary waits'
    refine (starved_iff files s).mp ⟨exhausted.empty, exhausted.full, ?_⟩ supplied
    rw [exhausted.nobody]
    exact fun _ _ held => nomatch held

theorem thirdRequest_servable :
    ∃ s, run step (init 1 {}) ((List.range 3).map fun number =>
        .arrive (sampleNamed number) true fun _ => []) = some s ∧
      (s.Servable (Prompt servedBoard.files) (sampleNamed 2) ↔
        (sampleNamed 2).Completes servedBoard.files ∧ s.Supplied servedBoard.files) ∧
      (¬ s.Supplied servedBoard.files → ∀ more last, run step s more = some last →
        (∀ e ∈ more, Calm servedBoard.files e) → sampleNamed 2 ∈ last.inProgress) ∧
      ((∀ other ∈ s.inProgress, other.Completes servedBoard.files) →
        (s.Servable (Inside servedBoard.files) (sampleNamed 2) ↔ s.errors < 2 * 1)) := by
  have ends : (run step (init 1 {}) ((List.range 3).map fun number =>
      .arrive (sampleNamed number) true fun _ => [])).map (·.clients.blocked) =
        some [sampleNamed 2] := by decide +kernel
  obtain ⟨s, ran, waits⟩ := Option.map_eq_some_iff.mp ends
  exact ⟨s, ran, waiting_servable_iff servedBoard.files 1 {} s _ ran (sampleNamed 2)
    (.inl (by rw [waits]; simp))⟩

end State

end RelayDev.Server
