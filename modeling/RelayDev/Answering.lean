import RelayDev.Answer

/-! Every request over the life of the server: it is answered once, or in progress. -/

namespace RelayDev.Server

open Cpp Text InputData Output Pool RelayConvert Transition

inductive State.Acquired (s : State) (request : Request) (connects : Bool)
    (what : Exception → Text) : State → Prop
  | idle (conn : Nat) (rest : List Nat) (stocked : s.clients.pool.pool = conn :: rest) :
      Acquired s request connects what { s with clients := { s.clients with
        pool := { s.clients.pool with pool := rest }
        lent := (request, conn) :: s.clients.lent } }
  | created (onDemand : s.clients.pool.OnDemand) (connected : connects = true) :
      Acquired s request connects what { s with clients := { s.clients with
        pool := { s.clients.pool with
          activeConnections := s.clients.pool.activeConnections + 1 }
        onDemand := s.clients.onDemand + 1
        lent := (request, s.clients.created) :: s.clients.lent } }
  | threw (onDemand : s.clients.pool.OnDemand) (failed : connects = false) :
      Acquired s request connects what (State.answer { s with clients := { s.clients with
        pool := { s.clients.pool with
          activeConnections := s.clients.pool.activeConnections + 1 } } }
        request (failure what .sqlException))
  | waits (empty : s.clients.pool.pool = [])
      (full : s.clients.pool.poolSize ≤ s.clients.pool.activeConnections) :
      Acquired s request connects what { s with clients := { s.clients with
        blocked := request :: s.clients.blocked } }

def Request.Named (request : Request) : Prop :=
  ∃ billName netlistName, request.body = .paths billName netlistName

/-- The body is no JSON, or does not name both files. -/
def Request.Malformed (request : Request) : Prop :=
  request.body = .unreadable ∨ request.body = .incomplete

theorem Request.refusal_eq_none (request : Request) :
    request.body.refusal = none ↔ request.Named := by
  unfold Named
  cases request.body <;> simp [Body.refusal]

instance (request : Request) : Decidable request.Named :=
  decidable_of_iff _ request.refusal_eq_none

theorem Request.Named.not_malformed {request : Request} (named : request.Named) :
    ¬ request.Malformed := by
  obtain ⟨billName, netlistName, body⟩ := named
  simp [Malformed, body]

theorem Request.not_named_of_refusal {request : Request} {response : Response}
    (refused : request.body.refusal = some response) : ¬ request.Named := by
  rw [← request.refusal_eq_none, refused]
  exact Option.some_ne_none _

theorem Request.refusal_status {request : Request} {response : Response}
    (refused : request.body.refusal = some response) :
    (response.status = .badRequest ↔ request.Malformed) ∧
      (response.status = .internalServerError ↔ ∃ what, request.body = .throws what) ∧
      response.status ≠ .ok := by
  unfold Malformed
  cases body : request.body with
  | throws what =>
      rw [body] at refused
      cases refused
      simp
  | unreadable =>
      rw [body] at refused
      cases refused
      simp
  | incomplete =>
      rw [body] at refused
      cases refused
      simp
  | paths billName netlistName =>
      rw [body] at refused
      cases refused

namespace State

theorem acquired (s : State) (request : Request) (connects : Bool) (what : Exception → Text) :
    s.Acquired request connects what (s.acquire request connects what) := by
  have returned (test : ¬ (s.clients.pool.OnDemand ∧ connects = false)) :
      s.acquire request connects what =
        { s with clients := s.clients.acquire request connects } := if_neg test
  rcases System.acquire_cases s.clients request connects with ⟨conn, rest, idle, same⟩ |
    ⟨onDemand, connected, same⟩ | ⟨onDemand, failed, same⟩ | ⟨empty, full, same⟩
  · have stocked : ¬ (s.clients.pool.OnDemand ∧ connects = false) := by
      rintro ⟨⟨none, _⟩, _⟩
      rw [none] at idle
      cases idle
    rw [returned stocked, same]
    exact .idle conn rest idle
  · have succeeded : ¬ (s.clients.pool.OnDemand ∧ connects = false) := by simp [connected]
    rw [returned succeeded, same]
    exact .created onDemand connected
  · have threw : s.acquire request connects what =
        State.answer { s with clients := s.clients.acquire request connects } request
          (failure what .sqlException) := if_pos ⟨onDemand, failed⟩
    rw [threw, same]
    exact .threw onDemand failed
  · have counted : ¬ (s.clients.pool.OnDemand ∧ connects = false) := by
      rintro ⟨⟨_, below⟩, _⟩
      exact absurd below (Nat.not_lt_of_le full)
    rw [returned counted, same]
    exact .waits empty full

theorem giveBack_cases {s next : System Request} {request : Request} {conn : Nat}
    {notified : Option Request} (gave : s.giveBack request conn notified = some next) :
    (s.blocked = [] ∧ next = { s with
        pool := s.pool.releaseConnection conn, lent := s.lent.erase (request, conn) }) ∨
      ∃ waiter ∈ s.blocked, next = { s with
        pool := s.pool.releaseConnection conn, lent := s.lent.erase (request, conn)
        blocked := s.blocked.erase waiter, woken := waiter :: s.woken } :=
  System.notify_cases gave

inductive Stepped (s : State) : Event → State → Prop
  | refused (request : Request) (connects : Bool) (what : Exception → Text) (response : Response)
      (refusal : request.body.refusal = some response) :
      Stepped s (.arrive request connects what) (s.answer request response)
  | arrived (request : Request) (connects : Bool) (what : Exception → Text)
      (fresh : request ∉ s.inProgress) (named : request.Named) :
      Stepped s (.arrive request connects what) (s.acquire request connects what)
  | retried (request : Request) (connects : Bool) (what : Exception → Text)
      (woken : request ∈ s.clients.woken) :
      Stepped s (.rerun request connects what) ({ s with clients := { s.clients with
        woken := s.clients.woken.erase request } }.acquire request connects what)
  | woke (request : Request) (blocked : request ∈ s.clients.blocked) :
      Stepped s (.spurious request) { s with clients := { s.clients with
        blocked := s.clients.blocked.erase request, woken := request :: s.clients.woken } }
  | returned (request : Request) (conn : Nat) (env : Environment) (fuel : Nat)
      (notified : Option Request) (clients : System Request) (store : Store) (relayAmount : Nat)
      (held : (request, conn) ∈ s.clients.lent)
      (outcome : request.outcome env fuel s.store = some (.ok relayAmount, store))
      (gave : s.clients.giveBack request conn notified = some clients) :
      Stepped s (.finish request conn env fuel notified) ({ s with clients, store }.answer request
        ⟨.ok, "relayAmount:".toList ++ numeral relayAmount⟩)
  | failed (request : Request) (conn : Nat) (env : Environment) (fuel : Nat)
      (notified : Option Request) (store : Store) (exception : Exception)
      (held : (request, conn) ∈ s.clients.lent)
      (outcome : request.outcome env fuel s.store = some (.error (.thrown exception), store)) :
      Stepped s (.finish request conn env fuel notified)
        (({ s with store }.drop request conn).answer request (failure env.what exception))

theorem stepped {s next : State} {e : Event} (possible : s.step e = some next) :
    s.Stepped e next := by
  cases e with
  | arrive request connects what =>
      rw [step, Option.ite_none_left_eq_some] at possible
      obtain ⟨fresh, possible⟩ := possible
      split at possible
      · rename_i refusal
        cases possible
        exact .refused request connects what _ refusal
      · rename_i unrefused
        cases possible
        exact .arrived request connects what fresh (request.refusal_eq_none.mp unrefused)
  | rerun request connects what =>
      rw [step, Option.ite_none_right_eq_some] at possible
      obtain ⟨woken, possible⟩ := possible
      cases possible
      exact .retried request connects what woken
  | spurious request =>
      obtain ⟨clients, woke, rfl⟩ := Option.map_eq_some_iff.mp possible
      rw [System.step, Option.ite_none_right_eq_some] at woke
      obtain ⟨blocked, same⟩ := woke
      cases same
      exact .woke request blocked
  | finish request conn env fuel notified =>
      rw [step, Option.ite_none_right_eq_some] at possible
      obtain ⟨held, possible⟩ := possible
      unfold finish at possible
      split at possible
      · rename_i outcome
        obtain ⟨clients, gave, rfl⟩ := Option.map_eq_some_iff.mp possible
        exact .returned request conn env fuel notified clients _ _ held outcome gave
      · rename_i outcome
        cases possible
        exact .failed request conn env fuel notified _ _ held outcome
      · cases possible

def arrives : Event → List Request
  | .arrive request _ _ => [request]
  | _ => []

inductive Handled (s : State) (e : Event) (next : State) : Prop
  | refused (request : Request) (response : Response) (arrived : arrives e = [request])
      (fits : response.status = .badRequest ↔ request.Malformed)
      (answered : next.answers = (request, response) :: s.answers)
      (same : next.inProgress.Perm s.inProgress)
  | entered (request : Request) (arrived : arrives e = [request]) (named : request.Named)
      (fresh : request ∉ s.inProgress) (unanswered : next.answers = s.answers)
      (more : next.inProgress.Perm (request :: s.inProgress))
  | stayed (arrived : arrives e = []) (unanswered : next.answers = s.answers)
      (same : next.inProgress.Perm s.inProgress)
  | left (request : Request) (response : Response) (arrived : arrives e = [])
      (good : response.status ≠ .badRequest)
      (answered : next.answers = (request, response) :: s.answers)
      (fewer : (request :: next.inProgress).Perm s.inProgress)

theorem Acquired.handled {s next : State} {request : Request} {connects : Bool}
    {what : Exception → Text} (acquired : s.Acquired request connects what next) :
    next.answers = (request, failure what .sqlException) :: s.answers ∧
        next.inProgress = s.inProgress ∨
      next.answers = s.answers ∧ next.inProgress.Perm (request :: s.inProgress) := by
  cases acquired with
  | idle conn rest stocked => exact .inr ⟨rfl, List.Perm.refl _⟩
  | created onDemand connected => exact .inr ⟨rfl, List.Perm.refl _⟩
  | threw onDemand failed => exact .inl ⟨rfl, rfl⟩
  | waits empty full =>
      refine .inr ⟨rfl, ?_⟩
      simp only [inProgress, List.append_assoc, List.cons_append]
      exact List.perm_middle

theorem wake_inProgress {lent blocked woken : List Request} {waiter : Request}
    (member : waiter ∈ blocked) :
    (lent ++ blocked.erase waiter ++ (waiter :: woken)).Perm (lent ++ blocked ++ woken) := by
  simp only [List.append_assoc]
  apply List.Perm.append_left
  calc
    List.Perm (blocked.erase waiter ++ (waiter :: woken))
        (waiter :: (blocked.erase waiter ++ woken)) := List.perm_middle
    List.Perm _ (blocked ++ woken) := (List.perm_cons_erase member).symm.append_right woken

theorem lent_inProgress {lent : List (Request × Nat)} {blocked woken : List Request}
    {request : Request} {conn : Nat} (held : (request, conn) ∈ lent) :
    (request :: ((lent.erase (request, conn)).map Prod.fst ++ blocked ++ woken)).Perm
      (lent.map Prod.fst ++ blocked ++ woken) :=
  (((List.perm_cons_erase held).map Prod.fst).symm.append_right blocked).append_right woken

theorem giveBack_inProgress {s next : System Request} {request : Request} {conn : Nat}
    {notified : Option Request} (held : (request, conn) ∈ s.lent)
    (gave : s.giveBack request conn notified = some next) :
    (request :: (next.lent.map Prod.fst ++ next.blocked ++ next.woken)).Perm
      (s.lent.map Prod.fst ++ s.blocked ++ s.woken) := by
  rcases giveBack_cases gave with ⟨_, rfl⟩ | ⟨waiter, blocked, rfl⟩
  · exact lent_inProgress held
  · exact ((wake_inProgress blocked).cons request).trans (lent_inProgress held)

theorem failure_internalServerError (what : Exception → Text) (exception : Exception) :
    (failure what exception).status = .internalServerError := by
  cases exception <;> rfl

theorem step_handled {s next : State} {e : Event} (possible : s.step e = some next) :
    s.Handled e next := by
  have bad (what : Exception → Text) (exception : Exception) :
      (failure what exception).status ≠ .badRequest := by
    rw [failure_internalServerError]
    decide
  cases stepped possible with
  | refused request connects what response refusal =>
      exact .refused request _ rfl (Request.refusal_status refusal).1 rfl (List.Perm.refl _)
  | arrived request connects what fresh named =>
      rcases (acquired s request connects what).handled with
        ⟨answered, same⟩ | ⟨unanswered, more⟩
      · exact .refused request _ rfl (by simp [bad, named.not_malformed]) answered
          (List.Perm.of_eq same)
      · exact .entered request rfl named fresh unanswered more
  | retried request connects what woken =>
      -- the request stands among the woken ones before, and at the front after
      have back : (request :: (s.clients.lent.map Prod.fst ++ s.clients.blocked ++
          s.clients.woken.erase request)).Perm s.inProgress :=
        List.perm_middle.symm.trans ((List.perm_cons_erase woken).symm.append_left _)
      rcases (acquired _ request connects what).handled with
        ⟨answered, same⟩ | ⟨unanswered, more⟩
      · refine .left request _ rfl (bad what _) answered ?_
        rw [same]
        exact back
      · exact .stayed rfl unanswered (more.trans back)
  | woke request blocked => exact .stayed rfl rfl (wake_inProgress blocked)
  | returned request conn env fuel notified clients store relayAmount held outcome gave =>
      exact .left request _ rfl (by simp) rfl (giveBack_inProgress held gave)
  | failed request conn env fuel notified store exception held outcome =>
      exact .left request _ rfl (bad _ _) rfl (lent_inProgress held)

/-- The requests that have come in are those answered and those in progress. -/
def Accounted (s : State) (arrived : List Request) : Prop :=
  (s.answers.map Prod.fst ++ s.inProgress).Perm arrived

theorem step_accounted (s : State) (e : Event) (next : State) (arrived : List Request)
    (accounted : s.Accounted arrived) (stepped : s.step e = some next) :
    next.Accounted (arrived ++ arrives e) := by
  unfold Accounted at accounted ⊢
  cases step_handled stepped with
  | refused request response came fits answered same =>
      rw [came, answered]
      calc
        List.Perm (request :: (s.answers.map Prod.fst ++ next.inProgress))
            (request :: (s.answers.map Prod.fst ++ s.inProgress)) := (same.append_left _).cons _
        List.Perm _ (request :: arrived) := accounted.cons _
        List.Perm _ (arrived ++ [request]) := (List.perm_append_singleton _ _).symm
  | entered request came named fresh unanswered more =>
      rw [came, unanswered]
      calc
        List.Perm (s.answers.map Prod.fst ++ next.inProgress)
            (s.answers.map Prod.fst ++ request :: s.inProgress) := more.append_left _
        List.Perm _ (request :: (s.answers.map Prod.fst ++ s.inProgress)) := List.perm_middle
        List.Perm _ (request :: arrived) := accounted.cons _
        List.Perm _ (arrived ++ [request]) := (List.perm_append_singleton _ _).symm
  | stayed came unanswered same =>
      rw [came, unanswered, List.append_nil]
      exact (same.append_left _).trans accounted
  | left request response came good answered fewer =>
      rw [came, answered, List.append_nil]
      calc
        List.Perm (request :: (s.answers.map Prod.fst ++ next.inProgress))
            (s.answers.map Prod.fst ++ request :: next.inProgress) := List.perm_middle.symm
        List.Perm _ (s.answers.map Prod.fst ++ s.inProgress) := fewer.append_left _
        List.Perm _ arrived := accounted

/-- The requests in progress are different ones and name their files, and exactly the malformed
ones are answered as bad requests. -/
structure Orderly (s : State) : Prop where
  distinct : s.inProgress.Nodup
  named : ∀ request ∈ s.inProgress, request.Named
  refused : ∀ request answer, (request, answer) ∈ s.answers →
    (answer.status = .badRequest ↔ request.Malformed)

theorem init_orderly (poolSize : Nat) (store : Store) : (init poolSize store).Orderly where
  distinct := List.nodup_nil
  named := fun _ member => nomatch member
  refused := fun _ _ member => nomatch member

theorem step_orderly (s : State) (e : Event) (next : State) (orderly : s.Orderly)
    (stepped : s.step e = some next) : next.Orderly := by
  obtain ⟨distinct, named, refused⟩ := orderly
  have further {request : Request} {answer : Response}
      (fits : answer.status = .badRequest ↔ request.Malformed)
      (answered : next.answers = (request, answer) :: s.answers) :
      ∀ other response, (other, response) ∈ next.answers →
        (response.status = .badRequest ↔ other.Malformed) := by
    intro other response member
    rw [answered, List.mem_cons] at member
    rcases member with same | before
    · cases same
      exact fits
    · exact refused other response before
  cases step_handled stepped with
  | refused request response came fits answered same =>
      exact ⟨same.nodup_iff.mpr distinct, fun other member => named other (same.mem_iff.mp member),
        further fits answered⟩
  | entered request came isNamed fresh unanswered more =>
      refine ⟨more.nodup_iff.mpr (List.nodup_cons.mpr ⟨fresh, distinct⟩), ?_, by rwa [unanswered]⟩
      intro other member
      rcases List.mem_cons.mp (more.mem_iff.mp member) with rfl | before
      · exact isNamed
      · exact named other before
  | stayed came unanswered same =>
      exact ⟨same.nodup_iff.mpr distinct, fun other member => named other (same.mem_iff.mp member),
        by rwa [unanswered]⟩
  | left request response came good answered fewer =>
      have all := List.nodup_cons.mp (fewer.nodup_iff.mpr distinct)
      have isNamed := named request (fewer.mem_iff.mp (List.mem_cons_self ..))
      refine ⟨all.2, fun other member => ?_, further (by simp [good, isNamed.not_malformed]) answered⟩
      exact named other (fewer.mem_iff.mp (List.mem_cons_of_mem _ member))

end State

end RelayDev.Server
