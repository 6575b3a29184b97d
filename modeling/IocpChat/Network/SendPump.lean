import IocpChat.Network.SessionSend

/-!
# The send pump

Between two calls, `_isSending`, `_sendEvent` and `_sendQueue` say together
whether a `WSASend` is outstanding.  Every branch of `RegisterSend` and
`ProcessSend` keeps that, except the one that a recoverable error of `WSASend`
takes: there nobody holds the pump any more, and nobody can take it.

`SendRequests` records which buffers each `WSASend` was given.
-/

namespace IocpChat

open TransitionSystem

/-- The buffers that `RegisterSend` has just gathered, by thread, and those of
the requests that are outstanding. -/
structure SendRequests (Thread : Type) where
  gathered : Thread → List SendBufferRef
  requests : List (List SendBufferRef)

namespace SendRequests

variable {Thread : Type} [DecidableEq Thread]

def none : SendRequests Thread :=
  { gathered := fun _ => []
    requests := [] }

def advance (state : SessionSend Thread) (thread : Thread)
    (result : WSASendResult) (history : SendRequests Thread) :
    SendRequests Thread :=
  match state.pcs thread with
  | .gather =>
      { history with
        gathered := Function.update history.gathered thread
          (state.sendQueue.take SessionSend.maxGather) }
  | .post _ =>
      match result with
      | .accepted =>
          { history with
            requests := history.requests ++ [history.gathered thread] }
      | _ => history
  | _ => history

def record (state : SessionSend Thread) :
    SendAction Thread → SendRequests Thread → SendRequests Thread
  | .advance thread result, history => history.advance state thread result
  | .complete _ index _, history =>
      { history with requests := history.requests.eraseIdx index }
  | _, history => history

end SendRequests

namespace SessionSend

def recorded (Thread : Type) [DecidableEq Thread] :
    Machine (SessionSend Thread × SendRequests Thread) (SendAction Thread) :=
  (machine Thread).recording .none SendRequests.record

variable {Thread : Type}

/-- What holds of a connected session between two calls. -/
structure PumpSound (state : SessionSend Thread)
    (history : SendRequests Thread) : Prop where
  sending_iff : state.isSending = true ↔ state.outstanding.length = 1
  owner_iff : state.eventOwner = true ↔ state.outstanding.length = 1
  buffers : state.eventBuffers = history.requests.flatten
  drained : state.outstanding = [] → state.sendQueue = []

/-- No `WSASend` fails with a recoverable error. -/
def NoRecoverableError (pair : SessionSend Thread × SendRequests Thread) :
    SendAction Thread → Prop
  | .advance thread result =>
      ∀ wsaBufs, pair.1.pcs thread = .post wsaBufs →
        result ≠ .recoverableError
  | _ => True

/-- The thread is about to disconnect the session, and does nothing else
before that. -/
def Doomed : SendPc → Prop
  | .postFailed => True
  | .brokenConnection => True
  | .processSend _ numOfBytes => numOfBytes = 0
  | _ => False

/-- `_sendEvent.owner` is set by this thread. -/
def HoldsOwner : SendPc → Prop
  | .gather => True
  | .post _ => True
  | _ => False

/-- The event accounts for the request that is outstanding or about to be. -/
structure Accounted (state : SessionSend Thread)
    (history : SendRequests Thread) : Prop where
  requests : history.requests =
    if state.outstanding = [] then [] else [state.eventBuffers]
  gathered : ∀ thread wsaBufs, state.pcs thread = .post wsaBufs →
    history.gathered thread = state.eventBuffers
  owner : state.eventOwner = true →
    state.outstanding ≠ [] ∨ ∃ thread, HoldsOwner (state.pcs thread)

/-- Somebody disconnects the session, or the pump is in one party's hands and
the event accounts for it. -/
def Watched (state : SessionSend Thread) (history : SendRequests Thread) :
    Prop :=
  (∃ thread, Doomed (state.pcs thread)) ∨
    Held state ∧ Accounted state history

/-- The program counters at which a thread leaves the pump alone. -/
def LeavesPump : SendPc → Prop
  | .idle => True
  | .send _ => True
  | .enqueue _ => True
  | .overflow => True
  | .processSend _ numOfBytes => numOfBytes = 0
  | .brokenConnection => True
  | _ => False

/-- Nobody holds the pump and everybody believes that somebody does. -/
structure Stalled (state : SessionSend Thread) : Prop where
  sending : state.isSending = true
  nothing : state.outstanding = []
  outside : ∀ thread, LeavesPump (state.pcs thread)

/-- Between two calls of a connected session, what is watched is sound. -/
theorem Watched.pumpSound {state : SessionSend Thread}
    {history : SendRequests Thread} (watched : Watched state history)
    (connected : state.connected = true)
    (idle : ∀ thread, state.pcs thread = .idle) :
    PumpSound state history := by
  rcases watched with ⟨thread, doomed⟩ | ⟨⟨pump, inv, kept⟩, accounted⟩
  · rw [idle thread] at doomed
    cases doomed
  · have requests := accounted.requests
    cases pump with
    | free =>
        obtain ⟨notSending, outstanding, noBuffers, empty, _⟩ := inv.owned
        rw [outstanding, if_pos rfl] at requests
        have noOwner : state.eventOwner = false := by
          by_contra set
          rcases accounted.owner (Bool.not_eq_false _ ▸ set) with
            some_ | ⟨thread, holds⟩
          · exact some_ outstanding
          · rw [idle thread] at holds
            cases holds
        constructor
        · simp [notSending, outstanding]
        · simp [noOwner, outstanding]
        · rw [noBuffers, requests]
          rfl
        · exact fun _ => empty
    | request bytes =>
        obtain ⟨sending, outstanding, _, _, hasOwner⟩ := inv.owned
        rw [outstanding, if_neg (List.cons_ne_nil _ _)] at requests
        constructor
        · simp [sending, outstanding]
        · simp [hasOwner, outstanding]
        · rw [requests]
          simp
        · simp [outstanding]
    | stranded =>
        rw [kept rfl] at connected
        cases connected
    | thread owner =>
        have pumps := (inv.pumps_iff owner).mpr rfl
        rw [idle owner] at pumps
        cases pumps

theorem Stalled.not_pumpSound {state : SessionSend Thread}
    {history : SendRequests Thread} (stalled : Stalled state) :
    ¬PumpSound state history := by
  intro sound
  have one := sound.sending_iff.mp stalled.sending
  rw [stalled.nothing] at one
  cases one

variable [DecidableEq Thread]

/-- A session is not connected again. -/
theorem connected_before {state next : SessionSend Thread}
    {action : SendAction Thread} (stepped : state.step action = some next)
    (connected : next.connected = true) : state.connected = true := by
  cases action with
  | call thread call =>
      simp only [step] at stepped
      split at stepped <;> cases stepped
      exact connected
  | disconnect =>
      cases stepped
      cases connected
  | complete thread index numOfBytes =>
      simp only [step, complete] at stepped
      repeat' split at stepped
      all_goals cases stepped
      all_goals exact connected
  | advance thread result =>
      simp only [step, advance] at stepped
      repeat' split at stepped
      all_goals cases stepped
      all_goals first | exact connected | cases connected

theorem advance_pcs_other {state next : SessionSend Thread}
    {thread other : Thread} {result : WSASendResult}
    (different : other ≠ thread)
    (stepped : state.advance thread result = some next) :
    next.pcs other = state.pcs other := by
  simp only [advance] at stepped
  repeat' split at stepped
  all_goals cases stepped
  all_goals exact goto_pcs_other different

/-- Whoever is about to disconnect the session still is, until it does. -/
theorem doomed_step {state next : SessionSend Thread} {thread : Thread}
    {action : SendAction Thread} (doomed : Doomed (state.pcs thread))
    (connected : next.connected = true)
    (stepped : state.step action = some next) : Doomed (next.pcs thread) := by
  have busy : state.pcs thread ≠ .idle := by
    intro idle
    rw [idle] at doomed
    cases doomed
  cases action with
  | call caller call =>
      simp only [step] at stepped
      split at stepped
      · rename_i idle
        cases stepped
        rw [goto_pcs_other (by rintro rfl; exact busy idle)]
        exact doomed
      · cases stepped
  | disconnect =>
      cases stepped
      exact doomed
  | complete taker index numOfBytes =>
      simp only [step, complete] at stepped
      split at stepped
      · cases stepped
      · rename_i idle
        have different : thread ≠ taker := by
          rintro rfl
          exact idle busy
        repeat' split at stepped
        all_goals cases stepped
        · exact doomed
        · rw [goto_pcs_other different]
          exact doomed
  | advance mover result =>
      by_cases own : thread = mover
      · subst own
        simp only [step] at stepped
        cases at_ : state.pcs thread with
        | postFailed =>
            simp only [advance, at_] at stepped
            cases stepped
            cases connected
        | brokenConnection =>
            simp only [advance, at_] at stepped
            cases stepped
            cases connected
        | processSend request numOfBytes =>
            rw [at_] at doomed
            have none_ : numOfBytes = 0 := doomed
            simp only [advance, at_, none_, if_true] at stepped
            cases stepped
            simp [goto, Doomed]
        | _ =>
            rw [at_] at doomed
            cases doomed
      · rw [advance_pcs_other own stepped]
        exact doomed

/-- A step that the event and the requests do not notice. -/
theorem Accounted.bystander {state shared : SessionSend Thread}
    {history : SendRequests Thread} (accounted : Accounted state history)
    {thread : Thread} {pc : SendPc} (same : shared.pcs = state.pcs)
    (outside : ¬HoldsOwner (state.pcs thread))
    (stays : ∀ wsaBufs, pc ≠ .post wsaBufs)
    (outstanding : shared.outstanding = state.outstanding)
    (buffers : shared.eventBuffers = state.eventBuffers)
    (owner : shared.eventOwner = state.eventOwner) :
    Accounted (shared.goto thread pc) history where
  requests := by
    change history.requests =
      if shared.outstanding = [] then [] else [shared.eventBuffers]
    rw [outstanding, buffers]
    exact accounted.requests
  gathered := by
    intro other wsaBufs posts
    change history.gathered other = shared.eventBuffers
    rw [buffers]
    by_cases own : other = thread
    · subst own
      rw [goto_pcs_self] at posts
      exact absurd posts (stays wsaBufs)
    · rw [goto_pcs_other own, same] at posts
      exact accounted.gathered other wsaBufs posts
  owner := by
    intro set
    change shared.eventOwner = true at set
    rw [owner] at set
    rcases accounted.owner set with some_ | ⟨other, holds⟩
    · left
      change shared.outstanding ≠ []
      rw [outstanding]
      exact some_
    · right
      refine ⟨other, ?_⟩
      have different : other ≠ thread := by
        rintro rfl
        exact outside holds
      rw [goto_pcs_other different, same]
      exact holds

omit [DecidableEq Thread] in
/-- Nobody else is at a `WSASend` while this thread owns the pump. -/
theorem Inv.onlyPoster {state : SessionSend Thread} {pump : Pump Thread}
    (inv : Inv state pump) {thread other : Thread}
    (pumps : Pumps (state.pcs thread)) {wsaBufs : List (List UInt8)}
    (posts : state.pcs other = .post wsaBufs) : other = thread := by
  have owns := (inv.pumps_iff other).mp (by rw [posts]; trivial)
  rw [(inv.pumping pumps).1] at owns
  exact (Pump.thread.inj owns).symm

omit [DecidableEq Thread] in
/-- While a thread owns the pump and is not between setting the owner of the
event and `WSASend`, the event has none. -/
theorem Accounted.noOwner {state : SessionSend Thread}
    {history : SendRequests Thread} (accounted : Accounted state history)
    {pump : Pump Thread} (inv : Inv state pump) {thread : Thread}
    (pumps : Pumps (state.pcs thread))
    (without : ¬HoldsOwner (state.pcs thread)) : state.eventOwner = false := by
  obtain ⟨owns, _, nothing, _⟩ := inv.pumping pumps
  by_contra set
  rcases accounted.owner (Bool.not_eq_false _ ▸ set) with
    some_ | ⟨other, holds⟩
  · exact some_ nothing
  · have otherPumps : Pumps (state.pcs other) := by
      cases at_ : state.pcs other <;> rw [at_] at holds <;> trivial
    have otherOwns := (inv.pumps_iff other).mp otherPumps
    rw [owns] at otherOwns
    obtain rfl := Pump.thread.inj otherOwns
    exact without holds

/-- The owner of the pump goes on without a request. -/
theorem Accounted.ownStep {state shared : SessionSend Thread}
    {history : SendRequests Thread} (accounted : Accounted state history)
    {pump : Pump Thread} (inv : Inv state pump) {thread : Thread}
    {pc : SendPc} (same : shared.pcs = state.pcs)
    (pumps : Pumps (state.pcs thread))
    (nothing : shared.outstanding = [])
    (notPost : ∀ wsaBufs, pc ≠ .post wsaBufs)
    (owner : shared.eventOwner = true → HoldsOwner pc) :
    Accounted (shared.goto thread pc) history where
  requests := by
    have requests := accounted.requests
    rw [(inv.pumping pumps).2.2.1, if_pos rfl] at requests
    change history.requests =
      if shared.outstanding = [] then [] else [shared.eventBuffers]
    rw [requests, nothing, if_pos rfl]
  gathered := by
    intro other wsaBufs posts
    by_cases own : other = thread
    · subst own
      rw [goto_pcs_self] at posts
      exact absurd posts (notPost wsaBufs)
    · rw [goto_pcs_other own, same] at posts
      exact absurd (inv.onlyPoster pumps posts) own
  owner := by
    intro set
    refine Or.inr ⟨thread, ?_⟩
    rw [goto_pcs_self]
    exact owner set

/-- `RegisterSend` puts what it gathers into the event. -/
theorem Accounted.gather {state next : SessionSend Thread}
    {history : SendRequests Thread} (accounted : Accounted state history)
    {pump : Pump Thread} (inv : Inv state pump) {thread : Thread}
    {result : WSASendResult} (at_ : state.pcs thread = .gather)
    (stepped : state.advance thread result = some next) :
    Accounted next (history.advance state thread result) := by
  have pumps : Pumps (state.pcs thread) := by
    rw [at_]
    trivial
  obtain ⟨_, _, nothing, pumping⟩ := inv.pumping pumps
  rw [at_] at pumping
  obtain ⟨noBuffers, queued, _, _⟩ := pumping
  have requests := accounted.requests
  rw [nothing, if_pos rfl] at requests
  let gathered := state.sendQueue.take maxGather
  have someGathered : gathered ≠ [] := by
    intro empty
    rcases List.take_eq_nil_iff.mp empty with zero | empty
    · cases zero
    · exact queued empty
  simp only [advance, at_] at stepped
  split at stepped
  · cases stepped
  · cases stepped
    simp only [SendRequests.advance, at_]
    refine ⟨?_, ?_, ?_⟩
    · change history.requests = if state.outstanding = [] then [] else _
      rw [nothing, if_pos rfl]
      exact requests
    · intro other wsaBufs posts
      have own : other = thread := by
        by_contra different
        rw [goto_pcs_other different] at posts
        exact different (inv.onlyPoster pumps posts)
      subst own
      change Function.update history.gathered other gathered other =
        state.eventBuffers ++ gathered
      rw [Function.update_self, noBuffers, List.nil_append]
    · intro _
      refine Or.inr ⟨thread, ?_⟩
      rw [goto_pcs_self]
      trivial

/-- `WSASend` is accepted with the buffers of the event. -/
theorem Accounted.post {state next : SessionSend Thread}
    {history : SendRequests Thread} (accounted : Accounted state history)
    {pump : Pump Thread} (inv : Inv state pump) {thread : Thread}
    {wsaBufs : List (List UInt8)} (at_ : state.pcs thread = .post wsaBufs)
    (stepped : state.advance thread .accepted = some next) :
    Accounted next (history.advance state thread .accepted) := by
  have pumps : Pumps (state.pcs thread) := by
    rw [at_]
    trivial
  have nothing := (inv.pumping pumps).2.2.1
  have requests := accounted.requests
  rw [nothing, if_pos rfl] at requests
  have same := accounted.gathered thread wsaBufs at_
  simp only [advance, at_] at stepped
  cases stepped
  simp only [SendRequests.advance, at_]
  have some_ : state.outstanding ++ [wsaBufs.flatten] ≠ [] :=
    List.append_ne_nil_of_right_ne_nil _ (List.cons_ne_nil _ _)
  refine ⟨?_, ?_, fun _ => Or.inl some_⟩
  · change history.requests ++ [history.gathered thread] =
      if state.outstanding ++ [wsaBufs.flatten] = [] then []
      else [state.eventBuffers]
    rw [if_neg some_, requests, same]
    rfl
  · intro other otherBufs posts
    by_cases own : other = thread
    · subst own
      rw [goto_pcs_self] at posts
      cases posts
    · rw [goto_pcs_other own] at posts
      exact absurd (inv.onlyPoster pumps posts) own

/-- Only a thread at `WSASend` looks at its outcome. -/
theorem advance_result {state : SessionSend Thread} {thread : Thread}
    (result : WSASendResult)
    (elsewhere : ∀ wsaBufs, state.pcs thread ≠ .post wsaBufs) :
    state.advance thread result = state.advance thread .accepted := by
  simp only [advance]
  cases at_ : state.pcs thread with
  | post wsaBufs => exact absurd at_ (elsewhere wsaBufs)
  | _ => rfl

/-- A step of a thread while the pump is in one party's hands. -/
theorem advance_watched {state next : SessionSend Thread}
    {history : SendRequests Thread} {pump : Pump Thread}
    (inv : Inv state pump)
    (kept : pump = .stranded → state.connected = false)
    (accounted : Accounted state history) {thread : Thread}
    {result : WSASendResult} (connected : next.connected = true)
    (noError : NoRecoverableError (state, history) (.advance thread result))
    (stepped : state.advance thread result = some next) :
    Watched next (history.advance state thread result) := by
  have held : (∀ wsaBufs, state.pcs thread ≠ .post wsaBufs) → Held next := by
    intro elsewhere
    rw [advance_result result elsewhere] at stepped
    exact advance_inv inv kept stepped
  have expected := inv.expected thread
  cases at_ : state.pcs thread with
  | idle => simp [advance, at_] at stepped
  | send call =>
      have kept_ := held (by rw [at_]; simp)
      have outside : ¬HoldsOwner (state.pcs thread) := by
        rw [at_]
        exact id
      simp only [advance, at_] at stepped
      simp only [SendRequests.advance, at_]
      refine Or.inr ⟨kept_, ?_⟩
      split at stepped <;> cases stepped <;>
        exact accounted.bystander rfl outside (by simp) rfl rfl rfl
  | enqueue call =>
      have kept_ := held (by rw [at_]; simp)
      have outside : ¬HoldsOwner (state.pcs thread) := by
        rw [at_]
        exact id
      simp only [advance, at_] at stepped
      simp only [SendRequests.advance, at_]
      refine Or.inr ⟨kept_, ?_⟩
      repeat' split at stepped
      all_goals cases stepped
      all_goals exact accounted.bystander rfl outside (by simp) rfl rfl rfl
  | overflow =>
      simp only [advance, at_] at stepped
      cases stepped
      cases connected
  | registerSend =>
      have kept_ := held (by rw [at_]; simp)
      have pumps : Pumps (state.pcs thread) := by
        rw [at_]
        trivial
      have nothing := (inv.pumping pumps).2.2.1
      simp only [advance, at_] at stepped
      simp only [SendRequests.advance, at_]
      refine Or.inr ⟨kept_, ?_⟩
      split at stepped
      · rename_i lost
        cases stepped
        change state.connected = true at connected
        rw [lost] at connected
        cases connected
      · cases stepped
        exact accounted.ownStep inv rfl pumps nothing (by simp) fun _ => trivial
  | gather =>
      have kept_ := held (by rw [at_]; simp)
      exact Or.inr ⟨kept_, accounted.gather inv at_ stepped⟩
  | nothingGathered =>
      rw [at_] at expected
      cases expected
  | clearOwner =>
      rw [at_] at expected
      cases expected
  | post wsaBufs =>
      cases result with
      | accepted =>
          exact Or.inr ⟨advance_inv inv kept stepped,
            accounted.post inv at_ stepped⟩
      | recoverableError => exact absurd rfl (noError wsaBufs at_)
      | fatalError =>
          simp only [advance, at_] at stepped
          cases stepped
          refine Or.inl ⟨thread, ?_⟩
          rw [goto_pcs_self]
          trivial
  | postFailed =>
      rw [at_] at expected
      cases expected
  | abandon =>
      rw [at_] at expected
      cases expected
  | processSend request numOfBytes =>
      have kept_ := held (by rw [at_]; simp)
      have pumps : Pumps (state.pcs thread) := by
        rw [at_]
        trivial
      obtain ⟨_, _, nothing, pumping⟩ := inv.pumping pumps
      rw [at_] at pumping
      have someBytes : ¬numOfBytes = 0 := Nat.ne_of_gt pumping.2.2.1
      simp only [advance, at_, someBytes, if_false] at stepped
      simp only [SendRequests.advance, at_]
      refine Or.inr ⟨kept_, ?_⟩
      cases stepped
      exact accounted.ownStep inv rfl pumps nothing (by simp) (by simp)
  | consume request numOfBytes =>
      have kept_ := held (by rw [at_]; simp)
      have pumps : Pumps (state.pcs thread) := by
        rw [at_]
        trivial
      have nothing := (inv.pumping pumps).2.2.1
      have noOwner := accounted.noOwner inv pumps (by rw [at_]; exact id)
      simp only [advance, at_] at stepped
      simp only [SendRequests.advance, at_]
      refine Or.inr ⟨kept_, ?_⟩
      cases stepped
      refine accounted.ownStep inv rfl pumps nothing (by simp) ?_
      intro set
      rw [noOwner] at set
      cases set
  | requeue uncompleted nextOffset =>
      have kept_ := held (by rw [at_]; simp)
      have pumps : Pumps (state.pcs thread) := by
        rw [at_]
        trivial
      have nothing := (inv.pumping pumps).2.2.1
      have noOwner := accounted.noOwner inv pumps (by rw [at_]; exact id)
      have noOwner_ : state.eventOwner ≠ true := by
        rw [noOwner]
        simp
      simp only [advance, at_] at stepped
      simp only [SendRequests.advance, at_]
      refine Or.inr ⟨kept_, ?_⟩
      repeat' split at stepped
      all_goals cases stepped
      all_goals
        refine accounted.ownStep inv rfl pumps nothing (by simp) ?_
        exact fun set => absurd set noOwner_
  | brokenConnection =>
      rw [at_] at expected
      cases expected

/-- A completion is that of the one outstanding request. -/
theorem complete_eq {state next : SessionSend Thread} {pump : Pump Thread}
    (inv : Inv state pump) {thread : Thread} {index numOfBytes : Nat}
    (stepped : state.complete thread index numOfBytes = some next) :
    state.pcs thread = .idle ∧ index = 0 ∧ ∃ request,
      state.outstanding = [request] ∧
      next = { state with
        outstanding := []
        eventOwner := false }.goto thread
          (.processSend request numOfBytes) := by
  unfold complete at stepped
  split at stepped
  · cases stepped
  · split at stepped
    · cases stepped
    · rename_i idle _ request found
      cases pump with
      | request bytes =>
          obtain ⟨_, outstanding, _, _, hasOwner⟩ := inv.owned
          rw [outstanding, List.getElem?_singleton] at found
          split at found
          · rename_i first
            cases found
            subst first
            simp only [hasOwner, Bool.true_eq_false, if_false, outstanding,
              List.eraseIdx_cons_zero] at stepped
            split at stepped
            · cases stepped
            · cases stepped
              exact ⟨not_not.mp idle, rfl, request, outstanding, rfl⟩
          · cases found
      | free =>
          rw [inv.owned.2.1] at found
          cases found
      | thread owner =>
          rw [inv.owned.2.1] at found
          cases found
      | stranded =>
          rw [inv.owned.2.1] at found
          cases found

/-- The completion takes the request out of the account. -/
theorem complete_accounted {state next : SessionSend Thread}
    {history : SendRequests Thread} {pump : Pump Thread}
    (inv : Inv state pump) (accounted : Accounted state history)
    {thread : Thread} {index numOfBytes : Nat}
    (stepped : state.complete thread index numOfBytes = some next) :
    Accounted next
      { history with requests := history.requests.eraseIdx index } := by
  obtain ⟨_, rfl, request, outstanding, rfl⟩ := complete_eq inv stepped
  have requests := accounted.requests
  rw [outstanding, if_neg (List.cons_ne_nil _ _)] at requests
  refine ⟨?_, ?_, nofun⟩
  · rw [requests]
    rfl
  · intro other wsaBufs posts
    by_cases own : other = thread
    · subst own
      rw [goto_pcs_self] at posts
      cases posts
    · rw [goto_pcs_other own] at posts
      exact accounted.gathered other wsaBufs posts

theorem step_watched {state next : SessionSend Thread}
    {history : SendRequests Thread} {action : SendAction Thread}
    (watched : Watched state history) (connected : next.connected = true)
    (noError : NoRecoverableError (state, history) action)
    (stepped : state.step action = some next) :
    Watched next (SendRequests.record state action history) := by
  rcases watched with ⟨thread, doomed⟩ | ⟨⟨pump, inv, kept⟩, accounted⟩
  · exact Or.inl ⟨thread, doomed_step doomed connected stepped⟩
  · cases action with
    | call thread call =>
        have regular : Regular state (.call thread call) := trivial
        refine Or.inr ⟨step_inv inv kept regular stepped, ?_⟩
        simp only [step] at stepped
        split at stepped
        · rename_i idle
          cases stepped
          refine accounted.bystander rfl ?_ nofun rfl rfl rfl
          rw [idle]
          exact id
        · cases stepped
    | disconnect =>
        cases stepped
        cases connected
    | complete thread index numOfBytes =>
        cases numOfBytes with
        | zero =>
            obtain ⟨_, _, request, _, rfl⟩ := complete_eq inv stepped
            refine Or.inl ⟨thread, ?_⟩
            rw [goto_pcs_self]
            rfl
        | succ count =>
            exact Or.inr ⟨complete_inv inv (Nat.succ_pos count) stepped,
              complete_accounted inv accounted stepped⟩
    | advance thread result =>
        exact advance_watched inv kept accounted connected noError stepped

omit [DecidableEq Thread] in
theorem leavesPump_of_not_pumps {pc : SendPc} (outside : ¬Pumps pc)
    (expected : Expected pc) : LeavesPump pc := by
  cases pc <;> first
    | exact expected.elim
    | exact absurd trivial outside
    | trivial

/-- A thread moves outside the pump. -/
theorem Stalled.goto {state shared : SessionSend Thread}
    (stalled : Stalled state) {thread : Thread} {pc : SendPc}
    (same : shared.pcs = state.pcs) (sending : shared.isSending = true)
    (nothing : shared.outstanding = []) (leaves : LeavesPump pc) :
    Stalled (shared.goto thread pc) where
  sending := sending
  nothing := nothing
  outside := by
    have before := stalled.outside
    rw [← same] at before
    exact Threads.forall_update (fun _ => LeavesPump) before leaves

/-- The owner of the pump leaves it to nobody. -/
theorem Inv.stalls {state shared : SessionSend Thread} {pump : Pump Thread}
    (inv : Inv state pump) {thread : Thread} {pc : SendPc}
    (same : shared.pcs = state.pcs)
    (nobody : ∀ other, pump = .thread other → other = thread)
    (sending : shared.isSending = true) (nothing : shared.outstanding = [])
    (leaves : LeavesPump pc) : Stalled (shared.goto thread pc) where
  sending := sending
  nothing := nothing
  outside := by
    intro other
    by_cases own : other = thread
    · subst own
      rw [goto_pcs_self]
      exact leaves
    · rw [goto_pcs_other own, same]
      apply leavesPump_of_not_pumps _ (inv.expected other)
      exact fun pumps => own (nobody other ((inv.pumps_iff other).mp pumps))

/-- After a recoverable error the pump is nobody's. -/
theorem stalled_of_recoverableError {state next : SessionSend Thread}
    {pump : Pump Thread} (inv : Inv state pump) {thread : Thread}
    {wsaBufs : List (List UInt8)} (at_ : state.pcs thread = .post wsaBufs)
    (stepped : state.advance thread .recoverableError = some next) :
    Stalled next := by
  have pumps : Pumps (state.pcs thread) := by
    rw [at_]
    trivial
  obtain ⟨owns, sending, nothing, _⟩ := inv.pumping pumps
  simp only [advance, at_] at stepped
  cases stepped
  refine inv.stalls rfl ?_ sending nothing trivial
  intro other otherOwns
  rw [owns] at otherOwns
  exact (Pump.thread.inj otherOwns).symm

/-- Nobody takes the pump up again. -/
theorem stalled_step {state next : SessionSend Thread}
    {action : SendAction Thread} (stalled : Stalled state)
    (stepped : state.step action = some next) : Stalled next := by
  have sending := stalled.sending
  have nothing := stalled.nothing
  cases action with
  | call thread call =>
      simp only [step] at stepped
      split at stepped <;> cases stepped
      exact stalled.goto rfl sending nothing trivial
  | disconnect =>
      cases stepped
      exact { stalled with }
  | complete thread index numOfBytes =>
      simp [step, complete, nothing] at stepped
  | advance thread result =>
      have outside := stalled.outside thread
      simp only [step] at stepped
      cases at_ : state.pcs thread with
      | idle => simp [advance, at_] at stepped
      | send call =>
          simp only [advance, at_] at stepped
          split at stepped <;> cases stepped <;>
            exact stalled.goto rfl sending nothing trivial
      | enqueue call =>
          simp only [advance, at_, sending, if_true] at stepped
          split at stepped <;> cases stepped
          · exact stalled.goto rfl sending nothing trivial
          · exact stalled.goto rfl rfl nothing trivial
      | overflow =>
          simp only [advance, at_] at stepped
          cases stepped
          exact stalled.goto rfl sending nothing trivial
      | processSend request numOfBytes =>
          rw [at_] at outside
          have none_ : numOfBytes = 0 := outside
          simp only [advance, at_, none_, if_true] at stepped
          cases stepped
          exact stalled.goto rfl sending nothing trivial
      | brokenConnection =>
          simp only [advance, at_] at stepped
          cases stepped
          exact stalled.goto rfl sending nothing trivial
      | _ =>
          rw [at_] at outside
          cases outside

theorem connected_of_run {state final : SessionSend Thread}
    {history finalHistory : SendRequests Thread}
    {actions : List (SendAction Thread)}
    (connected : final.connected = true)
    (replayed : (recorded Thread).run (state, history) actions =
      some (final, finalHistory)) : state.connected = true := by
  induction actions generalizing state history with
  | nil =>
      cases replayed
      exact connected
  | cons action rest induction =>
      simp only [Machine.run, Option.bind_eq_some_iff] at replayed
      obtain ⟨⟨next, nextHistory⟩, recordedStep, restReplayed⟩ := replayed
      obtain ⟨stepped, _⟩ := Machine.recording_step_eq_some_iff.mp recordedStep
      exact connected_before stepped (induction restReplayed)

theorem stalled_run {state final : SessionSend Thread}
    {history finalHistory : SendRequests Thread}
    {actions : List (SendAction Thread)} (stalled : Stalled state)
    (replayed : (recorded Thread).run (state, history) actions =
      some (final, finalHistory)) : Stalled final := by
  induction actions generalizing state history with
  | nil =>
      cases replayed
      exact stalled
  | cons action rest induction =>
      simp only [Machine.run, Option.bind_eq_some_iff] at replayed
      obtain ⟨⟨next, nextHistory⟩, recordedStep, restReplayed⟩ := replayed
      obtain ⟨stepped, _⟩ := Machine.recording_step_eq_some_iff.mp recordedStep
      exact induction (stalled_step stalled stepped) restReplayed

/-- A thread that is about to disconnect the session does not return before. -/
theorem doomed_run {state final : SessionSend Thread}
    {history finalHistory : SendRequests Thread}
    {actions : List (SendAction Thread)} {thread : Thread}
    (doomed : Doomed (state.pcs thread))
    (connected : final.connected = true)
    (replayed : (recorded Thread).run (state, history) actions =
      some (final, finalHistory)) : Doomed (final.pcs thread) := by
  induction actions generalizing state history with
  | nil =>
      cases replayed
      exact doomed
  | cons action rest induction =>
      simp only [Machine.run, Option.bind_eq_some_iff] at replayed
      obtain ⟨⟨next, nextHistory⟩, recordedStep, restReplayed⟩ := replayed
      obtain ⟨stepped, _⟩ := Machine.recording_step_eq_some_iff.mp recordedStep
      have connectedNext := connected_of_run connected restReplayed
      exact induction (doomed_step doomed connectedNext stepped) restReplayed

/-- A run that ends connected and between two calls, from a watched state, ends
soundly exactly if no `WSASend` failed with a recoverable error. -/
theorem watched_run_iff {state final : SessionSend Thread}
    {history finalHistory : SendRequests Thread}
    {actions : List (SendAction Thread)} (watched : Watched state history)
    (replayed : (recorded Thread).run (state, history) actions =
      some (final, finalHistory))
    (connected : final.connected = true)
    (idle : ∀ thread, final.pcs thread = .idle) :
    PumpSound final finalHistory ↔
      (recorded Thread).RunMeets NoRecoverableError (state, history)
        actions := by
  induction actions generalizing state history with
  | nil =>
      cases replayed
      exact iff_of_true (watched.pumpSound connected idle) trivial
  | cons action rest induction =>
      have wholeRun := replayed
      simp only [Machine.run, Option.bind_eq_some_iff] at replayed
      obtain ⟨⟨next, nextHistory⟩, recordedStep, restReplayed⟩ := replayed
      obtain ⟨stepped, rfl⟩ :=
        Machine.recording_step_eq_some_iff.mp recordedStep
      rw [Machine.runMeets_cons recordedStep]
      by_cases noError : NoRecoverableError (state, history) action
      · have connectedNext := connected_of_run connected restReplayed
        have watchedNext := step_watched watched connectedNext noError stepped
        rw [induction watchedNext restReplayed]
        exact (and_iff_right noError).symm
      · refine iff_of_false ?_ fun meets => noError meets.1
        rcases watched with ⟨thread, doomed⟩ | ⟨⟨pump, inv, _⟩, _⟩
        · have stays := doomed_run doomed connected wholeRun
          rw [idle thread] at stays
          cases stays
        · obtain ⟨thread, wsaBufs, at_, rfl⟩ :
              ∃ thread wsaBufs, state.pcs thread = .post wsaBufs ∧
                action = .advance thread .recoverableError := by
            cases action with
            | advance thread result =>
                simp only [NoRecoverableError, not_forall, not_not] at noError
                obtain ⟨wsaBufs, at_, rfl⟩ := noError
                exact ⟨thread, wsaBufs, at_, rfl⟩
            | _ => exact absurd trivial noError
          have stalled := stalled_of_recoverableError inv at_ stepped
          exact (stalled_run stalled restReplayed).not_pumpSound

omit [DecidableEq Thread] in
theorem initial_watched :
    Watched (initial : SessionSend Thread) .none := by
  refine Or.inr ⟨⟨.free, initial_inv, nofun⟩, ?_⟩
  exact
    { requests := rfl
      gathered := fun thread wsaBufs posts => by cases posts
      owner := nofun }

/-- In every run, the pump of a connected session is sound between two calls
exactly if no `WSASend` failed with a recoverable error. -/
theorem run_pumpSound_iff {state : SessionSend Thread}
    {history : SendRequests Thread} {actions : List (SendAction Thread)}
    (replayed : (recorded Thread).run (initial, .none) actions =
      some (state, history))
    (connected : state.connected = true)
    (idle : ∀ thread, state.pcs thread = .idle) :
    PumpSound state history ↔
      (recorded Thread).RunMeets NoRecoverableError (initial, .none)
        actions :=
  watched_run_iff initial_watched replayed connected idle

/-- One `Send`, up to its `WSASend`. -/
def oneSend (result : WSASendResult) : List (SendAction Bool) :=
  [.call true (.single (some [1, 2, 3])),
    .advance true .accepted,
    .advance true .accepted,
    .advance true .accepted,
    .advance true .accepted,
    .advance true result]

theorem oneSend_pumpSound :
    ∃ state history,
      (recorded Bool).run (initial, .none) (oneSend .accepted) =
        some (state, history) ∧
      state.outstanding = [[1, 2, 3]] ∧
      history.requests = [[some [1, 2, 3]]] ∧ PumpSound state history := by
  have meets : ∀ action ∈ oneSend .accepted,
      ∀ pair : SessionSend Bool × SendRequests Bool,
        NoRecoverableError pair action := by
    simp [oneSend, NoRecoverableError]
  obtain ⟨⟨state, history⟩, replayed⟩ :
      ∃ pair, (recorded Bool).run (initial, .none) (oneSend .accepted) =
        some pair :=
    Option.isSome_iff_exists.mp rfl
  have facts : ((recorded Bool).run (initial, .none)
        (oneSend .accepted)).map (fun pair =>
      (pair.1.connected, pair.1.outstanding, pair.2.requests,
        pair.1.pcs true, pair.1.pcs false)) =
      some (true, [[1, 2, 3]], [[some [1, 2, 3]]], .idle, .idle) := rfl
  rw [replayed] at facts
  simp only [Option.map_some, Option.some.injEq, Prod.mk.injEq] at facts
  obtain ⟨connected, outstanding, requests, mover, other⟩ := facts
  have idle : ∀ thread, state.pcs thread = .idle := by
    intro thread
    cases thread with
    | true => exact mover
    | false => exact other
  refine ⟨state, history, replayed, outstanding, requests, ?_⟩
  exact (run_pumpSound_iff replayed connected idle).mpr
    (Machine.RunMeets.of_forall meets)

/-- `WSASend` fails with `WSAEWOULDBLOCK`, and nobody sends any more. -/
theorem oneSend_stalls :
    ∃ state history,
      (recorded Bool).run (initial, .none) (oneSend .recoverableError) =
        some (state, history) ∧
      state.connected = true ∧ (∀ thread, state.pcs thread = .idle) ∧
      state.isSending = true ∧ state.eventOwner = true ∧
      state.outstanding = [] ∧ ¬PumpSound state history := by
  obtain ⟨⟨state, history⟩, replayed⟩ :
      ∃ pair, (recorded Bool).run (initial, .none)
        (oneSend .recoverableError) = some pair :=
    Option.isSome_iff_exists.mp rfl
  have facts : ((recorded Bool).run (initial, .none)
        (oneSend .recoverableError)).map (fun pair =>
      (pair.1.connected, pair.1.isSending, pair.1.eventOwner,
        pair.1.outstanding, pair.1.pcs true, pair.1.pcs false)) =
      some (true, true, true, [], .idle, .idle) := rfl
  rw [replayed] at facts
  simp only [Option.map_some, Option.some.injEq, Prod.mk.injEq] at facts
  obtain ⟨connected, sending, hasOwner, nothing, mover, other⟩ := facts
  have idle : ∀ thread, state.pcs thread = .idle := by
    intro thread
    cases thread with
    | true => exact mover
    | false => exact other
  refine ⟨state, history, replayed, connected, idle, sending, hasOwner,
    nothing, fun sound => ?_⟩
  have one := sound.sending_iff.mp sending
  rw [nothing] at one
  cases one

end SessionSend

end IocpChat
