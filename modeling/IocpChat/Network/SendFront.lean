import IocpChat.Network.SendStream

/-!
# What a session hands to the network

Whatever `WSASend` returns and whatever a completion reports, the bytes the
network takes from the requests of a session are a front of the bytes that
`Send` accepted.  Once a request has failed, no other follows it: either the
session is disconnected, or `_isSending` keeps every thread from the pump.
-/

namespace IocpChat

open TransitionSystem

/-- The program counters of a thread once nothing is sent any more. -/
def SendPc.idles (connected : Bool) : SendPc → Prop
  | idle => True
  | send _ => True
  | enqueue _ => True
  | overflow => True
  | registerSend => connected = false
  | postFailed => True
  | abandon => connected = false
  | processSend _ numOfBytes => numOfBytes = 0
  | brokenConnection => True
  | _ => False

/-- The bytes a completion reports, while the thread that took it accounts for
them. -/
def SendPc.reported : SendPc → List UInt8
  | processSend request numOfBytes => request.take numOfBytes
  | consume request numOfBytes => request.take numOfBytes
  | _ => []

namespace SessionSend

variable {Thread : Type}

/-- Nothing is outstanding, and nobody will post a request again. -/
structure Stopped (state : SessionSend Thread) : Prop where
  nothing : state.outstanding = []
  refuses : state.connected = false ∨ state.isSending = true
  idles : ∀ thread, (state.pcs thread).idles state.connected

/-- The network has taken these bytes: the acknowledged ones, those that a
completion has reported, and some of the request that is outstanding. -/
structure Takes (state : SessionSend Thread) (taken : List UInt8) : Prop where
  acknowledged : state.acknowledged <+: taken
  requested : ∀ request ∈ state.outstanding,
    taken <+: state.acknowledged ++ request
  reported : ∀ thread, (state.pcs thread).reported ≠ [] →
    taken = state.acknowledged ++ (state.pcs thread).reported
  settled : state.outstanding = [] →
    (∀ thread, (state.pcs thread).reported = []) →
    taken = state.acknowledged

/-- What the network takes comes from requests in order, or sending has
stopped. -/
def Sends (state : SessionSend Thread) (taken : List UInt8) : Prop :=
  Held state ∧ Takes state taken ∨
    Stopped state ∧ state.acknowledged <+: taken ∧
      taken <+: state.accepted.flatMap bytes

theorem Inv.disconnect {state : SessionSend Thread} {pump : Pump Thread}
    (inv : Inv state pump) : Inv { state with connected := false } pump :=
  ⟨inv.pumps_iff, inv.expected, owned_disconnected pump inv.owned⟩

/-- What a thread has been told is a front of the line. -/
theorem Inv.reported_front {state : SessionSend Thread} {pump : Pump Thread}
    (inv : Inv state pump) {thread : Thread}
    (reports : (state.pcs thread).reported ≠ []) :
    state.acknowledged ++ (state.pcs thread).reported <+:
      state.accepted.flatMap bytes := by
  have front {request : List UInt8} {numOfBytes : Nat}
      (waits : Waiting state)
      (requested : request = unsent state.sendOffset state.eventBuffers) :
      state.acknowledged ++ request.take numOfBytes <+:
        state.accepted.flatMap bytes := by
    obtain ⟨inside, inLine⟩ := waits
    rw [← inLine.stream, unsent_append inside, ← requested]
    apply (List.prefix_append_right_inj _).mpr
    exact (List.take_prefix ..).trans (List.prefix_append ..)
  cases at_ : state.pcs thread with
  | processSend request numOfBytes =>
      have pumping := (inv.pumping (by rw [at_]; trivial)).2.2.2
      rw [at_] at pumping
      exact front pumping.1 pumping.2.1
  | consume request numOfBytes =>
      have pumping := (inv.pumping (by rw [at_]; trivial)).2.2.2
      rw [at_] at pumping
      exact front pumping.1 pumping.2.1
  | _ =>
      rw [at_] at reports
      exact absurd rfl reports

/-- The network takes a front of what was accepted. -/
theorem Sends.front {state : SessionSend Thread} {taken : List UInt8}
    (sends : Sends state taken) :
    taken <+: state.accepted.flatMap bytes := by
  rcases sends with ⟨⟨pump, inv, _⟩, takes⟩ | ⟨_, _, front⟩
  · by_cases reports : ∃ thread, (state.pcs thread).reported ≠ []
    · obtain ⟨thread, reports⟩ := reports
      rw [takes.reported thread reports]
      exact inv.reported_front reports
    · simp only [not_exists, not_not] at reports
      cases outstanding : state.outstanding with
      | nil =>
          rw [takes.settled outstanding reports]
          exact inv.acknowledged_front
      | cons request more =>
          have member : request ∈ state.outstanding := by
            rw [outstanding]
            exact List.mem_cons_self
          refine (takes.requested request member).trans ?_
          have front := inv.outgoing_front
          rw [outgoing, outstanding, List.flatten_cons] at front
          refine List.IsPrefix.trans ?_ front
          apply (List.prefix_append_right_inj _).mpr
          exact List.prefix_append ..
  · exact front

/-- The network takes more bytes of the request that is outstanding. -/
def transmit (state : SessionSend Thread) (taken : List UInt8)
    (count : Nat) : List UInt8 :=
  taken ++ (state.outgoing.drop taken.length).take count

theorem transmit_front {whole taken : List UInt8} {count : Nat}
    (isPrefix : taken <+: whole) :
    taken ++ (whole.drop taken.length).take count <+: whole := by
  obtain ⟨more, rfl⟩ := isPrefix
  rw [List.drop_left]
  apply (List.prefix_append_right_inj _).mpr
  exact List.take_prefix ..

/-- Where nothing is outstanding the network takes nothing. -/
theorem transmit_nothing {state : SessionSend Thread} {taken : List UInt8}
    (nothing : state.outstanding = [])
    (acknowledged : state.acknowledged <+: taken) (count : Nat) :
    state.transmit taken count = taken := by
  have done : state.outgoing.drop taken.length = [] := by
    apply List.drop_of_length_le
    rw [outgoing, nothing, List.flatten_nil, List.append_nil]
    exact acknowledged.length_le
  rw [transmit, done, List.take_nil, List.append_nil]

theorem Sends.transmit {state : SessionSend Thread} {taken : List UInt8}
    (sends : Sends state taken) (count : Nat) :
    Sends state (state.transmit taken count) := by
  rcases sends with ⟨⟨pump, inv, kept⟩, takes⟩ | ⟨stopped, more, front⟩
  · refine Or.inl ⟨⟨pump, inv, kept⟩, ?_⟩
    have one := inv.streamIntact.oneOutstanding
    rcases at_ : state.outstanding with _ | ⟨request, rest⟩
    · rw [transmit_nothing at_ takes.acknowledged]
      exact takes
    · rw [at_, List.length_cons] at one
      have alone : state.outstanding = [request] := by
        rw [at_, List.length_eq_zero_iff.mp (by omega : rest.length = 0)]
      have outgoing_eq : state.outgoing = state.acknowledged ++ request := by
        rw [outgoing, alone, List.flatten_singleton]
      have quiet : ∀ thread, (state.pcs thread).reported = [] := by
        intro thread
        by_contra reports
        have pumps : Pumps (state.pcs thread) := by
          cases at_ : state.pcs thread <;> rw [at_] at reports <;> trivial
        have nothing := (inv.pumping pumps).2.2.1
        rw [alone] at nothing
        cases nothing
      have before := takes.requested request
        (by rw [alone]; exact List.mem_singleton_self request)
      constructor
      · exact takes.acknowledged.trans (List.prefix_append ..)
      · intro other member
        rw [alone, List.mem_singleton] at member
        subst member
        rw [SessionSend.transmit, outgoing_eq]
        exact transmit_front before
      · intro thread reports
        exact absurd (quiet thread) reports
      · intro nothing
        rw [alone] at nothing
        cases nothing
  · rw [transmit_nothing stopped.nothing more]
    exact Or.inr ⟨stopped, more, front⟩

variable [DecidableEq Thread]

theorem Stopped.goto {state shared : SessionSend Thread}
    (stopped : Stopped state) {thread : Thread} {pc : SendPc}
    (same : shared.pcs = state.pcs) (nothing : shared.outstanding = [])
    (refuses : shared.connected = false ∨ shared.isSending = true)
    (lost : state.connected = false → shared.connected = false)
    (idles : pc.idles shared.connected) : Stopped (shared.goto thread pc) where
  nothing := nothing
  refuses := refuses
  idles := by
    have before : ∀ other, (shared.pcs other).idles shared.connected := by
      intro other
      have earlier := stopped.idles other
      rw [same]
      cases at_ : state.pcs other <;> rw [at_] at earlier <;>
        first | exact lost earlier | exact earlier
    exact Threads.forall_update
      (fun _ (pc : SendPc) => pc.idles shared.connected) before idles

omit [DecidableEq Thread] in
theorem Stalled.stopped {state : SessionSend Thread}
    (stalled : Stalled state) : Stopped state where
  nothing := stalled.nothing
  refuses := Or.inr stalled.sending
  idles := by
    intro thread
    have outside := stalled.outside thread
    cases at_ : state.pcs thread <;> rw [at_] at outside <;> trivial

/-- Nothing more is acknowledged, and nobody posts a request. -/
theorem stopped_step {state next : SessionSend Thread}
    {action : SendAction Thread} (stopped : Stopped state)
    (stepped : state.step action = some next) :
    Stopped next ∧ next.acknowledged = state.acknowledged := by
  have nothing := stopped.nothing
  have refuses := stopped.refuses
  cases action with
  | call thread call =>
      simp only [step] at stepped
      split at stepped <;> cases stepped
      exact ⟨stopped.goto rfl nothing refuses id trivial, rfl⟩
  | disconnect =>
      cases stepped
      refine ⟨⟨nothing, Or.inl rfl, fun thread => ?_⟩, rfl⟩
      have earlier := stopped.idles thread
      change (state.pcs thread).idles false
      cases at_ : state.pcs thread <;> rw [at_] at earlier <;>
        first | rfl | exact earlier
  | complete thread index numOfBytes =>
      simp [step, complete, nothing] at stepped
  | advance thread result =>
      have idles := stopped.idles thread
      simp only [step] at stepped
      cases at_ : state.pcs thread with
      | idle => simp [advance, at_] at stepped
      | send call =>
          simp only [advance, at_] at stepped
          split at stepped <;> cases stepped <;>
            exact ⟨stopped.goto rfl nothing refuses id trivial, rfl⟩
      | enqueue call =>
          simp only [advance, at_] at stepped
          split at stepped
          · cases stepped
            exact ⟨stopped.goto rfl nothing refuses id trivial, rfl⟩
          · split at stepped
            · cases stepped
              exact ⟨stopped.goto rfl nothing (Or.inr rfl) id trivial, rfl⟩
            · rename_i notSending
              have lost := refuses.resolve_right notSending
              cases stepped
              exact ⟨stopped.goto rfl nothing (Or.inr rfl) id lost, rfl⟩
      | overflow =>
          simp only [advance, at_] at stepped
          cases stepped
          exact ⟨stopped.goto rfl nothing (Or.inl rfl) (fun _ => rfl) trivial,
            rfl⟩
      | registerSend =>
          rw [at_] at idles
          have lost : state.connected = false := idles
          simp only [advance, at_, lost, if_true] at stepped
          cases stepped
          exact ⟨stopped.goto rfl nothing refuses id trivial, rfl⟩
      | postFailed =>
          simp only [advance, at_] at stepped
          cases stepped
          exact ⟨stopped.goto rfl nothing (Or.inl rfl) (fun _ => rfl) rfl,
            rfl⟩
      | abandon =>
          rw [at_] at idles
          simp only [advance, at_] at stepped
          cases stepped
          exact ⟨stopped.goto rfl nothing (Or.inl idles) id trivial, rfl⟩
      | processSend request numOfBytes =>
          rw [at_] at idles
          have none_ : numOfBytes = 0 := idles
          simp only [advance, at_, none_, if_true] at stepped
          cases stepped
          exact ⟨stopped.goto rfl nothing refuses id trivial, rfl⟩
      | brokenConnection =>
          simp only [advance, at_] at stepped
          cases stepped
          exact ⟨stopped.goto rfl nothing (Or.inl rfl) (fun _ => rfl) trivial,
            rfl⟩
      | _ =>
          rw [at_] at idles
          cases idles

/-- A step in which nothing is reported or requested. -/
theorem Takes.goto {state shared : SessionSend Thread} {taken : List UInt8}
    (takes : Takes state taken) {thread : Thread} {pc : SendPc}
    (same : shared.pcs = state.pcs)
    (acknowledged : shared.acknowledged = state.acknowledged)
    (outstanding : shared.outstanding = state.outstanding)
    (reports : pc.reported = (state.pcs thread).reported) :
    Takes (shared.goto thread pc) taken := by
  have sameReports : ∀ other, ((shared.goto thread pc).pcs other).reported =
      (state.pcs other).reported := by
    intro other
    by_cases own : other = thread
    · subst own
      rw [goto_pcs_self, reports]
    · rw [goto_pcs_other own, same]
  constructor
  · change shared.acknowledged <+: taken
    rw [acknowledged]
    exact takes.acknowledged
  · intro request member
    change request ∈ shared.outstanding at member
    change taken <+: shared.acknowledged ++ request
    rw [outstanding] at member
    rw [acknowledged]
    exact takes.requested request member
  · intro other nonempty
    rw [sameReports] at nonempty ⊢
    change taken = shared.acknowledged ++ _
    rw [acknowledged]
    exact takes.reported other nonempty
  · intro nothing quiet
    change shared.outstanding = [] at nothing
    change taken = shared.acknowledged
    rw [acknowledged]
    rw [outstanding] at nothing
    apply takes.settled nothing
    intro other
    rw [← sameReports]
    exact quiet other

omit [DecidableEq Thread] in
/-- Only the owner of the pump has been told anything. -/
theorem Inv.quiet {state : SessionSend Thread} {pump : Pump Thread}
    (inv : Inv state pump) {thread : Thread}
    (pumps : pump ≠ .thread thread) : (state.pcs thread).reported = [] := by
  by_contra reports
  apply pumps
  apply (inv.pumps_iff thread).mp
  cases at_ : state.pcs thread <;> rw [at_] at reports <;> trivial

omit [DecidableEq Thread] in
/-- The owner of the pump accounts for all that the network has taken. -/
theorem Takes.of_pumps {state : SessionSend Thread} {taken : List UInt8}
    (takes : Takes state taken) {pump : Pump Thread} (inv : Inv state pump)
    {thread : Thread} (pumps : Pumps (state.pcs thread)) :
    taken = state.acknowledged ++ (state.pcs thread).reported := by
  obtain ⟨owns, _, nothing, _⟩ := inv.pumping pumps
  by_cases reports : (state.pcs thread).reported = []
  · rw [reports, List.append_nil]
    apply takes.settled nothing
    intro other
    by_cases own : other = thread
    · rw [own]
      exact reports
    · apply inv.quiet
      rw [owns]
      exact fun same => own (Pump.thread.inj same).symm
  · exact takes.reported thread reports

/-- The owner of the pump acknowledges what it was told, or has posted a
request. -/
theorem Takes.own {shared : SessionSend Thread} {taken : List UInt8}
    {thread : Thread} {pc : SendPc}
    (quiet : ∀ other, other ≠ thread → (shared.pcs other).reported = [])
    (reports : pc.reported = []) (acknowledged : taken = shared.acknowledged) :
    Takes (shared.goto thread pc) taken := by
  have nobody : ∀ other,
      ((shared.goto thread pc).pcs other).reported = [] := by
    intro other
    by_cases own : other = thread
    · subst own
      rw [goto_pcs_self, reports]
    · rw [goto_pcs_other own]
      exact quiet other own
  subst acknowledged
  constructor
  · exact List.prefix_rfl
  · exact fun _ _ => List.prefix_append ..
  · exact fun other nonempty => absurd (nobody other) nonempty
  · exact fun _ _ => rfl

/-- After a fatal error of `WSASend`. -/
theorem stopped_of_fatalError {state : SessionSend Thread}
    {pump : Pump Thread} (inv : Inv state pump) {thread : Thread}
    (pumps : Pumps (state.pcs thread)) :
    Stopped (state.goto thread .postFailed) := by
  obtain ⟨owns, sending, nothing, _⟩ := inv.pumping pumps
  refine ⟨nothing, Or.inr sending, fun other => ?_⟩
  by_cases own : other = thread
  · subst own
    rw [goto_pcs_self]
    trivial
  · rw [goto_pcs_other own]
    have leaves : LeavesPump (state.pcs other) := by
      apply leavesPump_of_not_pumps _ (inv.expected other)
      intro otherPumps
      have otherOwns := (inv.pumps_iff other).mp otherPumps
      rw [owns] at otherOwns
      exact own (Pump.thread.inj otherOwns).symm
    change (state.pcs other).idles state.connected
    cases at_ : state.pcs other <;> rw [at_] at leaves <;> trivial

theorem advance_takes {state next : SessionSend Thread} {taken : List UInt8}
    {pump : Pump Thread} (inv : Inv state pump) (takes : Takes state taken)
    {thread : Thread}
    (stepped : state.advance thread .accepted = some next) :
    Takes next taken := by
  have expected := inv.expected thread
  have quiet (pumps : Pumps (state.pcs thread)) :
      ∀ other, other ≠ thread → (state.pcs other).reported = [] := by
    intro other different
    apply inv.quiet
    rw [(inv.pumping pumps).1]
    exact fun same => different (Pump.thread.inj same).symm
  cases at_ : state.pcs thread with
  | idle => simp [advance, at_] at stepped
  | post wsaBufs =>
      have pumps : Pumps (state.pcs thread) := by
        rw [at_]
        trivial
      have all := takes.of_pumps inv pumps
      rw [at_] at all
      simp only [advance, at_] at stepped
      cases stepped
      apply Takes.own
      · exact quiet pumps
      · rfl
      · rw [all]
        exact List.append_nil _
  | consume request numOfBytes =>
      have pumps : Pumps (state.pcs thread) := by
        rw [at_]
        trivial
      have all := takes.of_pumps inv pumps
      rw [at_] at all
      simp only [advance, at_] at stepped
      cases stepped
      apply Takes.own
      · exact quiet pumps
      · rfl
      · exact all
  | processSend request numOfBytes =>
      have pumping := (inv.pumping (by rw [at_]; trivial)).2.2.2
      rw [at_] at pumping
      have someBytes : ¬numOfBytes = 0 := Nat.ne_of_gt pumping.2.2.1
      simp only [advance, at_, someBytes, if_false] at stepped
      cases stepped
      apply takes.goto
      · rfl
      · rfl
      · rfl
      · rw [at_]
        rfl
  | nothingGathered =>
      rw [at_] at expected
      cases expected
  | clearOwner =>
      rw [at_] at expected
      cases expected
  | postFailed =>
      rw [at_] at expected
      cases expected
  | abandon =>
      rw [at_] at expected
      cases expected
  | brokenConnection =>
      rw [at_] at expected
      cases expected
  | _ =>
      simp only [advance, at_] at stepped
      repeat' split at stepped
      all_goals cases stepped
      all_goals
        apply takes.goto
        · rfl
        · rfl
        · rfl
        · rw [at_]
          rfl

theorem advance_sends {state next : SessionSend Thread} {taken : List UInt8}
    {pump : Pump Thread} (inv : Inv state pump)
    (kept : pump = .stranded → state.connected = false)
    (takes : Takes state taken) (front : taken <+: state.accepted.flatMap bytes)
    {thread : Thread} {result : WSASendResult}
    (stepped : state.advance thread result = some next) :
    Sends next taken := by
  by_cases posts : ∃ wsaBufs, state.pcs thread = .post wsaBufs
  · obtain ⟨wsaBufs, at_⟩ := posts
    cases result with
    | accepted =>
        exact Or.inl ⟨advance_inv inv kept stepped,
          advance_takes inv takes stepped⟩
    | recoverableError =>
        have stopped := (stalled_of_recoverableError inv at_ stepped).stopped
        simp only [advance, at_] at stepped
        cases stepped
        exact Or.inr ⟨stopped, takes.acknowledged, front⟩
    | fatalError =>
        have stopped := stopped_of_fatalError inv
          (show Pumps (state.pcs thread) by rw [at_]; trivial)
        simp only [advance, at_] at stepped
        cases stepped
        exact Or.inr ⟨stopped, takes.acknowledged, front⟩
  · rw [advance_result result (not_exists.mp posts)] at stepped
    exact Or.inl ⟨advance_inv inv kept stepped,
      advance_takes inv takes stepped⟩

/-- What the network has taken once this completion is reported: all of the
reported bytes. -/
def takenBy (state : SessionSend Thread) (taken : List UInt8) :
    SendAction Thread → List UInt8
  | .complete _ index numOfBytes =>
      match state.outstanding[index]? with
      | none => taken
      | some request =>
          if numOfBytes = 0 then taken
          else state.acknowledged ++ request.take numOfBytes
  | _ => taken

theorem complete_sends {state next : SessionSend Thread}
    {taken : List UInt8} {pump : Pump Thread} (inv : Inv state pump)
    (takes : Takes state taken) (front : taken <+: state.accepted.flatMap bytes)
    {thread : Thread} {index numOfBytes : Nat}
    (stepped : state.complete thread index numOfBytes = some next) :
    Sends next (state.takenBy taken (.complete thread index numOfBytes)) := by
  obtain ⟨idle, rfl, request, outstanding, same⟩ := complete_eq inv stepped
  have found : state.outstanding[0]? = some request := by
    rw [outstanding]
    rfl
  have notOwned : ∀ other, pump ≠ .thread other := by
    rintro other rfl
    rw [inv.owned.2.1] at outstanding
    cases outstanding
  simp only [takenBy, found]
  cases numOfBytes with
  | zero =>
      have sending : state.isSending = true := by
        cases pump with
        | request bytes => exact inv.owned.1
        | thread owner => exact absurd rfl (notOwned owner)
        | free =>
            rw [inv.owned.2.1] at outstanding
            cases outstanding
        | stranded => exact inv.owned.1
      rw [if_pos rfl, same]
      refine Or.inr ⟨Stalled.stopped ?_, takes.acknowledged, front⟩
      apply inv.stalls
      · rfl
      · exact fun other owns => absurd owns (notOwned other)
      · exact sending
      · rfl
      · rfl
  | succ count =>
      rw [if_neg (Nat.succ_ne_zero count)]
      refine Or.inl ⟨complete_inv inv (Nat.succ_pos count) stepped, ?_⟩
      rw [same]
      constructor
      · exact List.prefix_append ..
      · rintro other ⟨⟩
      · intro other reports
        by_cases own : other = thread
        · subst own
          rw [goto_pcs_self]
          rfl
        · rw [goto_pcs_other own] at reports
          exact absurd (inv.quiet (notOwned other)) reports
      · intro _ quiet
        have own := quiet thread
        rw [goto_pcs_self] at own
        change state.acknowledged ++ request.take (count + 1) = _
        change request.take (count + 1) = [] at own
        rw [own]
        exact List.append_nil _

/-- Whatever a thread does, the network takes from the requests in order. -/
theorem step_sends {state next : SessionSend Thread} {taken : List UInt8}
    {action : SendAction Thread} (sends : Sends state taken)
    (stepped : state.step action = some next) :
    Sends next (state.takenBy taken action) := by
  have front := sends.front
  rcases sends with ⟨⟨pump, inv, kept⟩, takes⟩ | ⟨stopped, more, _⟩
  · cases action with
    | call thread call =>
        have regular : Regular state (.call thread call) := trivial
        have held := step_inv inv kept regular stepped
        simp only [step] at stepped
        split at stepped
        · rename_i idle
          cases stepped
          refine Or.inl ⟨held, takes.goto rfl rfl rfl ?_⟩
          rw [idle]
          rfl
        · cases stepped
    | disconnect =>
        have regular : Regular state .disconnect := trivial
        have held := step_inv inv kept regular stepped
        cases stepped
        exact Or.inl ⟨held, takes.acknowledged, takes.requested,
          takes.reported, takes.settled⟩
    | complete thread index numOfBytes =>
        exact complete_sends inv takes front stepped
    | advance thread result =>
        exact advance_sends inv kept takes front stepped
  · obtain ⟨stopsOn, same⟩ := stopped_step stopped stepped
    have unchanged : state.takenBy taken action = taken := by
      cases action with
      | complete thread index numOfBytes =>
          simp only [takenBy, stopped.nothing, List.getElem?_nil]
      | _ => rfl
    obtain ⟨added, longer⟩ := step_accepted_grows stepped
    rw [unchanged]
    refine Or.inr ⟨stopsOn, ?_, ?_⟩
    · rw [same]
      exact more
    · rw [← longer, List.flatMap_append]
      exact front.trans (List.prefix_append ..)

/-- What is accepted, and what is on its way to the queue, comes from calls. -/
structure CallsOnly (passes : SendBufferRef → Prop)
    (state : SessionSend Thread) : Prop where
  accepted : ∀ sendBuffer ∈ state.accepted, passes sendBuffer
  pending : ∀ thread call, (state.pcs thread).pending = some call →
    ∀ sendBuffer ∈ call.sendBuffers, passes sendBuffer

theorem CallsOnly.goto {passes : SendBufferRef → Prop}
    {state shared : SessionSend Thread} (only : CallsOnly passes state)
    {thread : Thread} {pc : SendPc} (same : shared.pcs = state.pcs)
    (accepted : shared.accepted = state.accepted)
    (pending : ∀ call, pc.pending = some call →
      ∀ sendBuffer ∈ call.sendBuffers, passes sendBuffer) :
    CallsOnly passes (shared.goto thread pc) where
  accepted := by
    change ∀ sendBuffer ∈ shared.accepted, passes sendBuffer
    rw [accepted]
    exact only.accepted
  pending := by
    intro other call calling
    by_cases own : other = thread
    · subst own
      rw [goto_pcs_self] at calling
      exact pending call calling
    · rw [goto_pcs_other own, same] at calling
      exact only.pending other call calling

theorem advance_callsOnly {passes : SendBufferRef → Prop}
    {state next : SessionSend Thread} (only : CallsOnly passes state)
    {thread : Thread} {result : WSASendResult}
    (stepped : state.advance thread result = some next) :
    CallsOnly passes next := by
  have others : ∀ other, other ≠ thread → ∀ call,
      (next.pcs other).pending = some call →
      ∀ sendBuffer ∈ call.sendBuffers, passes sendBuffer := by
    intro other different call calling
    rw [advance_pcs_other different stepped] at calling
    exact only.pending other call calling
  rcases advance_accepted stepped with
    ⟨call, calling, more, done⟩ | ⟨same, done⟩
  · constructor
    · intro sendBuffer member
      rw [more] at member
      rcases List.mem_append.mp member with old | new
      · exact only.accepted sendBuffer old
      · exact only.pending thread call calling sendBuffer new
    · intro other later laterCalling
      by_cases own : other = thread
      · subst own
        rw [done] at laterCalling
        cases laterCalling
      · exact others other own later laterCalling
  · constructor
    · rw [same]
      exact only.accepted
    · intro other later laterCalling
      by_cases own : other = thread
      · subst own
        rcases done with none_ | unchanged
        · rw [none_] at laterCalling
          cases laterCalling
        · rw [unchanged] at laterCalling
          exact only.pending other later laterCalling
      · exact others other own later laterCalling

theorem step_callsOnly {passes : SendBufferRef → Prop}
    {state next : SessionSend Thread} {action : SendAction Thread}
    (only : CallsOnly passes state)
    (called : ∀ thread call, action = .call thread call →
      ∀ sendBuffer ∈ call.sendBuffers, passes sendBuffer)
    (stepped : state.step action = some next) : CallsOnly passes next := by
  cases action with
  | call thread call =>
      simp only [step] at stepped
      split at stepped <;> cases stepped
      apply only.goto rfl rfl
      rintro _ ⟨⟩
      exact called thread call rfl
  | disconnect =>
      cases stepped
      exact ⟨only.accepted, only.pending⟩
  | complete thread index numOfBytes =>
      simp only [step, complete] at stepped
      repeat' split at stepped
      all_goals cases stepped
      · exact ⟨only.accepted, only.pending⟩
      · apply only.goto
        · rfl
        · rfl
        · rintro _ ⟨⟩
  | advance thread result => exact advance_callsOnly only stepped

end SessionSend

end IocpChat
