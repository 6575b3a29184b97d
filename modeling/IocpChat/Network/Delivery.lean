import IocpChat.Network.RecvStream
import IocpChat.Network.SendThreads
import IocpChat.Network.WholePacket

/-!
# Delivery of packets between two sessions

Two sessions of any number of threads each, and the network between them in one
direction.  The network takes the bytes of the requests of one session as fast
or slowly as it likes, and the receives of the other session bring what it took,
in pieces of any size.  Of the network only this is assumed: a completion never
reports fewer bytes of a request than have been taken, unless it reports that
the connection is broken; and no receive brings more bytes than it was lent.

For every interleaving, `OnRecvPacket` gets the packets that `Send` accepted at
the other end, in order, none twice and none altered.
-/

namespace IocpChat

open TransitionSystem Framing Protocol

/-- Two sessions, the bytes the network has taken from the first one, and those
it has brought to the second one. -/
structure SessionPair (Sender Receiver : Type) where
  sender : SessionThreads Sender
  receiver : SessionThreads Receiver
  taken : List UInt8
  brought : List UInt8

inductive SessionPairAction (Sender Receiver : Type) where
  | sender (action : ThreadAction Sender)
  | transmit (count : Nat)
  | receiver (action : ThreadAction Receiver)

namespace SessionPair

variable {Sender Receiver : Type}

/-- A completion accounts for the bytes that have been taken, or the connection
is broken. -/
def accounts (system : SessionPair Sender Receiver) :
    ThreadAction Sender → Bool
  | .completeSend _ _ numOfBytes =>
      numOfBytes = 0 ||
        system.taken.length ≤
          system.sender.send.acknowledged.length + numOfBytes
  | _ => true

/-- A receive brings the next bytes, as many as it was lent at most. -/
def bringsNext (system : SessionPair Sender Receiver) :
    ThreadAction Receiver → Bool
  | .completeRecv _ index chunk =>
      (system.brought ++ chunk).isPrefixOf system.taken &&
        (system.receiver.receives[index]?).all fun wsabufs =>
          (chunk.length : Int) ≤ RingBuffer.spanTotal wsabufs
  | _ => true

variable [DecidableEq Sender] [DecidableEq Receiver]

def step (system : SessionPair Sender Receiver) :
    SessionPairAction Sender Receiver → Option (SessionPair Sender Receiver)
  | .sender action =>
      if system.accounts action then
        (system.sender.step action).map fun next =>
          { system with
            sender := next
            taken := system.sender.takenBy system.taken action }
      else none
  | .transmit count =>
      some { system with
        taken := system.sender.send.transmit system.taken count }
  | .receiver action =>
      if system.bringsNext action then
        (system.receiver.step action).map fun next =>
          { system with
            receiver := next
            brought := system.brought ++
              (SessionThreads.takenBytes action).getD [] }
      else none

/-- Both sessions are about to be connected. -/
def machine (Sender Receiver : Type) [DecidableEq Sender]
    [DecidableEq Receiver] (senderBuffer recvBuffer : RingBuffer) :
    Machine (SessionPair Sender Receiver)
      (SessionPairAction Sender Receiver) where
  initial system := system =
    { sender := .initial senderBuffer
      receiver := .initial recvBuffer
      taken := []
      brought := [] }
  step := step

/-- The two ends agree on the stream between them. -/
structure Carries (system : SessionPair Sender Receiver) : Prop where
  phase : ∃ phase, system.sender.InPhase phase
  sends : system.sender.SendsAlone system.taken
  receives : system.receiver.Receives system.brought
  front : system.brought <+: system.taken

omit [DecidableEq Sender] [DecidableEq Receiver] in
/-- What the network has taken it does not give back. -/
theorem accounts_grows {system : SessionPair Sender Receiver}
    {action : ThreadAction Sender}
    (sends : SessionSend.Sends system.sender.send system.taken)
    (accounts : system.accounts action = true) :
    system.taken <+: system.sender.takenBy system.taken action := by
  cases action with
  | completeSend thread index numOfBytes =>
      simp only [SessionThreads.takenBy, SessionSend.takenBy]
      split
      · exact List.prefix_rfl
      · rename_i request found
        split
        · exact List.prefix_rfl
        · rename_i some_
          have within : system.taken.length ≤
              system.sender.send.acknowledged.length + numOfBytes := by
            simpa [SessionPair.accounts, some_] using accounts
          have member : request ∈ system.sender.send.outstanding :=
            List.mem_of_getElem? found
          rcases sends with ⟨_, takes⟩ | ⟨stopped, _⟩
          · have before := takes.requested request member
            have cut : system.sender.send.acknowledged ++
                request.take numOfBytes =
                (system.sender.send.acknowledged ++ request).take
                  (system.sender.send.acknowledged.length + numOfBytes) := by
              rw [List.take_length_add_append]
            rw [cut]
            exact List.prefix_take_iff.mpr ⟨before, within⟩
          · rw [stopped.nothing] at member
            cases member
  | _ => exact List.prefix_rfl

theorem step_carries {system next : SessionPair Sender Receiver}
    {action : SessionPairAction Sender Receiver} (carries : Carries system)
    (stepped : system.step action = some next) : Carries next := by
  obtain ⟨⟨phase, inPhase⟩, sends, receives, front⟩ := carries
  cases action with
  | sender action =>
      simp only [step] at stepped
      split at stepped
      · rename_i accounts
        simp only [Option.map_eq_some_iff] at stepped
        obtain ⟨sender, moved, rfl⟩ := stepped
        obtain ⟨nextPhase, nextInPhase, _⟩ :=
          SessionThreads.step_phase inPhase moved
        exact
          { phase := ⟨nextPhase, nextInPhase⟩
            sends := SessionThreads.step_sendsAlone inPhase sends moved
            receives := receives
            front := front.trans (accounts_grows sends.sends accounts) }
      · cases stepped
  | transmit count =>
      cases stepped
      exact
        { phase := ⟨phase, inPhase⟩
          sends := ⟨sends.sends.transmit count, sends.disconnecting,
            sends.before⟩
          receives := receives
          front := front.trans (List.prefix_append ..) }
  | receiver action =>
      simp only [step] at stepped
      split at stepped
      · rename_i brings
        simp only [Option.map_eq_some_iff] at stepped
        obtain ⟨receiver, moved, rfl⟩ := stepped
        have contract : system.brought ++
              (SessionThreads.takenBytes action).getD [] <+: system.taken ∧
            SessionThreads.FillsSpans system.receiver action := by
          cases action with
          | completeRecv thread index chunk =>
              simp only [bringsNext, Bool.and_eq_true,
                List.isPrefixOf_iff_prefix, Option.all_eq_true,
                decide_eq_true_eq] at brings
              exact brings
          | _ =>
              refine ⟨?_, trivial⟩
              change system.brought ++ [] <+: system.taken
              rw [List.append_nil]
              exact front
        exact
          { phase := ⟨phase, inPhase⟩
            sends := sends
            receives := receives.step contract.2 moved
            front := contract.1 }
      · cases stepped

theorem initial_carries {senderBuffer : RingBuffer} {capacity : Nat}
    (positive : 0 < capacity) (bounded : capacity ≤ 2 ^ 30)
    {buffer : FlatMemory.Memory UInt8} :
    Carries
      ({ sender := .initial senderBuffer
         receiver := .initial (.create capacity buffer)
         taken := []
         brought := [] } : SessionPair Sender Receiver) where
  phase := ⟨_, SessionThreads.initial_phase senderBuffer⟩
  sends := SessionThreads.initial_sendsAlone senderBuffer
  receives := SessionThreads.initial_receives positive bounded buffer
  front := List.prefix_rfl

/-- `Send` is called with finished packets whose fields are in their formats. -/
def SendsPackets (_ : SessionPair Sender Receiver) :
    SessionPairAction Sender Receiver → Prop
  | .sender action =>
      ∀ sendBuffer ∈ SessionThreads.calledWith action,
        ∃ packet : Packet,
          (packet.id.layout Wire.string).Representable packet.fields ∧
          packet.encodedSize ≤ packetAllocSize ∧
          sendBuffer = some packet.bytes
  | _ => True

/-- The packets that arrive are a front of those that were accepted; once the
whole stream has come and been processed, they are all of them.  Each of them is
read as what it was. -/
structure DeliversInOrder (system : SessionPair Sender Receiver)
    (sent : List Packet) : Prop where
  accepted : system.sender.send.accepted =
    sent.map fun packet => some packet.bytes
  inOrder : ∃ delivered, delivered <+: sent ∧
    receivedPackets system.receiver.callbacks = delivered.map Packet.bytes
  readable : ∀ packet ∈ sent, Delivers packet packet.bytes
  complete : system.brought = (sent.map Packet.bytes).flatten →
    (∀ thread, ∀ frame ∈ system.receiver.frames thread,
      frame.processes = false) →
    receivedPackets system.receiver.callbacks = sent.map Packet.bytes

/-- What has come is a part of the stream of accepted packets. -/
theorem Carries.deliversInOrder {system : SessionPair Sender Receiver}
    (carries : Carries system) {sent : List Packet}
    (representable : ∀ packet ∈ sent,
      (packet.id.layout Wire.string).Representable packet.fields ∧
        packet.encodedSize ≤ packetAllocSize)
    (accepted : system.sender.send.accepted =
      sent.map fun packet => some packet.bytes) :
    DeliversInOrder system sent := by
  have areFrames : ∀ frame ∈ sent.map Packet.bytes,
      PacketSession.framing.IsFrame frame := by
    rw [List.forall_mem_map]
    exact fun packet member =>
      Packet.bytes_isFrame (representable packet member).2
  have stream : system.sender.send.accepted.flatMap SessionSend.bytes =
      (sent.map Packet.bytes).flatten := by
    rw [accepted, List.flatMap_def, List.map_map]
    rfl
  have part : system.brought <+: (sent.map Packet.bytes).flatten := by
    rw [← stream]
    exact carries.front.trans carries.sends.sends.front
  obtain ⟨stage, session, inChain, agrees, parses⟩ := carries.receives
  have receives := inChain.receivesStream agrees parses
  obtain ⟨done, rest, pending, splits, parsed⟩ :=
    Rule.parse_prefix areFrames part
  have front := receives.front
  have all := receives.all
  rw [parsed] at front all
  refine ⟨accepted, ?_, ?_, ?_⟩
  · have inOrder : receivedPackets system.receiver.callbacks <+:
        sent.map Packet.bytes := by
      rw [splits.frames_eq]
      exact front.trans (List.prefix_append ..)
    exact List.prefix_map_iff.mp inOrder
  · intro packet member
    obtain ⟨inFormat, enough⟩ := representable packet member
    exact delivers_of_representable inFormat enough
  · intro whole nobody
    rw [whole] at splits
    rw [all nobody]
    exact splits.of_whole.1

/-- A request for the room list, and a message. -/
def listAndHello : List Packet :=
  [⟨.cRoomList, {}⟩, ⟨.cRoomChat, { message := literal "hello" }⟩]

/-- They are sent together.  The completion leaves half of the second packet to
another request, and the receives end elsewhere. -/
def listAndChat : List (SessionPairAction Bool Bool) :=
  List.flatten [(SessionThreads.arrival true).map .sender,
    (SessionThreads.arrival true).map .receiver,
    [.sender (.callSend true
      (.batch (listAndHello.map fun packet => some packet.bytes)))],
    List.replicate 5 (.sender (.advance true .accepted)),
    [.transmit 6,
      .receiver (.completeRecv false 0 [4, 0, 237, 3, 11, 0]),
      .sender (.completeSend false 0 7)],
    List.replicate 6 (.sender (.advance false .accepted)),
    List.replicate 6 (.receiver (.advance false .accepted)),
    [.transmit 100,
      .receiver (.completeRecv true 0
        [243, 3, 5, 0, 104, 101, 108, 108, 111])],
    List.replicate 2 (.receiver (.advance true .accepted))]

end SessionPair

end IocpChat
