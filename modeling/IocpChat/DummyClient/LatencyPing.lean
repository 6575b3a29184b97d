import IocpChat.Common.Decimal
import IocpChat.Protocol.PacketProtocol

/-!
# Latency pings

A bot times a chat message on its way through the server and back: the message
carries the clock of when it was sent.
-/

namespace IocpChat

open Protocol

/-- The message of `SendLatencyPingChat`. -/
def latencyPing (seq : UInt32) (nowUs : Int64) : StdString :=
  literal "LAT:" ++ literal (toString seq.toNat) ++ literal ":" ++
    literal (toString nowUs.toInt)

/-- The sample that `Handle_S_ROOM_CHAT` records, if it does. -/
def handleSRoomChat (botName : StdString) (packet : SRoomChat)
    (nowUs : Int64) : Option UInt64 :=
  if packet.senderName = botName then
    if (literal "LAT:").isPrefixOf packet.message then
      -- `find(':', 4)`
      match (packet.message.drop 4).dropWhile (· ≠ 58) with
      | [] => none
      | _ :: timestamp => do
          let sentUs ← stoull timestamp
          if nowUs.toUInt64 ≥ sentUs then
            return nowUs.toUInt64 - sentUs
          else none
    else none
  else none

/-- A ping that comes back is timed by the clock. -/
theorem handleSRoomChat_latencyPing (botName : StdString) (seq : UInt32)
    (sentUs nowUs : Int64) :
    handleSRoomChat botName
        { senderName := botName
          message := latencyPing seq sentUs } nowUs =
      if nowUs.toUInt64 ≥ sentUs.toUInt64 then
        some (nowUs.toUInt64 - sentUs.toUInt64)
      else none := by
  have noColon : ∀ character ∈ literal (toString seq.toNat),
      decide (character ≠ 58) := by
    intro character member
    have digit := (isDecimal_repr seq.toNat).digits character member
    apply decide_eq_true
    intro colon
    rw [colon] at digit
    exact absurd digit (by decide)
  have found : ((latencyPing seq sentUs).drop 4).dropWhile (· ≠ 58) =
      58 :: literal (toString sentUs.toInt) := by
    change (literal (toString seq.toNat) ++ literal ":" ++
      literal (toString sentUs.toInt)).dropWhile _ = _
    rw [List.append_assoc, List.dropWhile_append_of_pos noColon]
    rfl
  simp only [handleSRoomChat, found, stoull_toString]
  rfl

end IocpChat
