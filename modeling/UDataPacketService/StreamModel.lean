import UDataPacketService.PacketModel

/-! One stream: its most recent packet and one bounded queue for each subscriber.
Concurrent maps and sets are the ordered containers of the standard library. -/
namespace UDataPacketService
open Std (ExtTreeMap ExtTreeSet)

/-- The address of an RPC's server context. -/
abbrev ContextAddress := Nat

/-- `StreamOptions`; the setter refuses a queue size that is not positive. -/
structure StreamOptions where
  mMaximumQueueSize : Nat := 128
  positive : 0 < mMaximumQueueSize := by decide

def StreamOptions.setMaximumQueueSize (queueSize : Int) : Except String StreamOptions :=
  if h : queueSize ≤ 0 then .error "Queue size must be positive"
  else .ok ⟨queueSize.toNat, by omega⟩

inductive UnsubscribeResponse where
  | unsubscribed
  | neverSubscribed
  | notUnsubscribed
  deriving DecidableEq, Repr

/-- The fields of `StreamImpl` that its operations read. -/
structure Stream where
  mOptions : StreamOptions
  mSubscribersMap : ExtTreeMap ContextAddress (List Packet)
  mMostRecentPacket : Packet
  mStreamIdentifier : String
  mHaveMostRecentPacket : Bool

/-- The body of the loop of `setNextPacket`: a full queue loses its front. -/
def enqueueCopy (mMaximumQueueSize : Nat) (packet : Packet) (queue : List Packet) : List Packet :=
  (if mMaximumQueueSize ≤ queue.length then queue.tail else queue) ++ [packet]

namespace Stream

def setNextPacket (stream : Stream) (packet : Packet) : Except String Stream :=
  let thisIdentifier := packet.toName
  if thisIdentifier ≠ stream.mStreamIdentifier then
    .error (thisIdentifier ++ " does not match stream identifier " ++ stream.mStreamIdentifier)
  else
    .ok { stream with
      mMostRecentPacket := packet
      mHaveMostRecentPacket := true
      mSubscribersMap := stream.mSubscribersMap.map
        (fun _ queue => enqueueCopy stream.mOptions.mMaximumQueueSize packet queue) }

/-- The constructor: name the stream after the packet, then set the packet. -/
def construct (packet : Packet) (options : StreamOptions) : Except String Stream :=
  setNextPacket ⟨options, ∅, {}, packet.toName, false⟩ packet

def getNextPacket (stream : Stream) (contextAddress : ContextAddress) :
    Option Packet × Stream :=
  match stream.mSubscribersMap[contextAddress]? with
  | none => (none, stream)
  | some [] => (none, stream)
  | some (front :: rest) =>
      (some front,
        { stream with mSubscribersMap := stream.mSubscribersMap.insert contextAddress rest })

def subscribe (stream : Stream) (contextAddress : ContextAddress) (enqueueLatestPacket : Bool) :
    Bool × Stream :=
  if contextAddress ∈ stream.mSubscribersMap then (false, stream)
  else
    let queue := if enqueueLatestPacket && stream.mHaveMostRecentPacket
      then [stream.mMostRecentPacket] else []
    let added := stream.mSubscribersMap.containsThenInsertIfNew contextAddress queue
    (!added.1, { stream with mSubscribersMap := added.2 })

/-- The map loses the context before the sizes are compared, so an exception
leaves the erased map behind. -/
def unsubscribe (stream : Stream) (contextAddress : ContextAddress) :
    Except String UnsubscribeResponse × Stream :=
  let originalSize := stream.mSubscribersMap.size
  let wasUnsubscribed := stream.mSubscribersMap.contains contextAddress
  let erased := stream.mSubscribersMap.erase contextAddress
  let newSize := erased.size
  let response : Except String UnsubscribeResponse :=
    if wasUnsubscribed then
      if newSize + 1 ≠ originalSize then .error "Unexpected behavior during unsubscribe"
      else .ok .unsubscribed
    else
      if newSize ≠ originalSize then .error "Unexpected resize during unsubscribe"
      else .ok .neverSubscribed
  (response, { stream with mSubscribersMap := erased })

def unsubscribeAll (stream : Stream) : Stream := { stream with mSubscribersMap := ∅ }

def queueOf (stream : Stream) (contextAddress : ContextAddress) : Option (List Packet) :=
  stream.mSubscribersMap[contextAddress]?

end Stream
end UDataPacketService
