import UDataPacketService.DeliveryLaw

/-! The converter of import packets into packets of the service, and its agreement
with the checks of the subscription manager. The messages of the import API have
the fields of the service API, each with explicit presence. -/
namespace UDataPacketService
open Std (ExtTreeMap)
open OrderedContainers

namespace ImportAPI

/-- Message `StreamIdentifier` of the import API. -/
structure StreamIdentifier where
  networkField : Option String := none
  stationField : Option String := none
  channelField : Option String := none
  locationCodeField : Option String := none
  deriving DecidableEq, Repr

namespace StreamIdentifier

def network (i : StreamIdentifier) : String := i.networkField.getD ""
def station (i : StreamIdentifier) : String := i.stationField.getD ""
def channel (i : StreamIdentifier) : String := i.channelField.getD ""
def locationCode (i : StreamIdentifier) : String := i.locationCodeField.getD "--"

end StreamIdentifier

/-- The open enumeration `DataType` of the import API. -/
inductive DataType where
  | unknown
  | integer32
  | float
  | double
  | text
  | integer64
  | unlisted (value : Int)
  deriving DecidableEq, Repr

/-- Message `Packet` of the import API. -/
structure Packet where
  streamIdentifierField : Option StreamIdentifier := none
  startTimeField : Option Timestamp := none
  samplingRateField : Option ℚ := none
  dataTypeField : Option DataType := none
  numberOfSamplesField : Option UInt32 := none
  dataField : Option (List UInt8) := none
  deriving DecidableEq, Repr

namespace Packet

def streamIdentifier (p : Packet) : StreamIdentifier := p.streamIdentifierField.getD {}
def startTime (p : Packet) : Timestamp := p.startTimeField.getD {}
def samplingRate (p : Packet) : ℚ := p.samplingRateField.getD 0
def dataType (p : Packet) : DataType := p.dataTypeField.getD .unknown
def numberOfSamples (p : Packet) : UInt32 := p.numberOfSamplesField.getD 0
def data (p : Packet) : List UInt8 := p.dataField.getD []

end Packet
end ImportAPI

/-- `std::isspace` in the classic locale: the blank and the controls from tab to
carriage return. -/
def isSpace (c : Char) : Bool := c = ' ' || (9 ≤ c.toNat && c.toNat ≤ 13)

/-- `boost::algorithm::trim`: the right end first, then the left. -/
def trim (s : List Char) : List Char := (s.rdropWhile isSpace).dropWhile isSpace

/-- The string is transformed only where some character is not upper case yet. -/
def trimAndCapitalize (s : String) : String :=
  let s := trim s.toList
  if s.all Char.isUpper then String.ofList s else String.ofList (s.map Char.toUpper)

namespace ImportAPI

def StreamIdentifier.convert (input : ImportAPI.StreamIdentifier) :
    Except String UDataPacketService.StreamIdentifier :=
  let network := trimAndCapitalize input.network
  if network = "" then .error "Network is empty"
  else
    let station := trimAndCapitalize input.station
    if station = "" then .error "Station is empty"
    else
      let channel := trimAndCapitalize input.channel
      if channel = "" then .error "Channel is empty"
      else
        let locationCode := trimAndCapitalize input.locationCode
        .ok {
          networkField := some network
          stationField := some station
          channelField := some channel
          locationCodeField := some (if locationCode = "" then "--" else locationCode) }

/-- The chain of comparisons on the data type in `convert` of a packet. -/
def DataType.convert : ImportAPI.DataType → Except String UDataPacketService.DataType
  | .integer32 => .ok .integer32
  | .float => .ok .float
  | .double => .ok .double
  | .integer64 => .ok .integer64
  | .text => .ok .text
  | .unknown => .error "Cannot process unknown data type"
  | .unlisted _ => .error "Unhandled data type"

/-- `convert` of a packet. The setters and the mutable accessors make every field of
the result present. -/
def Packet.convert (input : ImportAPI.Packet) : Except String UDataPacketService.Packet :=
  match input.streamIdentifier.convert with
  | .error what => .error what
  | .ok identifier =>
      let nSamples := input.numberOfSamples
      if nSamples ≤ 0 then .error "No data in packet"
      else
        let samplingRate := input.samplingRate
        if samplingRate ≤ 0 then .error "Sampling rate not positive"
        else
          match input.dataType.convert with
          | .error what => .error what
          | .ok dataType =>
              .ok {
                streamIdentifierField := some identifier
                startTimeField := some input.startTime
                samplingRateField := some samplingRate
                dataTypeField := some dataType
                numberOfSamplesField := some nSamples
                dataField := some input.data }

/-- No data type is converted into the one that the manager refuses. -/
theorem DataType.convert_known {dataType : ImportAPI.DataType}
    {converted : UDataPacketService.DataType} (h : dataType.convert = .ok converted) :
    converted ≠ .unknown := by
  cases dataType <;> cases h <;> nofun

theorem Packet.convert_cases {input : ImportAPI.Packet} {output : UDataPacketService.Packet}
    (h : input.convert = .ok output) :
    ∃ identifier dataType, input.streamIdentifier.convert = .ok identifier ∧
      0 < input.samplingRate ∧ input.dataType.convert = .ok dataType ∧
      output = {
        streamIdentifierField := some identifier
        startTimeField := some input.startTime
        samplingRateField := some input.samplingRate
        dataTypeField := some dataType
        numberOfSamplesField := some input.numberOfSamples
        dataField := some input.data } := by
  cases identified : input.streamIdentifier.convert with
  | error what => simp only [convert, identified, reduceCtorEq] at h
  | ok identifier =>
      simp only [convert, identified] at h
      split_ifs at h with empty rate
      cases typed : input.dataType.convert with
      | error what => simp only [typed, reduceCtorEq] at h
      | ok dataType =>
          simp only [typed, Except.ok.injEq] at h
          exact ⟨identifier, dataType, rfl, not_le.mp rate, rfl, h.symm⟩

theorem Packet.accepted_of_convert {input : ImportAPI.Packet}
    {output : UDataPacketService.Packet} (h : input.convert = .ok output) : output.Accepted := by
  obtain ⟨identifier, dataType, -, rate, typed, rfl⟩ := Packet.convert_cases h
  exact ⟨nofun, nofun, DataType.convert_known typed, rate, nofun⟩

end ImportAPI

/-- After a packet of its stream, a queue ends with that packet. -/
theorem ClientView.getLast?_of_enqueue {view : ClientView} (h : view.Coherent) {packet : Packet}
    {queue : List Packet} (queued : (view.enqueue packet).queueAt packet.toName = some queue) :
    queue.getLast? = some packet := by
  rw [queueAt_enqueue packet.toName h, if_pos rfl] at queued
  split at queued
  · obtain ⟨old, -, rfl⟩ := Option.map_eq_some_iff.mp queued
    exact List.getLast?_concat
  · split at queued
    · obtain rfl := Option.some.inj queued
      rfl
    · cases queued

namespace SubscriptionManager
variable {manager : SubscriptionManager}

/-- Neither of the exceptions of the implementation is thrown where the records agree. -/
theorem enqueuePacketImpl_ok (h : manager.Coherent) (packet : Packet) :
    ∃ next, manager.enqueuePacketImpl packet = .ok next := by
  cases there : manager.mStreamsMap[packet.toName]? with
  | some stream =>
      have name := h.recordsAgree.identifier packet.toName stream there
      simp only [enqueuePacketImpl, there, Stream.setNextPacket, name, ne_eq, not_true_eq_false,
        if_false, Except.ok.injEq, exists_eq']
  | none =>
      have absent : manager.mStreamsMap.contains packet.toName = false :=
        Bool.eq_false_iff.mpr (fun contained => (not_mem_iff _ _).mpr there contained)
      simp only [enqueuePacketImpl, there, Stream.construct_eq,
        ExtTreeMap.containsThenInsertIfNew_fst, absent, Bool.false_eq_true, if_false,
        Except.ok.injEq, exists_eq']

/-- The stream of the packet exists, and the packet is the newest in all of its queues. -/
def HasNewest (manager : SubscriptionManager) (packet : Packet) : Prop :=
  ∃ stream, manager.mStreamsMap[packet.toName]? = some stream ∧
    stream.mStreamIdentifier = packet.toName ∧
    ∀ (c : ContextAddress) (queue : List Packet), stream.mSubscribersMap[c]? = some queue →
      queue.getLast? = some packet

theorem enqueuePacket_hasNewest (h : manager.Coherent) {packet : Packet}
    (accepted : packet.Accepted) :
    ∃ next, manager.enqueuePacket packet = .ok next ∧ next.HasNewest packet := by
  obtain ⟨next, enqueued⟩ := enqueuePacketImpl_ok h packet
  have taken : manager.enqueuePacket packet = .ok next := by
    rw [manager.enqueuePacket_of_accepted accepted, enqueued]
  have coherent : next.Coherent := by
    have step := coherent_step manager (.enqueuePacket packet) h
    simpa only [managerMachine, taken, Reply.settle] using step
  have seen : ∀ c, next.view c = (manager.view c).enqueue packet := by
    intro c
    rw [← view_enqueuePacketImpl, enqueued, Reply.settle]
  have exists_ : packet.toName ∈ next.mStreamsMap := by
    rw [← view_mem_streams 0, seen]
    exact (ClientView.mem_enqueue_streams packet.toName packet (h 0)).mpr (.inl rfl)
  obtain ⟨stream, there⟩ := (mem_iff_exists _ _).mp exists_
  refine ⟨next, taken, stream, there, coherent.recordsAgree.identifier _ stream there, ?_⟩
  intro c queue own
  refine ClientView.getLast?_of_enqueue (h c) ?_
  rw [← seen, ClientView.queueAt, view_getElem? c there, Option.bind_some, Stream.view,
    Stream.queueOf, own]

end SubscriptionManager

/-- In every reachable manager, a converted packet is enqueued without an exception and
is the newest packet of every subscriber of its stream. -/
theorem converted_packet_served (options : StreamOptions) (operations : List Operation)
    {input : ImportAPI.Packet} {output : Packet} (h : input.convert = .ok output) :
    ∃ next, (managerMachine.run (.fresh options) operations).enqueuePacket output = .ok next ∧
      next.HasNewest output :=
  SubscriptionManager.enqueuePacket_hasNewest (run_coherent options operations)
    (ImportAPI.Packet.accepted_of_convert h)

def importedPacket : ImportAPI.Packet where
  streamIdentifierField := some
    { networkField := some "Uu", stationField := some " CwU", channelField := some "HHz" }
  samplingRateField := some 100
  dataTypeField := some .float
  numberOfSamplesField := some 8

def convertedPacket : Packet where
  streamIdentifierField := some ⟨some "UU", some "CWU", some "HHZ", some "--"⟩
  startTimeField := some {}
  samplingRateField := some 100
  dataTypeField := some .float
  numberOfSamplesField := some 8
  dataField := some []

/-- One client awaits the stream by its name and another one awaits every stream. -/
theorem converted_packet_served_to_pending :
    ∃ next, (managerMachine.run (.fresh {}) [.subscribeToAll 1,
        .subscribe 2 [⟨some "UU", some "CWU", some "HHZ", none⟩]]).enqueuePacket convertedPacket =
          .ok next ∧ next.HasNewest convertedPacket :=
  converted_packet_served {} _ (show importedPacket.convert = .ok convertedPacket by decide +kernel)

end UDataPacketService
