import UDataPacketService.MachineRuns

/-! The messages of the service API and the utilities computed from them. Every
field of a message has explicit presence, so a field is an option and its
accessor reads the declared default when the field is unset. A finite double is
the rational it denotes. -/
namespace UDataPacketService

structure StreamIdentifier where
  networkField : Option String := none
  stationField : Option String := none
  channelField : Option String := none
  locationCodeField : Option String := none
  deriving DecidableEq, Repr

namespace StreamIdentifier

def network (i : StreamIdentifier) : String := i.networkField.getD ""
def station (i : StreamIdentifier) : String := i.stationField.getD ""
def channel (i : StreamIdentifier) : String := i.channelField.getD ""

/-- The location code is the one field whose declared default is not empty. -/
def locationCode (i : StreamIdentifier) : String := i.locationCodeField.getD "--"

/-- `Utilities::toName` of a stream identifier. -/
def toName (i : StreamIdentifier) : String :=
  let result := i.network ++ "." ++ i.station ++ "." ++ i.channel
  if i.locationCode = "" then result else result ++ "." ++ i.locationCode

end StreamIdentifier

/-- Enumeration `DataType`; a proto enumeration is open, so a message can hold
a number that names no constant. -/
inductive DataType where
  | unknown
  | integer32
  | float
  | double
  | text
  | integer64
  | unlisted (value : Int)
  deriving DecidableEq, Repr

structure Timestamp where
  seconds : Int := 0
  nanos : Int := 0
  deriving DecidableEq, Repr

/-- `TimeUtil::TimestampToMicroseconds`, which rounds the nanoseconds toward zero. -/
def Timestamp.toMicroseconds (t : Timestamp) : Int := t.seconds * 1000000 + t.nanos.tdiv 1000

structure Packet where
  streamIdentifierField : Option StreamIdentifier := none
  startTimeField : Option Timestamp := none
  samplingRateField : Option ℚ := none
  dataTypeField : Option DataType := none
  numberOfSamplesField : Option UInt32 := none
  dataField : Option (List UInt8) := none
  deriving DecidableEq, Repr

namespace Packet

def streamIdentifier (p : Packet) : StreamIdentifier := p.streamIdentifierField.getD {}
def startTime (p : Packet) : Timestamp := p.startTimeField.getD {}
def samplingRate (p : Packet) : ℚ := p.samplingRateField.getD 0
def dataType (p : Packet) : DataType := p.dataTypeField.getD .unknown
def numberOfSamples (p : Packet) : UInt32 := p.numberOfSamplesField.getD 0

/-- `Utilities::toName` of a packet. -/
def toName (p : Packet) : String := p.streamIdentifier.toName

end Packet

def channelIdentifier (channel : String) : StreamIdentifier :=
  ⟨some "UU", some "CWU", some channel, some "01"⟩

def channelPacket (channel : String) (startSeconds : Int) (samples : UInt32) : Packet where
  streamIdentifierField := some (channelIdentifier channel)
  startTimeField := some ⟨startSeconds, 0⟩
  samplingRateField := some 100
  dataTypeField := some .integer32
  numberOfSamplesField := some samples
  dataField := some []

/-- `std::round`: to the nearest integer, halves away from zero. -/
def stdRound (x : ℚ) : Int := if 0 ≤ x then ⌊x + 1 / 2⌋ else -⌊-x + 1 / 2⌋

theorem stdRound_nonneg {x : ℚ} (h : 0 ≤ x) : 0 ≤ stdRound x := by
  rw [stdRound, if_pos h]
  exact Int.floor_nonneg.mpr (by linarith)

/-- `Utilities::getEndTimeInMicroSeconds`. The subtraction is in the 32 bits of
the unsigned sample count; the rest is exact while no `int64_t` overflows. -/
def getEndTimeInMicroSeconds (p : Packet) : Except String Int :=
  let startTimeMuSec := p.startTime.toMicroseconds
  if p.samplingRate ≤ 0 then .error "Sampling rate not positive"
  else
    let dtMuSec := stdRound (1000000 / p.samplingRate)
    .ok (startTimeMuSec + dtMuSec * ((p.numberOfSamples - 1).toNat : Int))

end UDataPacketService
