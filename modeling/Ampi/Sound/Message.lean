-- SUMMARY: Messages exchanged with VideoCore's audio service and the device's enumerations.
import Mathlib.Data.List.Basic

/-!
# Audio service messages

`VC_AUDIO_MSG_T` in both directions (vc_vchi_audioserv_defs.h). A raw packet of
sample data has no header of its own on this service, so it is one more kind of
outgoing message.
-/

namespace Sound

/-- `TVCHIQSoundState`, in the order of the source: `Start` and `IsActive`
compare states with `>` and `>=`. -/
inductive SoundState where
  | created | idle | running | cancelled | terminating | error | unknown
  deriving DecidableEq, Repr

def SoundState.toNat : SoundState → Nat
  | .created => 0
  | .idle => 1
  | .running => 2
  | .cancelled => 3
  | .terminating => 4
  | .error => 5
  | .unknown => 6

/-- `TVCHIQSoundDestination`. -/
inductive SoundDestination where
  | auto | headphones | hdmi | unknown
  deriving DecidableEq, Repr

def SoundDestination.toUInt32 : SoundDestination → UInt32
  | .auto => 0
  | .headphones => 1
  | .hdmi => 2
  | .unknown => 3

/-- `MAKE_FOURCC`: the first character is the most significant byte. -/
def makeFourcc (a b c d : Char) : UInt32 :=
  (a.val <<< 24) ||| (b.val <<< 16) ||| (c.val <<< 8) ||| d.val

def writeCookie1 : UInt32 := makeFourcc 'B' 'C' 'M' 'A'
def writeCookie2 : UInt32 := makeFourcc 'D' 'A' 'T' 'A'

/-- `Msg.u.write.max_packet`. -/
def maxPacket : UInt32 := 4000

/-- What `QueueMessage` is called with. -/
inductive Request where
  | config (channels samplerate bps : UInt32)
  | control (volume dest : UInt32)
  | openAudio
  | start
  | stop (draining : UInt32)
  deriving DecidableEq, Repr

/-- What the device queues on the audio service. Only `WriteChunk` queues the last
two. -/
inductive AudioMsg where
  | request (r : Request)
  | write (count cookie1 cookie2 silence maxPacket : UInt32)
  | data (bytes : List UInt8)
  deriving DecidableEq, Repr

/-- What VideoCore sends back. -/
inductive VcMsg where
  | result (success : Int)
  | complete (count cookie1 cookie2 : UInt32)
  | other (type : Int)
  deriving DecidableEq, Repr

/-- The reasons with which the service calls back (`shim_callback`). -/
inductive CallbackReason where
  | msgAvailable | bulkSent | bulkReceived | serviceClosed | bulkTransmitAborted
  | bulkReceiveAborted
  deriving DecidableEq, Repr

def VOLUME_MIN : Int := -10000
def VOLUME_DEFAULT : Int := 0
def VOLUME_MAX : Int := 400

/-- `VOLUME_TO_CHIP`: the division truncates towards zero and the negated
quotient is stored as an unsigned word. -/
def volumeToChip (volume : Int) : UInt32 :=
  UInt32.ofBitVec (BitVec.ofInt 32 (-(volume * 256).tdiv 100))

end Sound
