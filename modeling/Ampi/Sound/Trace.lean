-- SUMMARY: What the log of a run shows: chunk callback calls, queued messages, and the WRITEs VideoCore still holds.
import Ampi.Sound.Rules

/-!
# Views of the log

The properties of the sound device are about what it does over a run, so they are
stated about views of the log. Quiet observations show in none of them.
-/

namespace Sound

/-! ## Program points -/

/-- `Callback` is inside `WriteChunk`. -/
def SlotPc.inWriteChunk : SlotPc → Bool
  | .chunkCallback | .write _ => true
  | .idle | .use _ | .dequeue _ | .errorRelease | .release => false

/-- `Callback` is inside `WriteChunk` and has not queued its header. -/
def SlotPc.headerPending : SlotPc → Bool
  | .chunkCallback | .write (.header _ _) => true
  | _ => false

theorem SlotMove.inWriteChunk {pc pc' : SlotPc} (h : SlotMove pc pc') :
    pc'.inWriteChunk = false := by
  cases h <;> rfl

theorem SlotMove.inCallback {pc pc' : SlotPc} (h : SlotMove pc pc') : pc'.inCallback = false := by
  cases h <;> rfl

theorem SlotPc.headerPending_of_not_inWriteChunk {pc : SlotPc} (h : pc.inWriteChunk = false) :
    pc.headerPending = false := by
  cases pc <;> simp_all [SlotPc.inWriteChunk, SlotPc.headerPending]

/-! ## Chunk callback calls and queued messages -/

/-- Calls of the chunk callback. -/
def chunkCalls (log : List Obs) : Nat :=
  log.countP fun
    | .chunkCallback _ => true
    | _ => false

theorem chunkCalls_quiet {log log' : List Obs} (h : QuietLog log log') :
    chunkCalls log' = chunkCalls log :=
  h.view fun l o ho => by cases o <;> simp_all [chunkCalls, Obs.quiet]

/-- The messages queued on the audio service, oldest first. -/
def audioMsgs (log : List Obs) : List AudioMsg :=
  log.filterMap fun
    | .queued _ m => some m
    | _ => none

@[simp] theorem audioMsgs_append (l l' : List Obs) :
    audioMsgs (l ++ l') = audioMsgs l ++ audioMsgs l' := List.filterMap_append ..

theorem audioMsgs_quiet {log log' : List Obs} (h : QuietLog log log') :
    audioMsgs log' = audioMsgs log :=
  h.view fun l o ho => by cases o <;> simp_all [audioMsgs, Obs.quiet]

/-- The byte counts that the `WRITE`s among `ms` announce. -/
def headers (ms : List AudioMsg) : List UInt32 :=
  ms.filterMap fun
    | .write count .. => some count
    | _ => none


@[simp] theorem audioMsgs_primedObs (d : Device) (n : Priming) :
    audioMsgs (Sys.primedObs d n) = [] := by
  cases n with
  | first => cases h : d.chunkCallback <;> simp [Sys.primedObs, h, audioMsgs]
  | second => rfl

end Sound
