-- SUMMARY: VideoCore's side of a session: the WRITEs that it has received and not yet completed.
import Ampi.Sound.Trace

/-!
# Outstanding `WRITE`s

VideoCore answers the `WRITE`s in order. What it still has queued is read off the
log, each `WRITE` with the session it belongs to; a session begins where `Start`
resets the positions.
-/

namespace Sound

/-- A `WRITE` that has not been completed. -/
structure Outstanding where
  session : Nat
  count : UInt32
  deriving DecidableEq, Repr

structure VideoCore where
  session : Nat := 0
  queue : List Outstanding := []

/-- VideoCore's queue and the session after one more observation. -/
def VideoCore.next (v : VideoCore) : Obs → VideoCore
  | .queued _ m =>
    match m with
    | .write count _ _ _ _ => { v with queue := v.queue ++ [⟨v.session, count⟩] }
    | .request _ | .data _ => v
  | .dequeued m =>
    match m with
    | .complete _ _ _ => { v with queue := v.queue.tail }
    | .result _ | .other _ => v
  | .positionsReset => { v with session := v.session + 1 }
  | .chunkCallback _ | .serviceOpened | .serviceUse _ | .serviceRelease _ | .returned _ => v

def videoCore (log : List Obs) : VideoCore := log.foldl VideoCore.next {}

@[simp] theorem videoCore_append (l l' : List Obs) :
    videoCore (l ++ l') = l'.foldl VideoCore.next (videoCore l) := List.foldl_append

theorem videoCore_quiet {log log' : List Obs} (h : QuietLog log log') :
    videoCore log' = videoCore log :=
  h.view fun l o ho => by cases o <;> simp_all [Obs.quiet, VideoCore.next]

@[simp] theorem videoCore_primedObs (v : VideoCore) (d : Device) (n : Priming) :
    (Sys.primedObs d n).foldl VideoCore.next v = v := by
  cases n with
  | first => cases h : d.chunkCallback <;> simp [Sys.primedObs, h, VideoCore.next]
  | second => rfl

namespace Sys

/-- What VideoCore still has queued. -/
def queue (s : Sys) : List Outstanding := (videoCore s.log).queue

/-- VideoCore answers each `WRITE` with one `COMPLETE`, in order, with its byte
count and the cookies. -/
def vcAnswers (s : Sys) : Event → Bool
  | .slotReturn _ =>
    match s.slot with
    | .dequeue (.complete count k1 k2) =>
      goodCookies k1 k2 ∧ s.queue.head?.map Outstanding.count = some count
    | _ => true
  | _ => true

end Sys
end Sound
