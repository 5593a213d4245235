-- SUMMARY: The uses of the audio service that the device takes and gives back, and the exit that keeps one.
import Ampi.Sound.Rules
import Mathlib.Algebra.Order.Group.Int
import Mathlib.Tactic.Ring

/-!
# Uses of the service

`vchi_service_use` and `vchi_service_release` as they show in the log. A service that has
been opened is in use. Each context has its own uses, so that a function of the device is
balanced if its context holds none when it is outside again.
-/

namespace Sound

/-- What an observation adds to the uses of a context. -/
def Obs.uses (c : Ctx) : Obs → Int
  | .serviceOpened => if c = .main then 1 else 0
  | .serviceUse c' => if c = c' then 1 else 0
  | .serviceRelease c' => if c = c' then -1 else 0
  | _ => 0

/-- The calls of `vchi_service_use` of a context, less those of `vchi_service_release`. -/
def heldUses (c : Ctx) (log : List Obs) : Int := (log.map (Obs.uses c)).sum

@[simp] theorem heldUses_append (c : Ctx) (log log' : List Obs) :
    heldUses c (log ++ log') = heldUses c log + heldUses c log' := by
  rw [heldUses, List.map_append, List.sum_append]
  rfl

@[simp] theorem heldUses_singleton (c : Ctx) (o : Obs) : heldUses c [o] = o.uses c := by
  simp [heldUses]

/-- The uses that the function holds which calls `QueueMessage`: only `Cancel` does. -/
def Purpose.uses : Purpose → Int
  | .stop => 1
  | _ => 0

/-- The uses that the main thread is still going to give back. -/
def MainPc.uses : MainPc → Int
  | .openRelease | .peerVersion | .chunkCallback _ | .write _ _ | .startRelease _
  | .cancelRelease => 1
  | .queueMessage p _ .use => p.uses
  | .queueMessage p _ .queue => p.uses + 1
  | .queueMessage p _ (.release nResult) => (if nResult = 0 then p.uses else 0) + 1
  | _ => 0

/-- The uses that the slot handler is still going to give back. -/
def SlotPc.uses : SlotPc → Int
  | .idle | .use _ => 0
  | _ => 1

def Event.isMainReturn : Event → Bool
  | .mainReturn _ => true
  | _ => false

namespace Sys

/-- `Cancel` can queue its `STOP`. -/
def stopQueued (s : Sys) (e : Event) : Bool :=
  match s.main, e with
  | .queueMessage .stop _ .queue, .mainReturn nResult => s.slot.inCallback || nResult = 0
  | _, _ => true

/-- The uses of the main thread that no code gives back. -/
def lostUses (s : Sys) : Int := heldUses .main s.log - s.main.uses

/-- The uses of the slot handler that no code gives back. -/
def lostSlotUses (s : Sys) : Int := heldUses .slotHandler s.log - s.slot.uses

/-! ## The main thread -/

/-- Where the main thread goes from `log`, with what it then loses; the slot handler stays. -/
structure MainGoes (slot : SlotPc) (log : List Obs) (s' : Sys) (lost : Int) : Prop where
  slot : s'.slot = slot
  slotUses : heldUses .slotHandler s'.log = heldUses .slotHandler log
  lost : s'.lostUses = heldUses .main log + lost

theorem MainGoes.here {slot : SlotPc} {log : List Obs} {s' : Sys} {lost : Int}
    (hslot : s'.slot = slot) (hlog : s'.log = log) (hlost : -s'.main.uses = lost) :
    MainGoes slot log s' lost where
  slot := hslot
  slotUses := by rw [hlog]
  lost := by rw [lostUses, hlog, ← hlost, Int.sub_eq_add_neg]

theorem mainReturns_goes (s : Sys) (b : Bool) : MainGoes s.slot s.log (s.mainReturns b) 0 where
  slot := rfl
  slotUses := by simp [mainReturns, toMain, emit, Obs.uses]
  lost := by simp [lostUses, mainReturns, toMain, emit, MainPc.uses, Obs.uses]

theorem startFails_goes (s : Sys) : MainGoes s.slot s.log s.startFails 0 :=
  mainReturns_goes (s.setState .error) false

theorem callReturned_goes (s : Sys) {p : Purpose} (nResult : Int)
    (hp : p = .config ∨ p = .control ∨ p = .setControl) :
    MainGoes s.slot s.log (s.callReturned p nResult) 0 := by
  unfold callReturned
  obtain rfl | rfl | rfl := hp
  · dsimp only
    split
    · exact startFails_goes s
    · exact .here rfl rfl rfl
  · dsimp only
    split
    · exact startFails_goes s
    · exact .here rfl rfl rfl
  · exact .here rfl rfl rfl

theorem eventLoop_goes (s : Sys) {p : Purpose}
    (hp : p = .config ∨ p = .control ∨ p = .setControl) :
    MainGoes s.slot s.log (s.eventLoop p) 0 := by
  unfold eventLoop
  split
  · exact callReturned_goes s _ hp
  · exact .here rfl rfl rfl

/-- A use that `Cancel` holds is lost when its `STOP` has not been queued. -/
theorem queueReturned_goes (s : Sys) (p : Purpose) (nResult : Int) :
    MainGoes s.slot s.log (s.queueReturned p nResult) (-if nResult = 0 then p.uses else 0) := by
  have hcall (hp : p = .config ∨ p = .control ∨ p = .setControl) :
      MainGoes s.slot s.log (s.queueReturned p nResult) 0 := by
    have hq : s.queueReturned p nResult = if nResult = 0 then s.eventLoop p
        else callReturned { s with dev := { s.dev with result := nResult } } p nResult := by
      obtain rfl | rfl | rfl := hp <;> rfl
    rw [hq]
    split
    · exact eventLoop_goes s hp
    · exact callReturned_goes { s with dev := { s.dev with result := nResult } } nResult hp
  cases p with
  | config | control | setControl => simpa [Purpose.uses] using hcall (by simp)
  | openAudio | start =>
    simp only [queueReturned, Purpose.uses, ite_self, neg_zero]
    split
    · exact startFails_goes s
    · exact .here rfl rfl rfl
  | stop =>
    simp only [queueReturned, Purpose.uses]
    by_cases hr : nResult = 0
    · rw [if_pos hr]
      simp only [hr, ne_eq, not_true_eq_false, if_false]
      exact .here rfl rfl rfl
    · simpa [hr] using mainReturns_goes s false

theorem secondChunk_goes (s : Sys) (next : WriteNext) :
    MainGoes s.slot s.log (s.secondChunk next) (-1) := by
  cases next with
  | callback =>
    constructor <;> simp [secondChunk, lostUses, toMain, emit, MainPc.uses, Obs.uses]
    rfl
  | send w => exact .here rfl rfl rfl
  | ret nResult => exact .here rfl rfl rfl

theorem primingChunk_goes (s : Sys) (n : Priming) (next : WriteNext) :
    MainGoes s.slot s.log (s.primingChunk n next) (-1) := by
  cases n with
  | second => exact secondChunk_goes s next
  | first =>
    cases next with
    | callback =>
      constructor <;> simp [primingChunk, firstChunk, lostUses, toMain, emit, MainPc.uses, Obs.uses]
      rfl
    | send w => exact .here rfl rfl rfl
    | ret nResult =>
      simp only [primingChunk, firstChunk]
      split
      · exact secondChunk_goes s _
      · exact .here rfl rfl rfl

/-- What a step does to the uses: a `STOP` that is not queued loses one, and nothing else
does. -/
structure Kept (s s' : Sys) (e : Event) : Prop where
  main : s'.lostUses = s.lostUses + if s.stopQueued e then 0 else 1
  slot : s'.lostSlotUses = s.lostSlotUses

theorem MainGoes.kept {s s' : Sys} {e : Event} {slot : SlotPc} {log : List Obs} {lost : Int}
    (h : MainGoes slot log s' lost) (hs : slot = s.slot)
    (hslot : heldUses .slotHandler log = heldUses .slotHandler s.log)
    (hmain : heldUses .main log + lost = s.lostUses + if s.stopQueued e then 0 else 1) :
    s.Kept s' e where
  main := h.lost.trans hmain
  slot := by rw [lostSlotUses, lostSlotUses, h.slot, h.slotUses, hslot, hs]

theorem Kept.refl {s : Sys} {e : Event} (h : s.stopQueued e = true) : s.Kept s e :=
  ⟨by simp [h], rfl⟩

theorem mainReturn_kept (s : Sys) (nResult : Int) (hc : s.slot.inCallback = false) :
    s.Kept (s.mainReturn nResult) (.mainReturn nResult) := by
  cases hm : s.main with
  | initialise | connect =>
    have hok : s.stopQueued (.mainReturn nResult) = true := by simp [stopQueued, hm]
    simp only [mainReturn, hm]
    split
    · exact (startFails_goes s).kept rfl rfl (by simp [lostUses, hm, hok, MainPc.uses])
    · exact (MainGoes.here rfl rfl rfl).kept rfl rfl
        (by simp [lostUses, hm, hok, toMain, MainPc.uses])
  | serviceOpen =>
    have hok : s.stopQueued (.mainReturn nResult) = true := by simp [stopQueued, hm]
    simp only [mainReturn, hm]
    split
    · exact (startFails_goes s).kept rfl rfl (by simp [lostUses, hm, hok, MainPc.uses])
    · constructor <;> simp [lostUses, lostSlotUses, hm, hok, MainPc.uses, Obs.uses, emit, toMain]
  | openRelease =>
    have hok : s.stopQueued (.mainReturn nResult) = true := by simp [stopQueued, hm]
    simp only [mainReturn, hm]
    constructor <;> simp [lostUses, lostSlotUses, hm, hok, MainPc.uses, Purpose.uses, Obs.uses,
      emit, toMain, callMessage, queueMessage]
    omega
  | queueMessage p m q =>
    cases q with
    | use =>
      have hok : s.stopQueued (.mainReturn nResult) = true := by simp [stopQueued, hm]
      simp only [mainReturn, hm]
      constructor <;> simp [lostUses, lostSlotUses, hm, hok, MainPc.uses, Obs.uses, emit, toMain]
    | queue =>
      simp only [mainReturn, hm]
      by_cases hr : nResult = 0
      · subst hr
        have hok : s.stopQueued (.mainReturn 0) = true := by
          cases p <;> simp [stopQueued, hm]
        constructor <;> simp [lostUses, lostSlotUses, hm, hok, MainPc.uses, Obs.uses, emit, toMain]
      · have hok : s.stopQueued (.mainReturn nResult) = true ↔ p ≠ .stop := by
          cases p <;> simp [stopQueued, hm, hr, hc]
        constructor
        · cases p <;> simp [lostUses, hm, hok, hr, MainPc.uses, Purpose.uses, toMain]
          omega
        · simp [lostSlotUses, hr, toMain]
    | release r =>
      have hok : s.stopQueued (.mainReturn nResult) = true := by simp [stopQueued, hm]
      simp only [mainReturn, hm]
      refine (queueReturned_goes (s.emit (.serviceRelease .main)) p r).kept rfl ?_ ?_
      · simp [emit, Obs.uses]
      · simp [emit, lostUses, hm, hok, MainPc.uses, Obs.uses]
        omega
  | startUse | cancelUse =>
    have hok : s.stopQueued (.mainReturn nResult) = true := by simp [stopQueued, hm]
    simp only [mainReturn, hm]
    constructor <;> simp [lostUses, lostSlotUses, hm, hok, MainPc.uses, Purpose.uses, Obs.uses,
      emit, toMain, queueMessage]
  | write n w =>
    have hok : s.stopQueued (.mainReturn nResult) = true := by simp [stopQueued, hm]
    simp only [mainReturn, hm]
    split <;>
    · refine (primingChunk_goes _ n _).kept rfl ?_ ?_
      · simp [emit, Obs.uses]
      · simp [emit, lostUses, hm, hok, MainPc.uses, Obs.uses]
        rfl
  | startRelease failed =>
    have hok : s.stopQueued (.mainReturn nResult) = true := by simp [stopQueued, hm]
    simp only [mainReturn, hm]
    split
    · refine (startFails_goes _).kept rfl ?_ ?_
      · simp [emit, Obs.uses]
      · simp [emit, lostUses, hm, hok, MainPc.uses, Obs.uses]
        rfl
    · refine (mainReturns_goes _ true).kept rfl ?_ ?_
      · simp [emit, Obs.uses]
      · simp [emit, lostUses, hm, hok, MainPc.uses, Obs.uses]
        rfl
  | cancelRelease =>
    have hok : s.stopQueued (.mainReturn nResult) = true := by simp [stopQueued, hm]
    simp only [mainReturn, hm]
    refine (mainReturns_goes _ true).kept rfl ?_ ?_
    · simp [emit, setState, Obs.uses]
    · simp [emit, setState, lostUses, hm, hok, MainPc.uses, Obs.uses]
      rfl
  | idle | waitEvent | peerVersion | chunkCallback | cancelWait =>
    have hok : s.stopQueued (.mainReturn nResult) = true := by simp [stopQueued, hm]
    simp only [mainReturn, hm]
    exact .refl hok

/-! ## The slot handler -/

/-- The rest of `Callback` from `log` on, which holds a use; the main thread stays. -/
structure SlotGoes (main : MainPc) (log : List Obs) (s' : Sys) : Prop where
  main : s'.main = main
  mainUses : heldUses .main s'.log = heldUses .main log
  lost : s'.lostSlotUses = heldUses .slotHandler log - 1

theorem SlotGoes.here {s s' : Sys} (hmain : s'.main = s.main) (hlog : s'.log = s.log)
    (hslot : s'.slot.uses = 1) : SlotGoes s.main s.log s' where
  main := hmain
  mainUses := by rw [hlog]
  lost := by rw [lostSlotUses, hlog, hslot]

theorem callbackChunk_goes (s : Sys) (next : WriteNext) :
    SlotGoes s.main s.log (s.callbackChunk next) := by
  cases next with
  | callback =>
    constructor <;> simp [callbackChunk, lostSlotUses, toSlot, emit, SlotPc.uses, Obs.uses]
  | send w => exact .here rfl rfl rfl
  | ret nResult =>
    simp only [callbackChunk]
    split
    · exact .here rfl rfl rfl
    · exact .here rfl rfl rfl

theorem complete_goes (s : Sys) (count cookie1 cookie2 : UInt32) :
    SlotGoes s.main s.log (s.complete count cookie1 cookie2) := by
  unfold complete
  split
  · exact .here rfl rfl rfl
  split
  · exact .here rfl rfl rfl
  dsimp only
  split
  · split
    · exact .here rfl rfl rfl
    · exact callbackChunk_goes { s with dev := s.dev.completed count } _
  · exact .here rfl rfl rfl

theorem dequeued_goes (s : Sys) (m : VcMsg) : SlotGoes s.main s.log (s.dequeued m) := by
  cases m with
  | result success => exact .here rfl rfl rfl
  | complete count cookie1 cookie2 => exact complete_goes s count cookie1 cookie2
  | other type => exact .here rfl rfl rfl

theorem SlotGoes.kept {s s' : Sys} {e : Event} {main : MainPc} {log : List Obs}
    (h : SlotGoes main log s') (hs : main = s.main)
    (hmain : heldUses .main log = heldUses .main s.log)
    (hslot : heldUses .slotHandler log - 1 = s.lostSlotUses) (hok : s.stopQueued e = true) :
    s.Kept s' e where
  main := by rw [lostUses, lostUses, h.main, h.mainUses, hmain, hs, hok]; simp
  slot := h.lost.trans hslot

theorem stopQueued_of_isMainReturn {s : Sys} {e : Event} (he : e.isMainReturn = false) :
    s.stopQueued e = true := by
  unfold stopQueued
  split
  · cases he
  · rfl

theorem slotReturn_kept (s : Sys) (nResult : Int) :
    s.Kept (s.slotReturn nResult) (.slotReturn nResult) := by
  have hok : s.stopQueued (.slotReturn nResult) = true := stopQueued_of_isMainReturn rfl
  cases hs : s.slot with
  | idle | chunkCallback =>
    simp only [slotReturn, hs]
    exact .refl hok
  | use m =>
    simp only [slotReturn, hs]
    constructor <;> simp [lostUses, lostSlotUses, hs, hok, SlotPc.uses, Obs.uses, emit, toSlot]
  | dequeue m =>
    simp only [slotReturn, hs]
    split
    · constructor <;> simp [lostUses, lostSlotUses, hs, hok, SlotPc.uses, toSlot]
    · refine (dequeued_goes (s.emit (.dequeued m)) m).kept rfl ?_ ?_ hok
      · simp [emit, Obs.uses]
      · simp [emit, lostSlotUses, hs, SlotPc.uses, Obs.uses]
  | errorRelease | release =>
    simp only [slotReturn, hs]
    constructor <;> simp [lostUses, lostSlotUses, hs, hok, SlotPc.uses, Obs.uses, emit, toSlot,
      setState]
    rfl
  | write w =>
    simp only [slotReturn, hs]
    split <;>
    · refine (callbackChunk_goes _ _).kept rfl ?_ ?_ hok
      · simp [emit, Obs.uses]
      · simp [emit, lostSlotUses, hs, SlotPc.uses, Obs.uses]

/-! ## Steps and runs -/

theorem call_kept {s s' : Sys} {e : Event} (he : e.isMainReturn = false)
    (h : MainGoes s.slot s.log s' (-s.main.uses)) : s.Kept s' e :=
  h.kept rfl rfl (by simp [stopQueued_of_isMainReturn he, lostUses, Int.sub_eq_add_neg])

theorem start_goes (s : Sys) : MainGoes s.slot s.log s.start 0 := by
  unfold start
  split
  · exact mainReturns_goes s false
  split
  · exact .here rfl rfl rfl
  · exact .here rfl rfl rfl

theorem cancel_goes (s : Sys) : MainGoes s.slot s.log s.cancel 0 := by
  unfold cancel
  split
  · exact mainReturns_goes s false
  · exact .here rfl rfl rfl

theorem versionReturned_goes (s : Sys) (nResult usPeerVersion : Int) :
    MainGoes s.slot s.log (s.versionReturned nResult usPeerVersion) (-1) := by
  unfold versionReturned
  split
  · exact .here rfl rfl rfl
  · obtain ⟨hslot, hslotUses, hlost⟩ := primingChunk_goes
      (emit { s with dev := { s.dev with writePos := 0, completePos := 0 } } .positionsReset)
      .first s.dev.writeChunk
    refine ⟨hslot, hslotUses.trans ?_, hlost.trans ?_⟩
    · simp [emit, Obs.uses]
    · simp [emit, Obs.uses]

theorem resume_goes (s : Sys) : MainGoes s.slot s.log s.resume (-s.main.uses) := by
  unfold resume
  split
  case h_1 p hm =>
    rw [hm]
    cases p with
    | config | control | setControl => exact eventLoop_goes s (by simp)
    | openAudio | start | stop =>
      unfold eventLoop
      split
      · exact .here rfl rfl (congrArg (-MainPc.uses ·) hm)
      · exact .here rfl rfl rfl
  case h_2 hm =>
    split
    · exact .here rfl rfl rfl
    · exact .here rfl rfl (by rw [hm]; rfl)
  case h_3 => exact .here rfl rfl rfl

theorem step_kept (s : Sys) (e : Event) : s.Kept (s.step e) e := by
  have hrefl (he : e.isMainReturn = false) : s.Kept s e :=
    .refl (stopQueued_of_isMainReturn he)
  cases e with
  | setChunkCallback b => exact call_kept rfl (.here rfl rfl rfl)
  | start =>
    simp only [step]
    split
    case isFalse => exact hrefl rfl
    case isTrue hfree =>
      have hm := (idle_of_mainFree hfree).1
      exact call_kept rfl (by simpa [hm, MainPc.uses] using start_goes s)
  | cancel =>
    simp only [step]
    split
    case isFalse => exact hrefl rfl
    case isTrue hfree =>
      have hm := (idle_of_mainFree hfree).1
      exact call_kept rfl (by simpa [hm, MainPc.uses] using cancel_goes s)
  | setControl v d =>
    simp only [step]
    split
    case isFalse => exact hrefl rfl
    case isTrue hfree =>
      have hm := (idle_of_mainFree hfree).1
      exact call_kept rfl (.here rfl rfl (by rw [hm]; rfl))
  | mainReturn nResult =>
    simp only [step]
    split
    case isTrue hc =>
      refine .refl ?_
      unfold stopQueued
      split
      · rename_i heq
        obtain rfl := Event.mainReturn.inj heq
        simp [hc]
      · rfl
    case isFalse hc => exact mainReturn_kept s nResult (by simpa using hc)
  | peerVersion nResult usPeerVersion =>
    simp only [step]
    split
    case h_2 => exact hrefl rfl
    case h_1 hm =>
      split
      · exact hrefl rfl
      · have hgoes := versionReturned_goes s nResult usPeerVersion
        exact call_kept rfl (by simpa [hm, MainPc.uses] using hgoes)
  | resume =>
    simp only [step]
    split
    · exact hrefl rfl
    · exact call_kept rfl (resume_goes s)
  | chunkReturn r =>
    simp only [step, chunkReturn]
    split
    case h_1 n hm =>
      have hgoes :=
        primingChunk_goes { s with dev := (s.dev.chunkReturned r).1 } n (s.dev.chunkReturned r).2
      exact call_kept rfl (by simpa [hm, MainPc.uses] using hgoes)
    case h_2 hs _ =>
      refine (callbackChunk_goes { s with dev := (s.dev.chunkReturned r).1 } _).kept rfl rfl ?_
        (stopQueued_of_isMainReturn rfl)
      simp [lostSlotUses, hs, SlotPc.uses]
    case h_3 => exact hrefl rfl
  | deliver reason m =>
    simp only [step]
    split
    case h_2 => exact hrefl rfl
    case h_1 hs =>
      split
      · exact hrefl rfl
      · constructor
        · rw [stopQueued_of_isMainReturn rfl]
          simp [lostUses, toSlot]
        · simp [lostSlotUses, hs, SlotPc.uses, toSlot]
  | slotReturn nResult =>
    simp only [step]
    split
    · exact hrefl rfl
    · exact slotReturn_kept s nResult

/-- A run loses as many uses as it has `STOP`s that were not queued. -/
theorem run_kept (s : Sys) (es : List Event) :
    s.lostUses ≤ (s.run es).lostUses ∧
      ((s.run es).lostUses = s.lostUses ↔ Machine.Along step (stopQueued · ·) s es) ∧
      (s.run es).lostSlotUses = s.lostSlotUses := by
  induction es generalizing s with
  | nil => simp [Machine.Along]
  | cons e es ih =>
    obtain ⟨hmain, hslot'⟩ := step_kept s e
    obtain ⟨hle, heq, hslot⟩ := ih (s.step e)
    simp only [run, Machine.run_cons, Machine.Along] at hle heq hslot ⊢
    rw [← heq]
    refine ⟨?_, ?_, hslot.trans hslot'⟩
    · split at hmain <;> omega
    · split at hmain
      case isTrue hok => simp [hok, hmain]
      case isFalse hok =>
        simp only [hok, Bool.false_eq_true, false_and, iff_false]
        omega

/-- Every function of the device gives back the uses that it takes: a context that is outside
of it holds none. -/
def UsesReleased (s : Sys) : Prop :=
  (s.main = .idle → heldUses .main s.log = 0) ∧
    (s.slot = .idle → heldUses .slotHandler s.log = 0)

/-- `Callback` always gives back what it took. The main thread has done so, outside of its
functions, if and only if every `STOP` so far has been queued. -/
theorem usesReleased_iff (sampleRate chunkSize : UInt32) (destination : SoundDestination)
    (es : List Event) :
    ((ctor sampleRate chunkSize destination).run es).UsesReleased ↔
      (((ctor sampleRate chunkSize destination).run es).main = .idle →
        Machine.Along step (stopQueued · ·) (ctor sampleRate chunkSize destination) es) := by
  obtain ⟨-, heq, hslot⟩ := run_kept (ctor sampleRate chunkSize destination) es
  have hlost : (ctor sampleRate chunkSize destination).lostUses = 0 := rfl
  have hlostSlot : (ctor sampleRate chunkSize destination).lostSlotUses = 0 := rfl
  rw [hlost, lostUses] at heq
  rw [hlostSlot, lostSlotUses] at hslot
  constructor
  · intro h hmain
    refine heq.1 ?_
    rw [h.1 hmain, hmain]
    rfl
  · refine fun h => ⟨fun hmain => ?_, fun hs => ?_⟩
    · have hzero := heq.2 (h hmain)
      rw [hmain] at hzero
      exact Int.sub_eq_zero.1 hzero
    · rw [hs] at hslot
      exact Int.sub_eq_zero.1 hslot

/-- A session that is cancelled. -/
def twoChunksCancelled : List Event :=
  twoChunksQueued ++ .cancel :: handled (.complete 2 writeCookie1 writeCookie2) ++ [.resume]

/-- Its `STOP` is not queued, and `Cancel` returns with a use of its own. -/
theorem not_usesReleased : ¬ ∀ es, ((ctor 44100 1 .auto).run es).UsesReleased := by
  intro h
  have := (h (twoChunksCancelled ++ mainCalls 2 ++ [.mainReturn (-1), .mainReturn 0])).1
    (idle_of_mainFree (by decide +kernel)).1
  revert this
  decide +kernel

end Sys

end Sound
