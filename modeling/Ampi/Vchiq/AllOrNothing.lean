-- SUMMARY: In every run queue_message queues its message and returns success, or does neither.
import Ampi.Vchiq.Queueing

/-!
# All or nothing

What a thread has written and whether it has `slot_mutex` follows from where it stands, and where
the sender of the transport stands follows from where the thread with `slot_mutex` does.
-/

namespace Queueing

open Slots

/-! ## The invariant -/

/-- Where the transport's sender is when the thread has `slot_mutex`. -/
def Pc.sender : Pc → SenderPc
  | .slotWait call => .waiting call.message
  | .filling call slot off => .filling call.message slot off
  | .publishing call => .publishing call.message
  | _ => .idle

/-- The call of `queue_message` that the thread is in, or has returned from. -/
def Pc.call : Pc → Option Call
  | .lock call | .dataWait call _ | .dataLock call _ | .quotaWait call _ | .quotaLock call _
  | .slotWait call | .filling call _ _ | .publishing call | .returned call _ => some call
  | _ => none

/-- What the thread's call has written, and whether the thread has `slot_mutex`. -/
def Pc.Ok (r : Record) (holds : Prop) : Pc → Prop
  | .outside => True
  | .lock call => r = {} ∧ ¬ holds ∧ call.noMutexLock = false ∧ call.proper
  | .dataWait call _ | .dataLock call _ | .quotaWait call _ | .quotaLock call _ =>
    r = {} ∧ ¬ holds ∧ call.noMutexLock = false
  | .slotWait _ | .filling _ _ _ =>
    holds ∧ Padding r.written ∧ r.sent = [] ∧ r.synced = []
  | .publishing call =>
    holds ∧ (∃ padding pos, Padding padding ∧ r.written = padding ++ [call.message.header pos]) ∧
      r.sent = [] ∧ r.synced = []
  | .returned call status => Outcome call status r holds ∧ r.synced = []
  | .syncLock _ | .syncWait _ | .failed => r = {}
  | .syncReturned m status => r = { synced := if status = .success then [m] else [] }
  | .fault => False

/-- The call is one that `vchi_msg_queue` makes for the element. -/
structure Call.Serves (port : Nat) (e : Element) (call : Call) : Prop where
  lock : call.noMutexLock = false
  message : ∃ remoteport, dataMessage (.ofNat port) remoteport e = some call.message

def Pc.Serves (port : Nat) (e : Element) (holds : Prop) : Pc → Prop
  | .syncLock m | .syncWait m | .syncReturned m _ =>
    ¬ holds ∧ ∃ remoteport, dataMessage (.ofNat port) remoteport e = some m
  | .failed => ¬ holds
  | pc => ∀ call, pc.call = some call → call.Serves port e

def Client.Ok (t : Thread) (holds : Prop) : Client → Prop
  | .none => True
  | .calling port e => t.earlier.Clean ∧ t.pc.Serves port e holds
  | .sleeping _ _ => t.earlier.Clean ∧ t.record.Clean ∧ t.pc.free ∧ ¬ holds
  | .done port e result => Delivered port e result (t.earlier.append t.record) ∧ t.pc.free

structure Thread.Ok (t : Thread) (holds : Prop) : Prop where
  pc : t.pc.Ok t.record holds
  client : t.client.Ok t holds

variable {ι : Type*}

/-- Where the sender of the transport stands is where the thread with `slot_mutex` does. -/
def Global.SenderOk (g : Global ι) (pc : ι → Pc) : Prop :=
  g.transport.sender =
    match g.slotMutex with
    | none => .idle
    | some i => (pc i).sender

structure State.Inv (s : State ι) : Prop where
  ready : s.global.transport.Ready
  critical : s.global.critical = 0
  threads : ∀ i, (s.threads i).Ok (s.global.slotMutex = some i)
  sender : s.global.SenderOk fun i => (s.threads i).pc

/-! ## What a call has written -/

variable {g g₀ : Global ι} {r : Record} {i : ι} {call : Call} {port : Nat} {m : Message}

theorem Record.add_eq {written : List Header} {sent synced : List Message}
    (hwritten : g.transport.written = g₀.transport.written ++ written)
    (hsent : g.transport.sent = g₀.transport.sent ++ sent)
    (hsynced : g.syncSent = g₀.syncSent ++ synced) :
    r.add g₀ g = r.append ⟨written, sent, synced⟩ := by
  simp [add, append, hwritten, hsent, hsynced]

theorem Record.append_empty : r.append {} = r := by simp [append]

/-- Nothing has been written. -/
theorem Record.add_same (htransport : g.transport = g₀.transport)
    (hsynced : g.syncSent = g₀.syncSent) : r.add g₀ g = r := by
  have hadd : r.add g₀ g = r.append {} :=
    add_eq (by simp [htransport]) (by simp [htransport]) (by simp [hsynced])
  exact hadd.trans append_empty

/-- A call that has put nothing but padding into the stream fails. -/
theorem outcome_of_failure {status : Status} {holds : Prop} (hstatus : status ≠ .success)
    (hsent : r.sent = []) (hwritten : Padding r.written) (hmutex : holds ↔ call.noMutexLock) :
    Outcome call status r holds := by
  refine ⟨?_, fun _ => hsent, ⟨r.written, hwritten, ?_⟩, ?_⟩
  · simp [hstatus, hsent]
  · rw [if_neg hstatus]
  · rw [if_neg hstatus]
    exact hmutex

theorem outcome_of_empty {status : Status} {holds : Prop} (hstatus : status ≠ .success)
    (hmutex : holds ↔ call.noMutexLock) : Outcome call status {} holds :=
  outcome_of_failure hstatus rfl (.inl rfl) hmutex

/-! ## One step of a thread -/

/-- The thread `i` has come from `g₀`, where its call had written `r`, to its next stop. -/
structure Moved (g₀ : Global ι) (i : ι) (r : Record) (p : Global ι × Pc) : Prop where
  ready : p.1.transport.Ready
  critical : p.1.critical = 0
  others : ∀ j, j ≠ i → (p.1.slotMutex = some j ↔ g₀.slotMutex = some j)
  inside : p.1.slotMutex = some i → p.1.transport.sender = p.2.sender
  free : p.1.slotMutex = none → p.1.transport.sender = .idle
  outside : ∀ j, j ≠ i → p.1.slotMutex = some j → p.1.transport.sender = g₀.transport.sender
  pc : p.2.Ok (r.add g₀ p.1) (p.1.slotMutex = some i)

/-- The thread has `slot_mutex`, and its call has written nothing; it has called `spin_lock`
`critical` times. -/
structure Inside (g₀ g : Global ι) (i : ι) (critical : Int) : Prop where
  ready : g₀.transport.Ready
  idle : g₀.transport.sender = .idle
  transport : g.transport = g₀.transport
  synced : g.syncSent = g₀.syncSent
  mutex : g.slotMutex = some i
  others : ∀ j, j ≠ i → g₀.slotMutex ≠ some j
  critical : g.critical = critical

namespace Inside

variable {critical : Int}

theorem share (h : Inside g₀ g i critical) (shared : Shared) :
    Inside g₀ { g with shared } i critical :=
  ⟨h.ready, h.idle, h.transport, h.synced, h.mutex, h.others, h.critical⟩

theorem spinLock (h : Inside g₀ g i 0) : Inside g₀ g.spinLock i 1 :=
  ⟨h.ready, h.idle, h.transport, h.synced, h.mutex, h.others, congrArg (· + 1) h.critical⟩

theorem spinUnlock (h : Inside g₀ g i 1) : Inside g₀ g.spinUnlock i 0 :=
  ⟨h.ready, h.idle, h.transport, h.synced, h.mutex, h.others, congrArg (· - 1) h.critical⟩

/-- The thread stops, or returns, without `slot_mutex`. -/
theorem unlock (h : Inside g₀ g i 0) {pc : Pc} (hok : ∀ holds, ¬ holds → pc.Ok {} holds) :
    Moved g₀ i {} (g.mutexUnlock, pc) := by
  refine ⟨h.transport ▸ h.ready, h.critical, fun j hj => ?_, nofun, fun _ => ?_, nofun, ?_⟩
  · exact iff_of_false nofun (h.others j hj)
  · exact h.transport ▸ h.idle
  · have hadd : Record.add {} g₀ g.mutexUnlock = {} := Record.add_same h.transport h.synced
    rw [hadd]
    exact hok _ nofun

end Inside

/-- `reserve_space` has returned, or waits. -/
theorem reserved_moved {padding : List Header} (hsound : g.transport.Sound)
    (hreserved : g.transport.Reserved call.message)
    (hwritten : g.transport.written = g₀.transport.written ++ padding)
    (hsent : g.transport.sent = g₀.transport.sent) (hsynced : g.syncSent = g₀.syncSent)
    (hmutex : g.slotMutex = some i) (hothers : ∀ j, j ≠ i → g₀.slotMutex ≠ some j)
    (hcritical : g.critical = 0) (hpadding : Padding (r.written ++ padding)) (hr : r.sent = [])
    (hr' : r.synced = []) : Moved g₀ i r (g.reserved call) := by
  have hready := hsound.ready hreserved.not_publishing
  have hadd (mutex : Option ι) :
      r.add g₀ { g with slotMutex := mutex } = ⟨r.written ++ padding, [], []⟩ := by
    have heq := Record.add_eq (r := r) (g := { g with slotMutex := mutex }) hwritten
      (hsent.trans (List.append_nil _).symm) (hsynced.trans (List.append_nil _).symm)
    rw [heq, Record.append, hr, hr']
    rfl
  -- the thread goes on with the mutex
  have hgo {pc : Pc} (hsender : g.transport.sender = pc.sender)
      (hok : ∀ holds : Prop, holds → pc.Ok ⟨r.written ++ padding, [], []⟩ holds) :
      Moved g₀ i r (g, pc) := by
    refine ⟨hready, hcritical, fun j hj => ?_, fun _ => hsender, fun hfree => ?_, ?_, ?_⟩
    · refine iff_of_false (fun heq => ?_) (hothers j hj)
      exact hj (Option.some.inj (heq.symm.trans hmutex))
    · rw [hmutex] at hfree
      cases hfree
    · intro j hj heq
      exact absurd (Option.some.inj (heq.symm.trans hmutex)) hj
    · have hg := hadd g.slotMutex
      change Record.add r g₀ g = _ at hg
      rw [hg]
      exact hok _ hmutex
  unfold Global.reserved
  obtain hs | hs | ⟨slot, off, hs⟩ := hreserved
  · rw [hs]
    dsimp only
    split
    case isTrue hlock =>
      refine hgo hs fun holds hholds => ⟨outcome_of_failure (by simp) rfl hpadding ?_, rfl⟩
      exact iff_of_true hholds hlock
    case isFalse hlock =>
      refine ⟨hready, hcritical, fun j hj => ?_, nofun, fun _ => hs, nofun, ?_⟩
      · exact iff_of_false nofun (hothers j hj)
      · have hg := hadd none
        change Record.add r g₀ g.mutexUnlock = _ at hg
        rw [hg]
        exact ⟨outcome_of_failure (by simp) rfl hpadding (iff_of_false nofun hlock), rfl⟩
  · rw [hs]
    exact hgo hs fun holds hholds => ⟨hholds, hpadding, rfl, rfl⟩
  · rw [hs]
    exact hgo hs fun holds hholds => ⟨hholds, hpadding, rfl, rfl⟩

namespace Inside

/-- `reserve_space` is called. -/
theorem reserve (h : Inside g₀ g i 0) (call : Call) : Moved g₀ i {} (g.reserve call) := by
  have hsound : g.transport.Sound := h.transport ▸ h.ready.sound
  have hidle : g.transport.sender = .idle := h.transport ▸ h.idle
  obtain ⟨hsound, hreserved, padding, hpadding, hwritten, hsent⟩ :=
    hsound.send hidle call.message call.isBlocking
  refine reserved_moved hsound hreserved (hwritten.trans ?_) (hsent.trans ?_) h.synced h.mutex
    h.others h.critical hpadding rfl rfl
  · rw [h.transport]
  · rw [h.transport]

theorem quotaLoop (h : Inside g₀ g i 1) (hlock : call.noMutexLock = false) (port : Nat) :
    Moved g₀ i {} (g.quotaLoop call port) := by
  unfold Global.quotaLoop
  split
  · exact h.spinUnlock.unlock fun _ hout => ⟨rfl, hout, hlock⟩
  · exact h.spinUnlock.reserve call

theorem dataLoop (h : Inside g₀ g i 1) (hlock : call.noMutexLock = false) (port : Nat) :
    Moved g₀ i {} (g.dataLoop call port) := by
  unfold Global.dataLoop
  split
  · exact h.spinUnlock.unlock fun _ hout => ⟨rfl, hout, hlock⟩
  · exact h.quotaLoop hlock port

/-- The call returns without having put anything into the stream. -/
theorem fail (h : Inside g₀ g i 0) (hlock : call.noMutexLock = false) {status : Status}
    (hstatus : status ≠ .success) : Moved g₀ i {} (g.mutexUnlock, .returned call status) := by
  refine h.unlock fun _ hout => ⟨outcome_of_empty hstatus (iff_of_false hout ?_), rfl⟩
  simp [hlock]

theorem locked (h : Inside g₀ g i 0) (hproper : call.proper) :
    Moved g₀ i {} (g.locked call) := by
  unfold Global.locked
  split
  case isTrue hdata =>
    simp [Call.proper, hdata] at hproper
    obtain ⟨⟨hservice, hlock⟩, hunlock⟩ := hproper
    obtain ⟨port, hport⟩ := Option.isSome_iff_exists.1 hservice
    rw [hport]
    dsimp only
    rw [hlock, hunlock]
    split
    case isTrue hflags => cases hflags
    case isFalse =>
      split
      · exact h.fail hlock (by simp)
      · exact h.spinLock.dataLoop hlock port
  case isFalse => exact h.reserve call

theorem dataLocked (h : Inside g₀ g i 0) (hlock : call.noMutexLock = false) (port : Nat) :
    Moved g₀ i {} (g.dataLocked call port) := by
  unfold Global.dataLocked
  dsimp only
  split
  · exact (h.spinLock.share _).quotaLoop hlock port
  · exact h.spinLock.dataLoop hlock port

theorem quotaLocked (h : Inside g₀ g i 0) (hlock : call.noMutexLock = false) (port : Nat) :
    Moved g₀ i {} (g.quotaLocked call port) := by
  unfold Global.quotaLocked
  split
  · exact h.fail hlock (by simp)
  · exact h.spinLock.quotaLoop hlock port

end Inside

theorem Pc.sender_of_free {pc : Pc} (h : pc.free) : pc.sender = .idle := by
  cases pc <;> first | rfl | cases h

namespace Global

/-- Writing a message touches neither the mutexes nor, in the end, the spin lock. -/
theorem fill_fields (g : Global ι) (call : Call) :
    (g.fill call).transport = g.transport.step .sender ∧ (g.fill call).slotMutex = g.slotMutex ∧
      (g.fill call).syncSent = g.syncSent ∧ (g.fill call).critical = g.critical := by
  have hcount (g : Global ι) (port : Nat) :
      (g.countData port).transport = g.transport ∧ (g.countData port).slotMutex = g.slotMutex ∧
        (g.countData port).syncSent = g.syncSent ∧ (g.countData port).critical = g.critical := by
    unfold countData
    dsimp only
    split <;> exact ⟨rfl, rfl, rfl, rfl⟩
  unfold fill
  dsimp only
  split
  · split
    · exact ⟨rfl, rfl, rfl, rfl⟩
    · obtain ⟨htransport, hmutex, hsynced, hcritical⟩ :=
        hcount (spinLock { g with transport := g.transport.step .sender }) _
      refine ⟨htransport, hmutex, hsynced, ?_⟩
      exact (congrArg (· - 1) hcritical).trans (Int.add_sub_cancel ..)
  · exact ⟨rfl, rfl, rfl, rfl⟩

end Global

namespace State.Inv

variable {s : State ι}

theorem idle (h : s.Inv) (hfree : s.global.slotMutex = none) :
    s.global.transport.sender = .idle := by
  have hsender := h.sender
  rw [Global.SenderOk, hfree] at hsender
  exact hsender

theorem sender_of_mutex (h : s.Inv) (hmutex : s.global.slotMutex = some i) :
    s.global.transport.sender = (s.threads i).pc.sender := by
  have hsender := h.sender
  rw [Global.SenderOk, hmutex] at hsender
  exact hsender

/-- The thread stays where it is with respect to the stream and to `slot_mutex`. -/
theorem same (h : s.Inv) {g : Global ι} {pc : Pc} (htransport : g.transport = s.global.transport)
    (hsynced : g.syncSent = s.global.syncSent) (hmutex : g.slotMutex = s.global.slotMutex)
    (hcritical : g.critical = s.global.critical) (hsender : pc.sender = (s.threads i).pc.sender)
    (hok : pc.Ok (s.threads i).record (s.global.slotMutex = some i)) :
    Moved s.global i (s.threads i).record (g, pc) := by
  refine ⟨htransport ▸ h.ready, hcritical.trans h.critical, fun j _ => by rw [hmutex], ?_, ?_, ?_,
    ?_⟩
  · intro hi
    dsimp only
    rw [htransport, hsender]
    exact h.sender_of_mutex (hmutex.symm.trans hi)
  · intro hfree
    dsimp only
    rw [htransport]
    exact h.idle (hmutex.symm.trans hfree)
  · intro j _ _
    exact congrArg _ htransport
  · dsimp only
    rw [Record.add_same htransport hsynced, hmutex]
    exact hok

/-- The thread stays where it is. -/
theorem stay (h : s.Inv) (i : ι) :
    Moved s.global i (s.threads i).record (s.global, (s.threads i).pc) :=
  h.same rfl rfl rfl rfl rfl (h.threads i).pc

/-- The thread locks the free mutex. -/
theorem inside_lock (h : s.Inv) (hfree : s.global.slotMutex = none) :
    Inside s.global (s.global.mutexLock i) i 0 :=
  ⟨h.ready, h.idle hfree, rfl, rfl, rfl, fun j _ => by simp [hfree], h.critical⟩

theorem others (hmutex : s.global.slotMutex = some i) (j : ι) (hj : j ≠ i) :
    s.global.slotMutex ≠ some j := by
  rw [hmutex]
  exact fun heq => hj (Option.some.inj heq).symm

/-- The thread has the mutex, and is not in `queue_message`. -/
theorem inside (h : s.Inv) (hmutex : s.global.slotMutex = some i) (hpc : (s.threads i).pc.free) :
    Inside s.global s.global i 0 := by
  refine ⟨h.ready, ?_, rfl, rfl, hmutex, others hmutex, h.critical⟩
  exact (h.sender_of_mutex hmutex).trans (Pc.sender_of_free hpc)

/-- The thread that waits for a slot looks for a permit, or gives up. -/
theorem slotWait (h : s.Inv) (hpc : (s.threads i).pc = .slotWait call) (interrupted : Bool) :
    Moved s.global i (s.threads i).record
      (s.global.resume i interrupted (.slotWait call)) := by
  have hok := (h.threads i).pc
  rw [hpc] at hok
  obtain ⟨hmutex, hpadding, hsent, hsynced⟩ := hok
  have hwait := h.sender_of_mutex hmutex
  rw [hpc] at hwait
  have hpadding' : Padding ((s.threads i).record.written ++ []) := by rwa [List.append_nil]
  cases interrupted with
  | true =>
    let transport := { s.global.transport with sender := .idle }
    exact reserved_moved (g := { s.global with transport }) (h.ready.sound.giveUp hwait) (.inl rfl)
      (List.append_nil _).symm rfl rfl hmutex (others hmutex) h.critical hpadding' hsent hsynced
  | false =>
    obtain ⟨hsound, hreserved, hwritten', hsent'⟩ := h.ready.sound.wait hwait
    exact reserved_moved hsound hreserved (hwritten'.trans (List.append_nil _).symm) hsent' rfl
      hmutex (others hmutex) h.critical hpadding' hsent hsynced

theorem filling (h : s.Inv) {slot off : Nat} (hpc : (s.threads i).pc = .filling call slot off) :
    Moved s.global i (s.threads i).record (s.global.fill call, .publishing call) := by
  have hok := (h.threads i).pc
  rw [hpc] at hok
  obtain ⟨hmutex, hpadding, hsent, hsynced⟩ := hok
  have hsender := h.sender_of_mutex hmutex
  rw [hpc] at hsender
  obtain ⟨htransport, hmutex', hsynced', hcritical⟩ := s.global.fill_fields call
  rw [hmutex] at hmutex'
  have hstep : (s.global.transport.step .sender).sender = .publishing call.message ∧
      (s.global.transport.step .sender).sent = s.global.transport.sent ∧
      (s.global.transport.step .sender).written = s.global.transport.written ++
        [call.message.header (s.global.transport.localTxPos - calcStride call.message.size)] := by
    change s.global.transport.senderStep.sender = _ ∧ s.global.transport.senderStep.sent = _ ∧
      s.global.transport.senderStep.written = _
    rw [Slots.State.senderStep, hsender]
    exact ⟨rfl, rfl, rfl⟩
  obtain ⟨hpublishing, hsent', hwritten'⟩ := hstep
  rw [← htransport] at hpublishing hsent' hwritten'
  refine ⟨?_, hcritical.trans h.critical, fun j hj => ?_, fun _ => hpublishing, ?_, ?_, ?_⟩
  · dsimp only
    rw [htransport]
    exact h.ready.fill hsender
  · dsimp only
    rw [hmutex', hmutex]
  · intro hfree
    cases hmutex'.symm.trans hfree
  · intro j hj heq
    exact absurd (Option.some.inj (heq.symm.trans hmutex')) hj
  · have hadd := Record.add_eq (r := (s.threads i).record) hwritten'
      (hsent'.trans (List.append_nil _).symm) (hsynced'.trans (List.append_nil _).symm)
    dsimp only
    rw [hadd, Record.append, hsent, hsynced]
    exact ⟨hmutex', ⟨_, _, hpadding, rfl⟩, rfl, rfl⟩

theorem publishing (h : s.Inv) (hpc : (s.threads i).pc = .publishing call) :
    Moved s.global i (s.threads i).record (s.global.publish call) := by
  have hok := (h.threads i).pc
  rw [hpc] at hok
  obtain ⟨hmutex, hwritten, hsent, hsynced⟩ := hok
  have hsender := h.sender_of_mutex hmutex
  rw [hpc] at hsender
  have hstep : s.global.transport.step .sender =
      { s.global.transport with
        txPos := s.global.transport.localTxPos
        sent := s.global.transport.sent ++ [call.message]
        sender := .idle } := by
    change s.global.transport.senderStep = _
    rw [Slots.State.senderStep, hsender]
    rfl
  have hidle : (s.global.transport.step .sender).sender = .idle := by rw [hstep]
  have hready : (s.global.transport.step .sender).Ready :=
    (h.ready.sound.step .sender).ready (by simp [hidle])
  have hwritten' : (s.global.transport.step .sender).written =
      s.global.transport.written ++ [] := by
    rw [hstep, List.append_nil]
  have hsent' : (s.global.transport.step .sender).sent =
      s.global.transport.sent ++ [call.message] := by rw [hstep]
  unfold Global.publish
  dsimp only
  generalize s.global.transport.step .sender = transport at hidle hready hwritten' hsent' ⊢
  -- what becomes of the service does not matter
  have hend (shared : Shared) (mutex : Option ι)
      (hunlock : mutex = if call.noMutexUnlock then some i else none) :
      Moved s.global i (s.threads i).record
        ({ s.global with transport, shared, slotMutex := mutex }, .returned call .success) := by
    refine ⟨hready, h.critical, fun j hj => ?_, fun _ => hidle, fun _ => hidle, ?_, ?_⟩
    · refine iff_of_false (fun heq => ?_) (others hmutex j hj)
      dsimp only at heq
      rw [hunlock] at heq
      split at heq
      · exact hj (Option.some.inj heq).symm
      · cases heq
    · intro j hj heq
      dsimp only at heq
      rw [hunlock] at heq
      split at heq
      · exact absurd (Option.some.inj heq).symm hj
      · cases heq
    · dsimp only
      have hadd : (s.threads i).record.add s.global
          { s.global with transport, shared, slotMutex := mutex } =
            (s.threads i).record.append ⟨[], [call.message], []⟩ :=
        Record.add_eq hwritten' hsent' (List.append_nil _).symm
      rw [hadd, Record.append, hsent, hsynced]
      obtain ⟨padding, pos, hpadding, hw⟩ := hwritten
      refine ⟨⟨by simp, by simp, ⟨padding, hpadding, ?_⟩, ?_⟩, rfl⟩
      · rw [if_pos rfl, List.append_nil]
        exact ⟨pos, hw⟩
      · rw [if_pos rfl, hunlock]
        cases call.noMutexUnlock <;> simp
  split
  case isTrue hunlock =>
    split
    · split
      · exact hend _ _ (by simp [hunlock, hmutex])
      · exact hend _ _ (by simp [hunlock, hmutex])
    · exact hend _ _ (by simp [hunlock, hmutex])
  case isFalse hunlock =>
    split
    · split
      · exact hend _ none (by simp [hunlock])
      · exact hend _ none (by simp [hunlock])
    · exact hend _ none (by simp [hunlock])

/-- The call returns from a wait. -/
theorem gives (h : s.Inv) {pc : Pc} (hpc : (s.threads i).pc = pc)
    (hrecord : (s.threads i).record = {}) (hout : s.global.slotMutex ≠ some i)
    (hlock : call.noMutexLock = false) {status : Status}
    (hstatus : status ≠ .success) (shared : Shared) (hsender : pc.sender = .idle := by rfl) :
    Moved s.global i (s.threads i).record
      ({ s.global with shared }, .returned call status) := by
  refine h.same rfl rfl rfl rfl (by rw [hpc, hsender]; rfl) ⟨?_, ?_⟩
  · rw [hrecord]
    exact outcome_of_empty hstatus (iff_of_false hout (by simp [hlock]))
  · rw [hrecord]

theorem sendSync (h : s.Inv) (hpc : (s.threads i).pc = .syncWait m)
    (hrecord : (s.threads i).record = {}) :
    Moved s.global i (s.threads i).record (s.global.sendSync m) := by
  refine ⟨h.ready, h.critical, fun _ _ => .rfl, fun hi => ?_, h.idle, fun _ _ _ => rfl, ?_⟩
  · have hsender := h.sender_of_mutex hi
    rw [hpc] at hsender
    exact hsender
  · have hadd : (s.threads i).record.add s.global (s.global.sendSync m).1 =
        (s.threads i).record.append ⟨[], [], [m]⟩ :=
      Record.add_eq (List.append_nil _).symm (List.append_nil _).symm rfl
    rw [hadd, hrecord]
    rfl

/-- A thread comes to its next stop in `queue_message`. -/
theorem resume (h : s.Inv) (i : ι) (interrupted : Bool) :
    Moved s.global i (s.threads i).record
      (s.global.resume i interrupted (s.threads i).pc) := by
  have hok := (h.threads i).pc
  have hstay := h.stay i
  cases hpc : (s.threads i).pc with
  | outside | returned | syncReturned | failed =>
    rw [hpc] at hstay
    exact hstay
  | fault =>
    rw [hpc] at hok
    exact hok.elim
  | slotWait call => exact h.slotWait hpc interrupted
  | filling call slot off => exact h.filling hpc
  | publishing call => exact h.publishing hpc
  | lock call =>
    rw [hpc] at hok
    obtain ⟨hrecord, hout, hlock, hproper⟩ := hok
    dsimp only [Global.resume]
    split
    · exact h.gives hpc hrecord hout hlock (by simp) s.global.shared
    · split
      case isTrue => exact hpc ▸ hstay
      case isFalse hfree =>
        rw [hrecord]
        exact (h.inside_lock (by simpa using hfree)).locked hproper
  | dataWait call port =>
    rw [hpc] at hok
    obtain ⟨hrecord, hout, hlock⟩ := hok
    dsimp only [Global.resume]
    split
    · exact h.gives hpc hrecord hout hlock (by simp) s.global.shared
    · split
      · exact hpc ▸ hstay
      · exact h.same rfl rfl rfl rfl (by rw [hpc]; rfl) ⟨hrecord, hout, hlock⟩
  | dataLock call port =>
    rw [hpc] at hok
    obtain ⟨hrecord, hout, hlock⟩ := hok
    dsimp only [Global.resume]
    split
    case isTrue => exact hpc ▸ hstay
    case isFalse hfree =>
      rw [hrecord]
      exact (h.inside_lock (by simpa using hfree)).dataLocked hlock port
  | quotaWait call port =>
    rw [hpc] at hok
    obtain ⟨hrecord, hout, hlock⟩ := hok
    dsimp only [Global.resume]
    split
    · exact h.gives hpc hrecord hout hlock (by simp) s.global.shared
    · split
      · exact hpc ▸ hstay
      · split
        · exact h.gives hpc hrecord hout hlock (by simp) _
        · exact h.same rfl rfl rfl rfl (by rw [hpc]; rfl) ⟨hrecord, hout, hlock⟩
  | quotaLock call port =>
    rw [hpc] at hok
    obtain ⟨hrecord, hout, hlock⟩ := hok
    dsimp only [Global.resume]
    split
    · exact h.gives hpc hrecord hout hlock (by simp) s.global.shared
    · split
      case isTrue => exact hpc ▸ hstay
      case isFalse hfree =>
        rw [hrecord]
        exact (h.inside_lock (by simpa using hfree)).quotaLocked hlock port
  | syncLock m =>
    rw [hpc] at hok
    dsimp only [Global.resume]
    split
    · exact h.same rfl rfl rfl rfl (by rw [hpc]; rfl) hok
    · split
      · exact hpc ▸ hstay
      · exact h.same rfl rfl rfl rfl (by rw [hpc]; rfl) hok
  | syncWait m =>
    rw [hpc] at hok
    dsimp only [Global.resume]
    split
    · exact h.sendSync hpc hok
    · exact hpc ▸ hstay

end State.Inv

/-! ## The call that a thread is in -/

/-- The thread goes on with its call, or the call has failed. -/
def Pc.GoesOn (call : Call) (pc : Pc) : Prop :=
  pc = .fault ∨ pc.call = some call ∧ pc.status ≠ some .success

theorem Pc.serves_of_call {pc : Pc} {e : Element} {holds : Prop} (hcall : pc.call = some call)
    (hserves : call.Serves port e) : pc.Serves port e holds := by
  have hall (call' : Call) (h : pc.call = some call') : call'.Serves port e := by
    obtain rfl := Option.some.inj (hcall.symm.trans h)
    exact hserves
  cases pc with
  | syncLock | syncWait | syncReturned | failed => cases hcall
  | _ => exact hall

theorem Pc.GoesOn.serves {pc : Pc} {e : Element} {holds : Prop} (h : pc.GoesOn call)
    (hserves : call.Serves port e) : pc.Serves port e holds := by
  rcases h with rfl | ⟨hcall, -⟩
  · exact fun call' h => nomatch h
  · exact serves_of_call hcall hserves

theorem Pc.GoesOn.not_success {pc : Pc} (h : pc.GoesOn call) (call' : Call) :
    pc ≠ .returned call' .success := by
  rcases h with rfl | ⟨-, hstatus⟩
  · nofun
  · rintro rfl
    exact hstatus rfl

namespace Global

theorem goesOn_reserved (g : Global ι) (call : Call) : (g.reserved call).2.GoesOn call := by
  unfold reserved
  split
  · exact .inr ⟨rfl, by simp [Pc.status]⟩
  · exact .inr ⟨rfl, nofun⟩
  · exact .inr ⟨rfl, nofun⟩
  · exact .inl rfl
  · exact .inl rfl

theorem goesOn_quotaLoop (g : Global ι) (call : Call) (port : Nat) :
    (g.quotaLoop call port).2.GoesOn call := by
  unfold quotaLoop
  split
  · exact .inr ⟨rfl, nofun⟩
  · exact goesOn_reserved _ call

theorem goesOn_dataLoop (g : Global ι) (call : Call) (port : Nat) :
    (g.dataLoop call port).2.GoesOn call := by
  unfold dataLoop
  split
  · exact .inr ⟨rfl, nofun⟩
  · exact goesOn_quotaLoop _ call port

theorem goesOn_locked (g : Global ι) (call : Call) : (g.locked call).2.GoesOn call := by
  unfold locked
  split
  · split
    · exact .inl rfl
    · split
      · exact .inl rfl
      · split
        · exact .inr ⟨rfl, by simp [Pc.status]⟩
        · exact goesOn_dataLoop _ call _
  · exact goesOn_reserved _ call

theorem goesOn_dataLocked (g : Global ι) (call : Call) (port : Nat) :
    (g.dataLocked call port).2.GoesOn call := by
  unfold dataLocked
  dsimp only
  split
  · exact goesOn_quotaLoop _ call port
  · exact goesOn_dataLoop _ call port

theorem goesOn_quotaLocked (g : Global ι) (call : Call) (port : Nat) :
    (g.quotaLocked call port).2.GoesOn call := by
  unfold quotaLocked
  split
  · exact .inr ⟨rfl, by simp [Pc.status]⟩
  · exact goesOn_quotaLoop _ call port

/-- Only publishing ends a call with success. -/
theorem goesOn_resume (g : Global ι) (i : ι) (interrupted : Bool) {pc : Pc}
    (hcall : pc.call = some call) (hfree : pc.free = false) (hpublishing : pc ≠ .publishing call) :
    (g.resume i interrupted pc).2.GoesOn call := by
  have hstay {pc : Pc} (hcall : pc.call = some call) (hstatus : pc.status = none) :
      pc.GoesOn call := .inr ⟨hcall, by simp [hstatus]⟩
  have hretry : (Pc.returned call .retry).GoesOn call := .inr ⟨rfl, by simp [Pc.status]⟩
  cases pc with
  | outside | failed | syncLock | syncWait | syncReturned | fault => cases hcall
  | returned => cases hfree
  | publishing call' =>
    obtain rfl := Option.some.inj hcall
    exact absurd rfl hpublishing
  | filling call' slot off =>
    obtain rfl := Option.some.inj hcall
    exact .inr ⟨rfl, nofun⟩
  | lock call' =>
    obtain rfl := Option.some.inj hcall
    dsimp only [resume]
    split
    · exact hretry
    · split
      · exact hstay rfl rfl
      · exact goesOn_locked _ call'
  | dataWait call' port =>
    obtain rfl := Option.some.inj hcall
    dsimp only [resume]
    split
    · exact hretry
    · split
      · exact hstay rfl rfl
      · exact hstay rfl rfl
  | dataLock call' port =>
    obtain rfl := Option.some.inj hcall
    dsimp only [resume]
    split
    · exact hstay rfl rfl
    · exact goesOn_dataLocked _ call' port
  | quotaWait call' port =>
    obtain rfl := Option.some.inj hcall
    dsimp only [resume]
    split
    · exact hretry
    · split
      · exact hstay rfl rfl
      · split
        · exact .inr ⟨rfl, by simp [Pc.status]⟩
        · exact hstay rfl rfl
  | quotaLock call' port =>
    obtain rfl := Option.some.inj hcall
    dsimp only [resume]
    split
    · exact hretry
    · split
      · exact hstay rfl rfl
      · exact goesOn_quotaLocked _ call' port
  | slotWait call' =>
    obtain rfl := Option.some.inj hcall
    dsimp only [resume]
    split
    · exact goesOn_reserved _ call'
    · exact goesOn_reserved _ call'

theorem resume_success (g : Global ι) (i : ι) (interrupted : Bool) {pc : Pc}
    (h : (g.resume i interrupted pc).2 = .returned call .success) :
    pc = .returned call .success ∨ pc = .publishing call := by
  have hgoes (call' : Call) (hcall : pc.call = some call') (hfree : pc.free = false)
      (hpublishing : pc ≠ .publishing call') : False :=
    (g.goesOn_resume i interrupted hcall hfree hpublishing).not_success call h
  cases pc with
  | outside | returned | syncReturned | failed | fault => exact .inl h
  | publishing call' =>
    obtain ⟨rfl, -⟩ := Pc.returned.inj h
    exact .inr rfl
  | syncLock m =>
    dsimp only [resume] at h
    split at h
    · cases h
    · split at h <;> cases h
  | syncWait m =>
    dsimp only [resume] at h
    split at h <;> cases h
  | lock call' | dataWait call' _ | dataLock call' _ | quotaWait call' _ | quotaLock call' _
  | slotWait call' | filling call' _ _ =>
    exact (hgoes call' rfl rfl nofun).elim

theorem publish_transport (g : Global ι) (call : Call) :
    (g.publish call).1.transport = g.transport.step .sender := by
  unfold publish
  dsimp only
  split
  · split
    · split <;> rfl
    · rfl
  · split
    · split <;> rfl
    · rfl

end Global

namespace State

variable {s : State ι} {e : Element}

/-- `vchi_msg_queue` is still served by the call that it has made. -/
theorem serves_resume
    (hserves : (s.threads i).pc.Serves port e (s.global.slotMutex = some i)) (interrupted : Bool) :
    let p := s.global.resume i interrupted (s.threads i).pc
    p.2.Serves port e (p.1.slotMutex = some i) := by
  intro p
  cases hpc : (s.threads i).pc with
  | outside | returned | syncReturned | failed | fault =>
    rw [hpc] at hserves
    simp only [p, hpc]
    exact hserves
  | syncLock m =>
    rw [hpc] at hserves
    simp only [p, hpc, Global.resume]
    split
    · exact hserves
    · split <;> exact hserves
  | syncWait m =>
    rw [hpc] at hserves
    simp only [p, hpc, Global.resume]
    split <;> exact hserves
  | publishing call =>
    rw [hpc] at hserves
    simp only [p, hpc]
    exact Pc.serves_of_call rfl (hserves call rfl)
  | lock call | dataWait call _ | dataLock call _ | quotaWait call _ | quotaLock call _
  | slotWait call | filling call _ _ =>
    have hgoes : (s.global.resume i interrupted (s.threads i).pc).2.GoesOn call :=
      s.global.goesOn_resume i interrupted (by rw [hpc]; rfl) (by rw [hpc]; rfl)
        (by rw [hpc]; nofun)
    rw [hpc] at hserves
    exact hgoes.serves (hserves call rfl)

end State

/-! ## The steps -/

theorem Record.Clean.append {r' : Record} (h : r.Clean) (h' : r'.Clean) : (r.append r').Clean := by
  refine ⟨fun a ha => ?_, ?_, ?_⟩
  · rcases List.mem_append.1 ha with ha | ha
    · exact h.written a ha
    · exact h'.written a ha
  · rw [Record.append, h.sent, h'.sent]
    rfl
  · rw [Record.append, h.synced, h'.synced]
    rfl

theorem Record.clean_empty : Record.Clean {} := ⟨by simp, rfl, rfl⟩

/-- What a call that `vchi_msg_queue` has made has left. -/
theorem Pc.Ok.of_status {pc : Pc} {e : Element} {holds : Prop} {status : Status} (h : pc.Ok r holds)
    (hserves : pc.Serves port e holds) (hstatus : pc.status = some status) :
    pc.free ∧ (status ≠ .success → r.Clean ∧ ¬ holds) ∧
      (status = .success → ∃ remoteport m, dataMessage (.ofNat port) remoteport e = some m ∧
        r.sent ++ r.synced = [m]) := by
  cases pc with
  | returned call status' =>
    obtain rfl := Option.some.inj hstatus
    obtain ⟨⟨hsent, hfailed, ⟨padding, hpadding, hwritten⟩, hmutex⟩, hsynced⟩ := h
    obtain ⟨hlock, remoteport, hmessage⟩ := hserves call rfl
    refine ⟨rfl, fun hne => ⟨⟨?_, hfailed hne, hsynced⟩, ?_⟩, fun hsuccess => ?_⟩
    · rw [if_neg hne] at hwritten
      rw [hwritten]
      exact hpadding.msgid_eq
    · rw [if_neg hne, hlock] at hmutex
      simpa using hmutex
    · refine ⟨remoteport, call.message, hmessage, ?_⟩
      rw [hsent.1 hsuccess, hsynced]
      rfl
  | syncReturned m status' =>
    obtain rfl := Option.some.inj hstatus
    obtain ⟨hout, remoteport, hmessage⟩ := hserves
    obtain rfl := h
    refine ⟨rfl, fun hne => ⟨⟨by simp, rfl, if_neg hne⟩, hout⟩, fun hsuccess => ?_⟩
    exact ⟨remoteport, m, hmessage, by rw [if_pos hsuccess]; rfl⟩
  | failed =>
    obtain rfl := Option.some.inj hstatus
    obtain rfl := h
    exact ⟨rfl, fun _ => ⟨Record.clean_empty, hserves⟩, nofun⟩
  | _ => cases hstatus

namespace State

variable [DecidableEq ι] {s : State ι}

namespace Inv

/-- A thread is at another stop, or has called another function. -/
theorem put (h : s.Inv) {g : Global ι} {t : Thread} (hready : g.transport.Ready)
    (hcritical : g.critical = 0)
    (hothers : ∀ j, j ≠ i → (g.slotMutex = some j ↔ s.global.slotMutex = some j))
    (hinside : g.slotMutex = some i → g.transport.sender = t.pc.sender)
    (hfree : g.slotMutex = none → g.transport.sender = .idle)
    (houtside : ∀ j, j ≠ i → g.slotMutex = some j →
      g.transport.sender = s.global.transport.sender)
    (hok : t.Ok (g.slotMutex = some i)) :
    Inv { global := g, threads := Function.update s.threads i t } := by
  refine ⟨hready, hcritical, fun j => ?_, ?_⟩
  · dsimp only
    by_cases hj : j = i
    · subst hj
      rw [Function.update_self]
      exact hok
    · rw [Function.update_of_ne hj]
      exact propext (hothers j hj) ▸ h.threads j
  · unfold Global.SenderOk
    dsimp only
    cases hmutex : g.slotMutex with
    | none => exact hfree hmutex
    | some j =>
      dsimp only
      by_cases hj : j = i
      · subst hj
        rw [Function.update_self]
        exact hinside hmutex
      · rw [Function.update_of_ne hj, houtside j hj hmutex]
        exact h.sender_of_mutex ((hothers j hj).1 hmutex)

theorem move (h : s.Inv) {p : Global ι × Pc} (hm : Moved s.global i (s.threads i).record p)
    (hclient : (s.threads i).client.Ok
      { s.threads i with pc := p.2, record := (s.threads i).record.add s.global p.1 }
      (p.1.slotMutex = some i)) : (s.move i p).Inv :=
  h.put hm.ready hm.critical hm.others hm.inside hm.free hm.outside ⟨hm.pc, hclient⟩

/-- A thread calls another function. -/
theorem setThread (h : s.Inv) {t : Thread}
    (hsender : s.global.slotMutex = some i → t.pc.sender = (s.threads i).pc.sender)
    (hok : t.Ok (s.global.slotMutex = some i)) : (s.setThread i t).Inv :=
  h.put h.ready h.critical (fun _ _ => .rfl)
    (fun hi => (h.sender_of_mutex hi).trans (hsender hi).symm) h.idle (fun _ _ _ => rfl) hok

/-- A thread gets its turn in `queue_message`. -/
theorem step_resume (h : s.Inv) (i : ι) (interrupted : Bool) :
    (s.move i (s.global.resume i interrupted (s.threads i).pc)).Inv := by
  have hm := h.resume i interrupted
  refine h.move hm ?_
  have hclient := (h.threads i).client
  have hsame (hfree : (s.threads i).pc.free) :
      (s.global.resume i interrupted (s.threads i).pc) = (s.global, (s.threads i).pc) := by
    cases hpc : (s.threads i).pc with
    | outside | returned | syncReturned | failed => rfl
    | _ => rw [hpc] at hfree; cases hfree
  cases hc : (s.threads i).client with
  | none => trivial
  | calling port e =>
    rw [hc] at hclient
    exact ⟨hclient.1, serves_resume hclient.2 interrupted⟩
  | sleeping port e =>
    rw [hc] at hclient
    obtain ⟨hearlier, hrecord, hfree, hout⟩ := hclient
    rw [hsame hfree]
    exact ⟨hearlier, (Record.add_same rfl rfl).symm ▸ hrecord, hfree, hout⟩
  | done port e result =>
    rw [hc] at hclient
    obtain ⟨hdelivered, hfree⟩ := hclient
    rw [hsame hfree]
    exact ⟨(Record.add_same rfl rfl).symm ▸ hdelivered, hfree⟩

omit [DecidableEq ι] in
theorem sender_of_free (hfree : (s.threads i).free) :
    (s.threads i).pc.sender = .idle := by
  rw [Thread.free, Bool.and_eq_true] at hfree
  exact Pc.sender_of_free hfree.1

/-- A thread is in none of the functions. -/
theorem reset (h : s.Inv) (hfree : (s.threads i).free) : (s.setThread i {}).Inv :=
  h.setThread (fun _ => (sender_of_free hfree).symm) ⟨trivial, trivial⟩

/-- `queue_message` is called. -/
theorem step_queueMessage (h : s.Inv) (hproper : call.proper) (hfree : (s.threads i).free)
    (hlock : call.noMutexLock = decide (s.global.slotMutex = some i)) :
    (let s := s.setThread i {}
      if call.noMutexLock then s.move i (s.global.locked call)
      else s.move i (s.global, .lock call)).Inv := by
  have hreset := h.reset hfree
  have hthread : (s.setThread i {}).threads i = {} := Function.update_self ..
  have hmutex : (s.setThread i {}).global = s.global := rfl
  dsimp only
  split
  case isTrue hheld =>
    rw [hheld] at hlock
    have hpc : ((s.setThread i {}).threads i).pc.free := by
      rw [hthread]
      rfl
    have hinside := hreset.inside (of_decide_eq_true hlock.symm) hpc
    refine hreset.move ?_ (by rw [hthread]; trivial)
    rw [hthread]
    exact hinside.locked hproper
  case isFalse hheld =>
    rw [Bool.not_eq_true] at hheld
    rw [hheld] at hlock
    refine hreset.move ?_ (by rw [hthread]; trivial)
    refine hreset.same rfl rfl rfl rfl (by rw [hthread]; rfl) ?_
    rw [hthread]
    exact ⟨rfl, of_decide_eq_false hlock.symm, hheld, hproper⟩

/-- `vchi_msg_queue` calls `vchiq_queue_message`. -/
theorem step_vchiqQueueMessage (h : s.Inv) (hsender : (s.threads i).pc.sender = .idle)
    (hout : s.global.slotMutex ≠ some i) {earlier : Record} (hearlier : earlier.Clean)
    (port : Nat) (e : Element) (found : Bool) :
    (s.setThread i
      { pc := s.vchiqQueueMessage port e found, client := .calling port e, earlier }).Inv := by
  have hpc : (s.vchiqQueueMessage port e found).Ok {} (s.global.slotMutex = some i) ∧
      (s.vchiqQueueMessage port e found).Serves port e (s.global.slotMutex = some i) ∧
        (s.vchiqQueueMessage port e found).sender = .idle := by
    unfold vchiqQueueMessage
    split
    · split
      · exact ⟨rfl, hout, rfl⟩
      · next m hm =>
        split
        · refine ⟨⟨rfl, hout, rfl, by simp [Call.proper]⟩, fun call hcall => ?_, rfl⟩
          obtain rfl := Option.some.inj hcall
          exact ⟨rfl, _, hm⟩
        · exact ⟨rfl, ⟨hout, _, hm⟩, rfl⟩
        · exact ⟨rfl, hout, rfl⟩
    · exact ⟨rfl, hout, rfl⟩
  obtain ⟨hok, hserves, hidle⟩ := hpc
  exact h.setThread (fun _ => hidle.trans hsender.symm) ⟨hok, hearlier, hserves⟩

/-- `vchi_msg_queue` looks at the status, or calls again. -/
theorem step_retry (h : s.Inv) (i : ι) (found : Bool) : (s.retry i found).Inv := by
  obtain ⟨hok, hclient⟩ := h.threads i
  unfold State.retry
  dsimp only
  split
  case h_1 port e hc =>
    rw [hc] at hclient
    obtain ⟨hearlier, hserves⟩ := hclient
    split
    case h_1 => exact h
    case h_2 hstatus =>
      obtain ⟨hfree, hfailed, -⟩ := hok.of_status hserves hstatus
      obtain ⟨hclean, hout⟩ := hfailed (by simp)
      exact h.setThread (fun _ => rfl) ⟨hok, hearlier, hclean, hfree, hout⟩
    case h_3 status hne hstatus =>
      obtain ⟨hfree, hfailed, hsuccess⟩ := hok.of_status hserves hstatus
      refine h.setThread (fun _ => rfl) ⟨hok, ?_, hfree⟩
      unfold Delivered
      cases status with
      | success =>
        rw [if_pos (by rfl)]
        obtain ⟨remoteport, m, hmessage, hsent⟩ := hsuccess rfl
        refine ⟨remoteport, m, hmessage, ?_⟩
        simpa [Record.append, hearlier.sent, hearlier.synced] using hsent
      | error =>
        rw [if_neg (by decide)]
        exact hearlier.append (hfailed (by simp)).1
      | retry => exact absurd rfl hne
  case h_2 port e hc =>
    rw [hc] at hclient
    obtain ⟨hearlier, hrecord, hfree, hout⟩ := hclient
    exact h.step_vchiqQueueMessage (Pc.sender_of_free hfree) hout (hearlier.append hrecord) port e
      found
  case h_3 => exact h

theorem step (h : s.Inv) (e : Event ι) : (s.step e).Inv := by
  cases e with
  | queueMessage i call =>
    dsimp only [State.step]
    split
    case isTrue hguard =>
      rw [Bool.and_eq_true, Bool.and_eq_true, decide_eq_true_eq] at hguard
      obtain ⟨⟨hproper, hfree⟩, hlock⟩ := hguard
      exact h.step_queueMessage hproper hfree hlock
    case isFalse => exact h
  | vchiMsgQueue i port e found =>
    dsimp only [State.step]
    split
    case isTrue hguard =>
      rw [Bool.and_eq_true, decide_eq_true_eq] at hguard
      exact h.step_vchiqQueueMessage (sender_of_free hguard.1) hguard.2 Record.clean_empty port e
        found
    case isFalse => exact h
  | resume i interrupted => exact h.step_resume i interrupted
  | retry i found => exact h.step_retry i found
  | takeMutex i =>
    dsimp only [State.step]
    split
    case isTrue hguard =>
      rw [Bool.and_eq_true, decide_eq_true_eq] at hguard
      have hidle := h.idle hguard.2
      refine h.put h.ready h.critical (fun j hj => ?_) (fun _ => hidle) nofun
        (fun _ _ _ => rfl) ⟨trivial, trivial⟩
      rw [hguard.2]
      exact iff_of_false (fun heq => hj (Option.some.inj heq).symm) nofun
    case isFalse => exact h
  | giveMutex i =>
    dsimp only [State.step]
    split
    case isTrue hguard =>
      rw [Bool.and_eq_true, decide_eq_true_eq] at hguard
      have hidle := (h.sender_of_mutex hguard.2).trans (sender_of_free hguard.1)
      refine h.put h.ready h.critical (fun j hj => ?_) nofun (fun _ => hidle) nofun
        ⟨trivial, trivial⟩
      exact iff_of_false nofun (others hguard.2 j hj)
    case isFalse => exact h
  | others shared => exact ⟨h.ready, h.critical, h.threads, h.sender⟩
  | transport e =>
    dsimp only [State.step]
    split
    case isTrue he =>
      obtain ⟨-, -, hsender⟩ := Slots.State.output_eq.1 (s.global.transport.output_elsewhere he)
      exact ⟨h.ready.elsewhere he, h.critical, h.threads, hsender.trans h.sender⟩
    case isFalse => exact h

end Inv

omit [DecidableEq ι] in
theorem inv_boot (r : SlotRange) (slotData : Nat → Block) (syncData : Block) (shared : Shared) :
    (boot r slotData syncData shared : State ι).Inv := by
  refine ⟨(Slots.State.sound_init r slotData).ready nofun, rfl, fun i => ⟨trivial, trivial⟩, rfl⟩

omit [DecidableEq ι] in
theorem vchiqQueueMessage_ne (s : State ι) (port : Nat) (e : Element) (found : Bool) :
    s.vchiqQueueMessage port e found ≠ .returned call .success := by
  unfold vchiqQueueMessage
  split
  · split
    · nofun
    · split <;> nofun
  · nofun

theorem setThread_success {t : Thread} {j : ι}
    (h : ((s.setThread j t).threads i).pc = .returned call .success)
    (ht : t.pc = .returned call .success → (s.threads j).pc = .returned call .success) :
    (s.threads i).pc = .returned call .success := by
  rw [State.setThread] at h
  dsimp only at h
  rw [Function.update_apply] at h
  split at h
  case isTrue hij => exact hij ▸ ht h
  case isFalse => exact h

/-- A call comes to its end with success only where it publishes its message. -/
theorem pc_step (s : State ι) (e : Event ι)
    (hreturned : ((s.step e).threads i).pc = .returned call .success) :
    (s.threads i).pc = .returned call .success ∨
      (s.threads i).pc = .publishing call ∧ (s.step e).global = (s.global.publish call).1 := by
  have hreset {s : State ι} {j : ι} {p : Global ι × Pc} (hp : p.2 ≠ .returned call .success)
      (h : (((s.setThread j {}).move j p).threads i).pc = .returned call .success) :
      (s.threads i).pc = .returned call .success := by
    rw [State.move] at h
    dsimp only at h
    rw [Function.update_apply] at h
    split at h
    case isTrue => exact absurd h hp
    case isFalse hij => exact setThread_success h (by simp)
  cases e with
  | queueMessage j call' =>
    dsimp only [step] at hreturned
    split at hreturned
    · split at hreturned
      · exact .inl (hreset ((s.global.goesOn_locked call').not_success call) hreturned)
      · exact .inl (hreset (by simp) hreturned)
    · exact .inl hreturned
  | vchiMsgQueue j port e found =>
    dsimp only [step] at hreturned
    split at hreturned
    · refine .inl (setThread_success hreturned fun ht => ?_)
      exact absurd ht (s.vchiqQueueMessage_ne port e found)
    · exact .inl hreturned
  | resume j interrupted =>
    dsimp only [step, State.move] at hreturned ⊢
    rw [Function.update_apply] at hreturned
    split at hreturned
    case isTrue hij =>
      subst hij
      rcases s.global.resume_success i interrupted hreturned with hpc | hpc
      · exact .inl hpc
      · refine .inr ⟨hpc, ?_⟩
        rw [hpc]
        rfl
    case isFalse => exact .inl hreturned
  | retry j found =>
    dsimp only [step] at hreturned
    unfold State.retry at hreturned
    dsimp only at hreturned
    split at hreturned
    · split at hreturned
      · exact .inl hreturned
      · exact .inl (setThread_success hreturned id)
      · exact .inl (setThread_success hreturned id)
    · refine .inl (setThread_success hreturned fun ht => ?_)
      exact absurd ht (s.vchiqQueueMessage_ne _ _ found)
    · exact .inl hreturned
  | takeMutex j =>
    dsimp only [step] at hreturned
    split at hreturned
    · exact .inl (setThread_success (s := { s with global := _ }) hreturned (by simp))
    · exact .inl hreturned
  | giveMutex j =>
    dsimp only [step] at hreturned
    split at hreturned
    · exact .inl (setThread_success (s := { s with global := _ }) hreturned (by simp))
    · exact .inl hreturned
  | others shared => exact .inl hreturned
  | transport e =>
    dsimp only [step] at hreturned
    split at hreturned <;> exact .inl hreturned

namespace Inv

theorem allOrNothing (h : s.Inv) (e : Event ι) : s.AllOrNothing e := by
  have hstep := h.step e
  refine ⟨hstep.critical, fun i hpc => ?_, fun i call status hpc => ?_, fun i call hpc hpc' => ?_,
    fun i call hpc => ?_, fun i port e' result hclient => ?_⟩
  · have hok := (hstep.threads i).pc
    rw [hpc] at hok
    exact hok
  · have hok := (hstep.threads i).pc
    rw [hpc] at hok
    exact hok.1
  · rcases pc_step s e hpc' with hold | ⟨-, hglobal⟩
    · rw [hpc] at hold
      cases hold
    · have hok := (h.threads i).pc
      rw [hpc] at hok
      have hsender := h.sender_of_mutex hok.1
      rw [hpc] at hsender
      rw [hglobal, Global.publish_transport]
      exact h.ready.shows hsender
  · rcases pc_step s e hpc with hold | ⟨hold, -⟩
    · exact .inr hold
    · exact .inl hold
  · have hok := (hstep.threads i).client
    rw [hclient] at hok
    exact hok.1

end Inv

/-- In every run `queue_message` puts its message into the stream exactly if it returns success,
and otherwise padding at most; it leaves `slot_mutex` as its flags say and never stops with the
spin lock. `vchi_msg_queue` queues its message once if it returns 0, and otherwise not. -/
theorem allOrNothing_run (r : SlotRange) (slotData : Nat → Block) (syncData : Block)
    (shared : Shared) (es : List (Event ι)) :
    Machine.Along step AllOrNothing (boot r slotData syncData shared : State ι) es := by
  have hall : Machine.Along step (fun _ _ => True) (boot r slotData syncData shared : State ι) es :=
    Machine.along_of_forall_mem step fun _ _ => trivial
  exact hall.strengthen (fun s e h _ => ⟨h.allOrNothing e, h.step e⟩) (inv_boot ..)

end State

end Queueing
