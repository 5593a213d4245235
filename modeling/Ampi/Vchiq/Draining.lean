-- SUMMARY: Receiving comes to an end with a queue of any size: all that has been sent can be dequeued.
import Ampi.Vchiq.Stalling

/-!
# Receiving to the end

While the queue of a service is full the slot handler waits in `vchiu_queue_push`, and reads
none of the messages behind. Every call of `vchi_msg_dequeue` makes room for it.
-/

namespace Slots

namespace State

/-- A message that is not put off is skipped. -/
theorem parseMessage_skipping (s : State) {result : Reception} (hresult : result ≠ .retry)
    (txPos : UInt32) :
    ∃ size, (s.parseMessage txPos result).handler = .skipping txPos size := by
  unfold parseMessage
  dsimp only
  split
  · exact ⟨_, rfl⟩
  · exact ⟨_, rfl⟩
  · next hadmitted =>
    cases result with
    | accept => cases hadmitted
    | claim =>
      dsimp only [Reception.admitted] at hadmitted
      split at hadmitted
      · cases hadmitted
      · cases hadmitted
    | retry => exact absurd rfl hresult

/-- A message that its service keeps is as far to go as one that it does not. -/
theorem effort_handlerStep (s : State) {result : Reception} (hresult : result ≠ .retry) :
    (s.handlerStep result).effort = (s.handlerStep .accept).effort := by
  unfold handlerStep
  split
  · rfl
  · next txPos _ =>
    split
    · rfl
    · have haccept : Reception.accept ≠ .retry := by decide
      obtain ⟨htx, hrx, -⟩ := s.parseMessage_fields txPos result
      obtain ⟨htx', hrx', -⟩ := s.parseMessage_fields txPos .accept
      obtain ⟨size, hskip⟩ := s.parseMessage_skipping hresult txPos
      obtain ⟨size', hskip'⟩ := s.parseMessage_skipping haccept txPos
      rw [effort, effort, htx, hrx, hskip, htx', hrx', hskip']
  · rfl

theorem release_fields (s : State) (slot off : Nat) (closing : Bool) :
    let s' := s.step (.release slot off closing)
    s'.txPos = s.txPos ∧ s'.rxPos = s.rxPos ∧ s'.handler = s.handler ∧ s'.sent = s.sent ∧
      s'.slotQueueAvailable = s.slotQueueAvailable := by
  dsimp only [step]
  split
  · have havail : (s.releaseHeader slot off closing).slotQueueAvailable =
        s.slotQueueAvailable := slotQueueAvailable_releaseHeader closing
    unfold releaseHeader at havail ⊢
    dsimp only at havail ⊢
    split
    · exact ⟨rfl, rfl, rfl, rfl, rfl⟩
    · next hclaimed =>
      rw [if_neg hclaimed] at havail
      obtain ⟨htx, hrx, hsent, -, hpc⟩ := dropReference_fields _ slot
      exact ⟨htx, hrx, hpc, hsent, havail⟩
  · exact ⟨rfl, rfl, rfl, rfl, rfl⟩

end State

namespace Inbox

variable {r : SlotRange} {i : Inbox} {msgid : UInt32}

/-- Steps of the slot handler and of the user, who has room for so much. -/
def Event.receives (maxDataSizeToRead : UInt32) : Event → Prop
  | .transport (.handler result) => result = .accept
  | .push => True
  | .dequeue room => room = maxDataSizeToRead
  | .transport _ => False

/-- What there is to do until the queue is empty and nobody is in `vchiu_queue_push`. -/
def backlog (i : Inbox) : Nat := i.queue.length + 2 * i.pushing.toList.length

/-- What is not changed by receiving what is waiting. -/
def progress (i : Inbox) : Nat × List Message × Nat :=
  (i.transport.effort, i.transport.sent, i.size)

theorem push_empty {header : Nat × Nat} (hqueue : i.queue = []) (hpushing : i.pushing = some header)
    (hsize : 0 < i.size) : i.push = { i with queue := [header], pushing := none } := by
  unfold push
  rw [hpushing]
  dsimp only
  rw [hqueue]
  exact if_pos hsize

/-- The user takes the next message, or the slot handler gets room for it. -/
theorem exists_receives (i : Inbox) (hsize : 0 < i.size) (hwaiting : i.waiting ≠ [])
    (msgid maxDataSizeToRead : UInt32) :
    ∃ e : Event, e.receives maxDataSizeToRead ∧ (i.step msgid e).backlog < i.backlog ∧
      (i.step msgid e).progress = i.progress := by
  cases hqueue : i.queue with
  | cons header queue =>
    obtain ⟨slot, off⟩ := header
    obtain ⟨htx, hrx, hpc, hsent, -⟩ := i.transport.release_fields slot off false
    have hstep : i.step msgid (.dequeue maxDataSizeToRead) = i.dequeue maxDataSizeToRead := rfl
    refine ⟨.dequeue maxDataSizeToRead, rfl, ?_, ?_⟩
    · rw [hstep, dequeue, hqueue, backlog, backlog, hqueue, List.length_cons]
      dsimp only
      omega
    · rw [hstep, dequeue, hqueue]
      unfold progress State.effort
      rw [htx, hrx, hpc, hsent]
  | nil =>
    cases hpushing : i.pushing with
    | none =>
      refine absurd ?_ hwaiting
      rw [waiting, hqueue, hpushing]
      rfl
    | some header =>
      have hstep : i.step msgid .push = i.push := rfl
      refine ⟨.push, trivial, ?_, ?_⟩
      · rw [hstep, push_empty hqueue hpushing hsize, backlog, backlog, hqueue, hpushing]
        exact Nat.lt_succ_self 1
      · rw [hstep, push_empty hqueue hpushing hsize]
        rfl

/-- The user takes all that is waiting. -/
theorem exists_empty (i : Inbox) (hsize : 0 < i.size) (msgid maxDataSizeToRead : UInt32) :
    ∃ es : List Event, (∀ e ∈ es, e.receives maxDataSizeToRead) ∧
      (i.run msgid es).waiting = [] ∧ (i.run msgid es).progress = i.progress := by
  induction hn : i.backlog using Nat.strong_induction_on generalizing i with
  | _ n ih =>
    subst hn
    by_cases hwaiting : i.waiting = []
    · exact ⟨[], List.forall_mem_nil _, hwaiting, rfl⟩
    · obtain ⟨e, he, hlt, hprogress⟩ := i.exists_receives hsize hwaiting msgid maxDataSizeToRead
      have hsize' : (i.step msgid e).size = i.size := (Prod.mk.inj (Prod.mk.inj hprogress).2).2
      obtain ⟨es, hes, hempty, hprogress'⟩ := ih _ hlt _ (hsize' ▸ hsize) rfl
      exact ⟨e :: es, List.forall_mem_cons.2 ⟨he, hes⟩, hempty, hprogress'.trans hprogress⟩

/-- The slot handler goes on when nothing is waiting. -/
theorem handler_empty (hwaiting : i.waiting = []) (msgid : UInt32) :
    (i.handler msgid .accept).transport.effort = (i.transport.handlerStep .accept).effort ∧
      (i.handler msgid .accept).transport.sent = i.transport.sent ∧
      (i.handler msgid .accept).size = i.size := by
  have hpushing : i.pushing = none := by
    cases hpushing : i.pushing with
    | none => rfl
    | some header =>
      rw [waiting, hpushing] at hwaiting
      exact absurd (List.append_eq_nil_iff.1 hwaiting).2 (List.cons_ne_nil _ _)
  have hclaim : Reception.claim ≠ .retry := by decide
  unfold handler
  rw [hpushing]
  dsimp only
  split
  · exact ⟨i.transport.effort_handlerStep hclaim, (i.transport.handlerStep_fields _).2.1, rfl⟩
  · exact ⟨rfl, (i.transport.handlerStep_fields _).2.1, rfl⟩

/-- The invariant of a service, whatever has been taken. -/
def Sound (r : SlotRange) (msgid : UInt32) (i : Inbox) : Prop :=
  ∃ g old fresh, At r msgid i g old fresh

namespace Sound

theorem step (h : i.Sound r msgid) (htype : msgType msgid = msgData) (e : Event) :
    (i.step msgid e).Sound r msgid := by
  obtain ⟨g, old, fresh, h⟩ := h
  exact h.step htype e

theorem run (h : i.Sound r msgid) (htype : msgType msgid = msgData) (es : List Event) :
    (i.run msgid es).Sound r msgid :=
  Machine.run_invariant (fun _ e h => h.step htype e) es h

/-- Where all has been seen and nothing is waiting, all has been taken. -/
theorem all_taken (h : i.Sound r msgid) (htype : msgType msgid = msgData)
    (hwaiting : i.waiting = []) (hpos : i.transport.rxPos = i.transport.txPos) :
    List.Forall₂ Taken.IsOf i.taken (i.transport.sentPayloads msgid) := by
  obtain ⟨g, old, fresh, h⟩ := h
  have hne : msgType msgid ≠ msgPadding := by
    rw [htype]
    decide
  obtain ⟨-, hall⟩ := seenPayloads_prefix hne h.base.represents.received
  have hpayloads := h.payloads htype
  rw [inSlots, hwaiting, List.map_nil, List.append_nil, hall hpos] at hpayloads
  rw [← hpayloads]
  exact List.forall₂_map_right_iff.2 h.taken

/-- The slot handler and the user get to the end of what has been sent. -/
theorem exists_all_taken (h : i.Sound r msgid) (htype : msgType msgid = msgData)
    (hsize : 0 < i.size) (maxDataSizeToRead : UInt32) :
    ∃ es : List Event, (∀ e ∈ es, e.receives maxDataSizeToRead) ∧
      List.Forall₂ Taken.IsOf (i.run msgid es).taken (i.transport.sentPayloads msgid) := by
  induction hn : i.transport.effort using Nat.strong_induction_on generalizing i with
  | _ n ih =>
    subst hn
    obtain ⟨es, hes, hempty, hprogress⟩ := i.exists_empty hsize msgid maxDataSizeToRead
    obtain ⟨heffort, hrest⟩ := Prod.mk.inj hprogress
    obtain ⟨hsent, hsize'⟩ := Prod.mk.inj hrest
    have hj := h.run htype es
    generalize hrun : i.run msgid es = j at *
    by_cases hpos : j.transport.rxPos = j.transport.txPos
    · refine ⟨es, hes, ?_⟩
      have hall := hj.all_taken htype hempty hpos
      unfold State.sentPayloads at hall ⊢
      rwa [hsent, ← hrun] at hall
    · obtain ⟨heffort', hsent', hsize''⟩ := handler_empty hempty msgid
      obtain ⟨g, old, fresh, hat⟩ := id hj
      have hlt := State.effort_lt
        ⟨g, hat.base.none, hat.base.represents, hat.base.senderAt⟩ hpos
      have hnext : (j.handler msgid .accept).Sound r msgid :=
        hj.step htype (.transport (.handler .accept))
      obtain ⟨es', hes', hall⟩ := ih (j.handler msgid .accept).transport.effort
        (by omega) hnext (by omega) rfl
      refine ⟨es ++ .transport (.handler .accept) :: es', ?_, ?_⟩
      · intro e he
        rcases List.mem_append.1 he with he | he
        · exact hes e he
        · rcases List.mem_cons.1 he with rfl | he
          · rfl
          · exact hes' e he
      · have hsplit : i.run msgid (es ++ .transport (.handler .accept) :: es') =
            (j.handler msgid .accept).run msgid es' := by
          rw [← hrun]
          exact Machine.run_append ..
        unfold State.sentPayloads at hall ⊢
        rw [hsplit]
        rwa [hsent', hsent] at hall

end Sound

theorem size_step (i : Inbox) (msgid : UInt32) (e : Event) : (i.step msgid e).size = i.size := by
  cases e with
  | push =>
    change i.push.size = i.size
    unfold push
    split
    · split
      · rfl
      · rfl
    · rfl
  | dequeue room =>
    change (i.dequeue room).size = i.size
    unfold dequeue
    split
    · rfl
    · rfl
  | transport e =>
    cases e with
    | handler result =>
      change (i.handler msgid result).size = i.size
      unfold handler
      split
      · rfl
      · split
        · rfl
        · rfl
    | release slot off closing =>
      dsimp only [Inbox.step]
      split
      · rfl
      · rfl
    | send | sender | recycle => rfl

/-- In every state that is reached, whatever is in the queue, steps of the slot handler and
calls of `vchi_msg_dequeue` alone bring in all that has been sent to the service. -/
theorem all_dequeued (r : SlotRange) (slotData : Nat → Block) {size : Nat} (hsize : 0 < size)
    (es : List Event) (htype : msgType msgid = msgData) (maxDataSizeToRead : UInt32) :
    let i := (init r slotData size).run msgid es
    ∃ es' : List Event, (∀ e ∈ es', e.receives maxDataSizeToRead) ∧
      List.Forall₂ Taken.IsOf (i.run msgid es').taken (i.transport.sentPayloads msgid) := by
  intro i
  have hinit : (init r slotData size).Sound r msgid :=
    ⟨.init r, [], [], .init r slotData size msgid⟩
  have hkept : i.size = size :=
    Machine.run_invariant (I := fun i : Inbox => i.size = size)
      (fun i e h => (i.size_step msgid e).trans h) es rfl
  exact (hinit.run htype es).exists_all_taken htype (hsize.trans_eq hkept.symm) maxDataSizeToRead

/-! ## A full queue -/

/-- The slot handler waits with the second message for the only place in the queue. -/
def oneWaits : List Event :=
  oneSent 0x05001002 [7, 8] (by decide) ++ oneSent 0x05001002 [6] (by decide) ++
    (List.replicate 5 [.transport (.handler .accept), .push]).flatten

abbrev onePushing : Inbox := (init fourSlots (fun _ _ => 0) 1).run 0x05001002 oneWaits

theorem all_dequeued_two : ∃ es' : List Event, (∀ e ∈ es', e.receives 16) ∧
    List.Forall₂ Taken.IsOf (onePushing.run 0x05001002 es').taken [[7, 8], [6]] := by
  have hsent : onePushing.transport.sentPayloads 0x05001002 = [[7, 8], [6]] := by
    decide +kernel
  have htype : msgType 0x05001002 = msgData := by decide
  rw [← hsent]
  exact all_dequeued fourSlots (fun _ _ => 0) Nat.one_pos oneWaits htype 16

end Inbox

end Slots
