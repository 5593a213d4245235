-- SUMMARY: Whether the positions account for the bytes VideoCore has queued, and the session starts after which they do.
import Ampi.Sound.Outstanding
import Ampi.Window

/-!
# Flow control

`Callback` refills on the difference of two positions that `Start` resets. The
difference is the number of bytes queued as long as nothing queued before the reset
is completed after it.
-/

namespace Sound

/-! ## Chunks about to be queued -/

/-- `Start` has set `Running`, and it has not reset the positions or will fail. -/
def MainPc.beforeReset : MainPc → Bool
  | .startUse | .peerVersion | .startRelease true => true
  | _ => false

/-- Headers that `Start` has still to queue. -/
def MainPc.pending : MainPc → Nat
  | .chunkCallback .first | .write .first (.header _ _) => 2
  | .write .first (.data _ _ _) | .chunkCallback .second | .write .second (.header _ _) => 1
  | _ => 0

/-- Headers that `Callback` has still to queue. -/
def SlotPc.pending : SlotPc → Nat
  | .chunkCallback | .write (.header _ _) => 1
  | _ => 0

/-- A header about to be queued announces at least one byte and at most a chunk. -/
def WritePc.Fits (cap : Nat) : WritePc → Prop
  | .header nBytes _ => nBytes ≠ 0 ∧ nBytes.toNat ≤ cap
  | .data _ _ _ => True

def MainPc.Fits (cap : Nat) : MainPc → Prop
  | .write _ w => w.Fits cap
  | _ => True

def SlotPc.Fits (cap : Nat) : SlotPc → Prop
  | .write w => w.Fits cap
  | _ => True

theorem MainMove.counting {m m' : MainPc} (h : MainMove m m') :
    m'.pending = 0 ∧ (∀ cap, m'.Fits cap) ∧ (m'.beforeReset = false → m.beforeReset = false) := by
  cases h with
  | wait h | configured h | controlled h | controlSet h =>
    cases h <;> exact ⟨rfl, fun _ => trivial, fun _ => rfl⟩
  | _ => simp [MainPc.pending, MainPc.Fits, MainPc.beforeReset]

theorem SlotMove.counting {pc pc' : SlotPc} (h : SlotMove pc pc') :
    pc'.pending = 0 ∧ ∀ cap, pc'.Fits cap := by
  cases h <;> exact ⟨rfl, fun _ => trivial⟩

theorem SlotPc.pending_of_not_inWriteChunk {pc : SlotPc} (h : pc.inWriteChunk = false) :
    pc.pending = 0 := by
  cases pc <;> simp_all [SlotPc.inWriteChunk, SlotPc.pending]

theorem primed_counting (d : Device) (n : Priming) (cap : Nat) :
    (Sys.primed d n).Fits cap ∧
      (Sys.primed d n).pending ≤ (MainPc.write n (.data 0 (fun _ => 0) 0)).pending := by
  cases n with
  | first => cases h : d.chunkCallback <;> simp [Sys.primed, h, MainPc.Fits, MainPc.pending]
  | second => exact ⟨trivial, Nat.le_refl _⟩

/-- The mask on a `COMPLETE`'s count keeps every count below `2^30`. -/
theorem masked_count {count : UInt32} (h : count.toNat < 2 ^ 30) :
    count &&& 0x3FFFFFFF = count := by
  apply UInt32.toNat_inj.1
  have hmask : (0x3FFFFFFF : UInt32).toNat = 2 ^ 30 - 1 := rfl
  rw [UInt32.toNat_and, hmask, Nat.and_two_pow_sub_one_eq_mod, Nat.mod_eq_of_lt h]

namespace Sys

/-- The size of a chunk in bytes. -/
def chunkCap (s : Sys) : Nat := s.dev.chunkSize.toNat * 2

/-- The byte counts that VideoCore has still to complete. -/
def counts (s : Sys) : List UInt32 := s.queue.map Outstanding.count

/-- The difference of the positions is what VideoCore has queued, and that is no
more than two chunks. -/
def PositionsAccount (s : Sys) : Prop :=
  (s.dev.writePos - s.dev.completePos).toNat = Window.bytes s.counts ∧
    Window.bytes s.counts ≤ 2 * s.chunkCap

/-- The chunk callback returns no more than it was asked for. -/
def chunkFits (s : Sys) : Event → Bool
  | .chunkReturn r => r.nWords ≤ s.dev.chunkSize
  | _ => true

/-- With a VideoCore that answers and a callback that fits, the positions account
for the queue whenever the device is `Running` or `Cancelled` outside `Start`. -/
def FlowControl (s : Sys) : Prop :=
  ∀ es, Machine.Along step (fun s e => s.vcAnswers e ∧ s.chunkFits e) s es →
    (s.run es).dev.state = .running ∨ (s.run es).dev.state = .cancelled →
    (s.run es).main.inStart = false → (s.run es).PositionsAccount

/-- When `Start` resets the positions, VideoCore has nothing queued and `Callback`
is not inside `WriteChunk`. -/
def resetSafe (s : Sys) (e : Event) : Bool :=
  s.resetsPositions e → s.queue.isEmpty ∧ !s.slot.inWriteChunk

/-- A session is on and its positions have been reset. -/
structure Counting (s : Sys) : Prop where
  state : s.dev.state = .running ∨ s.dev.state = .cancelled ∨ s.dev.state = .terminating
  reset : s.main.beforeReset = false

structure Counted (s : Sys) : Prop where
  small : s.dev.chunkSize.toNat < 2 ^ 28
  mainFits : s.main.Fits s.chunkCap
  slotFits : s.slot.Fits s.chunkCap
  sizes : ∀ n ∈ s.counts, n.toNat ≤ s.chunkCap
  accounts : s.Counting → Window.Accounts 2 s.dev.writePos s.dev.completePos s.counts
    (s.main.pending + s.slot.pending)

namespace Counted

/-- A step that leaves VideoCore's queue and the positions alone. -/
theorem keep {s s' : Sys} (h : Counted s) (hdev : s'.dev.chunkSize = s.dev.chunkSize)
    (hq : s'.queue = s.queue) (hm : s'.main.Fits s.chunkCap) (hs : s'.slot.Fits s.chunkCap)
    (hacc : s'.Counting → s.Counting ∧ s'.dev.writePos = s.dev.writePos ∧
      s'.dev.completePos = s.dev.completePos ∧
      s'.main.pending + s'.slot.pending ≤ s.main.pending + s.slot.pending) : Counted s' := by
  have hcap : s'.chunkCap = s.chunkCap := by rw [chunkCap, hdev, chunkCap]
  have hcounts : s'.counts = s.counts := by rw [counts, hq, counts]
  refine ⟨hdev ▸ h.small, hcap ▸ hm, hcap ▸ hs, by rw [hcounts, hcap]; exact h.sizes, fun hc => ?_⟩
  obtain ⟨hc, hw, hcp, hp⟩ := hacc hc
  rw [hw, hcp, hcounts]
  exact (h.accounts hc).mono hp

/-- A header is queued: VideoCore's queue and the write position advance by it. -/
theorem send {s s' : Sys} (h : Counted s) {n : UInt32} (hdev : s'.dev.chunkSize = s.dev.chunkSize)
    (hq : s'.counts = s.counts ++ [n]) (hm : s'.main.Fits s.chunkCap)
    (hs : s'.slot.Fits s.chunkCap) (hn : n.toNat ≤ s.chunkCap)
    (hacc : s'.Counting → s.Counting ∧ s'.dev.writePos = s.dev.writePos + n ∧
      s'.dev.completePos = s.dev.completePos ∧
      s'.main.pending + s'.slot.pending + 1 ≤ s.main.pending + s.slot.pending) : Counted s' := by
  have hcap : s'.chunkCap = s.chunkCap := by rw [chunkCap, hdev, chunkCap]
  have hsmall := h.small
  refine ⟨hdev ▸ h.small, hcap ▸ hm, hcap ▸ hs, ?_, fun hc => ?_⟩
  · rw [hq, hcap]
    simpa [or_imp, forall_and] using ⟨h.sizes, hn⟩
  · obtain ⟨hc, hw, hcp, hp⟩ := hacc hc
    rw [hw, hcp, hq]
    exact ((h.accounts hc).mono hp).send h.sizes hn (by unfold chunkCap; omega)

/-- A `COMPLETE` is taken off the service's queue. -/
theorem settle {s s' : Sys} (h : Counted s) {n : UInt32} {q : List UInt32}
    (hdev : s'.dev.chunkSize = s.dev.chunkSize) (hq : s.counts = n :: q) (hq' : s'.counts = q)
    (hm : s'.main = s.main) (hs : s'.slot.Fits s.chunkCap)
    (hacc : s'.Counting → s.Counting ∧ s'.dev.writePos = s.dev.writePos ∧
      s'.dev.completePos = s.dev.completePos + (n &&& 0x3FFFFFFF) ∧ s'.slot.pending ≤ 1) :
    Counted s' := by
  have hcap : s'.chunkCap = s.chunkCap := by rw [chunkCap, hdev, chunkCap]
  have hsizes : ∀ m ∈ n :: q, m.toNat ≤ s.chunkCap := hq ▸ h.sizes
  have hmask : n &&& 0x3FFFFFFF = n := by
    apply masked_count
    have := hsizes n (by simp)
    have := h.small
    unfold chunkCap at *
    omega
  refine ⟨hdev ▸ h.small, hcap ▸ hm ▸ h.mainFits, hcap ▸ hs, ?_, fun hc => ?_⟩
  · rw [hq', hcap]
    exact fun m hm => hsizes m (by simp [hm])
  · obtain ⟨hc, hw, hcp, hp⟩ := hacc hc
    have hacc := h.accounts hc
    rw [hq] at hacc
    rw [hw, hcp, hq', hm, hmask]
    exact hacc.settle (by omega)

/-- The positions are reset while nothing is queued or about to be queued by `Callback`. -/
theorem restart {s s' : Sys} (h : Counted s) (hdev : s'.dev.chunkSize = s.dev.chunkSize)
    (hq : s'.queue = []) (hslot : s'.slot = s.slot) (hfree : s.slot.inWriteChunk = false)
    (hm : s'.main.Fits s.chunkCap) (hp : s'.main.pending ≤ 2)
    (hw : s'.dev.writePos = 0) (hc : s'.dev.completePos = 0) : Counted s' := by
  have hcap : s'.chunkCap = s.chunkCap := by rw [chunkCap, hdev, chunkCap]
  have hcounts : s'.counts = [] := by rw [counts, hq, List.map_nil]
  refine ⟨hdev ▸ h.small, hcap ▸ hm, hslot ▸ hcap ▸ h.slotFits, by simp [hcounts], fun _ => ?_⟩
  rw [hw, hc, hcounts, hslot, SlotPc.pending_of_not_inWriteChunk hfree]
  exact .reset hp

/-- A `COMPLETE` answers the oldest `WRITE`. -/
theorem answered {s : Sys} {count k1 k2 : UInt32} {r : Int}
    (hm : s.slot = .dequeue (.complete count k1 k2)) (hvc : s.vcAnswers (.slotReturn r)) :
    s.counts = count :: s.queue.tail.map Outstanding.count := by
  have hhead : s.queue.head?.map Outstanding.count = some count := by
    simp only [vcAnswers, hm, decide_eq_true_eq] at hvc
    exact hvc.2
  cases hq : s.queue with
  | nil => simp [hq] at hhead
  | cons o q => simpa [counts, hq] using hhead

/-- A chunk that fits makes a header that fits. -/
theorem header_fits {s : Sys} (h : Counted s) {r : ChunkReturn} (b : Buffer)
    (hfit : s.chunkFits (.chunkReturn r)) (hr : r.nWords ≠ 0) :
    (WritePc.header (r.nWords * 2) b).Fits s.chunkCap := by
  have hle : r.nWords.toNat ≤ s.dev.chunkSize.toNat := by
    simpa [chunkFits, UInt32.le_iff_toNat_le] using hfit
  have hsmall := h.small
  have hpos : r.nWords.toNat ≠ 0 := fun h0 => hr (UInt32.toNat_inj.1 h0)
  have htwo : (2 : UInt32).toNat = 2 := rfl
  have hbytes : (r.nWords * 2).toNat = r.nWords.toNat * 2 := by
    rw [UInt32.toNat_mul, htwo, Nat.mod_eq_of_lt (by omega)]
  refine ⟨fun h0 => ?_, by unfold chunkCap; omega⟩
  rw [h0] at hbytes
  have : (0 : UInt32).toNat = 0 := rfl
  omega

theorem step {s s' : Sys} {e : Event} (h : Counted s) (hvc : s.vcAnswers e) (hfit : s.chunkFits e)
    (hok : s.resetSafe e) (hs : Step s e s') : Counted s' := by
  have hmf := h.mainFits
  have hsf := h.slotFits
  have quiet : ∀ os, (∀ v, os.foldl VideoCore.next v = v) →
      (videoCore (s.log ++ os)).queue = s.queue := by
    intro os hos
    rw [videoCore_append, hos, queue]
  have sent : ∀ {c : Ctx} {n : UInt32} {b : Buffer},
      (videoCore (s.log ++ [.queued c (WritePc.msg (.header n b))])).queue.map Outstanding.count =
        s.counts ++ [n] := by
    intros
    simp [WritePc.msg, VideoCore.next, counts, queue]
  have taken : ∀ {count k1 k2 : UInt32} {os : List Obs}, (∀ v, os.foldl VideoCore.next v = v) →
      (videoCore (s.log ++ .dequeued (.complete count k1 k2) :: os)).queue.map Outstanding.count =
        s.queue.tail.map Outstanding.count := by
    intro _ _ _ os hos
    rw [videoCore_append, List.foldl_cons, hos]
    rfl
  cases hs with
  | stay => exact h
  | setChunkCallback =>
    exact h.keep rfl rfl hmf hsf fun hc => ⟨⟨hc.state, hc.reset⟩, rfl, rfl, Nat.le_refl _⟩
  | @mainMove _ pc _ _ _ _ hm _ hl =>
    obtain ⟨hp, hf, hr⟩ := hm.counting
    exact h.keep rfl (congrArg VideoCore.queue (videoCore_quiet hl)) (hf _) hsf
      fun hc => ⟨⟨hc.state, hr hc.reset⟩, rfl, rfl, by simp [hp]⟩
  | slotMove _ hm _ hl =>
    obtain ⟨hp, hf⟩ := hm.counting
    exact h.keep rfl (congrArg VideoCore.queue (videoCore_quiet hl)) hmf (hf _)
      fun hc => ⟨⟨hc.state, hc.reset⟩, rfl, rfl, by simp [hp]⟩
  | setControl hm =>
    exact h.keep rfl rfl trivial hsf
      fun hc => ⟨⟨hc.state, by rw [hm]; rfl⟩, rfl, rfl, by simp [MainPc.pending]⟩
  | startRefused hm =>
    exact h.keep rfl (quiet _ fun _ => rfl) trivial hsf
      fun hc => ⟨⟨hc.state, by rw [hm]; rfl⟩, rfl, rfl, by simp [MainPc.pending]⟩
  | startCreated _ hst | startIdle _ hst =>
    exact h.keep rfl rfl trivial hsf fun hc => by simpa [hst] using hc.state
  -- outside a session nothing is counted
  | startFails _ _ _ _ hl =>
    exact h.keep rfl (congrArg VideoCore.queue (videoCore_quiet hl)) trivial hsf
      fun hc => by simpa using hc.state
  | opened | stopped =>
    exact h.keep rfl (quiet _ fun _ => rfl) trivial hsf fun hc => by simpa using hc.state
  | slotError | slotEnd | slotNotSent =>
    exact h.keep rfl (by simp [queue, VideoCore.next]) hmf trivial fun hc => by simpa using hc.state
  | mainEnd =>
    exact h.keep rfl (quiet _ fun v => videoCore_primedObs v ..) (primed_counting ..).1 hsf
      fun hc => by simpa using hc.state
  | running =>
    exact h.keep rfl (quiet _ fun _ => rfl) trivial hsf fun hc => by cases hc.reset
  | mainNotSent => exact h.keep rfl rfl trivial hsf fun hc => by cases hc.reset
  -- the session begins
  | reset hm hc _ hv | resetSilent hm hc _ hv =>
    obtain ⟨hq, hw⟩ : s.queue = [] ∧ s.slot.inWriteChunk = false := by
      simpa [resetSafe, resetsPositions, hm, hc, hv] using hok
    have hq' : (videoCore s.log).queue = [] := hq
    exact h.restart rfl (by simp [queue, VideoCore.next, hq']) rfl hw trivial
      (by simp [MainPc.pending]) rfl rfl
  -- the main thread, within a session
  | @mainChunk n _ b hm hr =>
    exact h.keep rfl rfl (h.header_fits b hfit hr) hsf fun hc =>
      ⟨⟨hc.state, by rw [hm]; rfl⟩, rfl, rfl, by cases n <;> simp [hm, MainPc.pending]⟩
  | @mainHeader n _ _ hm =>
    rw [hm] at hmf
    exact h.send rfl sent trivial hsf hmf.2 fun hc =>
      ⟨⟨hc.state, by rw [hm]; rfl⟩, rfl, rfl, by cases n <;> simp [hm, MainPc.pending]⟩
  | mainHeaderOnly hm =>
    rw [hm] at hmf
    exact absurd rfl hmf.1
  | @mainPacket n _ _ _ hm =>
    exact h.keep rfl (quiet _ fun _ => rfl) trivial hsf fun hc =>
      ⟨⟨hc.state, by rw [hm]; rfl⟩, rfl, rfl, by cases n <;> simp [hm, MainPc.pending]⟩
  | @mainLastPacket n _ _ _ hm =>
    have hp := (primed_counting s.dev n s.chunkCap).2
    refine h.keep rfl ?_ (primed_counting ..).1 hsf fun hc =>
      ⟨⟨hc.state, by rw [hm]; rfl⟩, rfl, rfl, ?_⟩
    · simp [queue, VideoCore.next, WritePc.msg]
    · cases n <;> simp [hm, MainPc.pending] at hp ⊢ <;> omega
  | queued hm =>
    exact h.keep rfl (quiet _ fun _ => rfl) trivial hsf
      fun hc => ⟨⟨hc.state, by rw [hm]; rfl⟩, rfl, rfl, by simp [MainPc.pending]⟩
  | cancelled hm hst =>
    exact h.keep rfl rfl trivial hsf
      fun _ => ⟨⟨.inl hst, by rw [hm]; rfl⟩, rfl, rfl, by simp [MainPc.pending]⟩
  | cancelResumed hm =>
    exact h.keep rfl rfl trivial hsf
      fun hc => ⟨⟨hc.state, by rw [hm]; rfl⟩, rfl, rfl, by simp [MainPc.pending]⟩
  -- `Callback`
  | result | other =>
    exact h.keep rfl (quiet _ fun _ => rfl) hmf trivial
      fun hc => ⟨⟨hc.state, hc.reset⟩, rfl, rfl, by simp [SlotPc.pending]⟩
  | completeIgnored hm _ hst =>
    exact h.settle rfl (answered hm hvc) (taken fun _ => rfl) rfl trivial
      fun hc => by rcases hst with hst | hst <;> simpa [hst] using hc.state
  | badCookie hm =>
    exact h.settle rfl (answered hm hvc) (taken fun _ => rfl) rfl trivial
      fun hc => by simpa using hc.state
  | completed hm | refillSilent hm =>
    exact h.settle rfl (answered hm hvc) (taken fun _ => rfl) rfl trivial
      fun hc => ⟨⟨hc.state, hc.reset⟩, rfl, rfl, by simp [SlotPc.pending]⟩
  | terminating hm _ hst =>
    exact h.settle rfl (answered hm hvc) (taken fun _ => rfl) rfl trivial
      fun hc => ⟨⟨.inr (.inl hst), hc.reset⟩, rfl, rfl, by simp [SlotPc.pending]⟩
  | refill hm =>
    exact h.settle rfl (answered hm hvc) (taken fun _ => rfl) rfl trivial
      fun hc => ⟨⟨hc.state, hc.reset⟩, rfl, rfl, Nat.le_refl _⟩
  | @slotChunk _ b hm _ hr =>
    exact h.keep rfl rfl hmf (h.header_fits b hfit hr)
      fun hc => ⟨⟨hc.state, hc.reset⟩, rfl, rfl, by simp [hm, SlotPc.pending]⟩
  | slotHeader hm =>
    rw [hm] at hsf
    exact h.send rfl sent hmf trivial hsf.2
      fun hc => ⟨⟨hc.state, hc.reset⟩, rfl, rfl, by simp [hm, SlotPc.pending]⟩
  | slotHeaderOnly hm =>
    rw [hm] at hsf
    exact absurd rfl hsf.1
  | slotPacket hm | slotLastPacket hm =>
    exact h.keep rfl (quiet _ fun _ => rfl) hmf trivial
      fun hc => ⟨⟨hc.state, hc.reset⟩, rfl, rfl, by simp [SlotPc.pending]⟩

end Counted

/-- The positions account for the queue in every run whose steps are all `resetSafe`. -/
theorem flow_control {sampleRate chunkSize : UInt32} {destination : SoundDestination}
    {es : List Event} (hsize : chunkSize.toNat < 2 ^ 28)
    (hvc : Machine.Along step (fun s e => s.vcAnswers e ∧ s.chunkFits e)
      (ctor sampleRate chunkSize destination) es)
    (hok : Machine.Along step (resetSafe · ·) (ctor sampleRate chunkSize destination) es)
    (hst : ((ctor sampleRate chunkSize destination).run es).dev.state = .running ∨
      ((ctor sampleRate chunkSize destination).run es).dev.state = .cancelled)
    (hout : ((ctor sampleRate chunkSize destination).run es).main.inStart = false) :
    ((ctor sampleRate chunkSize destination).run es).PositionsAccount := by
  have h := (Machine.along_and.2 ⟨hvc, hok⟩).invariant (I := Counted)
    (fun s e h hse => h.step hse.1.1 hse.1.2 hse.2 (step_rule s e))
    ⟨hsize, trivial, trivial, nofun, fun hc => by rcases hc.state with h | h | h <;> cases h⟩
  have hreset : ((ctor sampleRate chunkSize destination).run es).main.beforeReset = false := by
    revert hout
    cases ((ctor sampleRate chunkSize destination).run es).main <;>
      simp [MainPc.inStart, MainPc.beforeReset]
  have hacc := h.accounts ⟨hst.imp_right .inl, hreset⟩
  exact ⟨hacc.diff, hacc.bytes_le h.sizes⟩

theorem flow_control_refilled :
    ((ctor 44100 1 .auto).run (twoChunksQueued ++ refilled)).PositionsAccount :=
  flow_control (by decide) (by decide +kernel) (by decide +kernel) (by decide +kernel)
    (by decide +kernel)

/-- A second session is started while a chunk of the first one is still queued. -/
def restartedEarly : List Event :=
  twoChunksQueued ++ .cancel :: handled (.complete 2 writeCookie1 writeCookie2) ++ [.resume] ++
    mainCalls 5 ++ .start :: mainCalls 4 ++ [.peerVersion 0 2] ++
    primeOne ⟨1, some fun _ => 0⟩ ++ primeOne ⟨1, some fun _ => 0⟩ ++ mainCalls 1

theorem not_flowControl : ¬ (ctor 44100 1 .auto).FlowControl := by
  intro h
  have := (h restartedEarly (by decide +kernel) (by decide +kernel) (by decide +kernel)).1
  revert this
  decide +kernel

end Sys
end Sound
