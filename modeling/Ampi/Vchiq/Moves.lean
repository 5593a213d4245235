-- SUMMARY: What a step of the slot transport can do to its stream, and the invariant rule over it.
import Ampi.Vchiq.Represents
import Mathlib.Logic.Relation

/-!
# Moves

Every step of either side is a short chain of moves, each of which changes the stream and
the receiver's bookkeeping in one way. A further invariant of the transport needs a case
for each move, and no look at the code of the steps.
-/

namespace Slots

open Layout (placed)

/-- The slots and the receiver's bookkeeping on them. -/
def State.core (s : State) :
    (Nat → Block) × Option Nat × (Nat → Nat) × (Nat → Nat) × List (Nat × Nat) :=
  (s.slotData, s.rxData, s.useCount, s.releaseCount, s.held)

theorem State.core_eq {s : State} {slotData : Nat → Block} {rxData : Option Nat}
    {useCount releaseCount : Nat → Nat} {held : List (Nat × Nat)} :
    s.core = (slotData, rxData, useCount, releaseCount, held) ↔
      s.slotData = slotData ∧ s.rxData = rxData ∧ s.useCount = useCount ∧
        s.releaseCount = releaseCount ∧ s.held = held := by
  simp [core]

/-- The use `k` is given back, and its slot has a new one. -/
def Stream.giveBack (g : Stream) (k : Nat) : Stream :=
  { g with
    recycled := g.recycled + 1
    released := insert k g.released
    dropping := none
    slotOf := Function.update g.slotOf g.recycled (g.slotOf k) }

/-- The use `k` loses a reference, which may be its last. -/
def Stream.dropReference (g : Stream) (s : State) (k : Nat) : Stream :=
  if s.releaseCount (g.slotOf k) + 1 = s.useCount (g.slotOf k) then g.giveBack k else g

theorem Stream.places_dropReference (g : Stream) (s : State) (k : Nat) :
    (g.dropReference s k).rx = g.rx ∧ (g.dropReference s k).available = g.available ∧
      (g.dropReference s k).taken = g.taken := by
  unfold dropReference
  split
  · exact ⟨rfl, rfl, rfl⟩
  · exact ⟨rfl, rfl, rfl⟩

inductive Move (s : State) (g : Stream) (s' : State) : Stream → Prop where
  | stay (hcore : s'.core = s.core) : Move s g s' g
  -- the sender
  | append {f : Frame} {b : Block} (htaken : g.taken = g.tx / 4096 + 1)
    (hkeep : ∀ i < g.tx % 4096, b i = s.slotData (g.slotOf (g.tx / 4096)) i)
    (hcore : s'.core = (Function.update s.slotData (g.slotOf (g.tx / 4096)) b, s.core.2)) :
    Move s g s' (g.push f)
  | publish (hcore : s'.core = s.core) : Move s g s' { g with published := g.frames.length }
  | take (hcore : s'.core = s.core) : Move s g s' { g with taken := g.taken + 1 }
  | free (hcore : s'.core = s.core) : Move s g s' { g with available := g.available + 1 }
  -- the receiver
  | enter (hdata : s.rxData = none) (hlt : g.rx / 4096 < g.taken)
    (hcore : s'.core =
      (s.slotData, some (g.slotOf (g.rx / 4096)),
        Function.update s.useCount (g.slotOf (g.rx / 4096)) 1,
        Function.update s.releaseCount (g.slotOf (g.rx / 4096)) 0, s.held)) :
    Move s g s' g
  | see {f : Frame} (hf : g.frames[g.parsed]? = some f) (hrx : g.rx = g.upTo g.parsed)
    (hcore : s'.core = s.core) : Move s g s' { g with parsed := g.parsed + 1 }
  | deliver {f : Frame} (hf : g.frames[g.parsed]? = some f) (hrx : g.rx = g.upTo g.parsed)
    (hdata : s.rxData = some (g.slotOf (g.rx / 4096))) (htype : msgType f.msgid = msgData)
    (hcore : s'.core =
      (Function.update s.slotData (g.slotOf (g.rx / 4096))
          ((s.slotData (g.slotOf (g.rx / 4096))).storeWord (g.rx % 4096)
            (f.msgid ||| msgidClaimed)),
        s.rxData,
        Function.update s.useCount (g.slotOf (g.rx / 4096))
          (s.useCount (g.slotOf (g.rx / 4096)) + 1),
        s.releaseCount, (g.slotOf (g.rx / 4096), g.rx % 4096) :: s.held)) :
    Move s g s' { g with parsed := g.parsed + 1 }
  | advance (hsame : g.upTo g.parsed / 4096 = g.rx / 4096) (hcore : s'.core = s.core) :
    Move s g s' { g with rx := g.upTo g.parsed }
  | leave (hdata : s.rxData = some (g.slotOf (g.rx / 4096)))
    (hend : g.upTo g.parsed = (g.rx / 4096 + 1) * 4096)
    (hcore : s'.core =
      (s.slotData, none, s.useCount,
        Function.update s.releaseCount (g.slotOf (g.rx / 4096))
          (s.releaseCount (g.slotOf (g.rx / 4096)) + 1),
        s.held)) :
    Move s g s' (({ g with rx := g.upTo g.parsed } : Stream).dropReference s (g.rx / 4096))
  | release {x : Nat × Frame} (hx : x ∈ placed Frame.stride 0 (g.frames.take g.parsed))
    (hlive : x.1 / 4096 ∉ g.released)
    (hheld : (g.slotOf (x.1 / 4096), x.1 % 4096) ∈ s.held)
    (hcore : s'.core =
      (Function.update s.slotData (g.slotOf (x.1 / 4096))
          ((s.slotData (g.slotOf (x.1 / 4096))).storeWord (x.1 % 4096)
            ((s.slotData (g.slotOf (x.1 / 4096))).loadWord (x.1 % 4096) &&& ~~~msgidClaimed)),
        s.rxData, s.useCount,
        Function.update s.releaseCount (g.slotOf (x.1 / 4096))
          (s.releaseCount (g.slotOf (x.1 / 4096)) + 1),
        s.held.erase (g.slotOf (x.1 / 4096), x.1 % 4096))) :
    Move s g s' (g.dropReference s (x.1 / 4096))

/-- A move between states that stand for their streams. -/
structure Moves (p p' : State × Stream) : Prop where
  before : Represents p.1 p.2
  after : Represents p'.1 p'.2
  move : Move p.1 p.2 p'.1 p'.2

/-- What every move keeps holds at the end of a chain of moves. -/
theorem Moves.keep {I : State → Stream → Prop}
    (hmove : ∀ {s g s' g'}, Represents s g → Represents s' g' → Move s g s' g' → I s g → I s' g')
    {p p' : State × Stream} (h : Relation.ReflTransGen Moves p p') (hI : I p.1 p.2) :
    I p'.1 p'.2 := by
  induction h with
  | refl => exact hI
  | tail _ hm ih => exact hmove hm.before hm.after hm.move ih

end Slots
