-- SUMMARY: The phases of a connection between two services, and the order of messages from one port.
import Ampi.Vchiq.Handshake

/-!
# Phases

A connection is one client that has been opened, with the server that accepts it. Its
messages in either direction are handled in order, and every way in which both ends can
stand with what is under way between them is one of the phases below.

A port is used by one service after the other. The CLOSE of a service is its last message,
so that it stands between its own messages and those of the next service on its port.
-/

namespace Handshake

/-- The messages of a connection by what they say; the first three go to the server. -/
inductive Kind where
  | open | early | late
  | ack | reject | close
  deriving DecidableEq, Repr

/-- Where a client stands; `early` and `late` are CLOSESENT, before OPENACK and after. -/
inductive Client where
  | gone | opening | early | open | late
  deriving DecidableEq, Repr

inductive Server where
  | gone | open | closesent
  deriving DecidableEq, Repr

/-- The client, the messages from it, the server and the messages to the client. -/
inductive Phase : Client → List Kind → Server → List Kind → Prop where
  | ended : Phase .gone [] .gone []
  | asked : Phase .opening [.open] .gone []
  | withdrawn : Phase .early [.open, .early] .gone []
  -- accepted, and the client has not seen it
  | accepted : Phase .opening [] .open [.ack]
  | acceptedEarly : Phase .early [.early] .open [.ack]
  | left : Phase .opening [] .closesent [.ack, .close]
  | crossedEarly : Phase .early [.early] .closesent [.ack, .close]
  | answeredEarly : Phase .early [] .gone [.ack, .close]
  -- the same with an OPENACK that came too late
  | ignored : Phase .early [.early] .open []
  | ignoredCrossed : Phase .early [.early] .closesent [.close]
  | ignoredAnswered : Phase .early [] .gone [.close]
  | stranded : Phase .gone [.early] .closesent []
  -- rejected
  | rejected : Phase .opening [] .gone [.reject]
  | rejectedEarly : Phase .early [.early] .gone [.reject]
  | dropped : Phase .early [] .gone [.reject]
  | forgotten : Phase .gone [.early] .gone []
  -- open at both ends
  | established : Phase .open [] .open []
  | clientCloses : Phase .late [.late] .open []
  | serverCloses : Phase .open [] .closesent [.close]
  | bothClose : Phase .late [.late] .closesent [.close]
  | serverAnswered : Phase .late [] .gone [.close]
  | clientAnswered : Phase .gone [.late] .closesent []

namespace Phase

variable {client : Client} {server : Server} {ks ks' : List Kind}

/-! ## What either end does -/

theorem withdraw (h : Phase .opening ks server ks') :
    Phase .early (ks ++ [.early]) server ks' := by
  cases h with
  | asked => exact .withdrawn
  | accepted => exact .acceptedEarly
  | left => exact .crossedEarly
  | rejected => exact .rejectedEarly

theorem closeClient (h : Phase .open ks server ks') : Phase .late (ks ++ [.late]) server ks' := by
  cases h with
  | established => exact .clientCloses
  | serverCloses => exact .bothClose

theorem closeServer (h : Phase client ks .open ks') :
    Phase client ks .closesent (ks' ++ [.close]) := by
  cases h with
  | accepted => exact .left
  | acceptedEarly => exact .crossedEarly
  | ignored => exact .ignoredCrossed
  | established => exact .serverCloses
  | clientCloses => exact .bothClose

/-! ## What it does with a message -/

variable {k : Kind}

theorem mem_toServer (h : Phase client ks server ks') (hk : k ∈ ks) :
    k = .open ∨ k = .early ∨ k = .late := by
  cases h <;> (simp_all; try tauto)

theorem mem_toClient (h : Phase client ks server ks') (hk : k ∈ ks') :
    k = .ack ∨ k = .reject ∨ k = .close := by
  cases h <;> simp_all <;> tauto

theorem toServer (h : Phase client (k :: ks) server ks') : k = .open ∨ k = .early ∨ k = .late := by
  cases h <;> simp

theorem toClient (h : Phase client ks server (k :: ks')) : k = .ack ∨ k = .reject ∨ k = .close := by
  cases h <;> simp

/-- The server is asked before anything else. -/
theorem accept (h : Phase client (.open :: ks) server ks') :
    server = .gone ∧ ks' = [] ∧ Phase client ks .open [.ack] ∧ Phase client ks .gone [.reject] := by
  cases h with
  | asked => exact ⟨rfl, rfl, .accepted, .rejected⟩
  | withdrawn => exact ⟨rfl, rfl, .acceptedEarly, .rejectedEarly⟩

/-- An open server answers a CLOSE. -/
theorem answerClient (h : Phase client (k :: ks) .open ks') :
    Phase client ks .gone (ks' ++ [.close]) := by
  cases h with
  | acceptedEarly => exact .answeredEarly
  | ignored => exact .ignoredAnswered
  | clientCloses => exact .serverAnswered

theorem endServer (h : Phase client (k :: ks) .closesent ks') : Phase client ks .gone ks' := by
  cases h with
  | crossedEarly => exact .answeredEarly
  | ignoredCrossed => exact .ignoredAnswered
  | stranded => exact .ended
  | bothClose => exact .serverAnswered
  | clientAnswered => exact .ended

/-- Only a client that is not answered sends a CLOSE to nobody. -/
theorem dropEarly (h : Phase client (k :: ks) .gone ks') (hk : k ≠ .open) :
    k = .early ∧ Phase client ks .gone ks' := by
  cases h with
  | asked | withdrawn => exact absurd rfl hk
  | rejectedEarly => exact ⟨rfl, .dropped⟩
  | forgotten => exact ⟨rfl, .ended⟩

theorem seeAck (h : Phase client ks server (.ack :: ks')) :
    client = .opening ∧ Phase .open ks server ks' ∨
      client = .early ∧ Phase .early ks server ks' := by
  cases h with
  | accepted => exact .inl ⟨rfl, .established⟩
  | left => exact .inl ⟨rfl, .serverCloses⟩
  | acceptedEarly => exact .inr ⟨rfl, .ignored⟩
  | crossedEarly => exact .inr ⟨rfl, .ignoredCrossed⟩
  | answeredEarly => exact .inr ⟨rfl, .ignoredAnswered⟩

theorem seeReject (h : Phase client ks server (.reject :: ks')) :
    (client = .opening ∨ client = .early) ∧ Phase .gone ks server ks' := by
  cases h with
  | rejected => exact ⟨.inl rfl, .ended⟩
  | rejectedEarly => exact ⟨.inr rfl, .forgotten⟩
  | dropped => exact ⟨.inr rfl, .ended⟩

theorem seeClose (h : Phase client ks server (.close :: ks')) :
    client = .open ∧ Phase .gone (ks ++ [.late]) server ks' ∨
      (client = .early ∨ client = .late) ∧ Phase .gone ks server ks' := by
  cases h with
  | ignoredCrossed => exact .inr ⟨.inl rfl, .stranded⟩
  | ignoredAnswered => exact .inr ⟨.inl rfl, .ended⟩
  | serverCloses => exact .inl ⟨rfl, .clientAnswered⟩
  | bothClose => exact .inr ⟨.inr rfl, .clientAnswered⟩
  | serverAnswered => exact .inr ⟨.inr rfl, .ended⟩

/-! ## What is under way -/

/-- The last message of a client that is gone. -/
theorem client_gone (h : Phase .gone ks server ks') (hopen : server ≠ .gone ∨ ks ≠ []) :
    ks = [.early] ∨ ks = [.late] := by
  cases h with
  | ended => simp at hopen
  | stranded | forgotten => exact .inl rfl
  | clientAnswered => exact .inr rfl

/-- The last message of a server that is gone. -/
theorem server_gone (h : Phase client ks .gone ks')
    (hopen : client = .open ∨ client = .late ∨ .ack ∈ ks' ∨ .close ∈ ks') : .close ∈ ks' := by
  cases h <;> simp at hopen ⊢

theorem client_unclosed (h : Phase client ks server ks')
    (hopen : client = .opening ∨ client = .open) : .early ∉ ks ∧ .late ∉ ks := by
  cases h <;> simp at hopen ⊢

theorem server_unclosed (h : Phase client ks .open ks') : .close ∉ ks' := by
  cases h <;> simp

/-- With nothing under way both ends are gone or open. -/
theorem settled (h : Phase client [] server []) :
    client = .gone ∧ server = .gone ∨ client = .open ∧ server = .open := by
  cases h with
  | ended => exact .inl ⟨rfl, rfl⟩
  | established => exact .inr ⟨rfl, rfl⟩

end Phase

/-! ## The order of messages -/

/-- The CLOSE of a service. -/
def IsClose (c : Option Conn) (m : Msg) : Prop :=
  m.body = .close ∧ m.origin ≠ .rejection ∧ m.conn = c

/-- Up to the CLOSE of the connection, the port sends no message of another one. -/
def Guarded (c : Option Conn) (port : Nat) : List Msg → Prop
  | [] => True
  | m :: ms =>
    IsClose c m ∨ (m.origin ≠ .rejection → m.srcport = port → m.conn = c) ∧ Guarded c port ms

/-- The CLOSE of a service is its last message, and the next service on its port sends
behind it. -/
def Ordered : List Msg → Prop
  | [] => True
  | m :: ms =>
    (IsClose m.conn m → ∀ m' ∈ ms, m'.origin ≠ .rejection → m'.conn ≠ m.conn) ∧
      (m.origin ≠ .rejection → m.body ≠ .close → Guarded m.conn m.srcport ms) ∧ Ordered ms

variable {c : Option Conn} {port : Nat} {m : Msg} {ms : List Msg}

/-- The port of a connection that is guarded sends for it, at the head of the queue. -/
theorem Guarded.conn_eq (h : Guarded c port (m :: ms)) (horigin : m.origin ≠ .rejection)
    (hport : m.srcport = port) : m.conn = c := by
  rcases h with hclose | ⟨hconn, -⟩
  · exact hclose.2.2
  · exact hconn horigin hport

theorem Guarded.tail (h : Guarded c port (m :: ms)) (hclose : ¬IsClose c m) :
    Guarded c port ms := (h.resolve_left hclose).2

theorem Guarded.append (h : Guarded c port ms)
    (hm : m.origin ≠ .rejection → m.srcport = port → m.conn ≠ c → ∃ m' ∈ ms, IsClose c m') :
    Guarded c port (ms ++ [m]) := by
  induction ms with
  | nil =>
    refine .inr ⟨fun horigin hport => ?_, trivial⟩
    by_contra hne
    obtain ⟨m', hm', -⟩ := hm horigin hport hne
    cases hm'
  | cons a ms ih =>
    rcases h with hclose | ⟨hconn, hrest⟩
    · exact .inl hclose
    · by_cases hclose : IsClose c a
      · exact .inl hclose
      refine .inr ⟨hconn, ih hrest fun horigin hport hne => ?_⟩
      obtain ⟨m', hm', hclose'⟩ := hm horigin hport hne
      rcases List.mem_cons.1 hm' with rfl | hm'
      · exact absurd hclose' hclose
      · exact ⟨m', hm', hclose'⟩

theorem Ordered.append (h : Ordered ms)
    (hlast : m.origin ≠ .rejection → ∀ m' ∈ ms, ¬IsClose m.conn m')
    (hport : m.origin ≠ .rejection → ∀ a ∈ ms, a.origin ≠ .rejection → a.srcport = m.srcport →
      m.conn ≠ a.conn → ∃ m' ∈ ms, IsClose a.conn m') :
    Ordered (ms ++ [m]) := by
  induction ms with
  | nil =>
    refine ⟨fun _ m' hm' => ?_, fun _ _ => trivial, trivial⟩
    cases hm'
  | cons a ms ih =>
    obtain ⟨hover, hguard, hrest⟩ := h
    refine ⟨fun hclose m' hm' horigin => ?_, fun horigin hbody => ?_, ih hrest ?_ ?_⟩
    · rcases List.mem_append.1 hm' with hm' | hm'
      · exact hover hclose m' hm' horigin
      · obtain rfl := List.mem_singleton.1 hm'
        intro heq
        exact hlast horigin a List.mem_cons_self (heq ▸ hclose)
    · refine (hguard horigin hbody).append fun horigin' hport' hne => ?_
      obtain ⟨m', hm', hclose⟩ := hport horigin' a List.mem_cons_self horigin hport'.symm hne
      rcases List.mem_cons.1 hm' with rfl | hm'
      · exact absurd hclose.1 hbody
      · exact ⟨m', hm', hclose⟩
    · intro horigin m' hm'
      exact hlast horigin m' (List.mem_cons_of_mem a hm')
    · intro horigin b hb hborigin hbport hne
      obtain ⟨m', hm', hclose⟩ := hport horigin b (List.mem_cons_of_mem a hb) hborigin hbport hne
      rcases List.mem_cons.1 hm' with rfl | hm'
      · -- nothing of the connection follows its CLOSE
        obtain ⟨hbody, horigin', hconn⟩ := hclose
        exact absurd hconn.symm (hover ⟨hbody, horigin', rfl⟩ b hb hborigin)
      · exact ⟨m', hm', hclose⟩

end Handshake
