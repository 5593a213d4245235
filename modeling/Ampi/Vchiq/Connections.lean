-- SUMMARY: Every run of two endpoints keeps each connection in one of its phases, unless a CLOSE meets the wrong service.
import Ampi.Vchiq.Phases
import Mathlib.Data.List.Forall2

/-!
# Connections

What the tables of services and the messages under way say about each connection, and that
every step keeps it. An early CLOSE does not name its service; the order of messages from a
port tells that no other service can be taken for it, as long as the step is unmistakable.
-/

namespace Handshake

theorem Side.other_other (side : Side) : side.other.other = side := by
  cases side <;> rfl

theorem Side.other_ne (side : Side) : side.other ≠ side := by
  cases side <;> decide

theorem Side.eq_or_eq (side side' : Side) : side = side' ∨ side = side'.other := by
  cases side <;> cases side' <;> simp [other]

namespace Endpoint

variable {e e' : Endpoint} {port i : Nat} {s new : Option Service}

theorem service?_put (h : port ≤ e.services.length) :
    (e.put port s).service? i = if i = port then s else e.service? i := by
  unfold put service?
  dsimp only
  split
  · next hlt =>
    rw [List.getElem?_set]
    split
    · next heq => simp [heq]
    · next hne => rw [if_neg (Ne.symm hne)]
  · next hge =>
    have hport : port = e.services.length := by omega
    rcases Nat.lt_trichotomy i e.services.length with hlt | heq | hgt
    · rw [List.getElem?_append_left hlt, if_neg (by omega)]
    · rw [if_pos (by omega), heq, List.getElem?_concat_length]
      rfl
    · have hlen : (e.services ++ [s]).length ≤ i := by
        rw [List.length_append]
        exact hgt
      rw [List.getElem?_eq_none hlen, if_neg (by omega), List.getElem?_eq_none hgt.le]

theorem length_put (h : port < e.services.length ∨ e.services.length < maxServices)
    (hlen : e.services.length ≤ maxServices) : (e.put port s).services.length ≤ maxServices := by
  unfold put
  dsimp only
  split
  · rwa [List.length_set]
  · rw [List.length_append, List.length_singleton]
    omega

theorem lt_of_service? {s : Service} (h : e.service? port = some s) :
    port < e.services.length := by
  unfold service? at h
  by_contra hge
  rw [List.getElem?_eq_none (by omega)] at h
  cases h

theorem findServiceByPort_eq {s : Service} :
    e.findServiceByPort port = some s ↔ e.service? port = some s ∧ s.srvstate ≠ .free := by
  simp [findServiceByPort, Option.filter_eq_some_iff]

/-! ## A connection at one end -/

/-- The service of the connection is the one with that port, state and remote port. -/
structure At (e : Endpoint) (c : Conn) (v : Option (Nat × SrvState × Nat)) : Prop where
  found : ∀ port s, e.service? port = some s → s.conn = some c →
    v = some (port, s.srvstate, s.remoteport)
  present : ∀ x ∈ v, ∃ s, e.service? x.1 = some s ∧ s.conn = some c

namespace At

variable {c : Conn} {v : Option (Nat × SrvState × Nat)}

/-- The connection has nothing to do with the place that is written. -/
theorem frame (h : e.At c v)
    (hput : ∀ i, e'.service? i = if i = port then new else e.service? i)
    (hold : ∀ s, e.service? port = some s → s.conn ≠ some c)
    (hnew : ∀ s ∈ new, s.conn ≠ some c) : e'.At c v := by
  refine ⟨fun i s hs hc => ?_, fun x hx => ?_⟩
  · rw [hput] at hs
    split at hs
    · exact absurd hc (hnew s hs)
    · exact h.found i s hs hc
  · obtain ⟨s, hs, hc⟩ := h.present x hx
    refine ⟨s, ?_, hc⟩
    rw [hput, if_neg ?_]
    · exact hs
    · intro heq
      exact hold s (heq ▸ hs) hc

/-- The place of the connection is written. -/
theorem write (h : e.At c v) (hput : ∀ i, e'.service? i = if i = port then new else e.service? i)
    (hport : ∀ x ∈ v, x.1 = port) {v' : Option (Nat × SrvState × Nat)}
    (hfound : ∀ s ∈ new, s.conn = some c → v' = some (port, s.srvstate, s.remoteport))
    (hpresent : ∀ x ∈ v', x.1 = port ∧ ∃ s ∈ new, s.conn = some c) : e'.At c v' := by
  refine ⟨fun i s hs hc => ?_, fun x hx => ?_⟩
  · rw [hput] at hs
    split at hs
    · next heq =>
      subst heq
      exact hfound s hs hc
    · next hne => exact absurd (hport _ (h.found i s hs hc)) hne
  · obtain ⟨hx, s, hs, hc⟩ := hpresent x hx
    refine ⟨s, ?_, hc⟩
    rw [hput, if_pos hx]
    exact hs

end At

end Endpoint

/-! ## Connections -/

/-- What a message of the kind looks like, from the client on port `q` to the server on
port `p` or back. -/
def Kind.Is (q p : Nat) (m : Msg) : Kind → Prop
  | .open =>
    (∃ fourcc version versionMin, m.body = .opening fourcc version versionMin) ∧
      m.srcport = q ∧ m.dstport = 0 ∧ m.origin = .service
  | .early => m.body = .close ∧ m.srcport = q ∧ m.dstport = 0 ∧ m.origin = .unanswered
  | .late => m.body = .close ∧ m.srcport = q ∧ m.dstport = p ∧ m.origin = .service
  | .ack => m.body = .openack ∧ m.srcport = p ∧ m.dstport = q ∧ m.origin = .service
  | .reject => m.body = .close ∧ m.srcport = 0 ∧ m.dstport = q ∧ m.origin = .rejection
  | .close => m.body = .close ∧ m.srcport = p ∧ m.dstport = q ∧ m.origin = .service

/-- The client as the table has it. -/
def Client.view (q p : Nat) : Client → Option (Nat × SrvState × Nat)
  | .gone => none
  | .opening => some (q, .opening, portFree)
  | .early => some (q, .closesent, portFree)
  | .open => some (q, .open, p)
  | .late => some (q, .closesent, p)

def Server.view (q p : Nat) : Server → Option (Nat × SrvState × Nat)
  | .gone => none
  | .open => some (p, .open, q)
  | .closesent => some (p, .closesent, q)

/-- A client as it is found in the table. -/
theorem Client.view_eq {client : Client} {q p port remoteport : Nat} {srvstate : SrvState}
    (h : client.view q p = some (port, srvstate, remoteport)) :
    q = port ∧ (client = .opening ∧ srvstate = .opening ∧ remoteport = portFree ∨
      client = .early ∧ srvstate = .closesent ∧ remoteport = portFree ∨
      client = .open ∧ srvstate = .open ∧ remoteport = p ∨
      client = .late ∧ srvstate = .closesent ∧ remoteport = p) := by
  cases client with
  | gone => cases h
  | _ =>
    simp only [view, Option.some.injEq, Prod.mk.injEq] at h
    obtain ⟨rfl, rfl, rfl⟩ := h
    simp

theorem Server.view_eq {server : Server} {q p port remoteport : Nat} {srvstate : SrvState}
    (h : server.view q p = some (port, srvstate, remoteport)) :
    p = port ∧ q = remoteport ∧ (server = .open ∧ srvstate = .open ∨
      server = .closesent ∧ srvstate = .closesent) := by
  cases server with
  | gone => cases h
  | _ =>
    simp only [view, Option.some.injEq, Prod.mk.injEq] at h
    obtain ⟨rfl, rfl, rfl⟩ := h
    simp

/-- The messages of a connection. -/
def thread (c : Conn) (ms : List Msg) : List Msg := ms.filter (·.conn = some c)

/-- The connection is in the phase. -/
structure LinkedAt (n : Net) (c : Conn) (q p : Nat) (client : Client) (ks : List Kind)
    (server : Server) (ks' : List Kind) : Prop where
  phase : Phase client ks server ks'
  ports : q < portFree ∧ p < portFree
  client : (n.ends c.opener).At c (client.view q p)
  server : (n.ends c.opener.other).At c (server.view q p)
  toServer : List.Forall₂ (fun k m => k.Is q p m) ks (thread c (n.sent c.opener))
  toClient : List.Forall₂ (fun k m => k.Is q p m) ks' (thread c (n.sent c.opener.other))

def Linked (n : Net) (c : Conn) : Prop :=
  ∃ q p client ks server ks', LinkedAt n c q p client ks server ks'

/-- A service that is in no connection; a client whose OPEN has not been queued is in none. -/
structure Service.Idle (s : Service) : Prop where
  conn : s.conn = none
  remoteport : s.remoteport = portFree
  srvstate : s.srvstate = .free ∨ s.srvstate = .hidden ∨ s.srvstate = .listening ∨
    s.srvstate = .closewait ∨ s.srvstate = .opening

/-- What every step keeps. -/
structure Inv (n : Net) : Prop where
  linked : ∀ c, Linked n c
  idle : ∀ side port s, (n.ends side).service? port = some s → s.conn = none → s.Idle
  localport : ∀ side port s, (n.ends side).service? port = some s → s.localport = port
  size : ∀ side, (n.ends side).services.length ≤ maxServices
  named : ∀ side, ∀ m ∈ n.sent side, ∃ c, m.conn = some c ∧ c.number < n.time
  young : ∀ side port s c, (n.ends side).service? port = some s → s.conn = some c →
    c.number < n.time
  ordered : ∀ side, Ordered (n.sent side)
  guarded : ∀ side port s, (n.ends side).service? port = some s → s.remoteport ≠ portFree →
    Guarded s.conn s.remoteport (n.sent side.other)

/-- A step writes one place of one side, takes messages that are sent to it, and sends
some. -/
structure Moved (n n' : Net) (side : Side) (port : Nat) (new : Option Service)
    (popped msgs : List Msg) : Prop where
  put : ∀ i, (n'.ends side).service? i = if i = port then new else (n.ends side).service? i
  other : n'.ends side.other = n.ends side.other
  sent : n'.sent side = n.sent side ++ msgs
  pending : n.sent side.other = popped ++ n'.sent side.other
  time : n.time < n'.time
  size : (n'.ends side).services.length ≤ maxServices

section

variable {c : Conn} {m : Msg} {ms ms' : List Msg}

theorem thread_append : thread c (ms ++ ms') = thread c ms ++ thread c ms' :=
  List.filter_append ..

theorem thread_cons (h : m.conn = some c) : thread c (m :: ms) = m :: thread c ms :=
  List.filter_cons_of_pos (decide_eq_true h)

theorem thread_eq_nil (h : ∀ m ∈ ms, m.conn ≠ some c) : thread c ms = [] :=
  List.filter_eq_nil_iff.2 fun m hm => by simpa using h m hm

theorem mem_thread : m ∈ thread c ms ↔ m ∈ ms ∧ m.conn = some c := by
  simp [thread]

end

/-- A list that stands for another one has a member for each of its members. -/
theorem exists_kind {R : Kind → Msg → Prop} {ks : List Kind} (h : List.Forall₂ R ks ms)
    (hm : m ∈ ms) : ∃ k ∈ ks, R k m := by
  induction h with
  | nil => cases hm
  | cons hR _ ih =>
    rcases List.mem_cons.1 hm with rfl | hm
    · exact ⟨_, List.mem_cons_self, hR⟩
    · obtain ⟨k, hk, hR'⟩ := ih hm
      exact ⟨k, List.mem_cons_of_mem _ hk, hR'⟩

theorem exists_msg {R : Kind → Msg → Prop} {k : Kind} {ks : List Kind} (h : List.Forall₂ R ks ms)
    (hk : k ∈ ks) : ∃ m ∈ ms, R k m := by
  induction h with
  | nil => cases hk
  | cons hR _ ih =>
    rcases List.mem_cons.1 hk with rfl | hk
    · exact ⟨_, List.mem_cons_self, hR⟩
    · obtain ⟨m, hm, hR'⟩ := ih hk
      exact ⟨m, List.mem_cons_of_mem _ hm, hR'⟩

theorem Kind.Is.isClose {q p : Nat} {k : Kind} (h : k.Is q p m)
    (hk : k = .early ∨ k = .late ∨ k = .close) (hc : m.conn = some c) : IsClose (some c) m := by
  rcases hk with rfl | rfl | rfl
  · exact ⟨h.1, by rw [h.2.2.2]; nofun, hc⟩
  · exact ⟨h.1, by rw [h.2.2.2]; nofun, hc⟩
  · exact ⟨h.1, by rw [h.2.2.2]; nofun, hc⟩

namespace LinkedAt

variable {n : Net} {c : Conn} {q p port : Nat} {client : Client} {server : Server}
variable {ks ks' : List Kind} {side : Side} {s : Service}

/-! ## Who has closed -/

theorem client_view (h : LinkedAt n c q p client ks server ks')
    (hs : (n.ends c.opener).service? port = some s) (hc : s.conn = some c) :
    q = port ∧ (client = .opening ∧ s.srvstate = .opening ∧ s.remoteport = portFree ∨
      client = .early ∧ s.srvstate = .closesent ∧ s.remoteport = portFree ∨
      client = .open ∧ s.srvstate = .open ∧ s.remoteport = p ∨
      client = .late ∧ s.srvstate = .closesent ∧ s.remoteport = p) :=
  Client.view_eq (h.client.found port s hs hc)

theorem server_view (h : LinkedAt n c q p client ks server ks')
    (hs : (n.ends c.opener.other).service? port = some s) (hc : s.conn = some c) :
    p = port ∧ q = s.remoteport ∧ (server = .open ∧ s.srvstate = .open ∨
      server = .closesent ∧ s.srvstate = .closesent) :=
  Server.view_eq (h.server.found port s hs hc)

/-- The CLOSE that is under way to the server. -/
theorem exists_close_toServer (h : LinkedAt n c q p client ks server ks')
    (hk : .early ∈ ks ∨ .late ∈ ks) : ∃ m ∈ n.sent c.opener, IsClose (some c) m := by
  obtain hk | hk := hk
  · obtain ⟨m, hm, his⟩ := exists_msg h.toServer hk
    obtain ⟨hm, hc⟩ := mem_thread.1 hm
    exact ⟨m, hm, his.isClose (.inl rfl) hc⟩
  · obtain ⟨m, hm, his⟩ := exists_msg h.toServer hk
    obtain ⟨hm, hc⟩ := mem_thread.1 hm
    exact ⟨m, hm, his.isClose (.inr (.inl rfl)) hc⟩

theorem exists_close_toClient (h : LinkedAt n c q p client ks server ks') (hk : .close ∈ ks') :
    ∃ m ∈ n.sent c.opener.other, IsClose (some c) m := by
  obtain ⟨m, hm, his⟩ := exists_msg h.toClient hk
  obtain ⟨hm, hc⟩ := mem_thread.1 hm
  exact ⟨m, hm, his.isClose (.inr (.inr rfl)) hc⟩

/-- A message of a service that is gone is followed by its CLOSE. -/
theorem sender (h : LinkedAt n c q p client ks server ks') {m : Msg} (hm : m ∈ n.sent side)
    (hc : m.conn = some c) (horigin : m.origin ≠ .rejection) :
    (∃ s, (n.ends side).service? m.srcport = some s ∧ s.conn = some c) ∨
      ∃ m' ∈ n.sent side, IsClose (some c) m' := by
  rcases c.opener.eq_or_eq side with rfl | hside
  · obtain ⟨k, hk, his⟩ := exists_kind h.toServer (mem_thread.2 ⟨hm, hc⟩)
    by_cases hgone : client = .gone
    · subst hgone
      refine .inr (h.exists_close_toServer ?_)
      rcases h.phase.client_gone (.inr (List.ne_nil_of_mem hk)) with rfl | rfl <;> simp
    · have hport : m.srcport = q := by
        rcases h.phase.mem_toServer hk with rfl | rfl | rfl
        · exact his.2.1
        · exact his.2.1
        · exact his.2.1
      refine .inl ?_
      cases client with
      | gone => exact absurd rfl hgone
      | _ => exact hport ▸ h.client.present _ rfl
  · obtain rfl : side = c.opener.other := by rw [hside, Side.other_other]
    obtain ⟨k, hk, his⟩ := exists_kind h.toClient (mem_thread.2 ⟨hm, hc⟩)
    have hkind : k = .ack ∨ k = .close := by
      rcases h.phase.mem_toClient hk with rfl | rfl | rfl
      · exact .inl rfl
      · exact absurd his.2.2.2 horigin
      · exact .inr rfl
    by_cases hgone : server = .gone
    · subst hgone
      refine .inr (h.exists_close_toClient (h.phase.server_gone ?_))
      rcases hkind with rfl | rfl
      · exact .inr (.inr (.inl hk))
      · exact .inr (.inr (.inr hk))
    · have hport : m.srcport = p := by
        rcases hkind with rfl | rfl
        · exact his.2.1
        · exact his.2.1
      refine .inl ?_
      cases server with
      | gone => exact absurd rfl hgone
      | _ => exact hport ▸ h.server.present _ rfl

/-- A service whose peer is gone has its CLOSE under way to it. -/
theorem peer (h : LinkedAt n c q p client ks server ks')
    (hs : (n.ends side).service? port = some s) (hc : s.conn = some c)
    (hremote : s.remoteport ≠ portFree) :
    (∃ s', (n.ends side.other).service? s.remoteport = some s' ∧ s'.conn = some c) ∨
      ∃ m ∈ n.sent side.other, IsClose (some c) m := by
  rcases c.opener.eq_or_eq side with rfl | hside
  · have hopen : (client = .open ∨ client = .late) ∧ s.remoteport = p := by
      rcases (h.client_view hs hc).2 with ⟨-, -, hfree⟩ | ⟨-, -, hfree⟩ | ⟨hopen, -, hp⟩ |
        ⟨hlate, -, hp⟩
      · exact absurd hfree hremote
      · exact absurd hfree hremote
      · exact ⟨.inl hopen, hp⟩
      · exact ⟨.inr hlate, hp⟩
    by_cases hgone : server = .gone
    · subst hgone
      refine .inr (h.exists_close_toClient (h.phase.server_gone ?_))
      exact hopen.1.elim .inl fun hlate => .inr (.inl hlate)
    · refine .inl ?_
      rw [hopen.2]
      cases server with
      | gone => exact absurd rfl hgone
      | _ => exact h.server.present _ rfl
  · obtain rfl : side = c.opener.other := by rw [hside, Side.other_other]
    rw [Side.other_other]
    obtain ⟨-, hq, hserver⟩ := h.server_view hs hc
    have hserver : server ≠ .gone := by
      rcases hserver with ⟨rfl, -⟩ | ⟨rfl, -⟩ <;> nofun
    by_cases hgone : client = .gone
    · subst hgone
      refine .inr (h.exists_close_toServer ?_)
      rcases h.phase.client_gone (.inl hserver) with rfl | rfl <;> simp
    · refine .inl ?_
      rw [← hq]
      cases client with
      | gone => exact absurd rfl hgone
      | _ => exact h.client.present _ rfl

/-- A service that is not closing has not sent a CLOSE. -/
theorem unclosed (h : LinkedAt n c q p client ks server ks')
    (hs : (n.ends side).service? port = some s) (hc : s.conn = some c)
    (hopen : s.srvstate = .opening ∨ s.srvstate = .open) :
    ∀ m ∈ n.sent side, ¬IsClose (some c) m := by
  rintro m hm ⟨hbody, horigin, hconn⟩
  rcases c.opener.eq_or_eq side with rfl | hside
  · have hclient : client = .opening ∨ client = .open := by
      rcases (h.client_view hs hc).2 with ⟨rfl, -⟩ | ⟨-, hstate, -⟩ | ⟨rfl, -⟩ | ⟨-, hstate, -⟩
      · exact .inl rfl
      · rw [hstate] at hopen
        simp at hopen
      · exact .inr rfl
      · rw [hstate] at hopen
        simp at hopen
    obtain ⟨hearly, hlate⟩ := h.phase.client_unclosed hclient
    obtain ⟨k, hk, his⟩ := exists_kind h.toServer (mem_thread.2 ⟨hm, hconn⟩)
    rcases h.phase.mem_toServer hk with rfl | rfl | rfl
    · obtain ⟨⟨_, _, _, hopening⟩, -⟩ := his
      rw [hopening] at hbody
      cases hbody
    · exact hearly hk
    · exact hlate hk
  · obtain rfl : side = c.opener.other := by rw [hside, Side.other_other]
    obtain rfl : server = .open := by
      rcases (h.server_view hs hc).2.2 with ⟨rfl, -⟩ | ⟨-, hstate⟩
      · rfl
      · rw [hstate] at hopen
        simp at hopen
    obtain ⟨k, hk, his⟩ := exists_kind h.toClient (mem_thread.2 ⟨hm, hconn⟩)
    rcases h.phase.mem_toClient hk with rfl | rfl | rfl
    · rw [his.1] at hbody
      cases hbody
    · exact horigin his.2.2.2
    · exact h.phase.server_unclosed hk

end LinkedAt

/-! ## Messages that are sent -/

theorem Ordered.of_append (h : Ordered (ms ++ ms')) : Ordered ms' := by
  induction ms with
  | nil => exact h
  | cons _ ms ih => exact ih h.2.2

/-- The message is the first of a connection from its port, or one of the service there. -/
structure Fresh (n : Net) (side : Side) (m : Msg) : Prop where
  named : ∃ c, m.conn = some c
  port : ∀ s, (n.ends side).service? m.srcport = some s → s.conn = none ∨ s.conn = m.conn
  unclosed : ∀ m' ∈ n.sent side, ¬IsClose m.conn m'

namespace Inv

variable {n n' : Net} {side : Side}

theorem named_conn (h : Inv n) (hm : m ∈ n.sent side) : ∃ c, m.conn = some c :=
  (h.named side m hm).imp fun _ hc => hc.1

theorem ordered_append (h : Inv n) (hm : m.origin ≠ .rejection → Fresh n side m) :
    Ordered (n.sent side ++ [m]) := by
  refine (h.ordered side).append (fun horigin => (hm horigin).unclosed) ?_
  intro horigin a ha haorigin hport hne
  obtain ⟨c, hc⟩ := h.named_conn ha
  obtain ⟨q, p, client, ks, server, ks', hlinked⟩ := h.linked c
  rcases hlinked.sender ha hc haorigin with ⟨s, hs, hsc⟩ | hclosed
  · rw [hport] at hs
    rcases (hm horigin).port s hs with hnone | heq
    · exact absurd (hnone.symm.trans hsc) nofun
    · exact absurd (heq.symm.trans (hsc.trans hc.symm)) hne
  · exact hc ▸ hclosed

/-- A service at the other side is not taken in by it. -/
theorem guarded_append (h : Inv n) (hm : m.origin ≠ .rejection → Fresh n side m) {port : Nat}
    {s : Service} (hs : (n.ends side.other).service? port = some s)
    (hremote : s.remoteport ≠ portFree) : Guarded s.conn s.remoteport (n.sent side ++ [m]) := by
  have hguarded := h.guarded side.other port s hs hremote
  rw [Side.other_other] at hguarded
  refine hguarded.append fun horigin hport hne => ?_
  cases hc : s.conn with
  | none => exact absurd (h.idle _ _ _ hs hc).remoteport hremote
  | some c =>
    obtain ⟨q, p, client, ks, server, ks', hlinked⟩ := h.linked c
    have hpeer := hlinked.peer hs hc hremote
    rw [Side.other_other] at hpeer
    rcases hpeer with ⟨s', hs', hc'⟩ | hclosed
    · rw [← hport] at hs'
      rcases (hm horigin).port s' hs' with hnone | heq
      · exact absurd (hnone.symm.trans hc') nofun
      · exact absurd (heq.symm.trans (hc'.trans hc.symm)) hne
    · exact hclosed

end Inv

/-! ## Steps -/

/-- A step for at most one connection. -/
structure Change (n n' : Net) (side : Side) (port : Nat) (new : Option Service)
    (popped msgs : List Msg) (c : Option Conn) : Prop extends
    Moved n n' side port new popped msgs where
  old_conn : ∀ s, (n.ends side).service? port = some s → s.conn = none ∨ s.conn = c
  new_conn : ∀ s ∈ new, s.conn = none ∧ s.Idle ∨ s.conn = c ∧ c.isSome
  new_port : ∀ s ∈ new, s.localport = port
  popped_conn : ∀ m ∈ popped, m.conn = c
  msgs_conn : ∀ m ∈ msgs, m.conn = c ∧ c.isSome

theorem Guarded.of_append {c : Option Conn} {port : Nat} (h : Guarded c port (ms ++ ms'))
    (hms : ∀ m ∈ ms, ¬IsClose c m) : Guarded c port ms' := by
  induction ms with
  | nil => exact h
  | cons a ms ih =>
    exact ih (Guarded.tail h (hms a List.mem_cons_self)) fun m hm =>
      hms m (List.mem_cons_of_mem a hm)

/-- A step that has nothing to do with the connection. -/
theorem LinkedAt.frame {n n' : Net} {q p port : Nat} {client : Client} {server : Server}
    {ks ks' : List Kind} {side : Side} {new : Option Service} {popped msgs : List Msg}
    (h : LinkedAt n c q p client ks server ks') (hmoved : Moved n n' side port new popped msgs)
    (hold : ∀ s, (n.ends side).service? port = some s → s.conn ≠ some c)
    (hnew : ∀ s ∈ new, s.conn ≠ some c) (hpopped : ∀ m ∈ popped, m.conn ≠ some c)
    (hmsgs : ∀ m ∈ msgs, m.conn ≠ some c) : LinkedAt n' c q p client ks server ks' := by
  have hsent : thread c (n'.sent side) = thread c (n.sent side) := by
    rw [hmoved.sent, thread_append, thread_eq_nil hmsgs, List.append_nil]
  have hpending : thread c (n'.sent side.other) = thread c (n.sent side.other) := by
    rw [hmoved.pending, thread_append, thread_eq_nil hpopped, List.nil_append]
  have hat {v : Option (Nat × SrvState × Nat)} (hv : (n.ends side).At c v) :
      (n'.ends side).At c v := hv.frame hmoved.put hold hnew
  rcases c.opener.eq_or_eq side with rfl | hside
  · exact ⟨h.phase, h.ports, hat h.client, hmoved.other ▸ h.server, hsent ▸ h.toServer,
      hpending ▸ h.toClient⟩
  · obtain rfl : side = c.opener.other := by rw [hside, Side.other_other]
    rw [Side.other_other] at hpending
    have hother := hmoved.other
    rw [Side.other_other] at hother
    exact ⟨h.phase, h.ports, hother ▸ h.client, hat h.server, hpending ▸ h.toServer,
      hsent ▸ h.toClient⟩

namespace Change

variable {n n' : Net} {side : Side} {port : Nat} {new : Option Service} {popped msgs : List Msg}
variable {c : Option Conn}

/-- Connections other than the one of the step stay as they are. -/
theorem linked (hch : Change n n' side port new popped msgs c) {c' : Conn} (h : Linked n c')
    (hne : c ≠ some c') : Linked n' c' := by
  obtain ⟨q, p, client, ks, server, ks', hlinked⟩ := h
  refine ⟨q, p, client, ks, server, ks', hlinked.frame hch.toMoved ?_ ?_ ?_ ?_⟩
  · intro s hs hc
    rcases hch.old_conn s hs with hnone | heq
    · exact absurd (hnone.symm.trans hc) nofun
    · exact hne (heq.symm.trans hc)
  · intro s hs hc
    rcases hch.new_conn s hs with ⟨hnone, -⟩ | ⟨heq, -⟩
    · exact absurd (hnone.symm.trans hc) nofun
    · exact hne (heq.symm.trans hc)
  · exact fun m hm hc => hne ((hch.popped_conn m hm).symm.trans hc)
  · exact fun m hm hc => hne ((hch.msgs_conn m hm).1.symm.trans hc)

theorem mem_sent_other (hch : Change n n' side port new popped msgs c)
    (hm : m ∈ n'.sent side.other) : m ∈ n.sent side.other := by
  rw [hch.pending]
  exact List.mem_append_right _ hm

/-- What is left to be shown of a step. -/
theorem inv (hch : Change n n' side port new popped msgs c) (h : Inv n)
    (hlinked : ∀ x, c = some x → x.number < n'.time ∧ Linked n' x)
    (hmsgs : msgs = [] ∨ ∃ m, msgs = [m] ∧ (m.origin ≠ .rejection → Fresh n side m))
    (hguarded : ∀ s ∈ new, s.remoteport ≠ portFree →
      Guarded s.conn s.remoteport (n'.sent side.other))
    (hkept : ∀ i s, i ≠ port → (n.ends side).service? i = some s →
      ∀ m ∈ popped, ¬IsClose s.conn m) : Inv n' where
  linked c' := by
    by_cases hc : c = some c'
    · exact (hlinked c' hc).2
    · exact hch.linked (h.linked c') hc
  idle side' i s hs hnone := by
    rcases side.eq_or_eq side' with rfl | hside
    · rw [hch.put] at hs
      split at hs
      · rcases hch.new_conn s hs with ⟨-, hidle⟩ | ⟨heq, hsome⟩
        · exact hidle
        · rw [← heq, hnone] at hsome
          cases hsome
      · exact h.idle side i s hs hnone
    · obtain rfl : side' = side.other := by rw [hside, Side.other_other]
      rw [hch.other] at hs
      exact h.idle _ i s hs hnone
  localport side' i s hs := by
    rcases side.eq_or_eq side' with rfl | hside
    · rw [hch.put] at hs
      split at hs
      next heq => exact heq ▸ hch.new_port s hs
      · exact h.localport side i s hs
    · obtain rfl : side' = side.other := by rw [hside, Side.other_other]
      rw [hch.other] at hs
      exact h.localport _ i s hs
  size side' := by
    rcases side.eq_or_eq side' with rfl | hside
    · exact hch.size
    · obtain rfl : side' = side.other := by rw [hside, Side.other_other]
      rw [hch.other]
      exact h.size _
  named side' m hm := by
    rcases side.eq_or_eq side' with rfl | hside
    · rw [hch.sent] at hm
      rcases List.mem_append.1 hm with hm | hm
      · obtain ⟨c', hc', hlt⟩ := h.named side m hm
        exact ⟨c', hc', hlt.trans hch.time⟩
      · obtain ⟨hc, hsome⟩ := hch.msgs_conn m hm
        obtain ⟨c', hc'⟩ := Option.isSome_iff_exists.1 hsome
        exact ⟨c', hc.trans hc', (hlinked c' hc').1⟩
    · obtain rfl : side' = side.other := by rw [hside, Side.other_other]
      obtain ⟨c', hc', hlt⟩ := h.named _ m (hch.mem_sent_other hm)
      exact ⟨c', hc', hlt.trans hch.time⟩
  young side' i s c' hs hc' := by
    rcases side.eq_or_eq side' with rfl | hside
    · rw [hch.put] at hs
      split at hs
      · rcases hch.new_conn s hs with ⟨hnone, -⟩ | ⟨heq, -⟩
        · exact absurd (hnone.symm.trans hc') nofun
        · exact (hlinked c' (heq.symm.trans hc')).1
      · exact (h.young side i s c' hs hc').trans hch.time
    · obtain rfl : side' = side.other := by rw [hside, Side.other_other]
      rw [hch.other] at hs
      exact (h.young _ i s c' hs hc').trans hch.time
  ordered side' := by
    rcases side.eq_or_eq side' with rfl | hside
    · rw [hch.sent]
      rcases hmsgs with rfl | ⟨m, rfl, hm⟩
      · rw [List.append_nil]
        exact h.ordered side
      · exact h.ordered_append hm
    · obtain rfl : side' = side.other := by rw [hside, Side.other_other]
      have hordered := h.ordered side.other
      rw [hch.pending] at hordered
      exact hordered.of_append
  guarded side' i s hs hremote := by
    rcases side.eq_or_eq side' with rfl | hside
    · rw [hch.put] at hs
      split at hs
      · exact hguarded s hs hremote
      next hne =>
        have hg := h.guarded side i s hs hremote
        rw [hch.pending] at hg
        exact hg.of_append (hkept i s hne hs)
    · obtain rfl : side' = side.other := by rw [hside, Side.other_other]
      rw [hch.other] at hs
      rw [Side.other_other, hch.sent]
      rcases hmsgs with rfl | ⟨m, rfl, hm⟩
      · have hg := h.guarded side.other i s hs hremote
        rw [Side.other_other] at hg
        rw [List.append_nil]
        exact hg
      · exact h.guarded_append hm hs hremote

end Change

end Handshake
