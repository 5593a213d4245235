-- SUMMARY: What messages do to the connections of two endpoints, and when a CLOSE finds its counterpart.
import Ampi.Vchiq.HandshakeCalls

/-!
# Messages

Every message but an early CLOSE names its service. An early one is for the service that is
connected to the port of its client: the order of messages from a port tells that this is
its server, if there is one.
-/

namespace Handshake

variable {n n' : Net} {side : Side} {port : Nat} {new : Option Service}
variable {msgs rest : List Msg} {m : Msg} {c : Conn} {s s' : Service} {e : Endpoint} {i : Nat}

/-! ## The target of a CLOSE -/

/-- A search through the services finds one that it is for. -/
theorem Endpoint.service?_of_findIdx? {p : Service → Bool}
    (h : e.services.findIdx? (·.any p) = some i) : ∃ s, e.service? i = some s ∧ p s := by
  obtain ⟨hlt, hany, -⟩ := List.findIdx?_eq_some_iff_getElem.1 h
  obtain ⟨s, hs, hp⟩ := (Option.any_eq_true ..).1 hany
  refine ⟨s, ?_, hp⟩
  rw [service?, List.getElem?_eq_getElem hlt, hs]
  rfl

theorem Endpoint.service?_of_connected (h : e.getConnectedService port = some i) :
    ∃ s, e.service? i = some s ∧ s.srvstate = .open ∧ s.remoteport = port := by
  obtain ⟨s, hs, hopen⟩ := service?_of_findIdx? h
  exact ⟨s, hs, of_decide_eq_true hopen⟩

theorem Endpoint.exists_connected (hs : e.service? i = some s) (hopen : s.srvstate = .open)
    (hremote : s.remoteport = port) : ∃ j, e.getConnectedService port = some j := by
  have hlt := lt_of_service? hs
  rw [service?, List.getElem?_eq_getElem hlt] at hs
  change e.services[i] = some s at hs
  refine ⟨_, List.findIdx?_eq_some_of_exists ⟨e.services[i], List.getElem_mem hlt, ?_⟩⟩
  rw [hs]
  exact decide_eq_true ⟨hopen, hremote⟩

theorem Endpoint.find_of_service? (hs : e.service? port = some s) (hstate : s.srvstate ≠ .free) :
    e.findServiceByPort port = some s := findServiceByPort_eq.2 ⟨hs, hstate⟩

/-- A connection has one service at a side. -/
theorem Inv.unique (h : Inv n) {j : Nat} {t : Service} (hs : (n.ends side).service? i = some s)
    (hsc : s.conn = some c) (ht : (n.ends side).service? j = some t) (htc : t.conn = some c) :
    i = j := by
  obtain ⟨q, p, client, ks, server, ks', hlinked⟩ := h.linked c
  rcases c.opener.eq_or_eq side with rfl | hside
  · exact (hlinked.client_view hs hsc).1.symm.trans (hlinked.client_view ht htc).1
  · obtain rfl : side = c.opener.other := by rw [hside, Side.other_other]
    exact (hlinked.server_view hs hsc).1.symm.trans (hlinked.server_view ht htc).1

/-- The CLOSE names the service that it is for. -/
theorem Endpoint.closeTarget_of_service (hs : e.service? m.dstport = some s)
    (hstate : s.srvstate ≠ .free) (hremote : s.remoteport = m.srcport ∨ s.remoteport = portFree) :
    e.closeTarget m = some m.dstport := by
  unfold closeTarget
  rw [find_of_service? hs hstate]
  refine if_neg fun hne => ?_
  exact hremote.elim hne.1 hne.2.1

/-- The service is the one of the connection. -/
theorem counterpart_iff (hc : m.conn = some c) :
    Counterpart e m port ↔ ∃ s, e.service? port = some s ∧ s.conn = some c := by
  constructor
  · rintro ⟨s, c', hs, hsc, hmc⟩
    exact ⟨s, hs, hsc.trans (hmc.symm.trans hc)⟩
  · rintro ⟨s, hs, hsc⟩
    exact ⟨s, c, hs, hsc, hc⟩

/-- A client that closes early meets no service on port 0 without a connection, and its
server is open or on port 0. -/
structure Meets (e : Endpoint) (m : Msg) : Prop where
  zero : ∀ s, e.findServiceByPort 0 = some s → s.remoteport ≠ portFree
  server : ∀ port s, e.service? port = some s → s.remoteport = m.srcport →
    s.srvstate = .open ∨ port = 0

/-- An early CLOSE reaches its server exactly if it can not be mistaken. -/
theorem Inv.closeTarget_early_iff (h : Inv n) (hnext : n.sent side.other = m :: rest)
    (hc : m.conn = some c) (hdst : m.dstport = 0) (horigin : m.origin = .unanswered)
    (hsrc : m.srcport < portFree)
    (hserver : ∀ port s, (n.ends side).service? port = some s → s.conn = some c →
      s.remoteport = m.srcport ∧ s.srvstate ≠ .free) :
    (∀ port, (n.ends side).closeTarget m = some port ↔ Counterpart (n.ends side) m port) ↔
      Meets (n.ends side) m := by
  have hguard : ∀ i t, (n.ends side).service? i = some t → t.remoteport = m.srcport →
      t.conn = some c := by
    intro i t ht hremote
    have hg := h.guarded side i t ht (hremote ▸ hsrc.ne)
    rw [hnext] at hg
    exact (hg.conn_eq (by rw [horigin]; nofun) hremote.symm).symm.trans hc
  constructor
  · intro hreaches
    constructor
    · intro s hs hfree
      have hservice := Endpoint.service?_of_find hs
      have htarget : (n.ends side).closeTarget m = some m.dstport := by
        rw [← hdst] at hservice hs
        exact Endpoint.closeTarget_of_service hservice
          (Endpoint.findServiceByPort_eq.1 hs).2 (.inr hfree)
      obtain ⟨t, ht, htc⟩ := (counterpart_iff hc).1 ((hreaches _).1 htarget)
      rw [hdst, hservice] at ht
      obtain rfl := Option.some.inj ht
      exact hsrc.ne ((hserver 0 s hservice htc).1.symm.trans hfree)
    · intro port s hs hremote
      have hsc := hguard port s hs hremote
      have htarget := (hreaches port).2 ((counterpart_iff hc).2 ⟨s, hs, hsc⟩)
      have hconnected : (n.ends side).getConnectedService m.srcport = some port →
          s.srvstate = .open := by
        intro hport
        obtain ⟨t, ht, hopen, -⟩ := Endpoint.service?_of_connected hport
        exact Option.some.inj (hs.symm.trans ht) ▸ hopen
      unfold Endpoint.closeTarget at htarget
      dsimp only at htarget
      split at htarget
      · rw [if_pos hdst] at htarget
        exact .inl (hconnected htarget)
      · split at htarget
        · exact .inl (hconnected htarget)
        · exact .inr ((Option.some.inj htarget).symm.trans hdst)
  · intro hmeets port
    rw [counterpart_iff hc]
    have hconnected : ∀ i, (n.ends side).getConnectedService m.srcport = some i →
        ∃ t, (n.ends side).service? i = some t ∧ t.conn = some c := by
      intro i hi
      obtain ⟨t, ht, -, hremote⟩ := Endpoint.service?_of_connected hi
      exact ⟨t, ht, hguard i t ht hremote⟩
    have hfound : ∀ s, (n.ends side).service? port = some s → s.conn = some c →
        (port = 0 → False) → (n.ends side).getConnectedService m.srcport = some port := by
      intro s hs hsc hne
      obtain ⟨hremote, -⟩ := hserver port s hs hsc
      have hopen := (hmeets.server port s hs hremote).resolve_right hne
      obtain ⟨i, hi⟩ := Endpoint.exists_connected hs hopen hremote
      obtain ⟨t, ht, htc⟩ := hconnected i hi
      rw [h.unique hs hsc ht htc]
      exact hi
    unfold Endpoint.closeTarget
    dsimp only
    rw [hdst]
    split
    next hnone =>
      rw [if_pos rfl]
      refine ⟨hconnected port, ?_⟩
      rintro ⟨s, hs, hsc⟩
      refine hfound s hs hsc fun hzero => ?_
      rw [hzero] at hs
      rw [Endpoint.find_of_service? hs (hserver 0 s hs hsc).2] at hnone
      cases hnone
    next s₀ hs₀ =>
      have hservice := Endpoint.service?_of_find hs₀
      split
      next hne =>
        refine ⟨hconnected port, ?_⟩
        rintro ⟨s, hs, hsc⟩
        refine hfound s hs hsc fun hzero => ?_
        rw [hzero, hservice] at hs
        obtain rfl := Option.some.inj hs
        exact hne.1 (hserver 0 s₀ hservice hsc).1
      next heq =>
        have hremote : s₀.remoteport = m.srcport := by
          by_contra hne
          exact heq ⟨hne, hmeets.zero s₀ hs₀, rfl⟩
        have hsc := hguard 0 s₀ hservice hremote
        constructor
        · intro hport
          rw [← Option.some.inj hport]
          exact ⟨s₀, hservice, hsc⟩
        · rintro ⟨s, hs, hsc'⟩
          rw [h.unique hservice hsc hs hsc']

/-! ## Messages at the head of a queue -/

variable {q p : Nat} {client : Client} {server : Server} {ks ks' : List Kind}

theorem LinkedAt.head_toServer (h : LinkedAt n c q p client ks server ks')
    (hnext : n.sent c.opener = m :: rest) (hc : m.conn = some c) :
    ∃ k ks₁, ks = k :: ks₁ ∧ k.Is q p m ∧
      List.Forall₂ (fun k m => k.Is q p m) ks₁ (thread c rest) := by
  have hto := h.toServer
  rw [hnext, thread_cons hc] at hto
  cases hto with
  | cons hk hrest => exact ⟨_, _, rfl, hk, hrest⟩

theorem LinkedAt.head_toClient (h : LinkedAt n c q p client ks server ks')
    (hnext : n.sent c.opener.other = m :: rest) (hc : m.conn = some c) :
    ∃ k ks₁, ks' = k :: ks₁ ∧ k.Is q p m ∧
      List.Forall₂ (fun k m => k.Is q p m) ks₁ (thread c rest) := by
  have hto := h.toClient
  rw [hnext, thread_cons hc] at hto
  cases hto with
  | cons hk hrest => exact ⟨_, _, rfl, hk, hrest⟩

/-- The service of a connection that is at one side. -/
theorem LinkedAt.exists_server (h : LinkedAt n c q p client ks server ks')
    (hserver : server ≠ .gone) : ∃ s, (n.ends c.opener.other).service? p = some s ∧
      s.conn = some c ∧ s.remoteport = q ∧ (server = .open ∧ s.srvstate = .open ∨
        server = .closesent ∧ s.srvstate = .closesent) := by
  have hpresent : ∃ s, (n.ends c.opener.other).service? p = some s ∧ s.conn = some c := by
    cases server with
    | gone => exact absurd rfl hserver
    | _ => exact h.server.present _ rfl
  obtain ⟨s, hs, hc⟩ := hpresent
  obtain ⟨-, hq, hstate⟩ := h.server_view hs hc
  exact ⟨s, hs, hc, hq.symm, hstate⟩

theorem LinkedAt.exists_client (h : LinkedAt n c q p client ks server ks')
    (hclient : client ≠ .gone) : ∃ s, (n.ends c.opener).service? q = some s ∧
      s.conn = some c ∧ (client = .opening ∧ s.srvstate = .opening ∧ s.remoteport = portFree ∨
        client = .early ∧ s.srvstate = .closesent ∧ s.remoteport = portFree ∨
        client = .open ∧ s.srvstate = .open ∧ s.remoteport = p ∨
        client = .late ∧ s.srvstate = .closesent ∧ s.remoteport = p) := by
  have hpresent : ∃ s, (n.ends c.opener).service? q = some s ∧ s.conn = some c := by
    cases client with
    | gone => exact absurd rfl hclient
    | _ => exact h.client.present _ rfl
  obtain ⟨s, hs, hc⟩ := hpresent
  exact ⟨s, hs, hc, (h.client_view hs hc).2⟩

/-! ## CLOSE -/

/-- A CLOSE other than an early one names its service. -/
theorem Inv.closeTarget_named (h : Inv n) (hc : m.conn = some c)
    (hs : (n.ends side).service? m.dstport = some s) (hsc : s.conn = some c)
    (hremote : s.remoteport = m.srcport ∨ s.remoteport = portFree) :
    (n.ends side).closeTarget m = some port ↔ Counterpart (n.ends side) m port := by
  have hstate : s.srvstate ≠ .free := by
    rcases h.connected hs hsc with ⟨hstate, -⟩ | ⟨hstate, -⟩ | hstate
    all_goals
      rw [hstate]
      nofun
  rw [Endpoint.closeTarget_of_service hs hstate hremote, counterpart_iff hc]
  constructor
  · intro hport
    exact ⟨s, Option.some.inj hport ▸ hs, hsc⟩
  · rintro ⟨t, ht, htc⟩
    rw [h.unique hs hsc ht htc]

/-- A CLOSE reaches its counterpart, if it is early exactly if it can not be mistaken. -/
theorem Inv.closeTarget_iff (h : Inv n) (hnext : n.sent side.other = m :: rest)
    (hbody : m.body = .close) :
    (∀ port, (n.ends side).closeTarget m = some port ↔ Counterpart (n.ends side) m port) ↔
      (m.origin = .unanswered → Meets (n.ends side) m) := by
  have hmem : m ∈ n.sent side.other := hnext ▸ List.mem_cons_self
  obtain ⟨c, hc⟩ := h.named_conn hmem
  obtain ⟨q, p, client, ks, server, ks', hlinked⟩ := h.linked c
  rcases c.opener.eq_or_eq side with rfl | hside
  · obtain ⟨k, ks₁, rfl, hk, -⟩ := hlinked.head_toClient hnext hc
    have hnamed : ∀ {s : Service}, (n.ends c.opener).service? q = some s → s.conn = some c →
        m.dstport = q → m.origin ≠ .unanswered →
        s.remoteport = m.srcport ∨ s.remoteport = portFree →
        ((∀ port, (n.ends c.opener).closeTarget m = some port ↔
            Counterpart (n.ends c.opener) m port) ↔
          (m.origin = .unanswered → Meets (n.ends c.opener) m)) := by
      intro s hs hsc hdst horigin hremote
      exact iff_of_true (fun port => h.closeTarget_named hc (hdst ▸ hs) hsc hremote)
        fun hunanswered => absurd hunanswered horigin
    rcases hlinked.phase.toClient with rfl | rfl | rfl
    · rw [hk.1] at hbody
      cases hbody
    · obtain ⟨-, -, hdst, horigin⟩ := hk
      obtain ⟨hclient, -⟩ := hlinked.phase.seeReject
      obtain ⟨s, hs, hsc, hview⟩ := hlinked.exists_client
        (by rcases hclient with rfl | rfl <;> nofun)
      refine hnamed hs hsc hdst (by rw [horigin]; nofun) (.inr ?_)
      rcases hclient with rfl | rfl
      · simp only [reduceCtorEq, true_and, false_and, or_false] at hview
        exact hview.2
      · simp only [reduceCtorEq, true_and, false_and, false_or, or_false] at hview
        exact hview.2
    · obtain ⟨-, hsrc, hdst, horigin⟩ := hk
      have hclient : client = .open ∨ client = .early ∨ client = .late := by
        rcases hlinked.phase.seeClose with ⟨hopen, -⟩ | ⟨hclient, -⟩
        · exact .inl hopen
        · exact .inr hclient
      obtain ⟨s, hs, hsc, hview⟩ := hlinked.exists_client
        (by rcases hclient with rfl | rfl | rfl <;> nofun)
      refine hnamed hs hsc hdst (by rw [horigin]; nofun) ?_
      rw [hsrc]
      rcases hclient with rfl | rfl | rfl
      · simp only [reduceCtorEq, true_and, false_and, false_or, or_false] at hview
        exact .inl hview.2
      · simp only [reduceCtorEq, true_and, false_and, false_or, or_false] at hview
        exact .inr hview.2
      · simp only [reduceCtorEq, true_and, false_and, false_or] at hview
        exact .inl hview.2
  · obtain rfl : side = c.opener.other := by rw [hside, Side.other_other]
    rw [Side.other_other] at hnext
    obtain ⟨k, ks₁, rfl, hk, -⟩ := hlinked.head_toServer hnext hc
    rcases hlinked.phase.toServer with rfl | rfl | rfl
    · obtain ⟨⟨_, _, _, hopening⟩, -⟩ := hk
      rw [hopening] at hbody
      cases hbody
    · obtain ⟨-, hsrc, hdst, horigin⟩ := hk
      rw [h.closeTarget_early_iff (by rw [Side.other_other]; exact hnext) hc hdst horigin
        (hsrc ▸ hlinked.ports.1)]
      · exact ⟨fun hmeets _ => hmeets, fun hmeets => hmeets horigin⟩
      · intro port s hs hsc
        obtain ⟨-, hq, hstate⟩ := hlinked.server_view hs hsc
        refine ⟨hq.symm.trans hsrc.symm, ?_⟩
        rcases hstate with ⟨-, hstate⟩ | ⟨-, hstate⟩
        · rw [hstate]
          nofun
        · rw [hstate]
          nofun
    · obtain ⟨-, hsrc, hdst, horigin⟩ := hk
      have hserver : server ≠ .gone := by
        rintro rfl
        exact absurd (hlinked.phase.dropEarly nofun).1 nofun
      obtain ⟨s, hs, hsc, hremote, -⟩ := hlinked.exists_server hserver
      refine iff_of_true (fun port => h.closeTarget_named hc (hdst ▸ hs) hsc
        (.inl (hremote.trans hsrc.symm))) fun hunanswered => ?_
      rw [horigin] at hunanswered
      cases hunanswered

/-! ## The end of a connection -/

theorem Service.closeServiceComplete_idle
    (h : s.srvstate = .closesent ∨ s.srvstate = .closerecvd) :
    s.closeServiceComplete.Idle ∧ s.closeServiceComplete.localport = s.localport := by
  have hcomplete : s.closeServiceComplete =
      if s.isServer then
        if s.autoClose then { s with srvstate := .listening }.complete
        else { s with srvstate := .closewait }.complete
      else { s with srvstate := .closed }.complete := by
    unfold closeServiceComplete
    rcases h with h | h <;> rw [h]
  rw [hcomplete]
  split
  next hserver =>
    split
    · have hlistening : { s with srvstate := .listening }.complete =
          { s with
            srvstate := .listening
            remoteport := portFree
            conn := none
            closing := false } := if_pos hserver
      rw [hlistening]
      exact ⟨⟨rfl, rfl, .inr (.inr (.inl rfl))⟩, rfl⟩
    · exact ⟨⟨rfl, rfl, .inr (.inr (.inr (.inl rfl)))⟩, rfl⟩
  · exact ⟨⟨rfl, rfl, .inl rfl⟩, rfl⟩

/-- A service that gets a CLOSE answers it if it has to, unless it finds no slot. -/
theorem Service.closeServiceInternal_true
    (h : s.srvstate = .opening ∧ s.remoteport = portFree ∨ s.srvstate = .open ∨
      s.srvstate = .closesent) (room : Bool) :
    s.srvstate = .open ∧ s.closeServiceInternal true room = (s, [], .retry) ∨
      ∃ s', s.closeServiceInternal true room =
          (s', if s.srvstate = .open then [s.closeMsg] else [], .success) ∧
        s'.Idle ∧ s'.localport = s.localport := by
  unfold closeServiceInternal
  rcases h with ⟨h, hremote⟩ | h | h
  · rw [h]
    exact .inr ⟨_, rfl, ⟨rfl, hremote, .inr (.inr (.inr (.inl rfl)))⟩, rfl⟩
  · rw [h]
    cases room with
    | false => exact .inl ⟨rfl, rfl⟩
    | true =>
      obtain ⟨hidle, hlocal⟩ := closeServiceComplete_idle
        (s := { s with srvstate := .closerecvd }) (.inr rfl)
      exact .inr ⟨_, rfl, hidle, hlocal⟩
  · rw [h]
    obtain ⟨hidle, hlocal⟩ := closeServiceComplete_idle (.inl h)
    exact .inr ⟨_, rfl, hidle, hlocal⟩

theorem Moved.sent_other (h : Moved n n' side port new [m] msgs)
    (hnext : n.sent side.other = m :: rest) : n'.sent side.other = rest := by
  have hpending := h.pending
  rw [hnext] at hpending
  injection hpending with _ hpending
  exact hpending.symm

/-- A connection loses its client. -/
theorem LinkedAt.clientEnds (h : LinkedAt n c q p client ks server ks')
    (hmoved : Moved n n' c.opener q new [m] msgs) (hnew : ∀ s ∈ new, s.conn = none)
    (hnext : n.sent c.opener.other = m :: rest) (hc : m.conn = some c) (hbody : m.body = .close)
    (hs : (n.ends c.opener).service? q = some s) (hsc : s.conn = some c) (hlocal : s.localport = q)
    (hmsgs : msgs = if s.srvstate = .open then [s.closeMsg] else []) : Linked n' c := by
  obtain ⟨k, ks₁, rfl, hk, hrest⟩ := h.head_toClient hnext hc
  rw [← hmoved.sent_other hnext] at hrest
  have hport : ∀ x ∈ client.view q p, x.1 = q := by
    intro x hx
    rw [h.client.found q s hs hsc] at hx
    rw [← Option.some.inj hx]
  have hview : (n'.ends c.opener).At c (Client.gone.view q p) :=
    h.client.write_none hmoved.put hport hnew
  have hstate := (h.client_view hs hsc).2
  have hquiet : s.srvstate ≠ .open → Phase .gone ks server ks₁ → Linked n' c := by
    intro hne hphase
    rw [if_neg hne] at hmsgs
    refine ⟨q, p, .gone, ks ++ [], server, ks₁, h.clientMoves hmoved ?_ hview ?_ hrest⟩
    · rw [List.append_nil]
      exact hphase
    · rw [hmsgs]
      exact .nil
  rcases h.phase.toClient with rfl | rfl | rfl
  · rw [hk.1] at hbody
    cases hbody
  · obtain ⟨hclient, hphase⟩ := h.phase.seeReject
    refine hquiet ?_ hphase
    rcases hclient with rfl | rfl
    · simp only [reduceCtorEq, true_and, false_and, or_false] at hstate
      rw [hstate.1]
      nofun
    · simp only [reduceCtorEq, true_and, false_and, false_or, or_false] at hstate
      rw [hstate.1]
      nofun
  · rcases h.phase.seeClose with ⟨rfl, hphase⟩ | ⟨hclient, hphase⟩
    · simp only [reduceCtorEq, true_and, false_and, false_or, or_false] at hstate
      obtain ⟨hopen, hremote⟩ := hstate
      rw [if_pos hopen] at hmsgs
      refine ⟨q, p, .gone, ks ++ [.late], server, ks₁, h.clientMoves hmoved hphase hview ?_ hrest⟩
      rw [hmsgs, thread_singleton hsc]
      exact .cons (closeMsg_late hlocal hremote h.ports.2) .nil
    · refine hquiet ?_ hphase
      rcases hclient with rfl | rfl
      · simp only [reduceCtorEq, true_and, false_and, false_or, or_false] at hstate
        rw [hstate.1]
        nofun
      · simp only [reduceCtorEq, true_and, false_and, false_or] at hstate
        rw [hstate.1]
        nofun

/-- A connection loses its server. -/
theorem LinkedAt.serverEnds (h : LinkedAt n c q p client ks server ks')
    (hmoved : Moved n n' c.opener.other p new [m] msgs) (hnew : ∀ s ∈ new, s.conn = none)
    (hnext : n.sent c.opener = m :: rest) (hc : m.conn = some c)
    (hs : (n.ends c.opener.other).service? p = some s) (hsc : s.conn = some c)
    (hlocal : s.localport = p) (hmsgs : msgs = if s.srvstate = .open then [s.closeMsg] else []) :
    Linked n' c := by
  obtain ⟨k, ks₁, rfl, -, hrest⟩ := h.head_toServer hnext hc
  have hsent := hmoved.sent_other (by rw [Side.other_other]; exact hnext)
  rw [Side.other_other] at hsent
  rw [← hsent] at hrest
  have hport : ∀ x ∈ server.view q p, x.1 = p := by
    intro x hx
    rw [h.server.found p s hs hsc] at hx
    rw [← Option.some.inj hx]
  have hview : (n'.ends c.opener.other).At c (Server.gone.view q p) :=
    h.server.write_none hmoved.put hport hnew
  obtain ⟨-, hq, ⟨rfl, hstate⟩ | ⟨rfl, hstate⟩⟩ := h.server_view hs hsc
  · rw [if_pos hstate] at hmsgs
    refine ⟨q, p, client, ks₁, .gone, ks' ++ [.close], h.serverMoves hmoved
      h.phase.answerClient hview ?_ hrest⟩
    rw [hmsgs, thread_singleton hsc]
    exact .cons (closeMsg_close hlocal hq.symm h.ports.1) .nil
  · rw [if_neg (by rw [hstate]; nofun)] at hmsgs
    refine ⟨q, p, client, ks₁, .gone, ks' ++ [], h.serverMoves hmoved ?_ hview ?_ hrest⟩
    · rw [List.append_nil]
      exact h.phase.endServer
    · rw [hmsgs]
      exact .nil

/-- The counterpart of a CLOSE gets it. -/
theorem Inv.close_received (h : Inv n) (hmoved : Moved n n' side port (some s') [m] msgs)
    (hnext : n.sent side.other = m :: rest) (hc : m.conn = some c) (hbody : m.body = .close)
    (hs : (n.ends side).service? port = some s) (hsc : s.conn = some c) (hidle : s'.Idle)
    (hlocal' : s'.localport = s.localport)
    (hmsgs : msgs = if s.srvstate = .open then [s.closeMsg] else []) : Inv n' := by
  have hlocal := h.localport side port s hs
  obtain ⟨q, p, client, ks, server, ks', hlinked⟩ := h.linked c
  have hmem : ∀ m' ∈ msgs, m' = s.closeMsg := by
    intro m' hm'
    rw [hmsgs] at hm'
    split at hm'
    · exact List.mem_singleton.1 hm'
    · cases hm'
  have hch : Change n n' side port (some s') [m] msgs (some c) :=
    { hmoved with
      old_conn := fun t ht => .inr (by rw [← Option.some.inj (hs.symm.trans ht)]; exact hsc)
      new_conn := fun t ht => .inl (by rw [← Option.some.inj ht]; exact ⟨hidle.conn, hidle⟩)
      new_port := fun t ht => by
        rw [← Option.some.inj ht]
        exact hlocal'.trans hlocal
      popped_conn := fun m' hm' => by
        rw [List.mem_singleton.1 hm']
        exact hc
      msgs_conn := fun m' hm' => by
        rw [hmem m' hm']
        exact ⟨hsc, rfl⟩ }
  refine hch.inv h (fun x hx => ?_) ?_ (fun t ht hremote => ?_) (fun i t hne ht m' hm' hclose => ?_)
  · obtain rfl := Option.some.inj hx
    refine ⟨(h.young side port s c hs hsc).trans hmoved.time, ?_⟩
    have hnone : ∀ t ∈ some s', t.conn = none := fun t ht => by
      rw [← Option.some.inj ht]
      exact hidle.conn
    rcases c.opener.eq_or_eq side with rfl | hside
    · obtain rfl := (hlinked.client_view hs hsc).1
      exact hlinked.clientEnds hmoved hnone hnext hc hbody hs hsc hlocal hmsgs
    · obtain rfl : side = c.opener.other := by rw [hside, Side.other_other]
      obtain rfl := (hlinked.server_view hs hsc).1
      rw [Side.other_other] at hnext
      exact hlinked.serverEnds hmoved hnone hnext hc hs hsc hlocal hmsgs
  · split at hmsgs
    next hopen =>
      refine .inr ⟨_, hmsgs, fun _ => ⟨⟨c, hsc⟩, fun t ht => ?_, ?_⟩⟩
      · change (n.ends side).service? s.localport = some t at ht
        rw [hlocal, hs] at ht
        rw [← Option.some.inj ht]
        exact .inr rfl
      · rw [closeMsg_conn, hsc]
        exact hlinked.unclosed hs hsc (.inr hopen)
    · exact .inl hmsgs
  · rw [← Option.some.inj ht] at hremote
    exact absurd hidle.remoteport hremote
  · rw [List.mem_singleton.1 hm'] at hclose
    exact hne (h.unique ht (hclose.2.2.symm.trans hc) hs hsc)

/-- Nobody is left to get a CLOSE. -/
theorem Inv.close_dropped (h : Inv n) (hmoved : Moved n n' side portFree none [m] [])
    (hnext : n.sent side.other = m :: rest) (hc : m.conn = some c) (hbody : m.body = .close)
    (hnone : ∀ port s, (n.ends side).service? port = some s → s.conn ≠ some c) : Inv n' := by
  obtain ⟨q, p, client, ks, server, ks', hlinked⟩ := h.linked c
  have hch : Change n n' side portFree none [m] [] (some c) :=
    { hmoved with
      old_conn := fun t ht => absurd (h.service?_portFree.symm.trans ht) nofun
      new_conn := fun t ht => absurd ht (Option.not_mem_none t)
      new_port := fun t ht => absurd ht (Option.not_mem_none t)
      popped_conn := fun m' hm' => by
        rw [List.mem_singleton.1 hm']
        exact hc
      msgs_conn := fun m' hm' => absurd hm' List.not_mem_nil }
  refine hch.inv h (fun x hx => ?_) (.inl rfl) (fun t ht => absurd ht (Option.not_mem_none t))
    (fun i t _ ht m' hm' hclose => ?_)
  · obtain rfl := Option.some.inj hx
    obtain ⟨c', hc', hlt⟩ := h.named side.other m (by rw [hnext]; exact List.mem_cons_self)
    obtain rfl := Option.some.inj (hc.symm.trans hc')
    refine ⟨hlt.trans hmoved.time, ?_⟩
    rcases c.opener.eq_or_eq side with rfl | hside
    · have hclient : client = .gone := by
        by_contra hne
        obtain ⟨s, hs, hsc, -⟩ := hlinked.exists_client hne
        exact hnone q s hs hsc
      subst hclient
      obtain ⟨k, ks₁, rfl, hk, -⟩ := hlinked.head_toClient hnext hc
      rcases hlinked.phase.toClient with rfl | rfl | rfl
      · rw [hk.1] at hbody
        cases hbody
      · rcases hlinked.phase.seeReject.1 with hclient | hclient <;> cases hclient
      · rcases hlinked.phase.seeClose with ⟨hclient, -⟩ | ⟨hclient | hclient, -⟩ <;> cases hclient
    · obtain rfl : side = c.opener.other := by rw [hside, Side.other_other]
      have hserver : server = .gone := by
        by_contra hne
        obtain ⟨s, hs, hsc, -⟩ := hlinked.exists_server hne
        exact hnone p s hs hsc
      subst hserver
      have hsent := hmoved.sent_other hnext
      rw [Side.other_other] at hnext hsent
      obtain ⟨k, ks₁, rfl, hk, hrest⟩ := hlinked.head_toServer hnext hc
      rw [← hsent] at hrest
      have hopen : k ≠ .open := by
        rintro rfl
        obtain ⟨⟨_, _, _, hopening⟩, -⟩ := hk
        rw [hopening] at hbody
        cases hbody
      refine ⟨q, p, client, ks₁, .gone, ks' ++ [], hlinked.serverMoves hmoved ?_ ?_ .nil hrest⟩
      · rw [List.append_nil]
        exact (hlinked.phase.dropEarly hopen).2
      · exact hlinked.server.write_none hmoved.put (fun x hx => absurd hx (Option.not_mem_none x))
          fun t ht => absurd ht (Option.not_mem_none t)
  · rw [List.mem_singleton.1 hm'] at hclose
    exact hnone i t ht (hclose.2.2.symm.trans hc)

/-! ## OPENACK -/

theorem Phase.ack_of_body {k : Kind} {ks₁ : List Kind} (h : Phase client ks server (k :: ks₁))
    (hk : k.Is q p m) (hbody : m.body = .openack) : k = .ack := by
  rcases h.toClient with rfl | rfl | rfl
  · rfl
  · exact absurd (hk.1.symm.trans hbody) nofun
  · exact absurd (hk.1.symm.trans hbody) nofun

theorem Phase.ne_openack {k : Kind} {ks₁ : List Kind} (h : Phase client (k :: ks₁) server ks')
    (hk : k.Is q p m) : m.body ≠ .openack := by
  intro hbody
  rcases h.toServer with rfl | rfl | rfl
  · obtain ⟨⟨_, _, _, hopening⟩, -⟩ := hk
    exact absurd (hopening.symm.trans hbody) nofun
  · exact absurd (hk.1.symm.trans hbody) nofun
  · exact absurd (hk.1.symm.trans hbody) nofun

theorem Inv.openack_received (h : Inv n) (hmoved : Moved n n' side port (some s') [m] [])
    (hnext : n.sent side.other = m :: rest) (hc : m.conn = some c) (hbody : m.body = .openack)
    (hs : (n.ends side).service? port = some s) (hsc : s.conn = some c)
    (horigin : m.origin ≠ .rejection)
    (hnew : s' = if s.srvstate = .opening then
      { s with remoteport := m.srcport, srvstate := .open } else s) : Inv n' := by
  have hlocal := h.localport side port s hs
  have hsc' : s'.conn = some c := by
    rw [hnew]
    split <;> exact hsc
  obtain ⟨q, p, client, ks, server, ks', hlinked⟩ := h.linked c
  have hch : Change n n' side port (some s') [m] [] (some c) :=
    { hmoved with
      old_conn := fun t ht => .inr (by rw [← Option.some.inj (hs.symm.trans ht)]; exact hsc)
      new_conn := fun t ht => .inr (by rw [← Option.some.inj ht]; exact ⟨hsc', rfl⟩)
      new_port := fun t ht => by
        rw [← Option.some.inj ht, hnew]
        split <;> exact hlocal
      popped_conn := fun m' hm' => by
        rw [List.mem_singleton.1 hm']
        exact hc
      msgs_conn := fun m' hm' => absurd hm' List.not_mem_nil }
  have hnotclose : ∀ c', ¬IsClose c' m := fun c' hclose => by
    have hclose := hclose.1
    rw [hbody] at hclose
    cases hclose
  have hsent := hmoved.sent_other hnext
  refine hch.inv h (fun x hx => ?_) (.inl rfl) (fun t ht hremote => ?_)
    (fun i t _ ht m' hm' hclose => hnotclose _ (List.mem_singleton.1 hm' ▸ hclose))
  · obtain rfl := Option.some.inj hx
    refine ⟨(h.young side port s c hs hsc).trans hmoved.time, ?_⟩
    rcases c.opener.eq_or_eq side with rfl | hside
    · obtain ⟨rfl, hview⟩ := hlinked.client_view hs hsc
      obtain ⟨k, ks₁, rfl, hk, hrest⟩ := hlinked.head_toClient hnext hc
      rw [← hsent] at hrest
      obtain rfl := hlinked.phase.ack_of_body hk hbody
      have hat := hlinked.client.write_some hmoved.put (fun x hx => by
        rw [hlinked.client.found q s hs hsc] at hx
        rw [← Option.some.inj hx]) hsc'
      have hsame : List.Forall₂ (fun (k : Kind) m => k.Is q p m) [] (thread c []) := .nil
      rcases hlinked.phase.seeAck with ⟨rfl, hphase⟩ | ⟨rfl, hphase⟩
      · simp only [reduceCtorEq, true_and, false_and, or_false] at hview
        rw [if_pos hview.1] at hnew
        refine ⟨q, p, .open, ks ++ [], server, ks₁, hlinked.clientMoves hmoved ?_ ?_ hsame hrest⟩
        · rw [List.append_nil]
          exact hphase
        · rw [hnew] at hat
          change (n'.ends c.opener).At c (some (q, .open, p))
          rw [← hk.2.1]
          exact hat
      · simp only [reduceCtorEq, true_and, false_and, false_or, or_false] at hview
        rw [if_neg (by rw [hview.1]; nofun)] at hnew
        refine ⟨q, p, .early, ks ++ [], server, ks₁, hlinked.clientMoves hmoved ?_ ?_ hsame hrest⟩
        · rw [List.append_nil]
          exact hphase
        · rw [hnew, hview.1, hview.2] at hat
          exact hat
    · obtain rfl : side = c.opener.other := by rw [hside, Side.other_other]
      rw [Side.other_other] at hnext
      obtain ⟨k, ks₁, rfl, hk, -⟩ := hlinked.head_toServer hnext hc
      exact absurd hbody (hlinked.phase.ne_openack hk)
  · obtain rfl := Option.some.inj ht
    rw [hsent, hsc']
    split at hnew
    · rw [hnew]
      have hordered := h.ordered side.other
      rw [hnext] at hordered
      rw [← hc]
      exact hordered.2.1 horigin (by rw [hbody]; nofun)
    · have hg := h.guarded side port s hs (hnew ▸ hremote)
      rw [hnext, hsc] at hg
      rw [hnew]
      exact hg.tail (hnotclose _)

/-! ## OPEN -/

theorem Phase.open_of_body {k : Kind} {ks₁ : List Kind} (h : Phase client (k :: ks₁) server ks')
    (hk : k.Is q p m) (hbody : m.body ≠ .close) : k = .open := by
  rcases h.toServer with rfl | rfl | rfl
  · rfl
  · exact absurd hk.1 hbody
  · exact absurd hk.1 hbody

theorem Phase.asking {ks₁ : List Kind} (h : Phase client (.open :: ks₁) server ks') :
    client = .opening ∧ ks₁ = [] ∨ client = .early ∧ ks₁ = [.early] := by
  cases h with
  | asked => exact .inl ⟨rfl, rfl⟩
  | withdrawn => exact .inr ⟨rfl, rfl⟩

/-- An OPEN is for the side that has not opened. -/
theorem LinkedAt.side_of_opening (h : LinkedAt n c q p client ks server ks')
    (hnext : n.sent side.other = m :: rest) (hc : m.conn = some c) {fourcc : UInt32}
    {version versionMin : Int} (hbody : m.body = .opening fourcc version versionMin) :
    side = c.opener.other := by
  rcases c.opener.eq_or_eq side with rfl | hside
  · obtain ⟨k, ks₁, rfl, hk, -⟩ := h.head_toClient hnext hc
    rcases h.phase.toClient with rfl | rfl | rfl
    · exact absurd (hk.1.symm.trans hbody) nofun
    · exact absurd (hk.1.symm.trans hbody) nofun
    · exact absurd (hk.1.symm.trans hbody) nofun
  · rw [hside, Side.other_other]

theorem Inv.open_rejected (h : Inv n) {m' : Msg} (hmoved : Moved n n' side portFree none [m] [m'])
    (hnext : n.sent side.other = m :: rest) {fourcc : UInt32} {version versionMin : Int}
    (hbody : m.body = .opening fourcc version versionMin) (hc : m.conn = some c)
    (hc' : m'.conn = some c) (hk' : ∀ p, Kind.reject.Is m.srcport p m') : Inv n' := by
  obtain ⟨q, p, client, ks, server, ks', hlinked⟩ := h.linked c
  have hch : Change n n' side portFree none [m] [m'] (some c) :=
    { hmoved with
      old_conn := fun t ht => absurd (h.service?_portFree.symm.trans ht) nofun
      new_conn := fun t ht => absurd ht (Option.not_mem_none t)
      new_port := fun t ht => absurd ht (Option.not_mem_none t)
      popped_conn := fun a ha => by
        rw [List.mem_singleton.1 ha]
        exact hc
      msgs_conn := fun a ha => by
        rw [List.mem_singleton.1 ha]
        exact ⟨hc', rfl⟩ }
  refine hch.inv h (fun x hx => ?_)
    (.inr ⟨m', rfl, fun horigin => absurd (hk' 0).2.2.2 horigin⟩)
    (fun t ht => absurd ht (Option.not_mem_none t)) (fun i t _ ht a ha hclose => ?_)
  · obtain rfl := Option.some.inj hx
    obtain ⟨c', hcm, hlt⟩ := h.named side.other m (by rw [hnext]; exact List.mem_cons_self)
    obtain rfl := Option.some.inj (hc.symm.trans hcm)
    refine ⟨hlt.trans hmoved.time, ?_⟩
    obtain rfl := hlinked.side_of_opening hnext hc hbody
    have hsent := hmoved.sent_other hnext
    rw [Side.other_other] at hnext hsent
    obtain ⟨k, ks₁, rfl, hk, hrest⟩ := hlinked.head_toServer hnext hc
    obtain rfl := hlinked.phase.open_of_body hk (by rw [hbody]; nofun)
    obtain ⟨rfl, rfl, -, hphase⟩ := hlinked.phase.accept
    rw [← hsent] at hrest
    have hrejected : Phase client ks₁ .gone ([] ++ [.reject]) := hphase
    refine ⟨q, p, client, ks₁, .gone, [] ++ [.reject],
      hlinked.serverMoves hmoved hrejected ?_ ?_ hrest⟩
    · exact hlinked.server.write_none hmoved.put (fun x hx => absurd hx (Option.not_mem_none x))
        fun t ht => absurd ht (Option.not_mem_none t)
    · rw [thread_singleton hc', ← hk.2.1]
      exact .cons (hk' p) .nil
  · rw [List.mem_singleton.1 ha] at hclose
    exact absurd (hbody.symm.trans hclose.1) nofun

theorem Inv.open_accepted (h : Inv n) {m' : Msg}
    (hmoved : Moved n n' side port (some s') [m] [m']) (hnext : n.sent side.other = m :: rest)
    {fourcc : UInt32} {version versionMin : Int}
    (hbody : m.body = .opening fourcc version versionMin) (hc : m.conn = some c)
    (hs : (n.ends side).service? port = some s) (hidle : s.Idle) (hsc : s'.conn = some c)
    (hstate : s'.srvstate = .open) (hremote : s'.remoteport = m.srcport)
    (hlocal : s'.localport = port) (hc' : m'.conn = some c)
    (hk' : Kind.ack.Is m.srcport port m') : Inv n' := by
  obtain ⟨q, p, client, ks, server, ks', hlinked⟩ := h.linked c
  obtain rfl := hlinked.side_of_opening hnext hc hbody
  have hother := hnext
  have hsent := hmoved.sent_other hnext
  rw [Side.other_other] at hnext hsent
  obtain ⟨k, ks₁, rfl, hk, hrest⟩ := hlinked.head_toServer hnext hc
  obtain rfl := hlinked.phase.open_of_body hk (by rw [hbody]; nofun)
  obtain ⟨rfl, rfl, hphase, -⟩ := hlinked.phase.accept
  have hch : Change n n' c.opener.other port (some s') [m] [m'] (some c) :=
    { hmoved with
      old_conn := fun t ht => .inl (by rw [← Option.some.inj (hs.symm.trans ht)]; exact hidle.conn)
      new_conn := fun t ht => .inr (by rw [← Option.some.inj ht]; exact ⟨hsc, rfl⟩)
      new_port := fun t ht => by
        rw [← Option.some.inj ht]
        exact hlocal
      popped_conn := fun a ha => by
        rw [List.mem_singleton.1 ha]
        exact hc
      msgs_conn := fun a ha => by
        rw [List.mem_singleton.1 ha]
        exact ⟨hc', rfl⟩ }
  have hnothing : thread c (n.sent c.opener.other) = [] :=
    List.forall₂_nil_left_iff.1 hlinked.toClient
  refine hch.inv h (fun x hx => ?_) (.inr ⟨m', rfl, fun _ => ⟨⟨c, hc'⟩, fun t ht => ?_, ?_⟩⟩)
    (fun t ht _ => ?_) (fun i t _ ht a ha hclose => ?_)
  · obtain rfl := Option.some.inj hx
    obtain ⟨c', hcm, hlt⟩ := h.named _ m (by rw [hnext]; exact List.mem_cons_self)
    obtain rfl := Option.some.inj (hc.symm.trans hcm)
    refine ⟨hlt.trans hmoved.time, q, port, client, ks₁, .open, [.ack], ?_⟩
    have hback := hmoved.other
    rw [Side.other_other] at hback
    refine ⟨hphase, ⟨hlinked.ports.1, h.lt_portFree hs⟩, ?_, ?_, ?_, ?_⟩
    · rw [hback]
      rcases hlinked.phase.asking with ⟨rfl, -⟩ | ⟨rfl, -⟩
      · exact hlinked.client
      · exact hlinked.client
    · have hat := hlinked.server.write_some hmoved.put
        (fun x hx => absurd hx (Option.not_mem_none x)) hsc
      rw [hstate, hremote, hk.2.1] at hat
      exact hat
    · rw [hsent]
      rcases hlinked.phase.asking with ⟨-, rfl⟩ | ⟨-, rfl⟩
      · rw [List.forall₂_nil_left_iff.1 hrest]
        exact .nil
      · obtain ⟨a, l, ha, hl, heq⟩ := List.forall₂_cons_left_iff.1 hrest
        rw [heq, List.forall₂_nil_left_iff.1 hl]
        exact .cons ha .nil
    · rw [hmoved.sent, thread_append, hnothing, thread_singleton hc', ← hk.2.1]
      exact .cons hk' .nil
  · rw [hk'.2.1, hs] at ht
    rw [← Option.some.inj ht]
    exact .inl hidle.conn
  · intro a ha hclose
    have hmem : a ∈ thread c (n.sent c.opener.other) := mem_thread.2 ⟨ha, hclose.2.2.trans hc'⟩
    rw [hnothing] at hmem
    cases hmem
  · rw [← Option.some.inj ht, hsc, hremote, Side.other_other, hsent, ← hc]
    have hordered := h.ordered c.opener
    rw [hnext] at hordered
    exact hordered.2.1 (by rw [hk.2.2.2]; nofun) (by rw [hbody]; nofun)
  · rw [List.mem_singleton.1 ha] at hclose
    exact absurd (hbody.symm.trans hclose.1) nofun

/-! ## Every message -/

/-- The slot handler has found out what to do with the message before `rest`. -/
def Net.answer (n : Net) (side : Side) (rest : List Msg) (f : Effect) : Net :=
  (if f.done then { n with sent := Function.update n.sent side.other rest } else n).apply side f

theorem Net.step_handle (hnext : n.sent side.other = m :: rest) (room : Bool) :
    n.step (.handle side room) = n.answer side rest ((n.ends side).receive m room) := by
  unfold Net.step
  dsimp only
  rw [hnext]
  rfl

/-- A listening service is in no connection. -/
theorem Inv.listening (h : Inv n) {fourcc : UInt32}
    (hport : (n.ends side).getListeningService fourcc = some port) :
    ∃ s, (n.ends side).service? port = some s ∧ s.srvstate = .listening ∧ s.Idle := by
  obtain ⟨s, hservice, hlistening⟩ := Endpoint.service?_of_findIdx? hport
  obtain ⟨-, hstate | ⟨hopen, hremote⟩⟩ := of_decide_eq_true hlistening
  · refine ⟨s, hservice, hstate, h.idle_of_srvstate hservice ?_⟩
    rw [hstate]
    exact ⟨by decide, by decide, by decide⟩
  · cases hc : s.conn with
    | none =>
      rcases (h.idle _ _ _ hservice hc).srvstate with hfree | hhidden | hlisten | hwait | hopening
      · cases hopen.symm.trans hfree
      · cases hopen.symm.trans hhidden
      · cases hopen.symm.trans hlisten
      · cases hopen.symm.trans hwait
      · cases hopen.symm.trans hopening
    | some c =>
      rcases h.connected hservice hc with ⟨hstate, -⟩ | ⟨-, hlt⟩ | hstate
      · cases hopen.symm.trans hstate
      · exact absurd hremote hlt.ne
      · cases hopen.symm.trans hstate

theorem Inv.parseOpen (h : Inv n) (hnext : n.sent side.other = m :: rest) (hc : m.conn = some c)
    {fourcc : UInt32} {version versionMin : Int}
    (hbody : m.body = .opening fourcc version versionMin) (room : Bool) :
    Inv (n.step (.handle side room)) := by
  have hreceive : (n.ends side).receive m room =
      (n.ends side).parseOpen m fourcc version versionMin room := by
    unfold Endpoint.receive
    rw [hbody]
  have hfail : Inv (n.answer side rest (Endpoint.failOpen m room)) := by
    cases room with
    | false => exact h.nothing rfl rfl
    | true =>
      exact h.open_rejected ((taken_cons hnext).moved_none h rfl) hnext hbody hc hc
        fun p => ⟨rfl, rfl, rfl, rfl⟩
  rw [Net.step_handle hnext, hreceive]
  unfold Endpoint.parseOpen
  split
  · exact hfail
  next port hport =>
    obtain ⟨s, hs, hlistening, hidle⟩ := h.listening hport
    rw [hs]
    dsimp only
    split
    · exact hfail
    · cases room with
      | false => exact h.nothing rfl rfl
      | true =>
        have hlocal := h.localport side port s hs
        refine h.open_accepted ((taken_cons hnext).moved rfl
          (.inl (Endpoint.lt_of_service? hs)) (h.size side)) hnext hbody hc hs hidle hc rfl rfl
          hlocal hc ⟨rfl, hlocal, rfl, rfl⟩

theorem Inv.parseOpenack (h : Inv n) (hnext : n.sent side.other = m :: rest)
    (hc : m.conn = some c) (hbody : m.body = .openack) (room : Bool) :
    Inv (n.step (.handle side room)) := by
  obtain ⟨q, p, client, ks, server, ks', hlinked⟩ := h.linked c
  have hclient : side = c.opener ∧ m.origin ≠ .rejection ∧ m.dstport = q ∧ client ≠ .gone := by
    rcases c.opener.eq_or_eq side with rfl | hside
    · obtain ⟨k, ks₁, rfl, hk, -⟩ := hlinked.head_toClient hnext hc
      obtain rfl := hlinked.phase.ack_of_body hk hbody
      refine ⟨rfl, by rw [hk.2.2.2]; nofun, hk.2.2.1, ?_⟩
      rcases hlinked.phase.seeAck with ⟨rfl, -⟩ | ⟨rfl, -⟩ <;> nofun
    · obtain rfl : side = c.opener.other := by rw [hside, Side.other_other]
      rw [Side.other_other] at hnext
      obtain ⟨k, ks₁, rfl, hk, -⟩ := hlinked.head_toServer hnext hc
      exact absurd hbody (hlinked.phase.ne_openack hk)
  obtain ⟨rfl, horigin, hdst, hne⟩ := hclient
  obtain ⟨s, hs, hsc, -⟩ := hlinked.exists_client hne
  rw [← hdst] at hs
  have hfind : (n.ends c.opener).findServiceByPort m.dstport = some s := by
    refine Endpoint.find_of_service? hs ?_
    rcases h.connected hs hsc with ⟨hstate, -⟩ | ⟨hstate, -⟩ | hstate
    all_goals
      rw [hstate]
      nofun
  have hreceive : (n.ends c.opener).receive m room =
      { service := some (m.dstport, some (if s.srvstate = .opening then
          { s with remoteport := m.srcport, srvstate := .open } else s)) } := by
    unfold Endpoint.receive Endpoint.modify
    rw [hbody]
    dsimp only
    rw [hfind]
  rw [Net.step_handle hnext, hreceive]
  exact h.openack_received ((taken_cons hnext).moved rfl (.inl (Endpoint.lt_of_service? hs))
    (h.size _)) hnext hc hbody hs hsc horigin rfl

/-- What a CLOSE does when it reaches its counterpart. -/
theorem Inv.parseClose (h : Inv n) (hnext : n.sent side.other = m :: rest)
    (hc : m.conn = some c) (hbody : m.body = .close)
    (hreaches : ∀ port, (n.ends side).closeTarget m = some port ↔
      Counterpart (n.ends side) m port) (room : Bool) :
    Inv (n.step (.handle side room)) := by
  have hreceive : (n.ends side).receive m room = (n.ends side).parseClose m room := by
    unfold Endpoint.receive
    rw [hbody]
  rw [Net.step_handle hnext, hreceive]
  unfold Endpoint.parseClose
  split
  next hnone =>
    refine h.close_dropped ((taken_cons hnext).moved_none h rfl) hnext hc hbody ?_
    intro port s hs hsc
    have htarget := (hreaches port).2 ((counterpart_iff hc).2 ⟨s, hs, hsc⟩)
    exact absurd (hnone.symm.trans htarget) nofun
  next port htarget =>
    obtain ⟨s, hs, hsc⟩ := (counterpart_iff hc).1 ((hreaches port).1 htarget)
    rw [hs]
    dsimp only
    have hstate : s.srvstate = .opening ∧ s.remoteport = portFree ∨ s.srvstate = .open ∨
        s.srvstate = .closesent := by
      rcases h.connected hs hsc with hstate | ⟨hstate, -⟩ | hstate
      · exact .inl hstate
      · exact .inr (.inl hstate)
      · exact .inr (.inr hstate)
    rcases Service.closeServiceInternal_true (s := { s with closing := true }) hstate room with
      ⟨hopen, heq⟩ | ⟨s', heq, hidle, hlocal⟩
    · rw [heq]
      exact h.replace hs rfl rfl (.inl ⟨rfl, rfl, rfl, rfl⟩)
    · rw [heq]
      exact h.close_received ((taken_cons hnext).moved rfl
        (.inl (Endpoint.lt_of_service? hs)) (h.size side)) hnext hc hbody hs hsc hidle hlocal rfl

/-! ## Steps -/

theorem Taken.exists_answer (hnext : n.sent side.other = m :: rest) (f : Effect) :
    ∃ n₁ popped, Taken n n₁ side popped ∧ n.answer side rest f = n₁.apply side f := by
  unfold Net.answer
  split
  · exact ⟨_, _, taken_cons hnext, rfl⟩
  · exact ⟨_, _, taken_nil, rfl⟩

/-- A CLOSE changes its target at most. -/
theorem Inv.moved_close (h : Inv n) (hnext : n.sent side.other = m :: rest)
    (hbody : m.body = .close) (room : Bool) : ∃ port new popped msgs,
      Moved n (n.step (.handle side room)) side port new popped msgs ∧
        ((n.ends side).closeTarget m = some port ∨ port = portFree ∧ new = none) := by
  have hreceive : (n.ends side).receive m room = (n.ends side).parseClose m room := by
    unfold Endpoint.receive
    rw [hbody]
  rw [Net.step_handle hnext, hreceive]
  obtain ⟨n₁, popped, htaken, heq⟩ := Taken.exists_answer hnext ((n.ends side).parseClose m room)
  rw [heq]
  have hnone : ((n.ends side).parseClose m room).service = none → ∃ port new popped msgs,
      Moved n (n₁.apply side ((n.ends side).parseClose m room)) side port new popped msgs ∧
        ((n.ends side).closeTarget m = some port ∨ port = portFree ∧ new = none) :=
    fun hservice => ⟨_, _, _, _, htaken.moved_none h hservice, .inr ⟨rfl, rfl⟩⟩
  cases htarget : (n.ends side).closeTarget m with
  | none => exact htarget ▸ hnone (by unfold Endpoint.parseClose; rw [htarget])
  | some port =>
    cases hs : (n.ends side).service? port with
    | none =>
      refine htarget ▸ hnone ?_
      unfold Endpoint.parseClose
      rw [htarget]
      dsimp only
      rw [hs]
    | some s =>
      have hservice : ((n.ends side).parseClose m room).service =
          some (port, some ({ s with closing := true }.closeServiceInternal true room).1) := by
        unfold Endpoint.parseClose
        rw [htarget]
        dsimp only
        rw [hs]
      exact ⟨port, _, _, _, htaken.moved hservice (.inl (Endpoint.lt_of_service? hs))
        (h.size side), .inl rfl⟩

/-- A CLOSE that reaches its counterpart changes nothing else. -/
theorem Inv.closesCounterpart_iff (h : Inv n) (hnext : n.sent side.other = m :: rest)
    (hbody : m.body = .close) (room : Bool) :
    ClosesCounterpart n side room m ↔ (m.origin = .unanswered → Meets (n.ends side) m) := by
  rw [← h.closeTarget_iff hnext hbody]
  obtain ⟨port, new, popped, msgs, hmoved, htarget⟩ := h.moved_close hnext hbody room
  refine ⟨fun hcloses => hcloses.reaches, fun hreaches => ⟨hreaches, fun i hne => ?_, ?_⟩⟩
  · rw [hmoved.put] at hne
    split at hne
    next heq =>
      rcases htarget with htarget | ⟨hport, hnew⟩
      · exact (hreaches i).1 (heq ▸ htarget)
      · rw [hnew, heq, hport, h.service?_portFree] at hne
        exact absurd rfl hne
    · exact absurd rfl hne
  · exact hmoved.other

theorem Inv.closesWell_iff (h : Inv n) (e : Event) : ClosesWell n e ↔ Unmistakable n e := by
  cases e with
  | call side call => exact Iff.rfl
  | handle side room =>
    refine forall_congr' fun m => forall_congr' fun hm => forall_congr' fun hbody => ?_
    obtain ⟨rest, hnext⟩ := List.head?_eq_some_iff.1 hm
    rw [h.closesCounterpart_iff hnext hbody room]
    exact forall_congr' fun _ => ⟨fun hmeets => ⟨hmeets.zero, hmeets.server⟩,
      fun hmeets => ⟨hmeets.1, hmeets.2⟩⟩

/-- A step keeps the invariant if every CLOSE closes its counterpart, and comes behind the
OPEN of its client. -/
theorem Inv.step (h : Inv n) {e : Event} (hfirst : opensFirst n e) (hcloses : ClosesWell n e) :
    Inv (n.step e) := by
  cases e with
  | call side call => exact h.call hfirst
  | handle side room =>
    cases hsent : n.sent side.other with
    | nil =>
      unfold Net.step
      dsimp only
      rw [hsent]
      exact h
    | cons m rest =>
      have hmem : m ∈ n.sent side.other := hsent ▸ List.mem_cons_self
      obtain ⟨c, hc⟩ := h.named_conn hmem
      cases hbody : m.body with
      | opening fourcc version versionMin => exact h.parseOpen hsent hc hbody room
      | openack => exact h.parseOpenack hsent hc hbody room
      | close =>
        have hreaches := hcloses m (by rw [Net.next, hsent]; rfl) hbody
        exact h.parseClose hsent hc hbody hreaches.reaches room

/-- With nothing under way every connection is open at both ends, or over. -/
theorem Inv.settled (h : Inv n) (hquiet : ∀ side, n.sent side = []) : Settled n := by
  intro side port s hs
  cases hc : s.conn with
  | none =>
    rcases (h.idle side port s hs hc).srvstate with hstate | hstate | hstate | hstate | hstate
    all_goals
      rw [hstate]
      exact ⟨nofun, nofun, nofun⟩
  | some c =>
    obtain ⟨q, p, client, ks, server, ks', hlinked⟩ := h.linked c
    have hto : ks = [] := by
      have hto := hlinked.toServer
      rw [hquiet] at hto
      exact List.forall₂_nil_right_iff.1 hto
    have hback : ks' = [] := by
      have hback := hlinked.toClient
      rw [hquiet] at hback
      exact List.forall₂_nil_right_iff.1 hback
    subst hto hback
    rcases c.opener.eq_or_eq side with rfl | hside
    · obtain ⟨rfl, hview⟩ := hlinked.client_view hs hc
      rcases hlinked.phase.settled with ⟨rfl, -⟩ | ⟨rfl, rfl⟩
      · simp only [reduceCtorEq, false_and, or_false] at hview
      · simp only [reduceCtorEq, true_and, false_and, false_or, or_false] at hview
        obtain ⟨s', hs', hsc', hremote, hserver⟩ := hlinked.exists_server nofun
        simp only [reduceCtorEq, true_and, false_and, or_false] at hserver
        rw [hview.1, hview.2]
        exact ⟨nofun, nofun, fun _ => ⟨s', hs', hserver, hremote, hsc'⟩⟩
    · obtain rfl : side = c.opener.other := by rw [hside, Side.other_other]
      rw [Side.other_other]
      obtain ⟨rfl, hq, hstate⟩ := hlinked.server_view hs hc
      rcases hlinked.phase.settled with ⟨-, rfl⟩ | ⟨rfl, rfl⟩
      · simp only [reduceCtorEq, false_and, or_false] at hstate
      · simp only [reduceCtorEq, true_and, false_and, or_false] at hstate
        obtain ⟨s', hs', hsc', hview⟩ := hlinked.exists_client nofun
        simp only [reduceCtorEq, true_and, false_and, false_or, or_false] at hview
        rw [hstate, ← hq]
        exact ⟨nofun, nofun, fun _ => ⟨s', hs', hview.1, hview.2, hsc'⟩⟩

/-! ## Runs -/

theorem inv_init : Inv {} := by
  have hnone : ∀ side port s, (({} : Net).ends side).service? port = some s → False :=
    fun side port s hs => absurd (Endpoint.lt_of_service? hs) (Nat.not_lt_zero port)
  constructor
  · intro c
    have hat : ∀ side, (({} : Net).ends side).At c none := fun side =>
      ⟨fun port s hs => (hnone side port s hs).elim, fun x hx => absurd hx (Option.not_mem_none x)⟩
    exact ⟨0, 0, .gone, [], .gone, [], .ended, ⟨by decide, by decide⟩, hat _, hat _, .nil, .nil⟩
  · exact fun side port s hs => (hnone side port s hs).elim
  · exact fun side port s hs => (hnone side port s hs).elim
  · exact fun side => Nat.zero_le _
  · exact fun side m hm => absurd hm List.not_mem_nil
  · exact fun side port s c hs => (hnone side port s hs).elim
  · exact fun side => trivial
  · exact fun side port s hs => (hnone side port s hs).elim

/-- In every run in which no client is closed before its OPEN is queued, every CLOSE changes
its counterpart only and all is settled whenever nothing is under way, exactly if no early
CLOSE can be mistaken. -/
theorem handshake_sound_iff (es : List Event)
    (hfirst : Machine.Along Net.step (opensFirst · ·) {} es) :
    Sound es ↔ Machine.Along Net.step Unmistakable {} es := by
  constructor
  · intro hsound
    refine (Machine.along_and.2 ⟨hfirst, hsound⟩).strengthen (fun n e hinv hstep => ?_) inv_init
    exact ⟨(hinv.closesWell_iff e).1 hstep.2.1, hinv.step hstep.1 hstep.2.1⟩
  · intro hes
    refine (Machine.along_and.2 ⟨hfirst, hes⟩).strengthen (fun n e hinv hstep => ?_) inv_init
    have hcloses := (hinv.closesWell_iff e).2 hstep.2
    exact ⟨⟨hcloses, (hinv.step hstep.1 hcloses).settled⟩, hinv.step hstep.1 hcloses⟩

/-- A service of the master. -/
def paramsOf (fourcc : UInt32) : Params where
  fourcc
  version := 1
  versionMin := 1
  owner := 0

/-- `vchiq_open_service` on a port that is free. -/
def opened (side : Side) (fourcc : UInt32) (port : Nat) : List Event :=
  [.call side (.addClient (paramsOf fourcc)), .call side (.sendOpen port)]

/-- The slot handler closes the service for `vchiq_close_service`. -/
def closed (side : Side) (port : Nat) : List Event :=
  [.call side (.closeService port), .call side (.marked port .close),
    .call side (.poll port true)]

/-- It removes the service for `vchiq_remove_service`. -/
def removed (side : Side) (port : Nat) : List Event :=
  [.call side (.removeService port), .call side (.marked port .remove),
    .call side (.poll port true)]

/-- A client is opened, and both ends close. -/
theorem handshake_sound_closed :
    Sound ([.call .master (.addService (paramsOf 1) true)] ++ opened .slave 1 0 ++
      [.handle .master true, .handle .slave true] ++ closed .slave 0 ++ closed .master 0 ++
      [.handle .slave true, .handle .master true]) := by
  refine (handshake_sound_iff _ (by decide)).2
    ⟨trivial, trivial, trivial, ?_, ?_, trivial, trivial, trivial, trivial, trivial, trivial,
      ?_, ?_, trivial⟩
  all_goals
    rintro _ ⟨⟩ hbody horigin
    first | exact absurd hbody (by decide) | exact absurd horigin (by decide)

/-! ## CLOSEs that are mistaken or come too early -/

/-- The client is closed before it is answered, and a service listens on port 0. -/
def closeEarly : List Event :=
  [.call .master (.addService (paramsOf 1) true), .call .master (.addService (paramsOf 2) true)] ++
    opened .slave 2 0 ++ closed .slave 0 ++ [.handle .master true, .handle .master true]

/-- The server is closed as well before it has the CLOSE of its client. -/
def closeBoth : List Event :=
  [.call .master (.addService (paramsOf 1) true), .call .master (.addService (paramsOf 2) true)] ++
    opened .slave 1 0 ++ [.handle .master true, .handle .slave true] ++ opened .slave 2 1 ++
    [.handle .master true] ++ closed .master 1 ++ closed .slave 1 ++ [.handle .master true]

/-- `vchiq_shutdown` removes the client before its OPEN is queued. There is no service on port 0
of the other side. -/
def closeFirst : List Event :=
  [.call .master (.addService (paramsOf 1) true), .call .master (.addService (paramsOf 2) true)] ++
    removed .master 0 ++
    [.call .master (.unlockService 0), .call .slave (.addClient (paramsOf 2))] ++
    removed .slave 0 ++
    [.call .slave (.sendOpen 0), .handle .master true, .handle .master true, .handle .slave true]

/-- In the first run the CLOSE is taken by the service on port 0, in the second by none. In
the third one the client waits for a CLOSE of a server that is open. -/
theorem not_handshake_sound : ¬Sound closeEarly ∧ ¬Sound closeBoth ∧ ¬Sound closeFirst := by
  refine ⟨fun h => ?_, fun h => ?_, fun h => ?_⟩
  · have hlast := h.2.2.2.2.2.2.2.2.1.1 _ rfl rfl
    obtain ⟨s, c, hs, hc, -⟩ := (hlast.reaches 0).1 (by decide)
    injection hs with hs
    rw [← hs] at hc
    cases hc
  · have hlast := h.2.2.2.2.2.2.2.2.2.2.2.2.2.2.2.1.1 _ rfl rfl
    exact absurd ((hlast.reaches 1).2 ⟨_, _, rfl, rfl, rfl⟩) (by decide)
  · have hlast := h.2.2.2.2.2.2.2.2.2.2.2.2.2.1.2 (by intro side; cases side <;> rfl)
    exact (hlast .slave 0 _ rfl).1 rfl

end Handshake
