-- SUMMARY: What calls and the rounds of the slot handler do to the connections of two endpoints.
import Ampi.Vchiq.Connections

/-!
# Calls

A call opens a connection, sends the CLOSE of one, or concerns none.
-/

namespace Handshake

variable {n n' n₁ : Net} {side : Side} {port : Nat} {new : Option Service}
variable {popped msgs : List Msg} {c : Conn} {s s' : Service}

/-! ## The places that are written -/

theorem Inv.lt_portFree (h : Inv n) (hs : (n.ends side).service? port = some s) :
    port < portFree := (Endpoint.lt_of_service? hs).trans_le (h.size side)

theorem Inv.service?_portFree (h : Inv n) : (n.ends side).service? portFree = none := by
  cases hs : (n.ends side).service? portFree with
  | none => rfl
  | some s => exact absurd (h.lt_portFree hs) (lt_irrefl _)

/-- `n₁` is the net without the messages that are taken. -/
structure Taken (n n₁ : Net) (side : Side) (popped : List Msg) : Prop where
  ends : n₁.ends = n.ends
  time : n₁.time = n.time
  sent : n₁.sent side = n.sent side
  pending : n.sent side.other = popped ++ n₁.sent side.other

theorem taken_nil : Taken n n side [] := ⟨rfl, rfl, rfl, rfl⟩

theorem taken_cons {m : Msg} {rest : List Msg} (h : n.sent side.other = m :: rest) :
    Taken n { n with sent := Function.update n.sent side.other rest } side [m] where
  ends := rfl
  time := rfl
  sent := Function.update_of_ne (Side.other_ne side).symm ..
  pending := by
    change n.sent side.other = [m] ++ Function.update n.sent side.other rest side.other
    rw [Function.update_self]
    exact h

/-- The effect writes a place of the table or the one behind it. -/
theorem Taken.moved (h : Taken n n₁ side popped) {f : Effect} (hf : f.service = some (port, new))
    (hport : port < (n.ends side).services.length ∨
      port = (n.ends side).services.length ∧ (n.ends side).services.length < maxServices)
    (hsize : (n.ends side).services.length ≤ maxServices) :
    Moved n (n₁.apply side f) side port new popped f.msgs := by
  have hends : (n₁.apply side f).ends =
      Function.update n.ends side ((n.ends side).put port new) := by
    rw [Net.apply, hf, h.ends]
  have hother : (n₁.apply side f).sent side.other = n₁.sent side.other :=
    Function.update_of_ne (Side.other_ne side) ..
  refine ⟨fun i => ?_, ?_, ?_, ?_, ?_, ?_⟩
  · rw [hends, Function.update_self]
    exact Endpoint.service?_put (by omega)
  · rw [hends, Function.update_of_ne (Side.other_ne side)]
  · rw [← h.sent]
    exact Function.update_self ..
  · rw [hother]
    exact h.pending
  · change n.time < n₁.time + 1
    rw [h.time]
    exact Nat.lt_succ_self _
  · rw [hends, Function.update_self]
    exact Endpoint.length_put (by omega) hsize

/-- It writes nothing. -/
theorem Taken.moved_none (h : Taken n n₁ side popped) (hinv : Inv n) {f : Effect}
    (hf : f.service = none) : Moved n (n₁.apply side f) side portFree none popped f.msgs := by
  have hends : (n₁.apply side f).ends = n.ends := by rw [Net.apply, hf, h.ends]
  have hother : (n₁.apply side f).sent side.other = n₁.sent side.other :=
    Function.update_of_ne (Side.other_ne side) ..
  refine ⟨fun i => ?_, ?_, ?_, ?_, ?_, ?_⟩
  · rw [hends]
    split
    next heq => rw [heq, hinv.service?_portFree]
    · rfl
  · rw [hends]
  · rw [← h.sent]
    exact Function.update_self ..
  · rw [hother]
    exact h.pending
  · change n.time < n₁.time + 1
    rw [h.time]
    exact Nat.lt_succ_self _
  · rw [hends]
    exact hinv.size side

/-! ## Services in a connection -/

theorem Inv.connected (h : Inv n) (hs : (n.ends side).service? port = some s)
    (hc : s.conn = some c) :
    s.srvstate = .opening ∧ s.remoteport = portFree ∨ s.srvstate = .open ∧ s.remoteport < portFree ∨
      s.srvstate = .closesent := by
  obtain ⟨q, p, client, ks, server, ks', hlinked⟩ := h.linked c
  rcases c.opener.eq_or_eq side with rfl | hside
  · rcases (hlinked.client_view hs hc).2 with ⟨-, hstate, hfree⟩ | ⟨-, hstate, -⟩ |
      ⟨-, hstate, hp⟩ | ⟨-, hstate, -⟩
    · exact .inl ⟨hstate, hfree⟩
    · exact .inr (.inr hstate)
    · exact .inr (.inl ⟨hstate, hp ▸ hlinked.ports.2⟩)
    · exact .inr (.inr hstate)
  · obtain rfl : side = c.opener.other := by rw [hside, Side.other_other]
    obtain ⟨-, hq, ⟨-, hstate⟩ | ⟨-, hstate⟩⟩ := hlinked.server_view hs hc
    · exact .inr (.inl ⟨hstate, hq ▸ hlinked.ports.1⟩)
    · exact .inr (.inr hstate)

/-- The states in which a service is in no connection. -/
theorem Inv.idle_of_srvstate (h : Inv n) (hs : (n.ends side).service? port = some s)
    (hstate : s.srvstate ≠ .opening ∧ s.srvstate ≠ .open ∧ s.srvstate ≠ .closesent) : s.Idle := by
  cases hc : s.conn with
  | none => exact h.idle side port s hs hc
  | some c =>
    rcases h.connected hs hc with ⟨hopening, -⟩ | ⟨hopen, -⟩ | hclosesent
    · exact absurd hopening hstate.1
    · exact absurd hopen hstate.2.1
    · exact absurd hclosesent hstate.2.2

/-- Two services that connections do not tell apart. -/
structure Service.Alike (s s' : Service) : Prop where
  conn : s'.conn = s.conn
  srvstate : s'.srvstate = s.srvstate
  remoteport : s'.remoteport = s.remoteport
  localport : s'.localport = s.localport

theorem Endpoint.At.alike {e e' : Endpoint} {v : Option (Nat × SrvState × Nat)} (h : e.At c v)
    (hput : ∀ i, e'.service? i = if i = port then some s' else e.service? i)
    (hs : e.service? port = some s) (halike : s.Alike s') : e'.At c v := by
  refine ⟨fun i t ht hc => ?_, fun x hx => ?_⟩
  · rw [hput] at ht
    split at ht
    next heq =>
      injection ht with ht
      rw [heq, ← ht, halike.srvstate, halike.remoteport]
      exact h.found port s hs (halike.conn.symm.trans (ht ▸ hc))
    · exact h.found i t ht hc
  · obtain ⟨t, ht, hc⟩ := h.present x hx
    rw [hput]
    split
    next heq =>
      rw [heq, hs] at ht
      injection ht with ht
      exact ⟨s', rfl, halike.conn.trans (ht ▸ hc)⟩
    · exact ⟨t, ht, hc⟩

/-! ## Calls that concern no connection -/

/-- A service in no connection comes, changes or goes. -/
theorem Inv.idle_change (h : Inv n) (hmoved : Moved n n' side port new [] [])
    (hold : ∀ s, (n.ends side).service? port = some s → s.conn = none)
    (hnew : ∀ s ∈ new, s.Idle ∧ s.localport = port) : Inv n' := by
  have hch : Change n n' side port new [] [] none :=
    { hmoved with
      old_conn := fun s hs => .inl (hold s hs)
      new_conn := fun s hs => .inl ⟨(hnew s hs).1.conn, (hnew s hs).1⟩
      new_port := fun s hs => (hnew s hs).2
      popped_conn := nofun
      msgs_conn := nofun }
  refine hch.inv h nofun (.inl rfl) (fun s hs hremote => ?_)
    (fun _ _ _ _ _ hm => absurd hm List.not_mem_nil)
  exact absurd (hnew s hs).1.remoteport hremote

/-- A service of a connection changes in what the connection does not tell apart. -/
theorem Inv.alike_change (h : Inv n) (hmoved : Moved n n' side port (some s') [] [])
    (hs : (n.ends side).service? port = some s) (hc : s.conn = some c) (halike : s.Alike s') :
    Inv n' := by
  have hc' : s'.conn = some c := halike.conn.trans hc
  have hsent : n'.sent side = n.sent side := by rw [hmoved.sent, List.append_nil]
  have hpending : n'.sent side.other = n.sent side.other := hmoved.pending.symm
  have hch : Change n n' side port (some s') [] [] (some c) :=
    { hmoved with
      old_conn := fun t ht => .inr (by rw [← Option.some.inj (hs.symm.trans ht)]; exact hc)
      new_conn := fun t ht => .inr (by rw [← Option.some.inj ht]; exact ⟨hc', rfl⟩)
      new_port := fun t ht => by
        rw [← Option.some.inj ht, halike.localport]
        exact h.localport side port s hs
      popped_conn := nofun
      msgs_conn := nofun }
  refine hch.inv h (fun x hx => ?_) (.inl rfl) (fun t ht hremote => ?_)
    (fun _ _ _ _ _ hm => absurd hm List.not_mem_nil)
  · obtain rfl := Option.some.inj hx
    refine ⟨(h.young side port s c hs hc).trans hmoved.time, ?_⟩
    obtain ⟨q, p, client, ks, server, ks', hlinked⟩ := h.linked c
    refine ⟨q, p, client, ks, server, ks', ?_⟩
    rcases c.opener.eq_or_eq side with rfl | hside
    · exact ⟨hlinked.phase, hlinked.ports, hlinked.client.alike hmoved.put hs halike,
        hmoved.other ▸ hlinked.server, hsent ▸ hlinked.toServer, hpending ▸ hlinked.toClient⟩
    · obtain rfl : side = c.opener.other := by rw [hside, Side.other_other]
      have hother := hmoved.other
      rw [Side.other_other] at hother hpending
      exact ⟨hlinked.phase, hlinked.ports, hother ▸ hlinked.client,
        hlinked.server.alike hmoved.put hs halike, hpending ▸ hlinked.toServer,
        hsent ▸ hlinked.toClient⟩
  · obtain rfl := Option.some.inj ht
    rw [halike.conn, halike.remoteport, hpending]
    exact h.guarded side port s hs (halike.remoteport ▸ hremote)

/-! ## Moves of one end -/

section

variable {q p : Nat} {client client' : Client} {server server' : Server}
variable {ks ks' ks₁ ks₁' : List Kind} {m : Msg}

theorem thread_singleton (h : m.conn = some c) : thread c [m] = [m] := thread_cons h

theorem Endpoint.At.write_some {e e' : Endpoint} {v : Option (Nat × SrvState × Nat)}
    (h : e.At c v) (hput : ∀ i, e'.service? i = if i = port then some s' else e.service? i)
    (hport : ∀ x ∈ v, x.1 = port) (hc : s'.conn = some c) :
    e'.At c (some (port, s'.srvstate, s'.remoteport)) := by
  refine h.write hput hport (fun t ht _ => ?_) (fun x hx => ?_)
  · rw [← Option.some.inj ht]
  · obtain rfl := Option.some.inj hx
    exact ⟨rfl, s', rfl, hc⟩

theorem Endpoint.At.write_none {e e' : Endpoint} {v : Option (Nat × SrvState × Nat)}
    (h : e.At c v) (hput : ∀ i, e'.service? i = if i = port then new else e.service? i)
    (hport : ∀ x ∈ v, x.1 = port) (hnew : ∀ s ∈ new, s.conn = none) : e'.At c none := by
  refine h.write hput hport (fun t ht hc => ?_) nofun
  exact absurd ((hnew t ht).symm.trans hc) nofun

/-- The client moves on. -/
theorem LinkedAt.clientMoves (h : LinkedAt n c q p client ks server ks')
    (hmoved : Moved n n' c.opener port new popped msgs)
    (hphase : Phase client' (ks ++ ks₁) server ks₁')
    (hview : (n'.ends c.opener).At c (client'.view q p))
    (hmsgs : List.Forall₂ (fun k m => k.Is q p m) ks₁ (thread c msgs))
    (hto : List.Forall₂ (fun k m => k.Is q p m) ks₁' (thread c (n'.sent c.opener.other))) :
    LinkedAt n' c q p client' (ks ++ ks₁) server ks₁' where
  phase := hphase
  ports := h.ports
  client := hview
  server := hmoved.other ▸ h.server
  toServer := by
    rw [hmoved.sent, thread_append]
    exact List.rel_append h.toServer hmsgs
  toClient := hto

/-- The server moves on. -/
theorem LinkedAt.serverMoves (h : LinkedAt n c q p client ks server ks')
    (hmoved : Moved n n' c.opener.other port new popped msgs)
    (hphase : Phase client ks₁ server' (ks' ++ ks₁'))
    (hview : (n'.ends c.opener.other).At c (server'.view q p))
    (hmsgs : List.Forall₂ (fun k m => k.Is q p m) ks₁' (thread c msgs))
    (hto : List.Forall₂ (fun k m => k.Is q p m) ks₁ (thread c (n'.sent c.opener))) :
    LinkedAt n' c q p client ks₁ server' (ks' ++ ks₁') where
  phase := hphase
  ports := h.ports
  client := by
    have hother := hmoved.other
    rw [Side.other_other] at hother
    exact hother ▸ h.client
  server := hview
  toServer := hto
  toClient := by
    rw [hmoved.sent, thread_append]
    exact List.rel_append h.toClient hmsgs

end

/-! ## Calls that send -/

theorem closeMsg_conn (s : Service) : s.closeMsg.conn = s.conn := rfl

theorem msgDstport_of_lt (h : port < portFree) : msgDstport port = port := Nat.mod_eq_of_lt h

theorem origin_closeMsg (h : s.remoteport < portFree) : s.closeMsg.origin = .service :=
  if_neg h.ne

theorem closeMsg_early {q : Nat} (p : Nat) (hlocal : s.localport = q)
    (hremote : s.remoteport = portFree) : Kind.early.Is q p s.closeMsg := by
  refine ⟨rfl, hlocal, ?_, if_pos hremote⟩
  change msgDstport s.remoteport = 0
  rw [hremote]
  decide

theorem closeMsg_late {q p : Nat} (hlocal : s.localport = q) (hremote : s.remoteport = p)
    (hp : p < portFree) : Kind.late.Is q p s.closeMsg := by
  rw [← hremote] at hp
  exact ⟨rfl, hlocal, (msgDstport_of_lt hp).trans hremote, origin_closeMsg hp⟩

theorem closeMsg_close {q p : Nat} (hlocal : s.localport = p) (hremote : s.remoteport = q)
    (hq : q < portFree) : Kind.close.Is q p s.closeMsg := closeMsg_late hlocal hremote hq

/-- A client whose OPEN is queued has a place of its own. -/
theorem Inv.open_change (h : Inv n) {m : Msg}
    (hmoved : Moved n n' side port (some s') [] [m])
    (hold : ∀ t, (n.ends side).service? port = some t → t.conn = none)
    (hport : port < portFree) (hc : s'.conn = some ⟨side, n.time⟩) (hlocal : s'.localport = port)
    (hstate : s'.srvstate = .opening) (hremote : s'.remoteport = portFree)
    (hm : Kind.open.Is port 0 m) (hmc : m.conn = some ⟨side, n.time⟩) : Inv n' := by
  have hnone : ∀ side' m', m' ∈ n.sent side' → m'.conn ≠ some ⟨side, n.time⟩ := by
    intro side' m' hm' hc'
    obtain ⟨c, hcm, hlt⟩ := h.named side' m' hm'
    rw [hc'] at hcm
    exact absurd (Option.some.inj hcm ▸ hlt) (lt_irrefl _)
  have hnew : ∀ side' port' t, (n.ends side').service? port' = some t →
      t.conn ≠ some ⟨side, n.time⟩ :=
    fun side' port' t ht hc' => lt_irrefl _ (h.young side' port' t _ ht hc')
  have hch : Change n n' side port (some s') [] [m] (some ⟨side, n.time⟩) :=
    { hmoved with
      old_conn := fun t ht => .inl (hold t ht)
      new_conn := fun t ht => .inr (by rw [← Option.some.inj ht]; exact ⟨hc, rfl⟩)
      new_port := fun t ht => by
        rw [← Option.some.inj ht]
        exact hlocal
      popped_conn := nofun
      msgs_conn := fun m' hm' => by
        rw [List.mem_singleton.1 hm']
        exact ⟨hmc, rfl⟩ }
  have hfresh : Fresh n side m :=
    { named := ⟨_, hmc⟩
      port := fun t ht => by
        rw [hm.2.1] at ht
        exact .inl (hold t ht)
      unclosed := fun m' hm' hclose => hnone side m' hm' (hclose.2.2.trans hmc) }
  refine hch.inv h (fun x hx => ?_) (.inr ⟨m, rfl, fun _ => hfresh⟩) (fun t ht hremote' => ?_)
    (fun _ _ _ _ _ hm => absurd hm List.not_mem_nil)
  · obtain rfl := Option.some.inj hx
    refine ⟨hmoved.time, port, 0, .opening, [.open], .gone, [], ?_⟩
    refine ⟨.asked, ⟨hport, by decide⟩, ?_, ?_, ?_, ?_⟩
    · have hat : (n.ends side).At ⟨side, n.time⟩ none :=
        ⟨fun port' t ht hc' => absurd hc' (hnew side port' t ht), nofun⟩
      have hwrite := hat.write_some hmoved.put nofun hc
      rw [hstate, hremote] at hwrite
      exact hwrite
    · change (n'.ends side.other).At _ none
      rw [hmoved.other]
      exact ⟨fun port' t ht hc' => absurd hc' (hnew _ port' t ht), nofun⟩
    · change List.Forall₂ _ _ (thread _ (n'.sent side))
      rw [hmoved.sent, thread_append, thread_eq_nil (hnone side), List.nil_append,
        thread_singleton hmc]
      exact .cons hm .nil
    · change List.Forall₂ _ _ (thread _ (n'.sent side.other))
      rw [← List.nil_append (n'.sent side.other), ← hmoved.pending, thread_eq_nil (hnone _)]
      exact .nil
  · rw [← Option.some.inj ht] at hremote'
    exact absurd hremote hremote'

/-- A service sends its CLOSE. -/
theorem Inv.close_change (h : Inv n) (hmoved : Moved n n' side port (some s') [] [s.closeMsg])
    (hs : (n.ends side).service? port = some s) (hc : s.conn = some c)
    (hstate : s.srvstate = .opening ∨ s.srvstate = .open)
    (halike : { s with srvstate := .closesent }.Alike s') : Inv n' := by
  have hc' : s'.conn = some c := halike.conn.trans hc
  have hlocal := h.localport side port s hs
  have hpending : n'.sent side.other = n.sent side.other := hmoved.pending.symm
  have hmsgs : thread c [s.closeMsg] = [s.closeMsg] := thread_singleton hc
  obtain ⟨q, p, client, ks, server, ks', hlinked⟩ := h.linked c
  have hch : Change n n' side port (some s') [] [s.closeMsg] (some c) :=
    { hmoved with
      old_conn := fun t ht => .inr (by rw [← Option.some.inj (hs.symm.trans ht)]; exact hc)
      new_conn := fun t ht => .inr (by rw [← Option.some.inj ht]; exact ⟨hc', rfl⟩)
      new_port := fun t ht => by
        rw [← Option.some.inj ht, halike.localport]
        exact hlocal
      popped_conn := nofun
      msgs_conn := fun m hm => by
        rw [List.mem_singleton.1 hm]
        exact ⟨hc, rfl⟩ }
  have hfresh : Fresh n side s.closeMsg :=
    { named := ⟨c, hc⟩
      port := fun t ht => by
        change (n.ends side).service? s.localport = some t at ht
        rw [hlocal, hs] at ht
        rw [← Option.some.inj ht]
        exact .inr rfl
      unclosed := by
        rw [closeMsg_conn, hc]
        exact hlinked.unclosed hs hc hstate }
  refine hch.inv h (fun x hx => ?_) (.inr ⟨_, rfl, fun _ => hfresh⟩) (fun t ht hremote => ?_)
    (fun _ _ _ _ _ hm => absurd hm List.not_mem_nil)
  · obtain rfl := Option.some.inj hx
    refine ⟨(h.young side port s c hs hc).trans hmoved.time, ?_⟩
    rcases c.opener.eq_or_eq side with rfl | hside
    · have hat : ∀ v, (n.ends c.opener).At c v → (∀ x ∈ v, x.1 = port) →
          (n'.ends c.opener).At c (some (port, .closesent, s.remoteport)) := by
        intro v hv hport
        have hwrite := hv.write_some hmoved.put hport hc'
        rw [halike.srvstate, halike.remoteport] at hwrite
        exact hwrite
      obtain ⟨rfl, ⟨rfl, hst, hremote⟩ | ⟨rfl, hst, hremote⟩ | ⟨rfl, hst, hremote⟩ |
        ⟨rfl, hst, hremote⟩⟩ := hlinked.client_view hs hc
      · refine ⟨q, p, .early, ks ++ [.early], server, ks', hlinked.clientMoves hmoved
          hlinked.phase.withdraw ?_ ?_ (hpending ▸ hlinked.toClient)⟩
        · rw [hremote] at hat
          exact hat _ hlinked.client (by rintro x ⟨⟩; rfl)
        · rw [hmsgs]
          exact .cons (closeMsg_early p hlocal hremote) .nil
      · rw [hst] at hstate
        simp at hstate
      · refine ⟨q, p, .late, ks ++ [.late], server, ks', hlinked.clientMoves hmoved
          hlinked.phase.closeClient ?_ ?_ (hpending ▸ hlinked.toClient)⟩
        · rw [hremote] at hat
          exact hat _ hlinked.client (by rintro x ⟨⟩; rfl)
        · rw [hmsgs]
          exact .cons (closeMsg_late hlocal hremote hlinked.ports.2) .nil
      · rw [hst] at hstate
        simp at hstate
    · obtain rfl : side = c.opener.other := by rw [hside, Side.other_other]
      rw [Side.other_other] at hpending
      obtain ⟨rfl, hq, ⟨rfl, hst⟩ | ⟨rfl, hst⟩⟩ := hlinked.server_view hs hc
      · refine ⟨q, p, client, ks, .closesent, ks' ++ [.close], hlinked.serverMoves hmoved
          hlinked.phase.closeServer ?_ ?_ (hpending ▸ hlinked.toServer)⟩
        · have hwrite := hlinked.server.write_some hmoved.put (by rintro x ⟨⟩; rfl) hc'
          rw [halike.srvstate, halike.remoteport] at hwrite
          change (n'.ends c.opener.other).At c (some (p, .closesent, q))
          rw [hq]
          exact hwrite
        · rw [hmsgs]
          exact .cons (closeMsg_close hlocal hq.symm hlinked.ports.1) .nil
      · rw [hst] at hstate
        simp at hstate
  · obtain rfl := Option.some.inj ht
    rw [halike.conn, halike.remoteport, hpending]
    exact h.guarded side port s hs (halike.remoteport ▸ hremote)

/-! ## The close of a service -/

namespace Service

theorem unsent_iff :
    s.unsent ↔ s.conn = none ∧ (s.srvstate = .opening ∨ s.srvstate = .closesent) := by
  simp [unsent]

/-- The slot handler closes a service that is in no connection. -/
theorem Idle.closeServiceInternal (h : s.Idle) (room : Bool)
    (hopening : s.srvstate = .opening → room = false) :
    (s.closeServiceInternal false room).2.1 = [] ∧ (s.closeServiceInternal false room).1.Idle ∧
      (s.closeServiceInternal false room).1.localport = s.localport := by
  obtain ⟨hconn, hremote, hstate⟩ := h
  unfold Service.closeServiceInternal freeService
  rcases hstate with hstate | hstate | hstate | hstate | hstate <;> cases s.isServer <;>
    simp [hstate, hopening] <;>
    exact ⟨hconn, by first | exact hremote | rfl, by simp [hstate]⟩

/-- A call that has marked a service asks for polling, or frees it if it is hidden. -/
theorem afterMark_cases (s : Service) (closer : Closer) :
    s.Alike (s.afterMark closer) ∨ s.srvstate = .hidden ∧
      (s.Idle → (s.afterMark closer).Idle ∧ (s.afterMark closer).localport = s.localport) := by
  cases closer with
  | close => exact .inl ⟨rfl, rfl, rfl, rfl⟩
  | terminate => exact .inl ⟨rfl, rfl, rfl, rfl⟩
  | remove =>
    dsimp only [afterMark]
    split
    next hhidden =>
      refine .inr ⟨hhidden, fun hidle => ?_⟩
      have hclient : Idle { s with publicFourcc := fourccInvalid } :=
        ⟨hidle.conn, hidle.remoteport, hidle.srvstate⟩
      refine (hclient.closeServiceInternal true fun hopening => ?_).2
      exact absurd (hhidden.symm.trans hopening) nofun
    · exact .inl ⟨rfl, rfl, rfl, rfl⟩

/-- The slot handler sends the CLOSE of a service that has not sent it. -/
theorem closeServiceInternal_false
    (h : s.srvstate = .opening ∨ s.srvstate = .open ∨ s.srvstate = .closesent) (room : Bool) :
    (s.closeServiceInternal false room).2.1 = [] ∧ (s.closeServiceInternal false room).1 = s ∨
      s.srvstate ≠ .closesent ∧ (s.closeServiceInternal false room).2.1 = [s.closeMsg] ∧
        (s.closeServiceInternal false room).1 = { s with srvstate := .closesent } := by
  unfold Service.closeServiceInternal
  rcases h with h | h | h <;> cases room <;> simp [h]

theorem pollService_idle (h : s.Idle) (room : Bool)
    (hopening : s.srvstate = .opening → s.pollTerminate ∨ s.pollRemove → room = false) :
    (Endpoint.pollService s room).2 = [] ∧ (Endpoint.pollService s room).1.Idle ∧
      (Endpoint.pollService s room).1.localport = s.localport := by
  have hclose : ∀ {s₁ : Service}, s₁.Idle → (s₁.srvstate = .opening → room = false) →
      s₁.localport = s.localport → (s₁.closeServiceInternal false room).2.1 = [] ∧
        (s₁.closeServiceInternal false room).1.Idle ∧
        (s₁.closeServiceInternal false room).1.localport = s.localport := by
    intro s₁ hidle hroom hlocal
    obtain ⟨hmsgs, hidle', hlocal'⟩ := hidle.closeServiceInternal room hroom
    exact ⟨hmsgs, hidle', hlocal'.trans hlocal⟩
  dsimp only [Endpoint.pollService]
  split
  next hpoll =>
    have hremoved : Idle { s with
        pollTerminate := false
        pollRemove := false
        publicFourcc := fourccInvalid } := ⟨h.conn, h.remoteport, h.srvstate⟩
    obtain ⟨hmsgs, hidle, hlocal⟩ :=
      hclose hremoved (fun hstate => hopening hstate (.inr hpoll)) rfl
    exact ⟨hmsgs, ⟨hidle.conn, hidle.remoteport, hidle.srvstate⟩, hlocal⟩
  · split
    next hpoll =>
      have hflagged : Idle { s with pollTerminate := false, pollRemove := false } :=
        ⟨h.conn, h.remoteport, h.srvstate⟩
      obtain ⟨hmsgs, hidle, hlocal⟩ :=
        hclose hflagged (fun hstate => hopening hstate (.inl hpoll)) rfl
      exact ⟨hmsgs, ⟨hidle.conn, hidle.remoteport, hidle.srvstate⟩, hlocal⟩
    · exact ⟨rfl, ⟨h.conn, h.remoteport, h.srvstate⟩, rfl⟩

theorem pollService_connected
    (h : s.srvstate = .opening ∨ s.srvstate = .open ∨ s.srvstate = .closesent) (room : Bool) :
    (Endpoint.pollService s room).2 = [] ∧ s.Alike (Endpoint.pollService s room).1 ∨
      s.srvstate ≠ .closesent ∧ (Endpoint.pollService s room).2 = [s.closeMsg] ∧
        { s with srvstate := .closesent }.Alike (Endpoint.pollService s room).1 := by
  dsimp only [Endpoint.pollService]
  split
  · rcases closeServiceInternal_false (s := { s with
      pollTerminate := false
      pollRemove := false
      publicFourcc := fourccInvalid }) h room with ⟨hmsgs, heq⟩ | ⟨hstate, hmsgs, heq⟩
    · refine .inl ⟨hmsgs, ?_⟩
      rw [heq]
      exact ⟨rfl, rfl, rfl, rfl⟩
    · refine .inr ⟨hstate, hmsgs, ?_⟩
      rw [heq]
      exact ⟨rfl, rfl, rfl, rfl⟩
  · split
    · rcases closeServiceInternal_false (s := { s with
        pollTerminate := false
        pollRemove := false }) h room with ⟨hmsgs, heq⟩ | ⟨hstate, hmsgs, heq⟩
      · refine .inl ⟨hmsgs, ?_⟩
        rw [heq]
        exact ⟨rfl, rfl, rfl, rfl⟩
      · refine .inr ⟨hstate, hmsgs, ?_⟩
        rw [heq]
        exact ⟨rfl, rfl, rfl, rfl⟩
    · exact .inl ⟨rfl, rfl, rfl, rfl, rfl⟩

end Service

/-! ## Every call -/

/-- A free place is empty or the one behind the table. -/
theorem Endpoint.freePort_eq {e : Endpoint} {params : Params} {opening : Bool}
    (h : e.freePort params opening = some port) :
    e.service? port = none ∧
      (port < e.services.length ∨ port = e.services.length ∧ e.services.length < maxServices) := by
  dsimp only [freePort] at h
  split at h
  · cases h
  · split at h
    next found hfound =>
      obtain rfl := Option.some.inj h
      obtain ⟨hlt, hnone, -⟩ := List.findIdx?_eq_some_iff_getElem.1 hfound
      refine ⟨?_, .inl hlt⟩
      rw [service?, List.getElem?_eq_getElem hlt, Option.isNone_iff_eq_none.1 hnone]
      rfl
    · split at h
      next hlt =>
        obtain rfl := Option.some.inj h
        refine ⟨?_, .inr ⟨rfl, hlt⟩⟩
        rw [service?, List.getElem?_eq_none (Nat.le_refl _)]
        rfl
      · cases h

/-- An effect that writes and sends nothing. -/
theorem Inv.nothing (h : Inv n) {f : Effect} (hf : f.service = none) (hmsgs : f.msgs = []) :
    Inv (n.apply side f) := by
  have hmoved : Moved n (n.apply side f) side portFree none [] f.msgs :=
    taken_nil.moved_none h hf
  rw [hmsgs] at hmoved
  exact h.idle_change hmoved (fun _ hs => absurd (h.service?_portFree.symm.trans hs) nofun)
    (fun s hs => absurd hs (Option.not_mem_none s))

/-- A service is replaced by one that connections do not tell apart from it. -/
theorem Inv.replace (h : Inv n) (hs : (n.ends side).service? port = some s) {f : Effect}
    (hf : f.service = some (port, some s')) (hmsgs : f.msgs = [])
    (hsame : s.Alike s' ∨ s.Idle ∧ s'.Idle ∧ s'.localport = s.localport) :
    Inv (n.apply side f) := by
  have hmoved := taken_nil.moved hf (.inl (Endpoint.lt_of_service? hs)) (h.size side)
  have hlocal := h.localport side port s hs
  rw [hmsgs] at hmoved
  have hidle : s.Idle → s'.Idle → s'.localport = s.localport → Inv (n.apply side f) := by
    intro hold hnew heq
    refine h.idle_change hmoved (fun t ht => ?_) (fun t ht => ?_)
    · rw [← Option.some.inj (hs.symm.trans ht)]
      exact hold.conn
    · rw [← Option.some.inj ht]
      exact ⟨hnew, heq.trans hlocal⟩
  rcases hsame with halike | ⟨hold, hnew, heq⟩
  · cases hc : s.conn with
    | some c => exact h.alike_change hmoved hs hc halike
    | none =>
      have hold := h.idle side port s hs hc
      refine hidle hold ⟨halike.conn.trans hc, halike.remoteport.trans hold.remoteport, ?_⟩
        halike.localport
      rw [halike.srvstate]
      exact hold.srvstate
  · exact hidle hold hnew heq

theorem Inv.close (h : Inv n) (hs : (n.ends side).service? port = some s) {f : Effect}
    (hf : f.service = some (port, some s')) (hmsgs : f.msgs = [s.closeMsg])
    (hc : s.conn = some c) (hstate : s.srvstate = .opening ∨ s.srvstate = .open)
    (halike : { s with srvstate := .closesent }.Alike s') : Inv (n.apply side f) := by
  have hmoved := taken_nil.moved hf (.inl (Endpoint.lt_of_service? hs)) (h.size side)
  rw [hmsgs] at hmoved
  exact h.close_change hmoved hs hc hstate halike

theorem Endpoint.service?_of_find {e : Endpoint} (h : e.findServiceByPort port = some s) :
    e.service? port = some s := (findServiceByPort_eq.1 h).1

theorem Inv.modify (h : Inv n) (port : Nat) (f : Service → Service)
    (hf : ∀ s, (n.ends side).service? port = some s → s.Alike (f s) ∨
      s.Idle ∧ (f s).Idle ∧ (f s).localport = s.localport) :
    Inv (n.apply side ((n.ends side).modify port f)) := by
  unfold Endpoint.modify
  split
  next hs =>
    have hs := Endpoint.service?_of_find hs
    exact h.replace hs rfl rfl (hf _ hs)
  · exact h.nothing rfl rfl

theorem Inv.call (h : Inv n) {side : Side} {call : Call} (hfirst : opensFirst n (.call side call)) :
    Inv (n.step (.call side call)) := by
  change Inv (n.apply side ((n.ends side).call ⟨side, n.time⟩ call))
  cases call with
  | addService params connected =>
    dsimp only [Endpoint.call]
    split
    · exact h.nothing rfl rfl
    next port hfree =>
      obtain ⟨hnone, hport⟩ := Endpoint.freePort_eq hfree
      refine h.idle_change (taken_nil.moved rfl hport (h.size side))
        (fun s hs => absurd (hnone.symm.trans hs) nofun) (fun s hs => ?_)
      obtain rfl := Option.some.inj hs
      refine ⟨⟨rfl, rfl, ?_⟩, rfl⟩
      cases connected with
      | false => exact .inr (.inl rfl)
      | true => exact .inr (.inr (.inl rfl))
  | connect port =>
    refine h.modify port _ fun s hs => ?_
    split
    next hhidden =>
      have hidle := h.idle_of_srvstate hs (by rw [hhidden]; exact ⟨nofun, nofun, nofun⟩)
      exact .inr ⟨hidle, ⟨hidle.conn, hidle.remoteport, .inr (.inr (.inl rfl))⟩, rfl⟩
    · exact .inl ⟨rfl, rfl, rfl, rfl⟩
  | addClient params =>
    dsimp only [Endpoint.call]
    split
    · exact h.nothing rfl rfl
    next port hfree =>
      obtain ⟨hnone, hport⟩ := Endpoint.freePort_eq hfree
      refine h.idle_change (taken_nil.moved rfl hport (h.size side))
        (fun s hs => absurd (hnone.symm.trans hs) nofun) (fun s hs => ?_)
      obtain rfl := Option.some.inj hs
      exact ⟨⟨rfl, rfl, .inr (.inr (.inr (.inr rfl)))⟩, rfl⟩
  | sendOpen port =>
    dsimp only [Endpoint.call]
    split
    · exact h.nothing rfl rfl
    next s hs =>
      have hs := Endpoint.service?_of_find hs
      split
      next hunsent =>
        obtain ⟨hconn, hstate⟩ := Service.unsent_iff.1 hunsent
        have hidle := h.idle side port s hs hconn
        have hlocal := h.localport side port s hs
        have hstate : s.srvstate = .opening := by
          refine hstate.resolve_right fun hclosesent => ?_
          rcases hidle.srvstate with hst | hst | hst | hst | hst <;>
            exact absurd (hclosesent.symm.trans hst) nofun
        refine h.open_change (taken_nil.moved rfl (.inl (Endpoint.lt_of_service? hs)) (h.size side))
          (fun t ht => ?_) (h.lt_portFree hs) rfl hlocal hstate hidle.remoteport
          ⟨⟨_, _, _, rfl⟩, hlocal, rfl, rfl⟩ rfl
        rw [← Option.some.inj (hs.symm.trans ht)]
        exact hconn
      · exact h.nothing rfl rfl
  | setAutoClose port value => exact h.modify port _ fun s _ => .inl ⟨rfl, rfl, rfl, rfl⟩
  | closeService port =>
    refine h.modify port _ fun s _ => .inl ?_
    split <;> exact ⟨rfl, rfl, rfl, rfl⟩
  | removeService port => exact h.modify port _ fun s _ => .inl ⟨rfl, rfl, rfl, rfl⟩
  | terminateService port => exact h.modify port _ fun s _ => .inl ⟨rfl, rfl, rfl, rfl⟩
  | marked port closer =>
    refine h.modify port _ fun s hs => ?_
    split
    · rcases Service.afterMark_cases { s with closers := s.closers.erase closer } closer with
        halike | ⟨hhidden, hafter⟩
      · exact .inl ⟨halike.1, halike.2, halike.3, halike.4⟩
      · have hidle := h.idle_of_srvstate hs (by rw [hhidden]; exact ⟨nofun, nofun, nofun⟩)
        exact .inr ⟨hidle, hafter ⟨hidle.conn, hidle.remoteport, hidle.srvstate⟩⟩
    · exact .inl ⟨rfl, rfl, rfl, rfl⟩
  | poll port room =>
    dsimp only [Endpoint.call]
    split
    · exact h.nothing rfl rfl
    next s hfind =>
      have hs := Endpoint.service?_of_find hfind
      cases hc : s.conn with
      | none =>
        have hidle := h.idle side port s hs hc
        have hopening : s.srvstate = .opening → s.pollTerminate ∨ s.pollRemove → room = false := by
          intro hstate hpoll
          have hunsent : s.unsent := Service.unsent_iff.2 ⟨hc, .inl hstate⟩
          have hclosed : room = false ∨ s.pollTerminate = false ∧ s.pollRemove = false := by
            simpa [opensFirst, hfind, hunsent] using hfirst
          refine hclosed.resolve_right fun ⟨hterminate, hremove⟩ => ?_
          simp [hterminate, hremove] at hpoll
        obtain ⟨hmsgs, hnew, hlocal⟩ := Service.pollService_idle hidle room hopening
        exact h.replace hs rfl hmsgs (.inr ⟨hidle, hnew, hlocal⟩)
      | some c =>
        have hstate : s.srvstate = .opening ∨ s.srvstate = .open ∨ s.srvstate = .closesent := by
          rcases h.connected hs hc with ⟨hstate, -⟩ | ⟨hstate, -⟩ | hstate
          · exact .inl hstate
          · exact .inr (.inl hstate)
          · exact .inr (.inr hstate)
        rcases Service.pollService_connected hstate room with ⟨hmsgs, halike⟩ |
          ⟨hne, hmsgs, halike⟩
        · exact h.replace hs rfl hmsgs (.inl halike)
        · refine h.close hs rfl hmsgs hc ?_ halike
          exact hstate.imp id fun hstate => hstate.resolve_right hne
  | unlockService port =>
    dsimp only [Endpoint.call]
    split
    next s hs =>
      split
      next hfree =>
        have hidle := h.idle_of_srvstate hs (by rw [hfree]; exact ⟨nofun, nofun, nofun⟩)
        refine h.idle_change (taken_nil.moved rfl (.inl (Endpoint.lt_of_service? hs))
          (h.size side)) (fun t ht => ?_) (fun t ht => absurd ht (Option.not_mem_none t))
        rw [← Option.some.inj (hs.symm.trans ht)]
        exact hidle.conn
      · exact h.nothing rfl rfl
    · exact h.nothing rfl rfl

end Handshake
