import DistributedChat.Cluster.Multicast

/-!
# Broadcasts

A broadcast goes to the authenticated sessions of its server and, as an
`S2S_ROUTE_MSG` of two fields, to all peers.  The same packet type carries
private messages, with three fields, and the payload of a broadcast is whatever
bytes the client sent.  So a broadcast is what it should be, on every server of
a mesh, exactly when its payload has no NUL (`broadcasts_true_iff`).
-/

namespace DistributedChat

open ChatServer

/-- No session is listed twice. -/
theorem ConnectionManager.Ok.nodup_getAllSessions {m : ConnectionManager} (h : m.Ok) :
    m.getAllSessions.Nodup := by
  have hkeys : m.getAllSessions.map m.getHandle = m.sessionsBySocket.entries.map Sigma.fst := by
    rw [ConnectionManager.getAllSessions, Table.values, List.map_map]
    refine List.map_congr_left fun e he => ?_
    exact h.handle_eq (Table.lookup_eq_some_iff.mpr he)
  have hnodup : (m.getAllSessions.map m.getHandle).Nodup := hkeys ▸ m.sessionsBySocket.nodupKeys
  exact hnodup.of_map

namespace ChatServer

section

variable {s : ChatServer} {k t : ConnRef}

theorem mem_authenticatedSessions :
    t ∈ s.authenticatedSessions ↔ s.connManager.Live t ∧ s.Authenticated t :=
  List.mem_filter

theorem count_authenticatedSessions (h : s.connManager.Ok) (t : ConnRef) :
    s.authenticatedSessions.count t =
      if s.connManager.Live t ∧ s.Authenticated t then 1 else 0 := by
  have hnodup : s.authenticatedSessions.Nodup := h.nodup_getAllSessions.filter _
  split
  next ht => exact List.count_eq_one_of_mem hnodup (mem_authenticatedSessions.mpr ht)
  next ht => exact List.count_eq_zero_of_not_mem (mt mem_authenticatedSessions.mp ht)

end

end ChatServer

namespace Cluster

/-- Every authenticated session was sent one `MSG_BROADCAST`, with the name and
the payload, and none a `MSG_PRIVATE`, because of the next action of `c`. -/
def BroadcastsTrue (c : Cluster) (name payload : Bytes) (log : List Event) : Prop :=
  (∀ b ∈ c.ids, ∀ t, (c.server b).connManager.Live t → (c.server b).Authenticated t →
    ∃ pkt, (sentTo log b t c.seq).filter (·.type = .msgBroadcast) = [pkt] ∧
      unpack pkt.payload = [name, payload]) ∧
    ∀ b t, ∀ pkt ∈ sentTo log b t c.seq, pkt.type ≠ .msgPrivate

section

variable {c c' : Cluster} {R : Bytes → Prop} {b : Int} {k : ConnRef}

/-- Reading frames logs nobody in or out. -/
theorem Frame.count_authenticatedSessions {q : Int} {s' : ChatServer} {ps : List Int}
    {p out : RawPacket} (hc : c.Traffic R) (hfar : c.far b k ≠ none)
    (hf : Frame c b k q p s' ps out) (t : ConnRef) :
    s'.authenticatedSessions.count t = (c.server b).authenticatedSessions.count t := by
  obtain ⟨⟨y, j⟩, hbj⟩ := Option.ne_none_iff_exists'.mp hfar
  have hsane := hc.sane b (hc.far_ids hbj).1
  have hiff : s'.connManager.Live t ∧ s'.Authenticated t ↔
      (c.server b).connManager.Live t ∧ (c.server b).Authenticated t := by
    cases hf with
    | ignored => exact Iff.rfl
    | peer hp hl =>
        simp only [Authenticated, received_connManager]
        exact Iff.rfl
    | handshake hk ht hself hp =>
        -- the session that becomes a link has not logged in
        have hauth := (ClientStep.promote (s := c.server b) q ht hself p).authenticated (j := t)
          (k := k)
        rw [live_promoted hsane.ok hk]
        constructor
        · intro h
          refine ⟨h.1.1, (hauth.2 h.2).resolve_right fun hl => ?_⟩
          rw [ht] at hl
          cases hl.2
        · intro h
          exact ⟨⟨h.1, fun he => hc.anonymous hfar (he ▸ h.2)⟩, hauth.1 h.2⟩
  rw [ChatServer.count_authenticatedSessions (hf.reads.sane hsane).ok,
    ChatServer.count_authenticatedSessions hsane.ok]
  exact if_congr hiff rfl rfl

end

/-! ## The log of a run -/

section

variable {c c' : Cluster} {as : List Action}

theorem log_prefix (hs : c.Sound) (hrun : exec step c as = some c') : c.log <+: c'.log := by
  have hall : c'.Sound ∧ c.log <+: c'.log := by
    refine exec_invariant (I := fun d => d.Sound ∧ c.log <+: d.log) ?_
      ⟨hs, List.prefix_refl _⟩ hrun
    intro d act d' hi hstep
    obtain ⟨x, ps, out, hm⟩ := step_move hi.1 hstep
    exact ⟨hm.sound hi.1, hi.2.trans (hm.log ▸ List.prefix_append _ _)⟩
  exact hall.2

end

/-- Any run of servers that have just started may lead to the mesh `c`, in which
client `k` of server `a` is logged in and sends a broadcast.  Once no frame of it
is on its way, the broadcast was what it should be exactly when its payload has
no NUL. -/
theorem broadcasts_true_iff (ids : List Int) (as ds : List Action) (c c₁ c₂ : Cluster) (a : Int)
    (k : ConnRef) (payload : Bytes) (hids : ∀ a ∈ ids, IsInt a)
    (hrun : exec step (start ids) as = some c) (hmesh : c.Meshed)
    (hk : (c.server a).connManager.Live k) (hauth : (c.server a).Authenticated k)
    (hstep : c.step (.client a (.packet k ⟨.msgBroadcast, payload⟩)) = some c₁)
    (hds : ∀ act ∈ ds, Delivery act) (hrun₂ : exec step c₁ ds = some c₂)
    (hdone : c₂.Settled c.seq) :
    c.BroadcastsTrue ((c.server a).nameOf k) payload c₂.log ↔ NulFree payload := by
  have hc := traffic_of_exec hids hrun
  obtain ⟨ha, -⟩ := mem_of_clientStep hstep
  have hsane := hc.sane a ha
  have hid := hc.serverId a ha
  let name := (c.server a).nameOf k
  let stop : Int → ConnRef := fun b => ((c.server b).connManager.linkSocket a).getD 0
  have hlinked : ∀ b ∈ (c.server a).connManager.getAllPeerNodes, ∃ i, c.Linked a i b (stop b) := by
    intro b hb
    obtain ⟨hbin, hne⟩ := (hc.peers a ha b).mp hb
    obtain ⟨i, i', hi, hi', hfar⟩ := hmesh a ha b hbin hne.symm
    exact ⟨i, hi, by simp [stop, hi'], by simp [stop, hi', hfar]⟩
  have hout : (readPacket k ⟨.msgBroadcast, payload⟩).run (c.server a) = ⟨(), c.server a,
      ((c.server a).authenticatedSessions.map fun t =>
          .toSession t ⟨.msgBroadcast, pack [name, payload]⟩) ++
        (c.server a).frames (c.server a).connManager.getAllPeerNodes
          ⟨.s2sRouteMsg, pack [name, payload]⟩⟩ := by
    rw [run_readPacket_of_live hk,
      run_handleClientPacket_of_authenticated hauth (Or.inr ⟨rfl, rfl⟩),
      run_handleBroadcastMsg (linksGood_of_usable hsane.usable)]
  obtain ⟨hc₁, hS⟩ := spread_of_run hc hstep (namesRoom_true _) hk
    (.broadcast rfl hauth) hout hlinked
  constructor
  · intro htrue
    -- the sender's own session was sent the payload as it is
    obtain ⟨pkt, hpkt, hunpack⟩ := htrue.1 a ha k hk hauth
    obtain ⟨es, hes⟩ := log_prefix hc₁.toSound hrun₂
    have hself : a ∉ (c.server a).connManager.getAllPeerNodes :=
      fun hp => ((hc.peers a ha a).mp hp).2 rfl
    have hfirst := (hS.others a hself).1 k
    rw [if_pos rfl, ChatServer.count_authenticatedSessions hsane.ok, if_pos ⟨hk, hauth⟩] at hfirst
    rw [← hes, sentTo_append, hfirst, List.filter_append] at hpkt
    obtain ⟨rfl, -⟩ := List.cons.inj hpkt
    exact (unpack_pack_pair_iff (hsane.ok.nulFree_username k)).mp hunpack
  · intro hfree
    have hfields : unpack (pack [name, payload]) = [name, payload] :=
      (unpack_pack_pair_iff (hsane.ok.nulFree_username k)).mpr hfree
    obtain ⟨hc₂, hS₂⟩ := hS.deliveries hc₁ hrun₂ hds
      (fun _ _ => out_handleServerPacket_routeMsg_pair hfields) (by simp)
      fun hd _ _ _ _ _ _ _ hfar hf => Frame.count_authenticatedSessions hd hfar hf
    have hall := hS₂.finished (hdone.inbox hc₂)
    refine ⟨fun b hb t hlive hlogin => ⟨⟨.msgBroadcast, pack [name, payload]⟩, ?_, hfields⟩,
      fun b t pkt hpkt => ?_⟩
    · have hto : b ∈ (c.server a).connManager.getAllPeerNodes ∨ b = a := by
        by_cases hba : b = a
        · exact Or.inr hba
        · exact Or.inl ((hc.peers a ha b).mpr ⟨hb, hba⟩)
      rw [(hall b).1, if_pos hto,
        ChatServer.count_authenticatedSessions (hc.sane b hb).ok, if_pos ⟨hlive, hlogin⟩]
      rfl
    · rw [(hall b).1] at hpkt
      split at hpkt
      · rw [List.eq_of_mem_replicate hpkt]
        exact PacketType.noConfusion
      · exact absurd hpkt List.not_mem_nil

/-- Ann logs in on server 1 and Bob on server 2, which are linked. -/
def logins : List Action :=
  [.dial 1 2 4 4, .deliver 2 0, .client 1 (.connect 5), .client 1 (.packet 1 ⟨.login, ascii "ann"⟩),
    .deliver 2 0, .client 2 (.connect 5), .client 2 (.packet 1 ⟨.login, ascii "bob"⟩),
    .deliver 1 0]

theorem broadcasts_true_iff_hi :
    ∃ c c₁ c₂, exec step (start [1, 2]) logins = some c ∧
      c.step (.client 2 (.packet 1 ⟨.msgBroadcast, ascii "hi"⟩)) = some c₁ ∧
      exec step c₁ [.deliver 1 0] = some c₂ ∧
      (c.BroadcastsTrue ((c.server 2).nameOf 1) (ascii "hi") c₂.log ↔ NulFree (ascii "hi")) := by
  have hrun : (exec step (start [1, 2]) logins).any fun c =>
      (c.Meshed ∧ (c.server 2).connManager.Live 1 ∧ (c.server 2).Authenticated 1) ∧
        (c.step (.client 2 (.packet 1 ⟨.msgBroadcast, ascii "hi"⟩))).any fun c₁ =>
          (exec step c₁ [.deliver 1 0]).any fun c₂ => c₂.Settled c.seq := by
    decide +kernel
  obtain ⟨c, hc, h⟩ := (Option.any_eq_true ..).mp hrun
  obtain ⟨⟨hm, hk, ha⟩, h⟩ := of_decide_eq_true h
  obtain ⟨c₁, hc₁, h⟩ := (Option.any_eq_true ..).mp h
  obtain ⟨c₂, hc₂, hd⟩ := (Option.any_eq_true ..).mp h
  exact ⟨c, c₁, c₂, hc, hc₁, hc₂, broadcasts_true_iff [1, 2] logins [.deliver 1 0] c c₁ c₂ 2 1
    (ascii "hi") (by decide) hc hm hk ha hc₁ (by decide) hc₂ (of_decide_eq_true hd)⟩

/-- Bob's broadcast `ann NUL hi` reaches server 1 as three fields, and Ann is
sent it as a private message. -/
theorem nul_breaks_broadcast :
    ∃ c c₁ c₂, exec step (start [1, 2]) logins = some c ∧ c.Meshed ∧
      (c.server 2).connManager.Live 1 ∧ (c.server 2).Authenticated 1 ∧
      c.step (.client 2 (.packet 1 ⟨.msgBroadcast, ascii "ann" ++ nul :: ascii "hi"⟩)) = some c₁ ∧
      exec step c₁ [.deliver 1 0] = some c₂ ∧ c₂.Quiet ∧
      ¬ c.BroadcastsTrue ((c.server 2).nameOf 1) (ascii "ann" ++ nul :: ascii "hi") c₂.log := by
  have hrun : (exec step (start [1, 2]) logins).any fun c =>
      (c.Meshed ∧ (c.server 2).connManager.Live 1 ∧ (c.server 2).Authenticated 1) ∧
        (c.step (.client 2 (.packet 1 ⟨.msgBroadcast, ascii "ann" ++ nul :: ascii "hi"⟩))).any
          fun c₁ => (exec step c₁ [.deliver 1 0]).any fun c₂ => c₂.Quiet ∧
            ⟨.msgPrivate, pack [ascii "bob", ascii "hi"]⟩ ∈ sentTo c₂.log 1 1 c.seq := by
    decide +kernel
  obtain ⟨c, hc, h⟩ := (Option.any_eq_true ..).mp hrun
  obtain ⟨⟨hm, hk, ha⟩, h⟩ := of_decide_eq_true h
  obtain ⟨c₁, hc₁, h⟩ := (Option.any_eq_true ..).mp h
  obtain ⟨c₂, hc₂, h⟩ := (Option.any_eq_true ..).mp h
  obtain ⟨hq, hsent⟩ := of_decide_eq_true h
  exact ⟨c, c₁, c₂, hc, hm, hk, ha, hc₁, hc₂, hq, fun htrue => htrue.2 1 1 _ hsent rfl⟩

end Cluster

end DistributedChat
