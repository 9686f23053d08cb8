import DistributedChat.Server.Clients
import DistributedChat.Server.Outputs

/-!
# A server whose sockets work

While no socket of the server is broken (`Usable`) a round of sends changes
nothing and every frame goes out, so a program of the server amounts to one
update and one round of frames (`Performs`).  Every update the server makes
keeps its sockets usable.
-/

namespace DistributedChat

namespace ConnectionManager

/-- The sockets of sessions and of links take frames. -/
def Usable (m : ConnectionManager) : Prop :=
  ∀ k, (m.Live k ∨ ∃ p, (m.nodes p).socket = some k) → m.canSend k = true

section

variable {m m' : ConnectionManager} {k : ConnRef}

theorem Usable.of_le (h : m.Usable) (hs : m'.sockets = m.sockets)
    (hle : ∀ k, (m'.Live k ∨ ∃ p, (m'.nodes p).socket = some k) →
      m.Live k ∨ ∃ p, (m.nodes p).socket = some k) : m'.Usable := by
  intro k hk
  rw [canSend, getHandle, hs]
  exact h k (hle k hk)

theorem Usable.removeSession (h : m.Usable) (hok : m.Ok) (hk : m.Live k) :
    (m.removeSession (m.getHandle k)).Usable := by
  refine h.of_le (sockets_removeSession ..) fun j hj => ?_
  rw [hok.live_removeSession hk, nodes_removeSession] at hj
  exact hj.imp And.left id

/-- A socket that takes frames may become a link. -/
theorem Usable.linked (h : m.Usable) {p : Int} (hp : p ∈ m.peerNodes) (hk : m.canSend k = true)
    (now : Nat) : (m.linked p k now).Usable := by
  obtain ⟨hsame, hsockets⟩ := sameSessions_linked m p k now
  intro j hj
  rw [canSend, getHandle, hsockets]
  cases hj with
  | inl hj => exact h j (Or.inl ((hsame.live j).mp hj))
  | inr hj =>
      obtain ⟨q, hq⟩ := hj
      rw [nodes_linked m hp] at hq
      split at hq
      · exact Option.some.inj hq ▸ hk
      · exact h j (Or.inr ⟨q, hq⟩)

theorem Usable.unlinked (h : m.Usable) (hok : m.Ok) {p : Int} (hp : p ∈ m.peerNodes) (now : Nat) :
    (m.unlinked p now).Usable := by
  intro j hj
  have hsame := sameSessions_unlinked m p now
  have hne : (m.nodes p).socket ≠ some j := by
    intro he
    cases hj with
    | inl hj => exact hok.link_dead he ((hsame.live j).mp hj)
    | inr hj =>
        obtain ⟨q, hq⟩ := hj
        rw [nodes_unlinked m hp] at hq
        split at hq
        · cases hq
        next hqp => exact hqp (hok.link_inj hq he)
  rw [canSend, getHandle, sockets_unlinked m now hne]
  refine h j (hj.imp (hsame.live j).mp fun hj => ?_)
  obtain ⟨q, hq⟩ := hj
  rw [nodes_unlinked m hp] at hq
  split at hq
  · cases hq
  · exact ⟨q, hq⟩

/-- A new socket on a valid handle takes frames, and the others are as before. -/
theorem canSend_newSocket {handle : SOCKET} (hh : handle ≠ invalidSocket) (j : ConnRef) :
    (m.newSocket handle).canSend j = true ↔ j = m.nextConn ∨ m.canSend j = true := by
  rw [canSend, getHandle, sockets_newSocket]
  by_cases hj : j = m.nextConn
  · simp [hj, hh]
  · simp [hj, canSend, getHandle]

theorem Usable.accepted (h : m.Usable) {handle : SOCKET} (hf : m.FreeHandle handle) :
    (m.accepted handle).Usable := by
  intro j hj
  refine (canSend_newSocket hf.1 j).mpr ?_
  cases hj with
  | inl hj => exact ((live_accepted hf).mp hj).imp id fun hj => h j (Or.inl hj)
  | inr hj => exact Or.inr (h j (Or.inr hj))

theorem Usable.updateHeartbeat (h : m.Usable) (p : Int) (now : Nat) :
    (m.updateHeartbeat p now).Usable := by
  refine h.of_le rfl fun j hj => hj.imp id fun hj => ?_
  obtain ⟨q, hq⟩ := hj
  rw [socket_updateHeartbeat] at hq
  exact ⟨q, hq⟩

end

end ConnectionManager

namespace ChatServer

open Prog (observe update each)

section

variable {s s' : ChatServer} {k : ConnRef} {pkt out : RawPacket} {ps : List Int}

theorem linksGood_of_usable (h : s.connManager.Usable) : s.LinksGood := by
  intro p hp k hk
  rw [ConnectionManager.linkSocket] at hk
  split at hk
  · exact h k (Or.inr ⟨p, hk⟩)
  · cases hk

/-- Handling a packet of a session keeps the sockets usable. -/
theorem ClientStep.usable (hs : ClientStep s k pkt s' ps out) (h : s.connManager.Usable)
    (hok : s.connManager.Ok) (hk : s.connManager.Live k) : s'.connManager.Usable := by
  cases hs with
  | promote p ht hp =>
      have hrem : (s.removed k).connManager.Usable := h.removeSession hok hk
      rw [promoted]
      split
      next hpeer =>
        have hsend : (s.removed k).connManager.canSend k = true := by
          rw [removed, onConn_connManager, ConnectionManager.canSend, ConnectionManager.getHandle,
            ConnectionManager.sockets_removeSession]
          exact h k (Or.inl hk)
        refine hrem.linked ?_ hsend _
        rw [removed, onConn_connManager, ConnectionManager.peerNodes_removeSession]
        exact hpeer
      · exact hrem
  | _ => exact h.of_le rfl fun j hj => hj

/-- The peers a packet is sent to are peers, each once. -/
theorem ClientStep.targets (hs : ClientStep s k pkt s' ps out) :
    ps.Nodup ∧ ∀ p ∈ ps, p ∈ s'.connManager.peerNodes := by
  rw [hs.same.2]
  have hall : s.connManager.getAllPeerNodes.Nodup ∧
      ∀ p ∈ s.connManager.getAllPeerNodes, p ∈ s.connManager.peerNodes :=
    ⟨s.connManager.peerNodes.nodup, fun p hp => hp⟩
  have hnone : ([] : List Int).Nodup ∧ ∀ p ∈ ([] : List Int), p ∈ s.connManager.peerNodes :=
    ⟨List.nodup_nil, fun p hp => absurd hp List.not_mem_nil⟩
  cases hs with
  | idle => exact hnone
  | login => exact hall
  | firstJoin => exact hall
  | join => exact hnone
  | lastLeave => exact hall
  | leave => exact hnone
  | routePrivate p receiver text ht ha hp =>
      exact ⟨List.nodup_singleton p, fun q hq => List.mem_singleton.mp hq ▸ hp⟩
  | routeRoom r text fields ht hu ha hj =>
      refine ⟨(s.roomManager.nodup_getRemoteServers r).filter _, fun p hp => ?_⟩
      exact of_decide_eq_true (List.mem_filter.mp hp).2
  | broadcast => exact hall
  | promote => exact hnone

/-! ## Programs -/

/-- Run alone, the program takes `s` to `s'` and puts the packet on the links of
the peers listed. -/
structure Performs (prog : ServerProg Unit) (s s' : ChatServer) (ps : List Int)
    (pkt : RawPacket) : Prop where
  state : (prog.run s).state = s'
  frames : framesOf (prog.run s).out = s'.frames ps pkt
  nodup : ps.Nodup
  peers : ∀ p ∈ ps, p ∈ s'.connManager.peerNodes

theorem Amounts.performs {prog : ServerProg Unit} (h : Amounts prog s s' ps pkt)
    (hu : s'.connManager.Usable) (hn : ps.Nodup) (hp : ∀ p ∈ ps, p ∈ s'.connManager.peerNodes) :
    Performs prog s s' ps pkt :=
  ⟨h.state.trans (dropBroken_eq_self (linksGood_of_usable hu) hp),
    h.frames (linksGood_of_usable hu), hn, hp⟩

theorem Performs.local {prog : ServerProg Unit} (pkt : RawPacket) (hs : (prog.run s).state = s')
    (ho : framesOf (prog.run s).out = []) : Performs prog s s' [] pkt :=
  ⟨hs, ho, List.nodup_nil, fun _ hp => absurd hp List.not_mem_nil⟩

theorem readPacket_session (hok : s.connManager.Ok) (hu : s.connManager.Usable)
    (hk : s.connManager.Live k) (pkt : RawPacket) :
    ∃ s' ps out, ClientStep s k pkt s' ps out ∧ Performs (readPacket k pkt) s s' ps out := by
  obtain ⟨s', ps, out, hs, hrun⟩ := handleClientPacket_step s k pkt
  have hperf := hrun.performs (hs.usable hu hok hk) hs.targets.1 hs.targets.2
  refine ⟨s', ps, out, hs, ?_⟩
  exact ⟨run_readPacket_of_live hk pkt ▸ hperf.state, run_readPacket_of_live hk pkt ▸ hperf.frames,
    hperf.nodup, hperf.peers⟩

/-- The listener polls the socket: a session is on it or a connected peer. -/
def reads (s : ChatServer) (k : ConnRef) : Bool :=
  s.connManager.isLive k || (s.connManager.peerOn k).isSome

theorem peerOn_eq_some {p : Int} (h : s.connManager.peerOn k = some p) :
    p ∈ s.connManager.peerNodes ∧ s.connManager.linkSocket p = some k := by
  refine ⟨List.mem_of_find?_eq_some h, ?_⟩
  simpa using List.find?_some h

theorem peerOn_isSome {p : Int} (hp : p ∈ s.connManager.peerNodes)
    (hl : s.connManager.linkSocket p = some k) : (s.connManager.peerOn k).isSome = true := by
  rw [ConnectionManager.peerOn, List.find?_isSome]
  exact ⟨p, hp, by rw [hl, beq_self_eq_true]⟩

/-- A socket is polled for a session or for the peer linked over it. -/
theorem reads_eq_true : s.reads k = true ↔ s.connManager.Live k ∨
    ∃ p ∈ s.connManager.peerNodes, s.connManager.linkSocket p = some k := by
  rw [reads, Bool.or_eq_true, ConnectionManager.isLive_eq_true]
  refine or_congr_right ⟨fun h => ?_, fun h => ?_⟩
  · obtain ⟨p, hp⟩ := Option.isSome_iff_exists.mp h
    exact ⟨p, peerOn_eq_some hp⟩
  · obtain ⟨p, hp, hl⟩ := h
    exact peerOn_isSome hp hl

/-- The socket of a link is not a session's, and no other peer is linked over it. -/
theorem peerOn_of_linkSocket (hok : s.connManager.Ok) {p : Int} (hp : p ∈ s.connManager.peerNodes)
    (hl : s.connManager.linkSocket p = some k) :
    ¬ s.connManager.Live k ∧ s.connManager.peerOn k = some p := by
  rw [hok.linkSocket_eq] at hl
  refine ⟨hok.link_dead hl, ?_⟩
  obtain ⟨q, hq⟩ := Option.isSome_iff_exists.mp
    (peerOn_isSome hp ((hok.linkSocket_eq p).trans hl))
  have hlq := (peerOn_eq_some hq).2
  rw [hok.linkSocket_eq] at hlq
  rw [hq, hok.link_inj hlq hl]

/-- The peers a packet of peer `p` is answered to. -/
def answered (p : Int) (pkt : RawPacket) : List Int := if pkt.type = .s2sHeartbeat then [p] else []

theorem readPacket_peer (hok : s.connManager.Ok) (hu : s.connManager.Usable) {p : Int}
    (hp : p ∈ s.connManager.peerNodes) (hl : s.connManager.linkSocket p = some k)
    (pkt : RawPacket) :
    (readPacket k pkt).run s = (handleServerPacket p pkt).run s ∧
      Performs (readPacket k pkt) s (s.received p pkt) (answered p pkt)
        ⟨.s2sHeartbeatAck, toString s.serverId⟩ := by
  obtain ⟨hdead, hpeer⟩ := peerOn_of_linkSocket hok hp hl
  have hrun : (readPacket k pkt).run s = (handleServerPacket p pkt).run s := by
    simp [readPacket, hdead, hpeer]
  have hconn := received_connManager s p pkt
  refine ⟨hrun, ?_, ?_, ?_, ?_⟩
  · rw [hrun, state_handleServerPacket]
  · rw [hrun, frames_handleServerPacket, answered]
    split
    · have hlink : (s.received p pkt).connManager.linkSocket p = some k := by
        rw [(received_connManager s p pkt ▸ hok.updateHeartbeat p s.now :
          (s.received p pkt).connManager.Ok).linkSocket_eq, hconn,
          ConnectionManager.socket_updateHeartbeat, ← hok.linkSocket_eq, hl]
      have hsend := linksGood_of_usable hu p hp k hl
      rw [hok.linkSocket_eq] at hl
      simp [frames, hlink, acks, hl, hsend, framesOf, Effect.isFrame]
    · rfl
  · rw [answered]
    split
    · exact List.nodup_singleton p
    · exact List.nodup_nil
  · intro q hq
    rw [hconn]
    rw [answered] at hq
    split at hq
    · exact List.mem_singleton.mp hq ▸ hp
    · exact absurd hq List.not_mem_nil

/-! ### Reading fails -/

theorem readFailure_session (hok : s.connManager.Ok) (hu : s.connManager.Usable)
    (hk : s.connManager.Live k) (hn : s.nameOf k ≠ []) :
    Performs (readFailure k) s ((s.loggedOut k).removed k) s.connManager.getAllPeerNodes
      ⟨.s2sReplicateUser, replicationPayload (s.nameOf k) s.serverId false⟩ := by
  have hself : (s.loggedOut k).dropBroken s.connManager.getAllPeerNodes = s.loggedOut k :=
    dropBroken_eq_self (s := s.loggedOut k) (linksGood_of_usable hu) fun p hp => hp
  have hpeers : ((s.loggedOut k).removed k).connManager.peerNodes = s.connManager.peerNodes :=
    ConnectionManager.peerNodes_removeSession ..
  refine ⟨?_, ?_, s.connManager.peerNodes.nodup, fun p hp => hpeers ▸ hp⟩
  · rw [run_readFailure_of_live hk, state_clientDisconnect_of_live hok hk, if_neg hn, hself]
  · rw [run_readFailure_of_live hk, frames_clientDisconnect k (linksGood_of_usable hu), if_neg hn]
    simp only [frames, ConnectionManager.linkSocket, removed, loggedOut, onConn_connManager,
      onUsers_connManager, ConnectionManager.nodes_removeSession]

theorem readFailure_newSession (hok : s.connManager.Ok) (hu : s.connManager.Usable)
    (hk : s.connManager.Live k) (hn : s.nameOf k = []) (pkt : RawPacket) :
    Performs (readFailure k) s (s.removed k) [] pkt := by
  refine .local pkt ?_ ?_
  · rw [run_readFailure_of_live hk, state_clientDisconnect_of_live hok hk, if_pos hn]
  · rw [run_readFailure_of_live hk, frames_clientDisconnect k (linksGood_of_usable hu), if_pos hn]

theorem readFailure_peer (hok : s.connManager.Ok) {p : Int} (hp : p ∈ s.connManager.peerNodes)
    (hl : s.connManager.linkSocket p = some k) (pkt : RawPacket) :
    Performs (readFailure k) s (s.purgePeer p) [] pkt := by
  obtain ⟨hdead, hpeer⟩ := peerOn_of_linkSocket hok hp hl
  have hrun : (readFailure k).run s = (handlePeerDisconnect p).run s := by
    simp [readFailure, hdead, hpeer]
  have hc : (s.connManager.nodes p).isConnected = true := by
    rw [ConnectionManager.linkSocket] at hl
    split at hl
    next hc => exact hc
    · cases hl
  refine .local pkt ?_ ?_
  · rw [hrun, state_handlePeerDisconnect, if_pos ⟨hp, hc⟩]
  · rw [hrun, framesOf, List.filter_eq_nil_iff]
    intro e he
    cases e with
    | toSession j q => exact Bool.false_ne_true
    | toPeer q sock r =>
        -- the function spreads no packet at all, so any two packets would be the one it spreads
        have h1 : r = ⟨.login, []⟩ := emits_handlePeerDisconnect p _ s _ he
        have h2 : r = ⟨.loginResp, []⟩ := emits_handlePeerDisconnect p _ s _ he
        rw [h1] at h2
        cases h2

/-! ### The loops -/

theorem heartbeatRound_performs (hu : s.connManager.Usable)
    (ht : ∀ p ∈ s.connManager.getAllPeerNodes, s.Timely p) :
    Performs heartbeatRound s s s.connManager.getAllPeerNodes
      ⟨.s2sHeartbeat, toString s.serverId⟩ := by
  have hrun := run_heartbeatRound (linksGood_of_usable hu) fun p hp => ht p hp
  refine ⟨by rw [hrun], ?_, s.connManager.peerNodes.nodup, fun p hp => hp⟩
  rw [hrun]
  exact framesOf_frames ..

/-- The connector's new link to peer `p`. -/
def dialed (s : ChatServer) (p : Int) (handle : SOCKET) : ChatServer :=
  (s.onConn (·.newSocket handle)).linked p s.connManager.nextConn

theorem connectPeer_performs {p : Int} {handle : SOCKET} (hp : p ∈ s.connManager.peerNodes)
    (hc : (s.connManager.nodes p).isConnected = false) (hh : handle ≠ invalidSocket) :
    Performs (connectPeer p handle) s (s.dialed p handle) [p]
      ⟨.s2sConnect, toString s.serverId⟩ := by
  have hrun := run_connectPeer hp hc hh
  refine ⟨by rw [hrun]; rfl, ?_, List.nodup_singleton p, fun q hq => ?_⟩
  · have hnodes := ConnectionManager.nodes_linked (k := s.connManager.nextConn)
      (s.connManager.newSocket handle) hp s.now p
    rw [if_pos rfl] at hnodes
    rw [hrun]
    simp [framesOf, Effect.isFrame, frames, ConnectionManager.linkSocket, dialed, linked, hnodes]
  · have hpeers : (s.dialed p handle).connManager.peerNodes = s.connManager.peerNodes :=
      (ConnectionManager.sameSessions_linked ..).1.peers
    rw [List.mem_singleton.mp hq, hpeers]
    exact hp

end

/-! ## Updates keep the sockets usable -/

/-- The objects are in order and the sockets work. -/
structure Sane (s : ChatServer) : Prop where
  ok : s.connManager.Ok
  usable : s.connManager.Usable

section

variable {s s' : ChatServer} {k : ConnRef} {pkt out : RawPacket} {ps : List Int} {p : Int}
  {handle : SOCKET}

theorem Sane.accepted (h : s.Sane) (hf : s.connManager.FreeHandle handle) :
    (s.onConn (·.accepted handle)).Sane :=
  ⟨h.ok.accepted hf, h.usable.accepted hf⟩

theorem ClientStep.sane (hs : ClientStep s k pkt s' ps out) (h : s.Sane)
    (hk : s.connManager.Live k) : s'.Sane :=
  ⟨hs.ok h.ok hk, hs.usable h.usable h.ok hk⟩

theorem Sane.removed (h : s.Sane) (hk : s.connManager.Live k) : (s.removed k).Sane :=
  ⟨ok_removed h.ok hk, h.usable.removeSession h.ok hk⟩

theorem Sane.loggedOut (h : s.Sane) (k : ConnRef) : (s.loggedOut k).Sane := ⟨h.ok, h.usable⟩

theorem Sane.received (h : s.Sane) (p : Int) (pkt : RawPacket) : (s.received p pkt).Sane := by
  have hconn := received_connManager s p pkt
  exact ⟨hconn ▸ h.ok.updateHeartbeat p s.now, hconn ▸ h.usable.updateHeartbeat p s.now⟩

theorem Sane.purgePeer (h : s.Sane) (hp : p ∈ s.connManager.peerNodes) : (s.purgePeer p).Sane :=
  ⟨h.ok.unlinked hp s.now, h.usable.unlinked h.ok hp s.now⟩

theorem Sane.dialed (h : s.Sane) (hp : p ∈ s.connManager.peerNodes)
    (hf : s.connManager.FreeHandle handle) : (s.dialed p handle).Sane := by
  have hok : (s.connManager.newSocket handle).Ok := by
    refine ⟨?_, fun hk => Nat.lt_succ_of_lt (h.ok.live_lt hk),
      fun hk => Nat.lt_succ_of_lt (h.ok.link_lt hk), h.ok.link_dead, h.ok.link_inj,
      h.ok.connected_eq, ?_⟩
    · intro x j hx
      have hlt := h.ok.live_lt (ConnectionManager.live_iff.mpr ⟨x, hx⟩)
      exact (ConnectionManager.getHandle_newSocket_of_lt hlt).trans (h.ok.handle_eq hx)
    · intro j
      rw [ConnectionManager.sessions_newSocket]
      split
      · exact ⟨fun _ => rfl, Bool.noConfusion⟩
      · exact h.ok.session_ok j
  have husable : (s.connManager.newSocket handle).Usable := fun j hj =>
    (ConnectionManager.canSend_newSocket hf.1 j).mpr (Or.inr (h.usable j hj))
  refine ⟨hok.linked hp (Nat.lt_succ_self _) ?_ ?_ _, husable.linked hp ?_ _⟩
  · exact fun hl => Nat.lt_irrefl _ (h.ok.live_lt hl)
  · exact fun q hq => Nat.lt_irrefl _ (h.ok.link_lt hq)
  · exact (ConnectionManager.canSend_newSocket hf.1 _).mpr (Or.inl rfl)

/-- The server is still the same one, with the objects it had. -/
structure Keeps (s s' : ChatServer) : Prop where
  serverId : s'.serverId = s.serverId
  peers : s'.connManager.peerNodes = s.connManager.peerNodes
  next : s.connManager.nextConn ≤ s'.connManager.nextConn

theorem Keeps.refl (s : ChatServer) : Keeps s s := ⟨rfl, rfl, Nat.le_refl _⟩

theorem ClientStep.keeps (hs : ClientStep s k pkt s' ps out) : Keeps s s' := by
  refine ⟨hs.same.1, hs.same.2, ?_⟩
  cases hs with
  | promote p ht hp =>
      have hrem : (s.removed k).connManager.nextConn = s.connManager.nextConn :=
        ConnectionManager.nextConn_removeSession ..
      rw [promoted]
      split
      · have hlink : ((s.removed k).linked p k).connManager.nextConn =
            (s.removed k).connManager.nextConn :=
          (ConnectionManager.sameSessions_linked ..).1.next
        rw [hlink, hrem]
      · rw [hrem]
  | _ => exact Nat.le_refl _

theorem keeps_accepted (s : ChatServer) (handle : SOCKET) :
    Keeps s (s.onConn (·.accepted handle)) :=
  ⟨rfl, rfl, Nat.le_succ _⟩

theorem keeps_removed (s : ChatServer) (k : ConnRef) : Keeps s (s.removed k) :=
  ⟨rfl, ConnectionManager.peerNodes_removeSession ..,
    Nat.le_of_eq (ConnectionManager.nextConn_removeSession ..).symm⟩

theorem keeps_received (s : ChatServer) (p : Int) (pkt : RawPacket) :
    Keeps s (s.received p pkt) := by
  rw [ChatServer.received]
  split <;> exact ⟨rfl, rfl, Nat.le_refl _⟩

theorem keeps_purgePeer (s : ChatServer) (p : Int) : Keeps s (s.purgePeer p) :=
  have hsame := ConnectionManager.sameSessions_unlinked s.connManager p s.now
  ⟨rfl, hsame.peers, Nat.le_of_eq hsame.next.symm⟩

theorem nextConn_dialed (s : ChatServer) (p : Int) (handle : SOCKET) :
    (s.dialed p handle).connManager.nextConn = s.connManager.nextConn + 1 :=
  (ConnectionManager.sameSessions_linked (s.connManager.newSocket handle) p
    s.connManager.nextConn s.now).1.next

theorem keeps_dialed (s : ChatServer) (p : Int) (handle : SOCKET) :
    Keeps s (s.dialed p handle) :=
  ⟨rfl, (ConnectionManager.sameSessions_linked (s.connManager.newSocket handle) p
    s.connManager.nextConn s.now).1.peers, by rw [nextConn_dialed]; exact Nat.le_succ _⟩

/-! ## What reading a socket does -/

/-- Reading a packet from a polled socket: the packet of a session or of a peer. -/
inductive Reads (s : ChatServer) (k : ConnRef) (pkt : RawPacket) :
    ChatServer → List Int → RawPacket → Prop where
  | session {s' : ChatServer} {ps : List Int} {out : RawPacket} (hk : s.connManager.Live k)
      (hs : ClientStep s k pkt s' ps out) : Reads s k pkt s' ps out
  | peer {p : Int} (hp : p ∈ s.connManager.peerNodes)
      (hl : s.connManager.linkSocket p = some k) :
      Reads s k pkt (s.received p pkt) (answered p pkt) ⟨.s2sHeartbeatAck, toString s.serverId⟩

/-- Failing to read from a polled socket: the end of a session or of a peer's link. -/
inductive Fails (s : ChatServer) (k : ConnRef) : ChatServer → List Int → RawPacket → Prop where
  | newSession (hk : s.connManager.Live k) (hn : s.nameOf k = []) (out : RawPacket) :
      Fails s k (s.removed k) [] out
  | session (hk : s.connManager.Live k) (hn : s.nameOf k ≠ []) :
      Fails s k ((s.loggedOut k).removed k) s.connManager.getAllPeerNodes
        ⟨.s2sReplicateUser, replicationPayload (s.nameOf k) s.serverId false⟩
  | peer {p : Int} (hp : p ∈ s.connManager.peerNodes)
      (hl : s.connManager.linkSocket p = some k) (out : RawPacket) :
      Fails s k (s.purgePeer p) [] out

theorem readPacket_reads (h : s.Sane) (hr : s.reads k = true) (pkt : RawPacket) :
    ∃ s' ps out, Reads s k pkt s' ps out ∧ Performs (readPacket k pkt) s s' ps out := by
  cases reads_eq_true.mp hr with
  | inl hk =>
      obtain ⟨s', ps, out, hs, hperf⟩ := readPacket_session h.ok h.usable hk pkt
      exact ⟨s', ps, out, .session hk hs, hperf⟩
  | inr hp =>
      obtain ⟨p, hp, hl⟩ := hp
      exact ⟨_, _, _, .peer hp hl, (readPacket_peer h.ok h.usable hp hl pkt).2⟩

theorem readFailure_fails (h : s.Sane) (hr : s.reads k = true) :
    ∃ s' ps out, Fails s k s' ps out ∧ Performs (readFailure k) s s' ps out := by
  cases reads_eq_true.mp hr with
  | inl hk =>
      by_cases hn : s.nameOf k = []
      · exact ⟨_, _, ⟨.login, []⟩, .newSession hk hn _, readFailure_newSession h.ok h.usable hk hn _⟩
      · exact ⟨_, _, _, .session hk hn, readFailure_session h.ok h.usable hk hn⟩
  | inr hp =>
      obtain ⟨p, hp, hl⟩ := hp
      exact ⟨_, _, ⟨.login, []⟩, .peer hp hl _, readFailure_peer h.ok hp hl _⟩

theorem Reads.sane (hr : Reads s k pkt s' ps out) (h : s.Sane) : s'.Sane := by
  cases hr with
  | session hk hs => exact hs.sane h hk
  | peer hp hl => exact h.received _ pkt

theorem Reads.keeps (hr : Reads s k pkt s' ps out) : Keeps s s' := by
  cases hr with
  | session hk hs => exact hs.keeps
  | peer hp hl => exact keeps_received ..

theorem Fails.sane (hf : Fails s k s' ps out) (h : s.Sane) : s'.Sane := by
  cases hf with
  | newSession hk => exact h.removed hk
  | session hk => exact (h.loggedOut k).removed hk
  | peer hp => exact h.purgePeer hp

theorem Fails.keeps (hf : Fails s k s' ps out) : Keeps s s' := by
  cases hf with
  | newSession => exact keeps_removed ..
  | session =>
      have h := keeps_removed (s.loggedOut k) k
      exact ⟨h.serverId, h.peers, h.next⟩
  | peer => exact keeps_purgePeer ..

end

end ChatServer

end DistributedChat
