import DistributedChat.Server.Links
import DistributedChat.Server.Promotions
import DistributedChat.Server.Purges
import DistributedChat.Server.Rounds

/-!
# Heartbeats

`HeartbeatLoop` disconnects every connected peer that has not been heard of for 15
seconds.  The time it compares with is kept in the node of the peer, and every
packet of the peer and every new link to it refresh it.  So a round can be read off
the history of the server: it disconnects the peers nothing was heard of in the last
15 seconds, and those whose sockets do not take the heartbeat, and no others
(`heartbeat_rounds_exact`).

A round goes through the peers one after the other, and a peer that is disconnected
on the way changes the tables the rest of the round sees.  It does not change
anything of another peer, since no two links share a socket, and `Purged` adds up
what the round has done (`purged_heartbeatRound`).
-/

namespace DistributedChat

namespace ChatServer

open Prog (observe update each)

/-! ## A round of heartbeats -/

/-- The peer is connected and nothing has been heard of it for 15 seconds. -/
def Silent (s : ChatServer) (p : Int) : Prop :=
  (s.connManager.nodes p).isConnected = true ∧
    s.now - (s.connManager.nodes p).lastHeartbeatTime ≥ 15

instance (s : ChatServer) (p : Int) : Decidable (s.Silent p) :=
  inferInstanceAs (Decidable (_ ∧ _))

/-- What a round does about a peer. -/
def heartbeatTo (now : Nat) (p : Int) : ServerProg Unit := do
  let node ← observe fun s => s.connManager.nodes p
  if node.isConnected = true then
    if now - node.lastHeartbeatTime ≥ 15 then handlePeerDisconnect p
    else
      let id ← observe serverId
      sendOrDisconnect p .s2sHeartbeat (toString id)

section

variable {s t t' : ChatServer} {p q : Int} {F G : Int → Prop}

theorem state_heartbeatTo (s : ChatServer) (p : Int) :
    ((heartbeatTo s.now p).run s).state =
      if s.Silent p then ((handlePeerDisconnect p).run s).state else s.dropIfBroken p := by
  by_cases hc : (s.connManager.nodes p).isConnected = true
  · by_cases ht : s.now - (s.connManager.nodes p).lastHeartbeatTime ≥ 15
    · rw [if_pos ⟨hc, ht⟩]
      simp [heartbeatTo, hc, ht]
    · rw [if_neg fun h => ht h.2, ← state_sendToPeer p .s2sHeartbeat (toString s.serverId)]
      simp [heartbeatTo, sendToPeer, hc, ht]
  · rw [if_neg fun h => hc h.1, dropIfBroken, ConnectionManager.linkSocket, if_neg hc]
    simp [heartbeatTo, hc]

/-- The purge of other peers leaves a peer as silent and as reachable as it was. -/
theorem Purged.lost_iff (h : Purged F s t) (hok : s.connManager.Ok) (hp : ¬ F p) :
    (t.Silent p ∨ t.Unreachable p) ↔ (s.Silent p ∨ s.Unreachable p) := by
  refine or_congr ?_ (h.unreachable_iff hok hp)
  rw [Silent, Silent, h.peers hp, h.now]

/-- The peer is disconnected if it is silent or unreachable. -/
theorem purged_heartbeatTo (hp : p ∈ s.connManager.peerNodes) (h : s.Silent p ∨ s.Unreachable p) :
    Purged (· = p) s ((heartbeatTo s.now p).run s).state := by
  rw [state_heartbeatTo]
  split
  next hsilent => exact run_handlePeerDisconnect_of_connected ⟨hp, hsilent.1⟩
  next hsilent => exact purged_dropIfBroken hp (h.resolve_left hsilent)

/-- A round purges the silent and the unreachable peers and changes nothing else. -/
theorem purged_heartbeatRound (hok : s.connManager.Ok) :
    Purged (fun p => p ∈ s.connManager.peerNodes ∧ (s.Silent p ∨ s.Unreachable p)) s
      (heartbeatRound.run s).state := by
  have hstate : (heartbeatRound.run s).state =
      s.connManager.getAllPeerNodes.foldl (fun t p => ((heartbeatTo s.now p).run t).state) s :=
    Prog.state_run_each ..
  rw [hstate]
  refine (Purged.round (L := fun p => s.Silent p ∨ s.Unreachable p) (fun h hF hp hl => ?_)
    (fun h hF hl => ?_) s.connManager.peerNodes.nodup (fun _ hp => hp) (Purged.refl s)
    fun _ _ => not_false).congr fun p => or_iff_right not_false
  · rw [← h.now]
    exact purged_heartbeatTo hp ((h.lost_iff hok hF).mpr hl)
  · have hlost := mt (h.lost_iff hok hF).mp hl
    rw [← h.now, state_heartbeatTo, if_neg fun hs => hlost (Or.inl hs)]
    exact dropIfBroken_of_reachable fun hu => hlost (Or.inr hu)

end

/-! ## The life of a server -/

/-- What happens at a server, each thing handled to its end. -/
inductive Moment where
  /-- Time goes by. -/
  | pass (now : Nat)
  /-- A connection is accepted on the handle. -/
  | accept (handle : SOCKET)
  /-- A packet is read from a polled socket and handled. -/
  | packet (k : ConnRef) (pkt : RawPacket)
  /-- A read from a polled socket fails. -/
  | failure (k : ConnRef)
  /-- The connector connects to a peer. -/
  | dial (p : Int) (handle : SOCKET)
  /-- The heartbeat loop goes round. -/
  | beat
  /-- The network takes no more frames on a socket. -/
  | cutOff (k : ConnRef)
deriving DecidableEq, Repr

def timedNext (s : ChatServer) : Moment → Option ChatServer
  | .pass now => if s.now ≤ now then some { s with now := now } else none
  | .accept handle =>
      if s.connManager.FreeHandle handle then some ((acceptConnection handle).run s).state else none
  | .packet k pkt =>
      if s.reads k = true ∧ pkt.Fits then some ((readPacket k pkt).run s).state else none
  | .failure k => if s.reads k = true then some ((readFailure k).run s).state else none
  | .dial p handle =>
      if s.connManager.FreeHandle handle then some ((connectPeer p handle).run s).state else none
  | .beat => some (heartbeatRound.run s).state
  | .cutOff k => some (s.cutOff k)

/-- The server hears of the peer: a packet arrives over the peer's link, or a new link is made by
a session that says it is the peer or by the connector. -/
def HearsFrom (s : ChatServer) (p : Int) : Moment → Prop
  | .packet k pkt => s.connManager.linkSocket p = some k ∨
      s.connManager.Live k ∧ pkt.type = .s2sConnect ∧ stoi pkt.payload = some p
  | .dial q _ => q = p ∧ (s.connManager.nodes p).isConnected = false
  | _ => False

/-- In the run from `s` the peer was heard of at a time of which `T` holds. -/
def HeardAt (s : ChatServer) (ms : List Moment) (p : Int) (T : Nat → Prop) : Prop :=
  ∃ pre m post u, ms = pre ++ m :: post ∧ exec timedNext s pre = some u ∧ u.HearsFrom p m ∧ T u.now

section

variable {s s' : ChatServer} {p q : Int} {k : ConnRef} {m : Moment}

theorem run_readPacket_of_linked (hok : s.connManager.Ok) (hq : s.connManager.peerOn k = some q)
    (pkt : RawPacket) : (readPacket k pkt).run s = (handleServerPacket q pkt).run s := by
  obtain ⟨hpeer, hl⟩ := peerOn_eq_some hq
  have hdead := (peerOn_of_linkSocket hok hpeer hl).1
  simp [readPacket, hdead, hq]

theorem run_readFailure_of_linked (hok : s.connManager.Ok) (hq : s.connManager.peerOn k = some q) :
    (readFailure k).run s = (handlePeerDisconnect q).run s := by
  obtain ⟨hpeer, hl⟩ := peerOn_eq_some hq
  have hdead := (peerOn_of_linkSocket hok hpeer hl).1
  simp [readFailure, hdead, hq]

/-- A polled socket is a session's or a peer's. -/
theorem reads_cases (hr : s.reads k = true) :
    s.connManager.Live k ∨ ∃ q, s.connManager.peerOn k = some q := by
  rw [reads, Bool.or_eq_true, ConnectionManager.isLive_eq_true] at hr
  exact hr.imp_right Option.isSome_iff_exists.mp

/-- What the connector does. -/
theorem state_connectPeer {handle : SOCKET} (hf : s.connManager.FreeHandle handle) :
    ((connectPeer p handle).run s).state =
      if p ∈ s.connManager.peerNodes ∧ (s.connManager.nodes p).isConnected = false
      then s.dialed p handle else s := by
  split
  next h =>
    rw [run_connectPeer h.1 h.2 hf.1]
    rfl
  next h => simp [connectPeer, ConnectionManager.hasPeerNode, h]

/-! ### The objects stay in order -/

theorem Ok.newSocket (h : s.connManager.Ok) (handle : SOCKET) :
    (s.connManager.newSocket handle).Ok where
  handle_eq := by
    intro x j hx
    have hlt := h.live_lt (ConnectionManager.live_iff.mpr ⟨x, hx⟩)
    exact (ConnectionManager.getHandle_newSocket_of_lt hlt).trans (h.handle_eq hx)
  live_lt := fun hk => Nat.lt_succ_of_lt (h.live_lt hk)
  link_lt := fun hk => Nat.lt_succ_of_lt (h.link_lt hk)
  link_dead := h.link_dead
  link_inj := h.link_inj
  connected_eq := h.connected_eq
  session_ok := by
    intro j
    rw [ConnectionManager.sessions_newSocket]
    split
    · exact ⟨fun _ => rfl, Bool.noConfusion⟩
    · exact h.session_ok j

theorem ok_dialed (h : s.connManager.Ok) (hp : p ∈ s.connManager.peerNodes) (handle : SOCKET) :
    (s.dialed p handle).connManager.Ok :=
  (Ok.newSocket h handle).linked hp (Nat.lt_succ_self _) (fun hl => Nat.lt_irrefl _ (h.live_lt hl))
    (fun _ hq => Nat.lt_irrefl _ (h.link_lt hq)) _

theorem ok_cutOff (h : s.connManager.Ok) (k : ConnRef) : (s.cutOff k).connManager.Ok where
  handle_eq := fun hx => (getHandle_cutOff s k _).trans (h.handle_eq hx)
  live_lt := h.live_lt
  link_lt := h.link_lt
  link_dead := h.link_dead
  link_inj := h.link_inj
  connected_eq := h.connected_eq
  session_ok := h.session_ok

theorem Purged.ok {F : Int → Prop} (h : Purged F s s') (hok : s.connManager.Ok) :
    s'.connManager.Ok := by
  have hnode {p k} (hk : (s'.connManager.nodes p).socket = some k) :
      (s.connManager.nodes p).socket = some k := by
    by_cases hp : F p
    · rw [(h.node hp).1] at hk
      cases hk
    · rw [h.peers hp] at hk
      exact hk
  refine ⟨fun hx => ?_, fun hk => ?_, fun hk => ?_, fun hp hk => ?_,
    fun hp hq => hok.link_inj (hnode hp) (hnode hq), fun p => ?_, fun k => ?_⟩
  · rename_i x k
    rw [h.sessions.bySocket] at hx
    -- a session's socket is not the link of a peer that was purged
    have hsock := h.sockets (k := k) fun p _ hp =>
      hok.link_dead hp (ConnectionManager.live_iff.mpr ⟨x, hx⟩)
    rw [ConnectionManager.getHandle, hsock]
    exact hok.handle_eq hx
  · rw [h.sessions.next]
    exact hok.live_lt ((h.sessions.live _).mp hk)
  · rw [h.sessions.next]
    exact hok.link_lt (hnode hk)
  · exact hok.link_dead (hnode hp) ((h.sessions.live _).mp hk)
  · by_cases hp : F p
    · rw [(h.node hp).1, (h.node hp).2]
      rfl
    · rw [h.peers hp]
      exact hok.connected_eq p
  · rw [h.sessions.objects]
    exact hok.session_ok k

/-- Reading from a session is an action of a client. -/
theorem clientMove_readPacket (hok : s.connManager.Ok) (hk : s.connManager.Live k)
    {pkt : RawPacket} (hfits : pkt.Fits) :
    ClientMove s (.packet k pkt) ((readPacket k pkt).run s).state :=
  clientNext_move hok (if_pos ⟨hk, hfits⟩)

theorem clientMove_readFailure (hok : s.connManager.Ok) (hk : s.connManager.Live k) :
    ClientMove s (.disconnect k) ((readFailure k).run s).state :=
  clientNext_move hok (if_pos hk)

theorem now_dropBroken (s : ChatServer) (ps : List Int) : (s.dropBroken ps).now = s.now :=
  dropBroken_induct (I := fun t => t.now = s.now) (fun _ _ ht _ _ => ht) rfl ps

theorem ClientStep.now_eq {pkt out : RawPacket} {ps : List Int}
    (h : ClientStep s k pkt s' ps out) : s'.now = s.now := by
  cases h with
  | promote q ht hq =>
      rw [promoted]
      split <;> rfl
  | _ => rfl

theorem ClientMove.now_eq {a : ClientAction} (h : ClientMove s a s') : s'.now = s.now := by
  cases h with
  | connect | disconnectNew => rfl
  | packet hk hs => exact (now_dropBroken ..).trans hs.now_eq
  | @disconnect k => exact now_dropBroken (s.loggedOut k) _

theorem now_received (s : ChatServer) (p : Int) (pkt : RawPacket) :
    (s.received p pkt).now = s.now := by
  rw [received]
  split <;> rfl

/-- A moment leaves the objects in order and the peers of the configuration, and time does not go
back. -/
structure Keeping (s s' : ChatServer) : Prop where
  ok : s'.connManager.Ok
  peers : s'.connManager.peerNodes = s.connManager.peerNodes
  later : s.now ≤ s'.now

theorem timedNext_keeping (h : s.connManager.Ok) (hn : s.timedNext m = some s') :
    Keeping s s' := by
  cases m with
  | pass now =>
      obtain ⟨hle, hs⟩ := Option.ite_none_right_eq_some.mp hn
      cases hs
      exact ⟨h, rfl, hle⟩
  | accept handle =>
      obtain ⟨hf, hs⟩ := Option.ite_none_right_eq_some.mp hn
      cases hs
      exact ⟨h.accepted hf, rfl, Nat.le_refl _⟩
  | packet k pkt =>
      obtain ⟨⟨hr, hfits⟩, hs⟩ := Option.ite_none_right_eq_some.mp hn
      cases hs
      obtain hk | ⟨q, hq⟩ := reads_cases hr
      · have hmove := clientMove_readPacket h hk hfits
        exact ⟨hmove.ok h, hmove.same.2, Nat.le_of_eq hmove.now_eq.symm⟩
      · rw [run_readPacket_of_linked h hq, state_handleServerPacket]
        have hconn := received_connManager s q pkt
        exact ⟨hconn ▸ h.updateHeartbeat q s.now, (keeps_received s q pkt).peers,
          Nat.le_of_eq (now_received s q pkt).symm⟩
  | failure k =>
      obtain ⟨hr, hs⟩ := Option.ite_none_right_eq_some.mp hn
      cases hs
      obtain hk | ⟨q, hq⟩ := reads_cases hr
      · have hmove := clientMove_readFailure h hk
        exact ⟨hmove.ok h, hmove.same.2, Nat.le_of_eq hmove.now_eq.symm⟩
      · rw [run_readFailure_of_linked h hq, state_handlePeerDisconnect]
        split
        next hp => exact ⟨h.unlinked hp.1 s.now, (keeps_purgePeer s q).peers, Nat.le_refl _⟩
        next => exact ⟨h, rfl, Nat.le_refl _⟩
  | dial p handle =>
      obtain ⟨hf, hs⟩ := Option.ite_none_right_eq_some.mp hn
      cases hs
      rw [state_connectPeer hf]
      split
      next hp => exact ⟨ok_dialed h hp.1 handle, (keeps_dialed s p handle).peers, Nat.le_refl _⟩
      next => exact ⟨h, rfl, Nat.le_refl _⟩
  | beat =>
      cases hn
      have hround := purged_heartbeatRound h
      exact ⟨hround.ok h, hround.sessions.peers, Nat.le_of_eq hround.now.symm⟩
  | cutOff k =>
      cases hn
      exact ⟨ok_cutOff h k, rfl, Nat.le_refl _⟩

/-! ### The node of a peer -/

/-- A purge leaves the node of a peer that stays connected. -/
theorem Purged.node_eq {F : Int → Prop} (h : Purged F s s')
    (hc : (s'.connManager.nodes p).isConnected = true) :
    s'.connManager.nodes p = s.connManager.nodes p := by
  refine h.peers fun hp => ?_
  rw [(h.node hp).2] at hc
  cases hc

theorem node_handlePeerDisconnect
    (hc : (((handlePeerDisconnect q).run s).state.connManager.nodes p).isConnected = true) :
    ((handlePeerDisconnect q).run s).state.connManager.nodes p = s.connManager.nodes p := by
  obtain ⟨hcon, hnot, -⟩ := purge_exact_and_idempotent s q
  by_cases hq : s.PeerConnected q
  · exact (hcon hq).node_eq hc
  · rw [hnot hq]

theorem node_dropBroken {ps : List Int}
    (hc : ((s.dropBroken ps).connManager.nodes p).isConnected = true) :
    (s.dropBroken ps).connManager.nodes p = s.connManager.nodes p := by
  revert hc
  refine dropBroken_induct (I := fun t => (t.connManager.nodes p).isConnected = true →
    t.connManager.nodes p = s.connManager.nodes p) (fun t q ht hq _ hc => ?_) (fun _ => rfl) ps
  have hpurged := (purged_purgePeer hq).node_eq hc
  rw [hpurged] at hc ⊢
  exact ht hc

theorem openLink_dropBroken (ps : List Int) :
    (s.dropBroken ps).connManager.openLink p = s.connManager.openLink p := by
  induction ps generalizing s with
  | nil => rfl
  | cons q ps ih => exact ih.trans (openLink_dropIfBroken s q p)

/-- Sends to peers leave the link of a peer alone, or take it down because its socket takes no
frames. -/
theorem linkSocket_dropBroken (s : ChatServer) (ps : List Int) (p : Int) :
    (s.dropBroken ps).connManager.linkSocket p = s.connManager.linkSocket p ∨
      s.Unreachable p ∧ (s.dropBroken ps).connManager.linkSocket p = none := by
  by_cases hc : ((s.dropBroken ps).connManager.nodes p).isConnected = true
  · left
    rw [ConnectionManager.linkSocket, node_dropBroken hc, ConnectionManager.linkSocket]
  · have hnone : (s.dropBroken ps).connManager.linkSocket p = none := by
      rw [ConnectionManager.linkSocket, if_neg hc]
    cases hl : s.connManager.linkSocket p with
    | none => exact Or.inl hnone
    | some k =>
        refine Or.inr ⟨⟨k, hl, ?_⟩, hnone⟩
        by_contra hsend
        -- an open link would still be there
        have hopen : s.connManager.openLink p = some k := by
          rw [ConnectionManager.openLink, hl]
          exact Option.filter_some_pos (Bool.eq_true_of_not_eq_false hsend)
        rw [← openLink_dropBroken ps, ConnectionManager.openLink, hnone] at hopen
        cases hopen

theorem node_removed (s : ChatServer) (k : ConnRef) (p : Int) :
    (s.removed k).connManager.nodes p = s.connManager.nodes p :=
  congrFun (ConnectionManager.nodes_removeSession ..) p

/-- Only a promotion changes the node of a peer. -/
theorem ClientStep.node_eq {pkt out : RawPacket} {ps : List Int}
    (hs : ClientStep s k pkt s' ps out) (ht : pkt.type ≠ .s2sConnect) :
    s'.connManager.nodes p = s.connManager.nodes p := by
  cases hs with
  | promote q hq => exact absurd hq ht
  | _ => rfl

theorem node_promoted (hp : p ∈ s.connManager.peerNodes) (k : ConnRef) (q : Int) :
    (s.promoted k q).connManager.nodes p =
      if p = q then { socket := some k, isConnected := true, lastHeartbeatTime := s.now }
      else s.connManager.nodes p := by
  rw [promoted]
  split
  next hq =>
    have hq' : q ∈ (s.removed k).connManager.peerNodes := by
      rw [removed, onConn_connManager, ConnectionManager.peerNodes_removeSession]
      exact hq
    have hnodes := ConnectionManager.nodes_linked (k := k) (s.removed k).connManager hq' s.now p
    rw [node_removed] at hnodes
    exact hnodes
  next hq =>
    rw [if_neg fun he : p = q => hq (he ▸ hp)]
    exact node_removed s k p

theorem node_dialed (hq : q ∈ s.connManager.peerNodes) (handle : SOCKET) (p : Int) :
    (s.dialed q handle).connManager.nodes p =
      if p = q then
        { socket := some s.connManager.nextConn, isConnected := true, lastHeartbeatTime := s.now }
      else s.connManager.nodes p :=
  ConnectionManager.nodes_linked (s.connManager.newSocket handle) hq s.now p

theorem node_clientDisconnect (hok : s.connManager.Ok) (hk : s.connManager.Live k)
    (hc : (((clientDisconnect k).run s).state.connManager.nodes p).isConnected = true) :
    ((clientDisconnect k).run s).state.connManager.nodes p = s.connManager.nodes p := by
  rw [state_clientDisconnect_of_live hok hk] at hc ⊢
  by_cases hn : s.nameOf k = []
  · rw [if_pos hn]
    exact node_removed s k p
  · rw [if_neg hn, node_removed] at hc ⊢
    exact node_dropBroken (s := s.loggedOut k) hc

/-- The moment sets the time of the peer if the peer is heard of, and nothing else of its node. -/
def Times (s : ChatServer) (p : Int) (m : Moment) (s' : ChatServer) : Prop :=
  s.HearsFrom p m ∧ (s'.connManager.nodes p).lastHeartbeatTime = s.now ∨
    ¬ s.HearsFrom p m ∧ s'.connManager.nodes p = s.connManager.nodes p

/-- A packet of a session tells of the peer it promotes the session to. -/
theorem times_clientPacket (hok : s.connManager.Ok) (hp : p ∈ s.connManager.peerNodes)
    (hk : s.connManager.Live k) {pkt : RawPacket}
    (hc : (((handleClientPacket k pkt).run s).state.connManager.nodes p).isConnected = true) :
    s.Times p (.packet k pkt) ((handleClientPacket k pkt).run s).state := by
  have hlink : s.connManager.linkSocket p ≠ some k := by
    rw [hok.linkSocket_eq]
    exact fun hl => hok.link_dead hl hk
  by_cases ht : pkt.type = .s2sConnect
  · obtain ⟨t, payload⟩ := pkt
    obtain rfl : t = .s2sConnect := ht
    rw [run_handleClientPacket_s2sConnect]
    cases hq : stoi payload with
    | none =>
        refine Or.inr ⟨?_, rfl⟩
        rintro (hl | ⟨-, -, hp'⟩)
        · exact hlink hl
        · rw [hq] at hp'
          cases hp'
    | some q =>
        show _ ∧ ((s.promoted k q).connManager.nodes p).lastHeartbeatTime = _ ∨
          _ ∧ (s.promoted k q).connManager.nodes p = _
        rw [node_promoted hp]
        split
        next he => exact Or.inl ⟨Or.inr ⟨hk, rfl, he ▸ hq⟩, rfl⟩
        next he =>
          refine Or.inr ⟨?_, rfl⟩
          rintro (hl | ⟨-, -, hp'⟩)
          · exact hlink hl
          · exact he (Option.some.inj (hp'.symm.trans hq))
  · obtain ⟨t, ps, out, hstep, hrun⟩ := handleClientPacket_step s k pkt
    rw [hrun.state] at hc ⊢
    refine Or.inr ⟨?_, (node_dropBroken hc).trans (hstep.node_eq ht)⟩
    rintro (hl | ⟨-, ht', -⟩)
    · exact hlink hl
    · exact ht ht'

/-- A packet over a link tells of the peer of the link. -/
theorem times_serverPacket (hok : s.connManager.Ok) (hq : s.connManager.peerOn k = some q)
    (pkt : RawPacket) : s.Times p (.packet k pkt) ((handleServerPacket q pkt).run s).state := by
  obtain ⟨hpeer, hl⟩ := peerOn_eq_some hq
  rw [Times, state_handleServerPacket, received_connManager,
    ConnectionManager.nodes_updateHeartbeat]
  split
  next he =>
    cases he
    exact Or.inl ⟨Or.inl hl, rfl⟩
  next he =>
    refine Or.inr ⟨?_, rfl⟩
    rw [hok.linkSocket_eq] at hl
    rintro (hl' | ⟨hk, -, -⟩)
    · rw [hok.linkSocket_eq] at hl'
      exact he (hok.link_inj hl' hl)
    · exact hok.link_dead hl hk

theorem times_timedNext (hok : s.connManager.Ok) (hp : p ∈ s.connManager.peerNodes)
    (hn : s.timedNext m = some s') (hc : (s'.connManager.nodes p).isConnected = true) :
    s.Times p m s' := by
  cases m with
  | pass now =>
      obtain ⟨-, hs⟩ := Option.ite_none_right_eq_some.mp hn
      cases hs
      exact Or.inr ⟨id, rfl⟩
  | accept handle =>
      obtain ⟨-, hs⟩ := Option.ite_none_right_eq_some.mp hn
      cases hs
      exact Or.inr ⟨id, rfl⟩
  | packet k pkt =>
      obtain ⟨⟨hr, -⟩, hs⟩ := Option.ite_none_right_eq_some.mp hn
      cases hs
      obtain hk | ⟨q, hq⟩ := reads_cases hr
      · rw [run_readPacket_of_live hk] at hc ⊢
        exact times_clientPacket hok hp hk hc
      · rw [run_readPacket_of_linked hok hq]
        exact times_serverPacket hok hq pkt
  | failure k =>
      obtain ⟨hr, hs⟩ := Option.ite_none_right_eq_some.mp hn
      cases hs
      refine Or.inr ⟨id, ?_⟩
      obtain hk | ⟨q, hq⟩ := reads_cases hr
      · rw [run_readFailure_of_live hk] at hc ⊢
        exact node_clientDisconnect hok hk hc
      · rw [run_readFailure_of_linked hok hq] at hc ⊢
        exact node_handlePeerDisconnect hc
  | dial q handle =>
      obtain ⟨hf, hs⟩ := Option.ite_none_right_eq_some.mp hn
      cases hs
      rw [state_connectPeer hf] at hc ⊢
      rw [Times]
      split
      next hq =>
        rw [node_dialed hq.1]
        split
        next he => exact Or.inl ⟨⟨he.symm, he ▸ hq.2⟩, rfl⟩
        next he => exact Or.inr ⟨fun hh => he hh.1.symm, rfl⟩
      next hq =>
        refine Or.inr ⟨?_, rfl⟩
        rintro ⟨rfl, hd⟩
        exact hq ⟨hp, hd⟩
  | beat =>
      cases hn
      exact Or.inr ⟨id, (purged_heartbeatRound hok).node_eq hc⟩
  | cutOff k =>
      cases hn
      exact Or.inr ⟨id, rfl⟩

/-! ### The history of a peer -/

/-- One more moment. -/
theorem heardAt_append {s₀ : ChatServer} {ms : List Moment} {T : Nat → Prop}
    (hrun : exec timedNext s₀ ms = some s) :
    HeardAt s₀ (ms ++ [m]) p T ↔ HeardAt s₀ ms p T ∨ s.HearsFrom p m ∧ T s.now := by
  constructor
  · rintro ⟨pre, a, post, u, hsplit, hpre, hears, hT⟩
    rcases List.eq_nil_or_concat post with rfl | ⟨post, b, rfl⟩
    · obtain ⟨rfl, hlast⟩ := List.append_inj' hsplit rfl
      cases hlast
      rw [hpre] at hrun
      cases hrun
      exact Or.inr ⟨hears, hT⟩
    · rw [List.concat_eq_append, ← List.cons_append, ← List.append_assoc] at hsplit
      exact Or.inl ⟨pre, a, post, u, (List.append_inj' hsplit rfl).1, hpre, hears, hT⟩
  · rintro (⟨pre, a, post, u, rfl, hpre, hears, hT⟩ | ⟨hears, hT⟩)
    · exact ⟨pre, a, post ++ [m], u, by simp, hpre, hears, hT⟩
    · exact ⟨ms, m, [], s, rfl, hrun, hears, hT⟩

/-- What is known at the end of a run from `s₀`. -/
structure Remembers (s₀ : ChatServer) (ms : List Moment) (s : ChatServer) : Prop where
  keeping : Keeping s₀ s
  /-- Nothing was heard later than now. -/
  past : ∀ {p t}, HeardAt s₀ ms p (t ≤ ·) → t ≤ s.now
  /-- The node of a connected peer has the last time it was heard of. -/
  last : ∀ {p}, p ∈ s.connManager.peerNodes → (s.connManager.nodes p).isConnected = true →
    ∀ t, HeardAt s₀ ms p (t ≤ ·) ↔ t ≤ (s.connManager.nodes p).lastHeartbeatTime

theorem Remembers.next {s₀ : ChatServer} {ms : List Moment} (h : Remembers s₀ ms s)
    (hrun : exec timedNext s₀ ms = some s) (hn : s.timedNext m = some s') :
    Remembers s₀ (ms ++ [m]) s' := by
  have hkeep := timedNext_keeping h.keeping.ok hn
  refine ⟨⟨hkeep.ok, hkeep.peers.trans h.keeping.peers, h.keeping.later.trans hkeep.later⟩,
    fun {p t} ht => ?_, fun {p} hp hc t => ?_⟩
  · rcases (heardAt_append hrun).mp ht with ht | ⟨-, ht⟩
    · exact (h.past ht).trans hkeep.later
    · exact ht.trans hkeep.later
  · rw [hkeep.peers] at hp
    rw [heardAt_append hrun]
    rcases times_timedNext h.keeping.ok hp hn hc with ⟨hears, htime⟩ | ⟨hnot, hnode⟩
    · rw [htime]
      exact ⟨fun ht => ht.elim h.past And.right, fun ht => Or.inr ⟨hears, ht⟩⟩
    · rw [hnode] at hc ⊢
      rw [or_iff_left fun ht => hnot ht.1]
      exact h.last hp hc t

theorem remembers_of_run (id : Int) (peers : List Int) {ms : List Moment}
    (hrun : exec timedNext (configured id peers) ms = some s) :
    Remembers (configured id peers) ms s := by
  refine exec_induct_trace (P := fun _ _ => True) (I := Remembers (configured id peers))
    (fun hpre h _ hn => h.next hpre hn) ⟨⟨ok_configured id peers, rfl, Nat.le_refl _⟩, ?_, ?_⟩
    (along_of_forall fun _ _ => trivial) hrun
  · rintro p t ⟨pre, a, post, u, hsplit, -⟩
    simp at hsplit
  · intro p _ hc
    rw [(configured_connManager id peers).2.1 p] at hc
    cases hc

/-- A round loses the peer: it is connected, and it was not heard of in the last 15 seconds or its
socket takes no frames. -/
def Loses (s₀ : ChatServer) (ms : List Moment) (s : ChatServer) (p : Int) : Prop :=
  (s.connManager.nodes p).isConnected = true ∧
    (¬ HeardAt s₀ ms p (fun t => s.now < t + 15) ∨ s.Unreachable p)

/-- A connected peer is silent when nothing was heard of it in the last 15 seconds. -/
theorem Remembers.silent_iff {s₀ : ChatServer} {ms : List Moment} (h : Remembers s₀ ms s)
    (hp : p ∈ s.connManager.peerNodes) (hc : (s.connManager.nodes p).isConnected = true) :
    s.Silent p ↔ ¬ HeardAt s₀ ms p (fun t => s.now < t + 15) := by
  have hlast := h.last hp hc (s.now - 14)
  have htimes : HeardAt s₀ ms p (fun t => s.now < t + 15) ↔ HeardAt s₀ ms p (s.now - 14 ≤ ·) := by
    have hT : (fun t => s.now < t + 15) = (s.now - 14 ≤ ·) := by
      funext t
      rw [eq_iff_iff]
      omega
    rw [hT]
  rw [htimes, hlast, Silent, and_iff_right hc]
  omega

end

/-- **Rounds of heartbeats.**  After any run of a server a round of the heartbeat loop disconnects
exactly the connected peers of the configuration that were not heard of in the last 15 seconds or
whose sockets take no frames.  Exactly these peers lose their users and their places in the
rooms. -/
theorem heartbeat_rounds_exact (id : Int) (peers : List Int) {ms : List Moment} {s s' : ChatServer}
    (hrun : exec timedNext (configured id peers) ms = some s) (hbeat : s.timedNext .beat = some s')
    {p : Int} (hp : p ∈ peers) :
    ((s'.connManager.nodes p).isConnected = true ↔
      (s.connManager.nodes p).isConnected = true ∧ ¬ Loses (configured id peers) ms s p) ∧
    (∀ u, s'.userManager.location? u = some p ↔
      s.userManager.location? u = some p ∧ ¬ Loses (configured id peers) ms s p) ∧
    (∀ r, p ∈ s'.roomManager.getRemoteServers r ↔
      p ∈ s.roomManager.getRemoteServers r ∧ ¬ Loses (configured id peers) ms s p) := by
  have hrem := remembers_of_run id peers hrun
  have hp' : p ∈ s.connManager.peerNodes := by
    rw [hrem.keeping.peers]
    exact ((configured_connManager id peers).1 p).mpr hp
  have hround := purged_heartbeatRound hrem.keeping.ok
  cases hbeat
  have hlost : (p ∈ s.connManager.peerNodes ∧ (s.Silent p ∨ s.Unreachable p)) ↔
      Loses (configured id peers) ms s p := by
    rw [and_iff_right hp', Loses]
    by_cases hc : (s.connManager.nodes p).isConnected = true
    · rw [hrem.silent_iff hp' hc, and_iff_right hc]
    · refine iff_of_false ?_ fun h => hc h.1
      rintro (h | ⟨k, hk, -⟩)
      · exact hc h.1
      · rw [ConnectionManager.linkSocket, if_neg hc] at hk
        cases hk
  refine ⟨⟨fun hc => ?_, fun h => ?_⟩, fun u => ?_, fun r => ?_⟩
  · refine ⟨hround.node_eq hc ▸ hc, fun hl => ?_⟩
    rw [(hround.node (hlost.mpr hl)).2] at hc
    cases hc
  · rw [hround.peers fun hl => h.2 (hlost.mp hl)]
    exact h.1
  · rw [hround.users, hlost]
  · rw [hround.remotes, hlost]

/-- Of two peers that connect, one sends a heartbeat and the other one does not. -/
theorem heartbeat_rounds_exact_once :
    ∃ s s', exec timedNext (configured 1 [2, 3])
        [.dial 2 5, .dial 3 6, .pass 10, .packet 0 ⟨.s2sHeartbeat, ascii "2"⟩, .pass 15] = some s ∧
      s.timedNext .beat = some s' ∧
      ((s'.connManager.nodes 3).isConnected = true ↔
        (s.connManager.nodes 3).isConnected = true ∧
          ¬ Loses (configured 1 [2, 3])
            [.dial 2 5, .dial 3 6, .pass 10, .packet 0 ⟨.s2sHeartbeat, ascii "2"⟩, .pass 15]
            s 3) := by
  have hrun : (exec timedNext (configured 1 [2, 3])
      [.dial 2 5, .dial 3 6, .pass 10, .packet 0 ⟨.s2sHeartbeat, ascii "2"⟩,
        .pass 15]).isSome = true := by decide +kernel
  obtain ⟨s, hs⟩ := Option.isSome_iff_exists.mp hrun
  exact ⟨s, _, hs, rfl, (heartbeat_rounds_exact 1 [2, 3] hs rfl (by decide)).1⟩

end ChatServer

end DistributedChat
