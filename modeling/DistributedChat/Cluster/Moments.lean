import DistributedChat.Cluster.Traffic
import DistributedChat.Server.Heartbeats

/-!
# What a moment makes

Sockets are not taken back, a session becomes authenticated only by a login of its
own, and a peer becomes linked only by a handshake that names it or by the
connector.  `Makes` says so of one moment, and `makes_timedNext` that it is so of
every one.
-/

namespace DistributedChat

namespace ChatServer

section

variable {s s' : ChatServer} {k j : ConnRef} {p : Int} {m : Moment}

theorem linkSocket_of_node (hnode : (s'.connManager.nodes p).isConnected = true →
    s'.connManager.nodes p = s.connManager.nodes p) (hl : s'.connManager.linkSocket p = some j) :
    s.connManager.linkSocket p = some j := by
  rw [ConnectionManager.linkSocket] at hl
  split at hl
  next hc =>
    rw [hnode hc] at hl hc
    rw [ConnectionManager.linkSocket, if_pos hc]
    exact hl
  next => cases hl

/-- A packet of a session links a socket only if it is the handshake of a peer. -/
theorem linkSocket_handleClientPacket {pkt : RawPacket} (hp : p ∈ s.connManager.peerNodes)
    (hl : ((handleClientPacket k pkt).run s).state.connManager.linkSocket p = some j) :
    s.connManager.linkSocket p = some j ∨
      j = k ∧ pkt.type = .s2sConnect ∧ stoi pkt.payload = some p := by
  by_cases ht : pkt.type = .s2sConnect
  · obtain ⟨t, payload⟩ := pkt
    obtain rfl : t = .s2sConnect := ht
    rw [run_handleClientPacket_s2sConnect] at hl
    cases hq : stoi payload with
    | none =>
        rw [hq] at hl
        exact Or.inl hl
    | some q =>
        rw [hq] at hl
        change (s.promoted k q).connManager.linkSocket p = some j at hl
        by_cases hpq : p = q
        · rw [ConnectionManager.linkSocket, node_promoted hp, if_pos hpq, if_pos rfl] at hl
          exact Or.inr ⟨(Option.some.inj hl).symm, rfl, congrArg some hpq.symm⟩
        · exact Or.inl (linkSocket_of_node
            (fun _ => (node_promoted hp k q).trans (if_neg hpq)) hl)
  · obtain ⟨t, ps, out, hstep, hrun⟩ := handleClientPacket_step s k pkt
    rw [hrun.state] at hl
    exact Or.inl (linkSocket_of_node (fun hc => (node_dropBroken hc).trans (hstep.node_eq ht)) hl)

/-- Objects are not taken back, only a login authenticates a session, and only the handshake of a
peer and the connector link a socket. -/
structure Makes (s : ChatServer) (m : Moment) (s' : ChatServer) : Prop where
  next : s.connManager.nextConn ≤ s'.connManager.nextConn
  authenticated : ∀ j, s'.Authenticated j → s.Authenticated j ∨
    s.connManager.Live j ∧ ∃ pkt, m = .packet j pkt ∧ pkt.type = .login
  linked : ∀ p ∈ s.connManager.peerNodes, ∀ j, s'.connManager.linkSocket p = some j →
    s.connManager.linkSocket p = some j ∨
      (∃ pkt, m = .packet j pkt ∧ pkt.type = .s2sConnect ∧ stoi pkt.payload = some p) ∨
        ∃ h, m = .dial p h ∧ j = s.connManager.nextConn

/-- No session object is touched. -/
theorem Makes.of_objects (hobj : s'.connManager.sessions = s.connManager.sessions)
    (hnext : s.connManager.nextConn ≤ s'.connManager.nextConn)
    (hnode : ∀ p, (s'.connManager.nodes p).isConnected = true →
      s'.connManager.nodes p = s.connManager.nodes p) : Makes s m s' where
  next := hnext
  authenticated := by
    intro j hj
    rw [Authenticated, hobj] at hj
    exact Or.inl hj
  linked := fun p _ j hl => Or.inl (linkSocket_of_node (hnode p) hl)

theorem makes_readPacket_of_live (hk : s.connManager.Live k) (pkt : RawPacket) :
    Makes s (.packet k pkt) ((readPacket k pkt).run s).state := by
  rw [run_readPacket_of_live hk]
  obtain ⟨t, ps, out, hstep, hrun⟩ := handleClientPacket_step s k pkt
  have hsame := sameSessions_dropBroken t ps
  refine ⟨?_, fun j hj => ?_, fun p hp j hl => ?_⟩
  · rw [hrun.state, hsame.next]
    exact hstep.keeps.next
  · rw [hrun.state, Authenticated, hsame.objects] at hj
    refine (hstep.authenticated.2 hj).imp_right ?_
    rintro ⟨rfl, ht⟩
    exact ⟨hk, pkt, rfl, ht⟩
  · refine (linkSocket_handleClientPacket hp hl).imp_right ?_
    rintro ⟨rfl, ht, hq⟩
    exact Or.inl ⟨pkt, rfl, ht, hq⟩

theorem makes_readFailure_of_live (hok : s.connManager.Ok) (hk : s.connManager.Live k) :
    Makes s (.failure k) ((readFailure k).run s).state := by
  rw [run_readFailure_of_live hk]
  refine .of_objects ?_ ?_ fun p => node_clientDisconnect hok hk
  · rw [state_clientDisconnect_of_live hok hk]
    split
    · exact ConnectionManager.sessions_removeSession ..
    · exact (ConnectionManager.sessions_removeSession ..).trans
        (sameSessions_dropBroken (s.loggedOut k) _).objects
  · rw [state_clientDisconnect_of_live hok hk]
    split
    · exact (keeps_removed s k).next
    · exact (Nat.le_of_eq (sameSessions_dropBroken (s.loggedOut k) _).next.symm).trans
        (keeps_removed _ k).next

theorem makes_timedNext (hok : s.connManager.Ok) (hn : s.timedNext m = some s') :
    Makes s m s' := by
  cases m with
  | pass now =>
      obtain ⟨-, he⟩ := Option.ite_none_right_eq_some.mp hn
      cases he
      exact .of_objects rfl (Nat.le_refl _) fun _ _ => rfl
  | accept handle =>
      obtain ⟨-, he⟩ := Option.ite_none_right_eq_some.mp hn
      cases he
      exact ⟨Nat.le_succ _, fun j hj => Or.inl (authenticated_accepted.mp hj).2,
        fun p _ j hl => Or.inl hl⟩
  | packet k pkt =>
      obtain ⟨⟨hr, -⟩, he⟩ := Option.ite_none_right_eq_some.mp hn
      cases he
      obtain hk | ⟨q, hq⟩ := reads_cases hr
      · exact makes_readPacket_of_live hk pkt
      · rw [run_readPacket_of_linked hok hq, state_handleServerPacket]
        have hconn := received_connManager s q pkt
        refine ⟨(keeps_received s q pkt).next, fun j hj => ?_, fun p _ j hl => Or.inl ?_⟩
        · rw [Authenticated, hconn] at hj
          exact Or.inl hj
        · rw [ConnectionManager.linkSocket, hconn, ConnectionManager.isConnected_updateHeartbeat,
            ConnectionManager.socket_updateHeartbeat] at hl
          exact hl
  | failure k =>
      obtain ⟨hr, he⟩ := Option.ite_none_right_eq_some.mp hn
      cases he
      obtain hk | ⟨q, hq⟩ := reads_cases hr
      · exact makes_readFailure_of_live hok hk
      · rw [run_readFailure_of_linked hok hq]
        refine .of_objects ?_ ?_ fun p => node_handlePeerDisconnect
        · rw [state_handlePeerDisconnect]
          split
          · exact (ConnectionManager.sameSessions_unlinked ..).objects
          · rfl
        · rw [state_handlePeerDisconnect]
          split
          · exact (keeps_purgePeer s q).next
          · exact Nat.le_refl _
  | dial q handle =>
      obtain ⟨hf, he⟩ := Option.ite_none_right_eq_some.mp hn
      cases he
      rw [state_connectPeer hf]
      split
      next hq =>
        refine ⟨(keeps_dialed s q handle).next, fun j hj => Or.inl (authenticated_dialed.mp hj).2,
          fun p _ j hl => ?_⟩
        by_cases hpq : p = q
        · subst hpq
          rw [ConnectionManager.linkSocket, node_dialed hq.1, if_pos rfl, if_pos rfl] at hl
          exact Or.inr (Or.inr ⟨handle, rfl, (Option.some.inj hl).symm⟩)
        · exact Or.inl (linkSocket_of_node
            (fun _ => (node_dialed hq.1 handle p).trans (if_neg hpq)) hl)
      next => exact .of_objects rfl (Nat.le_refl _) fun _ _ => rfl
  | beat =>
      cases hn
      have hround := purged_heartbeatRound hok
      exact .of_objects hround.sessions.objects (Nat.le_of_eq hround.sessions.next.symm)
        fun p => hround.node_eq
  | cutOff k =>
      cases hn
      exact .of_objects rfl (Nat.le_refl _) fun _ _ => rfl

/-- What is read from a socket that is no session's is a packet of a peer. -/
theorem readPacket_out_of_not_live {pkt : RawPacket} {e : Effect}
    (hk : ¬ s.connManager.Live k) (he : e ∈ ((readPacket k pkt).run s).out) :
    ∃ p ∈ s.connManager.peerNodes, s.connManager.linkSocket p = some k ∧
      e ∈ ((handleServerPacket p pkt).run s).out := by
  cases hp : s.connManager.peerOn k with
  | none =>
      simp [readPacket, hk, hp] at he
  | some p =>
      simp only [readPacket, Prog.run_bind, Prog.run_observe, hp, List.nil_append,
        ConnectionManager.isLive_eq_true, if_neg hk] at he
      exact ⟨p, (peerOn_eq_some hp).1, (peerOn_eq_some hp).2, he⟩

/-- A client's packet that does not name a peer leaves the links alone, but for those whose
sockets take no frames. -/
theorem linkSocket_readPacket {pkt : RawPacket} (hk : s.connManager.Live k)
    (hno : pkt.type = .s2sConnect →
      ∀ p ∈ s.connManager.getAllPeerNodes, stoi pkt.payload ≠ some p) (p : Int) :
    ((readPacket k pkt).run s).state.connManager.linkSocket p = s.connManager.linkSocket p ∨
      s.Unreachable p ∧
        ((readPacket k pkt).run s).state.connManager.linkSocket p = none := by
  rw [run_readPacket_of_live hk]
  obtain ⟨t, ps, out, hstep, hrun⟩ := handleClientPacket_step s k pkt
  have hlink : t.connManager.linkSocket p = s.connManager.linkSocket p := by
    rw [ConnectionManager.linkSocket, hstep.nodes hno, ConnectionManager.linkSocket]
  have hsend : t.connManager.canSend = s.connManager.canSend := by
    funext j
    rw [ConnectionManager.canSend, ConnectionManager.getHandle, hstep.sockets]
    rfl
  rw [hrun.state, ← hlink]
  refine (linkSocket_dropBroken t ps p).imp_right fun h => ⟨?_, h.2⟩
  rw [Unreachable, ← hlink, ← hsend]
  exact h.1

end

end ChatServer

end DistributedChat
