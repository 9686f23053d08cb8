import DistributedChat.Server.Sessions

/-!
# What a purge takes away

`HandlePeerDisconnect` closes the socket of a connected peer, takes it off the node,
and removes the users of the peer and the peer's entries in the rooms.  `Purged F`
says that exactly this was done for the peers of a set `F` and that everything else is
as it was.  Purges of one peer after another add up (`Purged.add`), so the same
relation describes a loop in which some of the sends fail.
-/

namespace DistributedChat

/-- The link's own socket is closed. -/
theorem ConnectionManager.sockets_unlinked_self (m : ConnectionManager) {p : Int} {k : ConnRef}
    (now : Nat) (hk : (m.nodes p).socket = some k) :
    (m.unlinked p now).sockets k = { m.sockets k with handle := invalidSocket } := by
  rw [unlinked, hk, sockets_unregisterPeerSocket, sockets_closeSocket, if_pos rfl]

/-- Its handle is erased when it is closed already, so no entry under an open handle goes. -/
theorem ConnectionManager.peerNodesBySocket_unlinked (m : ConnectionManager) (p : Int) (now : Nat)
    {h : SOCKET} (hh : h ≠ invalidSocket) :
    (m.unlinked p now).peerNodesBySocket.lookup h = m.peerNodesBySocket.lookup h := by
  rw [unlinked, unregisterPeerSocket]
  cases hs : (m.nodes p).socket with
  | none =>
      simp only [hs]
      split <;> rfl
  | some k =>
      have hs' : ((m.closeSocket k).nodes p).socket = some k := hs
      have hk : (m.closeSocket k).getHandle k = invalidSocket := by
        rw [getHandle, sockets_closeSocket, if_pos rfl]
      simp only [hs', hk]
      split
      · rw [Table.lookup_erase, if_neg hh]
        rfl
      · rfl

namespace ChatServer

/-- From the first state to the second, the peers of a set were purged and nothing else
was changed. -/
structure Purged (F : Int → Prop) (s s' : ChatServer) : Prop where
  /-- The purged peers are disconnected and have no socket. -/
  node : ∀ {p}, F p → (s'.connManager.nodes p).socket = none ∧
    (s'.connManager.nodes p).isConnected = false
  /-- Their sockets are closed. -/
  closed : ∀ {p k}, F p → (s.connManager.nodes p).socket = some k →
    s'.connManager.sockets k = { s.connManager.sockets k with handle := invalidSocket }
  /-- The users on them are removed. -/
  users : ∀ {u i}, s'.userManager.location? u = some i ↔
    s.userManager.location? u = some i ∧ ¬ F i
  /-- They are removed from the rooms. -/
  remotes : ∀ {r q}, q ∈ s'.roomManager.getRemoteServers r ↔
    q ∈ s.roomManager.getRemoteServers r ∧ ¬ F q
  /-- The rooms have the local members they had. -/
  members : ∀ r, s'.roomManager.getLocalMembers r = s.roomManager.getLocalMembers r
  rooms : ∀ r, (s'.roomManager.rooms.lookup r).isSome = (s.roomManager.rooms.lookup r).isSome
  /-- The other peers have the nodes they had. -/
  peers : ∀ {q}, ¬ F q → s'.connManager.nodes q = s.connManager.nodes q
  /-- The sockets of nobody purged are as they were. -/
  sockets : ∀ {k}, (∀ p, F p → (s.connManager.nodes p).socket ≠ some k) →
    s'.connManager.sockets k = s.connManager.sockets k
  /-- The map from handles to peers is as it was for every handle of an open socket. -/
  bySocket : ∀ {h}, h ≠ invalidSocket →
    s'.connManager.peerNodesBySocket.lookup h = s.connManager.peerNodesBySocket.lookup h
  /-- The sessions and the maps that lead to them are as they were. -/
  sessions : ConnectionManager.SameSessions s.connManager s'.connManager
  serverId : s'.serverId = s.serverId
  now : s'.now = s.now

theorem Purged.refl (s : ChatServer) : Purged (fun _ => False) s s where
  node := False.elim
  closed := False.elim
  users := by simp
  remotes := by simp
  members := fun _ => rfl
  rooms := fun _ => rfl
  peers := fun _ => rfl
  sockets := fun _ => rfl
  bySocket := fun _ => rfl
  sessions := .refl _
  serverId := rfl
  now := rfl

/-- A purge of one more peer. -/
theorem Purged.add {F : Int → Prop} {s s' s'' : ChatServer} {p : Int} (h : Purged F s s')
    (hp : ¬ F p) (h' : Purged (· = p) s' s'') : Purged (fun q => F q ∨ q = p) s s'' where
  node := by
    intro q hq
    by_cases hqp : q = p
    · exact h'.node hqp
    · rw [h'.peers hqp]
      exact h.node (hq.resolve_right hqp)
  closed := by
    intro q k hq hk
    have hsame {k : ConnRef} (hpk : (s.connManager.nodes p).socket = some k) :
        s''.connManager.sockets k = { s'.connManager.sockets k with handle := invalidSocket } :=
      h'.closed rfl (by rw [h.peers hp, hpk])
    rcases hq with hq | rfl
    · by_cases hpk : (s.connManager.nodes p).socket = some k
      · rw [hsame hpk, h.closed hq hk]
      · rw [h'.sockets fun q hq => ?_, h.closed hq hk]
        rw [hq, h.peers hp]
        exact hpk
    · rw [hsame hk]
      by_cases hshared : ∃ q, F q ∧ (s.connManager.nodes q).socket = some k
      · obtain ⟨q, hq, hqk⟩ := hshared
        rw [h.closed hq hqk]
      · rw [h.sockets fun q hq hqk => hshared ⟨q, hq, hqk⟩]
  users := by
    intro u i
    rw [h'.users, h.users, and_assoc, not_or]
  remotes := by
    intro r q
    rw [h'.remotes, h.remotes, and_assoc, not_or]
  members := fun r => (h'.members r).trans (h.members r)
  rooms := fun r => (h'.rooms r).trans (h.rooms r)
  peers := fun hq => (h'.peers fun he => hq (Or.inr he)).trans (h.peers fun hF => hq (Or.inl hF))
  sockets := by
    intro k hk
    rw [h'.sockets fun q hq => ?_, h.sockets fun q hq => hk q (Or.inl hq)]
    rw [hq, h.peers hp]
    exact hk p (Or.inr rfl)
  bySocket := fun hk => (h'.bySocket hk).trans (h.bySocket hk)
  sessions := h.sessions.trans h'.sessions
  serverId := h'.serverId.trans h.serverId
  now := h'.now.trans h.now

theorem Purged.congr {F G : Int → Prop} {s s' : ChatServer} (h : Purged F s s')
    (hF : ∀ p, F p ↔ G p) : Purged G s s' := by
  obtain rfl : F = G := funext fun p => propext (hF p)
  exact h

/-- The rule for rounds.  If the part about a peer purges it exactly when it is lost, whatever was
purged before, then the round purges the lost peers. -/
theorem Purged.round {L F : Int → Prop} {s t : ChatServer} {f : ChatServer → Int → ChatServer}
    (hlost : ∀ {F t p}, Purged F s t → ¬ F p → p ∈ t.connManager.peerNodes → L p →
      Purged (· = p) t (f t p))
    (hkept : ∀ {F t p}, Purged F s t → ¬ F p → ¬ L p → f t p = t) {ps : List Int}
    (hnodup : ps.Nodup) (hps : ∀ p ∈ ps, p ∈ s.connManager.peerNodes) (h : Purged F s t)
    (hF : ∀ p ∈ ps, ¬ F p) : Purged (fun p => F p ∨ p ∈ ps ∧ L p) s (ps.foldl f t) := by
  induction ps generalizing F t with
  | nil => exact h.congr fun p => by simp
  | cons p ps ih =>
      obtain ⟨hnot, hrest⟩ := List.nodup_cons.mp hnodup
      have hpt : p ∈ t.connManager.peerNodes := h.sessions.peers ▸ hps p (List.mem_cons_self ..)
      have hFp := hF p (List.mem_cons_self ..)
      -- what was purged before, and the head of the list if it is lost
      have hadd : Purged (fun q => F q ∨ q = p ∧ L p) s (f t p) := by
        by_cases hl : L p
        · exact (h.add hFp (hlost h hFp hpt hl)).congr fun q => or_congr_right (and_iff_left hl).symm
        · rw [hkept h hFp hl]
          exact h.congr fun q => (or_iff_left fun hq => hl hq.2).symm
      refine (ih hrest (fun q hq => hps q (List.mem_cons_of_mem _ hq)) hadd ?_).congr fun q => ?_
      · rintro q hq (hFq | ⟨rfl, -⟩)
        · exact hF q (List.mem_cons_of_mem _ hq) hFq
        · exact hnot hq
      · rw [List.mem_cons, or_assoc]
        refine or_congr_right ⟨?_, ?_⟩
        · rintro (⟨rfl, hl⟩ | ⟨hq, hl⟩)
          · exact ⟨Or.inl rfl, hl⟩
          · exact ⟨Or.inr hq, hl⟩
        · rintro ⟨rfl | hq, hl⟩
          · exact Or.inl ⟨rfl, hl⟩
          · exact Or.inr ⟨hq, hl⟩

/-- The purge of a peer that has a node. -/
theorem purged_purgePeer {p : Int} {s : ChatServer} (hp : p ∈ s.connManager.peerNodes) :
    Purged (· = p) s (s.purgePeer p) where
  node := by
    rintro q rfl
    show ((s.connManager.unlinked q s.now).nodes q).socket = none ∧
      ((s.connManager.unlinked q s.now).nodes q).isConnected = false
    rw [ConnectionManager.nodes_unlinked _ hp, if_pos rfl]
    exact ⟨rfl, rfl⟩
  closed := by
    rintro q k rfl hk
    exact ConnectionManager.sockets_unlinked_self s.connManager s.now hk
  users := UserManager.location?_clearServerUsers_eq_some
  remotes := (ChatRoomManager.mem_getRemoteServers_clearServerMemberships ..).trans and_comm
  members := fun r => ChatRoomManager.getLocalMembers_clearServerMemberships ..
  rooms := by
    intro r
    show ((s.roomManager.rooms.mapVal _).lookup r).isSome = _
    rw [Table.lookup_mapVal, Option.isSome_map]
  peers := by
    intro q hq
    exact (ConnectionManager.nodes_unlinked _ hp _ _).trans (if_neg hq)
  sockets := fun hk => ConnectionManager.sockets_unlinked s.connManager s.now (hk p rfl)
  bySocket := ConnectionManager.peerNodesBySocket_unlinked s.connManager p s.now
  sessions := ConnectionManager.sameSessions_unlinked s.connManager p s.now
  serverId := rfl
  now := rfl

/-! ## `HandlePeerDisconnect` -/

/-- The peer has a node that is connected. -/
def PeerConnected (s : ChatServer) (p : Int) : Prop :=
  p ∈ s.connManager.peerNodes ∧ (s.connManager.nodes p).isConnected = true

instance (s : ChatServer) (p : Int) : Decidable (s.PeerConnected p) :=
  inferInstanceAs (Decidable (_ ∧ _))

theorem run_handlePeerDisconnect_of_connected {s : ChatServer} {p : Int} (h : s.PeerConnected p) :
    Purged (· = p) s ((handlePeerDisconnect p).run s).state := by
  have hstate := state_handlePeerDisconnect p s
  rw [if_pos (show _ ∧ _ from h)] at hstate
  rw [hstate]
  exact purged_purgePeer h.1

/-- It does nothing for a peer that is unknown or not connected. -/
theorem run_handlePeerDisconnect_of_not_connected {s : ChatServer} {p : Int}
    (h : ¬ s.PeerConnected p) : (handlePeerDisconnect p).run s = ⟨(), s, []⟩ := by
  have hcond : ¬ (p ∈ s.connManager.peerNodes ∧ (s.connManager.nodes p).isConnected = true) := h
  simp [handlePeerDisconnect, ConnectionManager.hasPeerNode, hcond]

theorem Purged.not_connected {F : Int → Prop} {s s' : ChatServer} {p : Int} (h : Purged F s s')
    (hp : F p) : ¬ s'.PeerConnected p := by
  rintro ⟨-, hc⟩
  rw [(h.node hp).2] at hc
  cases hc

/-- **The purge of a peer.**  Of a connected peer, `HandlePeerDisconnect` removes exactly the
users and the entries in rooms; it does nothing for a peer that is unknown or not connected; and
a second call does nothing. -/
theorem purge_exact_and_idempotent (s : ChatServer) (p : Int) :
    (s.PeerConnected p → Purged (· = p) s ((handlePeerDisconnect p).run s).state) ∧
      (¬ s.PeerConnected p → (handlePeerDisconnect p).run s = ⟨(), s, []⟩) ∧
      (handlePeerDisconnect p).run ((handlePeerDisconnect p).run s).state =
        ⟨(), ((handlePeerDisconnect p).run s).state, []⟩ := by
  refine ⟨run_handlePeerDisconnect_of_connected, run_handlePeerDisconnect_of_not_connected,
    run_handlePeerDisconnect_of_not_connected ?_⟩
  by_cases h : s.PeerConnected p
  · exact (run_handlePeerDisconnect_of_connected h).not_connected rfl
  · rw [run_handlePeerDisconnect_of_not_connected h]
    exact h

/-! ## Sends to broken links -/

/-- The peer is connected over a socket that does not take frames. -/
def Unreachable (s : ChatServer) (p : Int) : Prop :=
  ∃ k ∈ s.connManager.linkSocket p, s.connManager.canSend k = false

instance (s : ChatServer) (p : Int) : Decidable (s.Unreachable p) :=
  inferInstanceAs (Decidable (∃ k ∈ s.connManager.linkSocket p, s.connManager.canSend k = false))

section

variable {F : Int → Prop} {s t : ChatServer} {p : Int}

theorem dropIfBroken_of_reachable (h : ¬ s.Unreachable p) : s.dropIfBroken p = s := by
  rw [dropIfBroken]
  split
  next => rfl
  next k hl =>
    split
    next => rfl
    next hsend => exact absurd ⟨k, hl, Bool.eq_false_iff.mpr hsend⟩ h

theorem purged_dropIfBroken (hp : p ∈ s.connManager.peerNodes) (h : s.Unreachable p) :
    Purged (· = p) s (s.dropIfBroken p) := by
  obtain ⟨k, hl, hsend⟩ := h
  have hc : (s.connManager.nodes p).isConnected = true := by
    rw [Option.mem_def, ConnectionManager.linkSocket] at hl
    split at hl
    next hc => exact hc
    next => cases hl
  have hdrop : s.dropIfBroken p = ((handlePeerDisconnect p).run s).state := by
    rw [dropIfBroken, show s.connManager.linkSocket p = some k from hl]
    exact if_neg (Bool.eq_false_iff.mp hsend)
  rw [hdrop]
  exact run_handlePeerDisconnect_of_connected ⟨hp, hc⟩

/-- The purge of other peers leaves a peer as reachable as it was. -/
theorem Purged.unreachable_iff (h : Purged F s t) (hok : s.connManager.Ok) (hp : ¬ F p) :
    t.Unreachable p ↔ s.Unreachable p := by
  have hnode := h.peers hp
  have hlink : t.connManager.linkSocket p = s.connManager.linkSocket p := by
    rw [ConnectionManager.linkSocket, hnode, ConnectionManager.linkSocket]
  have hsend : ∀ k ∈ s.connManager.linkSocket p,
      t.connManager.canSend k = s.connManager.canSend k := by
    intro k hk
    rw [Option.mem_def, hok.linkSocket_eq] at hk
    -- a purged peer over the same socket would be this peer
    have hsock := h.sockets (k := k) fun q hq hqk => hp (hok.link_inj hqk hk ▸ hq)
    rw [ConnectionManager.canSend, ConnectionManager.getHandle, hsock]
    rfl
  rw [Unreachable, hlink]
  exact exists_congr fun k => and_congr_right fun hk => by rw [hsend k hk]

/-- Sends to peers purge those whose sockets take no frames. -/
theorem purged_dropBroken (hok : s.connManager.Ok) {ps : List Int} (hnodup : ps.Nodup)
    (hps : ∀ p ∈ ps, p ∈ s.connManager.peerNodes) :
    Purged (fun p => p ∈ ps ∧ s.Unreachable p) s (s.dropBroken ps) := by
  refine (Purged.round (L := s.Unreachable) (fun h hF hp hl => ?_) (fun h hF hl => ?_) hnodup hps
    (Purged.refl s) fun _ _ => not_false).congr fun p => or_iff_right not_false
  · exact purged_dropIfBroken hp ((h.unreachable_iff hok hF).mpr hl)
  · exact dropIfBroken_of_reachable fun hu => hl ((h.unreachable_iff hok hF).mp hu)

end

end ChatServer

end DistributedChat
