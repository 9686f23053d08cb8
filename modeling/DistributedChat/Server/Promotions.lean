import DistributedChat.Server.Rounds

/-!
# Promotion to a peer

`S2S_CONNECT` turns a session into the link of a peer.  The handler removes the
session before it looks for the peer, and it touches neither the user table nor
the rooms.  So a session with a name leaves that name behind in the user table,
and a session that names no peer is removed all the same.  A promotion is whole,
that is either carried out or without effect, exactly in the other cases
(`promoted_whole_iff`).
-/

namespace DistributedChat

namespace ChatServer

open Prog (observe update each)

/-- The session has become the registered link of a configured peer.  If it had a name, the
name is out of the user table and every peer with an open link has been told. -/
structure Promotes (s : ChatServer) (k : ConnRef) (p : Int) (s' : ChatServer)
    (out : List Effect) : Prop where
  configured : p ∈ s.connManager.peerNodes
  link : s'.connManager.linkSocket p = some k
  registered : s'.connManager.peerNodesBySocket.lookup (s.connManager.getHandle k) = some p
  gone : s.nameOf k ≠ [] → s'.userManager.location? (s.nameOf k) = none
  told : s.nameOf k ≠ [] → ∀ q ∈ s.connManager.peerNodes, ∀ sock,
    s.connManager.openLink q = some sock →
      .toPeer q sock ⟨.s2sReplicateUser, replicationPayload (s.nameOf k) s.serverId false⟩ ∈ out

/-- The session, user, room and peer tables are as they were. -/
structure SameRecords (s s' : ChatServer) : Prop where
  sessionsBySocket : s'.connManager.sessionsBySocket = s.connManager.sessionsBySocket
  sessionsByUsername : s'.connManager.sessionsByUsername = s.connManager.sessionsByUsername
  users : s'.userManager = s.userManager
  rooms : s'.roomManager = s.roomManager
  peerNodes : s'.connManager.peerNodes = s.connManager.peerNodes
  peerNodesBySocket : s'.connManager.peerNodesBySocket = s.connManager.peerNodesBySocket
  nodes : s'.connManager.nodes = s.connManager.nodes

/-- The promotion is carried out, or it names no configured peer and has no effect. -/
def PromotedWhole (s : ChatServer) (k : ConnRef) (payload : Bytes) : Prop :=
  let r := (handleClientPacket k ⟨.s2sConnect, payload⟩).run s
  (∃ p, stoi payload = some p ∧ s.Promotes k p r.state r.out) ∨
    ((∀ p, stoi payload = some p → p ∉ s.connManager.peerNodes) ∧ s.SameRecords r.state)

/-- Nobody has to be told that the session's user is gone. -/
def Nameless (s : ChatServer) (k : ConnRef) : Prop :=
  s.nameOf k ≠ [] → s.userManager.location? (s.nameOf k) = none ∧
    ∀ q ∈ s.connManager.peerNodes, s.connManager.openLink q = none

/-- No session is registered on the connection. -/
def Unregistered (s : ChatServer) (k : ConnRef) : Prop :=
  s.connManager.sessionsBySocket.lookup (s.connManager.getHandle k) = none

section

variable (s : ChatServer) (k : ConnRef) (payload : Bytes)

/-- A handled `S2S_CONNECT` promotes the session and sends nothing. -/
theorem run_handleClientPacket_s2sConnect :
    (handleClientPacket k ⟨.s2sConnect, payload⟩).run s =
      ⟨(), match stoi payload with
        | none => s
        | some p => s.promoted k p, []⟩ := by
  cases hp : stoi payload with
  | none => simp [handleClientPacket, promote, hp]
  | some p =>
      show _ = (⟨(), s.promoted k p, []⟩ : Outcome _ _ _)
      by_cases hpeer : p ∈ s.connManager.peerNodes
      · simp [handleClientPacket, promote, hp, promoted, hpeer, ConnectionManager.hasPeerNode,
          linked, ConnectionManager.linked, removed]
        rfl
      · have hnot : p ∉ (s.removed k).connManager.peerNodes := by
          rw [removed, onConn_connManager, ConnectionManager.peerNodes_removeSession]
          exact hpeer
        have hsame : (s.removed k).onConn (·.registerPeerSocket p k s.now) = s.removed k := by
          rw [onConn, ConnectionManager.registerPeerSocket, if_neg hnot]
        rw [promoted, if_neg hpeer]
        simp [handleClientPacket, promote, hp, hpeer, ConnectionManager.hasPeerNode]
        exact hsame

/-- A session that names a peer becomes its link. -/
theorem promotes_promoted_iff {p : Int} (hp : p ∈ s.connManager.peerNodes) :
    s.Promotes k p (s.promoted k p) [] ↔ s.Nameless k := by
  have hpeers : p ∈ (s.removed k).connManager.peerNodes := by
    rw [removed, onConn_connManager, ConnectionManager.peerNodes_removeSession]
    exact hp
  rw [promoted, if_pos hp]
  constructor
  · intro h hn
    refine ⟨h.gone hn, fun q hq => Option.eq_none_iff_forall_ne_some.mpr fun sock hl => ?_⟩
    exact List.not_mem_nil (h.told hn q hq sock hl)
  · intro h
    refine ⟨hp, ?_, ?_, fun hn => (h hn).1, fun hn q hq sock hl => ?_⟩
    · have hnode := ConnectionManager.nodes_linked (k := k) (s.removed k).connManager hpeers s.now p
      rw [if_pos rfl] at hnode
      show ((s.removed k).connManager.linked p k s.now).linkSocket p = some k
      simp [ConnectionManager.linkSocket, hnode]
    · show ((s.removed k).connManager.registerPeerSocket p k s.now).peerNodesBySocket.lookup _ = _
      rw [ConnectionManager.registerPeerSocket, if_pos hpeers]
      show ((s.removed k).connManager.peerNodesBySocket.insert
        ((s.removed k).connManager.getHandle k) p).lookup _ = some p
      rw [Table.lookup_insert, if_pos]
      simp [removed, ConnectionManager.getHandle]
    · rw [(h hn).2 q hq] at hl
      cases hl

/-- Removing a session changes the tables if there is one. -/
theorem sameRecords_removed_iff : s.SameRecords (s.removed k) ↔ s.Unregistered k := by
  constructor
  · intro h
    rw [Unregistered]
    cases hk : s.connManager.sessionsBySocket.lookup (s.connManager.getHandle k) with
    | none => rfl
    | some j =>
        have hsame := h.sessionsBySocket
        rw [removed, onConn_connManager, ConnectionManager.removeSession, hk] at hsame
        have hgone : (s.connManager.sessionsBySocket.erase (s.connManager.getHandle k)).lookup
            (s.connManager.getHandle k) = none := by rw [Table.lookup_erase, if_pos rfl]
        rw [← hk, ← hsame]
        exact hgone
  · intro h
    have hsame : s.removed k = s := by
      rw [removed, onConn, ConnectionManager.removeSession, h]
    rw [hsame]
    exact ⟨rfl, rfl, rfl, rfl, rfl, rfl, rfl⟩

end

/-- A promotion is all or nothing if the payload is no integer, if it names a configured peer
and there is no name to log out, or if it names no peer and there is no session to remove; and
only then. -/
theorem promoted_whole_iff (s : ChatServer) (k : ConnRef) (payload : Bytes) :
    s.PromotedWhole k payload ↔
      ∀ p, stoi payload = some p →
        if p ∈ s.connManager.peerNodes then s.Nameless k else s.Unregistered k := by
  rw [PromotedWhole, run_handleClientPacket_s2sConnect]
  cases hp : stoi payload with
  | none =>
      refine iff_of_true (Or.inr ⟨?_, rfl, rfl, rfl, rfl, rfl, rfl, rfl⟩) ?_
      · intro p he
        cases he
      · intro p he
        cases he
  | some p =>
      simp only [Option.some.injEq, forall_eq', exists_eq_left']
      by_cases hpeer : p ∈ s.connManager.peerNodes
      · rw [if_pos hpeer, promotes_promoted_iff s k hpeer]
        exact or_iff_left fun h => h.1 hpeer
      · rw [if_neg hpeer, ← sameRecords_removed_iff, promoted, if_neg hpeer]
        constructor
        · rintro (h | h)
          · exact absurd h.configured hpeer
          · exact h.2
        · exact fun h => .inr ⟨hpeer, h⟩

/-- `ann` logs in and names peer 2: her connection becomes its link and she stays online. -/
theorem not_promoted_whole : ¬ ∀ s k payload, PromotedWhole s k payload := by
  intro h
  let accepted := ((acceptConnection 5).run (configured 1 [2])).state
  let withAnn := ((handleClientPacket 0 ⟨.login, ascii "ann"⟩).run accepted).state
  rcases h withAnn 0 (ascii "2") with ⟨p, -, hp⟩ | ⟨hp, -⟩
  · have hgone := hp.gone (by decide +kernel)
    rw [run_handleClientPacket_s2sConnect] at hgone
    have hstill : (withAnn.promoted 0 2).userManager.location? (withAnn.nameOf 0) = some 1 := by
      decide +kernel
    exact absurd (hgone.symm.trans hstill) (by simp)
  · exact hp 2 (by decide) (by decide +kernel)

end ChatServer

end DistributedChat
