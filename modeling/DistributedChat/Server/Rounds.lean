import DistributedChat.Server.Outputs

/-!
# A round of frames in any state

A send to a peer puts the frame on the peer's socket if the peer is connected
over a socket that takes it (`openLink`), and disconnects the peer if the socket
does not.  The disconnect closes a socket that took no frames anyway, so it
leaves the open links of all peers alone (`openLink_dropIfBroken`).  Hence the
frames of a round of sends can be read off the state before the round, whatever
the state of the links.
-/

namespace DistributedChat

/-- The socket over which frames reach the peer. -/
def ConnectionManager.openLink (m : ConnectionManager) (p : Int) : Option ConnRef :=
  (m.linkSocket p).filter m.canSend

namespace ConnectionManager

variable {m : ConnectionManager} {p : Int} {k : ConnRef}

theorem openLink_of_linkSocket_eq_none (h : m.linkSocket p = none) : m.openLink p = none := by
  rw [openLink, h]
  rfl

/-- Closing a socket that takes no frames changes no other socket and opens none. -/
theorem canSend_unlinked (hk : ∀ k, (m.nodes p).socket = some k → m.canSend k = false) (now : Nat)
    (j : ConnRef) : (m.unlinked p now).canSend j = m.canSend j := by
  by_cases hj : (m.nodes p).socket = some j
  · rw [hk j hj, unlinked, hj]
    simp [canSend, getHandle]
  · simp only [canSend, getHandle, sockets_unlinked m now hj]

/-- Disconnecting a peer whose socket takes no frames leaves the open links alone. -/
theorem openLink_unlinked (hp : p ∈ m.peerNodes)
    (hk : ∀ k, (m.nodes p).socket = some k → m.canSend k = false) (now : Nat) (q : Int) :
    (m.unlinked p now).openLink q = m.openLink q := by
  have hsend : (m.unlinked p now).canSend = m.canSend := funext (canSend_unlinked hk now)
  rw [openLink, openLink, hsend]
  by_cases hq : q = p
  · subst hq
    have hnow : (m.unlinked q now).linkSocket q = none := by
      simp [linkSocket, nodes_unlinked m hp, ServerNode.setSocket]
    rw [hnow]
    symm
    show (m.linkSocket q).filter m.canSend = none
    rw [Option.filter_eq_none_iff]
    intro k hl
    have hs : (m.nodes q).socket = some k := by
      rw [linkSocket] at hl
      split at hl
      · exact hl
      · cases hl
    rw [hk k hs]
    exact Bool.false_ne_true
  · simp only [linkSocket, nodes_unlinked m hp, if_neg hq]

end ConnectionManager

namespace ChatServer

open Prog (observe update each)

variable {s : ChatServer} {p : Int}

/-- A send to a peer leaves the open links of all peers as they are. -/
theorem openLink_dropIfBroken (s : ChatServer) (p q : Int) :
    (s.dropIfBroken p).connManager.openLink q = s.connManager.openLink q := by
  rw [dropIfBroken]
  cases hl : s.connManager.linkSocket p with
  | none => rfl
  | some k =>
      show (if _ then _ else _ : ChatServer).connManager.openLink q = _
      split
      · rfl
      next hk =>
        rw [state_handlePeerDisconnect]
        split
        next hp =>
          refine ConnectionManager.openLink_unlinked hp.1 (fun j hj => ?_) _ _
          rw [ConnectionManager.linkSocket, if_pos hp.2, hj] at hl
          rw [Option.some.inj hl]
          exact Bool.eq_false_of_not_eq_true hk
        next => rfl

/-- The frames of a packet to the peers of a list. -/
def sends (s : ChatServer) (ps : List Int) (pkt : RawPacket) : List Effect :=
  ps.filterMap fun p => (s.connManager.openLink p).map fun k => .toPeer p k pkt

@[simp] theorem sends_nil (s : ChatServer) (pkt : RawPacket) : s.sends [] pkt = [] := rfl

theorem mem_sends {ps : List Int} {pkt : RawPacket} {e : Effect} :
    e ∈ s.sends ps pkt ↔
      ∃ p k, p ∈ ps ∧ s.connManager.openLink p = some k ∧ e = .toPeer p k pkt := by
  simp only [sends, List.mem_filterMap, Option.map_eq_some_iff]
  constructor
  · rintro ⟨p, hp, k, hk, rfl⟩
    exact ⟨p, k, hp, hk, rfl⟩
  · rintro ⟨p, k, hp, hk, rfl⟩
    exact ⟨p, hp, k, hk, rfl⟩

theorem sends_dropIfBroken (s : ChatServer) (p : Int) (ps : List Int) (pkt : RawPacket) :
    (s.dropIfBroken p).sends ps pkt = s.sends ps pkt := by
  simp only [sends, openLink_dropIfBroken]

/-- A disconnect sends no frame. -/
theorem frames_handlePeerDisconnect (p : Int) (s : ChatServer) :
    framesOf ((handlePeerDisconnect p).run s).out = [] := by
  by_cases h : p ∈ s.connManager.peerNodes ∧ (s.connManager.nodes p).isConnected = true
  · cases hk : (s.connManager.nodes p).socket with
    | none => simp [handlePeerDisconnect, ConnectionManager.hasPeerNode, h, hk]
    | some k => simp [handlePeerDisconnect, ConnectionManager.hasPeerNode, h, hk]
  · simp [handlePeerDisconnect, ConnectionManager.hasPeerNode, h]

/-- A send to a peer puts the frame on its open link. -/
theorem frames_sendToPeer (p : Int) (t : PacketType) (pl : Bytes) (s : ChatServer) :
    framesOf ((sendToPeer p t pl).run s).out = s.sends [p] ⟨t, pl⟩ := by
  cases hc : (s.connManager.nodes p).isConnected with
  | false =>
      have hl : s.connManager.linkSocket p = none := by simp [ConnectionManager.linkSocket, hc]
      simp [sendToPeer, hc, sends, ConnectionManager.openLink_of_linkSocket_eq_none hl]
  | true =>
      cases hk : (s.connManager.nodes p).socket with
      | none =>
          have hl : s.connManager.linkSocket p = none := by
            simp [ConnectionManager.linkSocket, hk]
          simp [sendToPeer, sendOrDisconnect, hc, hk, sends,
            ConnectionManager.openLink_of_linkSocket_eq_none hl]
      | some k =>
          have hl : s.connManager.linkSocket p = some k := by
            simp [ConnectionManager.linkSocket, hc, hk]
          cases hs : s.connManager.canSend k with
          | true =>
              simp [sendToPeer, sendOrDisconnect, hc, hk, sends, ConnectionManager.openLink, hl, hs,
                sendFrame, Prog.run, framesOf, Effect.isFrame]
          | false =>
              simp [sendToPeer, sendOrDisconnect, hc, hk, sends, ConnectionManager.openLink, hl, hs,
                sendFrame, Prog.run, frames_handlePeerDisconnect]

/-- A round of sends puts the frame on the open links of its peers. -/
theorem frames_each_sendToPeer (ps : List Int) (t : PacketType) (pl : Bytes) (s : ChatServer) :
    framesOf ((each ps fun p => sendToPeer p t pl).run s).out = s.sends ps ⟨t, pl⟩ := by
  induction ps generalizing s with
  | nil => rfl
  | cons p ps ih =>
      rw [Prog.run_each_cons, framesOf_append, frames_sendToPeer, state_sendToPeer, ih,
        sends_dropIfBroken]
      exact List.filterMap_append.symm

theorem frames_broadcastS2S (t : PacketType) (pl : Bytes) (s : ChatServer) :
    framesOf ((broadcastS2S t pl).run s).out =
      s.sends s.connManager.getAllPeerNodes ⟨t, pl⟩ :=
  frames_each_sendToPeer ..

end ChatServer

end DistributedChat
