import DistributedChat.Server.ChatServer

/-!
# Sending, run alone

What the sending loops do when no other thread interferes.  The loops over
client sessions leave the state alone.  The loops over peers disconnect every
peer whose socket does not take the frame (`dropBroken`), so in a state where
every connected peer has a working socket (`LinksGood`) they leave the state
alone too, and the frames they send are `frames`.
-/

namespace DistributedChat

/-- The link of a peer is closed and taken off its node. -/
def ConnectionManager.unlinked (m : ConnectionManager) (p : Int) (now : Nat) : ConnectionManager :=
  (match (m.nodes p).socket with
    | none => m
    | some k => m.closeSocket k).unregisterPeerSocket p now

namespace ChatServer

open Prog (observe update each)

section

variable (f : ConnectionManager → ConnectionManager) (g : UserManager → UserManager)
  (h : ChatRoomManager → ChatRoomManager) (s : ChatServer)

@[simp] theorem onConn_connManager : (s.onConn f).connManager = f s.connManager := rfl
@[simp] theorem onConn_userManager : (s.onConn f).userManager = s.userManager := rfl
@[simp] theorem onConn_roomManager : (s.onConn f).roomManager = s.roomManager := rfl
@[simp] theorem onConn_serverId : (s.onConn f).serverId = s.serverId := rfl
@[simp] theorem onConn_now : (s.onConn f).now = s.now := rfl
@[simp] theorem onUsers_connManager : (s.onUsers g).connManager = s.connManager := rfl
@[simp] theorem onUsers_userManager : (s.onUsers g).userManager = g s.userManager := rfl
@[simp] theorem onUsers_roomManager : (s.onUsers g).roomManager = s.roomManager := rfl
@[simp] theorem onUsers_serverId : (s.onUsers g).serverId = s.serverId := rfl
@[simp] theorem onUsers_now : (s.onUsers g).now = s.now := rfl
@[simp] theorem onRooms_connManager : (s.onRooms h).connManager = s.connManager := rfl
@[simp] theorem onRooms_userManager : (s.onRooms h).userManager = s.userManager := rfl
@[simp] theorem onRooms_roomManager : (s.onRooms h).roomManager = h s.roomManager := rfl
@[simp] theorem onRooms_serverId : (s.onRooms h).serverId = s.serverId := rfl
@[simp] theorem onRooms_now : (s.onRooms h).now = s.now := rfl

end

/-- The network no longer takes what is sent on the socket. -/
def cutOff (s : ChatServer) (k : ConnRef) : ChatServer :=
  s.onConn fun m =>
    { m with sockets := Function.update m.sockets k { m.sockets k with broken := true } }

theorem getHandle_cutOff (s : ChatServer) (k j : ConnRef) :
    (s.cutOff k).connManager.getHandle j = s.connManager.getHandle j := by
  show (Function.update s.connManager.sockets k _ j).handle = _
  rw [Function.update_apply]
  split
  next he =>
    subst he
    rfl
  next => rfl

/-! ## Loops over client sessions -/

@[simp] theorem run_sendPacket (k : ConnRef) (t : PacketType) (pl : Bytes) (s : ChatServer) :
    (sendPacket k t pl).run s = ⟨s.connManager.canSend k, s, [.toSession k ⟨t, pl⟩]⟩ := rfl

/-- A loop whose body sends a packet to one session when a test passes. -/
theorem run_each_sendIf {β : Type} {s : ChatServer} {xs : List β}
    {body : β → ServerProg Unit} {dest : β → Option ConnRef} {pkt : RawPacket}
    (h : ∀ x, (body x).run s = ⟨(), s, ((dest x).map fun t => Effect.toSession t pkt).toList⟩) :
    (each xs body).run s = ⟨(), s, (xs.filterMap dest).map fun t => .toSession t pkt⟩ := by
  rw [Prog.run_each_of_state_eq fun x _ => by rw [h x]]
  congr 1
  induction xs with
  | nil => rfl
  | cons x xs ih =>
      rw [List.flatMap_cons, ih, h x, List.filterMap_cons]
      cases dest x <;> rfl

/-- The packet with the list of online users. -/
def onlinePacket (s : ChatServer) : RawPacket :=
  ⟨.statusUpdate, pack [ascii "STATUS", pack s.userManager.getOnlineUsers]⟩

/-- The sessions `notifyOnlineUsers` sends to. -/
def notified (s : ChatServer) (skip : Option SOCKET) : List ConnRef :=
  s.connManager.getAllSessions.filterMap fun k =>
    if (s.connManager.sessions k).isAuthenticated = true ∧ skip ≠ some (s.connManager.getHandle k)
    then some k else none

@[simp] theorem run_notifyOnlineUsers (skip : Option SOCKET) (s : ChatServer) :
    (notifyOnlineUsers skip).run s =
      ⟨(), s, (s.notified skip).map fun k => .toSession k s.onlinePacket⟩ := by
  simp only [notifyOnlineUsers, Prog.run_bind, Prog.run_observe, List.nil_append]
  refine run_each_sendIf fun k => ?_
  by_cases h : (s.connManager.sessions k).isAuthenticated = true ∧
      skip ≠ some (s.connManager.getHandle k)
  · simp [h, onlinePacket]
  · simp [h]

/-- The sessions of the local users in a list of names. -/
def sessionsOf (s : ChatServer) (names : List Bytes) : List ConnRef :=
  names.filterMap s.connManager.getSessionByUsername

@[simp] theorem run_sendToMembers (names : List Bytes) (t : PacketType) (pl : Bytes)
    (s : ChatServer) :
    (sendToMembers names t pl).run s =
      ⟨(), s, (s.sessionsOf names).map fun k => .toSession k ⟨t, pl⟩⟩ := by
  refine run_each_sendIf fun name => ?_
  simp only [Prog.run_bind, Prog.run_observe, List.nil_append]
  cases s.connManager.getSessionByUsername name <;> rfl

/-- The authenticated sessions. -/
def authenticatedSessions (s : ChatServer) : List ConnRef :=
  s.connManager.getAllSessions.filter fun k => (s.connManager.sessions k).isAuthenticated

@[simp] theorem run_sendToAuthenticated (t : PacketType) (pl : Bytes) (s : ChatServer) :
    (sendToAuthenticated t pl).run s =
      ⟨(), s, s.authenticatedSessions.map fun k => .toSession k ⟨t, pl⟩⟩ := by
  simp only [sendToAuthenticated, Prog.run_bind, Prog.run_observe, List.nil_append]
  rw [authenticatedSessions, ← List.filterMap_eq_filter]
  refine run_each_sendIf fun k => ?_
  by_cases h : (s.connManager.sessions k).isAuthenticated = true
  · simp [h, Option.guard]
  · simp [h, Option.guard]

/-! ## Disconnecting a peer -/

/-- `HandlePeerDisconnect` on a connected peer. -/
def purgePeer (p : Int) (s : ChatServer) : ChatServer :=
  { s with
    connManager := s.connManager.unlinked p s.now
    userManager := s.userManager.clearServerUsers p
    roomManager := s.roomManager.clearServerMemberships p }

/-- `HandlePeerDisconnect` purges a connected peer and does nothing otherwise. -/
theorem state_handlePeerDisconnect (p : Int) (s : ChatServer) :
    ((handlePeerDisconnect p).run s).state =
      if p ∈ s.connManager.peerNodes ∧ (s.connManager.nodes p).isConnected = true
      then s.purgePeer p else s := by
  by_cases h : p ∈ s.connManager.peerNodes ∧ (s.connManager.nodes p).isConnected = true
  · rw [if_pos h]
    cases hk : (s.connManager.nodes p).socket <;>
      simp [handlePeerDisconnect, ConnectionManager.hasPeerNode, purgePeer,
        ConnectionManager.unlinked, h, hk] <;> rfl
  · rw [if_neg h]
    simp [handlePeerDisconnect, ConnectionManager.hasPeerNode, h]

/-- A send to peer `p` disconnects it if its socket does not take the frame. -/
def dropIfBroken (s : ChatServer) (p : Int) : ChatServer :=
  match s.connManager.linkSocket p with
  | none => s
  | some k =>
      if s.connManager.canSend k = true then s else ((handlePeerDisconnect p).run s).state

/-- Sends to the peers of a list disconnect the broken ones. -/
def dropBroken (s : ChatServer) (ps : List Int) : ChatServer := ps.foldl dropIfBroken s

theorem state_sendToPeer (p : Int) (t : PacketType) (pl : Bytes) (s : ChatServer) :
    ((sendToPeer p t pl).run s).state = s.dropIfBroken p := by
  by_cases hc : (s.connManager.nodes p).isConnected = true
  · cases hk : (s.connManager.nodes p).socket with
    | none => simp [sendToPeer, sendOrDisconnect, dropIfBroken, ConnectionManager.linkSocket, hc, hk]
    | some k =>
        by_cases h : s.connManager.canSend k = true <;>
          simp [sendToPeer, sendOrDisconnect, sendFrame, Prog.run, dropIfBroken,
            ConnectionManager.linkSocket, hc, hk, h]
  · simp [sendToPeer, dropIfBroken, ConnectionManager.linkSocket, hc]

theorem state_each_sendToPeer {ps : List Int} {t : PacketType} {pl : Bytes} (s : ChatServer) :
    ((each ps fun p => sendToPeer p t pl).run s).state = s.dropBroken ps := by
  rw [Prog.state_run_each, dropBroken]
  congr 1
  funext s p
  exact state_sendToPeer p t pl s

@[simp] theorem state_broadcastS2S (t : PacketType) (pl : Bytes) (s : ChatServer) :
    ((broadcastS2S t pl).run s).state = s.dropBroken s.connManager.getAllPeerNodes := by
  simp only [broadcastS2S, Prog.run_bind, Prog.run_observe]
  exact state_each_sendToPeer s

/-- What `HandlePeerDisconnect` preserves, sends to peers preserve. -/
theorem dropBroken_induct {I : ChatServer → Prop}
    (h : ∀ s p, I s → p ∈ s.connManager.peerNodes →
      (s.connManager.nodes p).isConnected = true → I (s.purgePeer p))
    {s : ChatServer} (hs : I s) (ps : List Int) : I (s.dropBroken ps) := by
  induction ps generalizing s with
  | nil => exact hs
  | cons p ps ih =>
      refine ih ?_
      rw [dropIfBroken]
      split
      · exact hs
      · split
        · exact hs
        · rw [state_handlePeerDisconnect]
          split
          next hp => exact h s p hs hp.1 hp.2
          next => exact hs

/-! ## Sending while the links are good -/

/-- Every connected peer has a socket that takes frames. -/
def LinksGood (s : ChatServer) : Prop :=
  ∀ p ∈ s.connManager.peerNodes, ∀ k, s.connManager.linkSocket p = some k →
    s.connManager.canSend k = true

/-- The frames that sends of a packet to the peers of a list put on their sockets. -/
def frames (s : ChatServer) (ps : List Int) (pkt : RawPacket) : List Effect :=
  ps.filterMap fun p => (s.connManager.linkSocket p).map fun k => .toPeer p k pkt

@[simp] theorem frames_nil (s : ChatServer) (pkt : RawPacket) : s.frames [] pkt = [] := rfl

theorem mem_frames {s : ChatServer} {ps : List Int} {pkt : RawPacket} {e : Effect} :
    e ∈ s.frames ps pkt ↔
      ∃ p k, p ∈ ps ∧ s.connManager.linkSocket p = some k ∧ e = .toPeer p k pkt := by
  simp only [frames, List.mem_filterMap, Option.map_eq_some_iff]
  constructor
  · rintro ⟨p, hp, k, hk, rfl⟩
    exact ⟨p, k, hp, hk, rfl⟩
  · rintro ⟨p, k, hp, hk, rfl⟩
    exact ⟨p, hp, k, hk, rfl⟩

theorem run_sendToPeer {s : ChatServer} (h : s.LinksGood) {p : Int}
    (hp : p ∈ s.connManager.peerNodes) (t : PacketType) (pl : Bytes) :
    (sendToPeer p t pl).run s = ⟨(), s, s.frames [p] ⟨t, pl⟩⟩ := by
  have hgood := h p hp
  simp only [sendToPeer, Prog.run_bind, Prog.run_observe, frames,
    ConnectionManager.linkSocket] at hgood ⊢
  by_cases hc : (s.connManager.nodes p).isConnected = true
  · simp only [hc, if_true] at hgood ⊢
    simp only [sendOrDisconnect, Prog.run_bind, Prog.run_observe]
    cases hk : (s.connManager.nodes p).socket with
    | none => simp [hc, hk]
    | some k => simp [sendFrame, Prog.run, hgood k hk, hc, hk]
  · simp [hc]

/-- A loop over peers whose body sends one packet. -/
theorem run_each_frames {s : ChatServer} {ps : List Int} {body : Int → ServerProg Unit}
    {pkt : RawPacket} (h : ∀ p ∈ ps, (body p).run s = ⟨(), s, s.frames [p] pkt⟩) :
    (each ps body).run s = ⟨(), s, s.frames ps pkt⟩ := by
  rw [Prog.run_each_of_state_eq fun p hp => by rw [h p hp]]
  congr 1
  induction ps with
  | nil => rfl
  | cons p ps ih =>
      rw [List.flatMap_cons, ih fun q hq => h q (List.mem_cons_of_mem _ hq),
        h p (List.mem_cons_self ..)]
      exact List.filterMap_append.symm

theorem run_each_sendToPeer {s : ChatServer} (h : s.LinksGood) {ps : List Int}
    (hps : ∀ p ∈ ps, p ∈ s.connManager.peerNodes) (t : PacketType) (pl : Bytes) :
    (each ps fun p => sendToPeer p t pl).run s = ⟨(), s, s.frames ps ⟨t, pl⟩⟩ :=
  run_each_frames fun p hp => run_sendToPeer h (hps p hp) t pl

theorem run_broadcastS2S {s : ChatServer} (h : s.LinksGood) (t : PacketType) (pl : Bytes) :
    (broadcastS2S t pl).run s = ⟨(), s, s.frames s.connManager.getAllPeerNodes ⟨t, pl⟩⟩ := by
  simp only [broadcastS2S, Prog.run_bind, Prog.run_observe, List.nil_append]
  have hps : ∀ p ∈ s.connManager.getAllPeerNodes, p ∈ s.connManager.peerNodes := fun p hp => hp
  rw [run_each_sendToPeer h hps]

theorem dropIfBroken_eq_self {s : ChatServer} (h : s.LinksGood) {p : Int}
    (hp : p ∈ s.connManager.peerNodes) : s.dropIfBroken p = s := by
  rw [dropIfBroken]
  split
  · rfl
  next k hk => rw [if_pos (h p hp k hk)]

theorem dropBroken_eq_self {s : ChatServer} (h : s.LinksGood) {ps : List Int}
    (hps : ∀ p ∈ ps, p ∈ s.connManager.peerNodes) : s.dropBroken ps = s := by
  induction ps with
  | nil => rfl
  | cons p ps ih =>
      rw [dropBroken, List.foldl_cons, dropIfBroken_eq_self h (hps p (List.mem_cons_self ..))]
      exact ih fun q hq => hps q (List.mem_cons_of_mem _ hq)

end ChatServer

end DistributedChat
