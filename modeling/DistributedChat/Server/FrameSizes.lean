import DistributedChat.Protocol.Framing
import DistributedChat.Server.Outputs
import DistributedChat.Server.Registry

/-!
# The sizes of what a server sends

A handler puts the sender, delimiters and its own words around what it has
received, or packs all user names into one packet, and `Serialize` enforces no
bound.  So a frame may be larger than `ReadPacket` accepts.

The sizes of the frames a handled packet causes are read off the packet and the
state: `SizesFit` says that they are admissible, and `accepted_iff` that this is
exactly what it takes.  The frames of a disconnect, which follows a send to a
peer whose socket is broken, are included.
-/

namespace DistributedChat

/-- `ReadPacket` of the receiver accepts the length in the header. -/
def RawPacket.Accepted (pkt : RawPacket) : Prop :=
  1 ≤ pkt.headerLen ∧ pkt.headerLen ≤ maxPayloadSize

/-- A payload of this size gives a header that is accepted. -/
def Admissible (size : Nat) : Prop :=
  1 ≤ (1 + size % 2 ^ 32) % 2 ^ 32 ∧ (1 + size % 2 ^ 32) % 2 ^ 32 ≤ maxPayloadSize

instance (size : Nat) : Decidable (Admissible size) := inferInstanceAs (Decidable (_ ∧ _))

theorem RawPacket.accepted_iff (pkt : RawPacket) :
    pkt.Accepted ↔ Admissible pkt.payload.length := by
  rw [Accepted, headerLen_eq, Admissible]

/-- The size of a list of packed fields. -/
def packedSize (fields : List Bytes) : Nat := (fields.map fun f => f.length + 1).sum

@[simp] theorem length_pack (fields : List Bytes) : (pack fields).length = packedSize fields := by
  induction fields with
  | nil => rfl
  | cons f fs ih =>
      rw [pack, List.length_append, List.length_cons, ih, packedSize, packedSize, List.map_cons,
        List.sum_cons]
      omega

/-- The frame that is sent is accepted. -/
def Effect.Accepted (e : Effect) : Prop := e.packet.Accepted

namespace ChatServer

open Prog (observe update each EmitsAt)

theorem length_replicationPayload (key : Bytes) (i : Int) (flagged : Bool) :
    (replicationPayload key i flagged).length = key.length + (toString i).length + 4 := by
  rw [replicationPayload, length_pack]
  have hflag : (flag flagged).length = 1 := by cases flagged <;> decide
  simp only [packedSize, List.map_cons, List.map_nil, List.sum_cons, List.sum_nil, hflag]
  omega

/-! ## What must fit -/

/-- The size of the list of online users in a status update. -/
def noticeSize (s : ChatServer) : Nat :=
  packedSize [ascii "STATUS", pack s.userManager.getOnlineUsers]

/-- The list of online users fits, if anybody is sent it. -/
def NoticeFits (s : ChatServer) (skip : Option SOCKET) : Prop :=
  s.notified skip ≠ [] → Admissible s.noticeSize

/-- A payload fits on its way to peers, one after the other.  A peer whose socket
takes nothing is disconnected, and then the list of online users is sent. -/
def PeersFit (size : Nat) : List Int → ChatServer → Prop
  | [], _ => True
  | p :: ps, s =>
      (match s.connManager.linkSocket p with
        | none => True
        | some k =>
            if s.connManager.canSend k = true then Admissible size
            else p ∈ s.connManager.peerNodes → (s.purgePeer p).NoticeFits none) ∧
      PeersFit size ps (s.dropIfBroken p)

section

variable {α : Type} {s : ChatServer} {k : ConnRef} {t : PacketType} {pl : Bytes}

theorem accepted_sendPacket :
    EmitsAt Effect.Accepted (sendPacket k t pl) s ↔ Admissible pl.length := by
  rw [EmitsAt, run_sendPacket]
  exact (List.forall_mem_singleton ..).trans (RawPacket.accepted_iff ⟨t, pl⟩)

/-- One packet and nothing else. -/
theorem accepted_sendPacket_bind {g : Bool → ServerProg α} :
    EmitsAt Effect.Accepted (sendPacket k t pl >>= g) s ↔
      Admissible pl.length ∧ EmitsAt Effect.Accepted (g (s.connManager.canSend k)) s := by
  refine Prog.emitsAt_bind.trans (and_congr accepted_sendPacket ?_)
  rw [run_sendPacket]

/-- A loop that sends one packet to sessions. -/
theorem accepted_map_toSession {ks : List ConnRef} {pkt : RawPacket} :
    (∀ e ∈ ks.map fun k => Effect.toSession k pkt, e.Accepted) ↔
      (ks ≠ [] → Admissible pkt.payload.length) := by
  rw [List.forall_mem_map, ← RawPacket.accepted_iff]
  constructor
  · intro h hne
    obtain ⟨k, hk⟩ := List.exists_mem_of_ne_nil _ hne
    exact h k hk
  · intro h k hk
    exact h (List.ne_nil_of_mem hk)

theorem accepted_notifyOnlineUsers (skip : Option SOCKET) :
    EmitsAt Effect.Accepted (notifyOnlineUsers skip) s ↔ s.NoticeFits skip := by
  rw [EmitsAt, run_notifyOnlineUsers]
  refine accepted_map_toSession.trans ?_
  rw [onlinePacket, length_pack]
  rfl

theorem accepted_sendToMembers (names : List Bytes) :
    EmitsAt Effect.Accepted (sendToMembers names t pl) s ↔
      (s.sessionsOf names ≠ [] → Admissible pl.length) := by
  rw [EmitsAt, run_sendToMembers]
  exact accepted_map_toSession

theorem accepted_sendToAuthenticated :
    EmitsAt Effect.Accepted (sendToAuthenticated t pl) s ↔
      (s.authenticatedSessions ≠ [] → Admissible pl.length) := by
  rw [EmitsAt, run_sendToAuthenticated]
  exact accepted_map_toSession

theorem accepted_handlePeerDisconnect {p : Int} (hc : (s.connManager.nodes p).isConnected = true) :
    EmitsAt Effect.Accepted (handlePeerDisconnect p) s ↔
      (p ∈ s.connManager.peerNodes → (s.purgePeer p).NoticeFits none) := by
  rw [handlePeerDisconnect]
  simp only [Prog.emitsAt_observe_bind, hc, and_true, ConnectionManager.hasPeerNode,
    decide_eq_true_eq]
  split
  next hp =>
    rw [forall_prop_of_true hp, ← accepted_notifyOnlineUsers]
    simp only [Prog.emitsAt_observe_bind]
    cases hk : (s.connManager.nodes p).socket with
    | none =>
        rw [purgePeer, ConnectionManager.unlinked, hk, Prog.emitsAt_update_bind,
          Prog.emitsAt_update_bind, Prog.emitsAt_update_bind]
        rfl
    | some k =>
        rw [purgePeer, ConnectionManager.unlinked, hk]
        dsimp only
        rw [Prog.emitsAt_update_bind, Prog.emitsAt_update_bind, Prog.emitsAt_update_bind,
          Prog.emitsAt_update_bind]
        rfl
  next hp => exact iff_of_true (Prog.emitsAt_pure ()) fun h => absurd h hp

theorem accepted_sendFrame {p : Int} :
    EmitsAt Effect.Accepted (sendFrame p k t pl) s ↔
      (s.connManager.canSend k = true → Admissible pl.length) := by
  rw [EmitsAt]
  show (∀ e ∈ (if s.connManager.canSend k = true then [Effect.toPeer p k ⟨t, pl⟩] else []) ++ [],
    e.Accepted) ↔ _
  rw [List.append_nil]
  split
  next hk =>
    rw [forall_prop_of_true hk]
    exact (List.forall_mem_singleton ..).trans (RawPacket.accepted_iff ⟨t, pl⟩)
  next hk => exact iff_of_true (fun _ he => absurd he List.not_mem_nil) fun h => absurd h hk

theorem accepted_sendToPeer {p : Int} :
    EmitsAt Effect.Accepted (sendToPeer p t pl) s ↔ PeersFit pl.length [p] s := by
  rw [sendToPeer, PeersFit, PeersFit, and_true, ConnectionManager.linkSocket]
  simp only [Prog.emitsAt_observe_bind]
  split
  next hc =>
    rw [sendOrDisconnect]
    simp only [Prog.emitsAt_observe_bind]
    cases (s.connManager.nodes p).socket with
    | none => exact iff_of_true (Prog.emitsAt_pure ()) trivial
    | some k =>
        refine Prog.emitsAt_bind.trans ?_
        show EmitsAt Effect.Accepted (sendFrame p k t pl) s ∧
          EmitsAt _ (if s.connManager.canSend k = true then pure () else handlePeerDisconnect p) s ↔ _
        rw [accepted_sendFrame]
        by_cases hk : s.connManager.canSend k = true
        · rw [forall_prop_of_true hk, if_pos hk]
          exact (and_iff_left (Prog.emitsAt_pure ())).trans (iff_of_eq (if_pos hk).symm)
        · rw [if_neg hk, and_iff_right fun h => absurd h hk, accepted_handlePeerDisconnect hc]
          exact iff_of_eq (if_neg hk).symm
  next hc => exact iff_of_true (Prog.emitsAt_pure ()) trivial

/-- A round of sends to peers. -/
theorem accepted_each_sendToPeer (ps : List Int) :
    EmitsAt Effect.Accepted (each ps fun p => sendToPeer p t pl) s ↔ PeersFit pl.length ps s := by
  induction ps generalizing s with
  | nil => exact iff_of_true (Prog.emitsAt_pure ()) trivial
  | cons p ps ih =>
      refine Prog.emitsAt_each_cons.trans ?_
      rw [state_sendToPeer, ih, PeersFit]
      refine and_congr (accepted_sendToPeer.trans ?_) Iff.rfl
      rw [PeersFit, PeersFit, and_true]

theorem accepted_broadcastS2S :
    EmitsAt Effect.Accepted (broadcastS2S t pl) s ↔
      PeersFit pl.length s.connManager.getAllPeerNodes s := by
  rw [broadcastS2S, Prog.emitsAt_observe_bind]
  exact accepted_each_sendToPeer _

/-- A round of sends to those of a list that are peers. -/
theorem accepted_each_present (ps : List Int) :
    EmitsAt Effect.Accepted (each ps fun p => do
        let peer ← observe (·.connManager.hasPeerNode p)
        if peer = true then sendToPeer p t pl) s ↔
      PeersFit pl.length (ps.filter s.connManager.hasPeerNode) s := by
  induction ps generalizing s with
  | nil => exact iff_of_true (Prog.emitsAt_pure ()) trivial
  | cons p ps ih =>
      rw [Prog.emitsAt_each_cons, Prog.emitsAt_observe_bind, Prog.run_bind, Prog.run_observe]
      dsimp only
      rw [Prog.run_ite]
      by_cases hp : s.connManager.hasPeerNode p = true
      · have hfilter : (s.dropIfBroken p).connManager.hasPeerNode = s.connManager.hasPeerNode := by
          funext q
          rw [ConnectionManager.hasPeerNode, ConnectionManager.hasPeerNode, peerNodes_dropIfBroken]
        rw [if_pos hp, if_pos hp, state_sendToPeer, ih, List.filter_cons_of_pos hp, hfilter, PeersFit]
        refine and_congr (accepted_sendToPeer.trans ?_) Iff.rfl
        rw [PeersFit, PeersFit, and_true]
      · rw [if_neg hp, if_neg hp, List.filter_cons_of_neg hp, and_iff_right (Prog.emitsAt_pure ())]
        exact ih

end

/-! ## The handlers -/

section

variable (s : ChatServer) (k : ConnRef)

/-- What a login sends fits. -/
def LoginFits (payload : Bytes) : Prop :=
  s.Accepts payload (trim payload) →
    PeersFit (packedSize [trim payload, toString s.serverId, flag true])
      s.connManager.getAllPeerNodes (s.loggedIn k (trim payload)) ∧
    ((s.loggedIn k (trim payload)).dropBroken s.connManager.getAllPeerNodes).NoticeFits none

/-- What a private message makes the server send fits. -/
def PrivateFits (receiver text : Bytes) : Prop :=
  if s.userManager.getUserLocation receiver = s.serverId then
    (s.connManager.getSessionByUsername receiver).isSome = true →
      Admissible (packedSize [s.nameOf k, text]) ∧
      Admissible (packedSize [ascii "SUCCESS", ascii "Message delivered to " ++ receiver])
  else if s.userManager.getUserLocation receiver > 0 then
    s.connManager.hasPeerNode (s.userManager.getUserLocation receiver) = true →
      PeersFit (packedSize [s.nameOf k, receiver, text])
        [s.userManager.getUserLocation receiver] s
  else True

/-- What a room message makes the server send fits. -/
def RoomFits (room text : Bytes) : Prop :=
  s.connManager.isInRoom k room = true →
    (s.sessionsOf (s.roomManager.getLocalMembers room) ≠ [] →
      Admissible (packedSize [s.nameOf k, room, text])) ∧
    PeersFit (packedSize [s.nameOf k, room, text])
      ((s.roomManager.getRemoteServers room).filter s.connManager.hasPeerNode) s

/-- What a broadcast makes the server send fits. -/
def BroadcastFits (payload : Bytes) : Prop :=
  (s.authenticatedSessions ≠ [] → Admissible (packedSize [s.nameOf k, payload])) ∧
  PeersFit (packedSize [s.nameOf k, payload]) s.connManager.getAllPeerNodes s

/-- What a join sends fits. -/
def JoinFits (room : Bytes) : Prop :=
  room ≠ [] →
    Admissible (packedSize [ascii "SUCCESS", ascii "Joined room " ++ room]) ∧
    ((s.joined k room).sessionsOf ((s.joined k room).roomManager.getLocalMembers room) ≠ [] →
      Admissible (packedSize
        [ascii "INFO", ascii "User " ++ s.nameOf k ++ ascii " entered " ++ room])) ∧
    (s.roomManager.getLocalMembers room = [] →
      PeersFit (packedSize [room, toString s.serverId, flag true])
        s.connManager.getAllPeerNodes (s.joined k room))

/-- What a leave sends fits. -/
def LeaveFits (room : Bytes) : Prop :=
  ¬ (room = [] ∨ s.connManager.isInRoom k room = false) →
    Admissible (packedSize [ascii "SUCCESS", ascii "Left room " ++ room]) ∧
    ((s.left k room).sessionsOf ((s.left k room).roomManager.getLocalMembers room) ≠ [] →
      Admissible (packedSize
        [ascii "INFO", ascii "User " ++ s.nameOf k ++ ascii " left " ++ room])) ∧
    ((s.left k room).roomManager.getLocalMembers room = [] →
      PeersFit (packedSize [room, toString s.serverId, flag false])
        s.connManager.getAllPeerNodes (s.left k room))

/-- What a room creation sends fits. -/
def CreateFits (room : Bytes) : Prop :=
  room ≠ [] → Admissible (packedSize [ascii "SUCCESS",
    ascii "Room " ++ room ++ ascii " created. Type /join " ++ room ++ ascii " to enter."])

/-- The sizes of all frames that a client's packet makes the server send are admissible. -/
def SizesFit (pkt : RawPacket) : Prop :=
  ((s.connManager.sessions k).isAuthenticated = false ∧
    pkt.type ≠ .login ∧ pkt.type ≠ .s2sConnect) ∨
  match pkt.type with
  | .login => s.LoginFits k pkt.payload
  | .msgPrivate => ∀ receiver text rest,
      unpack pkt.payload = receiver :: text :: rest → s.PrivateFits k receiver text
  | .msgRoom => ∀ room text rest,
      unpack pkt.payload = room :: text :: rest → s.RoomFits k room text
  | .msgBroadcast => s.BroadcastFits k pkt.payload
  | .roomJoin => s.JoinFits k (trim pkt.payload)
  | .roomLeave => s.LeaveFits k (trim pkt.payload)
  | .roomCreate => CreateFits (trim pkt.payload)
  | _ => True

variable {s k}

theorem accepted_handleLogin {payload : Bytes} :
    EmitsAt Effect.Accepted (handleLogin k payload) s ↔ s.LoginFits k payload := by
  rw [handleLogin, LoginFits]
  split
  next hinvalid =>
    refine iff_of_true ?_ fun ha => absurd hinvalid ha.2.1
    exact accepted_sendPacket_bind.mpr ⟨by decide, Prog.emitsAt_pure ()⟩
  next hvalid =>
    rw [Prog.emitsAt_observe_bind]
    split
    next honline =>
      refine iff_of_true ?_ fun ha => absurd (honline.symm.trans ha.2.2) Bool.noConfusion
      exact accepted_sendPacket_bind.mpr ⟨by decide, Prog.emitsAt_pure ()⟩
    next hnot =>
      have ha : s.Accepts payload (trim payload) := ⟨rfl, hvalid, by simpa using hnot⟩
      rw [forall_prop_of_true ha, Prog.emitsAt_update_bind, Prog.emitsAt_update_bind,
        accepted_sendPacket_bind, and_iff_right (by decide)]
      refine Prog.emitsAt_bind.trans ?_
      rw [accepted_notifyOnlineUsers, replicateUserLogin, Prog.emitsAt_observe_bind,
        accepted_broadcastS2S, Prog.run_bind, Prog.run_observe, state_broadcastS2S,
        replicationPayload, length_pack]
      rfl

theorem accepted_handlePrivateMsg {payload : Bytes} :
    EmitsAt Effect.Accepted (handlePrivateMsg k payload) s ↔
      ∀ receiver text rest, unpack payload = receiver :: text :: rest →
        s.PrivateFits k receiver text := by
  rw [handlePrivateMsg]
  split
  next receiver text rest hu =>
    rw [hu]
    simp only [List.cons.injEq, and_imp]
    rw [Prog.emitsAt_observe_bind, Prog.emitsAt_observe_bind, Prog.emitsAt_observe_bind]
    have hfits : (∀ a b c, receiver = a → text = b → rest = c → s.PrivateFits k a b) ↔
        s.PrivateFits k receiver text :=
      ⟨fun h => h _ _ _ rfl rfl rfl, fun h _ _ _ ha hb _ => ha ▸ hb ▸ h⟩
    rw [hfits, PrivateFits]
    split
    next hloc =>
      rw [Prog.emitsAt_observe_bind]
      cases s.connManager.getSessionByUsername receiver with
      | none => exact iff_of_true (Prog.emitsAt_pure ()) Bool.noConfusion
      | some t =>
          refine Iff.trans ?_ ⟨fun h _ => h, fun h => h rfl⟩
          refine accepted_sendPacket_bind.trans ?_
          rw [accepted_sendPacket_bind, and_iff_left (Prog.emitsAt_pure ()), length_pack, length_pack]
          rfl
    next hloc =>
      split
      next hpos =>
        refine Prog.emitsAt_bind.trans ?_
        rw [accepted_sendPacket_bind, and_iff_left ⟨by decide, Prog.emitsAt_pure ()⟩,
          routePrivateMessage, Prog.emitsAt_observe_bind]
        split
        next hp =>
          rw [accepted_sendToPeer, length_pack]
          exact ⟨fun h _ => h, fun h => h hp⟩
        next hp => exact iff_of_true (Prog.emitsAt_pure ()) fun h => absurd h hp
      next hpos =>
        exact iff_of_true (accepted_sendPacket_bind.mpr ⟨by decide, Prog.emitsAt_pure ()⟩) trivial
  next hno =>
    exact iff_of_true (Prog.emitsAt_pure ()) fun receiver text rest hu => (hno _ _ _ hu).elim

theorem accepted_handleRoomMsg {payload : Bytes} :
    EmitsAt Effect.Accepted (handleRoomMsg k payload) s ↔
      ∀ room text rest, unpack payload = room :: text :: rest → s.RoomFits k room text := by
  rw [handleRoomMsg]
  split
  next room text rest hu =>
    rw [hu]
    simp only [List.cons.injEq, and_imp]
    have hfits : (∀ a b c, room = a → text = b → rest = c → s.RoomFits k a b) ↔
        s.RoomFits k room text :=
      ⟨fun h => h _ _ _ rfl rfl rfl, fun h _ _ _ ha hb _ => ha ▸ hb ▸ h⟩
    rw [hfits, RoomFits, Prog.emitsAt_observe_bind, Prog.emitsAt_observe_bind]
    split
    next hjoined =>
      rw [forall_prop_of_true hjoined, Prog.emitsAt_observe_bind]
      refine Prog.emitsAt_bind.trans ?_
      rw [accepted_sendToMembers, run_sendToMembers, routeRoomMessage, Prog.emitsAt_observe_bind,
        accepted_each_present, length_pack]
      rfl
    next hjoined =>
      exact iff_of_true (accepted_sendPacket_bind.mpr ⟨by decide, Prog.emitsAt_pure ()⟩)
        fun h => absurd h hjoined
  next hno =>
    exact iff_of_true (Prog.emitsAt_pure ()) fun room text rest hu => (hno _ _ _ hu).elim

theorem accepted_handleBroadcastMsg {payload : Bytes} :
    EmitsAt Effect.Accepted (handleBroadcastMsg k payload) s ↔ s.BroadcastFits k payload := by
  rw [handleBroadcastMsg, Prog.emitsAt_observe_bind]
  refine Prog.emitsAt_bind.trans ?_
  rw [accepted_sendToAuthenticated, run_sendToAuthenticated, accepted_broadcastS2S, length_pack]
  rfl

/-- A round of room replication, if the room has just begun or ended to have members. -/
theorem accepted_replicateRoom {room : Bytes} {online : Bool} :
    EmitsAt Effect.Accepted (do
        let id ← observe serverId
        broadcastS2S .s2sRoomMemberSync (replicationPayload room id online)) s ↔
      PeersFit (packedSize [room, toString s.serverId, flag online])
        s.connManager.getAllPeerNodes s := by
  rw [Prog.emitsAt_observe_bind, accepted_broadcastS2S, replicationPayload, length_pack]

theorem accepted_handleRoomJoin {payload : Bytes} :
    EmitsAt Effect.Accepted (handleRoomJoin k payload) s ↔ s.JoinFits k (trim payload) := by
  rw [handleRoomJoin, JoinFits, Prog.emitsAt_observe_bind]
  split
  next hr => exact iff_of_true (Prog.emitsAt_pure ()) fun h => absurd hr h
  next hr =>
    rw [forall_prop_of_true hr, Prog.emitsAt_update_bind, Prog.emitsAt_observe_bind,
      Prog.emitsAt_update_bind, accepted_sendPacket_bind, Prog.emitsAt_observe_bind, length_pack]
    refine and_congr Iff.rfl (Prog.emitsAt_bind.trans ?_)
    rw [accepted_sendToMembers, run_sendToMembers, length_pack]
    refine and_congr Iff.rfl ?_
    split
    next hbefore =>
      refine accepted_replicateRoom.trans ?_
      exact ⟨fun h _ => h, fun h => h hbefore⟩
    next hbefore => exact iff_of_true (Prog.emitsAt_pure ()) fun h => absurd h hbefore

theorem accepted_handleRoomLeave {payload : Bytes} :
    EmitsAt Effect.Accepted (handleRoomLeave k payload) s ↔ s.LeaveFits k (trim payload) := by
  rw [handleRoomLeave, LeaveFits, Prog.emitsAt_observe_bind, Prog.emitsAt_observe_bind]
  split
  next hr => exact iff_of_true (Prog.emitsAt_pure ()) fun h => absurd hr h
  next hr =>
    rw [forall_prop_of_true hr, Prog.emitsAt_update_bind, Prog.emitsAt_update_bind,
      accepted_sendPacket_bind, Prog.emitsAt_observe_bind, length_pack]
    refine and_congr Iff.rfl (Prog.emitsAt_bind.trans ?_)
    rw [accepted_sendToMembers, run_sendToMembers, length_pack]
    refine and_congr Iff.rfl ?_
    split
    next hafter =>
      refine accepted_replicateRoom.trans ?_
      exact ⟨fun h _ => h, fun h => h hafter⟩
    next hafter => exact iff_of_true (Prog.emitsAt_pure ()) fun h => absurd h hafter

theorem accepted_handleRoomCreate {payload : Bytes} :
    EmitsAt Effect.Accepted (handleRoomCreate k payload) s ↔ CreateFits (trim payload) := by
  rw [handleRoomCreate, CreateFits]
  split
  next hr => exact iff_of_true (Prog.emitsAt_pure ()) fun h => absurd hr h
  next hr =>
    rw [forall_prop_of_true hr, accepted_sendPacket_bind, and_iff_left (Prog.emitsAt_pure ()),
      length_pack]

theorem accepted_promote {payload : Bytes} : EmitsAt Effect.Accepted (promote k payload) s := by
  rw [promote]
  cases stoi payload with
  | none => exact Prog.emitsAt_pure ()
  | some p =>
      rw [Prog.emitsAt_observe_bind, Prog.emitsAt_update_bind, Prog.emitsAt_update_bind,
        Prog.emitsAt_observe_bind]
      split
      · rw [Prog.emitsAt_update_bind]
        exact fun _ he => absurd he List.not_mem_nil
      · exact Prog.emitsAt_pure ()

end

/-- What a client's packet makes the server send. -/
theorem accepted_handleClientPacket {s : ChatServer} {k : ConnRef} {pkt : RawPacket} :
    EmitsAt Effect.Accepted (handleClientPacket k pkt) s ↔ s.SizesFit k pkt := by
  rw [handleClientPacket, Prog.emitsAt_observe_bind, SizesFit]
  split
  next hgate =>
    exact iff_of_true (accepted_sendPacket_bind.mpr ⟨by decide, Prog.emitsAt_pure ()⟩) (Or.inl hgate)
  next hgate =>
    rw [or_iff_right hgate]
    cases pkt.type with
    | login => exact accepted_handleLogin
    | msgPrivate => exact accepted_handlePrivateMsg
    | msgRoom => exact accepted_handleRoomMsg
    | msgBroadcast => exact accepted_handleBroadcastMsg
    | roomJoin => exact accepted_handleRoomJoin
    | roomLeave => exact accepted_handleRoomLeave
    | roomCreate => exact accepted_handleRoomCreate
    | s2sConnect => exact iff_of_true accepted_promote trivial
    | _ => exact iff_of_true (Prog.emitsAt_pure ()) trivial

/-- **Frame sizes.**  In every state, every frame that a client's packet makes the
server send has a length its receiver accepts exactly if the sizes fit. -/
theorem frames_accepted_iff (s : ChatServer) (k : ConnRef) (pkt : RawPacket) :
    (∀ e ∈ ((handleClientPacket k pkt).run s).out,
      1 ≤ e.packet.headerLen ∧ e.packet.headerLen ≤ maxPayloadSize) ↔ s.SizesFit k pkt :=
  accepted_handleClientPacket

/-- A broadcast as large as `ReadPacket` accepts, from the only client. -/
theorem largest_broadcast_not_accepted :
    ¬ ∀ (as : List ClientAction) (s : ChatServer), exec clientNext (fresh 1) as = some s →
      ∀ (k : ConnRef) (pkt : RawPacket), pkt.Fits →
        ∀ e ∈ ((handleClientPacket k pkt).run s).out,
          1 ≤ e.packet.headerLen ∧ e.packet.headerLen ≤ maxPayloadSize := by
  intro h
  have hrun : (exec clientNext (fresh 1) [.connect 4, .packet 0 ⟨.login, ascii "ann"⟩]).any
      fun s => decide (s.nameOf 0 = ascii "ann" ∧ s.authenticatedSessions = [0] ∧
        (s.connManager.sessions 0).isAuthenticated = true) := by decide +kernel
  obtain ⟨s, hs, hs'⟩ := (Option.any_eq_true ..).mp hrun
  obtain ⟨hname, hsessions, hauth⟩ := of_decide_eq_true hs'
  -- only the length of the payload matters
  obtain ⟨payload, hlen⟩ : ∃ payload : Bytes, payload.length = maxPayloadSize - 1 :=
    ⟨List.replicate (maxPayloadSize - 1) 97, List.length_replicate⟩
  have hfits : RawPacket.Fits ⟨.msgBroadcast, payload⟩ := by
    rw [RawPacket.Fits, hlen]
    decide
  have hall := accepted_handleClientPacket.mp (h _ s hs 0 _ hfits)
  rcases hall with hgate | hall
  · exact absurd (hauth.symm.trans hgate.1) nofun
  · have hsize := hall.1 (by rw [hsessions]; nofun)
    rw [packedSize, hname, List.map_cons, List.map_cons, hlen] at hsize
    exact absurd hsize (by decide)

end ChatServer

end DistributedChat
