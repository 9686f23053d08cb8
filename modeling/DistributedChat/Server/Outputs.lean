import DistributedChat.Server.Sessions

/-!
# What the handlers send

Three kinds of results.  The handlers of room messages and broadcasts send exactly
the packets listed here, when the links are good.  Every packet with a chat
message in it, whichever handler sends it and whatever the state of the links,
begins with the name of the session or with the sender of the peer's packet that
caused it (`Effect.Says`).  And peers are sent the types `S2S_*` only
(`Effect.ForPeers`).
-/

namespace DistributedChat

/-- The packet types that carry a chat message, between servers or to a client. -/
def PacketType.IsChat : PacketType → Prop
  | msgPrivate | msgRoom | msgBroadcast | s2sRouteMsg | s2sRouteRoomMsg => True
  | _ => False

instance : DecidablePred PacketType.IsChat := fun
  | .msgPrivate | .msgRoom | .msgBroadcast | .s2sRouteMsg | .s2sRouteRoomMsg => instDecidableTrue
  | .login | .loginResp | .roomJoin | .roomLeave | .roomCreate | .statusUpdate | .s2sConnect
  | .s2sHeartbeat | .s2sHeartbeatAck | .s2sReplicateUser | .s2sRoomMemberSync | .unknown _ =>
      instDecidableFalse

/-- The packet types `S2S_*`. -/
def PacketType.IsS2S : PacketType → Prop
  | s2sConnect | s2sHeartbeat | s2sHeartbeatAck | s2sReplicateUser | s2sRouteMsg
  | s2sRouteRoomMsg | s2sRoomMemberSync => True
  | _ => False

instance : DecidablePred PacketType.IsS2S := fun
  | .s2sConnect | .s2sHeartbeat | .s2sHeartbeatAck | .s2sReplicateUser | .s2sRouteMsg
  | .s2sRouteRoomMsg | .s2sRoomMemberSync => instDecidableTrue
  | .login | .loginResp | .msgPrivate | .msgRoom | .msgBroadcast | .roomJoin | .roomLeave
  | .roomCreate | .statusUpdate | .unknown _ => instDecidableFalse

theorem PacketType.IsMessage.isChat {t : PacketType} (h : t.IsMessage) : t.IsChat := by
  cases t <;> first | exact h.elim | trivial

/-- The first field of the packet. -/
def RawPacket.sender? (pkt : RawPacket) : Option Bytes := (unpack pkt.payload).head?

theorem sender?_pack {u : Bytes} (h : NulFree u) (t : PacketType) (fields : List Bytes) :
    RawPacket.sender? ⟨t, pack (u :: fields)⟩ = some u := by
  rw [RawPacket.sender?, unpack_pack_cons h]
  rfl

/-- The packet that is sent. -/
def Effect.packet : Effect → RawPacket
  | .toSession _ pkt => pkt
  | .toPeer _ _ pkt => pkt

/-- A chat message that is sent bears the sender. -/
def Effect.Says (u : Bytes) (e : Effect) : Prop := e.packet.type.IsChat → e.packet.sender? = some u

/-- A status update to a session, or the packet to a peer. -/
def Effect.Spreads (pkt : RawPacket) : Effect → Prop
  | .toSession _ p => p.type = .statusUpdate
  | .toPeer _ _ p => p = pkt

theorem Effect.Spreads.tells {pkt : RawPacket} {e : Effect} {u : Bytes} (h : e.Spreads pkt)
    (hp : pkt.type.IsChat → pkt.sender? = some u) : e.Says u := by
  cases e with
  | toSession k p =>
      intro hc
      rw [Effect.packet, show p.type = .statusUpdate from h] at hc
      exact hc.elim
  | toPeer p sock q => exact (show q = pkt from h) ▸ hp

/-- No chat message is sent. -/
def Effect.Mute (e : Effect) : Prop := ¬ e.packet.type.IsChat

theorem Effect.Mute.tells {e : Effect} (h : e.Mute) (u : Bytes) : e.Says u := fun hc => absurd hc h

theorem Effect.Spreads.mute {t : PacketType} {pl : Bytes} {e : Effect} (h : e.Spreads ⟨t, pl⟩)
    (hp : ¬ t.IsChat) : e.Mute := by
  cases e with
  | toSession k p =>
      intro hc
      rw [Effect.packet, show p.type = .statusUpdate from h] at hc
      exact hc.elim
  | toPeer p sock q => exact (show q = ⟨t, pl⟩ from h) ▸ hp

/-- What is sent to a peer is of a type `S2S_*`. -/
def Effect.ForPeers : Effect → Prop
  | .toSession _ _ => True
  | .toPeer _ _ pkt => pkt.type.IsS2S

theorem Effect.Spreads.forPeers {t : PacketType} {pl : Bytes} {e : Effect} (h : e.Spreads ⟨t, pl⟩)
    (ht : t.IsS2S) : e.ForPeers := by
  cases e with
  | toSession => trivial
  | toPeer p sock q =>
      rw [ForPeers, show q = ⟨t, pl⟩ from h]
      exact ht

/-- No chat message, and to a peer only what is for peers. -/
def Effect.Plain (e : Effect) : Prop := e.Mute ∧ e.ForPeers

theorem Effect.Spreads.plain {t : PacketType} {pl : Bytes} {e : Effect} (h : e.Spreads ⟨t, pl⟩)
    (hp : ¬ t.IsChat) (ht : t.IsS2S) : e.Plain :=
  ⟨h.mute hp, h.forPeers ht⟩

namespace ChatServer

open Prog (observe update each Emits)

section

variable {P : Effect → Prop}

theorem emits_sendPacket {k : ConnRef} {t : PacketType} {pl : Bytes}
    (h : P (.toSession k ⟨t, pl⟩)) : Emits P (sendPacket k t pl) := by
  intro s e he
  rw [run_sendPacket, List.mem_singleton] at he
  exact he ▸ h

theorem emits_sendFrame {p : Int} {sock : ConnRef} {t : PacketType} {pl : Bytes}
    (h : P (.toPeer p sock ⟨t, pl⟩)) : Emits P (sendFrame p sock t pl) := by
  intro s e he
  simp only [sendFrame, Prog.run, List.append_nil] at he
  split at he
  · exact List.mem_singleton.mp he ▸ h
  · exact absurd he List.not_mem_nil

theorem emits_notifyOnlineUsers (h : ∀ k pl, P (.toSession k ⟨.statusUpdate, pl⟩))
    (skip : Option SOCKET) : Emits P (notifyOnlineUsers skip) := by
  intro s e he
  rw [run_notifyOnlineUsers] at he
  obtain ⟨k, -, rfl⟩ := List.mem_map.mp he
  exact h k _

theorem emits_sendToMembers {t : PacketType} {pl : Bytes} (h : ∀ k, P (.toSession k ⟨t, pl⟩))
    (names : List Bytes) : Emits P (sendToMembers names t pl) := by
  intro s e he
  rw [run_sendToMembers] at he
  obtain ⟨k, -, rfl⟩ := List.mem_map.mp he
  exact h k

theorem emits_sendToAuthenticated {t : PacketType} {pl : Bytes}
    (h : ∀ k, P (.toSession k ⟨t, pl⟩)) : Emits P (sendToAuthenticated t pl) := by
  intro s e he
  rw [run_sendToAuthenticated] at he
  obtain ⟨k, -, rfl⟩ := List.mem_map.mp he
  exact h k

end

/-! ## Rounds of sends -/

section

variable (p : Int) (t : PacketType) (pl : Bytes)

/-- A disconnect emits what the list of online users sent after it does. -/
theorem emits_handlePeerDisconnect_of {P : Effect → Prop} (h : Emits P (notifyOnlineUsers none)) :
    Emits P (handlePeerDisconnect p) := by
  refine .bind (Prog.emits_observe _) fun peer => .bind (Prog.emits_observe _) fun connected => ?_
  refine .ite (fun _ => .bind (Prog.emits_observe _) fun socket => ?_) fun _ => Prog.emits_pure ()
  cases socket with
  | none =>
      exact .bind (Prog.emits_update _) fun _ => .bind (Prog.emits_update _) fun _ =>
        .bind (Prog.emits_update _) fun _ => h
  | some k =>
      exact .bind (Prog.emits_update _) fun _ => .bind (Prog.emits_update _) fun _ =>
        .bind (Prog.emits_update _) fun _ => .bind (Prog.emits_update _) fun _ => h

/-- A send to a peer emits its frame, and what a disconnect emits. -/
theorem emits_sendOrDisconnect_of {P : Effect → Prop} (hp : ∀ sock, P (.toPeer p sock ⟨t, pl⟩))
    (h : Emits P (notifyOnlineUsers none)) : Emits P (sendOrDisconnect p t pl) := by
  refine .bind (Prog.emits_observe _) fun socket => ?_
  cases socket with
  | none => exact Prog.emits_pure ()
  | some k =>
      refine .bind (emits_sendFrame (hp k)) fun sent => ?_
      exact .ite (fun _ => Prog.emits_pure ()) fun _ => emits_handlePeerDisconnect_of p h

theorem emits_sendToPeer_of {P : Effect → Prop} (hp : ∀ sock, P (.toPeer p sock ⟨t, pl⟩))
    (h : Emits P (notifyOnlineUsers none)) : Emits P (sendToPeer p t pl) :=
  .bind (Prog.emits_observe _) fun _ =>
    .ite (fun _ => emits_sendOrDisconnect_of p t pl hp h) fun _ => Prog.emits_pure ()

theorem emits_handlePeerDisconnect (pkt : RawPacket) :
    Emits (Effect.Spreads pkt) (handlePeerDisconnect p) :=
  emits_handlePeerDisconnect_of p (emits_notifyOnlineUsers (fun _ _ => rfl) none)

theorem emits_sendToPeer : Emits (Effect.Spreads ⟨t, pl⟩) (sendToPeer p t pl) :=
  emits_sendToPeer_of p t pl (fun _ => rfl) (emits_notifyOnlineUsers (fun _ _ => rfl) none)

theorem emits_broadcastS2S : Emits (Effect.Spreads ⟨t, pl⟩) (broadcastS2S t pl) :=
  .bind (Prog.emits_observe _) fun ps => .each (fun p => emits_sendToPeer p t pl) ps

theorem emits_routePrivateMessage (sender receiver text : Bytes) :
    Emits (Effect.Spreads ⟨.s2sRouteMsg, pack [sender, receiver, text]⟩)
      (routePrivateMessage sender receiver text p) :=
  .bind (Prog.emits_observe _) fun _ =>
    .ite (fun _ => emits_sendToPeer p _ _) fun _ => Prog.emits_pure ()

theorem emits_routeRoomMessage (sender room text : Bytes) :
    Emits (Effect.Spreads ⟨.s2sRouteRoomMsg, pack [sender, room, text]⟩)
      (routeRoomMessage sender room text) :=
  .bind (Prog.emits_observe _) fun ps => .each (fun p => .bind (Prog.emits_observe _) fun _ =>
    .ite (fun _ => emits_sendToPeer p _ _) fun _ => Prog.emits_pure ()) ps

end

/-! ## Who says what -/

section

variable {s : ChatServer} {k : ConnRef} {payload : Bytes}

theorem plain_sendPacket {t : PacketType} (ht : ¬ t.IsChat) (k : ConnRef) (pl : Bytes) :
    Emits Effect.Plain (sendPacket k t pl) :=
  emits_sendPacket ⟨ht, trivial⟩

theorem plain_sendToMembers {t : PacketType} (ht : ¬ t.IsChat) (names : List Bytes) (pl : Bytes) :
    Emits Effect.Plain (sendToMembers names t pl) :=
  emits_sendToMembers (fun _ => ⟨ht, trivial⟩) names

theorem plain_notifyOnlineUsers (skip : Option SOCKET) :
    Emits Effect.Plain (notifyOnlineUsers skip) :=
  emits_notifyOnlineUsers (fun _ _ => ⟨fun hf => hf.elim, trivial⟩) skip

theorem plain_handlePeerDisconnect (p : Int) : Emits Effect.Plain (handlePeerDisconnect p) :=
  emits_handlePeerDisconnect_of p (plain_notifyOnlineUsers none)

/-- The announcement of a login, of a logout, of a room or of its end. -/
theorem plain_announcement {t : PacketType} (hp : ¬ t.IsChat) (ht : t.IsS2S) (pl : Int → Bytes) :
    Emits Effect.Plain (do
      let id ← observe serverId
      broadcastS2S t (pl id)) :=
  .bind (Prog.emits_observe _) fun _ => (emits_broadcastS2S t _).mono fun _ he => he.plain hp ht

theorem plain_handleLogin (k : ConnRef) (payload : Bytes) :
    Emits Effect.Plain (handleLogin k payload) := by
  have hreply : ∀ pl, Emits Effect.Plain (sendPacket k .loginResp pl) :=
    plain_sendPacket (by decide) k
  refine .ite (fun _ => .bind (hreply _) fun _ => Prog.emits_pure ()) fun _ => ?_
  refine .bind (Prog.emits_observe _) fun online => .ite (fun _ => ?_) fun _ => ?_
  · exact .bind (hreply _) fun _ => Prog.emits_pure ()
  · exact .bind (Prog.emits_update _) fun _ => .bind (Prog.emits_update _) fun _ =>
      .bind (hreply _) fun _ =>
        .bind (plain_announcement (t := .s2sReplicateUser) (by decide) trivial _) fun _ =>
          plain_notifyOnlineUsers none

/-- A handshake sends nothing. -/
theorem emits_promote {P : Effect → Prop} (k : ConnRef) (payload : Bytes) :
    Emits P (promote k payload) := by
  rw [promote]
  cases stoi payload with
  | none => exact Prog.emits_pure ()
  | some p =>
      exact .bind (Prog.emits_observe _) fun _ => .bind (Prog.emits_update _) fun _ =>
        .bind (Prog.emits_update _) fun _ => .bind (Prog.emits_observe _) fun _ =>
          .ite (fun _ => .bind (Prog.emits_update _) fun _ => Prog.emits_update _)
            fun _ => Prog.emits_pure ()

theorem plain_handleRoomJoin (k : ConnRef) (payload : Bytes) :
    Emits Effect.Plain (handleRoomJoin k payload) := by
  refine .bind (Prog.emits_observe _) fun username => .ite (fun _ => Prog.emits_pure ()) fun _ => ?_
  refine .bind (Prog.emits_update _) fun _ => .bind (Prog.emits_observe _) fun before =>
    .bind (Prog.emits_update _) fun _ => .bind (plain_sendPacket (by decide) k _) fun _ =>
      .bind (Prog.emits_observe _) fun locals => .bind (plain_sendToMembers (by decide) _ _)
        fun _ => .ite (fun _ => ?_) fun _ => Prog.emits_pure ()
  exact plain_announcement (t := .s2sRoomMemberSync) (by decide) trivial _

theorem plain_handleRoomLeave (k : ConnRef) (payload : Bytes) :
    Emits Effect.Plain (handleRoomLeave k payload) := by
  refine .bind (Prog.emits_observe _) fun username => .bind (Prog.emits_observe _) fun joined =>
    .ite (fun _ => Prog.emits_pure ()) fun _ => ?_
  refine .bind (Prog.emits_update _) fun _ => .bind (Prog.emits_update _) fun _ =>
    .bind (plain_sendPacket (by decide) k _) fun _ => .bind (Prog.emits_observe _) fun locals =>
      .bind (plain_sendToMembers (by decide) _ _) fun _ =>
        .ite (fun _ => ?_) fun _ => Prog.emits_pure ()
  exact plain_announcement (t := .s2sRoomMemberSync) (by decide) trivial _

theorem plain_handleRoomCreate (k : ConnRef) (payload : Bytes) :
    Emits Effect.Plain (handleRoomCreate k payload) :=
  .ite (fun _ => Prog.emits_pure ()) fun _ =>
    .bind (plain_sendPacket (by decide) k _) fun _ => Prog.emits_pure ()

theorem says_handlePrivateMsg (h : NulFree (s.nameOf k)) (payload : Bytes) :
    ∀ e ∈ ((handlePrivateMsg k payload).run s).out, e.Says (s.nameOf k) := by
  rw [handlePrivateMsg]
  split
  next receiver text fields hu =>
    refine Emits.out_observe_bind ?_
    have hupdate : ∀ pl, Emits (Effect.Says (s.nameOf k)) (sendPacket k .statusUpdate pl) :=
      fun pl => (plain_sendPacket (by decide) k pl).mono fun e he => he.1.tells _
    refine .bind (Prog.emits_observe _) fun location => .bind (Prog.emits_observe _) fun id => ?_
    refine .ite (fun _ => .bind (Prog.emits_observe _) fun target => ?_) fun _ =>
      .ite (fun _ => .bind ?_ fun _ => .bind (hupdate _) fun _ => Prog.emits_pure ()) fun _ =>
        .bind (hupdate _) fun _ => Prog.emits_pure ()
    · cases target with
      | none => exact Prog.emits_pure ()
      | some t =>
          exact .bind (emits_sendPacket fun _ => sender?_pack h _ _) fun _ =>
            .bind (hupdate _) fun _ => Prog.emits_pure ()
    · exact (emits_routePrivateMessage _ _ _ _).mono fun e he => he.tells fun _ => sender?_pack h _ _
  next => exact Prog.emits_pure () s

theorem says_handleRoomMsg (h : NulFree (s.nameOf k)) (payload : Bytes) :
    ∀ e ∈ ((handleRoomMsg k payload).run s).out, e.Says (s.nameOf k) := by
  rw [handleRoomMsg]
  split
  next room text fields hu =>
    refine Emits.out_observe_bind ?_
    refine .bind (Prog.emits_observe _) fun joined => .ite (fun _ => ?_) fun _ => ?_
    · refine .bind (Prog.emits_observe _) fun locals => .bind ?_ fun _ => ?_
      · exact emits_sendToMembers (fun _ _ => sender?_pack h _ _) locals
      · exact (emits_routeRoomMessage _ _ _).mono fun e he => he.tells fun _ => sender?_pack h _ _
    · refine .bind ?_ fun _ => Prog.emits_pure ()
      exact (plain_sendPacket (by decide) k _).mono fun e he => he.1.tells _
  next => exact Prog.emits_pure () s

theorem says_handleBroadcastMsg (h : NulFree (s.nameOf k)) (payload : Bytes) :
    ∀ e ∈ ((handleBroadcastMsg k payload).run s).out, e.Says (s.nameOf k) := by
  refine Emits.out_observe_bind (.bind ?_ fun _ => ?_)
  · exact emits_sendToAuthenticated fun _ _ => sender?_pack h _ _
  · exact (emits_broadcastS2S _ _).mono fun e he => he.tells fun _ => sender?_pack h _ _

/-- A chat message a server sends while it handles a client's packet bears the
name of the client's session, which is authenticated. -/
theorem says_handleClientPacket (h : NulFree (s.nameOf k)) (pkt : RawPacket) {e : Effect}
    (he : e ∈ ((handleClientPacket k pkt).run s).out) (hc : e.packet.type.IsChat) :
    (s.connManager.sessions k).isAuthenticated = true ∧ e.packet.sender? = some (s.nameOf k) := by
  rw [handleClientPacket, Prog.run_bind, Prog.run_observe] at he
  simp only [List.nil_append] at he
  cases ha : (s.connManager.sessions k).isAuthenticated with
  | false =>
      -- the gate lets two types pass, and neither handler sends a chat message
      exfalso
      by_cases hgate : (s.connManager.sessions k).isAuthenticated = false ∧
          pkt.type ≠ .login ∧ pkt.type ≠ .s2sConnect
      · rw [if_pos hgate] at he
        have hplain : Emits Effect.Plain (sendPacket k .loginResp
            (pack [ascii "0", ascii "Authentication required"]) >>= fun _ => pure ()) :=
          .bind (plain_sendPacket (by decide) k _) fun _ => Prog.emits_pure ()
        exact (hplain s e he).1 hc
      · rw [if_neg hgate] at he
        by_cases ht : pkt.type = .login
        · exact (plain_handleLogin k _ s e (by simpa [ht] using he)).1 hc
        · have ht' : pkt.type = .s2sConnect := by
            by_contra hne
            exact hgate ⟨ha, ht, hne⟩
          exact emits_promote (P := Effect.Mute) k _ s e (by simpa [ht'] using he) hc
  | true =>
      refine ⟨rfl, ?_⟩
      rw [ha, if_neg fun hf => Bool.noConfusion hf.1] at he
      cases ht : pkt.type with
      | login => exact absurd hc (plain_handleLogin k _ s e (by simpa [ht] using he)).1
      | msgPrivate => exact says_handlePrivateMsg h _ e (by simpa [ht] using he) hc
      | msgRoom => exact says_handleRoomMsg h _ e (by simpa [ht] using he) hc
      | msgBroadcast => exact says_handleBroadcastMsg h _ e (by simpa [ht] using he) hc
      | roomJoin => exact absurd hc (plain_handleRoomJoin k _ s e (by simpa [ht] using he)).1
      | roomLeave => exact absurd hc (plain_handleRoomLeave k _ s e (by simpa [ht] using he)).1
      | roomCreate => exact absurd hc (plain_handleRoomCreate k _ s e (by simpa [ht] using he)).1
      | s2sConnect =>
          exact absurd hc (emits_promote (P := Effect.Mute) k _ s e (by simpa [ht] using he))
      | _ => simp [ht] at he

theorem plain_handleS2SHeartbeat (p : Int) : Emits Effect.Plain (handleS2SHeartbeat p) := by
  refine .bind (Prog.emits_observe _) fun id => .bind (Prog.emits_observe _) fun socket => ?_
  cases socket with
  | none => exact Prog.emits_pure ()
  | some sock =>
      exact .bind (emits_sendFrame ⟨fun hf => hf.elim, trivial⟩) fun _ => Prog.emits_pure ()

theorem plain_handleS2SReplicateUser (payload : Bytes) :
    Emits Effect.Plain (handleS2SReplicateUser payload) := by
  rw [handleS2SReplicateUser]
  split
  next username id online fields hu =>
    cases stoi id with
    | none => exact Prog.emits_pure ()
    | some i =>
        exact .ite (fun _ => .bind (Prog.emits_update _) fun _ => plain_notifyOnlineUsers none)
          fun _ => .bind (Prog.emits_update _) fun _ => plain_notifyOnlineUsers none
  next => exact Prog.emits_pure ()

theorem says_handleS2SRouteMsg (payload : Bytes) :
    Emits (fun e => e.packet.sender? = (unpack payload).head?) (handleS2SRouteMsg payload) := by
  rw [handleS2SRouteMsg]
  split
  next sender receiver text hu =>
    have hfree : NulFree sender := nulFree_of_mem_unpack (hu ▸ List.mem_cons_self ..)
    refine .bind (Prog.emits_observe _) fun session => ?_
    cases session with
    | none => exact Prog.emits_pure ()
    | some t =>
        refine .bind (emits_sendPacket ?_) fun _ => Prog.emits_pure ()
        rw [hu]
        exact sender?_pack hfree _ _
  next sender text hu =>
    have hfree : NulFree sender := nulFree_of_mem_unpack (hu ▸ List.mem_cons_self ..)
    refine emits_sendToAuthenticated fun k => ?_
    rw [hu]
    exact sender?_pack hfree _ _
  next => exact Prog.emits_pure ()

theorem says_handleS2SRouteRoomMsg (payload : Bytes) :
    Emits (fun e => e.packet.sender? = (unpack payload).head?) (handleS2SRouteRoomMsg payload) := by
  rw [handleS2SRouteRoomMsg]
  split
  next sender room text fields hu =>
    have hfree : NulFree sender := nulFree_of_mem_unpack (hu ▸ List.mem_cons_self ..)
    refine .bind (Prog.emits_observe _) fun locals => emits_sendToMembers (fun k => ?_) locals
    rw [hu]
    exact sender?_pack hfree _ _
  next => exact Prog.emits_pure ()

/-- A chat message a server sends while it handles a peer's packet bears the
sender of that packet, which carries a chat message too. -/
theorem says_handleServerPacket {p : Int} (pkt : RawPacket) {e : Effect}
    (he : e ∈ ((handleServerPacket p pkt).run s).out) (hc : e.packet.type.IsChat) :
    pkt.type.IsChat ∧ e.packet.sender? = pkt.sender? := by
  obtain ⟨type, payload⟩ := pkt
  rw [handleServerPacket, Prog.run_bind, Prog.run_update] at he
  simp only [List.nil_append] at he
  cases type with
  | s2sHeartbeat => exact absurd hc (plain_handleS2SHeartbeat p _ e he).1
  | s2sReplicateUser => exact absurd hc (plain_handleS2SReplicateUser payload _ e he).1
  | s2sRoomMemberSync =>
      rw [run_handleS2SRoomMemberSync] at he
      exact absurd he List.not_mem_nil
  | s2sRouteMsg => exact ⟨trivial, says_handleS2SRouteMsg payload _ e he⟩
  | s2sRouteRoomMsg => exact ⟨trivial, says_handleS2SRouteRoomMsg payload _ e he⟩
  | _ => exact absurd he List.not_mem_nil

/-! ## What peers are sent -/

theorem forPeers_handlePrivateMsg (k : ConnRef) (payload : Bytes) :
    Emits Effect.ForPeers (handlePrivateMsg k payload) := by
  rw [handlePrivateMsg]
  split
  next receiver text fields hu =>
    have hupdate : ∀ pl, Emits Effect.ForPeers
        (sendPacket k .statusUpdate pl >>= fun _ => pure ()) :=
      fun pl => .bind (emits_sendPacket trivial) fun _ => Prog.emits_pure ()
    refine .bind (Prog.emits_observe _) fun sender => .bind (Prog.emits_observe _) fun location =>
      .bind (Prog.emits_observe _) fun id => .ite (fun _ => ?_) fun _ =>
        .ite (fun _ => .bind ?_ fun _ => hupdate _) fun _ => hupdate _
    · refine .bind (Prog.emits_observe _) fun target => ?_
      cases target with
      | none => exact Prog.emits_pure ()
      | some t => exact .bind (emits_sendPacket trivial) fun _ => hupdate _
    · exact (emits_routePrivateMessage _ _ _ _).mono fun _ he => he.forPeers trivial
  next => exact Prog.emits_pure ()

theorem forPeers_handleRoomMsg (k : ConnRef) (payload : Bytes) :
    Emits Effect.ForPeers (handleRoomMsg k payload) := by
  rw [handleRoomMsg]
  split
  next room text fields hu =>
    refine .bind (Prog.emits_observe _) fun sender => .bind (Prog.emits_observe _) fun joined =>
      .ite (fun _ => .bind (Prog.emits_observe _) fun locals => .bind ?_ fun _ => ?_) fun _ =>
        .bind (emits_sendPacket trivial) fun _ => Prog.emits_pure ()
    · exact emits_sendToMembers (fun _ => trivial) locals
    · exact (emits_routeRoomMessage _ _ _).mono fun _ he => he.forPeers trivial
  next => exact Prog.emits_pure ()

theorem forPeers_handleBroadcastMsg (k : ConnRef) (payload : Bytes) :
    Emits Effect.ForPeers (handleBroadcastMsg k payload) :=
  .bind (Prog.emits_observe _) fun _ => .bind (emits_sendToAuthenticated fun _ => trivial) fun _ =>
    (emits_broadcastS2S _ _).mono fun _ he => he.forPeers trivial

theorem forPeers_handleClientPacket (k : ConnRef) (pkt : RawPacket) :
    Emits Effect.ForPeers (handleClientPacket k pkt) := by
  refine .bind (Prog.emits_observe _) fun authenticated => .ite (fun _ => ?_) fun _ => ?_
  · exact .bind (emits_sendPacket trivial) fun _ => Prog.emits_pure ()
  · split
    · exact (plain_handleLogin k _).mono fun _ => And.right
    · exact forPeers_handlePrivateMsg k _
    · exact forPeers_handleRoomMsg k _
    · exact forPeers_handleBroadcastMsg k _
    · exact (plain_handleRoomJoin k _).mono fun _ => And.right
    · exact (plain_handleRoomLeave k _).mono fun _ => And.right
    · exact (plain_handleRoomCreate k _).mono fun _ => And.right
    · exact emits_promote k _
    · exact Prog.emits_pure ()

theorem forPeers_handleServerPacket (p : Int) (pkt : RawPacket) :
    Emits Effect.ForPeers (handleServerPacket p pkt) := by
  refine .bind (Prog.emits_update _) fun _ => ?_
  split
  · exact (plain_handleS2SHeartbeat p).mono fun _ => And.right
  · exact Prog.emits_pure ()
  · exact (plain_handleS2SReplicateUser _).mono fun _ => And.right
  · rw [handleS2SRouteMsg]
    split
    · refine .bind (Prog.emits_observe _) fun session => ?_
      cases session with
      | none => exact Prog.emits_pure ()
      | some t => exact .bind (emits_sendPacket trivial) fun _ => Prog.emits_pure ()
    · exact emits_sendToAuthenticated fun _ => trivial
    · exact Prog.emits_pure ()
  · rw [handleS2SRouteRoomMsg]
    split
    · exact .bind (Prog.emits_observe _) fun locals => emits_sendToMembers (fun _ => trivial) locals
    · exact Prog.emits_pure ()
  · rw [handleS2SRoomMemberSync]
    split
    next room id active fields hu =>
      cases stoi id with
      | none => exact Prog.emits_pure ()
      | some i => exact .ite (fun _ => Prog.emits_update _) fun _ => Prog.emits_update _
    next => exact Prog.emits_pure ()
  · exact Prog.emits_pure ()

theorem forPeers_readPacket (k : ConnRef) (pkt : RawPacket) :
    Emits Effect.ForPeers (readPacket k pkt) := by
  refine .bind (Prog.emits_observe _) fun session => .bind (Prog.emits_observe _) fun peer =>
    .ite (fun _ => forPeers_handleClientPacket k pkt) fun _ => ?_
  cases peer with
  | none => exact Prog.emits_pure ()
  | some p => exact forPeers_handleServerPacket p pkt

/-! ## What is sent without a packet -/

theorem plain_readFailure (k : ConnRef) : Emits Effect.Plain (readFailure k) := by
  refine .bind (Prog.emits_observe _) fun session => .bind (Prog.emits_observe _) fun peer =>
    .ite (fun _ => ?_) fun _ => ?_
  · exact .bind (Prog.emits_observe _) fun handle => .bind (Prog.emits_observe _) fun username =>
      .ite (fun _ => .bind (Prog.emits_update _) fun _ =>
        .bind (plain_announcement (t := .s2sReplicateUser) (by decide) trivial _) fun _ =>
          .bind (plain_notifyOnlineUsers _) fun _ => Prog.emits_update _)
        fun _ => Prog.emits_update _
  · cases peer with
    | none => exact Prog.emits_pure ()
    | some p => exact plain_handlePeerDisconnect p

theorem plain_connectPeer (p : Int) (handle : SOCKET) :
    Emits Effect.Plain (connectPeer p handle) :=
  .bind (Prog.emits_observe _) fun _ => .bind (Prog.emits_observe _) fun _ =>
    .ite (fun _ => .bind (Prog.emits_observe _) fun _ => .bind (Prog.emits_update _) fun _ =>
      .bind (Prog.emits_update _) fun _ => .bind (Prog.emits_update _) fun _ =>
        .bind (Prog.emits_update _) fun _ => .bind (Prog.emits_observe _) fun _ =>
          .bind (emits_sendFrame ⟨fun hf => hf.elim, trivial⟩) fun _ => Prog.emits_pure ())
      fun _ => Prog.emits_pure ()

theorem plain_heartbeatRound : Emits Effect.Plain heartbeatRound := by
  refine .bind (Prog.emits_observe _) fun peers => .bind (Prog.emits_observe _) fun now =>
    .each (fun p => .bind (Prog.emits_observe _) fun node => .ite (fun _ => ?_)
      fun _ => Prog.emits_pure ()) peers
  refine .ite (fun _ => plain_handlePeerDisconnect p) fun _ =>
    .bind (Prog.emits_observe _) fun _ => ?_
  exact emits_sendOrDisconnect_of p _ _ (fun _ => ⟨fun hf => hf.elim, trivial⟩)
    (plain_notifyOnlineUsers none)

/-! ## Room messages and broadcasts -/

theorem run_handleClientPacket_of_authenticated {pkt : RawPacket} {body : ServerProg Unit}
    (ha : (s.connManager.sessions k).isAuthenticated = true)
    (ht : pkt.type = .msgRoom ∧ body = handleRoomMsg k pkt.payload ∨
      pkt.type = .msgBroadcast ∧ body = handleBroadcastMsg k pkt.payload) :
    (handleClientPacket k pkt).run s = body.run s := by
  cases ht with
  | inl ht => simp [handleClientPacket, ha, ht.1, ht.2]
  | inr ht => simp [handleClientPacket, ha, ht.1, ht.2]

/-- A room message reaches the sessions of the local members, and no others of
this server. -/
theorem out_handleRoomMsg {r text : Bytes} {fields : List Bytes}
    (hu : unpack payload = r :: text :: fields) (hj : s.connManager.isInRoom k r = true) :
    ((handleRoomMsg k payload).run s).out =
      ((s.sessionsOf (s.roomManager.getLocalMembers r)).map fun t =>
          .toSession t ⟨.msgRoom, pack [s.nameOf k, r, text]⟩) ++
        ((routeRoomMessage (s.nameOf k) r text).run s).out := by
  simp [handleRoomMsg, hu, hj, nameOf]

/-- With good links a room message goes to every remote server of the room. -/
theorem run_routeRoomMessage (hg : s.LinksGood) (sender r text : Bytes) :
    (routeRoomMessage sender r text).run s =
      ⟨(), s, s.frames ((s.roomManager.getRemoteServers r).filter fun p =>
        p ∈ s.connManager.peerNodes) ⟨.s2sRouteRoomMsg, pack [sender, r, text]⟩⟩ :=
  run_each_sendIfPeer hg _ _ _

/-- With good links a room message goes to the sessions of the local members and
to the remote servers. -/
theorem run_handleRoomMsg (hg : s.LinksGood) {r text : Bytes} {fields : List Bytes}
    (hu : unpack payload = r :: text :: fields) (hj : s.connManager.isInRoom k r = true) :
    (handleRoomMsg k payload).run s =
      ⟨(), s, ((s.sessionsOf (s.roomManager.getLocalMembers r)).map fun t =>
          .toSession t ⟨.msgRoom, pack [s.nameOf k, r, text]⟩) ++
        s.frames ((s.roomManager.getRemoteServers r).filter fun p =>
          p ∈ s.connManager.peerNodes) ⟨.s2sRouteRoomMsg, pack [s.nameOf k, r, text]⟩⟩ := by
  simp [handleRoomMsg, hu, hj, run_routeRoomMessage hg, nameOf]

/-- With good links a broadcast goes to every authenticated session and every peer. -/
theorem run_handleBroadcastMsg (hg : s.LinksGood) (k : ConnRef) (payload : Bytes) :
    (handleBroadcastMsg k payload).run s =
      ⟨(), s, (s.authenticatedSessions.map fun t =>
          .toSession t ⟨.msgBroadcast, pack [s.nameOf k, payload]⟩) ++
        s.frames s.connManager.getAllPeerNodes ⟨.s2sRouteMsg, pack [s.nameOf k, payload]⟩⟩ := by
  simp [handleBroadcastMsg, run_broadcastS2S hg, nameOf]

/-- A routed room message goes to the sessions of the local members. -/
theorem out_handleServerPacket_routeRoomMsg {p : Int} {sender r text : Bytes}
    {fields : List Bytes} (hu : unpack payload = sender :: r :: text :: fields) :
    ((handleServerPacket p ⟨.s2sRouteRoomMsg, payload⟩).run s).out =
      (s.sessionsOf (s.roomManager.getLocalMembers r)).map fun t =>
        .toSession t ⟨.msgRoom, pack [sender, r, text]⟩ := by
  simp [handleServerPacket, handleS2SRouteRoomMsg, hu]
  rfl

/-- A routed broadcast goes to the authenticated sessions. -/
theorem out_handleServerPacket_routeMsg_pair {p : Int} {sender text : Bytes}
    (hu : unpack payload = [sender, text]) :
    ((handleServerPacket p ⟨.s2sRouteMsg, payload⟩).run s).out =
      s.authenticatedSessions.map fun t => .toSession t ⟨.msgBroadcast, pack [sender, text]⟩ := by
  simp [handleServerPacket, handleS2SRouteMsg, hu]
  rfl

end

end ChatServer

end DistributedChat
