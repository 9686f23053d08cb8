import DistributedChat.Server.Sending

/-!
# Malformed packets

The handlers look at a packet before they change anything: at the type, the number of
fields, the name of the user or the room, the number in an id.  A packet that fails such
a check ends there, also when `std::stoi` throws.  It leaves the server as it was, but
for the heartbeat time of a peer, and nobody hears of it but the session it came from
(`malformed_changes_nothing`).
-/

namespace DistributedChat

/-- `HandleLogin` refuses the name. -/
def InvalidUsername (username : Bytes) : Prop := username = [] ∨ nul ∈ username ∨ 32 ∈ username

/-- The packet is malformed as a packet of a client. -/
def RawPacket.MalformedFromClient (pkt : RawPacket) : Prop :=
  match pkt.type with
  | .login => InvalidUsername (trim pkt.payload)
  | .msgPrivate | .msgRoom => (unpack pkt.payload).length < 2
  | .msgBroadcast => False
  | .roomJoin | .roomLeave | .roomCreate => trim pkt.payload = []
  | .s2sConnect => stoi pkt.payload = none
  | _ => True

/-- The second field is no number. -/
def BadId (fields : List Bytes) : Prop := ∃ id, fields[1]? = some id ∧ stoi id = none

/-- The packet is malformed as a packet of a peer. -/
def RawPacket.MalformedFromPeer (pkt : RawPacket) : Prop :=
  match pkt.type with
  | .s2sHeartbeat | .s2sHeartbeatAck => False
  | .s2sReplicateUser | .s2sRoomMemberSync =>
      (unpack pkt.payload).length < 3 ∨ BadId (unpack pkt.payload)
  | .s2sRouteMsg => (unpack pkt.payload).length ≠ 2 ∧ (unpack pkt.payload).length ≠ 3
  | .s2sRouteRoomMsg => (unpack pkt.payload).length < 3
  | _ => True

namespace ChatServer

open Prog (observe update each)

/-- The session may not send the packet before it has logged in. -/
def NotPermitted (s : ChatServer) (k : ConnRef) (pkt : RawPacket) : Prop :=
  (s.connManager.sessions k).isAuthenticated = false ∧ pkt.type ≠ .login ∧ pkt.type ≠ .s2sConnect

/-- The program leaves the state alone and sends to one session at most. -/
def OnlyAnswers (k : ConnRef) (prog : ServerProg Unit) (s : ChatServer) : Prop :=
  (prog.run s).state = s ∧ ∀ e ∈ (prog.run s).out, ∃ pkt, e = .toSession k pkt

theorem onlyAnswers_pure (k : ConnRef) (s : ChatServer) : OnlyAnswers k (pure ()) s :=
  ⟨rfl, nofun⟩

theorem onlyAnswers_observe_bind {α : Type} {k : ConnRef} {f : ChatServer → α}
    {g : α → ServerProg Unit} {s : ChatServer} :
    OnlyAnswers k (observe f >>= g) s ↔ OnlyAnswers k (g (f s)) s := Iff.rfl

/-- An answer to the session. -/
theorem onlyAnswers_sendPacket (k : ConnRef) (type : PacketType) (payload : Bytes)
    (s : ChatServer) : OnlyAnswers k (do let _ ← sendPacket k type payload) s := by
  refine ⟨rfl, fun e he => ?_⟩
  exact ⟨_, List.mem_singleton.mp he⟩

section

variable {k : ConnRef} {s : ChatServer} {payload : Bytes}

theorem onlyAnswers_handleLogin (h : InvalidUsername (trim payload)) :
    OnlyAnswers k (handleLogin k payload) s := by
  rw [handleLogin]
  simp only [if_pos (show trim payload = [] ∨ nul ∈ trim payload ∨ 32 ∈ trim payload from h)]
  exact onlyAnswers_sendPacket ..

theorem handlePrivateMsg_of_short (h : (unpack payload).length < 2) :
    handlePrivateMsg k payload = pure () := by
  rcases hu : unpack payload with _ | ⟨f, _ | ⟨g, rest⟩⟩
  · rw [handlePrivateMsg, hu]
  · rw [handlePrivateMsg, hu]
  · rw [hu] at h
    exact absurd h (by simp)

theorem handleRoomMsg_of_short (h : (unpack payload).length < 2) :
    handleRoomMsg k payload = pure () := by
  rcases hu : unpack payload with _ | ⟨f, _ | ⟨g, rest⟩⟩
  · rw [handleRoomMsg, hu]
  · rw [handleRoomMsg, hu]
  · rw [hu] at h
    exact absurd h (by simp)

theorem onlyAnswers_handleRoomJoin (h : trim payload = []) :
    OnlyAnswers k (handleRoomJoin k payload) s := by
  rw [handleRoomJoin, h]
  exact onlyAnswers_pure k s

theorem onlyAnswers_handleRoomLeave (h : trim payload = []) :
    OnlyAnswers k (handleRoomLeave k payload) s := by
  rw [handleRoomLeave, h]
  exact onlyAnswers_pure k s

theorem onlyAnswers_handleRoomCreate (h : trim payload = []) :
    OnlyAnswers k (handleRoomCreate k payload) s := by
  rw [handleRoomCreate, h]
  exact onlyAnswers_pure k s

theorem promote_of_bad_id (h : stoi payload = none) : promote k payload = pure () := by
  rw [promote, h]

end

/-- A packet of a client that is malformed or not permitted. -/
theorem onlyAnswers_handleClientPacket {s : ChatServer} {k : ConnRef} {pkt : RawPacket}
    (h : NotPermitted s k pkt ∨ pkt.MalformedFromClient) :
    OnlyAnswers k (handleClientPacket k pkt) s := by
  rw [handleClientPacket, onlyAnswers_observe_bind]
  split
  next => exact onlyAnswers_sendPacket ..
  next hperm =>
    have hbad := h.resolve_left hperm
    rw [RawPacket.MalformedFromClient] at hbad
    cases htype : pkt.type with
    | login =>
        rw [htype] at hbad
        exact onlyAnswers_handleLogin hbad
    | msgPrivate =>
        rw [htype] at hbad
        rw [handlePrivateMsg_of_short hbad]
        exact onlyAnswers_pure k s
    | msgRoom =>
        rw [htype] at hbad
        rw [handleRoomMsg_of_short hbad]
        exact onlyAnswers_pure k s
    | msgBroadcast =>
        rw [htype] at hbad
        exact hbad.elim
    | roomJoin =>
        rw [htype] at hbad
        exact onlyAnswers_handleRoomJoin hbad
    | roomLeave =>
        rw [htype] at hbad
        exact onlyAnswers_handleRoomLeave hbad
    | roomCreate =>
        rw [htype] at hbad
        exact onlyAnswers_handleRoomCreate hbad
    | s2sConnect =>
        rw [htype] at hbad
        rw [promote_of_bad_id hbad]
        exact onlyAnswers_pure k s
    | _ => exact onlyAnswers_pure k s

/-! ## Packets of peers -/

section

variable {payload : Bytes}

theorem handleS2SReplicateUser_of_bad
    (h : (unpack payload).length < 3 ∨ BadId (unpack payload)) :
    handleS2SReplicateUser payload = pure () := by
  rcases hu : unpack payload with _ | ⟨username, _ | ⟨id, _ | ⟨online, rest⟩⟩⟩
  · rw [handleS2SReplicateUser, hu]
  · rw [handleS2SReplicateUser, hu]
  · rw [handleS2SReplicateUser, hu]
  · rw [hu] at h
    obtain ⟨id', hid, hthrow⟩ := h.resolve_left (by simp)
    cases Option.some.inj hid
    rw [handleS2SReplicateUser, hu]
    simp only [hthrow]

theorem handleS2SRoomMemberSync_of_bad
    (h : (unpack payload).length < 3 ∨ BadId (unpack payload)) :
    handleS2SRoomMemberSync payload = pure () := by
  rcases hu : unpack payload with _ | ⟨room, _ | ⟨id, _ | ⟨active, rest⟩⟩⟩
  · rw [handleS2SRoomMemberSync, hu]
  · rw [handleS2SRoomMemberSync, hu]
  · rw [handleS2SRoomMemberSync, hu]
  · rw [hu] at h
    obtain ⟨id', hid, hthrow⟩ := h.resolve_left (by simp)
    cases Option.some.inj hid
    rw [handleS2SRoomMemberSync, hu]
    simp only [hthrow]

theorem handleS2SRouteMsg_of_bad
    (h : (unpack payload).length ≠ 2 ∧ (unpack payload).length ≠ 3) :
    handleS2SRouteMsg payload = pure () := by
  rcases hu : unpack payload with _ | ⟨f, _ | ⟨g, _ | ⟨i, _ | ⟨j, rest⟩⟩⟩⟩
  · rw [handleS2SRouteMsg, hu]
  · rw [handleS2SRouteMsg, hu]
  · rw [hu] at h
    exact absurd rfl h.1
  · rw [hu] at h
    exact absurd rfl h.2
  · rw [handleS2SRouteMsg, hu]

theorem handleS2SRouteRoomMsg_of_short (h : (unpack payload).length < 3) :
    handleS2SRouteRoomMsg payload = pure () := by
  rcases hu : unpack payload with _ | ⟨sender, _ | ⟨room, _ | ⟨text, rest⟩⟩⟩
  · rw [handleS2SRouteRoomMsg, hu]
  · rw [handleS2SRouteRoomMsg, hu]
  · rw [handleS2SRouteRoomMsg, hu]
  · rw [hu] at h
    exact absurd h (by simp)

end

/-- A malformed packet of a peer only tells that the peer is there. -/
theorem run_handleServerPacket_of_malformed {s : ChatServer} {p : Int} {pkt : RawPacket}
    (h : pkt.MalformedFromPeer) :
    (handleServerPacket p pkt).run s =
      ⟨(), s.onConn (·.updateHeartbeat p s.now), []⟩ := by
  rw [RawPacket.MalformedFromPeer] at h
  rw [handleServerPacket, Prog.run_bind, Prog.run_update]
  cases htype : pkt.type with
  | s2sHeartbeat =>
      rw [htype] at h
      exact h.elim
  | s2sHeartbeatAck => rfl
  | s2sReplicateUser =>
      rw [htype] at h
      simp only [handleS2SReplicateUser_of_bad h]
      rfl
  | s2sRouteMsg =>
      rw [htype] at h
      simp only [handleS2SRouteMsg_of_bad h]
      rfl
  | s2sRouteRoomMsg =>
      rw [htype] at h
      simp only [handleS2SRouteRoomMsg_of_short h]
      rfl
  | s2sRoomMemberSync =>
      rw [htype] at h
      simp only [handleS2SRoomMemberSync_of_bad h]
      rfl
  | _ => rfl

/-- **Malformed packets.**  In every state, a packet that is malformed or not permitted leaves
the server as it was, but for the heartbeat time of the peer it came from; a client's is answered
to that client at most, a peer's to nobody. -/
theorem malformed_changes_nothing (s : ChatServer) :
    (∀ k pkt, NotPermitted s k pkt ∨ pkt.MalformedFromClient →
      ((handleClientPacket k pkt).run s).state = s ∧
        ∀ e ∈ ((handleClientPacket k pkt).run s).out, ∃ answer, e = .toSession k answer) ∧
    ∀ p pkt, pkt.MalformedFromPeer →
      ((handleServerPacket p pkt).run s).state = s.onConn (·.updateHeartbeat p s.now) ∧
        ((handleServerPacket p pkt).run s).out = [] := by
  refine ⟨fun k pkt h => onlyAnswers_handleClientPacket h, fun p pkt h => ?_⟩
  rw [run_handleServerPacket_of_malformed h]
  exact ⟨rfl, rfl⟩

end ChatServer

end DistributedChat
