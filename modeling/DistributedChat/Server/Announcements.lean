import DistributedChat.Server.FrameSizes
import DistributedChat.Server.Phases
import DistributedChat.Server.Replicas
import DistributedChat.Server.Rounds

/-!
# What room announcements say

`HandleRoomJoin` and `HandleRoomLeave` announce the first join and the last leave
of a room to the peers, under the name the client sent, trimmed.  `HandleLogin`
rejects a NUL in a user name.  The room handlers do not look for one, and the
announcement is split at NULs.  So a peer reads another room, and after it
another server or flag, whenever an announced name has a NUL.  Nor do they look
at the size: the id and the flag are put behind the name, and `ReadPacket` of the
peer refuses the frame if it has become too large (`announcements_true_iff`).
-/

namespace DistributedChat

/-- The packet a client joins a room with, or leaves it. -/
def roomCommand (active : Bool) : PacketType := if active then .roomJoin else .roomLeave

namespace ChatServer

open Prog (observe update each)

/-- The join or leave changes whether the server has members of the room, and there
is a peer to tell. -/
structure Announces (s : ChatServer) (k : ConnRef) (active : Bool) (r : Bytes) : Prop where
  auth : (s.connManager.sessions k).isAuthenticated = true
  named : r ≠ []
  decides : if active = true then s.roomManager.getLocalMembers r = []
    else s.connManager.isInRoom k r = true ∧
      ∀ v ∈ s.roomManager.getLocalMembers r, v = s.nameOf k
  link : ∃ p ∈ s.connManager.getAllPeerNodes, (s.connManager.openLink p).isSome = true

/-- Every frame that the join or leave puts on a peer's socket for `S2S_ROOM_MEMBER_SYNC`
is read by `ReadPacket` and decoded as the stored name, the server's own id and the flag, so
that a receiver enters or removes this server, in this room. -/
def AnnouncesTruly (s : ChatServer) (k : ConnRef) (active : Bool) (payload : Bytes) : Prop :=
  ∀ p sock pkt, .toPeer p sock pkt ∈
      ((handleClientPacket k ⟨roomCommand active, payload⟩).run s).out →
    pkt.type = .s2sRoomMemberSync →
      pkt.Arrives ∧ content pkt.payload = some (trim payload, s.serverId, active) ∧
        ∀ receiver : ChatServer, (handleS2SRoomMemberSync pkt.payload).run receiver =
          ⟨(), receiver.onRooms fun m => if active = true then m.joinRoomRemote (trim payload)
            s.serverId else m.leaveRoomRemote (trim payload) s.serverId, []⟩

section

variable (s : ChatServer) (k : ConnRef) (payload : Bytes)

/-- A name is read back from an announcement if it has no NUL, and only then. -/
theorem content_replicationPayload_iff {i : Int} (hi : IsInt i) (r : Bytes) (active : Bool) :
    content (replicationPayload r i active) = some (r, i, active) ↔ NulFree r := by
  constructor
  · intro h
    rw [content] at h
    split at h
    next key id fl fields hu =>
      obtain ⟨j, -, hj⟩ := Option.map_eq_some_iff.mp h
      have hkey : key = r := congrArg Prod.fst hj
      have hmem : key ∈ unpack (replicationPayload r i active) := by
        rw [hu]
        exact List.mem_cons_self ..
      exact hkey ▸ nulFree_of_mem_unpack hmem
    next => cases h
  · intro hr
    simp [content, unpack_replicationPayload hr, stoi_toString hi, flag_eq_iff]

/-- What a receiver of the announcement of a name without NUL does. -/
theorem run_sync_replicationPayload {i : Int} (hi : IsInt i) {r : Bytes} (hr : NulFree r)
    (active : Bool) (receiver : ChatServer) :
    (handleS2SRoomMemberSync (replicationPayload r i active)).run receiver =
      ⟨(), receiver.onRooms fun m =>
        if active = true then m.joinRoomRemote r i else m.leaveRoomRemote r i, []⟩ := by
  rw [run_handleS2SRoomMemberSync]
  simp only [onRooms, synced_replicationPayload _ hr hi]

/-- `ReadPacket` accepts an announcement that is not too large with the id and the flag. -/
theorem arrives_sync_iff (r : Bytes) (i : Int) (active : Bool) :
    (RawPacket.mk .s2sRoomMemberSync (replicationPayload r i active)).Arrives ↔
      r.length + (toString i).length + 5 ≤ maxPayloadSize := by
  rw [RawPacket.arrives_iff ⟨106, rfl⟩, RawPacket.Fits, length_replicationPayload]
  omega

/-! ## When something is announced -/

theorem frames_handleRoomJoin :
    framesOf ((handleRoomJoin k payload).run s).out =
      if trim payload ≠ [] ∧ s.roomManager.getLocalMembers (trim payload) = []
      then s.sends s.connManager.getAllPeerNodes
        ⟨.s2sRoomMemberSync, replicationPayload (trim payload) s.serverId true⟩
      else [] := by
  by_cases hne : trim payload = []
  · simp [handleRoomJoin, hne]
  · by_cases hm : s.roomManager.getLocalMembers (trim payload) = []
    · simp only [handleRoomJoin, replicateRoomJoin, hne, hm, if_true, if_false, ne_eq,
        not_false_eq_true, and_self, Prog.run_bind, Prog.run_observe, Prog.run_update, run_sendPacket,
        run_sendToMembers, onConn_roomManager, List.nil_append, framesOf_append,
        framesOf_cons_toSession, framesOf_map_toSession, framesOf_nil, frames_broadcastS2S]
      rfl
    · simp [handleRoomJoin, hne, hm]

theorem frames_handleRoomLeave :
    framesOf ((handleRoomLeave k payload).run s).out =
      if trim payload ≠ [] ∧ s.connManager.isInRoom k (trim payload) = true ∧
        (s.left k (trim payload)).roomManager.getLocalMembers (trim payload) = []
      then s.sends s.connManager.getAllPeerNodes
        ⟨.s2sRoomMemberSync, replicationPayload (trim payload) s.serverId false⟩
      else [] := by
  by_cases hne : trim payload = []
  · simp [handleRoomLeave, hne]
  · cases hj : s.connManager.isInRoom k (trim payload) with
    | false => simp [handleRoomLeave, hj]
    | true =>
        by_cases hm : (s.left k (trim payload)).roomManager.getLocalMembers (trim payload) = []
        · rw [if_pos ⟨hne, rfl, hm⟩]
          rw [left, nameOf] at hm
          simp only [handleRoomLeave, replicateRoomLeave, hne, hj, hm, if_true, if_false, or_self,
            Bool.true_eq_false, Prog.run_bind, Prog.run_observe, Prog.run_update,
            run_sendPacket, run_sendToMembers, List.nil_append, framesOf_append,
            framesOf_cons_toSession, framesOf_map_toSession, framesOf_nil, frames_broadcastS2S]
          rfl
        · rw [if_neg fun h => hm h.2.2]
          rw [left, nameOf, onRooms_roomManager, onConn_roomManager] at hm
          simp [handleRoomLeave, hne, hj, hm]

/-- Nobody is left in the room if the leaving user was alone in it. -/
theorem getLocalMembers_left_eq_nil (r : Bytes) :
    (s.left k r).roomManager.getLocalMembers r = [] ↔
      ∀ v ∈ s.roomManager.getLocalMembers r, v = s.nameOf k := by
  rw [List.eq_nil_iff_forall_not_mem]
  refine forall_congr' fun v => ?_
  show ¬ v ∈ (s.roomManager.leaveRoomLocal r (s.nameOf k)).getLocalMembers r ↔ _
  rw [ChatRoomManager.mem_getLocalMembers_leaveRoomLocal]
  tauto

/-- The join or leave says one thing to every peer with an open link if it announces
something, and nothing otherwise. -/
theorem mem_announcement (active : Bool) {p : Int} {sock : ConnRef} {pkt : RawPacket} :
    .toPeer p sock pkt ∈ ((handleClientPacket k ⟨roomCommand active, payload⟩).run s).out ↔
      s.Announces k active (trim payload) ∧ p ∈ s.connManager.getAllPeerNodes ∧
        s.connManager.openLink p = some sock ∧
        pkt = ⟨.s2sRoomMemberSync, replicationPayload (trim payload) s.serverId active⟩ := by
  have hframe : ∀ out : List Effect, .toPeer p sock pkt ∈ out ↔ .toPeer p sock pkt ∈ framesOf out :=
    fun out => by simp [framesOf, Effect.isFrame]
  have hsends : ∀ out : RawPacket, .toPeer p sock pkt ∈ s.sends s.connManager.getAllPeerNodes out ↔
      p ∈ s.connManager.getAllPeerNodes ∧ s.connManager.openLink p = some sock ∧ pkt = out := by
    intro out
    rw [mem_sends]
    constructor
    · rintro ⟨q, j, hq, hj, he⟩
      cases he
      exact ⟨hq, hj, rfl⟩
    · rintro ⟨hp, hl, rfl⟩
      exact ⟨p, sock, hp, hl, rfl⟩
  have hlink : p ∈ s.connManager.getAllPeerNodes → s.connManager.openLink p = some sock →
      ∃ p ∈ s.connManager.getAllPeerNodes, (s.connManager.openLink p).isSome = true :=
    fun hp hl => ⟨p, hp, by rw [hl]; rfl⟩
  rw [hframe]
  cases ha : (s.connManager.sessions k).isAuthenticated with
  | false =>
      have hout : framesOf ((handleClientPacket k ⟨roomCommand active, payload⟩).run s).out = [] := by
        cases active <;> simp [handleClientPacket, roomCommand, ha]
      rw [hout]
      constructor
      · intro h
        cases h
      · intro h
        cases ha.symm.trans h.1.auth
  | true =>
      cases active with
      | true =>
          have hrun : (handleClientPacket k ⟨roomCommand true, payload⟩).run s =
              (handleRoomJoin k payload).run s := by simp [handleClientPacket, roomCommand, ha]
          rw [hrun, frames_handleRoomJoin]
          split
          next h =>
            rw [hsends]
            exact ⟨fun hm => ⟨⟨ha, h.1, h.2, hlink hm.1 hm.2.1⟩, hm⟩, And.right⟩
          next h =>
            constructor
            · intro hm
              cases hm
            · intro hm
              exact absurd ⟨hm.1.named, hm.1.decides⟩ h
      | false =>
          have hrun : (handleClientPacket k ⟨roomCommand false, payload⟩).run s =
              (handleRoomLeave k payload).run s := by simp [handleClientPacket, roomCommand, ha]
          rw [hrun, frames_handleRoomLeave]
          simp only [getLocalMembers_left_eq_nil]
          split
          next h =>
            rw [hsends]
            exact ⟨fun hm => ⟨⟨ha, h.1, h.2, hlink hm.1 hm.2.1⟩, hm⟩, And.right⟩
          next h =>
            constructor
            · intro hm
              cases hm
            · intro hm
              exact absurd ⟨hm.1.named, hm.1.decides⟩ h

end

/-! ## Names that are read back -/

/-- The announcements of a join or leave arrive and are decoded as what they are meant to say
if the room's name has no NUL and leaves room for the id and the flag, or nothing is
announced, and not otherwise. -/
theorem announcements_true_iff (s : ChatServer) (hid : IsInt s.serverId) (k : ConnRef)
    (active : Bool) (payload : Bytes) :
    s.AnnouncesTruly k active payload ↔
      (NulFree (trim payload) ∧
        (trim payload).length + (toString s.serverId).length + 5 ≤ maxPayloadSize) ∨
      ¬ s.Announces k active (trim payload) := by
  constructor
  · intro h
    by_cases ha : s.Announces k active (trim payload)
    · -- the frame to a peer with an open link is read back
      obtain ⟨p, hp, hl⟩ := ha.link
      obtain ⟨sock, hl⟩ := Option.isSome_iff_exists.mp hl
      obtain ⟨harr, hread, -⟩ :=
        h p sock _ ((mem_announcement s k payload active).mpr ⟨ha, hp, hl, rfl⟩) rfl
      exact .inl ⟨(content_replicationPayload_iff hid _ _).mp hread,
        (arrives_sync_iff _ _ _).mp harr⟩
    · exact .inr ha
  · intro h p sock pkt hm ht
    obtain ⟨ha, -, -, rfl⟩ := (mem_announcement s k payload active).mp hm
    rcases h with ⟨hn, hsize⟩ | hn
    · exact ⟨(arrives_sync_iff _ _ _).mpr hsize, (content_replicationPayload_iff hid _ _).mpr hn,
        run_sync_replicationPayload hid hn active⟩
    · exact absurd ha hn

/-- A server connected to peer 2, with `ann` logged in on the socket accepted after that. -/
def withAnn : ChatServer :=
  let dialed := ((connectPeer 2 4).run (configured 1 [2])).state
  let accepted := ((acceptConnection 5).run dialed).state
  ((handleClientPacket 1 ⟨.login, ascii "ann"⟩).run accepted).state

/-- `ann` joins `den`, and every peer reads that this server has members in `den`. -/
theorem announcements_true_den :
    IsInt withAnn.serverId ∧ withAnn.AnnouncesTruly 1 true (ascii "den") :=
  ⟨by decide, (announcements_true_iff withAnn (by decide) 1 true (ascii "den")).mpr
    (.inl ⟨by decide, by decide⟩)⟩

/-- `ann` joins a room whose name goes on after a NUL, and the peer reads that server 2
has members in `den`. -/
theorem announcements_not_true :
    ¬ ∀ s : ChatServer, IsInt s.serverId → ∀ k active payload,
      (s.connManager.sessions k).isAuthenticated = true → s.AnnouncesTruly k active payload := by
  intro h
  let name := ascii "den" ++ nul :: ascii "2" ++ nul :: ascii "1"
  have hsent : .toPeer 2 0 ⟨.s2sRoomMemberSync, replicationPayload name 1 true⟩ ∈
      ((handleClientPacket 1 ⟨roomCommand true, name⟩).run withAnn).out := by decide +kernel
  have hread := (h withAnn (by decide) 1 true name (by decide) 2 0 _ hsent rfl).2.1
  have hden : content (replicationPayload name 1 true) = some (ascii "den", 2, true) := by
    decide +kernel
  rw [hden] at hread
  exact absurd hread (by decide)

end ChatServer

end DistributedChat
