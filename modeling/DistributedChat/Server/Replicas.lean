import DistributedChat.Logic.Mirror
import DistributedChat.Server.Links

/-!
# What a server replicates

A server tells its peers who is logged in on it (`Online`) and which rooms it
has members of (`Occupied`).  Every change of these two sets is announced, in
the round of frames that follows it, by a packet that says exactly that change:
the packet `out` to the peers `ps` takes the old set to the new one for each of
them.  A step without such a packet leaves the set as it was.
-/

namespace DistributedChat

open Mirror

/-- What a replication packet of the type says: a key, and whether it is in. -/
def readAs (t : PacketType) (pkt : RawPacket) : Option (Bytes × Bool) :=
  if pkt.type = t then
    match unpack pkt.payload with
    | key :: _ :: active :: _ => some (key, decide (active = ascii "1"))
    | _ => none
  else none

/-- What a packet says about users. -/
abbrev readUser : RawPacket → Option (Bytes × Bool) := readAs .s2sReplicateUser

/-- What a packet says about rooms. -/
abbrev readRoom : RawPacket → Option (Bytes × Bool) := readAs .s2sRoomMemberSync

theorem readAs_of_ne {t : PacketType} {pkt : RawPacket} (h : pkt.type ≠ t) :
    readAs t pkt = none := if_neg h

namespace ChatServer

theorem unpack_replicationPayload {key : Bytes} (hk : NulFree key) (i : Int) (online : Bool) :
    unpack (replicationPayload key i online) = [key, toString i, flag online] :=
  unpack_three hk (nulFree_toString i) (by cases online <;> decide)

theorem flag_eq_iff (online : Bool) : flag online = ascii "1" ↔ online = true := by
  cases online <;> decide

theorem readAs_replicationPayload {key : Bytes} (hk : NulFree key) (t : PacketType) (i : Int)
    (online : Bool) : readAs t ⟨t, replicationPayload key i online⟩ = some (key, online) := by
  simp only [readAs, if_true, unpack_replicationPayload hk, flag_eq_iff, Bool.decide_eq_true]

theorem replicated_replicationPayload (m : UserManager) {u : Bytes} (hu : NulFree u) {i : Int}
    (hi : IsInt i) (online : Bool) : m.replicated (replicationPayload u i online) =
      if online = true then m.registerUser u i else m.unregisterUser u := by
  simp only [UserManager.replicated, unpack_replicationPayload hu, stoi_toString hi, flag_eq_iff]

theorem synced_replicationPayload (m : ChatRoomManager) {r : Bytes} (hr : NulFree r) {i : Int}
    (hi : IsInt i) (active : Bool) : m.synced (replicationPayload r i active) =
      if active = true then m.joinRoomRemote r i else m.leaveRoomRemote r i := by
  simp only [ChatRoomManager.synced, unpack_replicationPayload hr, stoi_toString hi, flag_eq_iff]

/-- Somebody is logged in under the name. -/
def Online (s : ChatServer) (u : Bytes) : Prop := ∃ k, s.Holds k u

/-- The room has a local member. -/
def Occupied (s : ChatServer) (r : Bytes) : Prop := s.roomManager.getLocalMembers r ≠ []

/-- The user table locates the user at server `a`. -/
def Locates (s : ChatServer) (a : Int) (u : Bytes) : Prop := s.userManager.location? u = some a

/-- Server `a` is one of the room's remote servers. -/
def Remotes (s : ChatServer) (a : Int) (r : Bytes) : Prop := a ∈ s.roomManager.getRemoteServers r

instance (s : ChatServer) (u : Bytes) : Decidable (s.Online u) :=
  decidable_of_iff (∃ k ∈ s.connManager.getAllSessions, s.Holds k u)
    ⟨fun ⟨k, _, hk⟩ => ⟨k, hk⟩, fun ⟨k, hk⟩ => ⟨k, hk.1, hk⟩⟩

instance (s : ChatServer) (r : Bytes) : Decidable (s.Occupied r) :=
  inferInstanceAs (Decidable (_ ≠ _))

instance (s : ChatServer) (a : Int) (u : Bytes) : Decidable (s.Locates a u) :=
  inferInstanceAs (Decidable (_ = _))

instance (s : ChatServer) (a : Int) (r : Bytes) : Decidable (s.Remotes a r) :=
  inferInstanceAs (Decidable (_ ∈ _))

/-! ## Steps that concern no user and no room -/

/-- Two states of a server with the same users and rooms. -/
structure SameTables (s s' : ChatServer) : Prop where
  serverId : s'.serverId = s.serverId
  users : s'.userManager = s.userManager
  rooms : s'.roomManager = s.roomManager
  names : ∀ u, s'.connManager.getSessionByUsername u = s.connManager.getSessionByUsername u
  holds : ∀ j u, s'.Holds j u ↔ s.Holds j u

section

variable {s s' t : ChatServer} {k : ConnRef} {pkt out : RawPacket} {ps : List Int} {b p : Int}
  {u r : Bytes} {h : SOCKET}

theorem SameTables.refl (s : ChatServer) : SameTables s s :=
  ⟨rfl, rfl, rfl, fun _ => rfl, fun _ _ => Iff.rfl⟩

theorem SameTables.trans (h : SameTables s s') (h' : SameTables s' t) : SameTables s t :=
  ⟨h'.serverId.trans h.serverId, h'.users.trans h.users, h'.rooms.trans h.rooms,
    fun u => (h'.names u).trans (h.names u), fun j u => (h'.holds j u).trans (h.holds j u)⟩

theorem online_congr (h : ∀ j v, s'.Holds j v ↔ s.Holds j v) : s'.Online = s.Online :=
  funext fun v => propext (exists_congr fun j => h j v)

theorem SameTables.online (h : SameTables s s') : s'.Online = s.Online := online_congr h.holds

theorem SameTables.occupied (h : SameTables s s') : s'.Occupied = s.Occupied := by
  funext r
  rw [Occupied, h.rooms, Occupied]

theorem SameTables.locates (h : SameTables s s') (a : Int) : s'.Locates a = s.Locates a := by
  funext u
  rw [Locates, h.users, Locates]

theorem SameTables.remotes (h : SameTables s s') (a : Int) : s'.Remotes a = s.Remotes a := by
  funext r
  rw [Remotes, h.rooms, Remotes]

theorem SameTables.toNames (h : SameTables s s') (hs : s.Names) : s'.Names where
  byName := by
    intro u k
    rw [h.names, h.holds]
    exact hs.byName
  located := by
    intro u
    simp only [h.users, h.serverId, h.holds]
    exact hs.located

/-- Updates of sockets and links. -/
theorem sameTables_onConn {f : ConnectionManager → ConnectionManager}
    (hsame : s.connManager.SameSessions (f s.connManager)) : SameTables s (s.onConn f) where
  serverId := rfl
  users := rfl
  rooms := rfl
  names := fun u => congrArg (·.lookup u) hsame.byUsername
  holds := fun _ _ => holds_of_sameSessions hsame

/-- The end of a session that is not logged in. -/
theorem sameTables_removed (hok : s.connManager.Ok) (hk : s.connManager.Live k)
    (hn : s.nameOf k = []) : SameTables s (s.removed k) where
  serverId := rfl
  users := rfl
  rooms := rfl
  names := by
    intro u
    rw [removed, onConn_connManager, hok.getSessionByUsername_removeSession hk]
    exact if_neg fun hu => hu.1 hn
  holds := by
    intro j u
    rw [holds_removed hok hk]
    refine ⟨And.left, fun hj => ⟨hj, ?_⟩⟩
    rintro rfl
    exact hj.ne_nil hok (hj.2.2.symm.trans hn)

/-- A session that is not logged in becomes a link. -/
theorem sameTables_promoted (hok : s.connManager.Ok) (hk : s.connManager.Live k)
    (hn : s.nameOf k = []) : SameTables s (s.promoted k p) := by
  rw [promoted]
  split
  · exact (sameTables_removed hok hk hn).trans
      (sameTables_onConn (ConnectionManager.sameSessions_linked ..).1)
  · exact sameTables_removed hok hk hn

theorem sameTables_accepted (hok : s.connManager.Ok) (hf : s.connManager.FreeHandle h) :
    SameTables s (s.onConn (·.accepted h)) :=
  ⟨rfl, rfl, rfl, fun _ => rfl, fun _ _ => holds_accepted hok hf⟩

/-- The connector's socket is no session's. -/
theorem sameTables_dialed (hok : s.connManager.Ok) : SameTables s (s.dialed p h) := by
  have hlinked : SameTables (s.onConn (·.newSocket h)) (s.dialed p h) :=
    sameTables_onConn (f := fun m => m.linked p s.connManager.nextConn s.now)
      (ConnectionManager.sameSessions_linked ..).1
  refine SameTables.trans ?_ hlinked
  refine ⟨rfl, rfl, rfl, fun _ => rfl, fun j u => ?_⟩
  have hlive : (s.onConn (·.newSocket h)).connManager.Live j ↔ s.connManager.Live j := Iff.rfl
  have hobj : (s.onConn (·.newSocket h)).connManager.sessions j =
      if j = s.connManager.nextConn then {} else s.connManager.sessions j :=
    ConnectionManager.sessions_newSocket s.connManager j h
  simp only [Holds, nameOf, hlive, hobj]
  split
  next hj =>
    have hdead : ¬ s.connManager.Live j := fun hl => Nat.lt_irrefl _ (hj ▸ hok.live_lt hl)
    simp only [hdead, false_and]
  · rfl

/-! ## Users -/

/-- What a client's packet does to the users online is what the peers are told. -/
theorem ClientStep.online (hs : ClientStep s k pkt s' ps out) (hok : s.connManager.Ok)
    (hk : s.connManager.Live k) (hb : b ∈ s.connManager.peerNodes)
    (hf : s.FirstLogin (.packet k pkt)) (hn : s.Harmless (.packet k pkt)) :
    s'.Online = settle readUser (if b ∈ ps then [out] else []) s.Online := by
  cases hs with
  | login u ht ha =>
      have hfree : NulFree u := fun hnul => ha.2.1 (Or.inr (Or.inl hnul))
      have hanon := hf ht u ha
      rw [if_pos (show b ∈ s.connManager.getAllPeerNodes from hb)]
      funext v
      refine propext (Iff.trans ?_ (settle_singleton (readAs_replicationPayload hfree _ _ _) v).symm)
      split
      next hv => exact ⟨fun _ => rfl, fun _ => ⟨k, (holds_loggedIn hk).mpr (Or.inl ⟨rfl, hv⟩)⟩⟩
      next hv =>
        refine exists_congr fun j => ?_
        rw [holds_loggedIn hk]
        refine ⟨fun hj => ?_, fun hj => Or.inr ⟨?_, hj⟩⟩
        · rcases hj with hj | hj
          · exact absurd hj.2 hv
          · exact hj.2
        · rintro rfl
          rw [hj.2.1] at hanon
          cases hanon
  | promote p ht hp =>
      obtain ⟨-, hanon⟩ := hn ht p hp
      exact (sameTables_promoted hok hk ((hok.username_eq_nil_iff k).mpr hanon)).online
  | firstJoin =>
      rw [settle_ite_of_none fun _ => rfl]
      exact online_congr fun _ _ => holds_joined
  | lastLeave =>
      rw [settle_ite_of_none fun _ => rfl]
      exact online_congr fun _ _ => holds_left
  | join => exact online_congr fun _ _ => holds_joined
  | leave => exact online_congr fun _ _ => holds_left
  | idle => rfl
  | routePrivate | routeRoom | broadcast => rw [settle_ite_of_none fun _ => rfl]

/-- The end of a session is told, too, if nobody else bears its name. -/
theorem online_ended (hok : s.connManager.Ok) (hk : s.connManager.Live k) (hn : s.nameOf k ≠ [])
    (hnames : s.Names) (hb : b ∈ s.connManager.peerNodes) :
    ((s.loggedOut k).removed k).Online = settle readUser
      (if b ∈ s.connManager.getAllPeerNodes then
        [⟨.s2sReplicateUser, replicationPayload (s.nameOf k) s.serverId false⟩] else []) s.Online := by
  rw [if_pos (show b ∈ s.connManager.getAllPeerNodes from hb)]
  have hself := holds_nameOf hok hk hn
  funext v
  refine propext (Iff.trans ?_
    (settle_singleton (readAs_replicationPayload (hok.nulFree_username k) _ _ _) v).symm)
  have hholds : ∀ j, ((s.loggedOut k).removed k).Holds j v ↔ s.Holds j v ∧ j ≠ k :=
    fun j => holds_removed (s := s.loggedOut k) hok hk
  split
  next hv =>
    subst hv
    refine ⟨fun ⟨j, hj⟩ => ?_, Bool.noConfusion⟩
    exact absurd (hnames.holder_unique ((hholds j).mp hj).1 hself) ((hholds j).mp hj).2
  next hv =>
    refine exists_congr fun j => (hholds j).trans ⟨And.left, fun hj => ⟨hj, ?_⟩⟩
    rintro rfl
    exact hv hj.2.2.symm

/-- A client's packet moves no user to or from another server. -/
theorem ClientStep.locates (hs : ClientStep s k pkt s' ps out) {a : Int} (ha : a ≠ s.serverId) :
    s'.Locates a = s.Locates a := by
  cases hs with
  | login u ht hacc =>
      funext v
      have hnone := isUserOnline_eq_false.mp hacc.2.2
      simp only [Locates, loggedIn, onConn_userManager, onUsers_userManager,
        UserManager.location?_registerUser]
      split
      next hv =>
        rw [hv, hnone]
        simp [ha.symm]
      · rfl
  | promote =>
      rw [promoted]
      split <;> rfl
  | _ => rfl

/-- Who is logged in here is located nowhere else. -/
def Resident (s : ChatServer) : Prop :=
  ∀ {k u a}, s.Holds k u → s.Locates a u → a = s.serverId

theorem Names.resident (h : s.Names) : s.Resident := by
  intro k u a hk hl
  have hhere := h.located.mpr ⟨k, hk⟩
  exact Option.some.inj (hl.symm.trans hhere)

/-- The user of a session that ends was here. -/
theorem locates_ended (hok : s.connManager.Ok) (hk : s.connManager.Live k) (hn : s.nameOf k ≠ [])
    (hres : s.Resident) {a : Int} (ha : a ≠ s.serverId) :
    ((s.loggedOut k).removed k).Locates a = s.Locates a := by
  funext v
  have hnot : ¬ s.Locates a (s.nameOf k) := fun hl => ha (hres (holds_nameOf hok hk hn) hl)
  rw [Locates] at hnot
  simp only [Locates, removed, loggedOut, onConn_userManager, onUsers_userManager,
    UserManager.location?_unregisterUser]
  split
  next hv =>
    rw [hv]
    simp [hnot]
  · rfl

/-! ## Rooms -/

theorem occupied_iff : s.Occupied r ↔ ∃ u, u ∈ s.roomManager.getLocalMembers r :=
  ⟨List.exists_mem_of_ne_nil _, fun ⟨_, hu⟩ => List.ne_nil_of_mem hu⟩

theorem occupied_joined (v : Bytes) : (s.joined k r).Occupied v ↔ v = r ∨ s.Occupied v := by
  simp only [occupied_iff, joined, onRooms_roomManager, onConn_roomManager,
    ChatRoomManager.mem_getLocalMembers_joinRoomLocal, exists_or, exists_and_left, exists_eq,
    and_true]

theorem occupied_left_of_ne {v : Bytes} (hv : v ≠ r) : (s.left k r).Occupied v ↔ s.Occupied v := by
  simp only [occupied_iff, left, onRooms_roomManager, onConn_roomManager,
    ChatRoomManager.mem_getLocalMembers_leaveRoomLocal, hv, false_and, not_false_eq_true, true_and]

theorem occupied_of_left {v : Bytes} (h : (s.left k r).Occupied v) : s.Occupied v := by
  obtain ⟨u, hu⟩ := occupied_iff.mp h
  refine occupied_iff.mpr ⟨u, ?_⟩
  rw [left, onRooms_roomManager, ChatRoomManager.mem_getLocalMembers_leaveRoomLocal] at hu
  exact hu.2

/-- What a client's packet does to the occupied rooms is what the peers are told. -/
theorem ClientStep.occupied (hs : ClientStep s k pkt s' ps out) (hb : b ∈ s.connManager.peerNodes)
    (hr : pkt.type = .roomJoin ∨ pkt.type = .roomLeave → NulFree (trim pkt.payload)) :
    s'.Occupied = settle readRoom (if b ∈ ps then [out] else []) s.Occupied := by
  cases hs with
  | firstJoin r ht hroom =>
      rw [if_pos (show b ∈ s.connManager.getAllPeerNodes from hb)]
      funext v
      refine propext (Iff.trans ?_
        (settle_singleton (readAs_replicationPayload (hroom ▸ hr (Or.inl ht)) _ _ _) v).symm)
      rw [occupied_joined]
      split
      next hv => exact ⟨fun _ => rfl, fun _ => Or.inl hv⟩
      next hv => exact or_iff_right hv
  | join r ht hroom hne ha hm =>
      funext v
      refine propext ((occupied_joined v).trans ⟨fun hv => ?_, Or.inr⟩)
      rcases hv with rfl | hv
      · exact hm
      · exact hv
  | lastLeave r ht hroom hne ha hj hm =>
      rw [if_pos (show b ∈ s.connManager.getAllPeerNodes from hb)]
      funext v
      refine propext (Iff.trans ?_
        (settle_singleton (readAs_replicationPayload (hroom ▸ hr (Or.inr ht)) _ _ _) v).symm)
      split
      next hv => exact ⟨fun hocc => absurd hm (hv ▸ hocc), Bool.noConfusion⟩
      next hv => exact occupied_left_of_ne hv
  | leave r ht hroom hne ha hj hm =>
      funext v
      refine propext ⟨occupied_of_left, fun hv => ?_⟩
      by_cases hvr : v = r
      · exact hvr ▸ hm
      · exact (occupied_left_of_ne hvr).mpr hv
  | promote =>
      rw [promoted]
      split <;> rfl
  | login =>
      rw [settle_ite_of_none fun _ => rfl]
      rfl
  | idle => rfl
  | routePrivate | routeRoom | broadcast => rw [settle_ite_of_none fun _ => rfl]

/-- A client's packet adds or removes no remote server. -/
theorem ClientStep.remotes (hs : ClientStep s k pkt s' ps out) (a : Int) :
    s'.Remotes a = s.Remotes a := by
  cases hs with
  | firstJoin | join =>
      funext r
      rw [Remotes, joined, onRooms_roomManager, ChatRoomManager.getRemoteServers_joinRoomLocal]
      rfl
  | lastLeave | leave =>
      funext r
      rw [Remotes, left, onRooms_roomManager, ChatRoomManager.getRemoteServers_leaveRoomLocal]
      rfl
  | promote =>
      rw [promoted]
      split <;> rfl
  | _ => rfl

end

end ChatServer

end DistributedChat
