import DistributedChat.Server.Outputs
import DistributedChat.Server.Registry

/-!
# Room membership

A room's members are recorded twice, in the sessions and in `ChatRoomManager`.
The two records agree until a session ends while it is in a room: the listener
thread takes the session away and leaves its user in the room.  What is left is
a member without session, whose entry the next session under that name inherits.
-/

namespace DistributedChat

namespace ChatServer

/-- A server whose clients are yet to come.  Its peers may be in any state. -/
structure Unvisited (s : ChatServer) : Prop where
  ok : s.connManager.Ok
  noSession : ∀ k, ¬ s.connManager.Live k
  noName : ∀ u, s.connManager.getSessionByUsername u = none
  noUser : ∀ u, s.userManager.location? u ≠ some s.serverId
  noMember : ∀ r, s.roomManager.getLocalMembers r = []
  notPeer : s.serverId ∉ s.connManager.peerNodes

/-- The local members of a room are the users whose session is in it. -/
def Members (s : ChatServer) : Prop :=
  ∀ u r, u ∈ s.roomManager.getLocalMembers r ↔
    ∃ k, s.connManager.getSessionByUsername u = some k ∧ s.connManager.isInRoom k r = true

/-- A room message is delivered only to sessions that are in the room. -/
def DeliversToJoined (s : ChatServer) : Prop :=
  ∀ {k pkt r text fields t p}, s.connManager.Live k → pkt.type = .msgRoom →
    unpack pkt.payload = r :: text :: fields →
    .toSession t p ∈ ((readPacket k pkt).run s).out → p.type = .msgRoom →
    s.connManager.isInRoom t r = true

/-- The action does not end a session that is in a room. -/
def EndsOutside (s : ChatServer) : ClientAction → Prop
  | .disconnect k => ∀ r, s.connManager.isInRoom k r = false
  | _ => True

/-- What a server keeps while no session ends in a room. -/
structure InStep (s : ChatServer) : Prop where
  ok : s.connManager.Ok
  names : s.Names
  notPeer : s.serverId ∉ s.connManager.peerNodes
  members : s.Members

section

variable {s s' : ChatServer} {a : ClientAction} {k : ConnRef} {u r : Bytes}

theorem Unvisited.inStep (h : s.Unvisited) : s.InStep where
  ok := h.ok
  names := by
    refine ⟨fun {u k} => ⟨fun hk => ?_, fun hk => absurd hk.1 (h.noSession k)⟩,
      fun {u} => ⟨fun hu => absurd hu (h.noUser u), fun hk => ?_⟩⟩
    · rw [h.noName] at hk
      cases hk
    · obtain ⟨k, hk⟩ := hk
      exact absurd hk.1 (h.noSession k)
  notPeer := h.notPeer
  members := by
    intro u r
    rw [h.noMember]
    refine ⟨fun hu => absurd hu List.not_mem_nil, fun hk => ?_⟩
    obtain ⟨k, hk, -⟩ := hk
    rw [h.noName] at hk
    cases hk

/-- Membership in terms of who holds a name. -/
theorem Names.members_iff (h : s.Names) :
    s.Members ↔ ∀ u r, u ∈ s.roomManager.getLocalMembers r ↔
      ∃ k, s.Holds k u ∧ r ∈ (s.connManager.sessions k).joinedRooms := by
  simp only [Members, h.byName, ConnectionManager.isInRoom, decide_eq_true_eq]

/-! ## The records agree -/

theorem Members.deliversToJoined (h : s.Members) : s.DeliversToJoined := by
  intro k pkt r text fields t p hk ht hu he hp
  rw [run_readPacket_of_live hk] at he
  cases ha : (s.connManager.sessions k).isAuthenticated with
  | false =>
      simp only [handleClientPacket, ht, ha, Prog.run_bind, Prog.run_observe, ne_eq, reduceCtorEq,
        not_false_eq_true, and_self, if_true, run_sendPacket, Prog.run_pure, List.append_nil,
        List.nil_append, List.mem_singleton] at he
      cases he
      cases hp
  | true =>
      rw [run_handleClientPacket_of_authenticated ha (Or.inl ⟨ht, rfl⟩)] at he
      cases hj : s.connManager.isInRoom k r with
      | true =>
          rw [out_handleRoomMsg hu hj] at he
          cases List.mem_append.mp he with
          | inl he =>
              obtain ⟨t', ht', heq⟩ := List.mem_map.mp he
              cases heq
              obtain ⟨name, hname, hsession⟩ := List.mem_filterMap.mp ht'
              obtain ⟨k', hk', hroom⟩ := (h name r).mp hname
              rw [hsession] at hk'
              cases hk'
              exact hroom
          | inr he =>
              have hs := emits_routeRoomMessage _ _ _ s _ he
              rw [show p.type = .statusUpdate from hs] at hp
              cases hp
      | false =>
          simp [handleRoomMsg, hu, hj] at he
          cases he.2
          cases hp

theorem getLocalMembers_dropBroken (s : ChatServer) (ps : List Int) (r : Bytes) :
    (s.dropBroken ps).roomManager.getLocalMembers r = s.roomManager.getLocalMembers r :=
  dropBroken_induct
    (I := fun t => t.roomManager.getLocalMembers r = s.roomManager.getLocalMembers r)
    (fun t p ht _ _ =>
      (ChatRoomManager.getLocalMembers_clearServerMemberships t.roomManager r p).trans ht) rfl ps

theorem Members.dropBroken (h : s.Members) (ps : List Int) : (s.dropBroken ps).Members := by
  intro u r
  have hsame := sameSessions_dropBroken s ps
  rw [getLocalMembers_dropBroken, h u r]
  simp only [ConnectionManager.getSessionByUsername, ConnectionManager.isInRoom, hsame.byUsername,
    hsame.objects]

theorem InStep.dropBroken (h : s.InStep) (ps : List Int) : (s.dropBroken ps).InStep where
  ok := ok_dropBroken h.ok ps
  names := h.names.dropBroken h.notPeer ps
  notPeer := by
    rw [serverId_dropBroken, (sameSessions_dropBroken s ps).peers]
    exact h.notPeer
  members := h.members.dropBroken ps

/-! ## What a client's action does to the records -/

/-- A login gives the session's rooms, of which it has none, to its user. -/
theorem InStep.loggedIn (h : s.InStep) {payload : Bytes} (hk : s.connManager.Live k)
    (ha : s.Accepts payload u) (hf : (s.connManager.sessions k).isAuthenticated = false) :
    (s.loggedIn k u).InStep := by
  have hnames := h.names.loggedIn hk ha hf
  have hok : (s.loggedIn k u).connManager.Ok :=
    h.ok.authenticateSession ⟨fun he => ha.2.1 (Or.inl he), fun hn => ha.2.1 (Or.inr (Or.inl hn))⟩
  refine ⟨hok, hnames, h.notPeer, hnames.members_iff.mpr fun v r => ?_⟩
  have hrooms : ∀ j, ((s.loggedIn k u).connManager.sessions j).joinedRooms =
      (s.connManager.sessions j).joinedRooms := by
    intro j
    rw [ChatServer.loggedIn, onConn_connManager, onUsers_connManager,
      ConnectionManager.sessions_authenticateSession]
    split
    next he => rw [he]
    · rfl
  have hempty : ∀ r, r ∉ (s.connManager.sessions k).joinedRooms := by
    intro r
    rw [(h.ok.session_ok k).blank hf]
    exact ListSet.notMem_empty r
  refine (h.names.members_iff.mp h.members v r).trans ?_
  simp only [holds_loggedIn hk, hrooms]
  refine ⟨fun hv => ?_, fun hv => ?_⟩
  · obtain ⟨j, hj, hr⟩ := hv
    exact ⟨j, Or.inr ⟨fun he => hempty r (he ▸ hr), hj⟩, hr⟩
  · obtain ⟨j, hj, hr⟩ := hv
    cases hj with
    | inl he => exact absurd (he.1 ▸ hr) (hempty r)
    | inr hj => exact ⟨j, hj.2, hr⟩

theorem InStep.joined (h : s.InStep) (hk : s.connManager.Live k)
    (ha : (s.connManager.sessions k).isAuthenticated = true) : (s.joined k r).InStep := by
  have hnames : (s.joined k r).Names := h.names.congr (fun _ _ => holds_joined) rfl fun _ => Iff.rfl
  refine ⟨h.ok.joinRoom ha, hnames, h.notPeer, hnames.members_iff.mpr fun v r' => ?_⟩
  have hmem : v ∈ (s.joined k r).roomManager.getLocalMembers r' ↔
      (r' = r ∧ v = s.nameOf k) ∨ v ∈ s.roomManager.getLocalMembers r' :=
    ChatRoomManager.mem_getLocalMembers_joinRoomLocal ..
  have hrooms : ∀ j, r' ∈ ((s.joined k r).connManager.sessions j).joinedRooms ↔
      (j = k ∧ r' = r) ∨ r' ∈ (s.connManager.sessions j).joinedRooms := by
    intro j
    rw [ChatServer.joined, onRooms_connManager, onConn_connManager,
      ConnectionManager.sessions_joinRoom]
    split
    next he => simp [he]
    next hne => simp [hne]
  simp only [hmem, hrooms, holds_joined, h.names.members_iff.mp h.members v r']
  have hself : s.Holds k (s.nameOf k) := ⟨hk, ha, rfl⟩
  refine ⟨fun hv => ?_, fun hv => ?_⟩
  · cases hv with
    | inl he => exact ⟨k, he.2 ▸ hself, Or.inl ⟨rfl, he.1⟩⟩
    | inr hj =>
        obtain ⟨j, hj, hr⟩ := hj
        exact ⟨j, hj, Or.inr hr⟩
  · obtain ⟨j, hj, hr⟩ := hv
    cases hr with
    | inl he => exact Or.inl ⟨he.2, he.1 ▸ hj.2.2.symm⟩
    | inr hr => exact Or.inr ⟨j, hj, hr⟩

theorem InStep.left (h : s.InStep) (hk : s.connManager.Live k)
    (ha : (s.connManager.sessions k).isAuthenticated = true) : (s.left k r).InStep := by
  have hnames : (s.left k r).Names := h.names.congr (fun _ _ => holds_left) rfl fun _ => Iff.rfl
  refine ⟨h.ok.leaveRoom ha, hnames, h.notPeer, hnames.members_iff.mpr fun v r' => ?_⟩
  have hmem : v ∈ (s.left k r).roomManager.getLocalMembers r' ↔
      ¬ (r' = r ∧ v = s.nameOf k) ∧ v ∈ s.roomManager.getLocalMembers r' :=
    ChatRoomManager.mem_getLocalMembers_leaveRoomLocal ..
  have hrooms : ∀ j, r' ∈ ((s.left k r).connManager.sessions j).joinedRooms ↔
      ¬ (j = k ∧ r' = r) ∧ r' ∈ (s.connManager.sessions j).joinedRooms := by
    intro j
    rw [ChatServer.left, onRooms_connManager, onConn_connManager,
      ConnectionManager.sessions_leaveRoom]
    split
    next he => simp [he]
    next hne => simp [hne]
  simp only [hmem, hrooms, holds_left, h.names.members_iff.mp h.members v r']
  have hself : s.Holds k (s.nameOf k) := ⟨hk, ha, rfl⟩
  refine ⟨fun hv => ?_, fun hv => ?_⟩
  · obtain ⟨hnot, j, hj, hr⟩ := hv
    exact ⟨j, hj, fun he => hnot ⟨he.2, he.1 ▸ hj.2.2.symm⟩, hr⟩
  · obtain ⟨j, hj, hnot, hr⟩ := hv
    refine ⟨fun he => hnot ⟨?_, he.1⟩, j, hj, hr⟩
    exact h.names.holder_unique hj (he.2 ▸ hself)

theorem InStep.accepted (h : s.InStep) {handle : SOCKET} (hf : s.connManager.FreeHandle handle) :
    (s.onConn (·.accepted handle)).InStep := by
  have hnames : (s.onConn (·.accepted handle)).Names :=
    h.names.congr (fun _ _ => holds_accepted h.ok hf) rfl fun _ => Iff.rfl
  refine ⟨h.ok.accepted hf, hnames, h.notPeer, hnames.members_iff.mpr fun v r => ?_⟩
  simp only [holds_accepted h.ok hf]
  refine (h.names.members_iff.mp h.members v r).trans (exists_congr fun j => ?_)
  refine and_congr_right fun hj => ?_
  have hne : j ≠ s.connManager.nextConn := Nat.ne_of_lt (h.ok.live_lt hj.1)
  have hobj : (s.onConn (·.accepted handle)).connManager.sessions j =
      s.connManager.sessions j :=
    (ConnectionManager.sessions_newSocket s.connManager j handle).trans (if_neg hne)
  rw [hobj]

/-- What the listener thread does to the two records when a session ends. -/
theorem Members.removed {t : ChatServer} (h : s.Members) (hnames : s.Names)
    (hnames' : (t.removed k).Names) (hokt : t.connManager.Ok) (hkt : t.connManager.Live k)
    (hsame : s.connManager.SameSessions t.connManager)
    (hlocal : ∀ r, t.roomManager.getLocalMembers r = s.roomManager.getLocalMembers r)
    (hout : ∀ r, s.connManager.isInRoom k r = false) : (t.removed k).Members := by
  refine hnames'.members_iff.mpr fun v r => ?_
  have hobj : (t.removed k).connManager.sessions = s.connManager.sessions :=
    (ConnectionManager.sessions_removeSession ..).trans hsame.objects
  have hmem : v ∈ (t.removed k).roomManager.getLocalMembers r ↔
      v ∈ s.roomManager.getLocalMembers r := by
    rw [← hlocal r]
    rfl
  rw [hmem, hobj, hnames.members_iff.mp h v r]
  refine exists_congr fun j => ?_
  rw [holds_removed hokt hkt, holds_of_sameSessions hsame]
  refine ⟨fun hj => ⟨⟨hj.1, fun he => ?_⟩, hj.2⟩, fun hj => ⟨hj.1.1, hj.2⟩⟩
  exact absurd (he ▸ hj.2) (of_decide_eq_false (hout r))

theorem InStep.move (h : s.InStep) (hf : s.FirstLogin a) (hn : NoConnect a)
    (he : s.EndsOutside a) (hm : ClientMove s a s') : s'.InStep := by
  have hnames := h.names.move h.ok h.notPeer hf hn hm
  have hpeer : s'.serverId ∉ s'.connManager.peerNodes := by
    rw [hm.same.1, hm.same.2]
    exact h.notPeer
  cases hm with
  | connect hfree => exact h.accepted hfree
  | @packet k pkt _ s' ps hk hs =>
      have hs' : s'.InStep := by
        cases hs with
        | login u ht ha => exact h.loggedIn hk ha (hf ht u ha)
        | firstJoin r ht hr hne ha => exact h.joined hk ha
        | join r ht hr hne ha => exact h.joined hk ha
        | lastLeave r ht hr hne ha => exact h.left hk ha
        | leave r ht hr hne ha => exact h.left hk ha
        | promote p ht hp => exact absurd ht hn
        | _ => exact h
      exact hs'.dropBroken ps
  | @disconnectNew k hk hnew =>
      refine ⟨ok_removed h.ok hk, hnames, hpeer, ?_⟩
      exact h.members.removed h.names hnames h.ok hk (.refl _) (fun _ => rfl) he
  | @disconnect k hk hnew =>
      have hsame := sameSessions_dropBroken (s.loggedOut k) s.connManager.getAllPeerNodes
      have hokt := ok_dropBroken (s := s.loggedOut k) h.ok s.connManager.getAllPeerNodes
      have hkt := live_loggedOut_dropBroken hk s.connManager.getAllPeerNodes
      refine ⟨ok_removed hokt hkt, hnames, hpeer, ?_⟩
      exact h.members.removed h.names hnames hokt hkt hsame
        (getLocalMembers_dropBroken (s.loggedOut k) _) he

/-- A session that ends in a room leaves a member without session. -/
theorem InStep.not_members_of_end (h : s.InStep) (hk : s.connManager.Live k)
    (hr : s.connManager.isInRoom k r = true) (hm : ClientMove s (.disconnect k) s') :
    ¬ s'.Members := by
  intro hmem
  have hjoined : r ∈ (s.connManager.sessions k).joinedRooms := of_decide_eq_true hr
  cases hm with
  | disconnectNew _ hnew =>
      -- a session without name is as new, and in no room
      rw [(h.ok.session_ok k).blank ((h.ok.username_eq_nil_iff k).mp hnew)] at hjoined
      exact ListSet.notMem_empty r hjoined
  | disconnect _ hnew =>
      have hself := holds_nameOf h.ok hk hnew
      have hold := (h.names.members_iff.mp h.members (s.nameOf k) r).mpr ⟨k, hself, hjoined⟩
      have hlocal := getLocalMembers_dropBroken (s.loggedOut k) s.connManager.getAllPeerNodes r
      obtain ⟨j, hj, -⟩ := (hmem (s.nameOf k) r).mp (hlocal.symm ▸ hold)
      -- but the entry of the name is gone with the session
      have hsame := sameSessions_dropBroken (s.loggedOut k) s.connManager.getAllPeerNodes
      have hokt := ok_dropBroken (s := s.loggedOut k) h.ok s.connManager.getAllPeerNodes
      have hkt := live_loggedOut_dropBroken hk s.connManager.getAllPeerNodes
      have hgone := hokt.getSessionByUsername_removeSession hkt (s.nameOf k)
      rw [hsame.objects, if_pos ⟨hnew, rfl⟩] at hgone
      exact Option.some_ne_none j (hj.symm.trans hgone)

end

/-- On a server whose clients are yet to come, take any run without `S2S_CONNECT`
in which every connection logs in at most once.  The two records agree in every
state of it, and room messages go to sessions in the room only, exactly when no
session of the run ends while it is in a room. -/
theorem membership_always_iff (s : ChatServer) (as : List ClientAction) (t : ChatServer)
    (hs : s.Unvisited) (hrun : exec clientNext s as = some t) (hno : ∀ a ∈ as, NoConnect a)
    (hlog : Along clientNext FirstLogin s as) :
    (∀ u, Visits clientNext s as u → u.Members ∧ u.DeliversToJoined) ↔
      Along clientNext EndsOutside s as := by
  refine always_iff_along (I := InStep) (A := fun s a => NoConnect a ∧ s.FirstLogin a)
    (fun h => ⟨h.members, h.members.deliversToJoined⟩) ?_ ?_ hs.inStep
    ((along_of_forall hno).and hlog) hrun
  · intro s a s' hi hA he hnext
    exact hi.move hA.2 hA.1 he (clientNext_move hi.ok hnext)
  · intro s a s' hi hA he hnext hgood
    cases a with
    | connect => exact he trivial
    | packet => exact he trivial
    | disconnect k =>
        simp only [EndsOutside] at he
        push Not at he
        obtain ⟨r, hr⟩ := he
        have hm := clientNext_move hi.ok hnext
        have hk : s.connManager.Live k := by
          cases hm with
          | disconnectNew hk hnew => exact hk
          | disconnect hk hnew => exact hk
        exact hi.not_members_of_end hk (Bool.eq_true_of_not_eq_false hr) hm hgood.1

/-- Ann's connection drops while she is in a room, and she logs in again.  Bob
enters the room from another connection. -/
def rejoin : List ClientAction :=
  [.connect 4, .packet 0 ⟨.login, ascii "ann"⟩, .packet 0 ⟨.roomJoin, ascii "den"⟩, .disconnect 0,
    .connect 4, .packet 1 ⟨.login, ascii "ann"⟩, .connect 5, .packet 2 ⟨.login, ascii "bob"⟩,
    .packet 2 ⟨.roomJoin, ascii "den"⟩]

theorem unvisited_fresh (id : Int) : (fresh id).Unvisited where
  ok := (lone_fresh id).ok
  noSession := fun _ hk => List.not_mem_nil hk
  noName := fun _ => rfl
  noUser := fun _ hu => Option.noConfusion rfl (heq_of_eq hu)
  noMember := fun _ => rfl
  notPeer := List.not_mem_nil

theorem membership_always_iff_rejoin :
    (∀ u, Visits clientNext (fresh 1) rejoin u → u.Members ∧ u.DeliversToJoined) ↔
      Along clientNext EndsOutside (fresh 1) rejoin :=
  membership_always_iff (fresh 1) rejoin ((exec clientNext (fresh 1) rejoin).get (by decide))
    (unvisited_fresh 1) (Option.some_get _).symm (by decide) (by decide)

/-- After the drop Ann's name stays in the room, and Bob's message for the room
goes to her new session, which never entered it. -/
theorem rejoin_breaks_membership :
    (fresh 1).Unvisited ∧ (∀ a ∈ rejoin, NoConnect a) ∧
      Along clientNext FirstLogin (fresh 1) rejoin ∧
      ∃ t, exec clientNext (fresh 1) rejoin = some t ∧ ¬ t.Members ∧ ¬ t.DeliversToJoined := by
  have hrun : (exec clientNext (fresh 1) rejoin).any fun t =>
      ascii "ann" ∈ t.roomManager.getLocalMembers (ascii "den") ∧
        t.connManager.getSessionByUsername (ascii "ann") = some 1 ∧
        t.connManager.isInRoom 1 (ascii "den") = false ∧ t.connManager.Live 2 ∧
        .toSession 1 ⟨.msgRoom, pack [ascii "bob", ascii "den", ascii "hi"]⟩ ∈
          ((readPacket 2 ⟨.msgRoom, pack [ascii "den", ascii "hi"]⟩).run t).out := by decide
  obtain ⟨t, ht, hmem, hann, hout, hlive, hsent⟩ := by simpa [Option.any_eq_true] using hrun
  refine ⟨unvisited_fresh 1, by decide, by decide, t, ht, fun h => ?_, fun h => ?_⟩
  · obtain ⟨k, hk, hroom⟩ := (h (ascii "ann") (ascii "den")).mp hmem
    rw [hann] at hk
    cases hk
    rw [hout] at hroom
    cases hroom
  · have hunpack : unpack (pack [ascii "den", ascii "hi"]) = [ascii "den", ascii "hi"] := by decide
    have hroom := h hlive rfl hunpack hsent rfl
    rw [hout] at hroom
    cases hroom

end ChatServer

end DistributedChat
