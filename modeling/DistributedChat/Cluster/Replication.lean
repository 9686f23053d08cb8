import DistributedChat.Cluster.Start
import DistributedChat.Server.Replicas

/-!
# Replicas in a cluster

What a server knows of another one is a mirror of what that one announces: the
users it locates there mirror the users online there, and the rooms it lists it
for mirror its occupied rooms.  `Change` sums up what an action means to the
tables of a server.  From it follow the writer's side (`Change.online`,
`Change.occupied`) and the reader's side (`Change.locates`, `Change.remotes`),
and with the first-in first-out links both keep the mirrors faithful
(`Move.usersMirrored`, `Move.roomsMirrored`).

The reader's side of the users needs a condition, `Clean`.  An
`S2S_REPLICATE_USER` changes the one entry of its user, wherever that entry
locates him, so a packet of one server may change what is known of another.
-/

namespace DistributedChat

open ChatServer Mirror

namespace Cluster

/-- Clients' logins are the first ones of their connections. -/
def FirstLogins (c : Cluster) : Action → Prop
  | .client a act => (c.server a).FirstLogin act
  | _ => True

instance (c : Cluster) (act : Action) : Decidable (c.FirstLogins act) :=
  match act with
  | .client a act => inferInstanceAs (Decidable ((c.server a).FirstLogin act))
  | .heartbeat _ _ | .deliver _ _ | .hang _ _ | .dial _ _ _ _ => instDecidableTrue

/-- Clients' packets are harmless. -/
def Harmless (c : Cluster) : Action → Prop
  | .client a act => (c.server a).Harmless act
  | _ => True

instance (c : Cluster) (act : Action) : Decidable (c.Harmless act) :=
  match act with
  | .client a act => inferInstanceAs (Decidable ((c.server a).Harmless act))
  | .heartbeat _ _ | .deliver _ _ | .hang _ _ | .dial _ _ _ _ => instDecidableTrue

/-- A replication of a user is read by a server that does not locate the user
anywhere or locates him at the sender. -/
def Clean (c : Cluster) : Action → Prop
  | .deliver b k =>
      match c.far b k, c.inbox b k with
      | some (a, _), (_, pkt) :: _ => ∀ u ∈ (readUser pkt).map Prod.fst,
          (c.server b).userManager.location? u = none ∨ (c.server b).Locates a u
      | _, _ => True
  | _ => True

instance (c : Cluster) (act : Action) : Decidable (c.Clean act) :=
  match act with
  | .deliver b k =>
      decidable_of_iff (∀ a ∈ (c.far b k).map Prod.fst, ∀ e ∈ (c.inbox b k).head?,
        ∀ u ∈ (readUser e.2).map Prod.fst,
          (c.server b).userManager.location? u = none ∨ (c.server b).Locates a u) (by
        rw [Clean]
        cases c.far b k with
        | none => simp
        | some z => cases c.inbox b k <;> simp)
  | .client _ _ | .heartbeat _ _ | .hang _ _ | .dial _ _ _ _ => instDecidableTrue

theorem Harmless.noHijack {c : Cluster} {act : Action} (h : c.Harmless act) : c.NoHijack act := by
  rw [NoHijack.eq_def]
  split
  next a k pkt => exact fun ht p hp hstoi => (h ht p hstoi).1 hp
  · trivial

/-! ## What a packet of a peer does -/

section

variable {s : ChatServer} {R : Bytes → Prop} {p : Int} {pkt : RawPacket}

theorem eq_of_honest_replicateUser (h : Honest R p pkt) (ht : pkt.type = .s2sReplicateUser) :
    ∃ u online, NulFree u ∧ pkt = ⟨.s2sReplicateUser, replicationPayload u p online⟩ := by
  obtain ⟨t, payload⟩ := pkt
  cases ht
  obtain ⟨u, online, hu, he⟩ := h
  exact ⟨u, online, hu, congrArg _ he⟩

theorem eq_of_honest_roomMemberSync (h : Honest R p pkt) (ht : pkt.type = .s2sRoomMemberSync) :
    ∃ r active, R r ∧ pkt = ⟨.s2sRoomMemberSync, replicationPayload r p active⟩ := by
  obtain ⟨t, payload⟩ := pkt
  cases ht
  obtain ⟨r, active, hr, he⟩ := h
  exact ⟨r, active, hr, congrArg _ he⟩

theorem received_userManager (ht : pkt.type ≠ .s2sReplicateUser) :
    (s.received p pkt).userManager = s.userManager := by
  rw [ChatServer.received]
  split
  next h => exact absurd h ht
  · rfl
  · rfl

theorem received_roomManager (ht : pkt.type ≠ .s2sRoomMemberSync) :
    (s.received p pkt).roomManager = s.roomManager := by
  rw [ChatServer.received]
  split
  · rfl
  next h => exact absurd h ht
  · rfl

/-- A replication changes the entry of its user. -/
theorem location?_received {u : Bytes} {online : Bool} (hu : NulFree u) (hp : IsInt p) (v : Bytes) :
    (s.received p ⟨.s2sReplicateUser, replicationPayload u p online⟩).userManager.location? v =
      if v = u then (if online = true then some p else none) else s.userManager.location? v := by
  show (s.userManager.replicated (replicationPayload u p online)).location? v = _
  rw [replicated_replicationPayload _ hu hp]
  cases online with
  | true => exact UserManager.location?_registerUser ..
  | false => exact UserManager.location?_unregisterUser ..

/-- A packet of a peer changes what is known of that peer as the packet says, and
of nobody else if it is clean. -/
theorem locates_received (hpkt : Honest R p pkt) (hp : IsInt p) (a : Int)
    (hclean : ∀ u ∈ (readUser pkt).map Prod.fst,
      s.userManager.location? u = none ∨ s.Locates p u) :
    (s.received p pkt).Locates a =
      if a = p then settle readUser [pkt] (s.Locates a) else s.Locates a := by
  by_cases ht : pkt.type = .s2sReplicateUser
  · obtain ⟨u, online, hu, rfl⟩ := eq_of_honest_replicateUser hpkt ht
    have hread := readAs_replicationPayload hu .s2sReplicateUser p online
    have hentry := hclean u (by rw [readUser, hread]; rfl)
    split
    next hap =>
      subst hap
      funext v
      refine propext (Iff.trans ?_ (settle_singleton hread v).symm)
      rw [Locates, location?_received hu hp]
      split
      · cases online <;> simp
      · rfl
    next hap =>
      funext v
      rw [Locates, location?_received hu hp, Locates]
      split
      next hv =>
        -- the entry of the user is not that of server `a`, before or after
        subst hv
        have hbefore : s.userManager.location? v ≠ some a := by
          rcases hentry with hnone | hthere
          · simp [hnone]
          · rw [Locates] at hthere
            simp [hthere, Ne.symm hap]
        cases online <;> simp [hbefore, Ne.symm hap]
      · rfl
  · have hsame : (s.received p pkt).Locates a = s.Locates a := by
      funext v
      rw [Locates, received_userManager ht, Locates]
    rw [hsame]
    split
    · exact (announce_of_none (readAs_of_ne ht)).symm
    · rfl

theorem remotes_received (hpkt : Honest NulFree p pkt) (hp : IsInt p) (a : Int) :
    (s.received p pkt).Remotes a =
      if a = p then settle readRoom [pkt] (s.Remotes a) else s.Remotes a := by
  by_cases ht : pkt.type = .s2sRoomMemberSync
  · obtain ⟨r, active, hr, rfl⟩ := eq_of_honest_roomMemberSync hpkt ht
    have hread := readAs_replicationPayload hr .s2sRoomMemberSync p active
    have hrooms : (s.received p ⟨.s2sRoomMemberSync, replicationPayload r p active⟩).roomManager =
        if active = true then s.roomManager.joinRoomRemote r p
        else s.roomManager.leaveRoomRemote r p :=
      synced_replicationPayload s.roomManager hr hp active
    funext v
    have hmem : a ∈ (s.received p ⟨.s2sRoomMemberSync,
        replicationPayload r p active⟩).roomManager.getRemoteServers v ↔
          if v = r ∧ a = p then active = true else a ∈ s.roomManager.getRemoteServers v := by
      rw [hrooms]
      cases active with
      | true =>
          rw [if_pos rfl, ChatRoomManager.mem_getRemoteServers_joinRoomRemote]
          split
          next he => exact ⟨fun _ => rfl, fun _ => Or.inl he⟩
          next he => exact or_iff_right he
      | false =>
          rw [if_neg Bool.false_ne_true, ChatRoomManager.mem_getRemoteServers_leaveRoomRemote]
          split
          next he => exact ⟨fun h => absurd he h.1, Bool.noConfusion⟩
          next he => exact and_iff_right he
    rw [Remotes]
    refine propext (hmem.trans ?_)
    split
    next hva => rw [if_pos hva.2, settle_singleton hread, if_pos hva.1]
    next hva =>
      split
      next hap => rw [settle_singleton hread, if_neg fun hv => hva ⟨hv, hap⟩, Remotes]
      · rfl
  · have hsame : (s.received p pkt).Remotes a = s.Remotes a := by
      funext r
      rw [Remotes, received_roomManager ht, Remotes]
    rw [hsame]
    split
    · exact (announce_of_none (readAs_of_ne ht)).symm
    · rfl

/-- What peers say about remote servers does not change the local members. -/
theorem getLocalMembers_received (r : Bytes) :
    (s.received p pkt).roomManager.getLocalMembers r = s.roomManager.getLocalMembers r := by
  by_cases ht : pkt.type = .s2sRoomMemberSync
  · rw [ChatServer.received, ht]
    show (s.roomManager.synced pkt.payload).getLocalMembers r = _
    rw [ChatRoomManager.synced]
    split
    next =>
      split
      · rfl
      · split
        · exact ChatRoomManager.getLocalMembers_joinRoomRemote ..
        · exact ChatRoomManager.getLocalMembers_leaveRoomRemote ..
    next => rfl
  · rw [received_roomManager ht]

theorem sameSessions_received : s.connManager.SameSessions (s.received p pkt).connManager := by
  rw [received_connManager]
  exact ConnectionManager.sameSessions_updateHeartbeat ..

end

/-! ## What an action means to the tables -/

/-- What an action does to the tables of server `x`, with what it tells peers. -/
inductive Change (R : Bytes → Prop) (c : Cluster) (act : Action) (x : Int) :
    ChatServer → List Int → RawPacket → Prop where
  /-- Nothing, and no frame of a link is read. -/
  | same {s' : ChatServer} {ps : List Int} {out : RawPacket}
      (htables : SameTables (c.server x) s')
      (hmute : ps ≠ [] → out.type ≠ .s2sReplicateUser ∧ out.type ≠ .s2sRoomMemberSync)
      (hact : ∀ {p k}, (c.server x).connManager.linkSocket p = some k → act ≠ .deliver x k) :
      Change R c act x s' ps out
  /-- A client's packet is handled. -/
  | client {k : ConnRef} {pkt out : RawPacket} {s' : ChatServer} {ps : List Int}
      (hact : act = .client x (.packet k pkt)) (hk : (c.server x).connManager.Live k)
      (hs : ClientStep (c.server x) k pkt s' ps out) : Change R c act x s' ps out
  /-- The session of a user ends. -/
  | ended {k : ConnRef} (hact : ∀ j, act ≠ .deliver x j) (hk : (c.server x).connManager.Live k)
      (hn : (c.server x).nameOf k ≠ []) :
      Change R c act x (((c.server x).loggedOut k).removed k)
        (c.server x).connManager.getAllPeerNodes ⟨.s2sReplicateUser,
          replicationPayload ((c.server x).nameOf k) (c.server x).serverId false⟩
  /-- A packet of peer `p` is read on its link. -/
  | received {p : Int} {k : ConnRef} {pkt : RawPacket} (hact : act = .deliver x k)
      (hp : p ∈ (c.server x).connManager.peerNodes)
      (hl : (c.server x).connManager.linkSocket p = some k) (hread : c.readBy act x k = [pkt])
      (hpkt : Honest R p pkt)
      (hclean : c.Clean act → ∀ u ∈ (readUser pkt).map Prod.fst,
        (c.server x).userManager.location? u = none ∨ (c.server x).Locates p u) :
      Change R c act x ((c.server x).received p pkt) (answered p pkt)
        ⟨.s2sHeartbeatAck, toString (c.server x).serverId⟩
  /-- The link of peer `p` is lost. -/
  | purged {p : Int} (hact : ∀ j, act ≠ .deliver x j)
      (hp : p ∈ (c.server x).connManager.peerNodes) (out : RawPacket) :
      Change R c act x ((c.server x).purgePeer p) [] out

section

variable {c c' : Cluster} {act : Action} {x : Int} {ps : List Int} {out : RawPacket}
  {R : Bytes → Prop} {s' : ChatServer} {a b : Int} {k k' : ConnRef}

/-- With true links every action makes one of the changes. -/
theorem Turn.change (hc : c.Traffic R) (hlinks : c.LinksTrue) (ht : Turn c act x s' ps out) :
    Change R c act x s' ps out := by
  have hx := ht.mem hc.toSound
  have hok := (hc.sane x hx).ok
  -- the end of a link is a server's
  have hlink : ∀ {p k}, p ∈ (c.server x).connManager.peerNodes →
      (c.server x).connManager.linkSocket p = some k → ∃ j, c.far x k = some (p, j) :=
    fun hp hl => hlinks hx hp hl
  cases ht with
  | connect ha hf =>
      exact .same (sameTables_accepted hok hf) (fun hps => absurd rfl hps)
        fun _ he => Action.noConfusion he
  | packet ha hfar hr =>
      cases hr with
      | session hk hs => exact .client rfl hk hs
      | peer hp hl =>
          obtain ⟨j, hj⟩ := hlink hp hl
          rw [hfar] at hj
          cases hj
  | disconnect ha hfar hf =>
      cases hf with
      | newSession hk hn =>
          exact .same (sameTables_removed hok hk hn) (fun hps => absurd rfl hps)
            fun _ he => Action.noConfusion he
      | session hk hn => exact .ended (fun _ he => Action.noConfusion he) hk hn
      | peer hp hl =>
          obtain ⟨j, hj⟩ := hlink hp hl
          rw [hfar] at hj
          cases hj
  | heartbeat =>
      refine .same ⟨rfl, rfl, rfl, fun _ => rfl, fun _ _ => Iff.rfl⟩ (fun _ => ?_)
        fun _ he => Action.noConfusion he
      exact ⟨PacketType.noConfusion, PacketType.noConfusion⟩
  | @deliver b a i j cause pkt out rest s' ps hfar hin hr =>
      have hpkt : Honest R a pkt := hc.honest (f := (cause, pkt)) hfar (hin ▸ List.mem_cons_self ..)
      -- a session is no link
      have hdead : ∀ {p k}, (c.server x).connManager.linkSocket p = some k →
          (c.server x).connManager.Live i → Action.deliver x i ≠ .deliver x k := by
        intro p k hl hi he
        rw [hok.linkSocket_eq] at hl
        cases he
        exact hok.link_dead hl hi
      cases Reads.frame hc hfar hpkt hr with
      | ignored hk => exact .same (.refl _) (fun hps => absurd rfl hps) fun hl => hdead hl hk
      | handshake hk ht hself hp =>
          have hanon : ¬ (c.server x).Authenticated i :=
            hc.anonymous (by rw [hfar]; exact Option.some_ne_none _)
          have hn := (hok.username_eq_nil_iff i).mpr (Bool.eq_false_iff.mpr hanon)
          exact .same (sameTables_promoted hok hk hn) (fun hps => absurd rfl hps)
            fun hl => hdead hl hk
      | @peer p hp hl =>
          obtain ⟨j', hj'⟩ := hlink hp hl
          rw [hfar] at hj'
          cases hj'
          refine .received rfl hp hl ?_ hpkt fun hclean => ?_
          · rw [readBy, if_pos rfl, packets, hin]
            rfl
          · simp only [Clean, hfar, hin] at hclean
            exact hclean
  | dial ha hb hne =>
      refine .same (sameTables_dialed hok) (fun _ => ?_) ?_
      · exact ⟨PacketType.noConfusion, PacketType.noConfusion⟩
      · exact fun _ he => Action.noConfusion he
  | accept ha hb hne hcon hf =>
      exact .same (sameTables_accepted hok hf) (fun hps => absurd rfl hps)
        fun _ he => Action.noConfusion he
  | hang hfar hf =>
      cases hf with
      | newSession hk hn =>
          exact .same (sameTables_removed hok hk hn) (fun hps => absurd rfl hps)
            fun _ he => Action.noConfusion he
      | session hk hn => exact .ended (fun _ he => Action.noConfusion he) hk hn
      | peer hp hl =>
          refine .purged ?_ hp out
          exact fun _ he => Action.noConfusion he

/-! ### The writer's side -/

theorem Change.online (h : Change R c act x s' ps out) (hok : (c.server x).connManager.Ok)
    (hnames : (c.server x).Names) (hf : c.FirstLogins act) (hn : c.Harmless act)
    (hb : b ∈ (c.server x).connManager.peerNodes) :
    s'.Online = settle readUser (if b ∈ ps then [out] else []) (c.server x).Online := by
  cases h with
  | same htables hmute =>
      rw [settle_ite_of_none fun hb => readAs_of_ne (hmute (List.ne_nil_of_mem hb)).1]
      exact htables.online
  | client hact hk hs =>
      subst hact
      exact hs.online hok hk hb hf hn
  | ended hact hk hnew => exact online_ended hok hk hnew hnames hb
  | received =>
      rw [settle_ite_of_none fun _ => rfl]
      exact online_congr fun _ _ => holds_of_sameSessions sameSessions_received
  | purged =>
      exact online_congr fun _ _ => holds_of_sameSessions (ConnectionManager.sameSessions_unlinked ..)

theorem Change.occupied (h : Change R c act x s' ps out) (hr : NamesRoom NulFree act)
    (hb : b ∈ (c.server x).connManager.peerNodes) :
    s'.Occupied = settle readRoom (if b ∈ ps then [out] else []) (c.server x).Occupied := by
  cases h with
  | same htables hmute =>
      rw [settle_ite_of_none fun hb => readAs_of_ne (hmute (List.ne_nil_of_mem hb)).2]
      exact htables.occupied
  | client hact hk hs =>
      subst hact
      exact hs.occupied hb hr
  | ended =>
      rw [settle_ite_of_none fun _ => rfl]
      rfl
  | received =>
      rw [settle_ite_of_none fun _ => rfl]
      funext r
      rw [Occupied, getLocalMembers_received, Occupied]
  | purged =>
      funext r
      exact congrArg (· ≠ []) (ChatRoomManager.getLocalMembers_clearServerMemberships ..)

/-! ### The reader's side -/

theorem readBy_of_ne (h : act ≠ .deliver b k) : c.readBy act b k = [] := if_neg h

/-- A link that is there after the loss of a peer's link is another peer's. -/
theorem ne_of_purged {s : ChatServer} {p : Int} (hp : p ∈ s.connManager.peerNodes)
    (hl : (s.purgePeer p).connManager.linkSocket a = some k) : a ≠ p := by
  rintro rfl
  have hnodes := ConnectionManager.nodes_unlinked s.connManager hp s.now a
  rw [if_pos rfl] at hnodes
  have hdown : ((s.purgePeer a).connManager.nodes a).isConnected = false := by
    show ((s.connManager.unlinked a s.now).nodes a).isConnected = false
    rw [hnodes]
    rfl
  rw [ConnectionManager.linkSocket, hdown] at hl
  cases hl

theorem Change.locates (h : Change R c act x s' ps out) (hs : c.Sound) (hx : x ∈ c.ids)
    (hint : ∀ a ∈ c.ids, IsInt a) (hres : (c.server x).Resident) (hclean : c.Clean act)
    (ha : a ≠ x) (hl : (c.server x).connManager.linkSocket a = some k)
    (hl' : s'.connManager.linkSocket a = some k) :
    s'.Locates a = settle readUser (c.readBy act x k) ((c.server x).Locates a) := by
  have hok := (hs.sane x hx).ok
  have hself : a ≠ (c.server x).serverId := by
    rw [hs.serverId x hx]
    exact ha
  cases h with
  | same htables hmute hact =>
      rw [readBy_of_ne (hact hl)]
      exact htables.locates a
  | client hact hk hstep =>
      have hne : act ≠ .deliver x k := by
        rw [hact]
        exact fun he => nomatch he
      rw [readBy_of_ne hne]
      exact hstep.locates hself
  | ended hact hk hnew =>
      rw [readBy_of_ne (hact k)]
      exact locates_ended hok hk hnew hres hself
  | @received p i pkt hact hp hlp hread hpkt hclean' =>
      have hpint := hint p ((hs.peers x hx p).mp hp).1
      rw [locates_received hpkt hpint a (hclean' hclean)]
      split
      next hap =>
        subst hap
        rw [hl] at hlp
        cases hlp
        rw [hread]
      next hap =>
        rw [readBy_of_ne]
        · rfl
        · subst hact
          intro he
          cases he
          rw [hok.linkSocket_eq] at hl hlp
          exact hap (hok.link_inj hl hlp)
  | @purged p hact hp =>
      rw [readBy_of_ne (hact k)]
      funext u
      refine propext (UserManager.location?_clearServerUsers_eq_some.trans ?_)
      exact and_iff_left (ne_of_purged hp hl')

theorem Change.remotes (h : Change NulFree c act x s' ps out) (hs : c.Sound) (hx : x ∈ c.ids)
    (hint : ∀ a ∈ c.ids, IsInt a) (hl : (c.server x).connManager.linkSocket a = some k)
    (hl' : s'.connManager.linkSocket a = some k) :
    s'.Remotes a = settle readRoom (c.readBy act x k) ((c.server x).Remotes a) := by
  have hok := (hs.sane x hx).ok
  cases h with
  | same htables hmute hact =>
      rw [readBy_of_ne (hact hl)]
      exact htables.remotes a
  | client hact hk hstep =>
      have hne : act ≠ .deliver x k := by
        rw [hact]
        exact fun he => nomatch he
      rw [readBy_of_ne hne]
      exact hstep.remotes a
  | ended hact hk hnew =>
      rw [readBy_of_ne (hact k)]
      rfl
  | @received p i pkt hact hp hlp hread hpkt hclean' =>
      have hpint := hint p ((hs.peers x hx p).mp hp).1
      rw [remotes_received hpkt hpint a]
      split
      next hap =>
        subst hap
        rw [hl] at hlp
        cases hlp
        rw [hread]
      next hap =>
        rw [readBy_of_ne]
        · rfl
        · subst hact
          intro he
          cases he
          rw [hok.linkSocket_eq] at hl hlp
          exact hap (hok.link_inj hl hlp)
  | @purged p hact hp =>
      rw [readBy_of_ne (hact k)]
      funext r
      refine propext ((ChatRoomManager.mem_getRemoteServers_clearServerMemberships ..).trans ?_)
      exact and_iff_right (ne_of_purged hp hl')

/-! ### The names -/

theorem Change.names (h : Change R c act x s' ps out) (hs : c.Sound) (hx : x ∈ c.ids)
    (hint : ∀ a ∈ c.ids, IsInt a) (hnames : (c.server x).Names) (hf : c.FirstLogins act)
    (hn : c.Harmless act) (hclean : c.Clean act) : s'.Names := by
  have hok := (hs.sane x hx).ok
  -- no peer is the server itself
  have hself : ∀ {p}, p ∈ (c.server x).connManager.peerNodes → (c.server x).serverId ≠ p := by
    intro p hp
    rw [hs.serverId x hx]
    exact ((hs.peers x hx p).mp hp).2.symm
  cases h with
  | same htables => exact htables.toNames hnames
  | client hact hk hstep =>
      subst hact
      exact hstep.names hnames hok hk hf hn
  | @ended k hact hk hnew =>
      exact hnames.ended (t := (c.server x).loggedOut k) hok hk hnew
        (ConnectionManager.SameSessions.refl _) hok fun _ => Iff.rfl
  | @received p i pkt hact hp hl hread hpkt hclean' =>
      have hpint := hint p ((hs.peers x hx p).mp hp).1
      have hloc := locates_received hpkt hpint (c.server x).serverId (hclean' hclean)
      rw [if_neg (hself hp)] at hloc
      have hid : ((c.server x).received p pkt).serverId = (c.server x).serverId :=
        (keeps_received ..).serverId
      refine hnames.congr (fun _ _ => holds_of_sameSessions sameSessions_received)
        sameSessions_received.byUsername fun v => ?_
      rw [hid]
      exact iff_of_eq (congrFun hloc v)
  | @purged p hact hp =>
      have hsame := ConnectionManager.sameSessions_unlinked (c.server x).connManager p
        (c.server x).now
      refine hnames.congr (fun _ _ => holds_of_sameSessions hsame) hsame.byUsername fun v => ?_
      refine UserManager.location?_clearServerUsers_eq_some.trans ?_
      exact and_iff_left (hself hp)

/-! ## Mirrors -/

/-- Every server changes in one of the ways, and only one of them sends. -/
theorem Move.change (hm : Move c act c' x ps out) (hc : c.Traffic R) (hlinks : c.LinksTrue)
    (y : Int) : ∃ ps' o, Change R c act y (c'.server y) ps' o ∧
      ∀ b, (if x = y ∧ b ∈ ps then [out] else []) = if b ∈ ps' then [o] else [] := by
  by_cases hxy : x = y
  · subst hxy
    exact ⟨ps, out, hm.turn.change hc hlinks, fun b => by simp⟩
  · have hnone : ∀ b o, (if x = y ∧ b ∈ ps then [out] else []) =
        if b ∈ ([] : List Int) then [o] else [] := by
      intro b o
      rw [if_neg fun he => hxy he.1, if_neg List.not_mem_nil]
    rcases hm.others y (Ne.symm hxy) with he | ⟨o, ht⟩
    · refine ⟨[], out, he ▸ .same (.refl _) (fun hps => absurd rfl hps) ?_, fun b => hnone b out⟩
      rintro p k - rfl
      exact hxy (hm.delivery hc).1
    · exact ⟨[], o, ht.change hc hlinks, fun b => hnone b o⟩

/-- A link that stays did not fail. -/
theorem Move.ne_hang (hm : Move c act c' x ps out) (hs : c.Sound)
    (hl : (c.server b).connManager.linkSocket a = some k')
    (hl' : (c'.server b).connManager.linkSocket a = some k') : act ≠ .hang b k' := by
  rintro rfl
  have hb := hm.turn.mem hs
  have ht := hm.turn
  generalize hsv : c'.server x = s' at ht
  cases ht with
  | hang hfar hf =>
      have hok := (hs.sane x hb).ok
      rw [hok.linkSocket_eq] at hl
      cases hf with
      | newSession hk => exact hok.link_dead hl hk
      | session hk => exact hok.link_dead hl hk
      | @peer p hp hlp =>
          rw [hsv] at hl'
          rw [hok.linkSocket_eq] at hlp
          exact ne_of_purged hp hl' (hok.link_inj hl hlp)

/-- The users server `b` locates at `a` mirror those online at `a`. -/
def UsersMirrored (c : Cluster) (a b : Int) (k' : ConnRef) : Prop :=
  settle readUser (c.packets b k') ((c.server b).Locates a) = (c.server a).Online

/-- The rooms server `b` lists `a` for mirror the occupied rooms of `a`. -/
def RoomsMirrored (c : Cluster) (a b : Int) (k' : ConnRef) : Prop :=
  settle readRoom (c.packets b k') ((c.server b).Remotes a) = (c.server a).Occupied

theorem Move.flow_of_link (hm : Move c act c' x ps out) (hs : c.Sound)
    (hfar : c.far a k = some (b, k'))
    (hl : (c'.server a).connManager.linkSocket b = some k)
    (hr : (c.server b).connManager.linkSocket a = some k')
    (hr' : (c'.server b).connManager.linkSocket a = some k') :
    c.packets b k' ++ (if x = a ∧ b ∈ ps then [out] else []) =
      c.readBy act b k' ++ c'.packets b k' := by
  refine hm.flow hs hfar hl ?_ (hm.ne_hang hs hr hr')
  have hb := hs.far_ids' hfar
  have hpeer := ((hm.sound hs).peers b (hm.ids ▸ hb) a).mpr
    ⟨hm.ids ▸ (hs.far_ids hfar).1, (hs.far_ids hfar).2.1⟩
  exact reads_eq_true.mpr (Or.inr ⟨a, hpeer, hr'⟩)

/-- A move between two states in which the servers are linked keeps the mirror of
the users. -/
theorem Move.usersMirrored (hm : Move c act c' x ps out) (hc : c.Traffic R) (hlinks : c.LinksTrue)
    (hnames : ∀ a ∈ c.ids, (c.server a).Names) (hf : c.FirstLogins act) (hn : c.Harmless act)
    (hclean : c.Clean act) (hfar : c.far a k = some (b, k'))
    (hl : (c'.server a).connManager.linkSocket b = some k)
    (hr : (c.server b).connManager.linkSocket a = some k')
    (hr' : (c'.server b).connManager.linkSocket a = some k') (h : c.UsersMirrored a b k') :
    c'.UsersMirrored a b k' := by
  obtain ⟨ha, hne, -⟩ := hc.far_ids hfar
  have hb := hc.far_ids' hfar
  obtain ⟨psa, oa, hchange, hsent⟩ := hm.change hc hlinks a
  obtain ⟨psb, ob, hchange', -⟩ := hm.change hc hlinks b
  have hflow := hm.flow_of_link hc.toSound hfar hl hr hr'
  rw [hsent b] at hflow
  refine settle_step hflow ?_ ?_ h
  · exact hchange.online (hc.sane a ha).ok (hnames a ha) hf hn ((hc.peers a ha b).mpr ⟨hb, hne.symm⟩)
  · exact hchange'.locates hc.toSound hb hc.isInt (hnames b hb).resident hclean hne hr hr'

/-- A move between two states in which the servers are linked keeps the mirror of
the rooms. -/
theorem Move.roomsMirrored (hm : Move c act c' x ps out) (hc : c.Traffic NulFree)
    (hlinks : c.LinksTrue) (hroom : NamesRoom NulFree act) (hfar : c.far a k = some (b, k'))
    (hl : (c'.server a).connManager.linkSocket b = some k)
    (hr : (c.server b).connManager.linkSocket a = some k')
    (hr' : (c'.server b).connManager.linkSocket a = some k') (h : c.RoomsMirrored a b k') :
    c'.RoomsMirrored a b k' := by
  obtain ⟨ha, hne, -⟩ := hc.far_ids hfar
  have hb := hc.far_ids' hfar
  obtain ⟨psa, oa, hchange, hsent⟩ := hm.change hc hlinks a
  obtain ⟨psb, ob, hchange', -⟩ := hm.change hc hlinks b
  have hflow := hm.flow_of_link hc.toSound hfar hl hr hr'
  rw [hsent b] at hflow
  refine settle_step hflow ?_ ?_ h
  · exact hchange.occupied hroom ((hc.peers a ha b).mpr ⟨hb, hne.symm⟩)
  · exact hchange'.remotes hc.toSound hb hc.isInt hr hr'

end

end Cluster

end DistributedChat
