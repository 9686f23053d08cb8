import DistributedChat.Cluster.Homes

/-!
# Users and rooms as topics

Users and rooms are replicated in one pattern, a `Topic`: a server has its own
set and keeps copies of the sets of its peers, and a packet says how a set
changes.  `Topic.Obeyed` is what an action does to the set and the copies of a
server.  Every action does so to the rooms (`Change.rooms`), and to the users as
long as they are at their homes (`Change.users`).
-/

namespace DistributedChat

open ChatServer Mirror

/-- A set that servers replicate: what a packet says of it, a server's own set, and the
copies it keeps of the sets of its peers. -/
structure Topic where
  read : RawPacket → Option (Bytes × Bool)
  own : ChatServer → Bytes → Prop
  copy : ChatServer → Int → Bytes → Prop
  /-- The loss of a peer's link empties the copy of its set. -/
  not_copy_purgePeer : ∀ (s : ChatServer) (a : Int) (u : Bytes), ¬ copy (s.purgePeer a) a u

namespace Topic

theorem not_locates_purgePeer (s : ChatServer) (a : Int) (u : Bytes) :
    ¬ (s.purgePeer a).Locates a u :=
  fun hu => (UserManager.location?_clearServerUsers_eq_some.mp hu).2 rfl

theorem not_remotes_purgePeer (s : ChatServer) (a : Int) (r : Bytes) :
    ¬ (s.purgePeer a).Remotes a r :=
  fun hr => ((ChatRoomManager.mem_getRemoteServers_clearServerMemberships ..).mp hr).1 rfl

/-- The users a server locates at itself. -/
def users : Topic where
  read := readUser
  own := fun s => s.Locates s.serverId
  copy := Locates
  not_copy_purgePeer := not_locates_purgePeer

/-- The rooms of which a server has members. -/
def rooms : Topic where
  read := readRoom
  own := Occupied
  copy := Remotes
  not_copy_purgePeer := not_remotes_purgePeer

/-- What an action does to the sets of server `x`, which becomes `s'` and sends `out` to `ps`. -/
structure Obeyed (t : Topic) (c : Cluster) (act : Action) (x : Int) (s' : ChatServer)
    (ps : List Int) (out : RawPacket) : Prop where
  own : ∀ b ∈ (c.server x).connManager.peerNodes,
    t.own s' = settle t.read (if b ∈ ps then [out] else []) (t.own (c.server x))
  /-- Only what is new is announced as coming in. -/
  new : ps ≠ [] → ∀ u, t.read out = some (u, true) → ¬ t.own (c.server x) u
  copy : ∀ {a k}, a ≠ x → (c.server x).connManager.linkSocket a = some k →
    s'.connManager.linkSocket a = some k →
      t.copy s' a = settle t.read (c.readBy act x k) (t.copy (c.server x) a)
  /-- Nothing is learnt of a peer without link. -/
  unlinked : ∀ {a}, a ≠ x → (c.server x).connManager.linkSocket a = none →
    ∀ u, t.copy s' a u → t.copy (c.server x) a u

/-- Every server changes as the topic says, and one of them sends. -/
def Kept (t : Topic) (c : Cluster) (act : Action) (c' : Cluster) (x : Int) (ps : List Int)
    (out : RawPacket) : Prop :=
  ∀ y ∈ c.ids, ∃ ps' o, t.Obeyed c act y (c'.server y) ps' o ∧
    ∀ b, (if x = y ∧ b ∈ ps then [out] else []) = if b ∈ ps' then [o] else []

end Topic

namespace ChatServer

section

variable {s s' : ChatServer} {k : ConnRef} {pkt out : RawPacket} {ps : List Int} {b : Int}

/-- What a client's packet does to the users located here is what the peers are told. -/
theorem ClientStep.locates_self (hs : ClientStep s k pkt s' ps out)
    (hb : b ∈ s.connManager.peerNodes) :
    s'.Locates s.serverId = settle readUser (if b ∈ ps then [out] else [])
      (s.Locates s.serverId) := by
  cases hs with
  | login u ht hacc =>
      have hfree : NulFree u := fun hnul => hacc.2.1 (Or.inr (Or.inl hnul))
      rw [if_pos (show b ∈ s.connManager.getAllPeerNodes from hb)]
      funext v
      refine propext (Iff.trans ?_
        (settle_singleton (readAs_replicationPayload hfree _ _ _) v).symm)
      simp only [Locates, loggedIn, onConn_userManager, onUsers_userManager,
        UserManager.location?_registerUser]
      split
      · exact iff_of_true rfl trivial
      · exact Iff.rfl
  | promote p =>
      rw [promoted]
      split <;> rfl
  | firstJoin | lastLeave =>
      rw [settle_ite_of_none fun _ => rfl]
      rfl
  | join | leave | idle => rfl
  | routePrivate | routeRoom | broadcast => rw [settle_ite_of_none fun _ => rfl]

/-- A client's login is announced under a name that was located nowhere. -/
theorem ClientStep.not_locates (hs : ClientStep s k pkt s' ps out) (hps : ps ≠ []) {u : Bytes}
    (hread : readUser out = some (u, true)) (a : Int) : ¬ s.Locates a u := by
  cases hs with
  | login v ht hacc =>
      have hfree : NulFree v := fun hnul => hacc.2.1 (Or.inr (Or.inl hnul))
      have hnone := isUserOnline_eq_false.mp hacc.2.2
      rw [readUser, readAs_replicationPayload hfree] at hread
      cases hread
      rw [Locates, hnone]
      exact (Option.some_ne_none a).symm
  | join | leave | idle | promote => exact absurd rfl hps
  | firstJoin | lastLeave | routePrivate | routeRoom | broadcast => cases hread

/-- A room is announced as occupied when it was not. -/
theorem ClientStep.not_occupied (hs : ClientStep s k pkt s' ps out) (hps : ps ≠ []) {r : Bytes}
    (hr : pkt.type = .roomJoin ∨ pkt.type = .roomLeave → NulFree (trim pkt.payload))
    (hread : readRoom out = some (r, true)) : ¬ s.Occupied r := by
  cases hs with
  | firstJoin v ht hv hne ha hm =>
      rw [readRoom, readAs_replicationPayload (hv ▸ hr (Or.inl ht))] at hread
      cases hread
      exact fun hocc => hocc hm
  | lastLeave v ht hv =>
      rw [readRoom, readAs_replicationPayload (hv ▸ hr (Or.inr ht))] at hread
      cases hread
  | join | leave | idle | promote => exact absurd rfl hps
  | login | routePrivate | routeRoom | broadcast => cases hread

end

end ChatServer

namespace Cluster

section

variable {c c' : Cluster} {act : Action} {x : Int} {ps : List Int} {out : RawPacket}
  {R : Bytes → Prop} {s' : ChatServer} {home : Bytes → Int}

/-- With users at their homes, every action does to the users what it announces and hears. -/
theorem Change.users (h : Change R c act x s' ps out) (hs : c.Sound) (hx : x ∈ c.ids)
    (hint : ∀ a ∈ c.ids, IsInt a) (hhome : c.Homed home) :
    Topic.users.Obeyed c act x s' ps out := by
  have hok := (hs.sane x hx).ok
  have hserver := hhome.server x hx
  have hclean := hhome.clean hs act
  have hnot : ∀ {a}, a ≠ x → a ≠ (c.server x).serverId := by
    intro a ha
    rw [hs.serverId x hx]
    exact ha
  have hpeer : ∀ {p}, p ∈ (c.server x).connManager.peerNodes → (c.server x).serverId ≠ p := by
    intro p hp
    rw [hs.serverId x hx]
    exact ((hs.peers x hx p).mp hp).2.symm
  refine ⟨fun b hb => ?_, fun hps u hread => ?_, fun ha hl hl' => ?_, fun {a} ha hl u hu => ?_⟩
  · show s'.Locates s'.serverId = settle readUser _ ((c.server x).Locates (c.server x).serverId)
    cases h with
    | same htables hmute =>
        rw [settle_ite_of_none fun hb => readAs_of_ne (hmute (List.ne_nil_of_mem hb)).1,
          htables.serverId]
        exact htables.locates _
    | client hact hk hstep =>
        rw [hstep.same.1]
        exact hstep.locates_self hb
    | @ended k hact hk hnew =>
        have hfree : NulFree ((c.server x).nameOf k) := hok.nulFree_username k
        rw [if_pos (show b ∈ (c.server x).connManager.getAllPeerNodes from hb)]
        funext v
        refine propext (Iff.trans ?_
          (settle_singleton (readAs_replicationPayload hfree _ _ _) v).symm)
        simp only [Locates, removed, loggedOut, onConn_userManager, onUsers_userManager,
          onConn_serverId, onUsers_serverId, UserManager.location?_unregisterUser]
        split
        · exact iff_of_false (Option.some_ne_none _).symm Bool.false_ne_true
        · exact Iff.rfl
    | @received p k pkt hact hp hl hread hpkt hclean' =>
        have hpint := hint p ((hs.peers x hx p).mp hp).1
        have hid : ((c.server x).received p pkt).serverId = (c.server x).serverId :=
          (keeps_received ..).serverId
        rw [settle_ite_of_none fun _ => rfl, hid, locates_received hpkt hpint _ (hclean' hclean),
          if_neg (hpeer hp)]
    | @purged p hact hp =>
        rw [settle_ite_of_none fun hb => absurd hb List.not_mem_nil]
        funext v
        refine propext (UserManager.location?_clearServerUsers_eq_some.trans ?_)
        exact and_iff_left (hpeer hp)
  · cases h with
    | same htables hmute =>
        change readAs .s2sReplicateUser out = some (u, true) at hread
        rw [readAs_of_ne (hmute hps).1] at hread
        cases hread
    | client hact hk hstep => exact hstep.not_locates hps hread _
    | @ended k hact hk hnew =>
        have hfree : NulFree ((c.server x).nameOf k) := hok.nulFree_username k
        have hoff := (readAs_replicationPayload hfree .s2sReplicateUser (c.server x).serverId
          false).symm.trans hread
        cases hoff
    | received => cases hread
    | purged => exact absurd rfl hps
  · exact h.locates hs hx hint hserver.resident hclean ha hl hl'
  · cases h with
    | same htables => exact (htables.locates a ▸ hu : (c.server x).Locates a u)
    | client hact hk hstep => exact (hstep.locates (hnot ha) ▸ hu : (c.server x).Locates a u)
    | ended hact hk hnew =>
        exact (locates_ended hok hk hnew hserver.resident (hnot ha) ▸ hu :
          (c.server x).Locates a u)
    | @received p k pkt hact hp hlp hread hpkt hclean' =>
        have hpint := hint p ((hs.peers x hx p).mp hp).1
        have hne : a ≠ p := by
          rintro rfl
          rw [hl] at hlp
          cases hlp
        have hloc := locates_received hpkt hpint a (hclean' hclean)
        rw [if_neg hne] at hloc
        exact (hloc ▸ hu : (c.server x).Locates a u)
    | purged => exact (UserManager.location?_clearServerUsers_eq_some.mp hu).1

/-- Every action does to the rooms what it announces and hears. -/
theorem Change.rooms (h : Change NulFree c act x s' ps out) (hs : c.Sound) (hx : x ∈ c.ids)
    (hint : ∀ a ∈ c.ids, IsInt a) (hroom : NamesRoom NulFree act) :
    Topic.rooms.Obeyed c act x s' ps out := by
  refine ⟨fun b hb => h.occupied hroom hb, fun hps r hread => ?_, fun ha hl hl' => ?_,
    fun {a} ha hl r hr => ?_⟩
  · cases h with
    | same htables hmute =>
        change readAs .s2sRoomMemberSync out = some (r, true) at hread
        rw [readAs_of_ne (hmute hps).2] at hread
        cases hread
    | client hact hk hstep =>
        subst hact
        exact hstep.not_occupied hps hroom hread
    | ended => cases hread
    | received => cases hread
    | purged => exact absurd rfl hps
  · exact h.remotes hs hx hint hl hl'
  · cases h with
    | same htables => exact (htables.remotes a ▸ hr : (c.server x).Remotes a r)
    | client hact hk hstep => exact (hstep.remotes a ▸ hr : (c.server x).Remotes a r)
    | ended => exact hr
    | @received p k pkt hact hp hlp hread hpkt hclean' =>
        have hpint := hint p ((hs.peers x hx p).mp hp).1
        have hne : a ≠ p := by
          rintro rfl
          rw [hl] at hlp
          cases hlp
        have hrem := remotes_received (s := c.server x) hpkt hpint a
        rw [if_neg hne] at hrem
        exact (hrem ▸ hr : (c.server x).Remotes a r)
    | purged => exact ((ChatRoomManager.mem_getRemoteServers_clearServerMemberships ..).mp hr).2

theorem Move.kept_users (hm : Move c act c' x ps out) (hc : c.Traffic R) (hlinks : c.LinksTrue)
    (hhome : c.Homed home) : Topic.users.Kept c act c' x ps out := by
  intro y hy
  obtain ⟨ps', o, hchange, hsent⟩ := hm.change hc hlinks y
  exact ⟨ps', o, hchange.users hc.toSound hy hc.isInt hhome, hsent⟩

theorem Move.kept_rooms (hm : Move c act c' x ps out) (hc : c.Traffic NulFree)
    (hlinks : c.LinksTrue) (hroom : NamesRoom NulFree act) :
    Topic.rooms.Kept c act c' x ps out := by
  intro y hy
  obtain ⟨ps', o, hchange, hsent⟩ := hm.change hc hlinks y
  exact ⟨ps', o, hchange.rooms hc.toSound hy hc.isInt hroom, hsent⟩

end

end Cluster

end DistributedChat
