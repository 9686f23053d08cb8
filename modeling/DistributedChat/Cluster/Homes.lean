import DistributedChat.Cluster.Replication

/-!
# Names that belong to one server

Suppose every user name has a home, the only server on which clients log in under
it.  Then whatever sessions, user tables and frames say of a user, they say of
his home (`Homed`).  So no replication meets an entry that locates its user
elsewhere (`Homed.clean`), and nobody who is logged in on a server is located
elsewhere by it (`Homed.resident`).
-/

namespace DistributedChat

open ChatServer Mirror

namespace ChatServer

/-- The users the server knows are at their homes. -/
structure Homed (home : Bytes → Int) (s : ChatServer) : Prop where
  holds : ∀ {k u}, s.Holds k u → home u = s.serverId
  located : ∀ {a u}, s.Locates a u → home u = a

section

variable {home : Bytes → Int} {s s' : ChatServer} {k : ConnRef} {pkt out : RawPacket}
  {ps : List Int}

theorem Homed.resident (h : s.Homed home) : s.Resident :=
  fun hk hl => (h.located hl).symm.trans (h.holds hk)

theorem SameTables.homed (hsame : SameTables s s') (h : s.Homed home) : s'.Homed home where
  holds := fun hk => (h.holds ((hsame.holds _ _).mp hk)).trans hsame.serverId.symm
  located := fun {a u} hl => h.located (hsame.locates a ▸ hl : s.Locates a u)

/-- Fewer sessions and entries. -/
theorem Homed.of_imp (h : s.Homed home) (hid : s'.serverId = s.serverId)
    (hholds : ∀ {k u}, s'.Holds k u → s.Holds k u)
    (hloc : ∀ {a u}, s'.Locates a u → s.Locates a u) : s'.Homed home where
  holds := fun hk => (h.holds (hholds hk)).trans hid.symm
  located := fun hl => h.located (hloc hl)

/-- Logins at home keep the users at home, and what peers are told is about such users. -/
theorem ClientStep.homed (hs : ClientStep s k pkt s' ps out) (h : s.Homed home)
    (hok : s.connManager.Ok) (hk : s.connManager.Live k)
    (hlogin : pkt.type = .login → home (trim pkt.payload) = s.serverId)
    (hn : s.Harmless (.packet k pkt)) :
    s'.Homed home ∧ ∀ {u online}, ps ≠ [] → readUser out = some (u, online) →
      home u = s.serverId := by
  cases hs with
  | login u ht hacc =>
      have hu : home u = s.serverId := hacc.1 ▸ hlogin ht
      have hfree : NulFree u := fun hnul => hacc.2.1 (Or.inr (Or.inl hnul))
      refine ⟨⟨?_, ?_⟩, ?_⟩
      · intro j v hj
        rcases (holds_loggedIn hk).mp hj with ⟨-, rfl⟩ | ⟨-, hj⟩
        · exact hu
        · exact h.holds hj
      · intro a v hv
        simp only [Locates, loggedIn, onConn_userManager, onUsers_userManager,
          UserManager.location?_registerUser] at hv
        split at hv
        next hvu =>
          subst hvu
          exact hu.trans (Option.some.inj hv)
        · exact h.located hv
      · intro v online _ hread
        rw [readUser, readAs_replicationPayload hfree] at hread
        cases hread
        exact hu
  | promote p ht hp =>
      obtain ⟨-, hanon⟩ := hn ht p hp
      have hsame := sameTables_promoted (p := p) hok hk ((hok.username_eq_nil_iff k).mpr hanon)
      exact ⟨hsame.homed h, fun hps => absurd rfl hps⟩
  | firstJoin =>
      refine ⟨h.of_imp rfl (fun hj => holds_joined.mp hj) id, fun _ hread => ?_⟩
      cases hread
  | lastLeave =>
      refine ⟨h.of_imp rfl (fun hj => holds_left.mp hj) id, fun _ hread => ?_⟩
      cases hread
  | join => exact ⟨h.of_imp rfl (fun hj => holds_joined.mp hj) id, fun hps => absurd rfl hps⟩
  | leave => exact ⟨h.of_imp rfl (fun hj => holds_left.mp hj) id, fun hps => absurd rfl hps⟩
  | idle => exact ⟨h, fun hps => absurd rfl hps⟩
  | routePrivate | routeRoom | broadcast =>
      refine ⟨h, fun _ hread => ?_⟩
      cases hread

/-- The end of a session that is logged in. -/
theorem Homed.ended (h : s.Homed home) (hok : s.connManager.Ok) (hk : s.connManager.Live k) :
    ((s.loggedOut k).removed k).Homed home := by
  refine h.of_imp rfl (fun hj => ((holds_removed (s := s.loggedOut k) hok hk).mp hj).1) ?_
  intro a u hu
  simp only [Locates, removed, loggedOut, onConn_userManager, onUsers_userManager,
    UserManager.location?_unregisterUser] at hu
  split at hu
  · cases hu
  · exact hu

theorem Homed.purged (h : s.Homed home) (p : Int) : (s.purgePeer p).Homed home :=
  h.of_imp rfl
    (fun hk => (holds_of_sameSessions (ConnectionManager.sameSessions_unlinked ..)).mp hk)
    fun hu => (UserManager.location?_clearServerUsers_eq_some.mp hu).1

end

end ChatServer

namespace Cluster

/-- Clients log in under a name on its home server only. -/
def LogsInAtHome (home : Bytes → Int) : Action → Prop
  | .client a (.packet _ pkt) => pkt.type = .login → home (trim pkt.payload) = a
  | _ => True

instance (home : Bytes → Int) (act : Action) : Decidable (LogsInAtHome home act) :=
  match act with
  | .client a (.packet _ pkt) =>
      inferInstanceAs (Decidable (pkt.type = .login → home (trim pkt.payload) = a))
  | .client _ (.connect _) | .client _ (.disconnect _) | .heartbeat _ _ | .deliver _ _ | .hang _ _
  | .dial _ _ _ _ => instDecidableTrue

/-- Servers and frames speak of users as of those of their homes. -/
structure Homed (home : Bytes → Int) (c : Cluster) : Prop where
  server : ∀ a ∈ c.ids, (c.server a).Homed home
  told : ∀ {b k a j f u online}, c.far b k = some (a, j) → f ∈ c.inbox b k →
    readUser f.2 = some (u, online) → home u = a

section

variable {c c' : Cluster} {act : Action} {x : Int} {ps : List Int} {out : RawPacket}
  {R : Bytes → Prop} {s' : ChatServer} {home : Bytes → Int}

/-- Whoever replicates a user is the only one who does. -/
theorem Homed.clean (h : c.Homed home) (hs : c.Sound) (act : Action) : c.Clean act := by
  cases act with
  | deliver b k =>
      cases hfar : c.far b k with
      | none => simp only [Clean, hfar]
      | some stop =>
          obtain ⟨a, j⟩ := stop
          cases hin : c.inbox b k with
          | nil => simp only [Clean, hfar, hin]
          | cons f rest =>
              obtain ⟨cause, pkt⟩ := f
              simp only [Clean, hfar, hin]
              intro u hu
              obtain ⟨⟨v, online⟩, hread, rfl⟩ := Option.mem_map.mp hu
              have hhome : home v = a := h.told hfar (hin ▸ List.mem_cons_self ..) hread
              cases hloc : (c.server b).userManager.location? v with
              | none => exact Or.inl rfl
              | some a' =>
                  have ha' : home v = a' := (h.server b (hs.far_ids hfar).1).located hloc
                  exact Or.inr (hloc.trans (congrArg some (ha'.symm.trans hhome)))
  | _ => trivial

/-- A peer that speaks of its own users only. -/
theorem homed_received {s : ChatServer} {p : Int} {pkt : RawPacket} (h : s.Homed home)
    (hpkt : Honest R p pkt) (hp : IsInt p)
    (htold : ∀ {u online}, readUser pkt = some (u, online) → home u = p) :
    (s.received p pkt).Homed home := by
  have hid : (s.received p pkt).serverId = s.serverId := (keeps_received ..).serverId
  refine ⟨fun hk => ?_, fun {a u} hu => ?_⟩
  · exact (h.holds ((holds_of_sameSessions sameSessions_received).mp hk)).trans hid.symm
  · by_cases ht : pkt.type = .s2sReplicateUser
    · obtain ⟨v, online, hv, rfl⟩ := eq_of_honest_replicateUser hpkt ht
      rw [Locates, location?_received hv hp] at hu
      split at hu
      next huv =>
        subst huv
        split at hu
        · exact (htold (readAs_replicationPayload hv _ _ _)).trans (Option.some.inj hu)
        · cases hu
      · exact h.located hu
    · rw [Locates, received_userManager ht] at hu
      exact h.located hu

theorem Change.homed (hch : Change R c act x s' ps out) (hc : c.Traffic R) (hlinks : c.LinksTrue)
    (hx : x ∈ c.ids) (h : c.Homed home) (hlogin : LogsInAtHome home act) (hn : c.Harmless act) :
    s'.Homed home ∧ ∀ {u online}, ps ≠ [] → readUser out = some (u, online) → home u = x := by
  have hok := (hc.sane x hx).ok
  have hself := hc.serverId x hx
  have hserver := h.server x hx
  cases hch with
  | same htables hmute =>
      refine ⟨htables.homed hserver, fun hps hread => ?_⟩
      rw [readUser, readAs_of_ne (hmute hps).1] at hread
      cases hread
  | client hact hk hs =>
      subst hact
      have hhomed := hs.homed hserver hok hk (fun ht => (hlogin ht).trans hself.symm) hn
      exact ⟨hhomed.1, fun hps hread => (hhomed.2 hps hread).trans hself⟩
  | @ended k hact hk hnew =>
      have hfree : NulFree ((c.server x).nameOf k) := hok.nulFree_username k
      refine ⟨hserver.ended hok hk, fun _ hread => ?_⟩
      rw [readUser, readAs_replicationPayload hfree] at hread
      cases hread
      exact (hserver.holds (holds_nameOf hok hk hnew)).trans hself
  | @received p k pkt hact hp hl hread hpkt =>
      obtain ⟨j, hj⟩ := hlinks hx hp hl
      have hpint := hc.isInt p (hc.far_ids' hj)
      have hmem : pkt ∈ c.packets x k := by
        rw [readBy, if_pos hact] at hread
        exact List.mem_of_mem_take (hread ▸ List.mem_singleton_self pkt)
      obtain ⟨f, hf, rfl⟩ := List.mem_map.mp hmem
      refine ⟨homed_received hserver hpkt hpint fun hu => h.told hj hf hu, fun _ hu => ?_⟩
      cases hu
  | purged => exact ⟨hserver.purged _, fun hps => absurd rfl hps⟩

/-- Logins at home keep everything at home. -/
theorem Move.homed (hm : Move c act c' x ps out) (hc : c.Traffic R) (hlinks : c.LinksTrue)
    (h : c.Homed home) (hlogin : LogsInAtHome home act) (hn : c.Harmless act) :
    c'.Homed home := by
  refine ⟨?_, ?_⟩
  · intro a ha
    rw [hm.ids] at ha
    obtain ⟨_, _, hchange, -⟩ := hm.change hc hlinks a
    exact (hchange.homed hc hlinks ha h hlogin hn).1
  · intro b k a j f u online hfar hf hread
    rcases hm.mem_inbox hf with hf | ⟨hg, rfl⟩
    · rcases hm.far_before hc.toSound hfar with hold | hold
      · rw [hc.dry hold] at hf
        exact absurd hf List.not_mem_nil
      · exact h.told hold hf hread
    · obtain ⟨hps, p, hp, i, hl, -, hback⟩ := hg.far (hm.sound hc.toSound)
      have he := hback.symm.trans hfar
      cases he
      have hx := hm.turn.mem hc.toSound
      exact ((hm.turn.change hc hlinks).homed hc hlinks hx h hlogin hn).2 hps hread

end

/-- Servers that have just started know of nobody. -/
theorem homed_start (ids : List Int) (home : Bytes → Int) : (start ids).Homed home where
  server := fun a ha => by
    have hblank := (blank_start ids).server a ha
    refine ⟨fun hk => absurd hk.2.1 (hblank.noLogin _), fun {b u} hl => ?_⟩
    rw [Locates, hblank.noUser] at hl
    cases hl
  told := fun _ hf => absurd hf List.not_mem_nil

end Cluster

end DistributedChat
