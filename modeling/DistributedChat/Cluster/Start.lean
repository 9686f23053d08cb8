import DistributedChat.Cluster.Mesh

/-!
# How a cluster starts

`start ids` is the cluster whose servers have just started.  Connectors dial,
handshakes are read and clients connect, until every two servers are linked and
nothing is on its way.  Nobody has logged in by then, so all tables are empty
(`Ready`).  The results about links that never fail are about runs from there.
-/

namespace DistributedChat

open ChatServer

namespace ChatServer

/-- Nobody has logged in, and the server has heard of nobody. -/
structure Blank (s : ChatServer) : Prop where
  noUser : ∀ u, s.userManager.location? u = none
  noName : ∀ u, s.connManager.getSessionByUsername u = none
  noMember : ∀ r, s.roomManager.getLocalMembers r = []
  noRemote : ∀ r, s.roomManager.getRemoteServers r = []
  noLogin : ∀ k, ¬ s.Authenticated k

section

variable {s : ChatServer} {k : ConnRef} {p : Int}

/-- A new socket changes no table. -/
theorem Blank.newSocket {s' : ChatServer} (h : s.Blank)
    (huser : s'.userManager = s.userManager) (hroom : s'.roomManager = s.roomManager)
    (hname : s'.connManager.sessionsByUsername = s.connManager.sessionsByUsername)
    (hauth : ∀ k, s'.Authenticated k → s.Authenticated k) : s'.Blank where
  noUser := huser ▸ h.noUser
  noName := fun u => by
    rw [ConnectionManager.getSessionByUsername, hname]
    exact h.noName u
  noMember := hroom ▸ h.noMember
  noRemote := hroom ▸ h.noRemote
  noLogin := fun k hk => h.noLogin k (hauth k hk)

theorem Blank.accepted (h : s.Blank) (handle : SOCKET) :
    (s.onConn (·.accepted handle)).Blank :=
  h.newSocket rfl rfl rfl fun _ hk => (authenticated_accepted.mp hk).2

theorem Blank.dialed (h : s.Blank) (handle : SOCKET) : (s.dialed p handle).Blank :=
  h.newSocket rfl rfl (ConnectionManager.sameSessions_linked ..).1.byUsername
    fun _ hk => (authenticated_dialed.mp hk).2

theorem Blank.promoted (h : s.Blank) (hok : s.connManager.Ok) (hk : s.connManager.Live k) :
    (s.promoted k p).Blank := by
  have hrem : (s.removed k).Blank := by
    refine ⟨h.noUser, fun u => ?_, h.noMember, h.noRemote, fun j hj => h.noLogin j ?_⟩
    · rw [removed, onConn_connManager, hok.getSessionByUsername_removeSession hk, h.noName]
      exact ite_self _
    · rw [Authenticated, removed, onConn_connManager, ConnectionManager.sessions_removeSession] at hj
      exact hj
  rw [ChatServer.promoted]
  split
  · have hsame := ConnectionManager.sameSessions_linked (s.removed k).connManager p k
      (s.removed k).now
    refine hrem.newSocket rfl rfl hsame.1.byUsername fun j hj => ?_
    change ((((s.removed k).connManager.linked p k (s.removed k).now)).sessions j).isAuthenticated =
      true at hj
    rw [hsame.1.objects] at hj
    exact hj
  · exact hrem

theorem Blank.received {pkt : RawPacket} (h : s.Blank) (hu : pkt.type ≠ .s2sReplicateUser)
    (hr : pkt.type ≠ .s2sRoomMemberSync) : (s.received p pkt).Blank := by
  have he : s.received p pkt = s.onConn (·.updateHeartbeat p s.now) := by
    rw [ChatServer.received]
    split
    next ht => exact absurd ht hu
    next ht => exact absurd ht hr
    · rfl
  rw [he]
  exact h.newSocket rfl rfl rfl fun _ hk => hk

/-- While nobody has logged in the tables of names agree with the sessions. -/
theorem Blank.names (h : s.Blank) : s.Names := by
  have hnot : ∀ k u, ¬ s.Holds k u := fun k u hk => h.noLogin k hk.2.1
  refine ⟨fun {u k} => ?_, fun {u} => ?_⟩
  · rw [h.noName]
    exact iff_of_false (Option.some_ne_none k).symm (hnot k u)
  · rw [h.noUser]
    exact iff_of_false (Option.some_ne_none _).symm fun ⟨k, hk⟩ => hnot k u hk

end

end ChatServer

namespace Cluster

/-! ## Servers that have just started -/

/-- A server that has just started, with the other ids as its peers. -/
def serverOf (ids : List Int) (a : Int) : ChatServer :=
  { serverId := a
    connManager := (ids.filter (· ≠ a)).foldl ConnectionManager.addPeerNode {} }

/-- Servers that have just started. -/
def start (ids : List Int) : Cluster := { ids := ids, server := serverOf ids }

theorem serverOf_connManager (ids : List Int) (a : Int) :
    (∀ b, b ∈ (serverOf ids a).connManager.peerNodes ↔ b ∈ ids ∧ b ≠ a) ∧
      (∀ p, (serverOf ids a).connManager.nodes p = {}) ∧
      (∀ k, (serverOf ids a).connManager.sessions k = {}) ∧
      (serverOf ids a).connManager.sessionsBySocket = ∅ ∧
      (serverOf ids a).connManager.sessionsByUsername = ∅ := by
  obtain ⟨hpeers, hnodes, hobj, hsock, hname, -⟩ := configured_connManager a (ids.filter (· ≠ a))
  refine ⟨fun b => (hpeers b).trans ?_, hnodes, hobj, hsock, hname⟩
  rw [List.mem_filter, decide_eq_true_iff]

theorem not_live_serverOf (ids : List Int) (a : Int) (k : ConnRef) :
    ¬ (serverOf ids a).connManager.Live k :=
  not_live_configured a _ k

theorem sane_serverOf (ids : List Int) (a : Int) : (serverOf ids a).Sane := by
  refine ⟨ok_configured a _, ?_⟩
  intro k hk
  rcases hk with hk | ⟨p, hp⟩
  · exact absurd hk (not_live_serverOf ids a k)
  · rw [(serverOf_connManager ids a).2.1] at hp
    cases hp

theorem traffic_start {ids : List Int} (hids : ∀ a ∈ ids, IsInt a) (R : Bytes → Prop) :
    (start ids).Traffic R where
  sane := fun a _ => sane_serverOf ids a
  serverId := fun _ _ => rfl
  peers := fun a _ => (serverOf_connManager ids a).1
  far_symm := fun hf => Option.noConfusion rfl (heq_of_eq hf)
  far_ids := fun hf => Option.noConfusion rfl (heq_of_eq hf)
  isInt := hids
  honest := fun hf => Option.noConfusion rfl (heq_of_eq hf)
  dry := fun _ => rfl
  tagged := fun hf => absurd hf List.not_mem_nil
  logged := fun _ he => absurd he List.not_mem_nil
  anonymous := fun hf => absurd rfl hf

theorem linksTrue_start (ids : List Int) : (start ids).LinksTrue := by
  intro a p k ha hp hk
  change (serverOf ids a).connManager.linkSocket p = some k at hk
  rw [(sane_serverOf ids a).ok.linkSocket_eq, (serverOf_connManager ids a).2.1] at hk
  cases hk

/-! ## Until the links are up -/

/-- Nobody has logged in, and no packet on its way says otherwise. -/
structure Blank (c : Cluster) : Prop where
  server : ∀ a ∈ c.ids, (c.server a).Blank
  silent : ∀ {b k f}, f ∈ c.inbox b k →
    f.2.type ≠ .s2sReplicateUser ∧ f.2.type ≠ .s2sRoomMemberSync

/-- What happens before the first packet of a client. -/
def Setup : Action → Prop
  | .client _ (.connect _) | .heartbeat _ _ | .deliver _ _ | .dial _ _ _ _ => True
  | _ => False

instance (act : Action) : Decidable (Setup act) :=
  match act with
  | .client _ (.connect _) | .heartbeat _ _ | .deliver _ _ | .dial _ _ _ _ => instDecidableTrue
  | .client _ (.packet _ _) | .client _ (.disconnect _) | .hang _ _ => instDecidableFalse

/-- The links are up and nobody has logged in. -/
structure Ready (R : Bytes → Prop) (c : Cluster) : Prop extends Steady R c, Blank c

section

variable {c c' : Cluster} {act : Action} {x : Int} {ps : List Int} {out : RawPacket}
  {R : Bytes → Prop}

theorem blank_start (ids : List Int) : (start ids).Blank where
  server := by
    intro a ha
    obtain ⟨-, -, hobj, -, hname⟩ := serverOf_connManager ids a
    refine ⟨fun _ => rfl, fun u => ?_, fun _ => rfl, fun _ => rfl, fun k hk => ?_⟩
    · change (serverOf ids a).connManager.sessionsByUsername.lookup u = none
      rw [hname]
      rfl
    · change ((serverOf ids a).connManager.sessions k).isAuthenticated = true at hk
      rw [hobj] at hk
      cases hk
  silent := fun hf => absurd hf List.not_mem_nil

theorem Turn.blank {s' : ChatServer} (hc : c.Traffic R) (hb : c.Blank) (hset : Setup act)
    (ht : Turn c act x s' ps out) : s'.Blank ∧ (ps ≠ [] →
      out.type ≠ .s2sReplicateUser ∧ out.type ≠ .s2sRoomMemberSync) := by
  have hx := ht.mem hc.toSound
  have hblank := hb.server x hx
  cases ht with
  | connect => exact ⟨hblank.accepted _, fun hps => absurd rfl hps⟩
  | packet => exact hset.elim
  | disconnect => exact hset.elim
  | heartbeat => exact ⟨hblank.newSocket rfl rfl rfl fun _ hk => hk, fun _ => by simp⟩
  | @deliver b a k j cause pkt out rest s' ps hfar hin hr =>
      have hmem : (cause, pkt) ∈ c.inbox x k := hin ▸ List.mem_cons_self ..
      cases Reads.frame hc hfar (hc.honest hfar hmem) hr with
      | ignored => exact ⟨hblank, fun hps => absurd rfl hps⟩
      | handshake hk ht hself hp =>
          exact ⟨hblank.promoted (hc.sane x hx).ok hk, fun hps => absurd rfl hps⟩
      | peer hp hl =>
          have hsilent := hb.silent hmem
          exact ⟨hblank.received hsilent.1 hsilent.2, fun _ => by simp⟩
  | dial => exact ⟨hblank.dialed _, fun _ => by simp⟩
  | accept => exact ⟨hblank.accepted _, fun hps => absurd rfl hps⟩
  | hang => exact hset.elim

theorem Move.blank (hm : Move c act c' x ps out) (hc : c.Traffic R) (hb : c.Blank)
    (hset : Setup act) : c'.Blank := by
  refine ⟨?_, ?_⟩
  · intro a ha
    rw [hm.ids] at ha
    cases hm.server a with
    | inl he => exact he ▸ hb.server a ha
    | inr ht => exact ht.elim fun _ ht => ht.elim fun _ ht => (ht.blank hc hb hset).1
  · intro b k f hf
    cases hm.mem_inbox hf with
    | inl hf => exact hb.silent hf
    | inr hf =>
        obtain ⟨hg, rfl⟩ := hf
        exact (hm.turn.blank hc hb hset).2 (hg.far (hm.sound hc.toSound)).1

theorem namesRoom_true (act : Action) : NamesRoom (fun _ => True) act := by
  rw [NamesRoom.eq_def]
  split
  · exact fun _ => trivial
  · trivial

/-- Every run keeps the traffic in order. -/
theorem traffic_of_exec {ids : List Int} {as : List Action} (hids : ∀ a ∈ ids, IsInt a)
    (hrun : exec step (start ids) as = some c) : c.Traffic fun _ => True := by
  refine exec_invariant (I := Traffic fun _ => True) ?_ (traffic_start hids _) hrun
  intro d act d' hi hstep
  obtain ⟨x, ps, out, hm⟩ := step_move hi.toSound hstep
  exact hm.traffic hi (namesRoom_true act)

theorem namesRoom_of_setup (hset : Setup act) : NamesRoom R act := by
  cases act with
  | client a ca =>
      cases ca with
      | connect => trivial
      | packet => exact hset.elim
      | disconnect => trivial
  | _ => trivial

/-- Connectors, handshakes and accepted connections make a cluster ready. -/
theorem ready_of_setup {ids : List Int} {as : List Action} (hids : ∀ a ∈ ids, IsInt a)
    (hset : ∀ act ∈ as, Setup act) (hrun : exec step (start ids) as = some c) (hm : c.Meshed)
    (hq : c.Quiet) : c.Ready R := by
  have hall : c.Traffic R ∧ c.Blank := by
    refine exec_induct (I := fun c => c.Traffic R ∧ c.Blank)
      (P := fun _ act => Setup act) ?_ ⟨traffic_start hids R, blank_start ids⟩
      (along_of_forall hset) hrun
    intro c act c' hi hact hstep
    obtain ⟨x, ps, out, hmove⟩ := step_move hi.1.toSound hstep
    exact ⟨hmove.traffic hi.1 (namesRoom_of_setup hact), hmove.blank hi.1 hi.2 hact⟩
  exact ⟨⟨hall.1, hm, fun _ => hq.inbox hall.1 ..⟩, hall.2⟩

/-- Server 1 dials server 2, which reads the handshake. -/
def handshake : List Action := [.dial 1 2 4 4, .deliver 2 0]

theorem ready_handshake : ∃ c, exec step (start [1, 2]) handshake = some c ∧ c.Ready R := by
  have hrun : (exec step (start [1, 2]) handshake).any fun c => c.Meshed ∧ c.Quiet := by
    decide +kernel
  obtain ⟨c, hc, h⟩ := (Option.any_eq_true ..).mp hrun
  obtain ⟨hm, hq⟩ := of_decide_eq_true h
  exact ⟨c, hc, ready_of_setup (by decide) (by decide) hc hm hq⟩

end

end Cluster

end DistributedChat
