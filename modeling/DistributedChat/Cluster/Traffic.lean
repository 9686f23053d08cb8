import DistributedChat.Cluster.Moves

/-!
# What is on the way between servers

`Traffic` is the second invariant of every run, whatever clients send.  The
frames on their way from server `a` are ones `a` may send (`Honest`), they are
numbered in the order of the actions that set them off, and nobody has logged in
over a connection between servers.  So a frame read on an end that is still a
session can only be an `S2S_CONNECT` (`Reads.frame`).
-/

namespace DistributedChat

open ChatServer

/-- What server `a` may send to another one, the names of rooms being as `R` says. -/
def Honest (R : Bytes → Prop) (a : Int) (pkt : RawPacket) : Prop :=
  match pkt.type with
  | .s2sConnect => pkt.payload = toString a
  | .s2sReplicateUser => ∃ u online, NulFree u ∧ pkt.payload = replicationPayload u a online
  | .s2sRoomMemberSync => ∃ r active, R r ∧ pkt.payload = replicationPayload r a active
  | .s2sHeartbeat | .s2sHeartbeatAck | .s2sRouteMsg | .s2sRouteRoomMsg => True
  | _ => False

section

variable {R : Bytes → Prop} {a : Int} {pkt : RawPacket}

theorem Honest.not_login (h : Honest R a pkt) : pkt.type ≠ .login := by
  intro ht
  simp only [Honest, ht] at h

theorem Honest.not_room (h : Honest R a pkt) :
    ¬ (pkt.type = .roomJoin ∨ pkt.type = .roomLeave) := by
  intro ht
  cases ht with
  | inl ht => simp only [Honest, ht] at h
  | inr ht => simp only [Honest, ht] at h

end

/-- The action that set off the event. -/
def Event.cause : Event → Cause
  | .sent _ _ cause _ => cause
  | .received _ _ cause _ => cause

/-- The room a client's packet names is as `R` says. -/
def NamesRoom (R : Bytes → Prop) : Action → Prop
  | .client _ (.packet _ pkt) =>
      pkt.type = .roomJoin ∨ pkt.type = .roomLeave → R (trim pkt.payload)
  | _ => True

instance (R : Bytes → Prop) [DecidablePred R] (act : Action) : Decidable (NamesRoom R act) :=
  match act with
  | .client _ (.packet _ pkt) => inferInstanceAs
      (Decidable (pkt.type = .roomJoin ∨ pkt.type = .roomLeave → R (trim pkt.payload)))
  | .client _ (.connect _) | .client _ (.disconnect _) | .heartbeat _ _ | .deliver _ _ | .hang _ _
  | .dial _ _ _ _ => instDecidableTrue

namespace ChatServer

section

variable {s s' : ChatServer} {k j : ConnRef} {pkt out : RawPacket} {ps : List Int}
  {R : Bytes → Prop}

theorem ClientStep.honest (hs : ClientStep s k pkt s' ps out)
    (hR : pkt.type = .roomJoin ∨ pkt.type = .roomLeave → R (trim pkt.payload)) (hps : ps ≠ []) :
    Honest R s.serverId out := by
  cases hs with
  | login u ht ha => exact ⟨u, true, fun hn => ha.2.1 (Or.inr (Or.inl hn)), rfl⟩
  | firstJoin r ht hr => exact ⟨r, true, hr ▸ hR (Or.inl ht), rfl⟩
  | lastLeave r ht hr => exact ⟨r, false, hr ▸ hR (Or.inr ht), rfl⟩
  | routePrivate => trivial
  | routeRoom => trivial
  | broadcast => trivial
  | _ => exact absurd rfl hps

theorem Reads.honest (hr : Reads s k pkt s' ps out)
    (hR : pkt.type = .roomJoin ∨ pkt.type = .roomLeave → R (trim pkt.payload)) (hps : ps ≠ []) :
    Honest R s.serverId out := by
  cases hr with
  | session hk hs => exact hs.honest hR hps
  | peer hp hl => trivial

theorem Fails.honest (hf : Fails s k s' ps out) (hok : s.connManager.Ok) (hps : ps ≠ []) :
    Honest R s.serverId out := by
  cases hf with
  | session hk hn => exact ⟨s.nameOf k, false, hok.nulFree_username k, rfl⟩
  | _ => exact absurd rfl hps

/-- Only a login makes a session authenticated, and it stays so. -/
theorem ClientStep.authenticated (hs : ClientStep s k pkt s' ps out) :
    (s.Authenticated j → s'.Authenticated j) ∧
      (s'.Authenticated j → s.Authenticated j ∨ (j = k ∧ pkt.type = .login)) := by
  cases hs with
  | login u ht ha =>
      simp only [Authenticated, loggedIn, onConn_connManager, onUsers_connManager,
        ConnectionManager.sessions_authenticateSession]
      split
      next hj => exact ⟨fun _ => rfl, fun _ => Or.inr ⟨hj, ht⟩⟩
      · exact ⟨id, Or.inl⟩
  | firstJoin r ht hr hne ha | join r ht hr hne ha =>
      simp only [Authenticated, joined, onRooms_connManager, onConn_connManager,
        ConnectionManager.sessions_joinRoom]
      split
      next hj => exact ⟨fun _ => ha, fun _ => Or.inl (hj ▸ ha)⟩
      · exact ⟨id, Or.inl⟩
  | lastLeave r ht hr hne ha | leave r ht hr hne ha =>
      simp only [Authenticated, left, onRooms_connManager, onConn_connManager,
        ConnectionManager.sessions_leaveRoom]
      split
      next hj => exact ⟨fun _ => ha, fun _ => Or.inl (hj ▸ ha)⟩
      · exact ⟨id, Or.inl⟩
  | promote p ht hp =>
      have hsame : (s.promoted k p).connManager.sessions = s.connManager.sessions := by
        have hrem : (s.removed k).connManager.sessions = s.connManager.sessions :=
          ConnectionManager.sessions_removeSession ..
        rw [promoted]
        split
        · exact (ConnectionManager.sameSessions_linked ..).1.objects.trans hrem
        · exact hrem
      rw [Authenticated, Authenticated, hsame]
      exact ⟨id, Or.inl⟩
  | _ => exact ⟨id, Or.inl⟩

theorem Fails.sessions (hf : Fails s k s' ps out) :
    s'.connManager.sessions = s.connManager.sessions := by
  cases hf with
  | newSession => exact ConnectionManager.sessions_removeSession ..
  | session => exact ConnectionManager.sessions_removeSession ..
  | peer => exact (ConnectionManager.sameSessions_unlinked ..).objects

/-- Only an `S2S_CONNECT` that names a peer changes a link. -/
theorem ClientStep.nodes (hs : ClientStep s k pkt s' ps out) (hno : pkt.type = .s2sConnect →
    ∀ p ∈ s.connManager.getAllPeerNodes, stoi pkt.payload ≠ some p) :
    s'.connManager.nodes = s.connManager.nodes := by
  cases hs with
  | promote p ht hp =>
      have hpeer : p ∉ s.connManager.peerNodes := fun hpeer => hno ht p hpeer hp
      rw [promoted, if_neg hpeer]
      exact ConnectionManager.nodes_removeSession ..
  | _ => rfl

/-- No packet of a client touches a socket. -/
theorem ClientStep.sockets (hs : ClientStep s k pkt s' ps out) :
    s'.connManager.sockets = s.connManager.sockets := by
  cases hs with
  | promote p ht hp =>
      have hrem : (s.removed k).connManager.sockets = s.connManager.sockets :=
        ConnectionManager.sockets_removeSession ..
      rw [promoted]
      split
      · exact (ConnectionManager.sameSessions_linked ..).2.trans hrem
      · exact hrem
  | _ => rfl

theorem socket_received (s : ChatServer) (p q : Int) (pkt : RawPacket) :
    ((s.received p pkt).connManager.nodes q).socket = (s.connManager.nodes q).socket := by
  rw [received_connManager, ConnectionManager.socket_updateHeartbeat]

/-- The end of a peer's link takes that link away, and no end adds one. -/
theorem Fails.socket (hf : Fails s k s' ps out) {p : Int}
    (hl : (s'.connManager.nodes p).socket = some j) : (s.connManager.nodes p).socket = some j := by
  cases hf with
  | newSession hk hn =>
      rw [removed, onConn_connManager, ConnectionManager.nodes_removeSession] at hl
      exact hl
  | session hk hn =>
      rw [removed, onConn_connManager, ConnectionManager.nodes_removeSession] at hl
      exact hl
  | peer hp hq =>
      have hnodes := ConnectionManager.nodes_unlinked s.connManager hp s.now p
      change ((s.connManager.unlinked _ s.now).nodes p).socket = some j at hl
      rw [hnodes] at hl
      split at hl
      · cases hl
      · exact hl

theorem socket_dialed {p : Int} (hp : p ∈ s.connManager.peerNodes) (h : SOCKET) (q : Int) :
    ((s.dialed p h).connManager.nodes q).socket =
      if q = p then some s.connManager.nextConn else (s.connManager.nodes q).socket := by
  have hnodes := ConnectionManager.nodes_linked (k := s.connManager.nextConn)
    (s.connManager.newSocket h) hp s.now q
  change (((s.connManager.newSocket h).linked p s.connManager.nextConn s.now).nodes q).socket = _
  rw [hnodes]
  split <;> rfl

theorem socket_promoted {p : Int} (hp : p ∈ s.connManager.peerNodes) (q : Int) :
    ((s.promoted k p).connManager.nodes q).socket =
      if q = p then some k else (s.connManager.nodes q).socket := by
  have hp' : p ∈ (s.removed k).connManager.peerNodes := by
    rw [removed, onConn_connManager, ConnectionManager.peerNodes_removeSession]
    exact hp
  have hnodes := ConnectionManager.nodes_linked (k := k) (s.removed k).connManager hp' s.now q
  rw [promoted, if_pos hp]
  change (((s.removed k).connManager.linked p k s.now).nodes q).socket = _
  rw [hnodes]
  split
  · rfl
  · rw [removed, onConn_connManager, ConnectionManager.nodes_removeSession]

theorem live_promoted {p : Int} (hok : s.connManager.Ok) (hk : s.connManager.Live k) :
    (s.promoted k p).connManager.Live j ↔ s.connManager.Live j ∧ j ≠ k := by
  rw [← hok.live_removeSession hk, promoted]
  split
  · exact (ConnectionManager.sameSessions_linked (s.removed k).connManager p k
      (s.removed k).now).1.live j
  · exact Iff.rfl

/-- Handling a packet makes no session. -/
theorem ClientStep.live (hs : ClientStep s k pkt s' ps out) (hok : s.connManager.Ok)
    (hk : s.connManager.Live k) (hj : s'.connManager.Live j) : s.connManager.Live j := by
  cases hs with
  | promote p ht hp => exact ((live_promoted hok hk).mp hj).1
  | _ => exact hj

theorem Reads.live (hr : Reads s k pkt s' ps out) (hok : s.connManager.Ok)
    (hj : s'.connManager.Live j) : s.connManager.Live j := by
  cases hr with
  | session hk hs => exact hs.live hok hk hj
  | peer hp hl =>
      rw [received_connManager] at hj
      exact hj

theorem Fails.live (hf : Fails s k s' ps out) (hok : s.connManager.Ok)
    (hj : s'.connManager.Live j) : s.connManager.Live j := by
  cases hf with
  | newSession hk => exact ((hok.live_removeSession hk).mp hj).1
  | session hk => exact ((hok.live_removeSession hk).mp hj).1
  | peer => exact ((ConnectionManager.sameSessions_unlinked ..).live j).mp hj

/-- The end that takes a peer's link away is the loss of that link. -/
theorem Fails.eq_purgePeer (hf : Fails s k s' ps out) {p : Int}
    (hl : (s.connManager.nodes p).socket = some j) (hl' : (s'.connManager.nodes p).socket = none) :
    s' = s.purgePeer p := by
  cases hf with
  | newSession | session =>
      rw [removed, onConn_connManager, ConnectionManager.nodes_removeSession] at hl'
      exact absurd (hl.symm.trans hl') (Option.some_ne_none j)
  | @peer q hp hq =>
      have hnodes := ConnectionManager.nodes_unlinked s.connManager hp s.now p
      change ((s.connManager.unlinked q s.now).nodes p).socket = none at hl'
      rw [hnodes] at hl'
      split at hl'
      next hpq => rw [hpq]
      · exact absurd (hl.symm.trans hl') (Option.some_ne_none j)

/-- A session that has not logged in can only become a peer's link. -/
theorem ClientStep.of_anonymous (hs : ClientStep s k pkt s' ps out) (ha : ¬ s.Authenticated k)
    (hl : pkt.type ≠ .login) : ps = [] ∧ (s' = s ∨
      pkt.type = .s2sConnect ∧ ∃ p, stoi pkt.payload = some p ∧ s' = s.promoted k p) := by
  cases hs with
  | idle => exact ⟨rfl, Or.inl rfl⟩
  | login u ht => exact absurd ht hl
  | promote p ht hp => exact ⟨rfl, Or.inr ⟨ht, p, hp, rfl⟩⟩
  | firstJoin r ht hr hne h => exact absurd h ha
  | join r ht hr hne h => exact absurd h ha
  | lastLeave r ht hr hne h => exact absurd h ha
  | leave r ht hr hne h => exact absurd h ha
  | routePrivate p receiver text ht h => exact absurd h ha
  | routeRoom r text fields ht hu h => exact absurd h ha
  | broadcast ht h => exact absurd h ha

theorem sessions_received (s : ChatServer) (p : Int) (pkt : RawPacket) :
    (s.received p pkt).connManager.sessions = s.connManager.sessions := by
  rw [received_connManager]
  rfl

theorem authenticated_dialed {p : Int} {h : SOCKET} : (s.dialed p h).Authenticated j ↔
    j ≠ s.connManager.nextConn ∧ s.Authenticated j :=
  authenticated_newSocket (ConnectionManager.sameSessions_linked ..).1.objects

end

end ChatServer

namespace Cluster

/-- Frames, causes and connections between servers are what they should be. -/
structure Traffic (R : Bytes → Prop) (c : Cluster) : Prop extends Sound c where
  /-- The ids fit in an `int`. -/
  isInt : ∀ a ∈ c.ids, IsInt a
  honest : ∀ {b k a j f}, c.far b k = some (a, j) → f ∈ c.inbox b k → Honest R a f.2
  /-- No frame is on its way to a client's socket. -/
  dry : ∀ {b k}, c.far b k = none → c.inbox b k = []
  tagged : ∀ {b k f}, f ∈ c.inbox b k → f.1 < c.seq
  logged : ∀ e ∈ c.log, e.cause < c.seq
  /-- Nobody logs in over a connection between servers. -/
  anonymous : ∀ {a k}, c.far a k ≠ none → ¬ (c.server a).Authenticated k

section

variable {c c' : Cluster} {act : Action} {x : Int} {ps : List Int} {out : RawPacket}
  {R : Bytes → Prop} {s' : ChatServer} {j : ConnRef}

theorem Turn.honest (hc : c.Traffic R) (hR : NamesRoom R act) (ht : Turn c act x s' ps out)
    (hps : ps ≠ []) : Honest R x out := by
  have hx := ht.mem hc.toSound
  have hid := hc.serverId x hx
  have hok := (hc.sane x hx).ok
  cases ht with
  | connect => exact absurd rfl hps
  | packet ha hfar hr => exact hid ▸ hr.honest hR hps
  | disconnect ha hfar hf => exact hid ▸ hf.honest hok hps
  | heartbeat => trivial
  | deliver hfar hin hr =>
      have hpkt := hc.honest hfar (hin ▸ List.mem_cons_self ..)
      exact hid ▸ hr.honest (fun hroom => absurd hroom hpkt.not_room) hps
  | dial => rfl
  | accept => exact absurd rfl hps
  | hang hfar hf => exact hid ▸ hf.honest hok hps

/-- Only a client's login makes a session authenticated. -/
theorem Turn.authenticated (hc : c.Traffic R) (ht : Turn c act x s' ps out)
    (ha : s'.Authenticated j) : (c.server x).Authenticated j ∨
      ∃ pkt, act = .client x (.packet j pkt) ∧ pkt.type = .login ∧ c.far x j = none := by
  cases ht with
  | connect => exact Or.inl (authenticated_accepted.mp ha).2
  | @packet a k pkt out s' ps hx hfar hr =>
      cases hr with
      | session hk hs =>
          refine (hs.authenticated.2 ha).imp id fun hj => ?_
          obtain ⟨rfl, ht⟩ := hj
          exact ⟨pkt, rfl, ht, hfar⟩
      | peer hp hl =>
          rw [Authenticated, sessions_received] at ha
          exact Or.inl ha
  | disconnect hx hfar hf =>
      rw [Authenticated, hf.sessions] at ha
      exact Or.inl ha
  | heartbeat => exact Or.inl ha
  | deliver hfar hin hr =>
      cases hr with
      | session hk hs =>
          refine (hs.authenticated.2 ha).imp id fun hj => absurd hj.2 ?_
          exact (hc.honest hfar (hin ▸ List.mem_cons_self ..)).not_login
      | peer hp hl =>
          rw [Authenticated, sessions_received] at ha
          exact Or.inl ha
  | dial => exact Or.inl (authenticated_dialed.mp ha).2
  | accept => exact Or.inl (authenticated_accepted.mp ha).2
  | hang hfar hf =>
      rw [Authenticated, hf.sessions] at ha
      exact Or.inl ha

/-- What a server's packet gets to is an end of one of its connections. -/
theorem Gets.far (hs : c.Sound) {b : Int} {k : ConnRef} (hg : c.Gets x ps (b, k)) :
    ps ≠ [] ∧ ∃ p ∈ ps, ∃ i, (c.server x).connManager.linkSocket p = some i ∧
      c.far x i = some (b, k) ∧ c.far b k = some (x, i) := by
  obtain ⟨-, p, hp, i, hl, hf⟩ := hg
  exact ⟨List.ne_nil_of_mem hp, p, hp, i, hl, hf, hs.far_symm hf⟩

theorem kept_subset {b : Int} {k : ConnRef} : c.kept act b k ⊆ c.inbox b k := by
  rw [Cluster.kept]
  split
  · exact List.tail_subset _
  · split
    · exact List.nil_subset _
    · exact fun _ hf => hf

/-- The frames on their way to an end are ones that were, and maybe one more. -/
theorem Move.mem_inbox (hm : Move c act c' x ps out) {b : Int} {k : ConnRef}
    {f : Cause × RawPacket} (hf : f ∈ c'.inbox b k) :
    f ∈ c.inbox b k ∨ (c'.Gets x ps (b, k) ∧ f = (c.causeOf act, out)) := by
  by_cases hg : c'.Gets x ps (b, k)
  · rw [hm.sent hg] at hf
    cases List.mem_append.mp hf with
    | inl hf => exact Or.inl (kept_subset hf)
    | inr hf => exact Or.inr ⟨hg, List.mem_singleton.mp hf⟩
  · rw [hm.kept hg] at hf
    exact Or.inl (kept_subset hf)

theorem le_seqOf (c : Cluster) (act : Action) : c.seq ≤ c.seqOf act := by
  cases act with
  | deliver => exact Nat.le_refl _
  | _ => exact Nat.le_succ _

theorem causeOf_lt (hc : c.Traffic R) (ht : Turn c act x s' ps out) :
    c.causeOf act < c.seqOf act := by
  cases ht with
  | deliver hfar hin hr =>
      simp only [causeOf, hin]
      exact hc.tagged (hin ▸ List.mem_cons_self ..)
  | _ => exact Nat.lt_succ_self _

theorem mem_events {a : Int} {cause : Cause} {effects : List Effect} {e : Event} :
    e ∈ events a cause effects ↔
      ∃ k pkt, .toSession k pkt ∈ effects ∧ e = .sent a k cause pkt := by
  rw [events, List.mem_filterMap]
  constructor
  · intro h
    obtain ⟨f, hf, he⟩ := h
    cases f with
    | toSession k pkt =>
        cases he
        exact ⟨k, pkt, hf, rfl⟩
    | toPeer => cases he
  · intro h
    obtain ⟨k, pkt, hf, rfl⟩ := h
    exact ⟨_, hf, rfl⟩

theorem cause_of_mem_events {a : Int} {cause : Cause} {effects : List Effect} {e : Event}
    (he : e ∈ events a cause effects) : e.cause = cause := by
  obtain ⟨f, -, hf⟩ := List.mem_filterMap.mp he
  cases f with
  | toSession k pkt =>
      cases hf
      rfl
  | toPeer => cases hf

/-- The events of an action are due to what its frames are due to. -/
theorem cause_of_mem_eventsOf {e : Event} (he : e ∈ c.eventsOf act) : e.cause = c.causeOf act := by
  rw [eventsOf.eq_def] at he
  split at he
  · exact cause_of_mem_events he
  · exact cause_of_mem_events he
  · split at he
    next hfar hin =>
      simp only [causeOf, hin]
      cases List.mem_cons.mp he with
      | inl he => rw [he]; rfl
      | inr he => exact cause_of_mem_events he
    · exact absurd he List.not_mem_nil
  · exact cause_of_mem_events he
  · exact absurd he List.not_mem_nil

/-- Every move keeps the traffic in order. -/
theorem Move.traffic (hm : Move c act c' x ps out) (hc : c.Traffic R) (hR : NamesRoom R act) :
    c'.Traffic R := by
  have hsound := hm.sound hc.toSound
  refine ⟨hsound, hm.ids ▸ hc.isInt, ?_, ?_, ?_, ?_, ?_⟩
  · intro b k a j f hfar hf
    cases hm.mem_inbox hf with
    | inl hf =>
        rcases hm.far_before hc.toSound hfar with hold | hold
        · rw [hc.dry hold] at hf
          exact absurd hf List.not_mem_nil
        · exact hc.honest hold hf
    | inr hf =>
        obtain ⟨hg, rfl⟩ := hf
        obtain ⟨hps, p, hp, i, hl, hf, hback⟩ := hg.far hsound
        have he := hback.symm.trans hfar
        cases he
        exact hm.turn.honest hc hR hps
  · intro b k hfar
    have hnot : ¬ c'.Gets x ps (b, k) := by
      intro hg
      obtain ⟨-, p, hp, i, hl, hf, hback⟩ := hg.far hsound
      rw [hfar] at hback
      cases hback
    have hold : c.far b k = none := by
      cases hold : c.far b k with
      | none => rfl
      | some stop => exact absurd (hm.far_of_some hc.toSound hold) (by simp [hfar])
    rw [hm.kept hnot]
    exact List.eq_nil_of_subset_nil (hc.dry hold ▸ kept_subset)
  · intro b k f hf
    rw [hm.seq]
    cases hm.mem_inbox hf with
    | inl hf => exact Nat.lt_of_lt_of_le (hc.tagged hf) (le_seqOf c act)
    | inr hf =>
        rw [hf.2]
        exact causeOf_lt hc hm.turn
  · intro e he
    rw [hm.log] at he
    rw [hm.seq]
    cases List.mem_append.mp he with
    | inl he => exact Nat.lt_of_lt_of_le (hc.logged e he) (le_seqOf c act)
    | inr he =>
        rw [cause_of_mem_eventsOf he]
        exact causeOf_lt hc hm.turn
  · intro a k hfar ha
    obtain ⟨⟨b, k'⟩, hfar⟩ := Option.ne_none_iff_exists'.mp hfar
    obtain hold | ⟨h, h', rfl, -, hact⟩ := hm.far_cases hfar
    · have hnot := hc.anonymous (a := a) (k := k) (by rw [hold]; exact Option.some_ne_none _)
      cases hm.server a with
      | inl he => exact hnot (he ▸ ha)
      | inr ht =>
          obtain ⟨ps', o, ht⟩ := ht
          cases ht.authenticated hc ha with
          | inl ha => exact hnot ha
          | inr hcl =>
              obtain ⟨-, -, -, hnone⟩ := hcl
              rw [hold] at hnone
              cases hnone
    · cases hact with
      | inl hact =>
          subst hact
          rw [(hm.dialed rfl).1] at ha
          exact (authenticated_dialed.mp ha).1 rfl
      | inr hact =>
          subst hact
          rw [(hm.dialed rfl).2] at ha
          exact (authenticated_accepted.mp ha).1 rfl

/-! ## Links -/

/-- What reading a frame of server `a` does to server `b`: on a session it is the
handshake, on the link of a peer it is a packet of that peer. -/
inductive Frame (c : Cluster) (b : Int) (k : ConnRef) (a : Int) (pkt : RawPacket) :
    ChatServer → List Int → RawPacket → Prop where
  | ignored (hk : (c.server b).connManager.Live k) (out : RawPacket) :
      Frame c b k a pkt (c.server b) [] out
  | handshake (hk : (c.server b).connManager.Live k) (ht : pkt.type = .s2sConnect)
      (hs : stoi pkt.payload = some a) (hp : a ∈ (c.server b).connManager.peerNodes)
      (out : RawPacket) : Frame c b k a pkt ((c.server b).promoted k a) [] out
  | peer {p : Int} (hp : p ∈ (c.server b).connManager.peerNodes)
      (hl : (c.server b).connManager.linkSocket p = some k) :
      Frame c b k a pkt ((c.server b).received p pkt) (answered p pkt)
        ⟨.s2sHeartbeatAck, toString (c.server b).serverId⟩

theorem Frame.reads {a b : Int} {k : ConnRef} {pkt : RawPacket}
    (hf : Frame c b k a pkt s' ps out) : Reads (c.server b) k pkt s' ps out := by
  cases hf with
  | ignored hk => exact .session hk (.idle out)
  | handshake hk ht hself hp => exact .session hk (.promote a ht hself out)
  | peer hp hl => exact .peer hp hl

theorem Reads.frame (hc : c.Traffic R) {a b : Int} {k : ConnRef} {pkt : RawPacket}
    (hfar : c.far b k = some (a, j)) (hpkt : Honest R a pkt)
    (hr : Reads (c.server b) k pkt s' ps out) : Frame c b k a pkt s' ps out := by
  cases hr with
  | session hk hs =>
      have hanon := hc.anonymous (a := b) (k := k) (by rw [hfar]; exact Option.some_ne_none _)
      obtain ⟨rfl, rfl | ⟨ht, p, hp, rfl⟩⟩ := hs.of_anonymous hanon hpkt.not_login
      · exact .ignored hk out
      · simp only [Honest, ht] at hpkt
        rw [hpkt, stoi_toString (hc.isInt a (hc.far_ids' hfar))] at hp
        cases hp
        have hself : stoi pkt.payload = some a :=
          hpkt ▸ stoi_toString (hc.isInt a (hc.far_ids' hfar))
        exact .handshake hk ht hself ((hc.peers b (hc.far_ids hfar).1 a).mpr
          ⟨hc.far_ids' hfar, (hc.far_ids hfar).2.1.symm⟩) out
  | peer hp hl => exact .peer hp hl

/-- What a delivery does: one server reads the next frame on one of its ends. -/
theorem Move.delivery {b : Int} {k : ConnRef} (hm : Move c (.deliver b k) c' x ps out)
    (hc : c.Traffic R) : x = b ∧ (∀ y, y ≠ b → c'.server y = c.server y) ∧
      ∃ a j cause pkt rest, c.far b k = some (a, j) ∧ c.inbox b k = (cause, pkt) :: rest ∧
        Honest R a pkt ∧ Frame c b k a pkt (c'.server b) ps out := by
  have hactor : ∀ {y s' ps o}, Turn c (.deliver b k) y s' ps o → y = b := by
    intro y s' ps o ht
    cases ht with
    | deliver => rfl
  have hx := hactor hm.turn
  subst hx
  refine ⟨rfl, fun y hy => ?_, ?_⟩
  · exact (hm.others y hy).resolve_right fun ht => ht.elim fun _ ht => hy (hactor ht)
  · have ht := hm.turn
    generalize c'.server x = s' at ht
    cases ht with
    | deliver hfar hin hr =>
        have hpkt := hc.honest hfar (hin ▸ List.mem_cons_self ..)
        exact ⟨_, _, _, _, _, hfar, hin, hpkt, Reads.frame hc hfar hpkt hr⟩

/-- The links are connections to the peers they are registered for. -/
def LinksTrue (c : Cluster) : Prop :=
  ∀ {a p k}, a ∈ c.ids → p ∈ (c.server a).connManager.peerNodes →
    (c.server a).connManager.linkSocket p = some k → ∃ j, c.far a k = some (p, j)

/-- No client claims to be a configured peer. -/
def NoHijack (c : Cluster) : Action → Prop
  | .client a (.packet _ pkt) => pkt.type = .s2sConnect →
      ∀ p ∈ (c.server a).connManager.getAllPeerNodes, stoi pkt.payload ≠ some p
  | _ => True

instance (c : Cluster) (act : Action) : Decidable (c.NoHijack act) :=
  match act with
  | .client a (.packet _ pkt) => inferInstanceAs (Decidable (pkt.type = .s2sConnect →
      ∀ p ∈ (c.server a).connManager.getAllPeerNodes, stoi pkt.payload ≠ some p))
  | .client _ (.connect _) | .client _ (.disconnect _) | .heartbeat _ _ | .deliver _ _ | .hang _ _
  | .dial _ _ _ _ => instDecidableTrue

/-- A link was there before, or it is a handshake's or a connector's. -/
theorem Turn.linkSocket (hc : c.Traffic R) (hno : c.NoHijack act) (ht : Turn c act x s' ps out)
    {p : Int} {k : ConnRef} (hl : s'.connManager.linkSocket p = some k) :
    (c.server x).connManager.linkSocket p = some k ∨
      (act = .deliver x k ∧ ∃ i, c.far x k = some (p, i)) ∨
      ∃ h h', act = .dial x p h h' ∧ k = (c.server x).connManager.nextConn := by
  have hx := ht.mem hc.toSound
  have hok := (hc.sane x hx).ok
  rw [(ht.sane hc.toSound).ok.linkSocket_eq] at hl
  rw [hok.linkSocket_eq]
  cases ht with
  | connect => exact Or.inl hl
  | packet ha hfar hr =>
      cases hr with
      | session hk hs => exact Or.inl (hs.nodes hno ▸ hl)
      | peer hp hq => exact Or.inl (socket_received .. ▸ hl)
  | disconnect ha hfar hf => exact Or.inl (hf.socket hl)
  | heartbeat => exact Or.inl hl
  | @deliver b a i j cause pkt out rest s' ps hfar hin hr =>
      have hpkt : Honest R a pkt := hc.honest (f := (cause, pkt)) hfar (hin ▸ List.mem_cons_self ..)
      cases Reads.frame hc hfar hpkt hr with
      | ignored => exact Or.inl hl
      | handshake hk ht hself hp =>
          rw [socket_promoted hp] at hl
          split at hl
          next hpa =>
            cases hl
            exact Or.inr (Or.inl ⟨rfl, j, hpa ▸ hfar⟩)
          · exact Or.inl hl
      | peer hp hq => exact Or.inl (socket_received .. ▸ hl)
  | @dial a b h h' ha hb hne hcon hf =>
      rw [socket_dialed ((hc.peers _ ha b).mpr ⟨hb, hne.symm⟩)] at hl
      split at hl
      next hpb =>
        cases hl
        exact Or.inr (Or.inr ⟨h, h', hpb ▸ rfl, rfl⟩)
      · exact Or.inl hl
  | accept => exact Or.inl hl
  | hang hfar hf => exact Or.inl (hf.socket hl)

/-- A link goes only when it is lost. -/
theorem Turn.eq_purgePeer (hc : c.Traffic R) (hno : c.NoHijack act) (ht : Turn c act x s' ps out)
    {p : Int} {k : ConnRef} (hl : (c.server x).connManager.linkSocket p = some k)
    (hl' : s'.connManager.linkSocket p = none) : s' = (c.server x).purgePeer p := by
  have hx := ht.mem hc.toSound
  have hok := (hc.sane x hx).ok
  rw [(ht.sane hc.toSound).ok.linkSocket_eq] at hl'
  rw [hok.linkSocket_eq] at hl
  have hstays : (s'.connManager.nodes p).socket = ((c.server x).connManager.nodes p).socket →
      s' = (c.server x).purgePeer p := by
    intro hsame
    rw [hsame, hl] at hl'
    cases hl'
  cases ht with
  | connect => exact hstays rfl
  | packet ha hfar hr =>
      cases hr with
      | session hk hs => exact hstays (by rw [hs.nodes hno])
      | peer hp hq => exact hstays (socket_received ..)
  | disconnect ha hfar hf => exact hf.eq_purgePeer hl hl'
  | heartbeat => exact hstays rfl
  | @deliver b a i j cause pkt out rest s' ps hfar hin hr =>
      have hpkt : Honest R a pkt := hc.honest (f := (cause, pkt)) hfar (hin ▸ List.mem_cons_self ..)
      cases Reads.frame hc hfar hpkt hr with
      | ignored => exact hstays rfl
      | handshake hk ht hself hp =>
          rw [socket_promoted hp] at hl'
          split at hl'
          · cases hl'
          next hpa => exact hstays (by rw [socket_promoted hp, if_neg hpa])
      | peer hp hq => exact hstays (socket_received ..)
  | @dial a b h h' ha hb hne hcon hf =>
      have hp := (hc.peers _ ha b).mpr ⟨hb, hne.symm⟩
      rw [socket_dialed hp] at hl'
      split at hl'
      · cases hl'
      next hpb => exact hstays (by rw [socket_dialed hp, if_neg hpb])
  | accept => exact hstays rfl
  | hang hfar hf => exact hf.eq_purgePeer hl hl'

/-- New sessions are on new sockets. -/
theorem Turn.live (hs : c.Sound) (ht : Turn c act x s' ps out) (hj : s'.connManager.Live j) :
    (c.server x).connManager.Live j ∨ (c.server x).connManager.nextConn ≤ j := by
  have hok := (hs.sane x (ht.mem hs)).ok
  cases ht with
  | connect ha hf =>
      rcases (ConnectionManager.live_accepted hf).mp hj with rfl | hj
      · exact Or.inr (Nat.le_refl _)
      · exact Or.inl hj
  | packet ha hfar hr => exact Or.inl (hr.live hok hj)
  | disconnect ha hfar hf => exact Or.inl (hf.live hok hj)
  | heartbeat => exact Or.inl hj
  | deliver hfar hin hr => exact Or.inl (hr.live hok hj)
  | @dial a b h h' =>
      have hsame := (ConnectionManager.sameSessions_linked
        ((c.server x).connManager.newSocket h) b (c.server x).connManager.nextConn
        (c.server x).now).1
      exact Or.inl ((hsame.live j).mp hj)
  | accept ha hb hne hcon hf =>
      rcases (ConnectionManager.live_accepted hf).mp hj with rfl | hj
      · exact Or.inr (Nat.le_refl _)
      · exact Or.inl hj
  | hang hfar hf => exact Or.inl (hf.live hok hj)

theorem Move.live (hm : Move c act c' x ps out) (hs : c.Sound) {y : Int}
    (hlt : j < (c.server y).connManager.nextConn) (hj : (c'.server y).connManager.Live j) :
    (c.server y).connManager.Live j := by
  cases hm.server y with
  | inl he => exact he ▸ hj
  | inr ht =>
      obtain ⟨ps', o, ht⟩ := ht
      exact (ht.live hs hj).resolve_right (Nat.not_le_of_lt hlt)

/-- A link was there before, or a handshake registers it, or the connector. -/
theorem Move.linkSocket (hm : Move c act c' x ps out) (hc : c.Traffic R) (hno : c.NoHijack act)
    {y p : Int} {k : ConnRef} (hl : (c'.server y).connManager.linkSocket p = some k) :
    (c.server y).connManager.linkSocket p = some k ∨
      (act = .deliver y k ∧ (c.server y).connManager.Live k ∧ ps = [] ∧
        ∃ i, c.far y k = some (p, i)) ∨
      ∃ h h', act = .dial y p h h' ∧ k = (c.server y).connManager.nextConn := by
  cases hm.server y with
  | inl he => exact Or.inl (he ▸ hl)
  | inr ht =>
      obtain ⟨ps', o, ht⟩ := ht
      obtain hk | ⟨rfl, i, hi⟩ | hdial := ht.linkSocket hc hno hl
      · exact Or.inl hk
      · obtain ⟨-, -, a, j, cause, pkt, rest, hfar, -, -, hframe⟩ := hm.delivery hc
        have hy := (hc.far_ids hfar).1
        have hok := (hc.sane y hy).ok
        generalize hs' : c'.server y = s' at hframe hl
        cases hframe with
        | ignored => exact Or.inl hl
        | handshake hk => exact Or.inr (Or.inl ⟨rfl, hk, rfl, i, hi⟩)
        | peer hp hq =>
            rw [((hc.sane y hy).received _ pkt).ok.linkSocket_eq, socket_received] at hl
            exact Or.inl ((hok.linkSocket_eq p).trans hl)
      · exact Or.inr (Or.inr hdial)

/-- Links stay true as long as no client claims to be a peer. -/
theorem Move.linksTrue (hm : Move c act c' x ps out) (hc : c.Traffic R) (hno : c.NoHijack act)
    (hl : c.LinksTrue) : c'.LinksTrue := by
  intro a p k ha hp hk
  rw [hm.ids] at ha
  rw [(hm.keeps a).peers] at hp
  have hold : (c.server a).connManager.linkSocket p = some k → ∃ j, c'.far a k = some (p, j) := by
    intro hk
    obtain ⟨j, hj⟩ := hl ha hp hk
    exact ⟨j, hm.far_of_some hc.toSound hj⟩
  cases hm.server a with
  | inl he => exact hold (he ▸ hk)
  | inr ht =>
      obtain ⟨ps', o, ht⟩ := ht
      obtain hk | ⟨-, i, hi⟩ | ⟨h, h', rfl, rfl⟩ := ht.linkSocket hc hno hk
      · exact hold hk
      · exact ⟨i, hm.far_of_some hc.toSound hi⟩
      · refine ⟨(c.server p).connManager.nextConn, ?_⟩
        have hne := ht.ne_of_dial.2.2
        rw [hm.far, farOf, far_join hne, if_neg fun he => hne he.1, if_pos ⟨rfl, rfl⟩]

end

end Cluster

end DistributedChat
