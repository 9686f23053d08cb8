import DistributedChat.Server.Clients

/-!
# The session registry

On a server without peers the user table, `m_sessionsByUsername` and the
sessions say the same thing (`Registry`), as long as no connection logs in
twice.  `HandleLogin` does not look at the session's state, so a second login on
a connection is accepted under a second name.  It leaves both entries of the
first name behind, and no later action repairs the state in which they are.
-/

namespace DistributedChat

namespace ChatServer

/-- A server without peers that nobody has connected to. -/
def fresh (id : Int) : ChatServer := { serverId := id }

/-- Exactly one session is authenticated under the name, and it is the one filed
under it. -/
def Registered (s : ChatServer) (u : Bytes) : Prop :=
  ∃ k, (∀ j, s.Holds j u ↔ j = k) ∧ s.connManager.getSessionByUsername u = some k

/-- The two tables keyed by user names and the sessions agree. -/
structure Registry (s : ChatServer) : Prop where
  users : ∀ u, s.userManager.location? u = some s.serverId ↔ s.Registered u
  own : ∀ u i, s.userManager.location? u = some i → i = s.serverId
  names : ∀ u k, s.connManager.getSessionByUsername u = some k → s.Registered u

section

variable {s s' : ChatServer} {a : ClientAction} {k : ConnRef} {u : Bytes}

theorem Names.registered_iff (h : s.Names) : s.Registered u ↔ ∃ k, s.Holds k u := by
  refine ⟨fun hr => ?_, fun hk => ?_⟩
  · obtain ⟨k, hk, -⟩ := hr
    exact ⟨k, (hk k).mpr rfl⟩
  · obtain ⟨k, hk⟩ := hk
    refine ⟨k, fun j => ⟨fun hj => h.holder_unique hj hk, fun hj => hj ▸ hk⟩, h.byName.mpr hk⟩

/-- Without peers a round of sends changes nothing. -/
theorem dropBroken_of_alone (h : s.connManager.getAllPeerNodes = []) (ps : List Int) :
    s.dropBroken ps = s := by
  have hnot : ∀ p, p ∉ s.connManager.peerNodes := by
    intro p hp
    rw [ListSet.mem_def, ← ConnectionManager.getAllPeerNodes, h] at hp
    exact List.not_mem_nil hp
  induction ps with
  | nil => rfl
  | cons p ps ih =>
      rw [dropBroken, List.foldl_cons, dropIfBroken_of_not_peer (hnot p)]
      exact ih

/-- Every entry of the user table is of this server, and there are no peers. -/
def Own (s : ChatServer) : Prop :=
  (∀ u i, s.userManager.location? u = some i → i = s.serverId) ∧
    s.connManager.getAllPeerNodes = []

theorem Own.removed (h : s.Own) (k : ConnRef) : (s.removed k).Own := by
  refine ⟨h.1, ?_⟩
  rw [ConnectionManager.getAllPeerNodes, ChatServer.removed, onConn_connManager,
    ConnectionManager.peerNodes_removeSession]
  exact h.2

theorem Own.loggedIn (h : s.Own) (k : ConnRef) (u : Bytes) : (s.loggedIn k u).Own := by
  refine ⟨?_, h.2⟩
  intro v i hv
  rw [ChatServer.loggedIn, onConn_userManager, onUsers_userManager,
    UserManager.location?_registerUser] at hv
  split at hv
  · exact (Option.some.inj hv).symm
  · exact h.1 v i hv

theorem Own.loggedOut (h : s.Own) (k : ConnRef) : (s.loggedOut k).Own := by
  refine ⟨?_, h.2⟩
  intro v i hv
  rw [ChatServer.loggedOut, onUsers_userManager, UserManager.location?_unregisterUser] at hv
  split at hv
  · cases hv
  · exact h.1 v i hv

theorem Own.move (h : s.Own) (hn : NoConnect a) (hm : ClientMove s a s') : s'.Own := by
  cases hm with
  | connect hf => exact h
  | @packet k pkt _ s' ps hk hs =>
      have hs' : s'.Own := by
        cases hs with
        | login u ht ha => exact h.loggedIn k u
        | promote p ht hp => exact absurd ht hn
        | _ => exact h
      rw [dropBroken_of_alone hs'.2]
      exact hs'
  | disconnectNew hk hnew => exact h.removed _
  | @disconnect k hk hnew =>
      rw [dropBroken_of_alone (s := s.loggedOut k) h.2]
      exact (h.loggedOut k).removed k

/-- What a server without peers keeps while nobody logs in twice. -/
structure Lone (s : ChatServer) : Prop where
  ok : s.connManager.Ok
  names : s.Names
  own : s.Own

theorem lone_fresh (id : Int) : (fresh id).Lone where
  ok := by
    refine ⟨?_, ?_, ?_, ?_, ?_, fun _ => rfl, fun k => ⟨fun _ => rfl, Bool.noConfusion⟩⟩
    · intro h k hk
      cases hk
    · intro k hk
      cases hk
    · intro p k hp
      cases hp
    · intro p k hp
      cases hp
    · intro p q k hp
      cases hp
  names := by
    refine ⟨fun {u k} => ⟨fun h => ?_, fun h => ?_⟩, fun {u} => ⟨fun h => ?_, fun h => ?_⟩⟩
    · cases h
    · cases h.1
    · cases h
    · obtain ⟨k, hk⟩ := h
      cases hk.1
  own := by
    refine ⟨fun u i h => ?_, rfl⟩
    cases h

theorem Lone.registry (h : s.Lone) : s.Registry where
  users u := by rw [h.names.located, h.names.registered_iff]
  own := h.own.1
  names u k hk := h.names.registered_iff.mpr ⟨k, h.names.byName.mp hk⟩

theorem Lone.move (h : s.Lone) (hf : s.FirstLogin a) (hn : NoConnect a)
    (hm : ClientMove s a s') : s'.Lone := by
  have hid : s.serverId ∉ s.connManager.peerNodes := by
    rw [ListSet.mem_def, ← ConnectionManager.getAllPeerNodes, h.own.2]
    exact List.not_mem_nil
  exact ⟨hm.ok h.ok, h.names.move h.ok hid hf hn hm, h.own.move hn hm⟩

/-- A second login on a connection strands the entries of its first name. -/
theorem Lone.not_registry_of_relogin (h : s.Lone) {pkt : RawPacket}
    (hk : s.connManager.Live k) (hauth : (s.connManager.sessions k).isAuthenticated = true)
    (ha : s.Accepts pkt.payload u) : ¬ (s.loggedIn k u).Registry := by
  intro hreg
  have hold : s.Holds k (s.nameOf k) := ⟨hk, hauth, rfl⟩
  have hne : s.nameOf k ≠ u := by
    intro he
    exact h.names.not_holds_of_accepts ha k (he ▸ hold)
  have hloc : (s.loggedIn k u).userManager.location? (s.nameOf k) =
      some (s.loggedIn k u).serverId := by
    rw [ChatServer.loggedIn, onConn_userManager, onUsers_userManager,
      UserManager.location?_registerUser, if_neg hne]
    exact h.names.located.mpr ⟨k, hold⟩
  obtain ⟨j, hj, -⟩ := (hreg.users (s.nameOf k)).mp hloc
  -- whoever holds the old name now held it before, and is not the session itself
  cases (holds_loggedIn hk).mp ((hj j).mpr rfl) with
  | inl he => exact hne he.2
  | inr he => exact he.1 (h.names.holder_unique he.2 hold)

end

/-- The registry is right in every state of a run exactly when every accepted
login of the run is the first one of its connection. -/
theorem registry_always_iff (id : Int) (as : List ClientAction) (t : ChatServer)
    (hrun : exec clientNext (fresh id) as = some t) (hno : ∀ a ∈ as, NoConnect a) :
    (∀ u, Visits clientNext (fresh id) as u → u.Registry) ↔
      Along clientNext FirstLogin (fresh id) as := by
  refine always_iff_along (I := Lone) (A := fun _ a => NoConnect a) Lone.registry ?_ ?_
    (lone_fresh id) (along_of_forall hno) hrun
  · intro s a s' hs hn hf hnext
    exact hs.move hf hn (clientNext_move hs.ok hnext)
  · intro s a s' hs hn hf hnext
    cases a with
    | connect => exact absurd trivial hf
    | disconnect => exact absurd trivial hf
    | packet k pkt =>
        simp only [FirstLogin] at hf
        push Not at hf
        obtain ⟨ht, u, ha, hauth⟩ := hf
        rw [ne_eq, Bool.not_eq_false] at hauth
        obtain ⟨hk, rfl⟩ := clientNext_login ht ha hnext
        rw [dropBroken_of_alone (s := s.loggedIn k u) hs.own.2]
        exact hs.not_registry_of_relogin hk hauth ha

/-- Two logins on one connection. -/
def relogin : List ClientAction :=
  [.connect 4, .packet 0 ⟨.login, ascii "ann"⟩, .packet 0 ⟨.login, ascii "bob"⟩]

theorem registry_always_iff_relogin :
    (∀ u, Visits clientNext (fresh 1) relogin u → u.Registry) ↔
      Along clientNext FirstLogin (fresh 1) relogin :=
  registry_always_iff 1 relogin ((exec clientNext (fresh 1) relogin).get (by decide))
    (Option.some_get _).symm (by decide)

/-- After a second login the user table lists a name that no session bears. -/
theorem relogin_breaks_registry :
    (∀ a ∈ relogin, NoConnect a) ∧
      ∃ t, exec clientNext (fresh 1) relogin = some t ∧ ¬ t.Registry := by
  have hrun : (exec clientNext (fresh 1) relogin).any fun t =>
      t.userManager.location? (ascii "ann") = some t.serverId ∧
        ∀ j ∈ t.connManager.getAllSessions, t.nameOf j ≠ ascii "ann" := by decide
  obtain ⟨t, ht, hloc, hnone⟩ := by simpa [Option.any_eq_true] using hrun
  refine ⟨by decide, t, ht, fun h => ?_⟩
  obtain ⟨k, hk, -⟩ := (h.users (ascii "ann")).mp hloc
  have hheld := (hk k).mpr rfl
  exact hnone k hheld.1 hheld.2.2

end ChatServer

end DistributedChat
