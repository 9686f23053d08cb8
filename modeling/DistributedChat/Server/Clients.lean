import DistributedChat.Logic.Runs
import DistributedChat.Server.Sessions

/-!
# One server and its clients

The server as a labelled system: its actions are what clients do to it, each
handled to completion.  `ClientMove` lists what an action can do.

`Names` is the invariant of the two tables that are keyed by user names.  It
needs that a connection logs in at most once (`FirstLogin`); everything else a
client sends keeps it, up to the `S2S_CONNECT` that takes a session away.
-/

namespace DistributedChat

/-- What a client does to a server. -/
inductive ClientAction where
  /-- A connection is accepted on the handle. -/
  | connect (handle : SOCKET)
  /-- A packet of the connection is read and handled. -/
  | packet (k : ConnRef) (pkt : RawPacket)
  /-- The connection ends. -/
  | disconnect (k : ConnRef)
deriving DecidableEq, Repr

namespace ChatServer

open ConnectionManager (FreeHandle)

/-- The server handles an action of a client, if it can take place. -/
def clientNext (s : ChatServer) : ClientAction → Option ChatServer
  | .connect handle =>
      if s.connManager.FreeHandle handle then some ((acceptConnection handle).run s).state else none
  | .packet k pkt =>
      if s.connManager.Live k ∧ pkt.Fits then some ((readPacket k pkt).run s).state else none
  | .disconnect k =>
      if s.connManager.Live k then some ((readFailure k).run s).state else none

/-- What an action of a client does to the server. -/
inductive ClientMove (s : ChatServer) : ClientAction → ChatServer → Prop where
  | connect {handle : SOCKET} (hf : s.connManager.FreeHandle handle) :
      ClientMove s (.connect handle) (s.onConn (·.accepted handle))
  | packet {k : ConnRef} {pkt out : RawPacket} {s' : ChatServer} {ps : List Int}
      (hk : s.connManager.Live k) (hs : ClientStep s k pkt s' ps out) :
      ClientMove s (.packet k pkt) (s'.dropBroken ps)
  | disconnectNew {k : ConnRef} (hk : s.connManager.Live k) (hn : s.nameOf k = []) :
      ClientMove s (.disconnect k) (s.removed k)
  | disconnect {k : ConnRef} (hk : s.connManager.Live k) (hn : s.nameOf k ≠ []) :
      ClientMove s (.disconnect k)
        (((s.loggedOut k).dropBroken s.connManager.getAllPeerNodes).removed k)

section

variable {s s' : ChatServer} {k : ConnRef} {a : ClientAction}

theorem run_readPacket_of_live (hk : s.connManager.Live k) (pkt : RawPacket) :
    (readPacket k pkt).run s = (handleClientPacket k pkt).run s := by
  simp [readPacket, hk]

theorem run_readFailure_of_live (hk : s.connManager.Live k) :
    (readFailure k).run s = (clientDisconnect k).run s := by
  simp [readFailure, hk]

/-- Every action of a client is one of the moves. -/
theorem clientNext_move (h : s.connManager.Ok) (hn : s.clientNext a = some s') :
    ClientMove s a s' := by
  cases a with
  | connect handle =>
      rw [clientNext] at hn
      split at hn
      next hf =>
        cases hn
        exact .connect hf
      · cases hn
  | packet k pkt =>
      rw [clientNext] at hn
      split at hn
      next hk =>
        cases hn
        obtain ⟨s', ps, out, hs, hrun⟩ := handleClientPacket_step s k pkt
        rw [run_readPacket_of_live hk.1, hrun.state]
        exact .packet hk.1 hs
      · cases hn
  | disconnect k =>
      rw [clientNext] at hn
      split at hn
      next hk =>
        cases hn
        rw [run_readFailure_of_live hk, state_clientDisconnect_of_live h hk]
        by_cases hu : s.nameOf k = []
        · rw [if_pos hu]
          exact .disconnectNew hk hu
        · rw [if_neg hu]
          exact .disconnect hk hu
      · cases hn

theorem ClientMove.same (hm : ClientMove s a s') :
    s'.serverId = s.serverId ∧ s'.connManager.peerNodes = s.connManager.peerNodes := by
  cases hm with
  | connect hf => exact ⟨rfl, rfl⟩
  | @packet k pkt _ s' ps hk hs =>
      refine ⟨(serverId_dropBroken s' ps).trans hs.same.1, ?_⟩
      exact (sameSessions_dropBroken s' ps).peers.trans hs.same.2
  | disconnectNew hk hn => exact ⟨rfl, ConnectionManager.peerNodes_removeSession ..⟩
  | @disconnect k hk hn =>
      refine ⟨serverId_dropBroken (s.loggedOut k) _, ?_⟩
      exact (ConnectionManager.peerNodes_removeSession ..).trans
        (sameSessions_dropBroken (s.loggedOut k) _).peers

/-- An accepted login logs the session in. -/
theorem clientNext_login {pkt : RawPacket} {u : Bytes} (ht : pkt.type = .login)
    (ha : s.Accepts pkt.payload u) (hn : s.clientNext (.packet k pkt) = some s') :
    s.connManager.Live k ∧ s' = (s.loggedIn k u).dropBroken s.connManager.getAllPeerNodes := by
  rw [clientNext] at hn
  split at hn
  next hk =>
    cases hn
    refine ⟨hk.1, ?_⟩
    rw [run_readPacket_of_live hk.1, run_handleClientPacket_login ht]
    exact (amounts_handleLogin ha).state
  · cases hn

theorem live_loggedOut_dropBroken (hk : s.connManager.Live k) (ps : List Int) :
    ((s.loggedOut k).dropBroken ps).connManager.Live k :=
  ((sameSessions_dropBroken (s.loggedOut k) ps).live k).mpr hk

theorem ClientMove.ok (hm : ClientMove s a s') (h : s.connManager.Ok) : s'.connManager.Ok := by
  cases hm with
  | connect hf => exact h.accepted hf
  | packet hk hs => exact ok_dropBroken (hs.ok h hk) _
  | disconnectNew hk hn => exact ok_removed h hk
  | disconnect hk hn =>
      exact ok_removed (ok_dropBroken (s := s.loggedOut _) h _) (live_loggedOut_dropBroken hk _)

end

/-! ## Names -/

/-- A login that `HandleLogin` accepts is the first one of its connection. -/
def FirstLogin (s : ChatServer) : ClientAction → Prop
  | .packet k pkt => pkt.type = .login → ∀ u, s.Accepts pkt.payload u →
      (s.connManager.sessions k).isAuthenticated = false
  | _ => True

instance (s : ChatServer) (a : ClientAction) : Decidable (s.FirstLogin a) :=
  match a with
  | .connect _ => isTrue trivial
  | .disconnect _ => isTrue trivial
  | .packet k pkt =>
      decidable_of_iff (pkt.type = .login → s.Accepts pkt.payload (trim pkt.payload) →
          (s.connManager.sessions k).isAuthenticated = false)
        ⟨fun h ht _ ha => h ht (ha.1.symm ▸ ha), fun h ht ha => h ht _ ha⟩

/-- The action is not an `S2S_CONNECT`. -/
def NoConnect : ClientAction → Prop
  | .packet _ pkt => pkt.type ≠ .s2sConnect
  | _ => True

instance (a : ClientAction) : Decidable (NoConnect a) :=
  match a with
  | .connect _ => isTrue trivial
  | .disconnect _ => isTrue trivial
  | .packet _ pkt => inferInstanceAs (Decidable (pkt.type ≠ .s2sConnect))

/-- An `S2S_CONNECT` names no peer and comes from a session that is not logged in,
or it names nobody. -/
def Harmless (s : ChatServer) : ClientAction → Prop
  | .packet k pkt => pkt.type = .s2sConnect → ∀ p, stoi pkt.payload = some p →
      p ∉ s.connManager.peerNodes ∧ (s.connManager.sessions k).isAuthenticated = false
  | _ => True

instance (s : ChatServer) (a : ClientAction) : Decidable (s.Harmless a) :=
  match a with
  | .connect _ => isTrue trivial
  | .disconnect _ => isTrue trivial
  | .packet k pkt =>
      decidable_of_iff (pkt.type = .s2sConnect → ∀ p ∈ stoi pkt.payload,
          p ∉ s.connManager.peerNodes ∧ (s.connManager.sessions k).isAuthenticated = false)
        Iff.rfl

theorem NoConnect.harmless {a : ClientAction} (h : NoConnect a) (s : ChatServer) :
    s.Harmless a := by
  cases a with
  | packet k pkt => exact fun ht => absurd ht h
  | _ => trivial

/-- The tables keyed by user names agree with the sessions. -/
structure Names (s : ChatServer) : Prop where
  byName : ∀ {u k}, s.connManager.getSessionByUsername u = some k ↔ s.Holds k u
  located : ∀ {u}, s.userManager.location? u = some s.serverId ↔ ∃ k, s.Holds k u

theorem isUserOnline_eq_false {m : UserManager} {u : Bytes} :
    m.isUserOnline u = false ↔ m.location? u = none := by
  rw [UserManager.isUserOnline, Option.isSome_eq_false_iff, Option.isNone_iff_eq_none]

section

variable {s s' : ChatServer} {k : ConnRef} {a : ClientAction} {u r : Bytes}

/-- Nobody holds the name of an accepted login. -/
theorem Names.not_holds_of_accepts (h : s.Names) {payload : Bytes} (ha : s.Accepts payload u)
    (k : ConnRef) : ¬ s.Holds k u := by
  intro hk
  have hloc := h.located.mpr ⟨k, hk⟩
  rw [isUserOnline_eq_false.mp ha.2.2] at hloc
  cases hloc

theorem Names.loggedIn (h : s.Names) {payload : Bytes} (hk : s.connManager.Live k)
    (ha : s.Accepts payload u) (hf : (s.connManager.sessions k).isAuthenticated = false) :
    (s.loggedIn k u).Names := by
  have hnot : ∀ v, ¬ s.Holds k v := by
    intro v hv
    rw [hv.2.1] at hf
    cases hf
  refine ⟨?_, ?_⟩
  · intro v j
    rw [holds_loggedIn hk, ChatServer.loggedIn, onConn_connManager, onUsers_connManager,
      ConnectionManager.getSessionByUsername_authenticateSession]
    by_cases hv : v = u
    · subst hv
      rw [if_pos rfl]
      have hnone := h.not_holds_of_accepts ha j
      grind
    · rw [if_neg hv, h.byName]
      have hnone := hnot v
      grind
  · intro v
    rw [ChatServer.loggedIn, onConn_userManager, onUsers_userManager, onConn_serverId,
      onUsers_serverId, UserManager.location?_registerUser]
    by_cases hv : v = u
    · subst hv
      rw [if_pos rfl]
      exact ⟨fun _ => ⟨k, (holds_loggedIn hk).mpr (Or.inl ⟨rfl, rfl⟩)⟩, fun _ => rfl⟩
    · rw [if_neg hv, h.located]
      refine exists_congr fun j => ?_
      have hnone := hnot v
      have hin := holds_loggedIn (j := j) (v := v) (u := u) hk
      rw [ChatServer.loggedIn] at hin
      grind

theorem Names.congr (h : s.Names) (hholds : ∀ j v, s'.Holds j v ↔ s.Holds j v)
    (hname : s'.connManager.sessionsByUsername = s.connManager.sessionsByUsername)
    (hloc : ∀ v, s'.userManager.location? v = some s'.serverId ↔
      s.userManager.location? v = some s.serverId) : s'.Names := by
  refine ⟨?_, ?_⟩
  · intro v j
    rw [hholds, ← h.byName, ConnectionManager.getSessionByUsername, hname]
    rfl
  · intro v
    simp only [hloc, hholds]
    exact h.located

theorem Names.holder_unique (h : s.Names) {j : ConnRef} (hj : s.Holds j u) (hk : s.Holds k u) :
    j = k := by
  have he := (h.byName.mpr hj).symm.trans (h.byName.mpr hk)
  exact Option.some.inj he

/-- A session is removed after its user's entry, if it has a user. -/
theorem Names.removed {t : ChatServer} (h : s.Names) (hok : s.connManager.Ok)
    (hk : s.connManager.Live k) (hsame : s.connManager.SameSessions t.connManager)
    (hokt : t.connManager.Ok)
    (hloc : ∀ v, t.userManager.location? v = some t.serverId ↔
      ¬ s.Holds k v ∧ s.userManager.location? v = some s.serverId) :
    (t.removed k).Names := by
  have hkt : t.connManager.Live k := (hsame.live k).mpr hk
  have hholds : ∀ j v, (t.removed k).Holds j v ↔ s.Holds j v ∧ j ≠ k := by
    intro j v
    rw [holds_removed hokt hkt, holds_of_sameSessions hsame]
  refine ⟨?_, ?_⟩
  · intro v j
    have hname : t.connManager.getSessionByUsername v = s.connManager.getSessionByUsername v := by
      rw [ConnectionManager.getSessionByUsername, hsame.byUsername]
      rfl
    rw [hholds, ChatServer.removed, onConn_connManager,
      hokt.getSessionByUsername_removeSession hkt, hname, hsame.objects]
    split
    next hv =>
      -- the name was the removed session's, so no other session holds it
      have hkv : s.Holds k v := hv.2 ▸ holds_nameOf hok hk hv.1
      refine ⟨fun hj => ?_, fun hj => absurd (h.holder_unique hj.1 hkv) hj.2⟩
      cases hj
    next hv =>
      rw [h.byName]
      refine ⟨fun hj => ⟨hj, fun hjk => hv ?_⟩, fun hj => hj.1⟩
      subst hjk
      exact ⟨fun he => hj.ne_nil hok (hj.2.2.symm.trans he), hj.2.2.symm⟩
  · intro v
    have hid : (t.removed k).userManager.location? v = some (t.removed k).serverId ↔
        t.userManager.location? v = some t.serverId := Iff.rfl
    rw [hid, hloc, h.located]
    simp only [hholds]
    refine ⟨fun hv => ?_, fun hv => ?_⟩
    · obtain ⟨hnot, j, hj⟩ := hv
      exact ⟨j, hj, fun hjk => hnot (hjk ▸ hj)⟩
    · obtain ⟨j, hj, hne⟩ := hv
      exact ⟨fun hkv => hne (h.holder_unique hj hkv), j, hj⟩

/-- The session of a user ends after its user's entry is gone. -/
theorem Names.ended {t : ChatServer} (h : s.Names) (hok : s.connManager.Ok)
    (hk : s.connManager.Live k) (hn : s.nameOf k ≠ [])
    (hsame : s.connManager.SameSessions t.connManager) (hokt : t.connManager.Ok)
    (hloc : ∀ v, t.userManager.location? v = some t.serverId ↔
      (s.loggedOut k).userManager.location? v = some s.serverId) : (t.removed k).Names := by
  refine h.removed hok hk hsame hokt fun v => ?_
  rw [hloc, loggedOut, onUsers_userManager, UserManager.location?_unregisterUser]
  split
  next hv =>
    refine ⟨fun hl => ?_, fun hl => absurd (hv ▸ holds_nameOf hok hk hn) hl.1⟩
    cases hl
  next hv => exact ⟨fun hl => ⟨fun hh => hv hh.2.2.symm, hl⟩, fun hl => hl.2⟩

/-- A session without a name ends. -/
theorem Names.endedNew (h : s.Names) (hok : s.connManager.Ok) (hk : s.connManager.Live k)
    (hn : s.nameOf k = []) : (s.removed k).Names := by
  refine h.removed hok hk (.refl _) hok fun v => ?_
  refine ⟨fun hv => ⟨fun hh => ?_, hv⟩, fun hv => hv.2⟩
  exact hh.ne_nil hok (hh.2.2.symm.trans hn)

/-- First logins and harmless packets keep the name tables in order. -/
theorem ClientStep.names {pkt out : RawPacket} {ps : List Int} (hs : ClientStep s k pkt s' ps out)
    (h : s.Names) (hok : s.connManager.Ok) (hk : s.connManager.Live k)
    (hf : s.FirstLogin (.packet k pkt)) (hn : s.Harmless (.packet k pkt)) : s'.Names := by
  cases hs with
  | login u ht ha => exact h.loggedIn hk ha (hf ht u ha)
  | firstJoin => exact h.congr (fun _ _ => holds_joined) rfl fun _ => Iff.rfl
  | join => exact h.congr (fun _ _ => holds_joined) rfl fun _ => Iff.rfl
  | lastLeave => exact h.congr (fun _ _ => holds_left) rfl fun _ => Iff.rfl
  | leave => exact h.congr (fun _ _ => holds_left) rfl fun _ => Iff.rfl
  | promote p ht hp =>
      obtain ⟨hpeer, hanon⟩ := hn ht p hp
      rw [promoted, if_neg hpeer]
      exact h.endedNew hok hk ((hok.username_eq_nil_iff k).mpr hanon)
  | _ => exact h

/-! ### A round of sends and the user table -/

/-- A round of sends clears users of peers only. -/
theorem located_dropBroken (hid : s.serverId ∉ s.connManager.peerNodes) (ps : List Int)
    (v : Bytes) :
    (s.dropBroken ps).userManager.location? v = some (s.dropBroken ps).serverId ↔
      s.userManager.location? v = some s.serverId := by
  have hinv : ∀ (s : ChatServer), s.serverId ∉ s.connManager.peerNodes →
      (s.dropBroken ps).connManager.peerNodes = s.connManager.peerNodes ∧
        (s.dropBroken ps).serverId = s.serverId ∧
        ((s.dropBroken ps).userManager.location? v = some s.serverId ↔
          s.userManager.location? v = some s.serverId) := by
    intro s hid
    refine dropBroken_induct (I := fun t => t.connManager.peerNodes = s.connManager.peerNodes ∧
      t.serverId = s.serverId ∧ (t.userManager.location? v = some s.serverId ↔
        s.userManager.location? v = some s.serverId)) ?_ ⟨rfl, rfl, Iff.rfl⟩ ps
    intro t p ht hp hc
    refine ⟨(peerNodes_purgePeer t p).trans ht.1, ht.2.1, ?_⟩
    rw [← ht.2.2, purgePeer, UserManager.location?_clearServerUsers_eq_some]
    refine ⟨fun hv => hv.1, fun hv => ⟨hv, fun he => hid ?_⟩⟩
    rw [he, ← ht.1]
    exact hp
  obtain ⟨-, hsid, hloc⟩ := hinv s hid
  rw [hsid, hloc]

theorem Names.dropBroken (h : s.Names) (hid : s.serverId ∉ s.connManager.peerNodes)
    (ps : List Int) : (s.dropBroken ps).Names :=
  h.congr (fun _ _ => holds_of_sameSessions (sameSessions_dropBroken s ps))
    (sameSessions_dropBroken s ps).byUsername (located_dropBroken hid ps)

/-- First logins and everything but `S2S_CONNECT` keep the name tables in order. -/
theorem Names.move (h : s.Names) (hok : s.connManager.Ok)
    (hid : s.serverId ∉ s.connManager.peerNodes) (hf : s.FirstLogin a) (hn : NoConnect a)
    (hm : ClientMove s a s') : s'.Names := by
  cases hm with
  | connect hfree => exact h.congr (fun _ _ => holds_accepted hok hfree) rfl fun _ => Iff.rfl
  | @packet k pkt _ s' ps hk hs =>
      have hid' : s'.serverId ∉ s'.connManager.peerNodes := by
        rw [hs.same.1, hs.same.2]
        exact hid
      exact (hs.names h hok hk hf (hn.harmless s)).dropBroken hid' ps
  | disconnectNew hk hnew => exact h.endedNew hok hk hnew
  | @disconnect k hk hnew =>
      have hokt := ok_dropBroken (s := s.loggedOut k) hok s.connManager.getAllPeerNodes
      exact h.ended hok hk hnew (sameSessions_dropBroken (s.loggedOut k) _) hokt
        (located_dropBroken (s := s.loggedOut k) hid _)

end

end ChatServer

end DistributedChat
