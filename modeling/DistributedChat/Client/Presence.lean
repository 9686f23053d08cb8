import DistributedChat.Client.ChatClient
import DistributedChat.Logic.Triples
import DistributedChat.Server.Clients
import DistributedChat.Server.Rounds
import DistributedChat.Server.Wiring

/-!
# What clients know of who is online

Four handlers change the user table: a login, the end of a session, a replicated
login or logout, and the purge of a disconnected peer, which any failing send to
a peer may set off.  Each of them ends in a round of `notifyOnlineUsers`, so the
last list of online users a client was sent is the user table (`presence_current`).

`Lasting` names what the rest of the handlers have to respect, and holds of the
two conditions that matter: that the names have no NUL, so that a list can be
read back, and that the lists are current.  A change of the user table keeps the
first and a notification restores the second.
-/

namespace DistributedChat

/-- The names in a list of online users sent to the session, if the output is one. -/
def Effect.onlineList? (k : ConnRef) : Effect → Option (List Bytes)
  | .toSession j pkt =>
      if j = k ∧ pkt.type = .statusUpdate then
        match unpack pkt.payload with
        | category :: names =>
            if category = ascii "STATUS" then some (names.filter fun u => u ≠ []) else none
        | [] => none
      else none
  | .toPeer _ _ _ => none

/-- The output is no list of online users. -/
def Effect.Listless (e : Effect) : Prop := ∀ k, e.onlineList? k = none

theorem Effect.listless_toPeer (p : Int) (sock : ConnRef) (pkt : RawPacket) :
    (Effect.toPeer p sock pkt).Listless := fun _ => rfl

theorem Effect.listless_of_type {t : PacketType} (ht : t ≠ .statusUpdate) (j : ConnRef)
    (pl : Bytes) : (Effect.toSession j ⟨t, pl⟩).Listless :=
  fun _ => if_neg fun h => ht h.2

/-- A status update of another category. -/
theorem Effect.listless_of_category {c : Bytes} (hc : NulFree c) (hne : c ≠ ascii "STATUS")
    (j : ConnRef) (text : Bytes) :
    (Effect.toSession j ⟨.statusUpdate, pack [c, text]⟩).Listless := by
  intro k
  rw [onlineList?]
  split
  · rw [unpack_pack_cons hc]
    exact if_neg hne
  · rfl

/-- The last list of online users sent to a session. -/
def lastOnline (k : ConnRef) (sent : List Effect) : Option (List Bytes) :=
  (sent.filterMap (Effect.onlineList? k)).getLast?

theorem lastOnline_append_of_listless {out : List Effect} (h : ∀ e ∈ out, e.Listless)
    (k : ConnRef) (sent : List Effect) : lastOnline k (sent ++ out) = lastOnline k sent := by
  have hnone : out.filterMap (Effect.onlineList? k) = [] :=
    List.filterMap_eq_nil_iff.mpr fun e he => h e he k
  rw [lastOnline, List.filterMap_append, hnone, List.append_nil, lastOnline]

namespace ChatServer

open Prog (observe update each Triple Preserves triple_pure triple_observe triple_update)

/-- The names in the user table have no NUL. -/
def Readable (s : ChatServer) : Prop := ∀ u, s.userManager.isUserOnline u = true → NulFree u

/-- `Readable` as a condition on a state and what was sent. -/
abbrev Legible (s : ChatServer) (_ : List Effect) : Prop := s.Readable

/-- The session was last sent the names that are now in the user table. -/
def Informed (s : ChatServer) (sent : List Effect) (k : ConnRef) : Prop :=
  ∃ names, lastOnline k sent = some names ∧
    ∀ u, u ∈ names ↔ u ≠ [] ∧ s.userManager.isUserOnline u = true

/-- The names are readable, and every authenticated session is informed. -/
structure Current (s : ChatServer) (sent : List Effect) : Prop where
  readable : s.Readable
  informed : ∀ k, s.connManager.Live k → s.Authenticated k → s.Informed sent k

/-- The change logs nobody in or out and adds no session to those that are to be informed. -/
structure Narrows (s s' : ChatServer) : Prop where
  users : s'.userManager = s.userManager
  live : ∀ k, s'.connManager.Live k → s.connManager.Live k
  auth : ∀ k, s'.Authenticated k → s.Authenticated k

section

variable {s s' : ChatServer} {sent : List Effect} {k : ConnRef}

theorem Narrows.readable (h : Narrows s s') (hs : s.Readable) : s'.Readable := by
  intro u hu
  rw [h.users] at hu
  exact hs u hu

theorem Narrows.current (h : Narrows s s') (hs : s.Current sent) : s'.Current sent where
  readable := h.readable hs.readable
  informed := by
    intro k hk ha
    rw [Informed, h.users]
    exact hs.informed k (h.live k hk) (h.auth k ha)

/-- Changes of sockets, links and rooms. -/
theorem narrows_onConn {f : ConnectionManager → ConnectionManager}
    (hf : s.connManager.SameSessions (f s.connManager)) : Narrows s (s.onConn f) where
  users := rfl
  live := fun k => (hf.live k).mp
  auth := fun k hk => by
    rw [Authenticated, onConn_connManager, hf.objects] at hk
    exact hk

theorem narrows_onRooms (f : ChatRoomManager → ChatRoomManager) : Narrows s (s.onRooms f) :=
  ⟨rfl, fun _ h => h, fun _ h => h⟩

/-! ## Notifications -/

/-- The list of online users is read back by the session it is sent to. -/
theorem onlineList?_onlinePacket (hs : s.Readable) (j : ConnRef) :
    Effect.onlineList? k (.toSession j s.onlinePacket) =
      if j = k then some (s.userManager.getOnlineUsers.filter fun u => u ≠ []) else none := by
  have hread := unpack_onlinePacket s fun u hu => hs u (UserManager.mem_getOnlineUsers.mp hu)
  have htype : s.onlinePacket.type = .statusUpdate := rfl
  simp [Effect.onlineList?, hread, htype]

/-- A round of notifications informs the sessions it goes to. -/
theorem informed_of_notified (hs : s.Readable) {skip : Option SOCKET} (hk : k ∈ s.notified skip) :
    s.Informed (sent ++ (s.notified skip).map fun j => .toSession j s.onlinePacket) k := by
  let names := s.userManager.getOnlineUsers.filter fun u => u ≠ []
  have hlists : ((s.notified skip).map fun j => Effect.toSession j s.onlinePacket).filterMap
      (Effect.onlineList? k) = ((s.notified skip).filter (· = k)).map fun _ => names := by
    induction s.notified skip with
    | nil => rfl
    | cons j js ih =>
        rw [List.map_cons, List.filterMap_cons, onlineList?_onlinePacket hs, ih, List.filter_cons]
        by_cases hj : j = k <;> simp [hj, names]
  have hlen : ((s.notified skip).filter (· = k)).length ≠ 0 := by
    intro h
    have hmem : k ∈ (s.notified skip).filter (· = k) :=
      List.mem_filter.mpr ⟨hk, decide_eq_true rfl⟩
    rw [List.length_eq_zero_iff.mp h] at hmem
    exact List.not_mem_nil hmem
  refine ⟨names, ?_, fun u => ?_⟩
  · rw [lastOnline, List.filterMap_append, hlists, List.map_const', List.getLast?_append,
      List.getLast?_replicate, if_neg hlen]
    rfl
  · simp [names, UserManager.mem_getOnlineUsers, and_comm]

theorem mem_notified {skip : Option SOCKET} : k ∈ s.notified skip ↔ s.connManager.Live k ∧
    s.Authenticated k ∧ skip ≠ some (s.connManager.getHandle k) := by
  rw [notified, List.mem_filterMap]
  constructor
  · rintro ⟨j, hj, he⟩
    split at he
    next h =>
      cases he
      exact ⟨hj, h⟩
    · cases he
  · rintro ⟨hk, h⟩
    exact ⟨k, hk, if_pos h⟩

/-- Who is not skipped is informed by a round of notifications. -/
theorem triple_notifyOnlineUsers (skip : Option SOCKET) :
    Triple Legible (notifyOnlineUsers skip) fun _ s sent => s.Readable ∧
      ∀ k, s.connManager.Live k → s.Authenticated k → skip ≠ some (s.connManager.getHandle k) →
        s.Informed sent k := by
  intro s sent hs
  rw [run_notifyOnlineUsers]
  exact ⟨hs, fun k hk ha hne => informed_of_notified hs (mem_notified.mpr ⟨hk, ha, hne⟩)⟩

/-- After a round that skips nobody, everybody is informed. -/
theorem current_notifyOnlineUsers :
    Triple Legible (notifyOnlineUsers none) fun _ => Current :=
  (triple_notifyOnlineUsers none).post fun _ _ _ h =>
    ⟨h.1, fun k hk ha => h.2 k hk ha (Option.some_ne_none _).symm⟩

end

/-! ## What the handlers respect -/

/-- A condition that says no less than that the names are readable and no more than that the
lists are current, and that lasts while neither is touched. -/
structure Lasting (J : ChatServer → List Effect → Prop) : Prop where
  readable : ∀ {s sent}, J s sent → s.Readable
  of_current : ∀ {s sent}, s.Current sent → J s sent
  listless : ∀ {s sent out}, J s sent → (∀ e ∈ out, Effect.Listless e) → J s (sent ++ out)
  narrows : ∀ {s s' sent}, J s sent → Narrows s s' → J s' sent

theorem lasting_legible : Lasting Legible where
  readable := id
  of_current := Current.readable
  listless := fun h _ => h
  narrows := fun h hn => hn.readable h

theorem lasting_current : Lasting Current where
  readable := Current.readable
  of_current := id
  listless := by
    intro s sent out h hout
    refine ⟨h.readable, fun k hk ha => ?_⟩
    rw [Informed, lastOnline_append_of_listless hout]
    exact h.informed k hk ha
  narrows := fun h hn => hn.current h

section

variable {J : ChatServer → List Effect → Prop} (hJ : Lasting J)

include hJ

theorem keeps_sendPacket {k : ConnRef} {t : PacketType} {pl : Bytes}
    (h : (Effect.toSession k ⟨t, pl⟩).Listless) : Preserves J (sendPacket k t pl) := by
  intro s sent hs
  refine hJ.listless hs fun e he => ?_
  rw [List.mem_singleton.mp he]
  exact h

theorem keeps_reply {k : ConnRef} {t : PacketType} {pl : Bytes}
    (h : (Effect.toSession k ⟨t, pl⟩).Listless) :
    Preserves J (sendPacket k t pl >>= fun _ => pure ()) :=
  Triple.bind (keeps_sendPacket hJ h) fun _ => triple_pure fun _ _ hs => hs

theorem keeps_sendFrame (p : Int) (k : ConnRef) (t : PacketType) (pl : Bytes) :
    Preserves J (sendFrame p k t pl) := by
  intro s sent hs
  refine hJ.listless hs fun e he => ?_
  simp only [sendFrame, Prog.run, List.append_nil] at he
  split at he
  · rw [List.mem_singleton.mp he]
    exact Effect.listless_toPeer p k _
  · exact absurd he List.not_mem_nil

/-- Sections that make no session live or authenticated. -/
theorem keeps_onConn {f : ConnectionManager → ConnectionManager}
    (hlive : ∀ m k, (f m).Live k → ConnectionManager.Live m k)
    (hauth : ∀ m k, ((f m).sessions k).isAuthenticated = true →
      (m.sessions k).isAuthenticated = true) : Preserves J (update (onConn f)) :=
  triple_update fun s _ hs => hJ.narrows hs
    ⟨rfl, fun k => hlive s.connManager k, fun k => hauth s.connManager k⟩

/-- Sections on sockets and links. -/
theorem keeps_onLinks {f : Nat → ConnectionManager → ConnectionManager}
    (hf : ∀ now m, ConnectionManager.SameSessions m (f now m)) :
    Preserves J (update fun s => s.onConn (f s.now)) :=
  triple_update fun s _ hs => hJ.narrows hs (narrows_onConn (hf s.now s.connManager))

theorem keeps_onRooms (f : ChatRoomManager → ChatRoomManager) :
    Preserves J (update (onRooms f)) :=
  triple_update fun _ _ hs => hJ.narrows hs (narrows_onRooms f)

/-- A purge makes the lists stale, and the notification after it makes them current. -/
theorem keeps_handlePeerDisconnect (p : Int) : Preserves J (handlePeerDisconnect p) := by
  have hpurge : Preserves J (do
      update fun s => s.onConn (·.unregisterPeerSocket p s.now)
      update (onUsers (·.clearServerUsers p))
      update (onRooms (·.clearServerMemberships p))
      notifyOnlineUsers none) := by
    refine Triple.bind (keeps_onLinks hJ (f := fun now m => m.unregisterPeerSocket p now) ?_)
      fun _ => Triple.bind (K := fun _ => Legible) (triple_update fun s _ hs => ?_) fun _ =>
        Triple.bind (keeps_onRooms lasting_legible _) fun _ =>
          current_notifyOnlineUsers.post fun _ _ _ hs => hJ.of_current hs
    · intro now m
      simp only [ConnectionManager.unregisterPeerSocket]
      split <;> exact ⟨rfl, rfl, rfl, rfl, rfl⟩
    · intro u hu
      refine hJ.readable hs u ?_
      obtain ⟨i, hi⟩ := Option.isSome_iff_exists.mp hu
      exact Option.isSome_iff_exists.mpr ⟨i, (UserManager.location?_clearServerUsers_eq_some.mp hi).1⟩
  refine triple_observe fun peer => triple_observe fun connected => Triple.ite (fun _ => ?_)
    fun _ => triple_pure fun _ _ hs => hs
  refine triple_observe fun socket => ?_
  cases socket with
  | none => exact hpurge
  | some k =>
      exact Triple.bind (keeps_onLinks hJ (f := fun _ m => m.closeSocket k)
        fun _ _ => ⟨rfl, rfl, rfl, rfl, rfl⟩) fun _ => hpurge

theorem keeps_sendOrDisconnect (p : Int) (t : PacketType) (pl : Bytes) :
    Preserves J (sendOrDisconnect p t pl) := by
  refine triple_observe fun socket => ?_
  cases socket with
  | none => exact triple_pure fun _ _ hs => hs
  | some k =>
      exact Triple.bind (keeps_sendFrame hJ p k t pl) fun _ => Triple.ite
        (fun _ => triple_pure fun _ _ hs => hs) fun _ => keeps_handlePeerDisconnect hJ p

theorem keeps_sendToPeer (p : Int) (t : PacketType) (pl : Bytes) :
    Preserves J (sendToPeer p t pl) :=
  triple_observe fun _ => Triple.ite (fun _ => keeps_sendOrDisconnect hJ p t pl)
    fun _ => triple_pure fun _ _ hs => hs

theorem keeps_broadcastS2S (t : PacketType) (pl : Bytes) : Preserves J (broadcastS2S t pl) :=
  triple_observe fun ps => Triple.each (fun p => keeps_sendToPeer hJ p t pl) ps

theorem keeps_sendToMembers (names : List Bytes) {t : PacketType} {pl : Bytes}
    (h : ∀ k, (Effect.toSession k ⟨t, pl⟩).Listless) : Preserves J (sendToMembers names t pl) := by
  refine Triple.each (fun name => triple_observe fun session => ?_) names
  cases session with
  | none => exact triple_pure fun _ _ hs => hs
  | some k => exact keeps_reply hJ (h k)

theorem keeps_sendToAuthenticated {t : PacketType} (ht : t ≠ .statusUpdate) (pl : Bytes) :
    Preserves J (sendToAuthenticated t pl) :=
  triple_observe fun sessions => Triple.each (fun k => triple_observe fun _ => Triple.ite
    (fun _ => keeps_reply hJ (Effect.listless_of_type ht k pl))
    fun _ => triple_pure fun _ _ hs => hs) sessions

end

/-! ## The handlers -/

/-- A section that leaves the user table alone. -/
theorem readable_update {f : ChatServer → ChatServer}
    (hf : ∀ s, (f s).userManager = s.userManager) :
    Preserves Legible (update f) :=
  triple_update fun s _ hs u hu => hs u (by rwa [hf] at hu)

/-- The login of a name without NUL. -/
theorem readable_registerUser {u : Bytes} (hu : NulFree u) {f : ChatServer → Int} :
    Preserves Legible (update fun s => s.onUsers (·.registerUser u (f s))) := by
  refine triple_update fun s _ hs v hv => ?_
  change ((s.userManager.registerUser u (f s)).location? v).isSome = true at hv
  rw [UserManager.location?_registerUser] at hv
  split at hv
  next he => exact he ▸ hu
  next => exact hs v hv

theorem readable_unregisterUser (u : Bytes) :
    Preserves Legible (update (onUsers (·.unregisterUser u))) := by
  refine triple_update fun s _ hs v hv => ?_
  change ((s.userManager.unregisterUser u).location? v).isSome = true at hv
  rw [UserManager.location?_unregisterUser] at hv
  split at hv
  · cases hv
  · exact hs v hv

theorem current_handleLogin (k : ConnRef) (payload : Bytes) :
    Preserves Current (handleLogin k payload) := by
  have hrefuse : ∀ pl, Preserves Current (sendPacket k .loginResp pl >>= fun _ => pure ()) :=
    fun pl => keeps_reply lasting_current (Effect.listless_of_type PacketType.noConfusion k pl)
  refine Triple.ite (fun _ => hrefuse _) fun hu => triple_observe fun online =>
    Triple.ite (fun _ => hrefuse _) fun _ => ?_
  have hfree : NulFree (trim payload) := fun hmem => hu (.inr (.inl hmem))
  refine Triple.pre (J := Legible) ?_ fun _ _ hs => hs.readable
  exact Triple.bind (readable_registerUser hfree) fun _ =>
    Triple.bind (readable_update fun _ => rfl) fun _ =>
      Triple.bind (keeps_sendPacket lasting_legible
        (Effect.listless_of_type PacketType.noConfusion k _)) fun _ =>
          Triple.bind (triple_observe fun id => keeps_broadcastS2S lasting_legible _ _) fun _ =>
            current_notifyOnlineUsers

/-- The reply of a handler to its client. -/
theorem current_reply {c : Bytes} (hc : NulFree c) (hne : c ≠ ascii "STATUS") (k : ConnRef)
    (text : Bytes) :
    Preserves Current (sendPacket k .statusUpdate (pack [c, text]) >>= fun _ => pure ()) :=
  keeps_reply lasting_current (Effect.listless_of_category hc hne k text)

theorem current_handlePrivateMsg (k : ConnRef) (payload : Bytes) :
    Preserves Current (handlePrivateMsg k payload) := by
  rw [handlePrivateMsg]
  split
  next receiver text fields hu =>
    refine triple_observe fun sender => triple_observe fun location => triple_observe fun id =>
      Triple.ite (fun _ => triple_observe fun target => ?_) fun _ => Triple.ite (fun _ => ?_)
        fun _ => current_reply (by decide) (by decide) k _
    · cases target with
      | none => exact triple_pure fun _ _ hs => hs
      | some t =>
          exact Triple.bind (keeps_sendPacket lasting_current
            (Effect.listless_of_type PacketType.noConfusion t _)) fun _ =>
              current_reply (by decide) (by decide) k _
    · refine Triple.bind (triple_observe fun peer => Triple.ite
        (fun _ => keeps_sendToPeer lasting_current _ _ _) fun _ => triple_pure fun _ _ hs => hs)
        fun _ => current_reply (by decide) (by decide) k _
  next => exact triple_pure fun _ _ hs => hs

theorem current_handleRoomMsg (k : ConnRef) (payload : Bytes) :
    Preserves Current (handleRoomMsg k payload) := by
  rw [handleRoomMsg]
  split
  next room text fields hu =>
    refine triple_observe fun sender => triple_observe fun joined => Triple.ite (fun _ => ?_)
      fun _ => current_reply (by decide) (by decide) k _
    exact triple_observe fun locals => Triple.bind (keeps_sendToMembers lasting_current locals
      fun j => Effect.listless_of_type PacketType.noConfusion j _) fun _ => triple_observe
        fun ps => Triple.each (fun p => triple_observe fun peer => Triple.ite
          (fun _ => keeps_sendToPeer lasting_current p _ _) fun _ => triple_pure fun _ _ hs => hs) ps
  next => exact triple_pure fun _ _ hs => hs

theorem current_handleBroadcastMsg (k : ConnRef) (payload : Bytes) :
    Preserves Current (handleBroadcastMsg k payload) :=
  triple_observe fun _ => Triple.bind
    (keeps_sendToAuthenticated lasting_current PacketType.noConfusion _)
      fun _ => keeps_broadcastS2S lasting_current _ _

theorem current_handleRoomJoin (k : ConnRef) (payload : Bytes) :
    Preserves Current (handleRoomJoin k payload) := by
  refine triple_observe fun username => Triple.ite (fun _ => triple_pure fun _ _ hs => hs)
    fun _ => ?_
  refine Triple.bind (keeps_onConn lasting_current (f := (·.joinRoom k (trim payload)))
    (fun _ _ => id) fun m j hj => ?_) fun _ => triple_observe fun before =>
      Triple.bind (keeps_onRooms lasting_current _) fun _ => Triple.bind
        (keeps_sendPacket lasting_current (Effect.listless_of_category (by decide) (by decide) k _))
          fun _ => triple_observe fun locals => Triple.bind (keeps_sendToMembers lasting_current
            locals fun j => Effect.listless_of_category (by decide) (by decide) j _) fun _ =>
              Triple.ite (fun _ => triple_observe fun id => keeps_broadcastS2S lasting_current _ _)
                fun _ => triple_pure fun _ _ hs => hs
  rw [ConnectionManager.sessions_joinRoom] at hj
  split at hj
  next he => exact he ▸ hj
  next => exact hj

theorem current_handleRoomLeave (k : ConnRef) (payload : Bytes) :
    Preserves Current (handleRoomLeave k payload) := by
  refine triple_observe fun username => triple_observe fun joined =>
    Triple.ite (fun _ => triple_pure fun _ _ hs => hs) fun _ => ?_
  refine Triple.bind (keeps_onConn lasting_current (f := (·.leaveRoom k (trim payload)))
    (fun _ _ => id) fun m j hj => ?_) fun _ =>
      Triple.bind (keeps_onRooms lasting_current _) fun _ => Triple.bind
        (keeps_sendPacket lasting_current (Effect.listless_of_category (by decide) (by decide) k _))
          fun _ => triple_observe fun locals => Triple.bind (keeps_sendToMembers lasting_current
            locals fun j => Effect.listless_of_category (by decide) (by decide) j _) fun _ =>
              Triple.ite (fun _ => triple_observe fun id => keeps_broadcastS2S lasting_current _ _)
                fun _ => triple_pure fun _ _ hs => hs
  rw [ConnectionManager.sessions_leaveRoom] at hj
  split at hj
  next he => exact he ▸ hj
  next => exact hj

/-- Registering a socket for a peer. -/
theorem sameSessions_registerPeerSocket (m : ConnectionManager) (p : Int) (k : ConnRef)
    (now : Nat) : m.SameSessions (m.registerPeerSocket p k now) := by
  rw [ConnectionManager.registerPeerSocket]
  split <;> exact ⟨rfl, rfl, rfl, rfl, rfl⟩

/-- A promoted session is one less to be informed. -/
theorem current_promote (k : ConnRef) (payload : Bytes) : Preserves Current (promote k payload) := by
  rw [promote]
  cases stoi payload with
  | none => exact triple_pure fun _ _ hs => hs
  | some p =>
      refine triple_observe fun handle => Triple.bind (keeps_onConn lasting_current
        (f := (·.removeSession handle)) (fun _ _ => ConnectionManager.live_of_live_removeSession)
          fun m j hj => ?_) fun _ => Triple.bind (keeps_onLinks lasting_current
            (f := fun now m => m.registerPeerSocket p k now) fun now m =>
              sameSessions_registerPeerSocket m p k now) fun _ => triple_observe fun node =>
                Triple.ite (fun _ => ?_) fun _ => triple_pure fun _ _ hs => hs
      · rwa [ConnectionManager.sessions_removeSession] at hj
      · exact Triple.bind (keeps_onLinks lasting_current (f := fun _ m => m.setConnected p true)
          fun _ _ => ⟨rfl, rfl, rfl, rfl, rfl⟩) fun _ => keeps_onLinks lasting_current
            (f := fun now m => m.updateHeartbeat p now) fun _ _ => ⟨rfl, rfl, rfl, rfl, rfl⟩

theorem current_handleClientPacket (k : ConnRef) (pkt : RawPacket) :
    Preserves Current (handleClientPacket k pkt) := by
  refine triple_observe fun authenticated => Triple.ite (fun _ => ?_) fun _ => ?_
  · exact keeps_reply lasting_current (Effect.listless_of_type PacketType.noConfusion k _)
  · cases pkt.type with
    | login => exact current_handleLogin k _
    | msgPrivate => exact current_handlePrivateMsg k _
    | msgRoom => exact current_handleRoomMsg k _
    | msgBroadcast => exact current_handleBroadcastMsg k _
    | roomJoin => exact current_handleRoomJoin k _
    | roomLeave => exact current_handleRoomLeave k _
    | roomCreate =>
        exact Triple.ite (fun _ => triple_pure fun _ _ hs => hs)
          fun _ => current_reply (by decide) (by decide) k _
    | s2sConnect => exact current_promote k _
    | _ => exact triple_pure fun _ _ hs => hs

/-- A replicated login or logout is followed by a notification. -/
theorem current_handleS2SReplicateUser (payload : Bytes) :
    Preserves Current (handleS2SReplicateUser payload) := by
  rw [handleS2SReplicateUser]
  split
  next username id online fields hu =>
    split
    · exact triple_pure fun _ _ hs => hs
    next i hi =>
      have hfree : NulFree username := nulFree_of_mem_unpack (hu ▸ List.mem_cons_self ..)
      have hstart : ∀ s sent, Current s sent → Legible s sent := fun _ _ hs => hs.readable
      refine Triple.ite (fun _ => Triple.bind (K := fun _ => Legible) ?_ fun _ =>
        current_notifyOnlineUsers) fun _ => Triple.bind (K := fun _ => Legible) ?_ fun _ =>
          current_notifyOnlineUsers
      · exact (readable_registerUser hfree (f := fun _ => i)).pre hstart
      · exact (readable_unregisterUser username).pre hstart
  next => exact triple_pure fun _ _ hs => hs

theorem current_handleServerPacket (p : Int) (pkt : RawPacket) :
    Preserves Current (handleServerPacket p pkt) := by
  refine Triple.bind (keeps_onLinks lasting_current (f := fun now m => m.updateHeartbeat p now)
    fun _ _ => ⟨rfl, rfl, rfl, rfl, rfl⟩) fun _ => ?_
  cases pkt.type with
  | s2sHeartbeat =>
      refine triple_observe fun id => triple_observe fun socket => ?_
      cases socket with
      | none => exact triple_pure fun _ _ hs => hs
      | some k =>
          exact Triple.bind (keeps_sendFrame lasting_current p k _ _)
            fun _ => triple_pure fun _ _ hs => hs
  | s2sReplicateUser => exact current_handleS2SReplicateUser _
  | s2sRouteMsg =>
      show Preserves Current (handleS2SRouteMsg pkt.payload)
      rw [handleS2SRouteMsg]
      split
      next sender receiver text hu =>
        refine triple_observe fun session => ?_
        cases session with
        | none => exact triple_pure fun _ _ hs => hs
        | some t =>
            exact keeps_reply lasting_current (Effect.listless_of_type PacketType.noConfusion t _)
      next => exact keeps_sendToAuthenticated lasting_current PacketType.noConfusion _
      next => exact triple_pure fun _ _ hs => hs
  | s2sRouteRoomMsg =>
      show Preserves Current (handleS2SRouteRoomMsg pkt.payload)
      rw [handleS2SRouteRoomMsg]
      split
      next =>
        exact triple_observe fun locals => keeps_sendToMembers lasting_current locals
          fun j => Effect.listless_of_type PacketType.noConfusion j _
      next => exact triple_pure fun _ _ hs => hs
  | s2sRoomMemberSync =>
      show Preserves Current (handleS2SRoomMemberSync pkt.payload)
      rw [handleS2SRoomMemberSync]
      split
      next room id active fields hu =>
        split
        · exact triple_pure fun _ _ hs => hs
        · exact Triple.ite (fun _ => keeps_onRooms lasting_current _)
            fun _ => keeps_onRooms lasting_current _
      next => exact triple_pure fun _ _ hs => hs
  | _ => exact triple_pure fun _ _ hs => hs

theorem current_heartbeatRound : Preserves Current heartbeatRound := by
  refine triple_observe fun peers => triple_observe fun now => Triple.each (fun p => ?_) peers
  refine triple_observe fun node => Triple.ite (fun _ => Triple.ite (fun _ => ?_) fun _ => ?_)
    fun _ => triple_pure fun _ _ hs => hs
  · exact keeps_handlePeerDisconnect lasting_current p
  · exact triple_observe fun id => keeps_sendOrDisconnect lasting_current p _ _

theorem current_peerConnected (p : Int) (sock : ConnRef) :
    Preserves Current (peerConnected p sock) :=
  Triple.bind (keeps_onLinks lasting_current (f := fun now m => m.registerPeerSocket p sock now)
    fun now m => sameSessions_registerPeerSocket m p sock now) fun _ =>
    Triple.bind (keeps_onLinks lasting_current (f := fun _ m => m.setConnected p true)
      fun _ _ => ⟨rfl, rfl, rfl, rfl, rfl⟩) fun _ =>
      Triple.bind (keeps_onLinks lasting_current (f := fun now m => m.updateHeartbeat p now)
        fun _ _ => ⟨rfl, rfl, rfl, rfl, rfl⟩) fun _ => triple_observe fun _ =>
          Triple.bind (keeps_sendFrame lasting_current p sock _ _)
            fun _ => triple_pure fun _ _ hs => hs

/-! ## Connections that come and go -/

section

variable {s : ChatServer} {sent : List Effect} {k : ConnRef}

theorem current_acceptConnection (hs : s.Current sent) {handle : SOCKET}
    (hf : s.connManager.FreeHandle handle) :
    (s.onConn (·.accepted handle)).Current sent where
  readable := hs.readable
  informed := by
    intro j hj ha
    obtain ⟨hne, ha⟩ := authenticated_accepted.mp ha
    rcases (ConnectionManager.live_accepted hf).mp hj with he | hj
    · exact absurd he hne
    · exact hs.informed j hj ha

/-- The end of a session is notified to those whose handles are not its own, which are all
that are left. -/
theorem current_clientDisconnect (k : ConnRef) (hs : s.Current sent)
    (hwired : ((clientDisconnect k).run s).state.connManager.Wired) :
    ((clientDisconnect k).run s).state.Current (sent ++ ((clientDisconnect k).run s).out) := by
  have hremoved : ∀ t : ChatServer, ∀ h, Narrows t (t.onConn (·.removeSession h)) := fun t h =>
    ⟨rfl, fun _ => ConnectionManager.live_of_live_removeSession, fun j hj => by
      rwa [Authenticated, onConn_connManager, ConnectionManager.sessions_removeSession] at hj⟩
  let handle := s.connManager.getHandle k
  by_cases hn : s.nameOf k = []
  · have hrun : (clientDisconnect k).run s = ⟨(), s.onConn (·.removeSession handle), []⟩ := by
      rw [nameOf] at hn
      simp [clientDisconnect, hn, handle]
    rw [hrun, List.append_nil]
    exact (hremoved s handle).current hs
  · let notice : ServerProg Unit := do
      update (onUsers (·.unregisterUser (s.nameOf k)))
      replicateUserLogout (s.nameOf k)
      notifyOnlineUsers (some handle)
    have hrun : (clientDisconnect k).run s =
        ⟨(), (notice.run s).state.onConn (·.removeSession handle), (notice.run s).out⟩ := by
      rw [nameOf] at hn
      simp [clientDisconnect, hn, notice, handle, nameOf]
    have hnotice : Triple Legible notice fun _ t sent' => t.Readable ∧
        ∀ j, t.connManager.Live j → t.Authenticated j →
          some handle ≠ some (t.connManager.getHandle j) → t.Informed sent' j :=
      Triple.bind (readable_unregisterUser _) fun _ => Triple.bind
        (triple_observe fun id => keeps_broadcastS2S lasting_legible _ _)
          fun _ => triple_notifyOnlineUsers (some handle)
    obtain ⟨hread, hinformed⟩ := hnotice s sent hs.readable
    rw [hrun] at hwired
    rw [hrun]
    have hleft := hremoved (notice.run s).state handle
    refine ⟨hread, fun j hj ha => ?_⟩
    have hne := ConnectionManager.getHandle_ne_of_live_removeSession hwired hj
    exact hinformed j (hleft.live j hj) (hleft.auth j ha) fun he => hne (Option.some.inj he).symm

end

/-- Every piece of work leaves the lists current, as long as the map of sessions is right. -/
theorem current_prog {w : Work} {s : ChatServer} {sent : List Effect} (hs : s.Current sent)
    (hwired : (w.prog.run s).state.connManager.Wired) :
    (w.prog.run s).state.Current (sent ++ (w.prog.run s).out) := by
  cases w with
  | task t =>
      cases t with
      | client k pkt => exact current_handleClientPacket k pkt s sent hs
      | peer p k pkt => exact current_handleServerPacket p pkt s sent hs
  | clientGone k => exact current_clientDisconnect k hs hwired
  | peerGone p => exact keeps_handlePeerDisconnect lasting_current p s sent hs
  | heartbeats => exact current_heartbeatRound s sent hs
  | connected p sock => exact current_peerConnected p sock s sent hs

end ChatServer

/-! ## A server that handles one thing at a time -/

/-- A server and what it has sent. -/
structure Watch where
  server : ChatServer
  sent : List Effect := []

/-- What happens to a server. -/
inductive Incident where
  /-- A client connects. -/
  | accept (handle : SOCKET)
  /-- A packet that was read from a client is handled. -/
  | clientPacket (k : ConnRef) (pkt : RawPacket)
  /-- A read from a client has failed. -/
  | clientGone (k : ConnRef)
  /-- A packet that was read from the socket `k` of a peer is handled. -/
  | peerPacket (p : Int) (k : ConnRef) (pkt : RawPacket)
  /-- A read from a peer has failed. -/
  | peerGone (p : Int)
  /-- The heartbeat loop goes round at a time. -/
  | heartbeats (now : Nat)
  /-- The connector connects to a peer. -/
  | connect (p : Int) (handle : SOCKET)
  /-- The network takes no more frames on a socket. -/
  | cutOff (k : ConnRef)

namespace Watch

open ChatServer

/-- The program is run to its end. -/
def perform (c : Watch) (prog : ServerProg Unit) : Watch :=
  ⟨(prog.run c.server).state, c.sent ++ (prog.run c.server).out⟩

def next (c : Watch) : Incident → Option Watch
  | .accept handle =>
      if c.server.connManager.FreeHandle handle then some (c.perform (acceptConnection handle))
      else none
  | .clientPacket k pkt =>
      if k < c.server.connManager.nextConn then some (c.perform (Work.task (.client k pkt)).prog)
      else none
  | .clientGone k => some (c.perform (Work.clientGone k).prog)
  | .peerPacket p k pkt => some (c.perform (Work.task (.peer p k pkt)).prog)
  | .peerGone p => some (c.perform (Work.peerGone p).prog)
  | .heartbeats now =>
      some (perform { c with server := { c.server with now := now } } Work.heartbeats.prog)
  | .connect p handle => some (c.perform (connectPeer p handle))
  | .cutOff k => some { c with server := c.server.cutOff k }

/-- The sessions are filed rightly and the lists of online users are current. -/
structure Fresh (c : Watch) : Prop where
  wired : c.server.connManager.Wired
  current : c.server.Current c.sent

section

variable {c c' : Watch} {a : Incident}

/-- A piece of work about sockets that exist. -/
theorem Fresh.perform (h : c.Fresh) {w : Work}
    (hclient : ∀ {k pkt}, w = .task (.client k pkt) → k < c.server.connManager.nextConn)
    (hconn : ∀ {p k}, w = .connected p k →
      k < c.server.connManager.nextConn ∧ ¬ c.server.connManager.Live k) :
    (c.perform w.prog).Fresh := by
  have hwired := wired_prog h.wired hclient hconn
  exact ⟨hwired, current_prog h.current hwired⟩

/-- A new socket for a peer. -/
theorem Fresh.connect (h : c.Fresh) (p : Int) (handle : SOCKET) :
    (c.perform (connectPeer p handle)).Fresh := by
  by_cases hp : c.server.connManager.hasPeerNode p = true ∧
      (c.server.connManager.nodes p).isConnected = false
  · let made : Watch := { c with server := c.server.onConn (·.newSocket handle) }
    have hmade : made.Fresh := by
      have hnew : Narrows c.server made.server :=
        ⟨rfl, fun _ => id, fun j hj => ((authenticated_newSocket (h := handle) rfl).mp hj).2⟩
      exact ⟨h.wired.newSocket handle, hnew.current h.current⟩
    have hnew : ¬ c.server.connManager.Live c.server.connManager.nextConn :=
      fun hk => Nat.lt_irrefl _ (h.wired.live_lt hk)
    have hrun := run_connectPeer_of_down hp.1 hp.2 handle
    rw [Watch.perform, hrun]
    refine Fresh.perform hmade (w := .connected p c.server.connManager.nextConn)
      (fun hw => nomatch hw) fun hw => ?_
    cases hw
    exact ⟨Nat.lt_succ_self _, hnew⟩
  · have hrun : (connectPeer p handle).run c.server = ⟨(), c.server, []⟩ := by
      simp [connectPeer, hp]
    rw [Watch.perform, hrun, List.append_nil]
    exact h

theorem Fresh.next (h : c.Fresh) (hn : c.next a = some c') : c'.Fresh := by
  cases a with
  | accept handle =>
      obtain ⟨hf, heq⟩ := Option.ite_none_right_eq_some.mp hn
      cases heq
      rw [Watch.perform, run_acceptConnection, List.append_nil]
      exact ⟨h.wired.accepted hf, current_acceptConnection h.current hf⟩
  | clientPacket k pkt =>
      obtain ⟨hk, heq⟩ := Option.ite_none_right_eq_some.mp hn
      cases heq
      refine h.perform (fun hw => ?_) fun hw => nomatch hw
      cases hw
      exact hk
  | clientGone k | peerPacket p k pkt | peerGone p =>
      cases hn
      exact h.perform (fun hw => nomatch hw) fun hw => nomatch hw
  | heartbeats now =>
      cases hn
      have hlater : Fresh { c with server := { c.server with now := now } } :=
        ⟨h.wired, h.current.readable, h.current.informed⟩
      exact hlater.perform (fun hw => nomatch hw) fun hw => nomatch hw
  | connect p handle =>
      cases hn
      exact h.connect p handle
  | cutOff k =>
      cases hn
      have hwired : (c.server.cutOff k).connManager.Wired :=
        h.wired.relinked rfl (getHandle_cutOff c.server k) rfl Or.inl
      exact ⟨hwired, h.current.readable, h.current.informed⟩

end

theorem fresh_configured (id : Int) (peers : List Int) :
    Fresh { server := configured id peers } where
  wired := (ok_configured id peers).wired
  current :=
    ⟨(fun _ hu => nomatch hu), fun k hk _ => absurd hk (not_live_configured id peers k)⟩

/-- **Current presence.**  After every step of a server that handles one thing at a
time, the last list of online users sent to an authenticated session has the
non-empty names in the user table. -/
theorem presence_current (id : Int) (peers : List Int) {as : List Incident} {c : Watch}
    (hrun : exec next { server := configured id peers } as = some c) {k : ConnRef}
    (hk : c.server.connManager.Live k) (ha : c.server.Authenticated k) :
    ∃ names, lastOnline k c.sent = some names ∧
      ∀ u, u ∈ names ↔ u ≠ [] ∧ c.server.userManager.isUserOnline u = true :=
  (exec_invariant Fresh.next (fresh_configured id peers) hrun).current.informed k hk ha

/-- `ann` logs in, peer 2 replicates the login of `bob`, and the link to peer 2 is lost. -/
def annOnline : List Incident :=
  [.accept 5, .clientPacket 0 ⟨.login, ascii "ann"⟩, .connect 2 6,
    .peerPacket 2 1 ⟨.s2sReplicateUser, replicationPayload (ascii "bob") 2 true⟩, .peerGone 2]

/-- The purge of `bob` has been told to `ann`. -/
theorem presence_current_ann : ∃ c, exec next { server := configured 1 [2] } annOnline = some c ∧
    ∃ names, lastOnline 0 c.sent = some names ∧
      ∀ u, u ∈ names ↔ u ≠ [] ∧ c.server.userManager.isUserOnline u = true := by
  have hrun : (exec next { server := configured 1 [2] } annOnline).any fun c =>
      decide (c.server.connManager.Live 0 ∧ c.server.Authenticated 0) := by decide +kernel
  obtain ⟨c, hc, hrun⟩ := (Option.any_eq_true ..).mp hrun
  obtain ⟨hk, ha⟩ := of_decide_eq_true hrun
  exact ⟨c, hc, presence_current 1 [2] hc hk ha⟩

end Watch

end DistributedChat
