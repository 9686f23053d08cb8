import DistributedChat.Server.Sending

/-!
# What handling one packet does

Every handler of a client's packet first updates the server's tables and then
makes at most one round of sends to peers.  `ClientStep` lists the updates with
the round that follows each, and `handleClientPacket_step` says that the list is
complete.  Later proofs take a handled packet apart by cases on `ClientStep` and
never open a handler again.  The packets of peers are simpler, and
`state_handleServerPacket` gives their updates directly.
-/

namespace DistributedChat

/-- A socket becomes the link of a peer. -/
def ConnectionManager.linked (m : ConnectionManager) (p : Int) (k : ConnRef) (now : Nat) :
    ConnectionManager :=
  ((m.registerPeerSocket p k now).setConnected p true).updateHeartbeat p now

/-- The output is a frame on a peer's socket. -/
def Effect.isFrame : Effect → Bool
  | .toSession _ _ => false
  | .toPeer _ _ _ => true

namespace ChatServer

open Prog (observe update each)

/-- The frames among the outputs of a server. -/
def framesOf (out : List Effect) : List Effect := out.filter Effect.isFrame

@[simp] theorem framesOf_nil : framesOf [] = [] := rfl

@[simp] theorem framesOf_append (xs ys : List Effect) :
    framesOf (xs ++ ys) = framesOf xs ++ framesOf ys :=
  List.filter_append ..

@[simp] theorem framesOf_cons_toSession (k : ConnRef) (pkt : RawPacket) (out : List Effect) :
    framesOf (.toSession k pkt :: out) = framesOf out := rfl

@[simp] theorem framesOf_map_toSession (ks : List ConnRef) (pkt : RawPacket) :
    framesOf (ks.map fun k => .toSession k pkt) = [] := by
  induction ks with
  | nil => rfl
  | cons k ks ih => exact ih

@[simp] theorem framesOf_frames (s : ChatServer) (ps : List Int) (pkt : RawPacket) :
    framesOf (s.frames ps pkt) = s.frames ps pkt := by
  rw [framesOf, List.filter_eq_self]
  intro e he
  obtain ⟨p, k, -, -, rfl⟩ := mem_frames.mp he
  rfl

/-! ## Updates of the tables -/

/-- `HandleLogin` accepts the payload as a login under the name. -/
def Accepts (s : ChatServer) (payload username : Bytes) : Prop :=
  trim payload = username ∧ ¬ (username = [] ∨ nul ∈ username ∨ 32 ∈ username) ∧
    s.userManager.isUserOnline username = false

instance (s : ChatServer) (payload username : Bytes) : Decidable (s.Accepts payload username) :=
  inferInstanceAs (Decidable (_ ∧ _ ∧ _))

/-- The session is logged in. -/
def loggedIn (s : ChatServer) (k : ConnRef) (username : Bytes) : ChatServer :=
  (s.onUsers (·.registerUser username s.serverId)).onConn (·.authenticateSession k username)

/-- The user name of the session. -/
def nameOf (s : ChatServer) (k : ConnRef) : Bytes := (s.connManager.sessions k).username

/-- The session and its user are in the room. -/
def joined (s : ChatServer) (k : ConnRef) (r : Bytes) : ChatServer :=
  (s.onConn (·.joinRoom k r)).onRooms (·.joinRoomLocal r (s.nameOf k))

/-- The session and its user are out of the room. -/
def left (s : ChatServer) (k : ConnRef) (r : Bytes) : ChatServer :=
  (s.onConn (·.leaveRoom k r)).onRooms (·.leaveRoomLocal r (s.nameOf k))

/-- The session is no longer one. -/
def removed (s : ChatServer) (k : ConnRef) : ChatServer :=
  s.onConn fun m => m.removeSession (m.getHandle k)

/-- The socket is the link of the peer. -/
def linked (s : ChatServer) (p : Int) (k : ConnRef) : ChatServer :=
  s.onConn (·.linked p k s.now)

/-- The session has become the link of the peer, if there is such a peer. -/
def promoted (s : ChatServer) (k : ConnRef) (p : Int) : ChatServer :=
  if p ∈ s.connManager.peerNodes then (s.removed k).linked p k else s.removed k

/-- The user of the session is gone from the user table. -/
def loggedOut (s : ChatServer) (k : ConnRef) : ChatServer :=
  s.onUsers (·.unregisterUser (s.nameOf k))

/-! ## One update and one round of sends -/

/-- Run alone, the program takes `s` to `s'` and then sends a packet to peers. -/
structure Amounts (prog : ServerProg Unit) (s s' : ChatServer) (ps : List Int)
    (pkt : RawPacket) : Prop where
  state : (prog.run s).state = s'.dropBroken ps
  frames : s'.LinksGood → framesOf (prog.run s).out = s'.frames ps pkt

/-- A program without sends to peers. -/
theorem Amounts.local {prog : ServerProg Unit} {s s' : ChatServer} (pkt : RawPacket)
    (hs : (prog.run s).state = s') (ho : framesOf (prog.run s).out = []) :
    Amounts prog s s' [] pkt :=
  ⟨hs, fun _ => ho⟩

theorem amounts_broadcastS2S (s : ChatServer) (t : PacketType) (pl : Bytes) :
    Amounts (broadcastS2S t pl) s s s.connManager.getAllPeerNodes ⟨t, pl⟩ := by
  refine ⟨state_broadcastS2S t pl s, fun h => ?_⟩
  rw [run_broadcastS2S h]
  exact framesOf_frames ..

theorem amounts_sendToPeer {s : ChatServer} {p : Int} (hp : p ∈ s.connManager.peerNodes)
    (t : PacketType) (pl : Bytes) : Amounts (sendToPeer p t pl) s s [p] ⟨t, pl⟩ := by
  refine ⟨state_sendToPeer p t pl s, fun h => ?_⟩
  rw [run_sendToPeer h hp]
  exact framesOf_frames ..

section

variable {s s' : ChatServer} {ps : List Int} {pkt : RawPacket}

/-- The sections before the round of sends. -/
theorem Amounts.observe {α : Type} {f : ChatServer → α} {rest : α → ServerProg Unit}
    (h : Amounts (rest (f s)) s s' ps pkt) : Amounts (observe f >>= rest) s s' ps pkt :=
  ⟨h.state, h.frames⟩

@[inherit_doc Amounts.observe]
theorem Amounts.update {f : ChatServer → ChatServer} {rest : Unit → ServerProg Unit}
    (h : Amounts (rest ()) (f s) s' ps pkt) : Amounts (update f >>= rest) s s' ps pkt :=
  ⟨h.state, h.frames⟩

@[inherit_doc Amounts.observe]
theorem Amounts.sendPacket {k : ConnRef} {t : PacketType} {pl : Bytes}
    {rest : Bool → ServerProg Unit} (h : Amounts (rest (s.connManager.canSend k)) s s' ps pkt) :
    Amounts (sendPacket k t pl >>= rest) s s' ps pkt :=
  ⟨h.state, h.frames⟩

@[inherit_doc Amounts.observe]
theorem Amounts.sendToMembers {names : List Bytes} {t : PacketType} {pl : Bytes}
    {rest : Unit → ServerProg Unit} (h : Amounts (rest ()) s s' ps pkt) :
    Amounts (sendToMembers names t pl >>= rest) s s' ps pkt := by
  have hrun := run_sendToMembers names t pl s
  refine ⟨?_, fun hg => ?_⟩
  · rw [Prog.run_bind, hrun]
    exact h.state
  · rw [Prog.run_bind, hrun, framesOf_append, framesOf_map_toSession, List.nil_append]
    exact h.frames hg

@[inherit_doc Amounts.observe]
theorem Amounts.sendToAuthenticated {t : PacketType} {pl : Bytes}
    {rest : Unit → ServerProg Unit} (h : Amounts (rest ()) s s' ps pkt) :
    Amounts (sendToAuthenticated t pl >>= rest) s s' ps pkt := by
  have hrun := run_sendToAuthenticated t pl s
  refine ⟨?_, fun hg => ?_⟩
  · rw [Prog.run_bind, hrun]
    exact h.state
  · rw [Prog.run_bind, hrun, framesOf_append, framesOf_map_toSession, List.nil_append]
    exact h.frames hg

/-- The sections after the round of sends change nothing and send to no peer. -/
theorem Amounts.before {first rest : ServerProg Unit} (h : Amounts first s s' ps pkt)
    (hr : ∀ s, (rest.run s).state = s ∧ framesOf (rest.run s).out = []) :
    Amounts (first >>= fun _ => rest) s s' ps pkt := by
  refine ⟨?_, fun hg => ?_⟩
  · rw [Prog.run_bind, (hr _).1]
    exact h.state
  · rw [Prog.run_bind, framesOf_append, (hr _).2, List.append_nil]
    exact h.frames hg

end

/-! ## Packets of clients -/

/-- What handling a packet of session `k` does to the tables, with the packet
then sent to peers and the peers it is sent to. -/
inductive ClientStep (s : ChatServer) (k : ConnRef) (pkt : RawPacket) :
    ChatServer → List Int → RawPacket → Prop where
  /-- Nothing changes and nothing is sent to peers. -/
  | idle (out : RawPacket) : ClientStep s k pkt s [] out
  | login (u : Bytes) (ht : pkt.type = .login) (h : s.Accepts pkt.payload u) :
      ClientStep s k pkt (s.loggedIn k u) s.connManager.getAllPeerNodes
        ⟨.s2sReplicateUser, replicationPayload u s.serverId true⟩
  | firstJoin (r : Bytes) (ht : pkt.type = .roomJoin) (hr : trim pkt.payload = r) (hne : r ≠ [])
      (ha : (s.connManager.sessions k).isAuthenticated = true)
      (hm : s.roomManager.getLocalMembers r = []) :
      ClientStep s k pkt (s.joined k r) s.connManager.getAllPeerNodes
        ⟨.s2sRoomMemberSync, replicationPayload r s.serverId true⟩
  | join (r : Bytes) (ht : pkt.type = .roomJoin) (hr : trim pkt.payload = r) (hne : r ≠ [])
      (ha : (s.connManager.sessions k).isAuthenticated = true)
      (hm : s.roomManager.getLocalMembers r ≠ []) (out : RawPacket) :
      ClientStep s k pkt (s.joined k r) [] out
  | lastLeave (r : Bytes) (ht : pkt.type = .roomLeave) (hr : trim pkt.payload = r) (hne : r ≠ [])
      (ha : (s.connManager.sessions k).isAuthenticated = true)
      (hj : s.connManager.isInRoom k r = true)
      (hm : (s.left k r).roomManager.getLocalMembers r = []) :
      ClientStep s k pkt (s.left k r) s.connManager.getAllPeerNodes
        ⟨.s2sRoomMemberSync, replicationPayload r s.serverId false⟩
  | leave (r : Bytes) (ht : pkt.type = .roomLeave) (hr : trim pkt.payload = r) (hne : r ≠ [])
      (ha : (s.connManager.sessions k).isAuthenticated = true)
      (hj : s.connManager.isInRoom k r = true)
      (hm : (s.left k r).roomManager.getLocalMembers r ≠ []) (out : RawPacket) :
      ClientStep s k pkt (s.left k r) [] out
  | routePrivate (p : Int) (receiver text : Bytes) (ht : pkt.type = .msgPrivate)
      (ha : (s.connManager.sessions k).isAuthenticated = true) (hp : p ∈ s.connManager.peerNodes) :
      ClientStep s k pkt s [p] ⟨.s2sRouteMsg, pack [s.nameOf k, receiver, text]⟩
  | routeRoom (r text : Bytes) (fields : List Bytes) (ht : pkt.type = .msgRoom)
      (hu : unpack pkt.payload = r :: text :: fields)
      (ha : (s.connManager.sessions k).isAuthenticated = true)
      (hj : s.connManager.isInRoom k r = true) :
      ClientStep s k pkt s
        ((s.roomManager.getRemoteServers r).filter fun p => p ∈ s.connManager.peerNodes)
        ⟨.s2sRouteRoomMsg, pack [s.nameOf k, r, text]⟩
  | broadcast (ht : pkt.type = .msgBroadcast)
      (ha : (s.connManager.sessions k).isAuthenticated = true) :
      ClientStep s k pkt s s.connManager.getAllPeerNodes
        ⟨.s2sRouteMsg, pack [s.nameOf k, pkt.payload]⟩
  | promote (p : Int) (ht : pkt.type = .s2sConnect) (hp : stoi pkt.payload = some p)
      (out : RawPacket) : ClientStep s k pkt (s.promoted k p) [] out

/-- The handler of a client's packet makes one of the steps. -/
def Steps (prog : ServerProg Unit) (s : ChatServer) (k : ConnRef) (pkt : RawPacket) : Prop :=
  ∃ s' ps out, ClientStep s k pkt s' ps out ∧ Amounts prog s s' ps out

theorem Steps.idle {prog : ServerProg Unit} {s : ChatServer} (k : ConnRef) (pkt : RawPacket)
    (hs : (prog.run s).state = s) (ho : framesOf (prog.run s).out = []) :
    Steps prog s k pkt :=
  ⟨s, [], pkt, .idle pkt, .local pkt hs ho⟩

section

variable {s : ChatServer} {k : ConnRef} {pkt : RawPacket}

/-- An accepted login is the update of the tables and its replication. -/
theorem amounts_handleLogin {payload u : Bytes} (h : s.Accepts payload u) :
    Amounts (handleLogin k payload) s (s.loggedIn k u) s.connManager.getAllPeerNodes
      ⟨.s2sReplicateUser, replicationPayload u s.serverId true⟩ := by
  obtain ⟨rfl, hu, ho⟩ := h
  simp only [handleLogin, if_neg hu]
  refine .observe ?_
  rw [ho, if_neg Bool.false_ne_true]
  refine .update (.update (.sendPacket (.before (.observe ?_) fun s => by simp)))
  exact amounts_broadcastS2S (s.loggedIn k (trim payload)) _ _

theorem steps_handleLogin (ht : pkt.type = .login) : Steps (handleLogin k pkt.payload) s k pkt := by
  by_cases hu : trim pkt.payload = [] ∨ nul ∈ trim pkt.payload ∨ 32 ∈ trim pkt.payload
  · exact .idle k pkt (by simp [handleLogin, hu]) (by simp [handleLogin, hu])
  · cases ho : s.userManager.isUserOnline (trim pkt.payload) with
    | true => exact .idle k pkt (by simp [handleLogin, hu, ho]) (by simp [handleLogin, hu, ho])
    | false => exact ⟨_, _, _, .login _ ht ⟨rfl, hu, ho⟩, amounts_handleLogin ⟨rfl, hu, ho⟩⟩

theorem steps_handlePrivateMsg (ht : pkt.type = .msgPrivate)
    (ha : (s.connManager.sessions k).isAuthenticated = true) :
    Steps (handlePrivateMsg k pkt.payload) s k pkt := by
  rw [handlePrivateMsg]
  split
  next receiver text fields hu =>
    by_cases hl : s.userManager.getUserLocation receiver = s.serverId
    · cases hr : s.connManager.getSessionByUsername receiver with
      | none => exact .idle k pkt (by simp [hl, hr]) (by simp [hl, hr])
      | some t => exact .idle k pkt (by simp [hl, hr]) (by simp [hl, hr])
    · by_cases h0 : s.userManager.getUserLocation receiver > 0
      · by_cases hp : s.userManager.getUserLocation receiver ∈ s.connManager.peerNodes
        · refine ⟨_, _, _, .routePrivate _ receiver text ht ha hp, ?_⟩
          refine .observe (.observe (.observe ?_))
          rw [if_neg hl, if_pos h0]
          refine .before (.observe ?_) fun s => by simp
          rw [ConnectionManager.hasPeerNode, if_pos (decide_eq_true hp)]
          exact amounts_sendToPeer hp _ _
        · exact .idle k pkt
            (by simp [hl, h0, hp, routePrivateMessage, ConnectionManager.hasPeerNode])
            (by simp [hl, h0, hp, routePrivateMessage, ConnectionManager.hasPeerNode])
      · exact .idle k pkt (by simp [hl, h0]) (by simp [hl, h0])
  next => exact .idle k pkt rfl rfl

/-- Purging a peer does not take it off the list of peers. -/
theorem peerNodes_purgePeer (s : ChatServer) (p : Int) :
    (s.purgePeer p).connManager.peerNodes = s.connManager.peerNodes := by
  simp only [purgePeer, ConnectionManager.unlinked,
    ConnectionManager.peerNodes_unregisterPeerSocket]
  cases (s.connManager.nodes p).socket <;> rfl

theorem dropIfBroken_of_not_peer {p : Int} (h : p ∉ s.connManager.peerNodes) :
    s.dropIfBroken p = s := by
  have hdown : ((handlePeerDisconnect p).run s).state = s := by
    rw [state_handlePeerDisconnect]
    exact if_neg fun hp => h hp.1
  rw [dropIfBroken, hdown]
  cases s.connManager.linkSocket p with
  | none => rfl
  | some k => exact ite_self ..

theorem peerNodes_dropIfBroken (s : ChatServer) (p : Int) :
    (s.dropIfBroken p).connManager.peerNodes = s.connManager.peerNodes :=
  dropBroken_induct (I := fun t => t.connManager.peerNodes = s.connManager.peerNodes)
    (fun t q h _ _ => (peerNodes_purgePeer t q).trans h) rfl [p]

/-- The body of the loop of `RouteRoomMessage`. -/
def sendIfPeer (t : PacketType) (pl : Bytes) (p : Int) : ServerProg Unit := do
  let peer ← observe (·.connManager.hasPeerNode p)
  if peer = true then sendToPeer p t pl

theorem run_sendIfPeer (t : PacketType) (pl : Bytes) (p : Int) (s : ChatServer) :
    (sendIfPeer t pl p).run s =
      if p ∈ s.connManager.peerNodes then (sendToPeer p t pl).run s else ⟨(), s, []⟩ := by
  by_cases hp : p ∈ s.connManager.peerNodes <;>
    simp [sendIfPeer, ConnectionManager.hasPeerNode, hp]

/-- With good links the loop sends to those servers of the list that are peers. -/
theorem run_each_sendIfPeer {s : ChatServer} (hg : s.LinksGood) (ps : List Int) (t : PacketType)
    (pl : Bytes) :
    (each ps (sendIfPeer t pl)).run s =
      ⟨(), s, s.frames (ps.filter fun p => p ∈ s.connManager.peerNodes) ⟨t, pl⟩⟩ := by
  induction ps with
  | nil => rfl
  | cons p ps ih =>
      rw [Prog.run_each_cons, run_sendIfPeer, List.filter_cons]
      by_cases hp : p ∈ s.connManager.peerNodes
      · simp only [hp, if_true, decide_true]
        rw [run_sendToPeer hg hp, ih]
        simp only [frames, ← List.filterMap_append, List.singleton_append]
      · simp only [hp, if_false, decide_false]
        exact ih

theorem amounts_each_sendIfPeer (s : ChatServer) (ps : List Int) (t : PacketType) (pl : Bytes) :
    Amounts (each ps (sendIfPeer t pl)) s s (ps.filter fun p => p ∈ s.connManager.peerNodes)
      ⟨t, pl⟩ := by
  refine ⟨?_, fun hg => ?_⟩
  · induction ps generalizing s with
    | nil => rfl
    | cons p ps ih =>
        rw [Prog.run_each_cons, run_sendIfPeer, List.filter_cons]
        by_cases hp : p ∈ s.connManager.peerNodes
        · simp only [hp, if_true, decide_true]
          rw [ih, state_sendToPeer, peerNodes_dropIfBroken]
          rfl
        · simp only [hp, if_false, decide_false]
          exact ih s
  · rw [run_each_sendIfPeer hg]
    exact framesOf_frames ..

theorem steps_handleRoomMsg (ht : pkt.type = .msgRoom)
    (ha : (s.connManager.sessions k).isAuthenticated = true) :
    Steps (handleRoomMsg k pkt.payload) s k pkt := by
  rw [handleRoomMsg]
  split
  next r text fields hu =>
    cases hj : s.connManager.isInRoom k r with
    | true =>
        refine ⟨_, _, _, .routeRoom r text fields ht hu ha hj, ?_⟩
        refine .observe (.observe ?_)
        rw [hj, if_pos rfl]
        exact .observe (.sendToMembers (.observe (amounts_each_sendIfPeer s _ _ _)))
    | false => exact .idle k pkt (by simp [hj]) (by simp [hj])
  next => exact .idle k pkt rfl rfl

theorem steps_handleBroadcastMsg (ht : pkt.type = .msgBroadcast)
    (ha : (s.connManager.sessions k).isAuthenticated = true) :
    Steps (handleBroadcastMsg k pkt.payload) s k pkt :=
  ⟨_, _, _, .broadcast ht ha, .observe (.sendToAuthenticated (amounts_broadcastS2S s _ _))⟩

theorem steps_handleRoomJoin (ht : pkt.type = .roomJoin)
    (ha : (s.connManager.sessions k).isAuthenticated = true) :
    Steps (handleRoomJoin k pkt.payload) s k pkt := by
  by_cases hne : trim pkt.payload = []
  · exact .idle k pkt (by simp [handleRoomJoin, hne]) (by simp [handleRoomJoin, hne])
  · by_cases hm : s.roomManager.getLocalMembers (trim pkt.payload) = []
    · refine ⟨_, _, _, .firstJoin _ ht rfl hne ha hm, .observe ?_⟩
      rw [if_neg hne]
      refine .update (.observe (.update (.sendPacket (.observe (.sendToMembers ?_)))))
      rw [onConn_roomManager, if_pos hm]
      exact .observe (amounts_broadcastS2S (s.joined k (trim pkt.payload)) _ _)
    · refine ⟨_, _, _, .join _ ht rfl hne ha hm pkt, .observe ?_⟩
      rw [if_neg hne]
      refine .update (.observe (.update (.sendPacket (.observe (.sendToMembers ?_)))))
      rw [onConn_roomManager, if_neg hm]
      exact .local pkt rfl rfl

theorem steps_handleRoomLeave (ht : pkt.type = .roomLeave)
    (ha : (s.connManager.sessions k).isAuthenticated = true) :
    Steps (handleRoomLeave k pkt.payload) s k pkt := by
  cases hj : s.connManager.isInRoom k (trim pkt.payload) with
  | false => exact .idle k pkt (by simp [handleRoomLeave, hj]) (by simp [handleRoomLeave, hj])
  | true =>
      by_cases hne : trim pkt.payload = []
      · exact .idle k pkt (by simp [handleRoomLeave, hne]) (by simp [handleRoomLeave, hne])
      · have hgo : ¬ (trim pkt.payload = [] ∨
            s.connManager.isInRoom k (trim pkt.payload) = false) := by simp [hne, hj]
        by_cases hm : (s.left k (trim pkt.payload)).roomManager.getLocalMembers
            (trim pkt.payload) = []
        · refine ⟨_, _, _, .lastLeave _ ht rfl hne ha hj hm, .observe (.observe ?_)⟩
          rw [if_neg hgo]
          refine .update (.update (.sendPacket (.observe (.sendToMembers ?_))))
          rw [left, nameOf] at hm
          rw [if_pos hm]
          exact .observe (amounts_broadcastS2S (s.left k (trim pkt.payload)) _ _)
        · refine ⟨_, _, _, .leave _ ht rfl hne ha hj hm pkt, .observe (.observe ?_)⟩
          rw [if_neg hgo]
          refine .update (.update (.sendPacket (.observe (.sendToMembers ?_))))
          rw [left, nameOf] at hm
          rw [if_neg hm]
          exact .local pkt rfl rfl

theorem steps_promote (ht : pkt.type = .s2sConnect) : Steps (promote k pkt.payload) s k pkt := by
  rw [promote]
  cases hp : stoi pkt.payload with
  | none => exact .idle k pkt rfl rfl
  | some p =>
      refine ⟨_, _, _, .promote p ht hp pkt, .observe (.update (.update (.observe ?_)))⟩
      rw [promoted, ConnectionManager.hasPeerNode, onConn_connManager,
        ConnectionManager.peerNodes_registerPeerSocket, onConn_connManager,
        ConnectionManager.peerNodes_removeSession]
      by_cases hpeer : p ∈ s.connManager.peerNodes
      · rw [if_pos hpeer, if_pos (decide_eq_true hpeer)]
        exact .local pkt rfl rfl
      · rw [if_neg hpeer, if_neg (mt of_decide_eq_true hpeer)]
        refine .local pkt ?_ rfl
        have hnot : p ∉ (s.removed k).connManager.peerNodes := by
          rw [removed, onConn_connManager, ConnectionManager.peerNodes_removeSession]
          exact hpeer
        change (s.removed k).onConn (·.registerPeerSocket p k s.now) = s.removed k
        rw [onConn, ConnectionManager.registerPeerSocket, if_neg hnot]

theorem Steps.observe {α : Type} {f : ChatServer → α} {rest : α → ServerProg Unit}
    (h : Steps (rest (f s)) s k pkt) : Steps (observe f >>= rest) s k pkt := by
  obtain ⟨s', ps, out, hstep, hrun⟩ := h
  exact ⟨s', ps, out, hstep, .observe hrun⟩

theorem run_handleClientPacket_login (ht : pkt.type = .login) :
    (handleClientPacket k pkt).run s = (handleLogin k pkt.payload).run s := by
  simp [handleClientPacket, ht]

/-- Every packet of a client is handled by one of the steps. -/
theorem handleClientPacket_step (s : ChatServer) (k : ConnRef) (pkt : RawPacket) :
    Steps (handleClientPacket k pkt) s k pkt := by
  refine .observe ?_
  by_cases hgate : (s.connManager.sessions k).isAuthenticated = false ∧
      pkt.type ≠ .login ∧ pkt.type ≠ .s2sConnect
  · rw [if_pos hgate]
    exact .idle k pkt rfl rfl
  · rw [if_neg hgate]
    -- past the gate, every packet but the two it lets through is of an authenticated session
    have hauth : pkt.type ≠ .login → pkt.type ≠ .s2sConnect →
        (s.connManager.sessions k).isAuthenticated = true := by
      intro h1 h2
      cases ha : (s.connManager.sessions k).isAuthenticated with
      | true => rfl
      | false => exact absurd ⟨ha, h1, h2⟩ hgate
    cases ht : pkt.type with
    | login => exact steps_handleLogin ht
    | msgPrivate => exact steps_handlePrivateMsg ht (hauth (by simp [ht]) (by simp [ht]))
    | msgRoom => exact steps_handleRoomMsg ht (hauth (by simp [ht]) (by simp [ht]))
    | msgBroadcast => exact steps_handleBroadcastMsg ht (hauth (by simp [ht]) (by simp [ht]))
    | roomJoin => exact steps_handleRoomJoin ht (hauth (by simp [ht]) (by simp [ht]))
    | roomLeave => exact steps_handleRoomLeave ht (hauth (by simp [ht]) (by simp [ht]))
    | roomCreate =>
        rw [handleRoomCreate]
        by_cases hr : trim pkt.payload = []
        · exact .idle k pkt (by simp [hr]) (by simp [hr])
        · exact .idle k pkt (by simp [hr]) (by simp [hr])
    | s2sConnect => exact steps_promote ht
    | _ => exact .idle k pkt rfl rfl

end

/-! ## The end of a session -/

/-- `ListenerLoop` on a session whose `ReadPacket` fails: the user leaves the
user table, the peers are told, and the session is removed. -/
theorem state_clientDisconnect (s : ChatServer) (k : ConnRef) :
    ((clientDisconnect k).run s).state =
      if s.nameOf k = [] then s.removed k
      else ((s.loggedOut k).dropBroken s.connManager.getAllPeerNodes).onConn
        (·.removeSession (s.connManager.getHandle k)) := by
  by_cases hu : s.nameOf k = []
  · rw [if_pos hu]
    rw [nameOf] at hu
    simp [clientDisconnect, hu, removed, onConn]
  · rw [if_neg hu]
    rw [nameOf] at hu
    simp [clientDisconnect, hu, replicateUserLogout, loggedOut, nameOf]

/-- The frames a session's end puts on good links. -/
theorem frames_clientDisconnect {s : ChatServer} (k : ConnRef) (hg : s.LinksGood) :
    framesOf ((clientDisconnect k).run s).out =
      if s.nameOf k = [] then []
      else s.frames s.connManager.getAllPeerNodes
        ⟨.s2sReplicateUser, replicationPayload (s.nameOf k) s.serverId false⟩ := by
  by_cases hu : s.nameOf k = []
  · rw [if_pos hu]
    rw [nameOf] at hu
    simp [clientDisconnect, hu]
  · rw [if_neg hu]
    -- logging out does not touch the links
    have hrun := run_broadcastS2S (s := s.loggedOut k) hg .s2sReplicateUser
      (replicationPayload (s.nameOf k) s.serverId false)
    rw [loggedOut, nameOf] at hrun
    rw [nameOf] at hu
    simp [clientDisconnect, hu, replicateUserLogout, hrun]
    rfl

end ChatServer

/-! ## Packets of peers -/

/-- What the payload of an `S2S_REPLICATE_USER` does to the user table. -/
def UserManager.replicated (m : UserManager) (payload : Bytes) : UserManager :=
  match unpack payload with
  | username :: id :: online :: _ =>
      match stoi id with
      | none => m
      | some i => if online = ascii "1" then m.registerUser username i else m.unregisterUser username
  | _ => m

/-- What the payload of an `S2S_ROOM_MEMBER_SYNC` does to the rooms. -/
def ChatRoomManager.synced (m : ChatRoomManager) (payload : Bytes) : ChatRoomManager :=
  match unpack payload with
  | room :: id :: active :: _ =>
      match stoi id with
      | none => m
      | some i => if active = ascii "1" then m.joinRoomRemote room i else m.leaveRoomRemote room i
  | _ => m

namespace ChatServer

open Prog (observe update each)

/-- What a packet of peer `p` does to the tables. -/
def received (s : ChatServer) (p : Int) (pkt : RawPacket) : ChatServer :=
  match pkt.type with
  | .s2sReplicateUser =>
      (s.onConn (·.updateHeartbeat p s.now)).onUsers (·.replicated pkt.payload)
  | .s2sRoomMemberSync =>
      (s.onConn (·.updateHeartbeat p s.now)).onRooms (·.synced pkt.payload)
  | _ => s.onConn (·.updateHeartbeat p s.now)

/-- The answer to a heartbeat of peer `p`. -/
def acks (s : ChatServer) (p : Int) : List Effect :=
  match (s.connManager.nodes p).socket with
  | none => []
  | some k =>
      if s.connManager.canSend k = true
      then [.toPeer p k ⟨.s2sHeartbeatAck, toString s.serverId⟩] else []

section

variable (s : ChatServer) (payload : Bytes)

theorem run_handleS2SReplicateUser :
    ((handleS2SReplicateUser payload).run s).state = s.onUsers (·.replicated payload) ∧
      framesOf ((handleS2SReplicateUser payload).run s).out = [] := by
  simp only [handleS2SReplicateUser, onUsers, UserManager.replicated]
  rcases unpack payload with _ | ⟨username, _ | ⟨id, _ | ⟨online, fields⟩⟩⟩
  · exact ⟨rfl, rfl⟩
  · exact ⟨rfl, rfl⟩
  · exact ⟨rfl, rfl⟩
  · cases hi : stoi id with
    | none => simp [hi]
    | some i => by_cases ho : online = ascii "1" <;> simp [hi, ho, onUsers]

theorem run_handleS2SRouteMsg :
    ((handleS2SRouteMsg payload).run s).state = s ∧
      framesOf ((handleS2SRouteMsg payload).run s).out = [] := by
  rw [handleS2SRouteMsg]
  split
  next sender receiver text hu =>
    cases hr : s.connManager.getSessionByUsername receiver with
    | none => simp [hr]
    | some t => simp [hr]
  next => simp
  next => exact ⟨rfl, rfl⟩

theorem run_handleS2SRouteRoomMsg :
    ((handleS2SRouteRoomMsg payload).run s).state = s ∧
      framesOf ((handleS2SRouteRoomMsg payload).run s).out = [] := by
  rw [handleS2SRouteRoomMsg]
  split
  next => simp
  next => exact ⟨rfl, rfl⟩

theorem run_handleS2SRoomMemberSync :
    (handleS2SRoomMemberSync payload).run s = ⟨(), s.onRooms (·.synced payload), []⟩ := by
  simp only [handleS2SRoomMemberSync, onRooms, ChatRoomManager.synced]
  rcases unpack payload with _ | ⟨room, _ | ⟨id, _ | ⟨active, fields⟩⟩⟩
  · rfl
  · rfl
  · rfl
  · cases hi : stoi id with
    | none => simp [hi]
    | some i => by_cases ha : active = ascii "1" <;> simp [hi, ha, onRooms]

theorem run_handleS2SHeartbeat (p : Int) :
    (handleS2SHeartbeat p).run s = ⟨(), s, s.acks p⟩ := by
  rw [acks]
  cases hk : (s.connManager.nodes p).socket with
  | none => simp [handleS2SHeartbeat, hk]
  | some k => simp [handleS2SHeartbeat, hk, sendFrame, Prog.run]

end

/-- A packet of a peer updates the tables as `received` says. -/
theorem state_handleServerPacket (s : ChatServer) (p : Int) (pkt : RawPacket) :
    ((handleServerPacket p pkt).run s).state = s.received p pkt := by
  simp only [handleServerPacket, Prog.run_bind, Prog.run_update, received]
  cases pkt.type with
  | s2sHeartbeat => rw [run_handleS2SHeartbeat]
  | s2sReplicateUser => exact (run_handleS2SReplicateUser ..).1
  | s2sRouteMsg => exact (run_handleS2SRouteMsg ..).1
  | s2sRouteRoomMsg => exact (run_handleS2SRouteRoomMsg ..).1
  | s2sRoomMemberSync => rw [run_handleS2SRoomMemberSync]
  | _ => rfl

/-- A packet of a peer is answered only if it is a heartbeat. -/
theorem frames_handleServerPacket (s : ChatServer) (p : Int) (pkt : RawPacket) :
    framesOf ((handleServerPacket p pkt).run s).out =
      if pkt.type = .s2sHeartbeat then framesOf (s.acks p) else [] := by
  simp only [handleServerPacket, Prog.run_bind, Prog.run_update, List.nil_append]
  cases pkt.type with
  | s2sHeartbeat =>
      rw [run_handleS2SHeartbeat]
      simp [acks, ConnectionManager.updateHeartbeat, ConnectionManager.canSend,
        ConnectionManager.getHandle]
  | s2sReplicateUser => exact (run_handleS2SReplicateUser ..).2
  | s2sRouteMsg => exact (run_handleS2SRouteMsg ..).2
  | s2sRouteRoomMsg => exact (run_handleS2SRouteRoomMsg ..).2
  | s2sRoomMemberSync => rw [run_handleS2SRoomMemberSync]; rfl
  | _ => rfl

/-! ## The connector and the heartbeat -/

/-- The peer is not connected, or it has not been silent for 15 seconds. -/
def Timely (s : ChatServer) (p : Int) : Prop :=
  (s.connManager.nodes p).isConnected = true →
    ¬ s.now - (s.connManager.nodes p).lastHeartbeatTime ≥ 15

instance (s : ChatServer) (p : Int) : Decidable (s.Timely p) :=
  inferInstanceAs (Decidable (_ → _))

/-- A round without a silent peer sends a heartbeat to every connected one. -/
theorem run_heartbeatRound {s : ChatServer} (hg : s.LinksGood)
    (ht : ∀ p ∈ s.connManager.peerNodes, s.Timely p) :
    heartbeatRound.run s =
      ⟨(), s, s.frames s.connManager.getAllPeerNodes ⟨.s2sHeartbeat, toString s.serverId⟩⟩ := by
  refine run_each_frames fun p hp => ?_
  rw [← run_sendToPeer hg hp]
  cases hc : (s.connManager.nodes p).isConnected with
  | false => simp [sendToPeer, hc]
  | true => simp [sendToPeer, hc, ht p hp hc]

/-- The connector's steps on a peer that is not connected. -/
theorem run_connectPeer {s : ChatServer} {p : Int} {h : SOCKET} (hp : p ∈ s.connManager.peerNodes)
    (hc : (s.connManager.nodes p).isConnected = false) (hh : h ≠ invalidSocket) :
    (connectPeer p h).run s =
      ⟨(), (s.onConn (·.newSocket h)).linked p s.connManager.nextConn,
        [.toPeer p s.connManager.nextConn ⟨.s2sConnect, toString s.serverId⟩]⟩ := by
  simp only [connectPeer, Prog.run_bind, Prog.run_observe, ConnectionManager.hasPeerNode, hp, hc,
    decide_true, and_self, if_true]
  simp [sendFrame, Prog.run, linked, ConnectionManager.linked, onConn,
    ConnectionManager.registerPeerSocket, hp, ConnectionManager.canSend, ConnectionManager.getHandle, ConnectionManager.setConnected,
    ConnectionManager.updateHeartbeat, ConnectionManager.newSocket, hh]

end ChatServer

end DistributedChat
