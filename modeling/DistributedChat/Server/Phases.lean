import DistributedChat.Logic.Phases
import DistributedChat.Server.Threads

/-!
# The phases of a server's programs

Every program of a server follows one automaton (`Work.goes`).  A phase has
two parts: the point the program has reached in its own work, and the stage of a
`HandlePeerDisconnect` in the middle of it, since any send may lead to one.  The
transitions are the updates of the source with what the program knows when it
makes them.  A session's name is looked up before it is registered, a peer's
socket is read before it is closed, and a peer that is unregistered is purged
from both tables before anything else happens.

What is said about all interleavings of the threads is proved by cases on
`Phase.Step`; no program is opened again.
-/

namespace DistributedChat

/-- What a replication packet says: of which user or room, which server, and
whether it is in. -/
def content (payload : Bytes) : Option (Bytes × Int × Bool) :=
  match unpack payload with
  | key :: id :: active :: _ => (stoi id).map fun i => (key, i, decide (active = ascii "1"))
  | _ => none

/-- The output is a `LOGIN_RESP` with "1". -/
def Effect.isWelcome : Effect → Bool
  | .toSession _ pkt =>
      decide (pkt.type = .loginResp) && decide ((unpack pkt.payload).head? = some (ascii "1"))
  | .toPeer _ _ _ => false

/-- How far a program has come in its own work. -/
inductive Point where
  | plain
  /-- `HandleLogin` has not found the name in the user table. -/
  | free (u : Bytes)
  /-- `HandleLogin` has registered the name. -/
  | entered (u : Bytes)
  /-- `HandleLogin` has authenticated the session. -/
  | named (u : Bytes)
  /-- `HandleLogin` has sent the welcome. -/
  | served
  /-- The listener has read the handle of a session that ends. -/
  | ending (h : SOCKET)
  /-- The listener has read the name of a session that ends. -/
  | leaving (h : SOCKET) (u : Bytes)
  /-- The listener has yet to remove the session. -/
  | removing (h : SOCKET)
  /-- The listener has removed the session. -/
  | gone
  /-- `S2S_CONNECT` has read the handle of the session. -/
  | dropping (h : SOCKET)
  /-- `S2S_CONNECT` has removed the session. -/
  | dropped
  /-- `S2S_CONNECT` has registered the socket. -/
  | promoted
  /-- A replication packet has been applied. -/
  | applied
deriving DecidableEq

/-- At the other points the next section is a certain one. -/
def Point.isOpen : Point → Bool
  | plain | served | removing _ | promoted | applied => true
  | _ => false

/-- How far a `HandlePeerDisconnect` has come. -/
inductive Stage where
  /-- None has been begun. -/
  | whole
  /-- There is such a peer. -/
  | aimed (p : Int)
  /-- The peer is connected. -/
  | found (p : Int)
  /-- The peer's socket has been read. -/
  | closing (p : Int) (k : ConnRef)
  /-- The socket is closed, or there was none. -/
  | shut (p : Int)
  /-- The peer is unregistered and its users are still located. -/
  | cut (p : Int)
  /-- The peer's users are gone and its memberships are not. -/
  | wiped (p : Int)
deriving DecidableEq

/-- The phase of a program. -/
structure Phase where
  point : Point
  stage : Stage
deriving DecidableEq

/-- The phase in which every program starts. -/
def Phase.start : Phase := ⟨.plain, .whole⟩

open ChatServer

/-- The updates a piece of work makes besides those that have points of their own. -/
inductive Work.Touch (s : ChatServer) : Work → ChatServer → Prop where
  | joinRoom (k : ConnRef) (pkt : RawPacket) (r : Bytes) (ht : pkt.type = .roomJoin) :
      Touch s (.task (.client k pkt)) (s.onConn (·.joinRoom k r))
  | joinRoomLocal (k : ConnRef) (pkt : RawPacket) (r u : Bytes) (ht : pkt.type = .roomJoin) :
      Touch s (.task (.client k pkt)) (s.onRooms (·.joinRoomLocal r u))
  | leaveRoom (k : ConnRef) (pkt : RawPacket) (r : Bytes) (ht : pkt.type = .roomLeave) :
      Touch s (.task (.client k pkt)) (s.onConn (·.leaveRoom k r))
  | leaveRoomLocal (k : ConnRef) (pkt : RawPacket) (r u : Bytes) (ht : pkt.type = .roomLeave) :
      Touch s (.task (.client k pkt)) (s.onRooms (·.leaveRoomLocal r u))
  | beat (p : Int) (k : ConnRef) (pkt : RawPacket) :
      Touch s (.task (.peer p k pkt)) (s.onConn (·.updateHeartbeat p s.now))
  | register (p : Int) (k : ConnRef) :
      Touch s (.connected p k) (s.onConn (·.registerPeerSocket p k s.now))
  | setConnected (p : Int) (k : ConnRef) :
      Touch s (.connected p k) (s.onConn (·.setConnected p true))
  | connectedBeat (p : Int) (k : ConnRef) :
      Touch s (.connected p k) (s.onConn (·.updateHeartbeat p s.now))

/-- What a replication packet does to the tables. -/
inductive Applies (s : ChatServer) (pkt : RawPacket) : ChatServer → Prop where
  | login {u : Bytes} {i : Int} (ht : pkt.type = .s2sReplicateUser)
      (hc : content pkt.payload = some (u, i, true)) :
      Applies s pkt (s.onUsers (·.registerUser u i))
  | logout {u : Bytes} {i : Int} (ht : pkt.type = .s2sReplicateUser)
      (hc : content pkt.payload = some (u, i, false)) :
      Applies s pkt (s.onUsers (·.unregisterUser u))
  | enter {r : Bytes} {i : Int} (ht : pkt.type = .s2sRoomMemberSync)
      (hc : content pkt.payload = some (r, i, true)) :
      Applies s pkt (s.onRooms (·.joinRoomRemote r i))
  | exit {r : Bytes} {i : Int} (ht : pkt.type = .s2sRoomMemberSync)
      (hc : content pkt.payload = some (r, i, false)) :
      Applies s pkt (s.onRooms (·.leaveRoomRemote r i))

/-- A section of a program at work on `w`: the phase and the state before it, its
outputs, the state and the phase after it. -/
inductive Phase.Step : Work → Phase → ChatServer → List Effect → ChatServer → Phase → Prop where
  /-- The section observes, or sends something other than a welcome. -/
  | idle {w : Work} {m : Point} {s : ChatServer} {out : List Effect} (hm : m.isOpen = true)
      (h : ∀ e ∈ out, e.isWelcome = false) : Step w ⟨m, .whole⟩ s out s ⟨m, .whole⟩
  | touch {w : Work} {s s' : ChatServer} (h : w.Touch s s') : Step w .start s [] s' .start
  -- `HandlePeerDisconnect`
  | aim {w : Work} {m : Point} {s : ChatServer} {p : Int} (hm : m.isOpen = true)
      (h : s.connManager.hasPeerNode p = true) : Step w ⟨m, .whole⟩ s [] s ⟨m, .aimed p⟩
  | abort {w : Work} {m : Point} {s : ChatServer} {p : Int} :
      Step w ⟨m, .aimed p⟩ s [] s ⟨m, .whole⟩
  | found {w : Work} {m : Point} {s : ChatServer} {p : Int}
      (h : (s.connManager.nodes p).isConnected = true) :
      Step w ⟨m, .aimed p⟩ s [] s ⟨m, .found p⟩
  | target {w : Work} {m : Point} {s : ChatServer} {p : Int} {k : ConnRef}
      (h : (s.connManager.nodes p).socket = some k) :
      Step w ⟨m, .found p⟩ s [] s ⟨m, .closing p k⟩
  | bare {w : Work} {m : Point} {s : ChatServer} {p : Int}
      (h : (s.connManager.nodes p).socket = none) :
      Step w ⟨m, .found p⟩ s [] s ⟨m, .shut p⟩
  | close {w : Work} {m : Point} {s : ChatServer} {p : Int} {k : ConnRef} :
      Step w ⟨m, .closing p k⟩ s [] (s.onConn (·.closeSocket k)) ⟨m, .shut p⟩
  | cut {w : Work} {m : Point} {s : ChatServer} {p : Int} :
      Step w ⟨m, .shut p⟩ s [] (s.onConn (·.unregisterPeerSocket p s.now)) ⟨m, .cut p⟩
  | wipeUsers {w : Work} {m : Point} {s : ChatServer} {p : Int} :
      Step w ⟨m, .cut p⟩ s [] (s.onUsers (·.clearServerUsers p)) ⟨m, .wiped p⟩
  | wipeRooms {w : Work} {m : Point} {s : ChatServer} {p : Int} :
      Step w ⟨m, .wiped p⟩ s [] (s.onRooms (·.clearServerMemberships p)) ⟨m, .whole⟩
  -- `HandleLogin`
  | free {k : ConnRef} {pkt : RawPacket} {s : ChatServer} (ht : pkt.type = .login)
      (hu : trim pkt.payload ≠ []) (hn : NulFree (trim pkt.payload))
      (h : s.userManager.isUserOnline (trim pkt.payload) = false) :
      Step (.task (.client k pkt)) .start s [] s ⟨.free (trim pkt.payload), .whole⟩
  | register {w : Work} {u : Bytes} {s : ChatServer} :
      Step w ⟨.free u, .whole⟩ s [] (s.onUsers (·.registerUser u s.serverId)) ⟨.entered u, .whole⟩
  | authenticate {k : ConnRef} {pkt : RawPacket} {u : Bytes} {s : ChatServer} :
      Step (.task (.client k pkt)) ⟨.entered u, .whole⟩ s []
        (s.onConn (·.authenticateSession k u)) ⟨.named u, .whole⟩
  | welcome {k : ConnRef} {pkt : RawPacket} {u pl : Bytes} {s : ChatServer} :
      Step (.task (.client k pkt)) ⟨.named u, .whole⟩ s [.toSession k ⟨.loginResp, pl⟩] s
        ⟨.served, .whole⟩
  -- the end of a client's connection
  | ending {k : ConnRef} {s : ChatServer} :
      Step (.clientGone k) .start s [] s ⟨.ending (s.connManager.getHandle k), .whole⟩
  | leaving {k : ConnRef} {h : SOCKET} {s : ChatServer}
      (hu : (s.connManager.sessions k).username ≠ []) :
      Step (.clientGone k) ⟨.ending h, .whole⟩ s [] s
        ⟨.leaving h (s.connManager.sessions k).username, .whole⟩
  | nameless {k : ConnRef} {h : SOCKET} {s : ChatServer}
      (hu : (s.connManager.sessions k).username = []) :
      Step (.clientGone k) ⟨.ending h, .whole⟩ s [] s ⟨.removing h, .whole⟩
  | logout {w : Work} {h : SOCKET} {u : Bytes} {s : ChatServer} :
      Step w ⟨.leaving h u, .whole⟩ s [] (s.onUsers (·.unregisterUser u)) ⟨.removing h, .whole⟩
  | remove {w : Work} {h : SOCKET} {s : ChatServer} :
      Step w ⟨.removing h, .whole⟩ s [] (s.onConn (·.removeSession h)) ⟨.gone, .whole⟩
  -- `S2S_CONNECT`
  | dropping {k : ConnRef} {pkt : RawPacket} {s : ChatServer} (ht : pkt.type = .s2sConnect) :
      Step (.task (.client k pkt)) .start s [] s
        ⟨.dropping (s.connManager.getHandle k), .whole⟩
  | drop {w : Work} {h : SOCKET} {s : ChatServer} :
      Step w ⟨.dropping h, .whole⟩ s [] (s.onConn (·.removeSession h)) ⟨.dropped, .whole⟩
  | promote {k : ConnRef} {pkt : RawPacket} {p : Int} {s : ChatServer} (ht : pkt.type = .s2sConnect)
      (hp : stoi pkt.payload = some p) :
      Step (.task (.client k pkt)) ⟨.dropped, .whole⟩ s []
        (s.onConn (·.registerPeerSocket p k s.now)) ⟨.promoted, .whole⟩
  | setConnected {k : ConnRef} {pkt : RawPacket} {p : Int} {s : ChatServer}
      (ht : pkt.type = .s2sConnect) (hp : stoi pkt.payload = some p) :
      Step (.task (.client k pkt)) ⟨.promoted, .whole⟩ s []
        (s.onConn (·.setConnected p true)) ⟨.promoted, .whole⟩
  | promotedBeat {k : ConnRef} {pkt : RawPacket} {p : Int} {s : ChatServer} :
      Step (.task (.client k pkt)) ⟨.promoted, .whole⟩ s []
        (s.onConn (·.updateHeartbeat p s.now)) ⟨.promoted, .whole⟩
  -- replication
  | apply {p : Int} {k : ConnRef} {pkt : RawPacket} {s s' : ChatServer} (h : Applies s pkt s') :
      Step (.task (.peer p k pkt)) .start s [] s' ⟨.applied, .whole⟩

/-- The points at which a program may end. -/
def Work.Ends : Work → Point → Prop
  | .task (.client _ pkt), m =>
      if pkt.type = .s2sConnect ∧ (stoi pkt.payload).isSome = true then m = .promoted
      else m = .plain ∨ m = .served
  | .task (.peer _ _ pkt), m =>
      if (pkt.type = .s2sReplicateUser ∨ pkt.type = .s2sRoomMemberSync) ∧
          (content pkt.payload).isSome = true then m = .applied else m = .plain
  | .clientGone _, m => m = .gone
  | _, m => m = .plain

/-- The rest of a program at work on `w`, in phase `g`, goes to its end. -/
abbrev Work.Goes (w : Work) (p : ServerProg Unit) (g : Phase) : Prop :=
  p.Follows (Phase.Step w) (fun _ x => x.stage = .whole ∧ w.Ends x.point) g

/-- The program goes through the phases of the automaton. -/
abbrev Goes {α : Type} (w : Work) (p : ServerProg α) (g g' : Phase) : Prop :=
  p.Follows (Phase.Step w) (fun _ x => x = g') g

open Prog (observe update each follows_observe_bind follows_update_bind follows_update
  Follows Calm)

section

variable {α β : Type} {w : Work} {g g' : Phase} {m : Point} {p : Int} {k : ConnRef} {pkt : RawPacket}

/-- An update that is a transition, and what follows it. -/
theorem Goes.update {g₁ : Phase} {f : ChatServer → ChatServer} {q : Unit → ServerProg β}
    (hstep : ∀ s, Phase.Step w g s [] (f s) g₁) (h : Goes w (q ()) g₁ g') :
    Goes w (update f >>= q) g g' :=
  follows_update_bind fun s => ⟨g₁, hstep s, h⟩

theorem goes_update {f : ChatServer → ChatServer} (hstep : ∀ s, Phase.Step w g s [] (f s) g') :
    Goes w (update f) g g' :=
  follows_update fun s => ⟨g', hstep s, rfl⟩

theorem isWelcome_of_type {t : PacketType} (h : t ≠ .loginResp) (k : ConnRef) (pl : Bytes) :
    (Effect.toSession k ⟨t, pl⟩).isWelcome = false := by
  rw [Effect.isWelcome, decide_eq_false h, Bool.false_and]

/-- A refusal is no welcome. -/
theorem isWelcome_refusal (k : ConnRef) (reason : Bytes) :
    (Effect.toSession k ⟨.loginResp, pack [ascii "0", reason]⟩).isWelcome = false := by
  rw [Effect.isWelcome, unpack_pack_cons (by decide)]
  rfl

/-! ## Programs that stay at an open point -/

/-- The program stays at a point. -/
abbrev Rests (w : Work) (m : Point) (prog : ServerProg α) : Prop :=
  Goes w prog ⟨m, .whole⟩ ⟨m, .whole⟩

section

variable (hm : m.isOpen = true)

include hm

/-- Nothing happens to the state. -/
theorem step_look (s : ChatServer) : Phase.Step w ⟨m, .whole⟩ s [] s ⟨m, .whole⟩ :=
  .idle hm fun _ he => absurd he List.not_mem_nil

/-- An observation does not change the phase. -/
theorem Goes.observe {f : ChatServer → α} {q : α → ServerProg β}
    (h : ∀ a, Goes w (q a) ⟨m, .whole⟩ g') : Goes w (observe f >>= q) ⟨m, .whole⟩ g' :=
  follows_observe_bind fun s => ⟨_, step_look hm s, h (f s)⟩

theorem rests_sendPacket {t : PacketType} {pl : Bytes}
    (h : (Effect.toSession k ⟨t, pl⟩).isWelcome = false) : Rests w m (sendPacket k t pl) := by
  intro s
  refine ⟨_, .idle hm fun e he => ?_, rfl⟩
  rw [List.mem_singleton.mp he]
  exact h

theorem rests_sendFrame (p : Int) (k : ConnRef) (t : PacketType) (pl : Bytes) :
    Rests w m (sendFrame p k t pl) := by
  intro s
  refine ⟨_, .idle hm fun e he => ?_, rfl⟩
  change e ∈ (if s.connManager.canSend k = true then [.toPeer p k ⟨t, pl⟩] else []) at he
  split at he
  · rw [List.mem_singleton.mp he]
    rfl
  · exact absurd he List.not_mem_nil

theorem rests_notifyOnlineUsers (skip : Option SOCKET) : Rests w m (notifyOnlineUsers skip) := by
  refine Goes.observe hm fun sessions => Goes.observe hm fun onlineList => Calm.each fun k _ => ?_
  refine Goes.observe hm fun authenticated => Goes.observe hm fun handle =>
    Follows.ite (fun _ => ?_) fun _ => rfl
  exact Calm.then (rests_sendPacket hm (isWelcome_of_type PacketType.noConfusion _ _)) fun _ => rfl

theorem rests_sendToMembers (members : List Bytes) {t : PacketType} (ht : t ≠ .loginResp)
    (pl : Bytes) : Rests w m (sendToMembers members t pl) := by
  refine Calm.each fun name _ => Goes.observe hm fun session => ?_
  cases session with
  | none => exact rfl
  | some k => exact Calm.then (rests_sendPacket hm (isWelcome_of_type ht _ _)) fun _ => rfl

theorem rests_sendToAuthenticated {t : PacketType} (ht : t ≠ .loginResp) (pl : Bytes) :
    Rests w m (sendToAuthenticated t pl) := by
  refine Goes.observe hm fun sessions => Calm.each fun k _ => Goes.observe hm fun authenticated => ?_
  refine Follows.ite (fun _ => ?_) fun _ => rfl
  exact Calm.then (rests_sendPacket hm (isWelcome_of_type ht _ _)) fun _ => rfl

/-- The disconnect of a peer, which may occur wherever something is sent to one. -/
theorem rests_handlePeerDisconnect (p : Int) : Rests w m (handlePeerDisconnect p) := by
  have hpurge : Goes w (do
      update fun s => s.onConn (·.unregisterPeerSocket p s.now)
      update (onUsers (·.clearServerUsers p))
      update (onRooms (·.clearServerMemberships p))
      notifyOnlineUsers none) ⟨m, .shut p⟩ ⟨m, .whole⟩ :=
    Goes.update (fun _ => .cut) (Goes.update (fun _ => .wipeUsers) (Goes.update (fun _ => .wipeRooms)
      (rests_notifyOnlineUsers hm none)))
  refine follows_observe_bind fun s => ?_
  cases hpeer : s.connManager.hasPeerNode p with
  | false =>
      refine ⟨_, step_look hm s, Goes.observe hm fun connected => ?_⟩
      exact Follows.ite (fun h => absurd h.1 Bool.false_ne_true) fun _ => rfl
  | true =>
      refine ⟨_, .aim hm hpeer, follows_observe_bind fun s' => ?_⟩
      cases hup : (s'.connManager.nodes p).isConnected with
      | false =>
          refine ⟨_, .abort, ?_⟩
          exact Follows.ite (fun h => absurd h.2 Bool.false_ne_true) fun _ => rfl
      | true =>
          refine ⟨_, .found hup, Follows.ite (fun _ => ?_) fun h => absurd ⟨rfl, rfl⟩ h⟩
          refine follows_observe_bind fun s'' => ?_
          cases hsock : (s''.connManager.nodes p).socket with
          | none => exact ⟨_, .bare hsock, hpurge⟩
          | some k => exact ⟨_, .target hsock, Goes.update (fun _ => .close) hpurge⟩

theorem rests_sendOrDisconnect (p : Int) (t : PacketType) (pl : Bytes) :
    Rests w m (sendOrDisconnect p t pl) := by
  refine Goes.observe hm fun socket => ?_
  cases socket with
  | none => exact rfl
  | some k =>
      refine Calm.then (rests_sendFrame hm p k t pl) fun sent =>
        Follows.ite (fun _ => rfl) fun _ => ?_
      exact rests_handlePeerDisconnect hm p

theorem rests_sendToPeer (p : Int) (t : PacketType) (pl : Bytes) :
    Rests w m (sendToPeer p t pl) :=
  Goes.observe hm fun _ => Follows.ite (fun _ => rests_sendOrDisconnect hm p t pl) fun _ => rfl

theorem rests_broadcastS2S (t : PacketType) (pl : Bytes) : Rests w m (broadcastS2S t pl) :=
  Goes.observe hm fun _ => Calm.each fun p _ => rests_sendToPeer hm p t pl

theorem rests_replicateUserLogin (u : Bytes) : Rests w m (replicateUserLogin u) :=
  Goes.observe hm fun _ => rests_broadcastS2S hm _ _

theorem rests_replicateUserLogout (u : Bytes) : Rests w m (replicateUserLogout u) :=
  Goes.observe hm fun _ => rests_broadcastS2S hm _ _

theorem rests_replicateRoomJoin (r : Bytes) : Rests w m (replicateRoomJoin r) :=
  Goes.observe hm fun _ => rests_broadcastS2S hm _ _

theorem rests_replicateRoomLeave (r : Bytes) : Rests w m (replicateRoomLeave r) :=
  Goes.observe hm fun _ => rests_broadcastS2S hm _ _

theorem rests_routePrivateMessage (sender receiver text : Bytes) (p : Int) :
    Rests w m (routePrivateMessage sender receiver text p) :=
  Goes.observe hm fun _ => Follows.ite (fun _ => rests_sendToPeer hm _ _ _) fun _ => rfl

theorem rests_routeRoomMessage (sender room text : Bytes) :
    Rests w m (routeRoomMessage sender room text) :=
  Goes.observe hm fun _ => Calm.each fun _ _ => Goes.observe hm fun _ =>
    Follows.ite (fun _ => rests_sendToPeer hm _ _ _) fun _ => rfl

/-! ## The packets of clients -/

theorem rests_handlePrivateMsg (pl : Bytes) : Rests w m (handlePrivateMsg k pl) := by
  have hstatus : ∀ fields : List Bytes,
      Rests w m (do let _ ← sendPacket k .statusUpdate (pack fields)) := fun fields =>
    Calm.then (rests_sendPacket hm (isWelcome_of_type PacketType.noConfusion _ _)) fun _ => rfl
  rw [handlePrivateMsg]
  split
  next receiver text _ _ =>
    refine Goes.observe hm fun sender => Goes.observe hm fun location => Goes.observe hm fun id => ?_
    refine Follows.ite (fun _ => Goes.observe hm fun target => ?_) fun _ =>
      Follows.ite (fun _ => ?_) fun _ => hstatus _
    · cases target with
      | none => exact rfl
      | some t =>
          refine Calm.then (rests_sendPacket hm (isWelcome_of_type PacketType.noConfusion _ _))
            fun _ => ?_
          exact hstatus _
    · exact Calm.then (rests_routePrivateMessage hm _ _ _ _) fun _ => hstatus _
  next => exact rfl

theorem rests_handleRoomMsg (pl : Bytes) : Rests w m (handleRoomMsg k pl) := by
  rw [handleRoomMsg]
  split
  next room text _ _ =>
    refine Goes.observe hm fun sender => Goes.observe hm fun joined =>
      Follows.ite (fun _ => Goes.observe hm fun locals => ?_) fun _ => ?_
    · exact Calm.then (rests_sendToMembers hm _ PacketType.noConfusion _) fun _ =>
        rests_routeRoomMessage hm _ _ _
    · exact Calm.then (rests_sendPacket hm (isWelcome_of_type PacketType.noConfusion _ _))
        fun _ => rfl
  next => exact rfl

theorem rests_handleBroadcastMsg (pl : Bytes) : Rests w m (handleBroadcastMsg k pl) :=
  Goes.observe hm fun _ => Calm.then (rests_sendToAuthenticated hm PacketType.noConfusion _) fun _ =>
    rests_broadcastS2S hm _ _

theorem rests_handleRoomCreate (pl : Bytes) : Rests w m (handleRoomCreate k pl) :=
  Follows.ite (fun _ => rfl) fun _ =>
    Calm.then (rests_sendPacket hm (isWelcome_of_type PacketType.noConfusion _ _)) fun _ => rfl

end

theorem rests_handleRoomJoin (ht : pkt.type = .roomJoin) (pl : Bytes) :
    Rests (.task (.client k pkt)) .plain (handleRoomJoin k pl) := by
  refine Goes.observe rfl fun username => Follows.ite (fun _ => rfl) fun _ => ?_
  refine Goes.update (fun _ => .touch (.joinRoom _ _ _ ht)) (Goes.observe rfl fun before => ?_)
  refine Goes.update (fun _ => .touch (.joinRoomLocal _ _ _ _ ht)) ?_
  refine Calm.then (rests_sendPacket rfl (isWelcome_of_type PacketType.noConfusion _ _)) fun _ => ?_
  refine Goes.observe rfl fun locals =>
    Calm.then (rests_sendToMembers rfl _ PacketType.noConfusion _) fun _ => ?_
  exact Follows.ite (fun _ => rests_replicateRoomJoin rfl _) fun _ => rfl

theorem rests_handleRoomLeave (ht : pkt.type = .roomLeave) (pl : Bytes) :
    Rests (.task (.client k pkt)) .plain (handleRoomLeave k pl) := by
  refine Goes.observe rfl fun username => Goes.observe rfl fun joined =>
    Follows.ite (fun _ => rfl) fun _ => ?_
  refine Goes.update (fun _ => .touch (.leaveRoom _ _ _ ht)) ?_
  refine Goes.update (fun _ => .touch (.leaveRoomLocal _ _ _ _ ht)) ?_
  refine Calm.then (rests_sendPacket rfl (isWelcome_of_type PacketType.noConfusion _ _)) fun _ => ?_
  refine Goes.observe rfl fun locals =>
    Calm.then (rests_sendToMembers rfl _ PacketType.noConfusion _) fun _ => ?_
  exact Follows.ite (fun _ => rests_replicateRoomLeave rfl _) fun _ => rfl

/-- An accepted login goes from point to point; a refused one changes nothing. -/
theorem follows_handleLogin (ht : pkt.type = .login) :
    (handleLogin k pkt.payload).Follows (Phase.Step (.task (.client k pkt)))
      (fun _ x => x = ⟨.plain, .whole⟩ ∨ x = ⟨.served, .whole⟩) .start := by
  have hrefuse : ∀ reason, Rests (.task (.client k pkt)) .plain
      (do let _ ← sendPacket k .loginResp (pack [ascii "0", reason])) := fun reason =>
    Calm.then (rests_sendPacket rfl (isWelcome_refusal _ _)) fun _ => rfl
  refine Follows.ite (fun _ => ?_) fun hu => follows_observe_bind fun s => ?_
  · exact (hrefuse _).mono fun _ _ => Or.inl
  · cases ho : s.userManager.isUserOnline (trim pkt.payload) with
    | true =>
        refine ⟨_, step_look rfl s, ?_⟩
        exact Follows.ite (fun _ => (hrefuse _).mono fun _ _ => Or.inl) fun h => absurd rfl h
    | false =>
        refine ⟨_, .free ht (fun he => hu (Or.inl he)) (fun he => hu (Or.inr (Or.inl he))) ho, ?_⟩
        refine Follows.ite (fun h => absurd h Bool.false_ne_true) fun _ => ?_
        have haccept : Goes (.task (.client k pkt)) (do
            update fun s => s.onUsers (·.registerUser (trim pkt.payload) s.serverId)
            update (onConn (·.authenticateSession k (trim pkt.payload)))
            let _ ← sendPacket k .loginResp (pack [ascii "1", ascii "Welcome to Distributed Chat!"])
            replicateUserLogin (trim pkt.payload)
            notifyOnlineUsers none) ⟨.free (trim pkt.payload), .whole⟩ ⟨.served, .whole⟩ := by
          refine Goes.update (fun _ => .register) (Goes.update (fun _ => .authenticate) ?_)
          refine Follows.bind fun s => ⟨_, .welcome, ?_⟩
          exact Calm.then (rests_replicateUserLogin rfl _) fun _ => rests_notifyOnlineUsers rfl none
        exact haccept.mono fun _ _ => Or.inr

theorem goes_promote (ht : pkt.type = .s2sConnect) :
    (Work.task (.client k pkt)).Goes (promote k pkt.payload) .start := by
  rw [promote]
  cases hp : stoi pkt.payload with
  | none =>
      refine ⟨rfl, ?_⟩
      rw [Work.Ends, hp, if_neg fun h => Bool.false_ne_true h.2]
      exact Or.inl rfl
  | some p =>
      have hends : (Work.task (.client k pkt)).Ends .promoted := by
        rw [Work.Ends, hp, if_pos ⟨ht, rfl⟩]
      have hgoes : Goes (.task (.client k pkt)) (do
          let handle ← observe (·.connManager.getHandle k)
          update (onConn (·.removeSession handle))
          update fun s => s.onConn (·.registerPeerSocket p k s.now)
          let peerNode ← observe (·.connManager.hasPeerNode p)
          if peerNode = true then
            update (onConn (·.setConnected p true))
            update fun s => s.onConn (·.updateHeartbeat p s.now)) .start ⟨.promoted, .whole⟩ := by
        refine follows_observe_bind fun s => ⟨_, .dropping ht, ?_⟩
        refine Goes.update (fun _ => .drop) (Goes.update (fun _ => .promote ht hp) ?_)
        refine Goes.observe rfl fun peerNode => Follows.ite (fun _ => ?_) fun _ => rfl
        exact Goes.update (fun _ => .setConnected ht hp) (goes_update fun _ => .promotedBeat)
      refine hgoes.mono fun _ x hx => ?_
      rw [hx]
      exact ⟨rfl, hends⟩

theorem goes_handleClientPacket (k : ConnRef) (pkt : RawPacket) :
    (Work.task (.client k pkt)).Goes (handleClientPacket k pkt) .start := by
  -- a program that stays at its start ends there, unless it is a handshake
  have hrests : ∀ {prog : ServerProg Unit}, pkt.type ≠ .s2sConnect →
      Rests (.task (.client k pkt)) .plain prog → (Work.task (.client k pkt)).Goes prog .start := by
    intro prog ht h
    refine h.mono fun _ x hx => ?_
    rw [hx]
    refine ⟨rfl, ?_⟩
    rw [Work.Ends, if_neg fun hs => ht hs.1]
    exact Or.inl rfl
  refine follows_observe_bind fun s => ⟨_, step_look rfl s, Follows.ite (fun h => ?_) fun _ => ?_⟩
  · refine hrests h.2.2 ?_
    exact Calm.then (rests_sendPacket rfl (isWelcome_refusal _ _)) fun _ => rfl
  · split
    next ht =>
      refine (follows_handleLogin ht).mono fun _ x hx => ?_
      rcases hx with rfl | rfl
      · refine ⟨rfl, ?_⟩
        rw [Work.Ends, if_neg fun hs => by simp [ht] at hs]
        exact Or.inl rfl
      · refine ⟨rfl, ?_⟩
        rw [Work.Ends, if_neg fun hs => by simp [ht] at hs]
        exact Or.inr rfl
    next ht => exact hrests (by simp [ht]) (rests_handlePrivateMsg rfl _)
    next ht => exact hrests (by simp [ht]) (rests_handleRoomMsg rfl _)
    next ht => exact hrests (by simp [ht]) (rests_handleBroadcastMsg rfl _)
    next ht => exact hrests (by simp [ht]) (rests_handleRoomJoin ht _)
    next ht => exact hrests (by simp [ht]) (rests_handleRoomLeave ht _)
    next ht => exact hrests (by simp [ht]) (rests_handleRoomCreate rfl _)
    next ht => exact goes_promote ht
    next _ _ _ _ _ _ _ ht => exact hrests ht rfl

/-! ## The packets of peers -/

theorem content_of_unpack {payload key id active : Bytes} {fields : List Bytes}
    (hu : unpack payload = key :: id :: active :: fields) :
    content payload = (stoi id).map fun i => (key, i, decide (active = ascii "1")) := by
  rw [content, hu]

theorem content_eq_none {payload : Bytes} (h : ∀ (key id active : Bytes) (fields : List Bytes),
    unpack payload = key :: id :: active :: fields → False) : content payload = none := by
  rw [content]
  split
  next hu => exact absurd hu (h _ _ _ _)
  next => rfl

theorem goes_handleS2SReplicateUser (ht : pkt.type = .s2sReplicateUser) :
    Goes (.task (.peer p k pkt)) (handleS2SReplicateUser pkt.payload) .start
      ⟨if (content pkt.payload).isSome = true then .applied else .plain, .whole⟩ := by
  rw [handleS2SReplicateUser]
  split
  next u id online fields hu =>
    have hcontent := content_of_unpack hu
    cases hi : stoi id with
    | none =>
        rw [hcontent, hi]
        exact rfl
    | some i =>
        rw [hi] at hcontent
        rw [hcontent]
        refine Follows.ite (fun ho => ?_) fun ho => ?_
        · rw [decide_eq_true ho] at hcontent
          exact Goes.update (fun _ => .apply (.login ht hcontent)) (rests_notifyOnlineUsers rfl none)
        · rw [decide_eq_false ho] at hcontent
          exact Goes.update (fun _ => .apply (.logout ht hcontent)) (rests_notifyOnlineUsers rfl none)
  next hnot =>
    rw [content_eq_none hnot]
    exact rfl

theorem goes_handleS2SRoomMemberSync (ht : pkt.type = .s2sRoomMemberSync) :
    Goes (.task (.peer p k pkt)) (handleS2SRoomMemberSync pkt.payload) .start
      ⟨if (content pkt.payload).isSome = true then .applied else .plain, .whole⟩ := by
  rw [handleS2SRoomMemberSync]
  split
  next r id active fields hu =>
    have hcontent := content_of_unpack hu
    cases hi : stoi id with
    | none =>
        rw [hcontent, hi]
        exact rfl
    | some i =>
        rw [hi] at hcontent
        rw [hcontent]
        refine Follows.ite (fun ho => ?_) fun ho => ?_
        · rw [decide_eq_true ho] at hcontent
          exact goes_update fun _ => .apply (.enter ht hcontent)
        · rw [decide_eq_false ho] at hcontent
          exact goes_update fun _ => .apply (.exit ht hcontent)
  next hnot =>
    rw [content_eq_none hnot]
    exact rfl

theorem rests_handleS2SRouteMsg (pl : Bytes) : Rests w .plain (handleS2SRouteMsg pl) := by
  rw [handleS2SRouteMsg]
  split
  · refine Goes.observe rfl fun session => ?_
    cases session with
    | none => exact rfl
    | some t =>
        exact Calm.then (rests_sendPacket rfl (isWelcome_of_type PacketType.noConfusion _ _))
          fun _ => rfl
  · exact rests_sendToAuthenticated rfl PacketType.noConfusion _
  · exact rfl

theorem rests_handleS2SRouteRoomMsg (pl : Bytes) :
    Rests w .plain (handleS2SRouteRoomMsg pl) := by
  rw [handleS2SRouteRoomMsg]
  split
  · exact Goes.observe rfl fun _ => rests_sendToMembers rfl _ PacketType.noConfusion _
  · exact rfl

theorem rests_handleS2SHeartbeat (p : Int) : Rests w .plain (handleS2SHeartbeat p) := by
  refine Goes.observe rfl fun id => Goes.observe rfl fun socket => ?_
  cases socket with
  | none => exact rfl
  | some k => exact Calm.then (rests_sendFrame rfl _ _ _ _) fun _ => rfl

theorem goes_handleServerPacket (p : Int) (k : ConnRef) (pkt : RawPacket) :
    (Work.task (.peer p k pkt)).Goes (handleServerPacket p pkt) .start := by
  have hrests : ∀ {prog : ServerProg Unit}, pkt.type ≠ .s2sReplicateUser →
      pkt.type ≠ .s2sRoomMemberSync → Rests (.task (.peer p k pkt)) .plain prog →
        (Work.task (.peer p k pkt)).Goes prog .start := by
    intro prog hu hr h
    refine h.mono fun _ x hx => ?_
    rw [hx]
    refine ⟨rfl, ?_⟩
    rw [Work.Ends, if_neg fun hs => hs.1.elim hu hr]
  -- a replication packet ends where its content says
  have happly : ∀ {prog : ServerProg Unit}, pkt.type = .s2sReplicateUser ∨
      pkt.type = .s2sRoomMemberSync → Goes (.task (.peer p k pkt)) prog .start
        ⟨if (content pkt.payload).isSome = true then .applied else .plain, .whole⟩ →
          (Work.task (.peer p k pkt)).Goes prog .start := by
    intro prog ht h
    refine h.mono fun _ x hx => ?_
    rw [hx]
    refine ⟨rfl, ?_⟩
    simp only [Work.Ends, ht, true_and]
    split <;> rfl
  refine follows_update_bind fun s => ⟨_, .touch (.beat ..), ?_⟩
  split
  next ht => exact hrests (by simp [ht]) (by simp [ht]) (rests_handleS2SHeartbeat p)
  next ht => exact hrests (by simp [ht]) (by simp [ht]) rfl
  next ht => exact happly (Or.inl ht) (goes_handleS2SReplicateUser ht)
  next ht => exact hrests (by simp [ht]) (by simp [ht]) (rests_handleS2SRouteMsg _)
  next ht => exact hrests (by simp [ht]) (by simp [ht]) (rests_handleS2SRouteRoomMsg _)
  next ht => exact happly (Or.inr ht) (goes_handleS2SRoomMemberSync ht)
  next _ _ hu _ _ hr => exact hrests hu hr rfl

/-! ## The other threads -/

theorem goes_clientDisconnect (k : ConnRef) :
    Goes (.clientGone k) (clientDisconnect k) .start ⟨.gone, .whole⟩ := by
  refine follows_observe_bind fun s => ⟨_, .ending, ?_⟩
  refine follows_observe_bind fun s' => ?_
  by_cases hu : (s'.connManager.sessions k).username = []
  · refine ⟨_, .nameless hu, ?_⟩
    rw [if_neg (not_not_intro hu)]
    exact goes_update fun _ => .remove
  · refine ⟨_, .leaving hu, ?_⟩
    rw [if_pos hu]
    refine Goes.update (fun _ => .logout) ?_
    refine Calm.then (rests_replicateUserLogout rfl _) fun _ => ?_
    exact Calm.then (rests_notifyOnlineUsers rfl _) fun _ => goes_update fun _ => .remove

theorem rests_heartbeatRound : Rests w .plain heartbeatRound := by
  refine Goes.observe rfl fun peers => Goes.observe rfl fun now => Calm.each fun p _ => ?_
  refine Goes.observe rfl fun node => Follows.ite (fun _ => ?_) fun _ => rfl
  refine Follows.ite (fun _ => rests_handlePeerDisconnect rfl p) fun _ =>
    Goes.observe rfl fun id => ?_
  exact rests_sendOrDisconnect rfl p _ _

theorem goes_peerConnected (p : Int) (sock : ConnRef) :
    Goes (.connected p sock) (peerConnected p sock) .start .start := by
  refine Goes.update (fun _ => .touch (.register ..)) ?_
  refine Goes.update (fun _ => .touch (.setConnected ..)) ?_
  refine Goes.update (fun _ => .touch (.connectedBeat ..)) (Goes.observe rfl fun id => ?_)
  exact Calm.then (rests_sendFrame rfl _ _ _ _) fun _ => rfl

/-- Every program goes through the phases of the automaton to its end. -/
theorem Work.goes (w : Work) : w.Goes w.prog .start := by
  have hends : ∀ {w : Work} {prog : ServerProg Unit} {m : Point},
      DistributedChat.Goes w prog .start ⟨m, .whole⟩ → w.Ends m → w.Goes prog .start := by
    intro w prog m h hw
    refine h.mono fun _ x hx => ?_
    rw [hx]
    exact ⟨rfl, hw⟩
  cases w with
  | task t =>
      cases t with
      | client k pkt => exact goes_handleClientPacket k pkt
      | peer p k pkt => exact goes_handleServerPacket p k pkt
  | clientGone k => exact hends (goes_clientDisconnect k) rfl
  | peerGone p => exact hends (rests_handlePeerDisconnect rfl p) rfl
  | heartbeats => exact hends rests_heartbeatRound rfl
  | connected p sock => exact hends (goes_peerConnected p sock) rfl

/-- A program does not end in the middle of a login. -/
theorem Work.Ends.point (h : w.Ends m) : m = .plain ∨ m = .served ∨ m = .promoted ∨ m = .applied ∨
    m = .gone := by
  cases w with
  | task t =>
      cases t with
      | client =>
          rw [Work.Ends] at h
          split at h
          · exact Or.inr (Or.inr (Or.inl h))
          · exact h.imp_right Or.inl
      | peer =>
          rw [Work.Ends] at h
          split at h
          · exact Or.inr (Or.inr (Or.inr (Or.inl h)))
          · exact Or.inl h
  | clientGone => exact Or.inr (Or.inr (Or.inr (Or.inr h)))
  | peerGone | heartbeats | connected => exact Or.inl h

/-- A program that has not come to an end has a next section. -/
theorem exists_section {prog : ServerProg Unit} (h : w.Goes prog g) (hnot : ¬ w.Ends g.point)
    (s : ChatServer) : ∃ sec g', prog.step? s = some sec ∧ Phase.Step w g s sec.out sec.state g' := by
  cases hsec : prog.step? s with
  | none =>
      obtain ⟨-, -, hends⟩ := h.ended hsec
      exact absurd hends hnot
  | some sec =>
      obtain ⟨g', hstep, -⟩ := h.section hsec
      exact ⟨sec, g', rfl, hstep⟩

/-! ## What a section leaves as it is -/

section

variable {s s' : ChatServer} {out : List Effect}

theorem Phase.Step.serverId (h : Phase.Step w g s out s' g') : s'.serverId = s.serverId := by
  cases h with
  | touch h => cases h <;> rfl
  | apply h => cases h <;> rfl
  | _ => rfl

/-- Only the listener and the connector make objects, and in actions of their own. -/
theorem Phase.Step.nextConn (h : Phase.Step w g s out s' g') :
    s'.connManager.nextConn = s.connManager.nextConn := by
  cases h with
  | touch h =>
      cases h with
      | register => exact ConnectionManager.nextConn_registerPeerSocket ..
      | _ => rfl
  | cut => exact ConnectionManager.nextConn_unregisterPeerSocket ..
  | remove | drop => exact ConnectionManager.nextConn_removeSession ..
  | promote => exact ConnectionManager.nextConn_registerPeerSocket ..
  | apply h => cases h <;> rfl
  | _ => rfl

/-- The peers are those of the configuration. -/
theorem Phase.Step.peerNodes (h : Phase.Step w g s out s' g') :
    s'.connManager.peerNodes = s.connManager.peerNodes := by
  cases h with
  | touch h =>
      cases h with
      | register => exact ConnectionManager.peerNodes_registerPeerSocket ..
      | _ => rfl
  | cut => exact ConnectionManager.peerNodes_unregisterPeerSocket ..
  | remove | drop => exact ConnectionManager.peerNodes_removeSession ..
  | promote => exact ConnectionManager.peerNodes_registerPeerSocket ..
  | apply h => cases h <;> rfl
  | _ => rfl

/-- A `HandlePeerDisconnect` is begun at an open point. -/
theorem Phase.Step.whole (h : Phase.Step w g s out s' g')
    (hg : g.point.isOpen = true ∨ g.stage = .whole) :
    g'.point.isOpen = true ∨ g'.stage = .whole := by
  cases h with
  | aim hm => exact Or.inl hm
  | found | target | bare | close | cut | wipeUsers =>
      rcases hg with hg | hg
      · exact Or.inl hg
      · cases hg
  | _ => exact Or.inr rfl

/-- No section adds a session. -/
theorem Phase.Step.live (h : Phase.Step w g s out s' g') (hk : s'.connManager.Live k) :
    s.connManager.Live k := by
  have hsame : ∀ {m m' : ConnectionManager}, m'.sessionsBySocket = m.sessionsBySocket → m'.Live k →
      m.Live k := by
    intro m m' he hk
    rw [ConnectionManager.live_iff] at hk ⊢
    rwa [he] at hk
  cases h with
  | touch h =>
      cases h with
      | register => exact hsame (ConnectionManager.sessionsBySocket_registerPeerSocket ..) hk
      | _ => exact hk
  | cut => exact hsame (ConnectionManager.sessionsBySocket_unregisterPeerSocket ..) hk
  | remove | drop => exact ConnectionManager.live_of_live_removeSession hk
  | promote => exact hsame (ConnectionManager.sessionsBySocket_registerPeerSocket ..) hk
  | apply h => cases h <;> exact hk
  | _ => exact hk

/-- A session gets its name in `AuthenticateSession`. -/
theorem Phase.Step.nameOf (h : Phase.Step w g s out s' g') (k : ConnRef) :
    s'.nameOf k = s.nameOf k ∨ ∃ u pkt, w = .task (.client k pkt) ∧ g = ⟨.entered u, .whole⟩ ∧
      g' = ⟨.named u, .whole⟩ ∧ s'.nameOf k = u := by
  have hsame : s'.connManager.sessions = s.connManager.sessions → s'.nameOf k = s.nameOf k := by
    intro he
    rw [ChatServer.nameOf, he]
    rfl
  cases h with
  | touch h =>
      left
      cases h with
      | joinRoom | leaveRoom =>
          simp only [ChatServer.nameOf, onConn_connManager, ConnectionManager.sessions_joinRoom,
            ConnectionManager.sessions_leaveRoom]
          split
          next he => rw [he]
          next => rfl
      | register => exact hsame (ConnectionManager.sessions_registerPeerSocket ..)
      | _ => rfl
  | cut => exact Or.inl (hsame (ConnectionManager.sessions_unregisterPeerSocket ..))
  | remove | drop => exact Or.inl (hsame (ConnectionManager.sessions_removeSession ..))
  | promote => exact Or.inl (hsame (ConnectionManager.sessions_registerPeerSocket ..))
  | @authenticate j pkt u =>
      by_cases hk : k = j
      · subst hk
        refine Or.inr ⟨u, pkt, rfl, rfl, rfl, ?_⟩
        rw [ChatServer.nameOf, onConn_connManager, ConnectionManager.sessions_authenticateSession,
          if_pos rfl]
      · left
        rw [ChatServer.nameOf, onConn_connManager, ConnectionManager.sessions_authenticateSession,
          if_neg hk]
        rfl
  | apply h => cases h <;> exact Or.inl rfl
  | _ => exact Or.inl rfl

end

end

end DistributedChat
