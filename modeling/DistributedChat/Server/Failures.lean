import DistributedChat.Server.Threads
import DistributedChat.Logic.Phases

/-!
# Failures of links

A failure is seen on a socket, and `HandlePeerDisconnect` is told the id of the
peer only.  A `Trouble` is how far a thread has come with a link: the socket it
is using, or the socket it has seen fail and the section of
`HandlePeerDisconnect` it is at.  `LinkStep` has the steps of the threads that
use links, and an `Aside` is any other section, one that leaves every link with
the socket it has.

Every program of a server is made of these (`Work.recovers`).  A thread that is
in no trouble registers sockets and makes asides.
-/

namespace DistributedChat

open ChatServer

/-- How far a `HandlePeerDisconnect` has come. -/
inductive Handling where
  | called
  /-- There is such a peer. -/
  | found
  /-- The peer is connected. -/
  | connected
  /-- The socket of the peer has been read. -/
  | closing (y : ConnRef)
  /-- The socket is closed, or there was none. -/
  | cutting
  | unregistered
  /-- The users of the peer are gone. -/
  | cleared
deriving DecidableEq

/-- How far a thread has come with a link. -/
inductive Trouble where
  | calm
  /-- The thread uses the socket `x` of peer `p`. -/
  | engaged (p : Int) (x : ConnRef)
  /-- The thread has seen a failure on `x`, the socket of peer `p`. -/
  | handling (p : Int) (x : Option ConnRef) (stage : Handling)
deriving DecidableEq

/-- The next section of `HandlePeerDisconnect`. -/
def Handling.proceed (s : ChatServer) (p : Int) (x : Option ConnRef) :
    Handling → Trouble × ChatServer
  | called => (if s.connManager.hasPeerNode p = true then .handling p x .found else .calm, s)
  | found =>
      (if (s.connManager.nodes p).isConnected = true then .handling p x .connected else .calm, s)
  | connected =>
      match (s.connManager.nodes p).socket with
      | none => (.handling p x .cutting, s)
      | some y => (.handling p x (.closing y), s)
  | closing y => (.handling p x .cutting, s.onConn (·.closeSocket y))
  | cutting => (.handling p x .unregistered, s.onConn (·.unregisterPeerSocket p s.now))
  | unregistered => (.handling p x .cleared, s.onUsers (·.clearServerUsers p))
  | cleared => (.calm, s.onRooms (·.clearServerMemberships p))

/-- What a thread does with a link. -/
inductive LinkStep where
  /-- It reads the socket of a peer. -/
  | engage (p : Int)
  /-- The send or the read succeeds. -/
  | succeed
  /-- The send or the read fails. -/
  | fail
  /-- The heartbeat thread finds a peer silent. -/
  | timeOut (p : Int)
  /-- It goes on with `HandlePeerDisconnect`. -/
  | proceed
deriving DecidableEq

/-- What becomes of the thread and of the server. -/
def LinkStep.perform (s : ChatServer) : LinkStep → Trouble → Option (Trouble × ChatServer)
  | engage p, .calm => (s.connManager.nodes p).socket.map fun x => (.engaged p x, s)
  | succeed, .engaged _ _ => some (.calm, s)
  | fail, .engaged p x => some (.handling p (some x) .called, s)
  | timeOut p, .calm =>
      if (s.connManager.nodes p).isConnected = true then
        some (.handling p (s.connManager.nodes p).socket .called, s)
      else none
  | proceed, .handling p x stage => some (stage.proceed s p x)
  | _, _ => none

/-- A section that leaves every peer the socket it has. -/
structure Aside where
  apply : ChatServer → ChatServer
  socket_apply : ∀ s p,
    ((apply s).connManager.nodes p).socket = (s.connManager.nodes p).socket

/-- An observation. -/
def Aside.look : Aside := ⟨id, fun _ _ => rfl⟩

/-- A new socket object on an open handle. -/
def Aside.newSocket (handle : SOCKET) : Aside :=
  ⟨fun s => s.onConn (·.newSocket handle), fun _ _ => rfl⟩

/-- A section of a program: the trouble and the state before it, its outputs, the
state and the trouble after it. -/
inductive Trouble.Moves : Trouble → ChatServer → List Effect → ChatServer → Trouble → Prop where
  | aside (a : Aside) (s : ChatServer) (out : List Effect) : Moves .calm s out (a.apply s) .calm
  | register (p : Int) (k : ConnRef) (s : ChatServer) :
      Moves .calm s [] (s.onConn (·.registerPeerSocket p k s.now)) .calm
  | link {a : LinkStep} {g g' : Trouble} {s s' : ChatServer} (out : List Effect)
      (h : a.perform s g = some (g', s')) : Moves g s out s' g'

/-- A program that is calm at its end, whatever it goes through. -/
abbrev Recovers {α : Type} (prog : ServerProg α) (g : Trouble) : Prop :=
  prog.Follows Trouble.Moves (fun _ g' => g' = .calm) g

open Prog (observe update each follows_observe_bind follows_update_bind follows_update Follows Calm)

section

variable {α β : Type} {k : ConnRef} {p : Int}

theorem moves_look (s : ChatServer) (out : List Effect) : Trouble.Moves .calm s out s .calm :=
  .aside .look s out

/-- The next section of `HandlePeerDisconnect`. -/
theorem moves_proceed {s s' : ChatServer} {x : Option ConnRef} {stage : Handling} {g : Trouble}
    (h : stage.proceed s p x = (g, s')) : Trouble.Moves (.handling p x stage) s [] s' g :=
  .link (a := .proceed) [] (congrArg some h)

theorem Recovers.observe {f : ChatServer → α} {q : α → ServerProg β}
    (h : ∀ a, Recovers (q a) .calm) : Recovers (observe f >>= q) .calm :=
  follows_observe_bind fun s => ⟨_, moves_look s [], h (f s)⟩

theorem recovers_update {f : ChatServer → ChatServer}
    (hf : ∀ s p, ((f s).connManager.nodes p).socket = (s.connManager.nodes p).socket) :
    Recovers (update f) .calm :=
  follows_update fun s => ⟨_, .aside ⟨f, hf⟩ s [], rfl⟩

theorem Recovers.update {f : ChatServer → ChatServer} {q : Unit → ServerProg β}
    (hf : ∀ s p, ((f s).connManager.nodes p).socket = (s.connManager.nodes p).socket)
    (h : Recovers (q ()) .calm) : Recovers (update f >>= q) .calm :=
  Calm.then (recovers_update hf) fun _ => h

theorem Recovers.register {q : Unit → ServerProg β} (h : Recovers (q ()) .calm) :
    Recovers (Prog.update (fun s => s.onConn (·.registerPeerSocket p k s.now)) >>= q) .calm :=
  follows_update_bind fun s => ⟨_, .register p k s, h⟩

theorem socket_setConnected (p : Int) (c : Bool) (s : ChatServer) (q : Int) :
    ((s.onConn (·.setConnected p c)).connManager.nodes q).socket =
      (s.connManager.nodes q).socket := by
  rw [onConn_connManager, ConnectionManager.nodes_setConnected]
  split
  next h => rw [h]
  next => rfl

theorem socket_removeSession (handle : SOCKET) (s : ChatServer) (q : Int) :
    ((s.onConn (·.removeSession handle)).connManager.nodes q).socket =
      (s.connManager.nodes q).socket := by
  rw [onConn_connManager, ConnectionManager.nodes_removeSession]

/-! ## What leaves links alone -/

theorem recovers_sendPacket (k : ConnRef) (t : PacketType) (pl : Bytes) :
    Recovers (sendPacket k t pl) .calm :=
  fun s => ⟨_, moves_look s _, rfl⟩

theorem recovers_sendFrame (p : Int) (k : ConnRef) (t : PacketType) (pl : Bytes) :
    Recovers (sendFrame p k t pl) .calm :=
  fun s => ⟨_, moves_look s _, rfl⟩

/-- A packet to a client, and nothing after it. -/
theorem recovers_reply (k : ConnRef) (t : PacketType) (pl : Bytes) :
    Recovers (do let _ ← sendPacket k t pl) .calm :=
  Calm.then (recovers_sendPacket k t pl) fun _ => rfl

/-- A thread of any kind that looks on while it tells the sessions who is online. -/
theorem calm_notifyOnlineUsers {γ : Type} {δ : γ → ChatServer → List Effect → ChatServer → γ → Prop}
    {g : γ} (look : ∀ s out, δ g s out s g) (skip : Option SOCKET) :
    (notifyOnlineUsers skip).Calm δ g := by
  refine follows_observe_bind fun s => ⟨g, look s [], ?_⟩
  refine follows_observe_bind fun s => ⟨g, look s [], Calm.each fun k _ => ?_⟩
  refine follows_observe_bind fun s => ⟨g, look s [], ?_⟩
  refine follows_observe_bind fun s => ⟨g, look s [], Follows.ite (fun _ => ?_) fun _ => rfl⟩
  exact Calm.then (fun s => ⟨g, look s _, rfl⟩) fun _ => rfl

theorem recovers_notifyOnlineUsers (skip : Option SOCKET) :
    Recovers (notifyOnlineUsers skip) .calm :=
  calm_notifyOnlineUsers moves_look skip

theorem recovers_sendToMembers (members : List Bytes) (t : PacketType) (pl : Bytes) :
    Recovers (sendToMembers members t pl) .calm := by
  refine Calm.each fun name _ => Recovers.observe fun session => ?_
  cases session with
  | none => exact rfl
  | some k => exact recovers_reply k t pl

theorem recovers_sendToAuthenticated (t : PacketType) (pl : Bytes) :
    Recovers (sendToAuthenticated t pl) .calm := by
  refine Recovers.observe fun sessions => Calm.each fun k _ => Recovers.observe fun authenticated => ?_
  exact Follows.ite (fun _ => recovers_reply k t pl) fun _ => rfl

/-! ## Using links -/

/-- `HandlePeerDisconnect` after a failure on the socket `x`. -/
theorem recovers_handlePeerDisconnect (p : Int) (x : Option ConnRef) :
    Recovers (handlePeerDisconnect p) (.handling p x .called) := by
  have hcut : Recovers (do
      update fun s => s.onConn (·.unregisterPeerSocket p s.now)
      update (onUsers (·.clearServerUsers p))
      update (onRooms (·.clearServerMemberships p))
      notifyOnlineUsers none) (.handling p x .cutting) := by
    refine follows_update_bind fun s => ⟨_, moves_proceed rfl, ?_⟩
    refine follows_update_bind fun s => ⟨_, moves_proceed rfl, ?_⟩
    refine follows_update_bind fun s => ⟨_, moves_proceed rfl, ?_⟩
    exact recovers_notifyOnlineUsers none
  refine follows_observe_bind fun s => ?_
  cases hpeer : s.connManager.hasPeerNode p with
  | false =>
      refine ⟨.calm, moves_proceed (by simp [Handling.proceed, hpeer]), ?_⟩
      refine Recovers.observe fun connected => ?_
      exact Follows.ite (fun h => absurd h.1 Bool.false_ne_true) fun _ => rfl
  | true =>
      refine ⟨.handling p x .found, moves_proceed (by simp [Handling.proceed, hpeer]), ?_⟩
      refine follows_observe_bind fun s' => ?_
      cases hup : (s'.connManager.nodes p).isConnected with
      | false =>
          refine ⟨.calm, moves_proceed (by simp [Handling.proceed, hup]), ?_⟩
          exact Follows.ite (fun h => absurd h.2 Bool.false_ne_true) fun _ => rfl
      | true =>
          refine ⟨.handling p x .connected, moves_proceed (by simp [Handling.proceed, hup]), ?_⟩
          refine Follows.ite (fun _ => follows_observe_bind fun s'' => ?_) fun h => absurd ⟨rfl, rfl⟩ h
          cases hsock : (s''.connManager.nodes p).socket with
          | none =>
              exact ⟨.handling p x .cutting, moves_proceed (by simp [Handling.proceed, hsock]), hcut⟩
          | some y =>
              refine ⟨.handling p x (.closing y), moves_proceed (by simp [Handling.proceed, hsock]),
                ?_⟩
              exact follows_update_bind fun _ => ⟨_, moves_proceed rfl, hcut⟩

theorem recovers_sendOrDisconnect (p : Int) (t : PacketType) (pl : Bytes) :
    Recovers (sendOrDisconnect p t pl) .calm := by
  refine follows_observe_bind fun s => ?_
  cases hsock : (s.connManager.nodes p).socket with
  | none => exact ⟨_, moves_look s [], rfl⟩
  | some x =>
      refine ⟨.engaged p x, .link (a := .engage p) [] (by simp [LinkStep.perform, hsock]), ?_⟩
      refine Follows.bind fun s' => ?_
      cases hsend : s'.connManager.canSend x with
      | true =>
          refine ⟨.calm, .link (a := .succeed) _ rfl, ?_⟩
          exact Follows.ite (fun _ => rfl) fun hnot => absurd hsend hnot
      | false =>
          refine ⟨_, .link (a := .fail) _ rfl, ?_⟩
          refine Follows.ite (fun h => absurd (hsend.symm.trans h) Bool.false_ne_true) fun _ => ?_
          exact recovers_handlePeerDisconnect p (some x)

theorem recovers_sendToPeer (p : Int) (t : PacketType) (pl : Bytes) :
    Recovers (sendToPeer p t pl) .calm :=
  Recovers.observe fun _ => Follows.ite (fun _ => recovers_sendOrDisconnect p t pl) fun _ => rfl

theorem recovers_broadcastS2S (t : PacketType) (pl : Bytes) :
    Recovers (broadcastS2S t pl) .calm :=
  Recovers.observe fun _ => Calm.each fun p _ => recovers_sendToPeer p t pl

theorem recovers_routePrivateMessage (sender receiver text : Bytes) (p : Int) :
    Recovers (routePrivateMessage sender receiver text p) .calm :=
  Recovers.observe fun _ => Follows.ite (fun _ => recovers_sendToPeer _ _ _) fun _ => rfl

theorem recovers_routeRoomMessage (sender room text : Bytes) :
    Recovers (routeRoomMessage sender room text) .calm :=
  Recovers.observe fun _ => Calm.each fun _ _ => Recovers.observe fun _ =>
    Follows.ite (fun _ => recovers_sendToPeer _ _ _) fun _ => rfl

/-- A replication is a broadcast. -/
theorem recovers_replicate (key : Bytes) (online : Bool) (t : PacketType) :
    Recovers (do
      let id ← observe ChatServer.serverId
      broadcastS2S t (replicationPayload key id online)) .calm :=
  Recovers.observe fun _ => recovers_broadcastS2S t _

theorem recovers_heartbeatRound : Recovers heartbeatRound .calm := by
  refine Recovers.observe fun peers => Recovers.observe fun now => Calm.each fun p _ => ?_
  refine follows_observe_bind fun s => ?_
  by_cases hup : (s.connManager.nodes p).isConnected = true
  · rw [if_pos hup]
    by_cases hlate : now - (s.connManager.nodes p).lastHeartbeatTime ≥ 15
    · rw [if_pos hlate]
      refine ⟨_, .link (a := .timeOut p) [] (if_pos hup), ?_⟩
      exact recovers_handlePeerDisconnect p _
    · rw [if_neg hlate]
      exact ⟨_, moves_look s [], Recovers.observe fun id => recovers_sendOrDisconnect p _ _⟩
  · rw [if_neg hup]
    exact ⟨_, moves_look s [], rfl⟩

/-! ## The packets of clients and of peers -/

theorem recovers_handleLogin (pl : Bytes) : Recovers (handleLogin k pl) .calm := by
  refine Follows.ite (fun _ => recovers_reply _ _ _) fun _ => Recovers.observe fun online => ?_
  refine Follows.ite (fun _ => recovers_reply _ _ _) fun _ => ?_
  refine Recovers.update (fun _ _ => rfl) (Recovers.update (fun _ _ => rfl) ?_)
  refine Calm.then (recovers_sendPacket _ _ _) fun _ => ?_
  exact Calm.then (recovers_replicate _ _ _) fun _ => recovers_notifyOnlineUsers none

theorem recovers_handlePrivateMsg (pl : Bytes) : Recovers (handlePrivateMsg k pl) .calm := by
  rw [handlePrivateMsg]
  split
  next receiver text _ _ =>
    refine Recovers.observe fun sender => Recovers.observe fun location =>
      Recovers.observe fun id => Follows.ite (fun _ => Recovers.observe fun target => ?_) fun _ =>
        Follows.ite (fun _ => ?_) fun _ => recovers_reply _ _ _
    · cases target with
      | none => exact rfl
      | some t => exact Calm.then (recovers_sendPacket _ _ _) fun _ => recovers_reply _ _ _
    · exact Calm.then (recovers_routePrivateMessage _ _ _ _) fun _ => recovers_reply _ _ _
  next => exact rfl

theorem recovers_handleRoomMsg (pl : Bytes) : Recovers (handleRoomMsg k pl) .calm := by
  rw [handleRoomMsg]
  split
  next room text _ _ =>
    refine Recovers.observe fun sender => Recovers.observe fun joined =>
      Follows.ite (fun _ => Recovers.observe fun locals => ?_) fun _ => recovers_reply _ _ _
    exact Calm.then (recovers_sendToMembers _ _ _) fun _ => recovers_routeRoomMessage _ _ _
  next => exact rfl

theorem recovers_handleBroadcastMsg (pl : Bytes) : Recovers (handleBroadcastMsg k pl) .calm :=
  Recovers.observe fun _ => Calm.then (recovers_sendToAuthenticated _ _) fun _ =>
    recovers_broadcastS2S _ _

theorem recovers_handleRoomJoin (pl : Bytes) : Recovers (handleRoomJoin k pl) .calm := by
  refine Recovers.observe fun username => Follows.ite (fun _ => rfl) fun _ => ?_
  refine Recovers.update (fun _ _ => rfl) (Recovers.observe fun before => ?_)
  refine Recovers.update (fun _ _ => rfl) (Calm.then (recovers_sendPacket _ _ _) fun _ => ?_)
  refine Recovers.observe fun locals => Calm.then (recovers_sendToMembers _ _ _) fun _ => ?_
  exact Follows.ite (fun _ => recovers_replicate _ _ _) fun _ => rfl

theorem recovers_handleRoomLeave (pl : Bytes) : Recovers (handleRoomLeave k pl) .calm := by
  refine Recovers.observe fun username => Recovers.observe fun joined =>
    Follows.ite (fun _ => rfl) fun _ => ?_
  refine Recovers.update (fun _ _ => rfl) (Recovers.update (fun _ _ => rfl) ?_)
  refine Calm.then (recovers_sendPacket _ _ _) fun _ => Recovers.observe fun locals => ?_
  refine Calm.then (recovers_sendToMembers _ _ _) fun _ => ?_
  exact Follows.ite (fun _ => recovers_replicate _ _ _) fun _ => rfl

theorem recovers_promote (pl : Bytes) : Recovers (promote k pl) .calm := by
  rw [promote]
  cases stoi pl with
  | none => exact rfl
  | some p =>
      refine Recovers.observe fun handle => Recovers.update (socket_removeSession handle) ?_
      refine Recovers.register (Recovers.observe fun peerNode => ?_)
      refine Follows.ite (fun _ => ?_) fun _ => rfl
      refine Recovers.update (socket_setConnected p true) ?_
      exact recovers_update fun s q => s.connManager.socket_updateHeartbeat p q s.now

theorem recovers_handleClientPacket (k : ConnRef) (pkt : RawPacket) :
    Recovers (handleClientPacket k pkt) .calm := by
  refine Recovers.observe fun authenticated => Follows.ite (fun _ => recovers_reply _ _ _) fun _ => ?_
  split
  · exact recovers_handleLogin _
  · exact recovers_handlePrivateMsg _
  · exact recovers_handleRoomMsg _
  · exact recovers_handleBroadcastMsg _
  · exact recovers_handleRoomJoin _
  · exact recovers_handleRoomLeave _
  · exact Follows.ite (fun _ => rfl) fun _ => recovers_reply _ _ _
  · exact recovers_promote _
  · exact rfl

theorem recovers_handleS2SReplicateUser (pl : Bytes) :
    Recovers (handleS2SReplicateUser pl) .calm := by
  rw [handleS2SReplicateUser]
  split
  next username id online _ _ =>
    cases stoi id with
    | none => exact rfl
    | some i =>
        refine Follows.ite (fun _ => ?_) fun _ => ?_
        · exact Recovers.update (fun _ _ => rfl) (recovers_notifyOnlineUsers none)
        · exact Recovers.update (fun _ _ => rfl) (recovers_notifyOnlineUsers none)
  next => exact rfl

theorem recovers_handleS2SRoomMemberSync (pl : Bytes) :
    Recovers (handleS2SRoomMemberSync pl) .calm := by
  rw [handleS2SRoomMemberSync]
  split
  next room id active _ _ =>
    cases stoi id with
    | none => exact rfl
    | some i =>
        exact Follows.ite (fun _ => recovers_update fun _ _ => rfl)
          fun _ => recovers_update fun _ _ => rfl
  next => exact rfl

theorem recovers_handleS2SRouteMsg (pl : Bytes) : Recovers (handleS2SRouteMsg pl) .calm := by
  rw [handleS2SRouteMsg]
  split
  · refine Recovers.observe fun session => ?_
    cases session with
    | none => exact rfl
    | some t => exact recovers_reply _ _ _
  · exact recovers_sendToAuthenticated _ _
  · exact rfl

theorem recovers_handleServerPacket (p : Int) (pkt : RawPacket) :
    Recovers (handleServerPacket p pkt) .calm := by
  refine Recovers.update (fun s q => s.connManager.socket_updateHeartbeat p q s.now) ?_
  split
  · refine Recovers.observe fun id => Recovers.observe fun socket => ?_
    cases socket with
    | none => exact rfl
    | some k => exact Calm.then (recovers_sendFrame _ _ _ _) fun _ => rfl
  · exact rfl
  · exact recovers_handleS2SReplicateUser _
  · exact recovers_handleS2SRouteMsg _
  · rw [handleS2SRouteRoomMsg]
    split
    · exact Recovers.observe fun locals => recovers_sendToMembers _ _ _
    · exact rfl
  · exact recovers_handleS2SRoomMemberSync _
  · exact rfl

theorem recovers_clientDisconnect (k : ConnRef) : Recovers (clientDisconnect k) .calm := by
  refine Recovers.observe fun handle => Recovers.observe fun username => ?_
  refine Follows.ite (fun _ => ?_) fun _ => recovers_update (socket_removeSession handle)
  refine Recovers.update (fun _ _ => rfl) (Calm.then (recovers_replicate _ _ _) fun _ => ?_)
  exact Calm.then (recovers_notifyOnlineUsers (some handle)) fun _ =>
    recovers_update (socket_removeSession handle)

theorem recovers_peerConnected (p : Int) (k : ConnRef) : Recovers (peerConnected p k) .calm := by
  refine Recovers.register (Recovers.update (socket_setConnected p true) ?_)
  refine Recovers.update (fun s q => s.connManager.socket_updateHeartbeat p q s.now)
    (Recovers.observe fun id => ?_)
  exact Calm.then (recovers_sendFrame _ _ _ _) fun _ => rfl

end

/-- The trouble in which a piece of work begins, given the socket of the peer that is gone. -/
def Work.outset (x : Option ConnRef) : Work → Trouble
  | .peerGone p => .handling p x .called
  | _ => .calm

/-- Every program gets over every trouble. -/
theorem Work.recovers (w : Work) (x : Option ConnRef) : Recovers w.prog (w.outset x) := by
  cases w with
  | task t =>
      cases t with
      | client k pkt => exact recovers_handleClientPacket k pkt
      | peer p k pkt => exact recovers_handleServerPacket p pkt
  | clientGone k => exact recovers_clientDisconnect k
  | peerGone p => exact recovers_handlePeerDisconnect p x
  | heartbeats => exact recovers_heartbeatRound
  | connected p sock => exact recovers_peerConnected p sock

end DistributedChat
