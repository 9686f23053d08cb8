import DistributedChat.Logic.Guarantees
import DistributedChat.Server.FrameSizes
import DistributedChat.Server.Replicas
import DistributedChat.Server.Rounds
import DistributedChat.Server.Threads

/-!
# Arguments that go from server to server

The replication manager packs a user name, the server's id and a flag, or a
sender, a receiver or room, and a text, and the receiver takes the packet apart
at NULs and branches on the number of fields.  The user names have no NUL because
`HandleLogin` refuses one, and a receiver, room or text has none because it is a
field of a packet that was taken apart before.  So the receiver gets the
arguments back, in every run of a server's threads, if it gets the packet: what
is packed with the arguments may make the frame too large for `ReadPacket`
(`arguments_survive_iff`).

The name in a call is the one that its program has read, so `Recorded` keeps with
the threads the states in which the sections of their programs took place.
`Accounts` carries the invariant about the names through all interleavings: one
lemma for each function of the server says that it keeps the names and what it
sends to peers.
-/

namespace DistributedChat

open ChatServer

namespace ChatServer

open Prog (observe update each Upholds upholds_pure upholds_update upholds_observe_bind)

/-- The server has the id, and no session has a name with a NUL in it. -/
structure Named (id : Int) (s : ChatServer) : Prop where
  serverId : s.serverId = id
  nulFree : ∀ k, NulFree (s.nameOf k)

section

variable {id : Int} {s : ChatServer}

/-- Sections of the connection manager that leave the names alone. -/
theorem Named.onConn (h : s.Named id) {f : ConnectionManager → ConnectionManager}
    (hf : ∀ k, ((f s.connManager).sessions k).username = (s.connManager.sessions k).username) :
    (s.onConn f).Named id :=
  ⟨h.serverId, fun k => (congrArg NulFree (hf k)).mpr (h.nulFree k)⟩

theorem Named.onUsers (h : s.Named id) (f : UserManager → UserManager) : (s.onUsers f).Named id :=
  ⟨h.serverId, h.nulFree⟩

theorem Named.onRooms (h : s.Named id) (f : ChatRoomManager → ChatRoomManager) :
    (s.onRooms f).Named id :=
  ⟨h.serverId, h.nulFree⟩

theorem Named.joinRoom (h : s.Named id) (k : ConnRef) (r : Bytes) :
    (s.onConn (·.joinRoom k r)).Named id :=
  h.onConn fun j => by
    rw [ConnectionManager.sessions_joinRoom]
    split
    next hj => rw [hj]
    next => rfl

theorem Named.leaveRoom (h : s.Named id) (k : ConnRef) (r : Bytes) :
    (s.onConn (·.leaveRoom k r)).Named id :=
  h.onConn fun j => by
    rw [ConnectionManager.sessions_leaveRoom]
    split
    next hj => rw [hj]
    next => rfl

theorem Named.authenticateSession (h : s.Named id) (k : ConnRef) {u : Bytes} (hu : NulFree u) :
    (s.onConn (·.authenticateSession k u)).Named id := by
  refine ⟨h.serverId, fun j => ?_⟩
  show NulFree ((s.connManager.authenticateSession k u).sessions j).username
  rw [ConnectionManager.sessions_authenticateSession]
  split
  · exact hu
  · exact h.nulFree j

theorem Named.newSocket (h : s.Named id) (handle : SOCKET) :
    (s.onConn (·.newSocket handle)).Named id := by
  refine ⟨h.serverId, fun j => ?_⟩
  show NulFree ((s.connManager.newSocket handle).sessions j).username
  rw [ConnectionManager.sessions_newSocket]
  split
  · exact List.not_mem_nil
  · exact h.nulFree j

end

/-! ## What the functions of a server uphold -/

section

variable {id : Int} {P : Effect → Prop}

/-- The program keeps the names, and what it emits meets `P`. -/
abbrev Minds {α : Type} (id : Int) (P : Effect → Prop) (prog : ServerProg α) : Prop :=
  prog.Upholds (Named id) P

/-- What the programs read of the state does not matter, as a rule. -/
theorem minds_observe {α β : Type} {f : ChatServer → α} {q : α → ServerProg β}
    (h : ∀ a, Minds id P (q a)) : Minds id P (observe f >>= q) :=
  upholds_observe_bind fun s _ => h (f s)

theorem minds_onConn {f : ConnectionManager → ConnectionManager}
    (hf : ∀ m k, ((f m).sessions k).username = (m.sessions k).username) :
    Minds id P (update (onConn f)) :=
  upholds_update fun _ h => h.onConn fun k => hf _ k

theorem minds_onConn_now {f : Nat → ConnectionManager → ConnectionManager}
    (hf : ∀ now m, (f now m).sessions = m.sessions) :
    Minds id P (update fun s => s.onConn (f s.now)) :=
  upholds_update fun _ h => h.onConn fun k => by rw [hf]

theorem minds_onUsers (f : UserManager → UserManager) : Minds id P (update (onUsers f)) :=
  upholds_update fun _ h => h.onUsers f

theorem minds_onRooms (f : ChatRoomManager → ChatRoomManager) :
    Minds id P (update (onRooms f)) :=
  upholds_update fun _ h => h.onRooms f

theorem minds_sendFrame {p : Int} {k : ConnRef} {t : PacketType} {pl : Bytes}
    (h : P (.toPeer p k ⟨t, pl⟩)) : Minds id P (sendFrame p k t pl) := by
  intro s hI
  refine ⟨hI, fun e he => ?_, trivial⟩
  change e ∈ (if s.connManager.canSend k = true then [.toPeer p k ⟨t, pl⟩] else []) at he
  split at he
  · exact List.mem_singleton.mp he ▸ h
  · exact absurd he List.not_mem_nil

variable (hP : ∀ k pkt, P (.toSession k pkt))

include hP

theorem minds_sendPacket (k : ConnRef) (t : PacketType) (pl : Bytes) :
    Minds id P (sendPacket k t pl) := by
  refine fun s hI => ⟨hI, fun e he => ?_, trivial⟩
  rw [List.mem_singleton.mp he]
  exact hP k _

theorem minds_reply (k : ConnRef) (t : PacketType) (pl : Bytes) :
    Minds id P (sendPacket k t pl >>= fun _ => pure ()) :=
  (minds_sendPacket hP k t pl).bind fun _ => upholds_pure ()

theorem minds_notifyOnlineUsers (skip : Option SOCKET) :
    Minds id P (notifyOnlineUsers skip) := by
  refine minds_observe fun sessions => minds_observe fun onlineList => Upholds.each (fun k => ?_) _
  refine minds_observe fun authenticated => minds_observe fun handle => Upholds.ite (fun _ => ?_)
    fun _ => upholds_pure ()
  exact minds_reply hP k _ _

theorem minds_sendToMembers (members : List Bytes) (t : PacketType) (pl : Bytes) :
    Minds id P (sendToMembers members t pl) := by
  refine Upholds.each (fun name => minds_observe fun session => ?_) _
  cases session with
  | none => exact upholds_pure ()
  | some k => exact minds_reply hP k _ _

theorem minds_sendToAuthenticated (t : PacketType) (pl : Bytes) :
    Minds id P (sendToAuthenticated t pl) :=
  minds_observe fun _ => Upholds.each (fun k => minds_observe fun _ => Upholds.ite
    (fun _ => minds_reply hP k _ _) fun _ => upholds_pure ()) _

/-! ### Sends to peers -/

theorem minds_handlePeerDisconnect (p : Int) : Minds id P (handlePeerDisconnect p) := by
  have hpurge : Minds id P (do
      update fun s => s.onConn (·.unregisterPeerSocket p s.now)
      update (onUsers (·.clearServerUsers p))
      update (onRooms (·.clearServerMemberships p))
      notifyOnlineUsers none) := by
    refine (minds_onConn_now (f := fun now m => m.unregisterPeerSocket p now) fun now m => ?_).bind
      fun _ => (minds_onUsers _).bind fun _ => (minds_onRooms _).bind
        fun _ => minds_notifyOnlineUsers hP none
    exact ConnectionManager.sessions_unregisterPeerSocket ..
  refine minds_observe fun peer => minds_observe fun connected => Upholds.ite (fun _ => ?_)
    fun _ => upholds_pure ()
  refine minds_observe fun socket => ?_
  cases socket with
  | none => exact hpurge
  | some k => exact (minds_onConn (f := (·.closeSocket k)) fun _ _ => rfl).bind fun _ => hpurge

theorem minds_sendOrDisconnect {p : Int} {t : PacketType} {pl : Bytes}
    (h : ∀ sock, P (.toPeer p sock ⟨t, pl⟩)) : Minds id P (sendOrDisconnect p t pl) := by
  refine minds_observe fun socket => ?_
  cases socket with
  | none => exact upholds_pure ()
  | some k =>
      exact (minds_sendFrame (h k)).bind fun _ => Upholds.ite (fun _ => upholds_pure ())
        fun _ => minds_handlePeerDisconnect hP p

theorem minds_sendToPeer {p : Int} {t : PacketType} {pl : Bytes}
    (h : ∀ sock, P (.toPeer p sock ⟨t, pl⟩)) : Minds id P (sendToPeer p t pl) :=
  minds_observe fun _ => Upholds.ite (fun _ => minds_sendOrDisconnect hP h) fun _ => upholds_pure ()

theorem minds_broadcastS2S {t : PacketType} {pl : Bytes}
    (h : ∀ p sock, P (.toPeer p sock ⟨t, pl⟩)) : Minds id P (broadcastS2S t pl) :=
  minds_observe fun ps => Upholds.each (fun p => minds_sendToPeer hP (h p)) ps

/-- A replication packet bears the server's own id. -/
theorem minds_replicate {t : PacketType} {key : Bytes} {online : Bool}
    (h : ∀ p sock, P (.toPeer p sock ⟨t, replicationPayload key id online⟩)) :
    Minds id P (observe serverId >>= fun i =>
      broadcastS2S t (replicationPayload key i online)) :=
  upholds_observe_bind fun s hI => minds_broadcastS2S hP (by rw [hI.serverId]; exact h)

theorem minds_routePrivateMessage {sender receiver text : Bytes} (p : Int)
    (h : ∀ sock, P (.toPeer p sock ⟨.s2sRouteMsg, pack [sender, receiver, text]⟩)) :
    Minds id P (routePrivateMessage sender receiver text p) :=
  minds_observe fun _ => Upholds.ite (fun _ => minds_sendToPeer hP h) fun _ => upholds_pure ()

theorem minds_routeRoomMessage {sender room text : Bytes}
    (h : ∀ p sock, P (.toPeer p sock ⟨.s2sRouteRoomMsg, pack [sender, room, text]⟩)) :
    Minds id P (routeRoomMessage sender room text) :=
  minds_observe fun ps => Upholds.each (fun p => minds_observe fun _ => Upholds.ite
    (fun _ => minds_sendToPeer hP (h p)) fun _ => upholds_pure ()) ps

end

/-! ## Calls of the replication manager -/

/-- The program of `HandleS2SReplicateUser` for the three arguments. -/
def replicateUser (u : Bytes) (i : Int) (online : Bool) : ServerProg Unit := do
  update (onUsers fun m => if online = true then m.registerUser u i else m.unregisterUser u)
  notifyOnlineUsers none

/-- The branch of `HandleS2SRouteMsg` for a private message. -/
def deliverPrivate (sender receiver text : Bytes) : ServerProg Unit := do
  let session ← observe (·.connManager.getSessionByUsername receiver)
  match session with
  | none => pure ()
  | some t =>
      let _ ← sendPacket t .msgPrivate (pack [sender, text])

/-- The branch of `HandleS2SRouteRoomMsg` for three arguments. -/
def deliverRoom (sender room text : Bytes) : ServerProg Unit := do
  let locals ← observe (·.roomManager.getLocalMembers room)
  sendToMembers locals .msgRoom (pack [sender, room, text])

end ChatServer

/-- A call of the replication manager about a user or a message, with its arguments. -/
inductive Call where
  /-- `ReplicateUserLogin` and `ReplicateUserLogout`. -/
  | replicateUser (username : Bytes) (online : Bool)
  | routePrivateMessage (sender receiver text : Bytes)
  | routeRoomMessage (sender room text : Bytes)

namespace Call

open Prog (update)

/-- The packet type of the call's frames. -/
def type : Call → PacketType
  | replicateUser _ _ => .s2sReplicateUser
  | routePrivateMessage _ _ _ => .s2sRouteMsg
  | routeRoomMessage _ _ _ => .s2sRouteRoomMsg

/-- What the server packs. -/
def fields (id : Int) : Call → List Bytes
  | replicateUser u online => [u, toString id, flag online]
  | routePrivateMessage sender receiver text => [sender, receiver, text]
  | routeRoomMessage sender room text => [sender, room, text]

/-- What the receiver does with the values of the call. -/
def received (id : Int) : Call → ServerProg Unit
  | replicateUser u online => ChatServer.replicateUser u id online
  | routePrivateMessage sender receiver text => deliverPrivate sender receiver text
  | routeRoomMessage sender room text => deliverRoom sender room text

/-- The packet of the call. -/
def packet (id : Int) (call : Call) : RawPacket := ⟨call.type, pack (call.fields id)⟩

/-- No argument has a NUL in it. -/
def NulFree : Call → Prop
  | replicateUser u _ => DistributedChat.NulFree u
  | routePrivateMessage x y z | routeRoomMessage x y z =>
      DistributedChat.NulFree x ∧ DistributedChat.NulFree y ∧ DistributedChat.NulFree z

/-- The arguments leave room for what is packed with them. -/
def Fits (id : Int) : Call → Prop
  | replicateUser u _ => u.length + (toString id).length + 5 ≤ maxPayloadSize
  | routePrivateMessage x y z | routeRoomMessage x y z =>
      x.length + y.length + z.length + 4 ≤ maxPayloadSize

/-- The packet brings the arguments of the call to its receiver, which reads it, takes it apart
into just these, and acts on them as the server that sent it means it to. -/
structure ConveyedBy (id : Int) (call : Call) (pkt : RawPacket) : Prop where
  type : pkt.type = call.type
  arrives : pkt.Arrives
  fields : unpack pkt.payload = call.fields id
  origin : stoi (toString id) = some id
  received : ∀ p, handleServerPacket p pkt =
    (update fun s => s.onConn (·.updateHeartbeat p s.now)) >>= fun _ => call.received id

section

variable {id : Int} {call : Call}

theorem NulFree.fields (h : call.NulFree) : ∀ f ∈ call.fields id, DistributedChat.NulFree f := by
  cases call with
  | replicateUser u online =>
      refine List.forall_mem_cons.mpr ⟨h, List.forall_mem_cons.mpr
        ⟨nulFree_toString id, List.forall_mem_singleton.mpr (by cases online <;> decide)⟩⟩
  | routePrivateMessage x y z | routeRoomMessage x y z =>
      exact List.forall_mem_cons.mpr
        ⟨h.1, List.forall_mem_cons.mpr ⟨h.2.1, List.forall_mem_singleton.mpr h.2.2⟩⟩

/-- The receiver of the packet branches as it should. -/
theorem NulFree.received (h : call.NulFree) (hid : IsInt id) (p : Int) :
    handleServerPacket p (call.packet id) =
      (update fun s => s.onConn (·.updateHeartbeat p s.now)) >>= fun _ => call.received id := by
  have hunpack : unpack (pack (call.fields id)) = call.fields id := unpack_pack h.fields
  cases call with
  | replicateUser u online =>
      have hhandle : handleS2SReplicateUser (pack [u, toString id, flag online]) =
          ChatServer.replicateUser u id online := by
        have hunpack : unpack (pack [u, toString id, flag online]) =
            [u, toString id, flag online] := hunpack
        simp only [handleS2SReplicateUser, hunpack, stoi_toString hid, flag_eq_iff,
          ChatServer.replicateUser]
        cases online <;> rfl
      exact congrArg (fun q => update _ >>= fun _ => q) hhandle
  | routePrivateMessage x y z =>
      have hhandle : handleS2SRouteMsg (pack [x, y, z]) = deliverPrivate x y z := by
        have hunpack : unpack (pack [x, y, z]) = [x, y, z] := hunpack
        rw [handleS2SRouteMsg, hunpack]
        rfl
      exact congrArg (fun q => update _ >>= fun _ => q) hhandle
  | routeRoomMessage x y z =>
      have hhandle : handleS2SRouteRoomMsg (pack [x, y, z]) = deliverRoom x y z := by
        have hunpack : unpack (pack [x, y, z]) = [x, y, z] := hunpack
        rw [handleS2SRouteRoomMsg, hunpack]
        rfl
      exact congrArg (fun q => update _ >>= fun _ => q) hhandle

theorem arrives_packet_iff : (call.packet id).Arrives ↔ call.Fits id := by
  cases call with
  | replicateUser u online =>
      have hflag : (flag online).length = 1 := by cases online <;> decide
      rw [RawPacket.arrives_iff ⟨103, rfl⟩, RawPacket.Fits, packet, length_pack]
      simp only [fields, packedSize, List.map_cons, List.map_nil, List.sum_cons, List.sum_nil,
        hflag, Fits]
      omega
  | routePrivateMessage x y z =>
      rw [RawPacket.arrives_iff ⟨104, rfl⟩, RawPacket.Fits, packet, length_pack]
      simp only [fields, packedSize, List.map_cons, List.map_nil, List.sum_cons, List.sum_nil, Fits]
      omega
  | routeRoomMessage x y z =>
      rw [RawPacket.arrives_iff ⟨105, rfl⟩, RawPacket.Fits, packet, length_pack]
      simp only [fields, packedSize, List.map_cons, List.map_nil, List.sum_cons, List.sum_nil, Fits]
      omega

/-- The packet of a call without NULs conveys it if it fits, and only then. -/
theorem conveyedBy_packet_iff (hid : IsInt id) (h : call.NulFree) :
    call.ConveyedBy id (call.packet id) ↔ call.Fits id := by
  rw [← arrives_packet_iff]
  exact ⟨ConveyedBy.arrives, fun harr =>
    ⟨rfl, harr, unpack_pack h.fields, stoi_toString hid, h.received hid⟩⟩

end

end Call

/-! ## What the programs account for -/

/-- The name of the session in the second section of its handler, or of its end: the one before
tests the gate, or looks for the handle. -/
def nameRead (seen : List ChatServer) (k : ConnRef) : Bytes := seen[1]?.elim [] (·.nameOf k)

/-- The call that a program makes which has seen the states `seen`. -/
def Work.call (seen : List ChatServer) : Work → Option Call
  | .task (.client k pkt) =>
      match pkt.type, unpack pkt.payload with
      | .login, _ => some (.replicateUser (trim pkt.payload) true)
      | .msgPrivate, receiver :: text :: _ =>
          some (.routePrivateMessage (nameRead seen k) receiver text)
      | .msgRoom, room :: text :: _ => some (.routeRoomMessage (nameRead seen k) room text)
      | _, _ => none
  | .clientGone k => some (.replicateUser (nameRead seen k) false)
  | _ => none

/-- The packet is a replicated user, a routed message of a room, or the routed message of a client
who sent `MSG_PRIVATE`. -/
def Work.Carries (w : Work) (pkt : RawPacket) : Prop :=
  pkt.type = .s2sReplicateUser ∨ pkt.type = .s2sRouteRoomMsg ∨
    pkt.type = .s2sRouteMsg ∧ ∃ k q, w = .task (.client k q) ∧ q.type = .msgPrivate

namespace ChatServer

open Prog (observe update each Upholds upholds_pure upholds_update upholds_observe_bind
  accounts_observe_bind)

/-- A frame with such a packet is one of the call, whose arguments have no NUL. -/
def Routes (id : Int) (w : Work) (call : Option Call) : Effect → Prop
  | .toSession _ _ => True
  | .toPeer _ _ pkt => w.Carries pkt → ∃ c, call = some c ∧ c.NulFree ∧ pkt = c.packet id

section

variable {id : Int} {w : Work} {seen : List ChatServer}

/-- A program that makes the call accounts for what it emits. -/
theorem accounts_of_minds {α : Type} {prog : ServerProg α} (call : Option Call)
    (h : Minds id (Routes id w call) prog)
    (hcall : ∀ more, w.call (seen ++ more) = call) :
    prog.Accounts (Named id) (fun seen => Routes id w (w.call seen)) seen :=
  h.accounts fun more e he => by rwa [hcall]

/-- So does one that sends no such frame, whatever call it was to make. -/
theorem accounts_of_none {α : Type} {prog : ServerProg α} (h : Minds id (Routes id w none) prog) :
    prog.Accounts (Named id) (fun seen => Routes id w (w.call seen)) seen := by
  refine h.accounts fun more e he => ?_
  cases e with
  | toSession k pkt => exact trivial
  | toPeer p k pkt => exact fun hc => nomatch he hc

variable {call : Option Call}

/-- Packets of another type do not matter. -/
theorem routes_of_type {p : Int} {k : ConnRef} {t : PacketType} {pl : Bytes}
    (hu : t ≠ .s2sReplicateUser) (hr : t ≠ .s2sRouteRoomMsg) (hm : t ≠ .s2sRouteMsg) :
    Routes id w call (.toPeer p k ⟨t, pl⟩) := by
  rintro (h | h | ⟨h, -⟩)
  · exact absurd h hu
  · exact absurd h hr
  · exact absurd h hm

/-- The frames of the call itself. -/
theorem routes_packet {c : Call} (h : c.NulFree) (p : Int) (k : ConnRef) :
    Routes id w (some c) (.toPeer p k (c.packet id)) := fun _ => ⟨c, rfl, h, rfl⟩

/-- The first two fields of a payload have no NUL. -/
theorem nulFree_of_unpack_eq {payload x y : Bytes} {fields : List Bytes}
    (hu : unpack payload = x :: y :: fields) : NulFree x ∧ NulFree y := by
  constructor
  · exact nulFree_of_mem_unpack (hu ▸ List.mem_cons_self ..)
  · exact nulFree_of_mem_unpack (hu ▸ List.mem_cons_of_mem _ (List.mem_cons_self ..))

/-! ## The programs of the threads -/

/-- Handlers that send nothing to peers. -/
theorem minds_sessions {P : Effect → Prop} (hP : ∀ k pkt, P (.toSession k pkt)) (k : ConnRef)
    (payload : Bytes) : Minds id P (handleRoomCreate k payload) ∧
      Minds id P (promote k payload) := by
  refine ⟨Upholds.ite (fun _ => upholds_pure ()) fun _ => minds_reply hP k _ _, ?_⟩
  rw [promote]
  cases stoi payload with
  | none => exact upholds_pure ()
  | some p =>
      refine minds_observe fun handle => (minds_onConn fun m j => ?_).bind fun _ =>
        (minds_onConn_now (f := fun now m => m.registerPeerSocket p k now) fun now m => ?_).bind
          fun _ => minds_observe fun node => Upholds.ite (fun _ => ?_) fun _ => upholds_pure ()
      · rw [ConnectionManager.sessions_removeSession]
      · exact ConnectionManager.sessions_registerPeerSocket ..
      · exact (minds_onConn (f := (·.setConnected p true)) fun _ _ => rfl).bind fun _ =>
          minds_onConn_now (f := fun now m => m.updateHeartbeat p now) fun _ _ => rfl

/-- An accepted name has no NUL. -/
theorem minds_handleLogin (k : ConnRef) (payload : Bytes) :
    Minds id (Routes id w (some (.replicateUser (trim payload) true))) (handleLogin k payload) := by
  have hP : ∀ j q, Routes id w (some (.replicateUser (trim payload) true)) (.toSession j q) :=
    fun _ _ => trivial
  refine Upholds.ite (fun _ => minds_reply hP k _ _) fun hu => ?_
  have hfree : NulFree (trim payload) := fun hmem => hu (.inr (.inl hmem))
  refine minds_observe fun online => Upholds.ite (fun _ => minds_reply hP k _ _) fun _ => ?_
  refine Upholds.bind (upholds_update fun s hI => hI.onUsers _) fun _ =>
    Upholds.bind (upholds_update fun s hI => hI.authenticateSession k hfree) fun _ =>
      (minds_sendPacket hP k _ _).bind fun _ => Upholds.bind ?_ fun _ =>
        minds_notifyOnlineUsers hP none
  exact minds_replicate hP fun p sock =>
    routes_packet (c := .replicateUser (trim payload) true) hfree p sock

/-- A private message is routed under the name that the handler reads. -/
theorem accounts_handlePrivateMsg (k : ConnRef) {pkt : RawPacket} (ht : pkt.type = .msgPrivate)
    (s₀ : ChatServer) : (handlePrivateMsg k pkt.payload).Accounts (Named id)
      (fun seen => Routes id (.task (.client k pkt)) (Work.call seen (.task (.client k pkt))))
      [s₀] := by
  rw [handlePrivateMsg]
  split
  next receiver text fields hu =>
    obtain ⟨hr, hx⟩ := nulFree_of_unpack_eq hu
    refine accounts_observe_bind fun s hI => ?_
    let c : Call := .routePrivateMessage (s.nameOf k) receiver text
    have hP : ∀ j q, Routes id (.task (.client k pkt)) (some c) (.toSession j q) :=
      fun _ _ => trivial
    refine accounts_of_minds (some c) ?_ fun more => ?_
    · refine minds_observe fun location => minds_observe fun i => Upholds.ite (fun _ => ?_)
        fun _ => Upholds.ite (fun _ => ?_) fun _ => minds_reply hP k _ _
      · refine minds_observe fun target => ?_
        cases target with
        | none => exact upholds_pure ()
        | some t => exact (minds_sendPacket hP t _ _).bind fun _ => minds_reply hP k _ _
      · exact (minds_routePrivateMessage hP location fun sock =>
          routes_packet (c := c) ⟨hI.nulFree k, hr, hx⟩ location sock).bind
            fun _ => minds_reply hP k _ _
    · simp only [Work.call, ht, hu]
      rfl
  next => exact trivial

/-- So is a message of a room. -/
theorem accounts_handleRoomMsg (k : ConnRef) {pkt : RawPacket} (ht : pkt.type = .msgRoom)
    (s₀ : ChatServer) : (handleRoomMsg k pkt.payload).Accounts (Named id)
      (fun seen => Routes id (.task (.client k pkt)) (Work.call seen (.task (.client k pkt))))
      [s₀] := by
  rw [handleRoomMsg]
  split
  next room text fields hu =>
    obtain ⟨hr, hx⟩ := nulFree_of_unpack_eq hu
    refine accounts_observe_bind fun s hI => ?_
    let c : Call := .routeRoomMessage (s.nameOf k) room text
    have hP : ∀ j q, Routes id (.task (.client k pkt)) (some c) (.toSession j q) :=
      fun _ _ => trivial
    refine accounts_of_minds (some c) ?_ fun more => ?_
    · refine minds_observe fun joined => Upholds.ite (fun _ => ?_) fun _ => minds_reply hP k _ _
      exact minds_observe fun locals => (minds_sendToMembers hP locals _ _).bind fun _ =>
        minds_routeRoomMessage hP fun p sock =>
          routes_packet (c := c) ⟨hI.nulFree k, hr, hx⟩ p sock
    · simp only [Work.call, ht, hu]
      rfl
  next => exact trivial

/-- The logout of a session's user is replicated under the name that was read. -/
theorem accounts_clientDisconnect (k : ConnRef) : (clientDisconnect k).Accounts (Named id)
    (fun seen => Routes id (.clientGone k) (Work.call seen (.clientGone k))) [] := by
  refine accounts_observe_bind fun s₀ _ => accounts_observe_bind fun s hI => ?_
  let c : Call := .replicateUser (s.nameOf k) false
  have hP : ∀ j q, Routes id (.clientGone k) (some c) (.toSession j q) := fun _ _ => trivial
  have hremove : Minds id (Routes id (.clientGone k) (some c))
      (update (onConn (·.removeSession (s₀.connManager.getHandle k)))) :=
    minds_onConn fun m j => by rw [ConnectionManager.sessions_removeSession]
  refine accounts_of_minds (some c) ?_ fun more => rfl
  refine Upholds.ite (fun _ => ?_) fun _ => hremove
  refine (minds_onUsers _).bind fun _ => Upholds.bind ?_ fun _ =>
    (minds_notifyOnlineUsers hP _).bind fun _ => hremove
  exact minds_replicate hP fun p sock => routes_packet (c := c) (hI.nulFree k) p sock

/-- The announcements of rooms are about neither users nor messages. -/
theorem minds_rooms (k : ConnRef) (payload : Bytes) :
    Minds id (Routes id w call) (handleRoomJoin k payload) ∧
      Minds id (Routes id w call) (handleRoomLeave k payload) := by
  have hP : ∀ j q, Routes id w call (.toSession j q) := fun _ _ => trivial
  have hsync : ∀ online, Minds id (Routes id w call) (observe serverId >>= fun i =>
      broadcastS2S .s2sRoomMemberSync (replicationPayload (trim payload) i online)) :=
    fun online => minds_replicate hP fun _ _ =>
      routes_of_type (by decide) (by decide) (by decide)
  constructor
  · refine minds_observe fun username => Upholds.ite (fun _ => upholds_pure ()) fun _ => ?_
    exact Upholds.bind (upholds_update fun s hI => hI.joinRoom k _) fun _ => minds_observe
      fun before => (minds_onRooms _).bind fun _ => (minds_sendPacket hP k _ _).bind fun _ =>
        minds_observe fun locals => (minds_sendToMembers hP locals _ _).bind fun _ =>
          Upholds.ite (fun _ => hsync true) fun _ => upholds_pure ()
  · refine minds_observe fun username => minds_observe fun joined =>
      Upholds.ite (fun _ => upholds_pure ()) fun _ => ?_
    exact Upholds.bind (upholds_update fun s hI => hI.leaveRoom k _) fun _ =>
      (minds_onRooms _).bind fun _ => (minds_sendPacket hP k _ _).bind fun _ =>
        minds_observe fun locals => (minds_sendToMembers hP locals _ _).bind fun _ =>
          Upholds.ite (fun _ => hsync false) fun _ => upholds_pure ()

/-- Every packet of a client is handled so. -/
theorem accounts_handleClientPacket (k : ConnRef) (pkt : RawPacket) :
    (handleClientPacket k pkt).Accounts (Named id)
      (fun seen => Routes id (.task (.client k pkt)) (Work.call seen (.task (.client k pkt))))
      [] := by
  have hP : ∀ j q, Routes id (.task (.client k pkt)) none (.toSession j q) := fun _ _ => trivial
  refine accounts_observe_bind fun s₀ _ =>
    Prog.Accounts.ite (fun _ => accounts_of_none (minds_reply hP k _ _)) fun _ => ?_
  cases ht : pkt.type with
  | login =>
      exact accounts_of_minds _ (minds_handleLogin k pkt.payload) fun more => by
        simp only [Work.call, ht]
  | msgPrivate => exact accounts_handlePrivateMsg k ht s₀
  | msgRoom => exact accounts_handleRoomMsg k ht s₀
  | msgBroadcast =>
      refine accounts_of_none (minds_observe fun sender => (minds_sendToAuthenticated hP _ _).bind
        fun _ => minds_broadcastS2S hP fun p sock => ?_)
      rintro (h | h | ⟨-, k', q, hq, hm⟩)
      · cases h
      · cases h
      · cases hq
        cases ht.symm.trans hm
  | roomJoin => exact accounts_of_none (minds_rooms k pkt.payload).1
  | roomLeave => exact accounts_of_none (minds_rooms k pkt.payload).2
  | roomCreate => exact accounts_of_none (minds_sessions hP k pkt.payload).1
  | s2sConnect => exact accounts_of_none (minds_sessions hP k pkt.payload).2
  | _ => exact trivial

/-- Packets of peers are answered with heartbeats only. -/
theorem minds_handleServerPacket (p : Int) (pkt : RawPacket) :
    Minds id (Routes id w none) (handleServerPacket p pkt) := by
  have hP : ∀ j q, Routes id w none (.toSession j q) := fun _ _ => trivial
  refine (minds_onConn_now (f := fun now m => m.updateHeartbeat p now) fun _ _ => rfl).bind
    fun _ => ?_
  cases pkt.type with
  | s2sHeartbeat =>
      refine minds_observe fun i => minds_observe fun socket => ?_
      cases socket with
      | none => exact upholds_pure ()
      | some j =>
          exact (minds_sendFrame (routes_of_type (by decide) (by decide) (by decide))).bind
            fun _ => upholds_pure ()
  | s2sReplicateUser =>
      show Minds id _ (handleS2SReplicateUser pkt.payload)
      rw [handleS2SReplicateUser]
      split
      next username i online fields hu =>
        split
        · exact upholds_pure ()
        · have hnotify : Minds id (Routes id w none) (notifyOnlineUsers none) :=
            minds_notifyOnlineUsers hP none
          exact Upholds.ite (fun _ => (minds_onUsers _).bind fun _ => hnotify)
            fun _ => (minds_onUsers _).bind fun _ => hnotify
      next => exact upholds_pure ()
  | s2sRouteMsg =>
      show Minds id _ (handleS2SRouteMsg pkt.payload)
      rw [handleS2SRouteMsg]
      split
      next sender receiver text hu =>
        refine minds_observe fun session => ?_
        cases session with
        | none => exact upholds_pure ()
        | some t => exact minds_reply hP t _ _
      next => exact minds_sendToAuthenticated hP _ _
      next => exact upholds_pure ()
  | s2sRouteRoomMsg =>
      show Minds id _ (handleS2SRouteRoomMsg pkt.payload)
      rw [handleS2SRouteRoomMsg]
      split
      next => exact minds_observe fun locals => minds_sendToMembers hP locals _ _
      next => exact upholds_pure ()
  | s2sRoomMemberSync =>
      show Minds id _ (handleS2SRoomMemberSync pkt.payload)
      rw [handleS2SRoomMemberSync]
      split
      next room i active fields hu =>
        split
        · exact upholds_pure ()
        · exact Upholds.ite (fun _ => minds_onRooms _) fun _ => minds_onRooms _
      next => exact upholds_pure ()
  | _ => exact upholds_pure ()

/-- The heartbeat loop and the connector send heartbeats and handshakes. -/
theorem minds_loops (p : Int) (k : ConnRef) : Minds id (Routes id w none) heartbeatRound ∧
    Minds id (Routes id w none) (peerConnected p k) := by
  have hP : ∀ j q, Routes id w none (.toSession j q) := fun _ _ => trivial
  constructor
  · refine minds_observe fun peers => minds_observe fun now => Upholds.each (fun q => ?_) peers
    refine minds_observe fun node => Upholds.ite (fun _ => Upholds.ite (fun _ => ?_) fun _ => ?_)
      fun _ => upholds_pure ()
    · exact minds_handlePeerDisconnect hP q
    · exact minds_observe fun i => minds_sendOrDisconnect hP fun sock =>
        routes_of_type (by decide) (by decide) (by decide)
  · refine (minds_onConn_now (f := fun now m => m.registerPeerSocket p k now) fun now m => ?_).bind
      fun _ => (minds_onConn (f := (·.setConnected p true)) fun _ _ => rfl).bind fun _ =>
        (minds_onConn_now (f := fun now m => m.updateHeartbeat p now) fun _ _ => rfl).bind
          fun _ => minds_observe fun i =>
            (minds_sendFrame (routes_of_type (by decide) (by decide) (by decide))).bind
              fun _ => upholds_pure ()
    exact ConnectionManager.sessions_registerPeerSocket ..

/-- Every program of a server keeps the names and accounts for its frames. -/
theorem accounts_prog (w : Work) :
    w.prog.Accounts (Named id) (fun seen => Routes id w (w.call seen)) [] := by
  cases w with
  | task t =>
      cases t with
      | client k pkt => exact accounts_handleClientPacket k pkt
      | peer p k pkt => exact accounts_of_none (minds_handleServerPacket p pkt)
  | clientGone k => exact accounts_clientDisconnect k
  | peerGone p => exact accounts_of_none (minds_handlePeerDisconnect (fun _ _ => trivial) p)
  | heartbeats => exact accounts_of_none (minds_loops 0 0).1
  | connected p sock => exact accounts_of_none (minds_loops p sock).2

end

end ChatServer

/-! ## Runs of the threads -/

namespace Threads

variable {n : Nat}

/-- The next section of the thread sends the packet to a peer. -/
def Sends (c : Threads n) (t : Thread n) (w : Work) (pkt : RawPacket) : Prop :=
  ∃ j sec, c.running t = some j ∧ j.label = w ∧ j.rest.step? c.state = some sec ∧
    ∃ p k, .toPeer p k pkt ∈ sec.out

end Threads

/-- The threads, and for each the states in which the sections of its program took place. -/
structure Recorded (n : Nat) where
  threads : Threads n
  seen : Thread n → List ChatServer := fun _ => []

namespace Recorded

variable {n : Nat}

/-- A thread that performs a section sees the state, and one that is given a program has seen
nothing. -/
def record (r : Recorded n) : Happening n → Thread n → List ChatServer
  | .act (.run t) => Function.update r.seen t (r.seen t ++ [r.threads.state])
  | .act (.take i) => Function.update r.seen (.worker i) []
  | .act (.hangUp _) | .act (.hangUpPeer _) => Function.update r.seen .listener []
  | .act .beat => Function.update r.seen .heartbeat []
  | .act (.dial _ _) => Function.update r.seen .connector []
  | _ => r.seen

/-- What happens to the threads, with the record. -/
def happen (r : Recorded n) (a : Happening n) : Option (Recorded n) :=
  (r.threads.happen a).map fun c => ⟨c, r.record a⟩

/-- Every run of the threads is recorded. -/
theorem exec_threads (r : Recorded n) (as : List (Happening n)) :
    (exec happen r as).map threads = exec Threads.happen r.threads as :=
  exec_project (fun r a => by rw [happen, Option.map_map]; exact Option.map_id') r as

section

variable {id : Int} {r r' : Recorded n}

/-- The names are kept, and every program that waits or runs accounts for its frames. -/
def Tended (id : Int) (r : Recorded n) : Prop :=
  Pool.Accounting (Named id) (fun w seen => Routes id w (w.call seen)) r.seen r.threads.toPool

/-- A change of the server that keeps the names. -/
theorem Tended.state {s : ChatServer} (h : r.Tended id) (hs : s.Named id) :
    Pool.Accounting (Named id) (fun w seen => Routes id w (w.call seen)) r.seen
      { r.threads.toPool with state := s } :=
  ⟨hs, h.queue, h.running⟩

theorem tended_of_launch {c c' : Threads n} {seen : Thread n → List ChatServer} {t : Thread n}
    {w : Work} (hc : c.launch t w = some c') (h : Pool.Accounting (Named id)
      (fun w seen => Routes id w (w.call seen)) seen c.toPool) :
    Tended id ⟨c', Function.update seen t []⟩ := by
  obtain ⟨P, hP, rfl⟩ := Option.map_eq_some_iff.mp hc
  exact Pool.Accounting.launch h (accounts_prog w) hP

/-- Whatever happens, the names are kept. -/
theorem Tended.happen (h : r.Tended id) {a : Happening n} (hn : r.happen a = some r') :
    r'.Tended id := by
  obtain ⟨c, hc, rfl⟩ := Option.map_eq_some_iff.mp hn
  cases a with
  | cut k =>
      cases hc
      exact h.state (h.inv.onConn fun _ => rfl)
  | act a =>
      cases a with
      | take i =>
          obtain ⟨P, hP, rfl⟩ := Option.map_eq_some_iff.mp hc
          exact Pool.Accounting.take h hP
      | run t =>
          obtain ⟨P, hP, rfl⟩ := Option.map_eq_some_iff.mp hc
          exact Pool.Accounting.advance h hP
      | finish t =>
          obtain ⟨P, hP, rfl⟩ := Option.map_eq_some_iff.mp hc
          exact Pool.Accounting.finish h hP
      | accept handle =>
          obtain ⟨-, heq⟩ := Option.ite_none_right_eq_some.mp hc
          cases heq
          have hnew := h.inv.newSocket handle
          exact h.state ⟨hnew.serverId, hnew.nulFree⟩
      | scan | read k pkt =>
          obtain ⟨-, heq⟩ := Option.ite_none_right_eq_some.mp hc
          cases heq
          exact h
      | hangUp k | hangUpPeer p =>
          obtain ⟨-, hl⟩ := Option.ite_none_right_eq_some.mp hc
          exact tended_of_launch hl h
      | readPeer p pkt =>
          simp only [Threads.happen, Threads.next] at hc
          split at hc
          · cases hc
          · obtain ⟨-, heq⟩ := Option.ite_none_right_eq_some.mp hc
            cases heq
            exact h
      | enqueue =>
          simp only [Threads.happen, Threads.next] at hc
          split at hc
          · cases hc
          · cases hc
            exact Pool.Accounting.submit h (accounts_prog _)
      | clock now =>
          obtain ⟨-, heq⟩ := Option.ite_none_right_eq_some.mp hc
          cases heq
          exact h.state ⟨h.inv.serverId, h.inv.nulFree⟩
      | beat => exact tended_of_launch hc h
      | dial p handle =>
          obtain ⟨-, hl⟩ := Option.ite_none_right_eq_some.mp hc
          exact tended_of_launch hl (h.state (h.inv.newSocket handle))

theorem tended_idle (id : Int) (peers : List Int) :
    Tended id ({ threads := .idle (configured id peers) } : Recorded n) where
  inv := by
    refine ⟨rfl, fun k => ?_⟩
    rw [Threads.idle, nameOf, (configured_connManager id peers).2.2.1 k]
    exact List.not_mem_nil
  queue := fun _ hj => absurd hj List.not_mem_nil
  running := fun _ _ hj => nomatch hj

/-- A packet of the kind that is about to be sent is the one of the call. -/
theorem packet_of_sends {peers : List Int} {as : List (Happening n)}
    (hrun : exec happen { threads := .idle (configured id peers) } as = some r) {t : Thread n}
    {w : Work} {pkt : RawPacket} (hs : r.threads.Sends t w pkt) (hw : w.Carries pkt) :
    ∃ call, w.call (r.seen t) = some call ∧ call.NulFree ∧ pkt = call.packet id := by
  have htended : r.Tended id :=
    exec_invariant (I := Tended id) (fun h hn => h.happen hn) (tended_idle id peers) hrun
  obtain ⟨j, sec, hj, rfl, hsec, p, k, he⟩ := hs
  exact Pool.Accounting.out htended hj hsec _ he hw

end

end Recorded

/-- In every run of a server's threads, a packet with a login or logout, or with a routed private
message or room message, brings its receiver the arguments that its origin gave, and makes it act
on them, if they leave room for what is packed with them, and only then. -/
theorem arguments_survive_iff {n : Nat} {id : Int} (hid : IsInt id) (peers : List Int)
    (as : List (Happening n)) (r : Recorded n)
    (hrun : exec Recorded.happen { threads := .idle (configured id peers) } as = some r)
    (t : Thread n) (w : Work) (pkt : RawPacket) (hs : r.threads.Sends t w pkt)
    (hw : w.Carries pkt) :
    ∃ call, w.call (r.seen t) = some call ∧ (call.ConveyedBy id pkt ↔ call.Fits id) := by
  obtain ⟨call, hcall, hfree, rfl⟩ := Recorded.packet_of_sends hrun hs hw
  exact ⟨call, hcall, Call.conveyedBy_packet_iff hid hfree⟩

/-- Server 1 connects to peer 2, accepts a connection and looks at it. -/
def annArrives : List (Happening 1) :=
  [.act (.dial 2 4)] ++ List.replicate 5 (.act (.run .connector)) ++
    [.act (.accept 5), .act .scan]

/-- A worker replicates the login of `ann`. -/
def annLogsIn : List (Happening 1) :=
  annArrives ++ [.act (.read 1 ⟨.login, ascii "ann"⟩), .act .enqueue, .act (.take 0)] ++
    List.replicate 9 (.act (.run (.worker 0)))

/-- The login of `ann` arrives as it was sent. -/
theorem arguments_survive_iff_ann : ∃ r : Recorded 1,
    exec Recorded.happen { threads := .idle (configured 1 [2]) } annLogsIn = some r ∧
      let w : Work := .task (.client 1 ⟨.login, ascii "ann"⟩)
      let pkt : RawPacket := ⟨.s2sReplicateUser, replicationPayload (ascii "ann") 1 true⟩
      r.threads.Sends (.worker 0) w pkt ∧
        ∃ call, w.call (r.seen (.worker 0)) = some call ∧
          (call.ConveyedBy 1 pkt ↔ call.Fits 1) := by
  let w : Work := .task (.client 1 ⟨.login, ascii "ann"⟩)
  let pkt : RawPacket := ⟨.s2sReplicateUser, replicationPayload (ascii "ann") 1 true⟩
  have hrun : (exec Recorded.happen { threads := .idle (configured 1 [2]) } annLogsIn).any fun r =>
      (r.threads.running (.worker 0)).any fun j => (j.rest.step? r.threads.state).any fun sec =>
        decide (j.label = w ∧ .toPeer 2 0 pkt ∈ sec.out) := by decide +kernel
  obtain ⟨r, hr, hrun⟩ := (Option.any_eq_true ..).mp hrun
  obtain ⟨j, hj, hrun⟩ := (Option.any_eq_true ..).mp hrun
  obtain ⟨sec, hsec, hrun⟩ := (Option.any_eq_true ..).mp hrun
  obtain ⟨hlabel, he⟩ := of_decide_eq_true hrun
  have hs : r.threads.Sends (.worker 0) w pkt := ⟨j, sec, hj, hlabel, hsec, 2, 0, he⟩
  exact ⟨r, hr, hs, arguments_survive_iff (by decide) [2] annLogsIn r hr _ w pkt hs (.inl rfl)⟩

/-! ## A name that is too long -/

namespace Threads

variable {n : Nat}

/-- A section of a thread. -/
theorem happen_run {c : Threads n} {t : Thread n} {j : Job ChatServer Effect Work}
    {sec : Prog.Section ChatServer Effect Unit} (hj : c.running t = some j)
    (hsec : j.rest.step? c.state = some sec) :
    c.happen (.act (.run t)) = some (c.withPool (c.toPool.perform t j sec)) :=
  Option.map_eq_some_iff.mpr ⟨_, Pool.advance_eq_some.mpr ⟨j, sec, hj, hsec, rfl⟩, rfl⟩

/-- A thread left alone comes to every section in which its program, run alone, emits
something. -/
theorem exists_run_emits {t : Thread n} {e : Effect} {c : Threads n} {number : Nat} {w : Work}
    {rest : ServerProg Unit} (hj : c.running t = some ⟨number, w, rest⟩)
    (he : e ∈ (rest.run c.state).out) :
    ∃ m c' j sec, exec happen c (List.replicate m (.act (.run t))) = some c' ∧
      c'.running t = some j ∧ j.label = w ∧ j.rest.step? c'.state = some sec ∧ e ∈ sec.out := by
  induction rest generalizing c with
  | ret a => cases he
  | ask k ih =>
      obtain ⟨m, c', j, sec, hrun, hrest⟩ :=
        ih c.state (c := c.withPool (c.toPool.perform t ⟨number, w, .ask k⟩
          ⟨k c.state, c.state, [], false⟩)) (by simp [withPool, Pool.running_perform]) he
      exact ⟨m + 1, c', j, sec, exec_cons_eq_some.mpr ⟨_, happen_run hj rfl, hrun⟩, hrest⟩
  | act upd emit k ih =>
      rcases List.mem_append.mp he with he | he
      · exact ⟨0, c, _, _, rfl, hj, rfl, rfl, he⟩
      · obtain ⟨m, c', j, sec, hrun, hrest⟩ :=
          ih c.state (c := c.withPool (c.toPool.perform t ⟨number, w, .act upd emit k⟩
            ⟨k c.state, upd c.state, emit c.state, true⟩))
            (by simp [withPool, Pool.running_perform]) he
        exact ⟨m + 1, c', j, sec, exec_cons_eq_some.mpr ⟨_, happen_run hj rfl, hrun⟩, hrest⟩

end Threads

open Threads in
/-- The login of a name is replicated to the peer, whatever its length. -/
theorem sends_of_login {u : Bytes} (hu : trim u = u ∧ ¬ (u = [] ∨ nul ∈ u ∨ 32 ∈ u))
    (hfits : RawPacket.Fits ⟨.login, u⟩) :
    ∃ (as : List (Happening 1)) (r : Recorded 1),
      exec Recorded.happen { threads := .idle (configured 1 [2]) } as = some r ∧
        r.threads.Sends (.worker 0) (.task (.client 1 ⟨.login, u⟩))
          ⟨.s2sReplicateUser, replicationPayload u 1 true⟩ := by
  have hfacts : (exec happen (idle (configured 1 [2]) : Threads 1) annArrives).any fun c =>
      decide (c.Listening ∧ 1 ∈ c.snapshot ∧ (c.running (.worker 0)).isNone = true ∧
        c.queue.isEmpty = true ∧ c.state.serverId = 1 ∧ c.state.userManager.getOnlineUsers = [] ∧
        c.state.connManager.peerNodes.elems = [2] ∧ c.state.connManager.linkSocket 2 = some 0 ∧
        c.state.connManager.canSend 0 = true) := by decide +kernel
  obtain ⟨c, hc, hfacts⟩ := (Option.any_eq_true ..).mp hfacts
  obtain ⟨hlisten, hsnap, hidle, hqueue, hid, honline, hpeers, hlink, hsend⟩ :=
    of_decide_eq_true hfacts
  let w : Work := .task (.client 1 ⟨.login, u⟩)
  -- a worker takes the packet
  obtain ⟨c₁, hc₁, hrunning, hstate⟩ : ∃ c₁,
      exec happen c [.act (.read 1 ⟨.login, u⟩), .act .enqueue, .act (.take 0)] = some c₁ ∧
        c₁.running (.worker 0) = some ⟨c.made, w, w.prog⟩ ∧ c₁.state = c.state := by
    have hread : c.happen (.act (.read 1 ⟨.login, u⟩)) = some _ :=
      if_pos ⟨hlisten, hsnap, hfits⟩
    refine ⟨_, exec_cons_eq_some.mpr ⟨_, hread, exec_cons_eq_some.mpr ⟨_, rfl,
      exec_cons_eq_some.mpr ⟨_, Option.map_eq_some_iff.mpr ⟨_, Pool.take_eq_some.mpr
        ⟨⟨c.made, w, w.prog⟩, [], Option.isNone_iff_eq_none.mp hidle, ?_, rfl⟩, rfl⟩, rfl⟩⟩⟩,
      ?_, rfl⟩
    · show c.queue ++ [_] = _
      rw [List.isEmpty_iff.mp hqueue]
      rfl
    · simp [withPool, Pool.running_assign]
  -- its handler, run alone, sends the login to the peer
  have hoffline : c.state.userManager.isUserOnline u = false := by
    rw [Bool.eq_false_iff, ne_eq, ← UserManager.mem_getOnlineUsers, honline]
    exact List.not_mem_nil
  have hlogin := amounts_handleLogin (k := 1) ⟨hu.1, hu.2, hoffline⟩
  have hgood : (c.state.loggedIn 1 u).LinksGood := by
    intro p hp k hk
    have hp : p ∈ c.state.connManager.peerNodes.elems := hp
    rw [hpeers, List.mem_singleton] at hp
    subst hp
    have hk : c.state.connManager.linkSocket 2 = some k := hk
    rw [hlink] at hk
    cases hk
    exact hsend
  have hout : .toPeer 2 0 ⟨.s2sReplicateUser, replicationPayload u 1 true⟩ ∈
      (w.prog.run c₁.state).out := by
    have hprog : w.prog.run c.state = (handleLogin 1 u).run c.state := by
      simp [w, Work.prog, handleClientPacket]
    rw [hstate, hprog]
    refine List.mem_of_mem_filter (p := Effect.isFrame) ?_
    show _ ∈ framesOf _
    rw [hlogin.frames hgood, mem_frames, hid]
    refine ⟨2, 0, ?_, hlink, rfl⟩
    show 2 ∈ c.state.connManager.peerNodes.elems
    rw [hpeers]
    exact List.mem_singleton_self 2
  obtain ⟨m, c₂, j, sec, hrun, hj, hlabel, hsec, he⟩ := exists_run_emits hrunning hout
  have hexec : exec happen (idle (configured 1 [2])) (annArrives ++
      ([.act (.read 1 ⟨.login, u⟩), .act .enqueue, .act (.take 0)] ++
        List.replicate m (.act (.run (.worker 0))))) = some c₂ :=
    exec_append_eq_some.mpr ⟨c, hc, exec_append_eq_some.mpr ⟨c₁, hc₁, hrun⟩⟩
  have hrecorded := Recorded.exec_threads { threads := .idle (configured 1 [2]) } (annArrives ++
      ([.act (.read 1 ⟨.login, u⟩), .act .enqueue, .act (.take 0)] ++
        List.replicate m (.act (.run (.worker 0)))))
  rw [hexec] at hrecorded
  obtain ⟨r, hr, rfl⟩ := Option.map_eq_some_iff.mp hrecorded
  exact ⟨_, r, hr, j, sec, hj, hlabel, hsec, 2, 0, he⟩

open Threads in
/-- A client logs in with a name that is four bytes short of the largest payload, and the peer
refuses the frame with its login. -/
theorem arguments_lost :
    ¬ ∀ {n : Nat} {id : Int}, IsInt id → ∀ (peers : List Int) (as : List (Happening n))
      (r : Recorded n),
      exec Recorded.happen { threads := .idle (configured id peers) } as = some r →
      ∀ (t : Thread n) (w : Work) (pkt : RawPacket), r.threads.Sends t w pkt → w.Carries pkt →
        ∃ call, w.call (r.seen t) = some call ∧ call.ConveyedBy id pkt := by
  intro h
  -- only the length and the letter matter
  obtain ⟨u, hlen, hletter⟩ : ∃ u : Bytes, u.length = maxPayloadSize - 5 ∧ ∀ b ∈ u, b = 97 :=
    ⟨List.replicate (maxPayloadSize - 5) 97, List.length_replicate, fun b hb =>
      List.eq_of_mem_replicate hb⟩
  have hblank : ∀ b ∈ u, isBlank b = false := fun b hb => hletter b hb ▸ rfl
  have hname : trim u = u ∧ ¬ (u = [] ∨ nul ∈ u ∨ 32 ∈ u) := by
    refine ⟨trim_eq_self_iff.mpr ⟨List.dropWhile_eq_self_iff.mpr fun hl => ?_,
      List.rdropWhile_eq_self_iff.mpr fun hl => ?_⟩, ?_⟩
    · simp [hblank _ (List.getElem_mem hl)]
    · simp [hblank _ (List.getLast_mem hl)]
    · rintro (rfl | hm | hm)
      · exact absurd hlen (by decide)
      · exact absurd (hletter _ hm) (by decide)
      · exact absurd (hletter _ hm) (by decide)
  have hfits : RawPacket.Fits ⟨.login, u⟩ := by
    rw [RawPacket.Fits, hlen]
    decide
  obtain ⟨as, r, hr, hs⟩ := sends_of_login hname hfits
  obtain ⟨call, hcall, hconv⟩ := h (by decide) [2] as r hr _ _ _ hs (.inl rfl)
  have hlogin : some (Call.replicateUser (trim u) true) = some call := hcall
  cases hlogin
  have hsize : (Call.replicateUser u true).Fits 1 := Call.arrives_packet_iff.mp hconv.arrives
  rw [Call.Fits, hlen] at hsize
  exact absurd hsize (by decide)

end DistributedChat
