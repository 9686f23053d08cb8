import DistributedChat.Server.Threads
import DistributedChat.Logic.Phases

/-!
# Joins and leaves in steps

A `RoomTask` is how far a thread has come with a `HandleRoomJoin` or a
`HandleRoomLeave`: which of its calls of the room manager it has made and what
they have told it, and the sync it is still to send.  `RoomTask.proceed` is the
next of these steps, and a `RoomAside` any section that leaves the local members
of rooms alone.

The two handlers are made of these (`completes_handleRoomJoin`,
`completes_handleRoomLeave`).  A sync is a broadcast, and for one peer it is the
frame on the socket of the peer, as long as the link is up (`Linked`).
-/

namespace DistributedChat

open ChatServer

open Prog (observe update each follows_observe_bind follows_update_bind Follows Calm)

/-- How far a `HandleRoomJoin` or a `HandleRoomLeave` has come. -/
inductive RoomTask where
  | idle
  | joining (r u : Bytes)
  /-- The members have been read: was the room empty? -/
  | found (r u : Bytes) (empty : Bool)
  | leaving (r u : Bytes)
  /-- The user is off the room. -/
  | left (r : Bytes)
  /-- A sync is to be sent. -/
  | owing (r : Bytes) (online : Bool)
deriving DecidableEq

namespace RoomTask

/-- What becomes of the task and of the rooms, and the sync it sends. -/
def proceed (m : ChatRoomManager) : RoomTask → RoomTask × ChatRoomManager × List (Bytes × Bool)
  | idle => (idle, m, [])
  | joining r u => (found r u (decide (m.getLocalMembers r = [])), m, [])
  | found r u empty => (if empty = true then owing r true else idle, m.joinRoomLocal r u, [])
  | leaving r u => (left r, m.leaveRoomLocal r u, [])
  | left r => (if m.getLocalMembers r = [] then owing r false else idle, m, [])
  | owing r online => (idle, m, [(r, online)])

end RoomTask

/-- A section that leaves the local members of every room as they are. -/
structure RoomAside where
  apply : ChatRoomManager → ChatRoomManager
  members_apply : ∀ m r, (apply m).getLocalMembers r = m.getLocalMembers r

/-- The packet of a frame handed to a socket of peer `p`. -/
def Effect.frameTo (p : Int) : Effect → Option RawPacket
  | .toPeer q _ pkt => if q = p then some pkt else none
  | .toSession _ _ => none

/-- The packets handed to the sockets of peer `p`. -/
def sentTo (p : Int) (out : List Effect) : List RawPacket := out.filterMap (Effect.frameTo p)

/-- The packet of a room sync. -/
def syncPacket (id : Int) (e : Bytes × Bool) : RawPacket :=
  ⟨.s2sRoomMemberSync, replicationPayload e.1 id e.2⟩

/-- The server `id` is connected to peer `p`, and the socket `x` of the link takes frames. -/
structure ChatServer.Linked (s : ChatServer) (id p : Int) (x : ConnRef) : Prop where
  serverId : s.serverId = id
  peer : p ∈ s.connManager.peerNodes
  connected : (s.connManager.nodes p).isConnected = true
  socket : (s.connManager.nodes p).socket = some x
  canSend : s.connManager.canSend x = true

namespace RoomTask

/-- A section of a thread: how far its task has come and the state before it, its
outputs, the state and the task after it.  Nothing is known any more once the
link has been lost. -/
inductive Moves (id p : Int) (x : ConnRef) :
    Option RoomTask → ChatServer → List Effect → ChatServer → Option RoomTask → Prop where
  | aside (a : RoomAside) (g : Option RoomTask) (s : ChatServer) {s' : ChatServer}
      {out : List Effect} (hs : s'.roomManager = a.apply s.roomManager)
      (hout : sentTo p out = []) : Moves id p x g s out s' g
  | join (r u : Bytes) (s : ChatServer) : Moves id p x (some .idle) s [] s (some (.joining r u))
  | leave (r u : Bytes) (s : ChatServer) : Moves id p x (some .idle) s [] s (some (.leaving r u))
  | step {g g' : RoomTask} {s s' : ChatServer} {out : List Effect} {sent : List (Bytes × Bool)}
      (h : g.proceed s.roomManager = (g', s'.roomManager, sent))
      (hout : sentTo p out = sent.map (syncPacket id)) : Moves id p x (some g) s out s' (some g')
  | cut (g : Option RoomTask) {s : ChatServer} (out : List Effect) (s' : ChatServer)
      (h : ¬ s.Linked id p x) : Moves id p x g s out s' none
  | lost (s : ChatServer) (out : List Effect) (s' : ChatServer) : Moves id p x none s out s' none

/-- A program that is done with its task at the end, unless the link has been lost. -/
abbrev Completes (id p : Int) (x : ConnRef) {α : Type} (prog : ServerProg α) (g : Option RoomTask) :
    Prop :=
  prog.Follows (Moves id p x) (fun _ g' => g' = some .idle ∨ g' = none) g

/-- A program that has nothing to do with local members and sends nothing to the peer. -/
abbrev Apart (id p : Int) (x : ConnRef) {α : Type} (prog : ServerProg α) : Prop :=
  ∀ g, prog.Calm (Moves id p x) g

section

variable {α β : Type} {id p q : Int} {x : ConnRef} {g : Option RoomTask}

/-- An observation. -/
theorem moves_look (g : Option RoomTask) (s : ChatServer) : Moves id p x g s [] s g :=
  .aside ⟨fun m => m, fun _ _ => rfl⟩ g s rfl rfl

theorem Apart.observe {f : ChatServer → α} {q : α → ServerProg β}
    (h : ∀ a, Apart id p x (q a)) : Apart id p x (observe f >>= q) :=
  fun g => follows_observe_bind fun s => ⟨g, moves_look g s, h (f s) g⟩

theorem Apart.bind {prog : ServerProg α} {q : α → ServerProg β} (hp : Apart id p x prog)
    (hq : ∀ a, Apart id p x (q a)) : Apart id p x (prog >>= q) :=
  fun g => Calm.then (hp g) fun a => hq a g

/-- An update of something else. -/
theorem apart_update {f : ChatServer → ChatServer} (a : RoomAside)
    (hf : ∀ s, (f s).roomManager = a.apply s.roomManager) : Apart id p x (update f) :=
  fun g s => ⟨g, .aside a g s (hf s) rfl, rfl⟩

theorem apart_pure (a : α) : Apart id p x (pure a : ServerProg α) := fun _ => rfl

theorem apart_sendPacket (k : ConnRef) (t : PacketType) (pl : Bytes) :
    Apart id p x (sendPacket k t pl) :=
  fun g s => ⟨g, .aside ⟨fun m => m, fun _ _ => rfl⟩ g s rfl rfl, rfl⟩

theorem apart_sendToMembers (members : List Bytes) (t : PacketType) (pl : Bytes) :
    Apart id p x (sendToMembers members t pl) := by
  refine fun g => Calm.each fun name _ => ?_
  refine Apart.observe (fun session => ?_) g
  cases session with
  | none => exact apart_pure ()
  | some k => exact Apart.bind (apart_sendPacket k t pl) fun _ => apart_pure ()

theorem apart_notifyOnlineUsers (skip : Option SOCKET) :
    Apart id p x (notifyOnlineUsers skip) := by
  refine Apart.observe fun sessions => Apart.observe fun onlineList g => Calm.each fun k _ => ?_
  refine Apart.observe (fun authenticated => Apart.observe fun handle g => ?_) g
  refine Follows.ite (fun _ => ?_) fun _ => rfl
  exact Apart.bind (apart_sendPacket k _ _) (fun _ => apart_pure ()) g

theorem apart_handlePeerDisconnect (q : Int) : Apart id p x (handlePeerDisconnect q) := by
  have helsewhere : ∀ {f : ChatServer → ChatServer}, (∀ s, (f s).roomManager = s.roomManager) →
      Apart id p x (update f) :=
    fun hf => apart_update ⟨fun m => m, fun _ _ => rfl⟩ hf
  refine Apart.observe fun peer => Apart.observe fun connected => ?_
  refine fun g => Follows.ite (fun _ => Apart.observe (fun socket => ?_) g) fun _ => rfl
  have hcut : Apart id p x (do
      update fun s => s.onConn (·.unregisterPeerSocket q s.now)
      update (onUsers (·.clearServerUsers q))
      update (onRooms (·.clearServerMemberships q))
      notifyOnlineUsers none) := by
    refine Apart.bind (helsewhere fun _ => rfl) fun _ => ?_
    refine Apart.bind (helsewhere fun _ => rfl) fun _ => ?_
    refine Apart.bind (apart_update ⟨(·.clearServerMemberships q), ?_⟩ fun _ => rfl) fun _ => ?_
    · exact fun m r => m.getLocalMembers_clearServerMemberships r q
    · exact apart_notifyOnlineUsers none
  cases socket with
  | none => exact hcut
  | some k => exact Apart.bind (helsewhere fun _ => rfl) fun _ => hcut

theorem apart_sendFrame (hq : q ≠ p) (y : ConnRef) (t : PacketType) (pl : Bytes) :
    Apart id p x (sendFrame q y t pl) := by
  refine fun g s => ⟨g, .aside ⟨fun m => m, fun _ _ => rfl⟩ g s rfl ?_, rfl⟩
  show sentTo p (if s.connManager.canSend y = true then [.toPeer q y ⟨t, pl⟩] else []) = []
  split
  · simp [sentTo, Effect.frameTo, hq]
  · rfl

/-- A frame to another peer. -/
theorem apart_sendToPeer (hq : q ≠ p) (t : PacketType) (pl : Bytes) :
    Apart id p x (sendToPeer q t pl) := by
  refine Apart.observe fun connected g => Follows.ite (fun _ => ?_) fun _ => rfl
  refine Apart.observe (fun socket => ?_) g
  cases socket with
  | none => exact apart_pure ()
  | some y =>
      refine Apart.bind (apart_sendFrame hq y t pl) fun sent g => ?_
      exact Follows.ite (fun _ => rfl) fun _ => apart_handlePeerDisconnect q g

/-! ## Syncs -/

/-- Nothing is known of a program whose link has been lost. -/
theorem completes_lost (prog : ServerProg α) : Completes id p x prog none := by
  induction prog with
  | ret a => exact Or.inr rfl
  | ask k ih => exact fun s => ⟨none, .lost s _ _, ih s⟩
  | act upd emit k ih => exact fun s => ⟨none, .lost s _ _, ih s⟩

/-- A section whose outcome matters only while there is a link. -/
theorem completes_observe {f : ChatServer → α} {q : α → ServerProg β}
    (h : ∀ s, s.Linked id p x → Completes id p x (q (f s)) g) :
    Completes id p x (observe f >>= q) g := by
  refine follows_observe_bind fun s => ?_
  by_cases hs : s.Linked id p x
  · exact ⟨g, moves_look g s, h s hs⟩
  · exact ⟨none, .cut g [] s hs, completes_lost _⟩

/-- A program that is apart changes nothing, and what follows it does the task. -/
theorem Apart.then {prog : ServerProg α} {q : α → ServerProg β} (hp : Apart id p x prog)
    (hq : ∀ a, Completes id p x (q a) g) : Completes id p x (prog >>= q) g :=
  Calm.then (hp g) hq

theorem completes_of_apart {prog : ServerProg α} (hp : Apart id p x prog)
    (hg : g = some .idle ∨ g = none) : Completes id p x prog g :=
  (hp g).mono fun _ _ he => he ▸ hg

theorem completes_sendToPeer (r : Bytes) (b : Bool) :
    Completes id p x (sendToPeer p .s2sRoomMemberSync (replicationPayload r id b))
      (some (.owing r b)) := by
  refine completes_observe fun s hs => Follows.ite (fun _ => ?_) fun h => absurd hs.connected h
  refine completes_observe fun s hs => ?_
  rw [hs.socket]
  intro s
  by_cases hs : s.Linked id p x
  · have hout : sentTo p (if s.connManager.canSend x = true then
        [.toPeer p x ⟨.s2sRoomMemberSync, replicationPayload r id b⟩] else []) =
          [(r, b)].map (syncPacket id) := by
      rw [if_pos hs.canSend]
      simp [sentTo, Effect.frameTo, syncPacket]
    refine ⟨some .idle, .step rfl hout, ?_⟩
    exact Follows.ite (fun _ => Or.inl rfl) fun h => absurd hs.canSend h
  · exact ⟨none, .cut _ _ _ hs, completes_lost _⟩

/-- A broadcast sends the peer one frame. -/
theorem completes_each_sendToPeer (r : Bytes) (b : Bool) {ps : List Int} (hnodup : ps.Nodup)
    (hp : p ∈ ps) :
    Completes id p x
      (each ps fun q => sendToPeer q .s2sRoomMemberSync (replicationPayload r id b))
      (some (.owing r b)) := by
  induction ps with
  | nil => cases hp
  | cons q qs ih =>
      obtain ⟨hq, hqs⟩ := List.nodup_cons.mp hnodup
      rcases List.mem_cons.mp hp with hpq | hp
      · subst hpq
        refine Follows.bind ((completes_sendToPeer r b).mono fun _ g hg => ?_)
        refine completes_of_apart (fun g => Calm.each fun q' hmem => ?_) hg
        have hne : q' ≠ p := by
          rintro rfl
          exact hq hmem
        exact apart_sendToPeer hne _ _ g
      · have hne : q ≠ p := fun he => hq (he ▸ hp)
        exact Apart.then (apart_sendToPeer hne _ _) fun _ => ih hqs hp

theorem completes_replicate (r : Bytes) (b : Bool) :
    Completes id p x (do
      let id ← observe ChatServer.serverId
      broadcastS2S .s2sRoomMemberSync (replicationPayload r id b)) (some (.owing r b)) := by
  refine completes_observe fun s hs => ?_
  rw [hs.serverId]
  refine completes_observe fun s hs => ?_
  exact completes_each_sendToPeer r b s.connManager.peerNodes.nodup hs.peer

/-! ## Joins and leaves -/

/-- A section of the task that updates the state. -/
theorem completes_update {f : ChatServer → ChatServer} {q : Unit → ServerProg β} {g g' : RoomTask}
    (hf : ∀ s, g.proceed s.roomManager = (g', (f s).roomManager, []))
    (h : Completes id p x (q ()) (some g')) : Completes id p x (update f >>= q) (some g) :=
  follows_update_bind fun s => ⟨some g', .step (hf s) rfl, h⟩

theorem completes_handleRoomJoin (k : ConnRef) (payload : Bytes) :
    Completes id p x (handleRoomJoin k payload) (some .idle) := by
  have hsession : ∀ r, Apart id p x (update (onConn (·.joinRoom k r))) :=
    fun r => apart_update ⟨fun m => m, fun _ _ => rfl⟩ fun _ => rfl
  refine follows_observe_bind fun s => ?_
  generalize (s.connManager.sessions k).username = u
  by_cases hr : trim payload = []
  · exact ⟨_, moves_look _ s, Follows.ite (fun _ => Or.inl rfl) fun h => absurd hr h⟩
  refine ⟨_, .join (trim payload) u s, Follows.ite (fun h => absurd h hr) fun _ => ?_⟩
  refine Apart.then (hsession _) fun _ => follows_observe_bind fun s => ?_
  refine ⟨_, .step (g := .joining (trim payload) u) rfl rfl, ?_⟩
  refine completes_update (fun _ => rfl) (Apart.then (apart_sendPacket _ _ _) fun _ => ?_)
  refine follows_observe_bind fun s' => ⟨_, moves_look _ s', ?_⟩
  refine Apart.then (apart_sendToMembers _ _ _) fun _ => ?_
  by_cases hempty : s.roomManager.getLocalMembers (trim payload) = []
  · rw [if_pos hempty, if_pos (decide_eq_true hempty)]
    exact completes_replicate _ true
  · rw [if_neg hempty, if_neg fun h => hempty (of_decide_eq_true h)]
    exact Or.inl rfl

theorem completes_handleRoomLeave (k : ConnRef) (payload : Bytes) :
    Completes id p x (handleRoomLeave k payload) (some .idle) := by
  have hsession : ∀ r, Apart id p x (update (onConn (·.leaveRoom k r))) :=
    fun r => apart_update ⟨fun m => m, fun _ _ => rfl⟩ fun _ => rfl
  refine follows_observe_bind fun s => ⟨_, moves_look _ s, ?_⟩
  generalize (s.connManager.sessions k).username = u
  refine follows_observe_bind fun s => ?_
  by_cases hr : trim payload = [] ∨ s.connManager.isInRoom k (trim payload) = false
  · exact ⟨_, moves_look _ s, Follows.ite (fun _ => Or.inl rfl) fun h => absurd hr h⟩
  refine ⟨_, .leave (trim payload) u s, Follows.ite (fun h => absurd h hr) fun _ => ?_⟩
  refine Apart.then (hsession _) fun _ => completes_update (fun _ => rfl) ?_
  refine Apart.then (apart_sendPacket _ _ _) fun _ => follows_observe_bind fun s => ?_
  refine ⟨_, .step (g := .left (trim payload)) rfl rfl, ?_⟩
  refine Apart.then (apart_sendToMembers _ _ _) fun _ => ?_
  by_cases hempty : s.roomManager.getLocalMembers (trim payload) = []
  · rw [if_pos hempty, if_pos hempty]
    exact completes_replicate _ false
  · rw [if_neg hempty, if_neg hempty]
    exact Or.inl rfl

end

end RoomTask

end DistributedChat
