import DistributedChat.Logic.Table
import DistributedChat.Protocol.MessageSerializer
import Mathlib.Logic.Function.Basic

/-!
# The managers

The state the server's threads share: `UserManager`, `ChatRoomManager` and
`ConnectionManager` with the session, node and socket objects its maps point to.
Every function here is one critical section of the source.

A `TcpSocket` object is named by a `ConnRef`, and so is the `ClientSession` an
accepted socket belongs to, as a session keeps its socket for life.  Objects
live in heaps (total functions) and are never removed from them; the maps say
which of them are still in use.  A `ServerNode` is named by its server id, its
key in `m_peerNodes`.
-/

namespace DistributedChat

/-- The name of a socket object and of the session on it. -/
abbrev ConnRef := Nat

/-- `SOCKET`: the operating system's handle. -/
abbrev SOCKET := Nat

/-- `INVALID_SOCKET`, the handle of a closed socket. -/
def invalidSocket : SOCKET := 2 ^ 64 - 1

/-- `TcpSocket`.  `broken` is the network's side: `Send` fails on the socket. -/
structure TcpSocket where
  handle : SOCKET := invalidSocket
  broken : Bool := false

/-- `ClientSession`, less its socket, which bears the session's name. -/
structure ClientSession where
  username : Bytes := []
  isAuthenticated : Bool := false
  joinedRooms : ListSet Bytes := ∅

/-- `ServerNode`.  Host and port are read by `Connect` only. -/
structure ServerNode where
  socket : Option ConnRef := none
  lastHeartbeatTime : Nat := 0
  isConnected : Bool := false

/-- `ServerNode::SetSocket`. -/
def ServerNode.setSocket (node : ServerNode) (socket : Option ConnRef) (now : Nat) : ServerNode :=
  { socket := socket
    isConnected := socket.isSome
    lastHeartbeatTime := if socket.isSome then now else node.lastHeartbeatTime }

/-! ## `UserManager` -/

/-- `UserManager`: user name to the id of the server the user is on. -/
structure UserManager where
  userLocations : Table Bytes Int := ∅

namespace UserManager

def registerUser (m : UserManager) (username : Bytes) (serverId : Int) : UserManager :=
  ⟨m.userLocations.insert username serverId⟩

def unregisterUser (m : UserManager) (username : Bytes) : UserManager :=
  ⟨m.userLocations.erase username⟩

/-- The entry of a user, if there is one. -/
def location? (m : UserManager) (username : Bytes) : Option Int :=
  m.userLocations.lookup username

/-- `GetUserLocation`: `-1` for a user without entry. -/
def getUserLocation (m : UserManager) (username : Bytes) : Int := (m.location? username).getD (-1)

def isUserOnline (m : UserManager) (username : Bytes) : Bool := (m.location? username).isSome

def clearServerUsers (m : UserManager) (serverId : Int) : UserManager :=
  ⟨m.userLocations.filter fun _ i => i != serverId⟩

def getOnlineUsers (m : UserManager) : List Bytes := m.userLocations.keys

theorem mem_getOnlineUsers {m : UserManager} {u : Bytes} :
    u ∈ m.getOnlineUsers ↔ m.isUserOnline u = true :=
  AList.mem_keys.trans AList.lookup_isSome.symm

@[simp] theorem location?_registerUser (m : UserManager) (u v : Bytes) (i : Int) :
    (m.registerUser u i).location? v = if v = u then some i else m.location? v :=
  Table.lookup_insert ..

@[simp] theorem location?_unregisterUser (m : UserManager) (u v : Bytes) :
    (m.unregisterUser u).location? v = if v = u then none else m.location? v :=
  Table.lookup_erase ..

theorem location?_clearServerUsers (m : UserManager) (i : Int) (v : Bytes) :
    (m.clearServerUsers i).location? v = (m.location? v).filter (· != i) :=
  Table.lookup_filter ..

theorem location?_clearServerUsers_eq_some {m : UserManager} {i j : Int} {v : Bytes} :
    (m.clearServerUsers i).location? v = some j ↔ m.location? v = some j ∧ j ≠ i := by
  rw [location?_clearServerUsers, Option.filter_eq_some_iff, bne_iff_ne]

end UserManager

/-! ## `ChatRoomManager` -/

/-- `struct ChatRoom`: local user names and ids of remote servers with members. -/
structure ChatRoom where
  localMembers : ListSet Bytes := ∅
  remoteServers : ListSet Int := ∅

/-- `ChatRoomManager`. -/
structure ChatRoomManager where
  rooms : Table Bytes ChatRoom := ∅

namespace ChatRoomManager

/-- The room, empty if the map has no entry for it. -/
def room (m : ChatRoomManager) (r : Bytes) : ChatRoom := (m.rooms.lookup r).getD {}

def joinRoomLocal (m : ChatRoomManager) (r username : Bytes) : ChatRoomManager :=
  ⟨m.rooms.insert r { m.room r with localMembers := (m.room r).localMembers.insert username }⟩

def leaveRoomLocal (m : ChatRoomManager) (r username : Bytes) : ChatRoomManager :=
  match m.rooms.lookup r with
  | none => m
  | some c => ⟨m.rooms.insert r { c with localMembers := c.localMembers.erase username }⟩

def joinRoomRemote (m : ChatRoomManager) (r : Bytes) (serverId : Int) : ChatRoomManager :=
  ⟨m.rooms.insert r { m.room r with remoteServers := (m.room r).remoteServers.insert serverId }⟩

def leaveRoomRemote (m : ChatRoomManager) (r : Bytes) (serverId : Int) : ChatRoomManager :=
  match m.rooms.lookup r with
  | none => m
  | some c => ⟨m.rooms.insert r { c with remoteServers := c.remoteServers.erase serverId }⟩

def getLocalMembers (m : ChatRoomManager) (r : Bytes) : List Bytes := (m.room r).localMembers.elems

def getRemoteServers (m : ChatRoomManager) (r : Bytes) : List Int := (m.room r).remoteServers.elems

def clearServerMemberships (m : ChatRoomManager) (serverId : Int) : ChatRoomManager :=
  ⟨m.rooms.mapVal fun c => { c with remoteServers := c.remoteServers.erase serverId }⟩

theorem nodup_getLocalMembers (m : ChatRoomManager) (r : Bytes) : (m.getLocalMembers r).Nodup :=
  (m.room r).localMembers.nodup

theorem nodup_getRemoteServers (m : ChatRoomManager) (r : Bytes) : (m.getRemoteServers r).Nodup :=
  (m.room r).remoteServers.nodup

theorem room_joinRoomLocal (m : ChatRoomManager) (r r' u : Bytes) :
    (m.joinRoomLocal r u).room r' =
      if r' = r then { m.room r with localMembers := (m.room r).localMembers.insert u }
      else m.room r' := by
  simp only [room, joinRoomLocal, Table.lookup_insert]
  split <;> rfl

theorem room_joinRoomRemote (m : ChatRoomManager) (r r' : Bytes) (i : Int) :
    (m.joinRoomRemote r i).room r' =
      if r' = r then { m.room r with remoteServers := (m.room r).remoteServers.insert i }
      else m.room r' := by
  simp only [room, joinRoomRemote, Table.lookup_insert]
  split <;> rfl

theorem room_leaveRoomLocal (m : ChatRoomManager) (r r' u : Bytes) :
    (m.leaveRoomLocal r u).room r' =
      if r' = r then { m.room r with localMembers := (m.room r).localMembers.erase u }
      else m.room r' := by
  cases h : m.rooms.lookup r with
  | none =>
      simp only [leaveRoomLocal, h]
      split
      next hr =>
        subst hr
        simp only [room, h]
        rfl
      next hr => rfl
  | some c =>
      simp only [leaveRoomLocal, room, h, Table.lookup_insert]
      split <;> rfl

theorem room_leaveRoomRemote (m : ChatRoomManager) (r r' : Bytes) (i : Int) :
    (m.leaveRoomRemote r i).room r' =
      if r' = r then { m.room r with remoteServers := (m.room r).remoteServers.erase i }
      else m.room r' := by
  cases h : m.rooms.lookup r with
  | none =>
      simp only [leaveRoomRemote, h]
      split
      next hr =>
        subst hr
        simp only [room, h]
        rfl
      next hr => rfl
  | some c =>
      simp only [leaveRoomRemote, room, h, Table.lookup_insert]
      split <;> rfl

theorem room_clearServerMemberships (m : ChatRoomManager) (i : Int) (r : Bytes) :
    (m.clearServerMemberships i).room r =
      { m.room r with remoteServers := (m.room r).remoteServers.erase i } := by
  simp only [room, clearServerMemberships, Table.lookup_mapVal]
  cases m.rooms.lookup r <;> rfl

/-! ### What each operation does to the two member sets -/

section

variable (m : ChatRoomManager) (r r' u v : Bytes) (i j : Int)

@[simp] theorem mem_getLocalMembers_joinRoomLocal :
    v ∈ (m.joinRoomLocal r u).getLocalMembers r' ↔
      (r' = r ∧ v = u) ∨ v ∈ m.getLocalMembers r' := by
  simp only [getLocalMembers, room_joinRoomLocal]
  split
  next h =>
    subst h
    simp [← ListSet.mem_def]
  next h => simp [h]

@[simp] theorem mem_getLocalMembers_leaveRoomLocal :
    v ∈ (m.leaveRoomLocal r u).getLocalMembers r' ↔
      ¬ (r' = r ∧ v = u) ∧ v ∈ m.getLocalMembers r' := by
  simp only [getLocalMembers, room_leaveRoomLocal]
  split
  next h =>
    subst h
    simp [← ListSet.mem_def]
  next h => simp [h]

@[simp] theorem getLocalMembers_joinRoomRemote :
    (m.joinRoomRemote r i).getLocalMembers r' = m.getLocalMembers r' := by
  simp only [getLocalMembers, room_joinRoomRemote]
  split
  next h => rw [h]
  next => rfl

@[simp] theorem getLocalMembers_leaveRoomRemote :
    (m.leaveRoomRemote r i).getLocalMembers r' = m.getLocalMembers r' := by
  simp only [getLocalMembers, room_leaveRoomRemote]
  split
  next h => rw [h]
  next => rfl

@[simp] theorem getLocalMembers_clearServerMemberships :
    (m.clearServerMemberships i).getLocalMembers r' = m.getLocalMembers r' := by
  simp only [getLocalMembers, room_clearServerMemberships]

@[simp] theorem getRemoteServers_joinRoomLocal :
    (m.joinRoomLocal r u).getRemoteServers r' = m.getRemoteServers r' := by
  simp only [getRemoteServers, room_joinRoomLocal]
  split
  next h => rw [h]
  next => rfl

@[simp] theorem getRemoteServers_leaveRoomLocal :
    (m.leaveRoomLocal r u).getRemoteServers r' = m.getRemoteServers r' := by
  simp only [getRemoteServers, room_leaveRoomLocal]
  split
  next h => rw [h]
  next => rfl

@[simp] theorem mem_getRemoteServers_joinRoomRemote :
    j ∈ (m.joinRoomRemote r i).getRemoteServers r' ↔
      (r' = r ∧ j = i) ∨ j ∈ m.getRemoteServers r' := by
  simp only [getRemoteServers, room_joinRoomRemote]
  split
  next h =>
    subst h
    simp [← ListSet.mem_def]
  next h => simp [h]

@[simp] theorem mem_getRemoteServers_leaveRoomRemote :
    j ∈ (m.leaveRoomRemote r i).getRemoteServers r' ↔
      ¬ (r' = r ∧ j = i) ∧ j ∈ m.getRemoteServers r' := by
  simp only [getRemoteServers, room_leaveRoomRemote]
  split
  next h =>
    subst h
    simp [← ListSet.mem_def]
  next h => simp [h]

@[simp] theorem mem_getRemoteServers_clearServerMemberships :
    j ∈ (m.clearServerMemberships i).getRemoteServers r' ↔
      j ≠ i ∧ j ∈ m.getRemoteServers r' := by
  simp only [getRemoteServers, room_clearServerMemberships, ← ListSet.mem_def, ListSet.mem_erase]

end

end ChatRoomManager

/-! ## `ConnectionManager` -/

/-- `ConnectionManager`, with the objects its maps point to. -/
structure ConnectionManager where
  sockets : ConnRef → TcpSocket := fun _ => {}
  sessions : ConnRef → ClientSession := fun _ => {}
  nodes : Int → ServerNode := fun _ => {}
  /-- The name of the next socket object. -/
  nextConn : ConnRef := 0
  sessionsBySocket : Table SOCKET ConnRef := ∅
  sessionsByUsername : Table Bytes ConnRef := ∅
  peerNodes : ListSet Int := ∅
  peerNodesBySocket : Table SOCKET Int := ∅

namespace ConnectionManager

/-! ### Objects -/

/-- A new socket object on an open handle. -/
def newSocket (m : ConnectionManager) (handle : SOCKET) : ConnectionManager :=
  { m with
    sockets := Function.update m.sockets m.nextConn { handle := handle }
    sessions := Function.update m.sessions m.nextConn {}
    nextConn := m.nextConn + 1 }

def getHandle (m : ConnectionManager) (k : ConnRef) : SOCKET := (m.sockets k).handle

/-- `TcpSocket::Close`. -/
def closeSocket (m : ConnectionManager) (k : ConnRef) : ConnectionManager :=
  { m with sockets := Function.update m.sockets k { m.sockets k with handle := invalidSocket } }

/-- A send loop on the socket completes. -/
def canSend (m : ConnectionManager) (k : ConnRef) : Bool :=
  m.getHandle k != invalidSocket && !(m.sockets k).broken

def joinRoom (m : ConnectionManager) (k : ConnRef) (r : Bytes) : ConnectionManager :=
  { m with
    sessions := Function.update m.sessions k
      { m.sessions k with joinedRooms := (m.sessions k).joinedRooms.insert r } }

def leaveRoom (m : ConnectionManager) (k : ConnRef) (r : Bytes) : ConnectionManager :=
  { m with
    sessions := Function.update m.sessions k
      { m.sessions k with joinedRooms := (m.sessions k).joinedRooms.erase r } }

def isInRoom (m : ConnectionManager) (k : ConnRef) (r : Bytes) : Bool :=
  decide (r ∈ (m.sessions k).joinedRooms)

/-- `ServerNode::SetConnected`. -/
def setConnected (m : ConnectionManager) (p : Int) (connected : Bool) : ConnectionManager :=
  { m with nodes := Function.update m.nodes p { m.nodes p with isConnected := connected } }

/-- `ServerNode::UpdateHeartbeat`. -/
def updateHeartbeat (m : ConnectionManager) (p : Int) (now : Nat) : ConnectionManager :=
  { m with nodes := Function.update m.nodes p { m.nodes p with lastHeartbeatTime := now } }

/-! ### Client sessions -/

def addSession (m : ConnectionManager) (k : ConnRef) : ConnectionManager :=
  { m with sessionsBySocket := m.sessionsBySocket.insert (m.getHandle k) k }

def authenticateSession (m : ConnectionManager) (k : ConnRef) (username : Bytes) :
    ConnectionManager :=
  { m with
    sessions := Function.update m.sessions k
      { m.sessions k with username := username, isAuthenticated := true }
    sessionsByUsername := m.sessionsByUsername.insert username k }

def removeSession (m : ConnectionManager) (socket : SOCKET) : ConnectionManager :=
  match m.sessionsBySocket.lookup socket with
  | none => m
  | some k =>
      { m with
        sessionsByUsername :=
          if (m.sessions k).username = [] then m.sessionsByUsername
          else m.sessionsByUsername.erase (m.sessions k).username
        sessionsBySocket := m.sessionsBySocket.erase socket }

def getSessionByUsername (m : ConnectionManager) (username : Bytes) : Option ConnRef :=
  m.sessionsByUsername.lookup username

def getAllSessions (m : ConnectionManager) : List ConnRef := m.sessionsBySocket.values

/-- The session is in `m_sessionsBySocket`. -/
def isLive (m : ConnectionManager) (k : ConnRef) : Bool := decide (k ∈ m.getAllSessions)

/-! ### Peer server nodes -/

def addPeerNode (m : ConnectionManager) (p : Int) : ConnectionManager :=
  { m with
    peerNodes := m.peerNodes.insert p
    nodes := Function.update m.nodes p {} }

def registerPeerSocket (m : ConnectionManager) (p : Int) (k : ConnRef) (now : Nat) :
    ConnectionManager :=
  if p ∈ m.peerNodes then
    { m with
      nodes := Function.update m.nodes p ((m.nodes p).setSocket (some k) now)
      peerNodesBySocket := m.peerNodesBySocket.insert (m.getHandle k) p }
  else m

def unregisterPeerSocket (m : ConnectionManager) (p : Int) (now : Nat) : ConnectionManager :=
  if p ∈ m.peerNodes then
    { m with
      nodes := Function.update m.nodes p ((m.nodes p).setSocket none now)
      peerNodesBySocket :=
        match (m.nodes p).socket with
        | none => m.peerNodesBySocket
        | some k => m.peerNodesBySocket.erase (m.getHandle k) }
  else m

/-- `GetPeerNode(p) != nullptr`. -/
def hasPeerNode (m : ConnectionManager) (p : Int) : Bool := decide (p ∈ m.peerNodes)

def getAllPeerNodes (m : ConnectionManager) : List Int := m.peerNodes.elems

/-- `IsConnected() && GetSocket()`: the socket the server uses for a peer. -/
def linkSocket (m : ConnectionManager) (p : Int) : Option ConnRef :=
  if (m.nodes p).isConnected = true then (m.nodes p).socket else none

/-- The peer that is connected over the socket. -/
def peerOn (m : ConnectionManager) (k : ConnRef) : Option Int :=
  m.getAllPeerNodes.find? fun p => m.linkSocket p == some k

/-! ### What the sections do to the objects -/

section

variable (m : ConnectionManager) (k j : ConnRef) (p q : Int) (u r : Bytes) (h : SOCKET) (now : Nat)

@[simp] theorem sessions_newSocket :
    (m.newSocket h).sessions j = if j = m.nextConn then {} else m.sessions j :=
  Function.update_apply ..

@[simp] theorem sockets_newSocket :
    (m.newSocket h).sockets j = if j = m.nextConn then { handle := h } else m.sockets j :=
  Function.update_apply ..

@[simp] theorem sockets_closeSocket :
    (m.closeSocket k).sockets j =
      if j = k then { m.sockets k with handle := invalidSocket } else m.sockets j :=
  Function.update_apply ..

@[simp] theorem sessions_joinRoom :
    (m.joinRoom k r).sessions j =
      if j = k then { m.sessions k with joinedRooms := (m.sessions k).joinedRooms.insert r }
      else m.sessions j :=
  Function.update_apply ..

@[simp] theorem sessions_leaveRoom :
    (m.leaveRoom k r).sessions j =
      if j = k then { m.sessions k with joinedRooms := (m.sessions k).joinedRooms.erase r }
      else m.sessions j :=
  Function.update_apply ..

@[simp] theorem sessions_authenticateSession :
    (m.authenticateSession k u).sessions j =
      if j = k then { m.sessions k with username := u, isAuthenticated := true }
      else m.sessions j :=
  Function.update_apply ..

@[simp] theorem getSessionByUsername_authenticateSession (v : Bytes) :
    (m.authenticateSession k u).getSessionByUsername v =
      if v = u then some k else m.getSessionByUsername v :=
  Table.lookup_insert ..

@[simp] theorem sessions_removeSession : (m.removeSession h).sessions = m.sessions := by
  rw [removeSession]
  cases m.sessionsBySocket.lookup h <;> rfl

@[simp] theorem sockets_removeSession : (m.removeSession h).sockets = m.sockets := by
  rw [removeSession]
  cases m.sessionsBySocket.lookup h <;> rfl

@[simp] theorem nodes_removeSession : (m.removeSession h).nodes = m.nodes := by
  rw [removeSession]
  cases m.sessionsBySocket.lookup h <;> rfl

@[simp] theorem nextConn_removeSession : (m.removeSession h).nextConn = m.nextConn := by
  rw [removeSession]
  cases m.sessionsBySocket.lookup h <;> rfl

@[simp] theorem peerNodes_removeSession : (m.removeSession h).peerNodes = m.peerNodes := by
  rw [removeSession]
  cases m.sessionsBySocket.lookup h <;> rfl

@[simp] theorem nodes_setConnected (c : Bool) :
    (m.setConnected p c).nodes q =
      if q = p then { m.nodes p with isConnected := c } else m.nodes q :=
  Function.update_apply ..

@[simp] theorem nodes_updateHeartbeat :
    (m.updateHeartbeat p now).nodes q =
      if q = p then { m.nodes p with lastHeartbeatTime := now } else m.nodes q :=
  Function.update_apply ..

theorem isConnected_updateHeartbeat :
    ((m.updateHeartbeat p now).nodes q).isConnected = (m.nodes q).isConnected := by
  rw [nodes_updateHeartbeat]
  split
  next h => rw [h]
  next => rfl

theorem isConnected_removeSession :
    ((m.removeSession h).nodes q).isConnected = (m.nodes q).isConnected := by
  rw [nodes_removeSession]

theorem nodes_registerPeerSocket :
    (m.registerPeerSocket p k now).nodes q =
      if p ∈ m.peerNodes ∧ q = p then (m.nodes p).setSocket (some k) now else m.nodes q := by
  rw [registerPeerSocket]
  split
  next hp =>
    simp only [hp, true_and]
    exact Function.update_apply ..
  next hp => simp only [hp, false_and, if_false]

theorem nodes_unregisterPeerSocket :
    (m.unregisterPeerSocket p now).nodes q =
      if p ∈ m.peerNodes ∧ q = p then (m.nodes p).setSocket none now else m.nodes q := by
  rw [unregisterPeerSocket]
  split
  next hp =>
    simp only [hp, true_and]
    exact Function.update_apply ..
  next hp => simp only [hp, false_and, if_false]

@[simp] theorem peerNodes_registerPeerSocket :
    (m.registerPeerSocket p k now).peerNodes = m.peerNodes := by
  rw [registerPeerSocket]
  split <;> rfl

@[simp] theorem sessions_registerPeerSocket :
    (m.registerPeerSocket p k now).sessions = m.sessions := by
  rw [registerPeerSocket]
  split <;> rfl

@[simp] theorem sockets_registerPeerSocket :
    (m.registerPeerSocket p k now).sockets = m.sockets := by
  rw [registerPeerSocket]
  split <;> rfl

@[simp] theorem sockets_unregisterPeerSocket :
    (m.unregisterPeerSocket p now).sockets = m.sockets := by
  rw [unregisterPeerSocket]
  split <;> rfl

@[simp] theorem sessionsBySocket_registerPeerSocket :
    (m.registerPeerSocket p k now).sessionsBySocket = m.sessionsBySocket := by
  rw [registerPeerSocket]
  split <;> rfl

@[simp] theorem nextConn_registerPeerSocket :
    (m.registerPeerSocket p k now).nextConn = m.nextConn := by
  rw [registerPeerSocket]
  split <;> rfl

@[simp] theorem sessions_unregisterPeerSocket :
    (m.unregisterPeerSocket p now).sessions = m.sessions := by
  rw [unregisterPeerSocket]
  split <;> rfl

@[simp] theorem sessionsBySocket_unregisterPeerSocket :
    (m.unregisterPeerSocket p now).sessionsBySocket = m.sessionsBySocket := by
  rw [unregisterPeerSocket]
  split <;> rfl

@[simp] theorem nextConn_unregisterPeerSocket :
    (m.unregisterPeerSocket p now).nextConn = m.nextConn := by
  rw [unregisterPeerSocket]
  split <;> rfl

@[simp] theorem peerNodes_unregisterPeerSocket :
    (m.unregisterPeerSocket p now).peerNodes = m.peerNodes := by
  rw [unregisterPeerSocket]
  split <;> rfl

end

end ConnectionManager

end DistributedChat
