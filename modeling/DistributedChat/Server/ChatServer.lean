import DistributedChat.Logic.Prog
import DistributedChat.Server.Managers

/-!
# The chat server

One server: its state, what its threads send, and the functions of
`ChatServer.cpp`, `ReplicationManager.cpp` and `HeartbeatManager.cpp` as
programs of critical sections.

The outputs of a program are the calls of `SendPacket` on client sessions, made
whether or not the client's socket takes the frame, and the frames a peer socket
took completely.  A peer socket that does not take a frame leads to
`HandlePeerDisconnect`, as in the source.

`std::stoi` throws in two places.  The exception ends the pool task it is thrown
in and stays in a future nobody reads, so a program ends there.
-/

namespace DistributedChat

/-- What a server sends. -/
inductive Effect where
  /-- `SendPacket` on a client session. -/
  | toSession (k : ConnRef) (pkt : RawPacket)
  /-- A frame handed to the socket `sock` of peer `p`. -/
  | toPeer (p : Int) (sock : ConnRef) (pkt : RawPacket)
deriving DecidableEq, Repr

/-- `ChatServer`.  `now` is what `steady_clock::now()` returns, in seconds. -/
structure ChatServer where
  serverId : Int
  now : Nat := 0
  connManager : ConnectionManager := {}
  userManager : UserManager := {}
  roomManager : ChatRoomManager := {}

/-- What a thread of the server does. -/
abbrev ServerProg := Prog ChatServer Effect

namespace ChatServer

open Prog (observe update each)

/-- Apply a critical section of the connection manager. -/
def onConn (f : ConnectionManager → ConnectionManager) (s : ChatServer) : ChatServer :=
  { s with connManager := f s.connManager }

/-- Apply a critical section of the user manager. -/
def onUsers (f : UserManager → UserManager) (s : ChatServer) : ChatServer :=
  { s with userManager := f s.userManager }

/-- Apply a critical section of the room manager. -/
def onRooms (f : ChatRoomManager → ChatRoomManager) (s : ChatServer) : ChatServer :=
  { s with roomManager := f s.roomManager }

/-! ## Sending -/

/-- `ClientSession::SendPacket`. -/
def sendPacket (k : ConnRef) (type : PacketType) (payload : Bytes) : ServerProg Bool :=
  .act id (fun _ => [.toSession k ⟨type, payload⟩]) fun s => .ret (s.connManager.canSend k)

/-- The send loop on the socket of a peer: does the socket take the frame? -/
def sendFrame (p : Int) (sock : ConnRef) (type : PacketType) (payload : Bytes) : ServerProg Bool :=
  .act id (fun s => if s.connManager.canSend sock then [.toPeer p sock ⟨type, payload⟩] else [])
    fun s => .ret (s.connManager.canSend sock)

/-- The loop that sends the list of online users to every authenticated session,
except the one on the handle `skip`. -/
def notifyOnlineUsers (skip : Option SOCKET) : ServerProg Unit := do
  let sessions ← observe (·.connManager.getAllSessions)
  let onlineList ← observe fun s => pack s.userManager.getOnlineUsers
  each sessions fun k => do
    let authenticated ← observe fun s => (s.connManager.sessions k).isAuthenticated
    let handle ← observe (·.connManager.getHandle k)
    if authenticated = true ∧ skip ≠ some handle then
      let _ ← sendPacket k .statusUpdate (pack [ascii "STATUS", onlineList])

/-! ## Peer links -/

/-- `ChatServer::HandlePeerDisconnect`. -/
def handlePeerDisconnect (p : Int) : ServerProg Unit := do
  let peer ← observe (·.connManager.hasPeerNode p)
  let connected ← observe fun s => (s.connManager.nodes p).isConnected
  if peer = true ∧ connected = true then
    let socket ← observe fun s => (s.connManager.nodes p).socket
    match socket with
    | none => pure ()
    | some k => update (onConn (·.closeSocket k))
    update fun s => s.onConn (·.unregisterPeerSocket p s.now)
    update (onUsers (·.clearServerUsers p))
    update (onRooms (·.clearServerMemberships p))
    notifyOnlineUsers none

/-- Send a frame on the socket of a peer, if it has one, and disconnect the peer
if its socket does not take the frame. -/
def sendOrDisconnect (p : Int) (type : PacketType) (payload : Bytes) : ServerProg Unit := do
  let socket ← observe fun s => (s.connManager.nodes p).socket
  match socket with
  | none => pure ()
  | some k =>
      let sent ← sendFrame p k type payload
      if sent = true then pure () else handlePeerDisconnect p

/-- The body of the replication loops: a frame to a connected peer. -/
def sendToPeer (p : Int) (type : PacketType) (payload : Bytes) : ServerProg Unit := do
  let connected ← observe fun s => (s.connManager.nodes p).isConnected
  if connected = true then sendOrDisconnect p type payload

/-- `ReplicationManager::BroadcastS2S`. -/
def broadcastS2S (type : PacketType) (payload : Bytes) : ServerProg Unit := do
  let peers ← observe (·.connManager.getAllPeerNodes)
  each peers fun p => sendToPeer p type payload

/-- The flag of a replication packet. -/
def flag (online : Bool) : Bytes := if online then ascii "1" else ascii "0"

/-- The payload of `S2S_REPLICATE_USER` and of `S2S_ROOM_MEMBER_SYNC`. -/
def replicationPayload (key : Bytes) (serverId : Int) (online : Bool) : Bytes :=
  pack [key, toString serverId, flag online]

/-- `ReplicationManager::ReplicateUserLogin`. -/
def replicateUserLogin (username : Bytes) : ServerProg Unit := do
  let id ← observe serverId
  broadcastS2S .s2sReplicateUser (replicationPayload username id true)

/-- `ReplicationManager::ReplicateUserLogout`. -/
def replicateUserLogout (username : Bytes) : ServerProg Unit := do
  let id ← observe serverId
  broadcastS2S .s2sReplicateUser (replicationPayload username id false)

/-- `ReplicationManager::ReplicateRoomJoin`. -/
def replicateRoomJoin (room : Bytes) : ServerProg Unit := do
  let id ← observe serverId
  broadcastS2S .s2sRoomMemberSync (replicationPayload room id true)

/-- `ReplicationManager::ReplicateRoomLeave`. -/
def replicateRoomLeave (room : Bytes) : ServerProg Unit := do
  let id ← observe serverId
  broadcastS2S .s2sRoomMemberSync (replicationPayload room id false)

/-- `ReplicationManager::RoutePrivateMessage`. -/
def routePrivateMessage (sender receiver text : Bytes) (targetServerId : Int) : ServerProg Unit := do
  let peer ← observe (·.connManager.hasPeerNode targetServerId)
  if peer = true then
    sendToPeer targetServerId .s2sRouteMsg (pack [sender, receiver, text])

/-- `ReplicationManager::RouteRoomMessage`. -/
def routeRoomMessage (sender room text : Bytes) : ServerProg Unit := do
  let targetServers ← observe (·.roomManager.getRemoteServers room)
  each targetServers fun p => do
    let peer ← observe (·.connManager.hasPeerNode p)
    if peer = true then
      sendToPeer p .s2sRouteRoomMsg (pack [sender, room, text])

/-! ## Packets of clients -/

/-- `ChatServer::HandleLogin`. -/
def handleLogin (k : ConnRef) (payload : Bytes) : ServerProg Unit := do
  let username := trim payload
  if username = [] ∨ nul ∈ username ∨ 32 ∈ username then
    let _ ← sendPacket k .loginResp (pack [ascii "0", ascii "Invalid username"])
  else
    let online ← observe (·.userManager.isUserOnline username)
    if online = true then
      let _ ← sendPacket k .loginResp (pack [ascii "0", ascii "Username already online"])
    else
      update fun s => s.onUsers (·.registerUser username s.serverId)
      update (onConn (·.authenticateSession k username))
      let _ ← sendPacket k .loginResp (pack [ascii "1", ascii "Welcome to Distributed Chat!"])
      replicateUserLogin username
      notifyOnlineUsers none

/-- `ChatServer::HandlePrivateMsg`. -/
def handlePrivateMsg (k : ConnRef) (payload : Bytes) : ServerProg Unit :=
  match unpack payload with
  | receiver :: text :: _ => do
      let sender ← observe fun s => (s.connManager.sessions k).username
      let location ← observe (·.userManager.getUserLocation receiver)
      let id ← observe serverId
      if location = id then
        let targetSession ← observe (·.connManager.getSessionByUsername receiver)
        match targetSession with
        | none => pure ()
        | some t =>
            let _ ← sendPacket t .msgPrivate (pack [sender, text])
            let _ ← sendPacket k .statusUpdate
              (pack [ascii "SUCCESS", ascii "Message delivered to " ++ receiver])
      else if location > 0 then
        routePrivateMessage sender receiver text location
        let _ ← sendPacket k .statusUpdate
          (pack [ascii "SUCCESS", ascii "Message routed to remote server"])
      else
        let _ ← sendPacket k .statusUpdate (pack [ascii "ERROR", ascii "User offline"])
  | _ => pure ()

/-- Send a packet to the session of every local member of a room. -/
def sendToMembers (members : List Bytes) (type : PacketType) (payload : Bytes) : ServerProg Unit :=
  each members fun name => do
    let session ← observe (·.connManager.getSessionByUsername name)
    match session with
    | none => pure ()
    | some t =>
        let _ ← sendPacket t type payload

/-- `ChatServer::HandleRoomMsg`. -/
def handleRoomMsg (k : ConnRef) (payload : Bytes) : ServerProg Unit :=
  match unpack payload with
  | room :: text :: _ => do
      let sender ← observe fun s => (s.connManager.sessions k).username
      let joined ← observe (·.connManager.isInRoom k room)
      if joined = true then
        let locals ← observe (·.roomManager.getLocalMembers room)
        sendToMembers locals .msgRoom (pack [sender, room, text])
        routeRoomMessage sender room text
      else
        let _ ← sendPacket k .statusUpdate (pack [ascii "ERROR", ascii "Join room first"])
  | _ => pure ()

/-- The loop that sends a broadcast to every authenticated session. -/
def sendToAuthenticated (type : PacketType) (payload : Bytes) : ServerProg Unit := do
  let sessions ← observe (·.connManager.getAllSessions)
  each sessions fun t => do
    let authenticated ← observe fun s => (s.connManager.sessions t).isAuthenticated
    if authenticated = true then
      let _ ← sendPacket t type payload

/-- `ChatServer::HandleBroadcastMsg`. -/
def handleBroadcastMsg (k : ConnRef) (payload : Bytes) : ServerProg Unit := do
  let sender ← observe fun s => (s.connManager.sessions k).username
  sendToAuthenticated .msgBroadcast (pack [sender, payload])
  broadcastS2S .s2sRouteMsg (pack [sender, payload])

/-- `ChatServer::HandleRoomJoin`. -/
def handleRoomJoin (k : ConnRef) (payload : Bytes) : ServerProg Unit := do
  let room := trim payload
  let username ← observe fun s => (s.connManager.sessions k).username
  if room = [] then pure ()
  else
    update (onConn (·.joinRoom k room))
    let before ← observe (·.roomManager.getLocalMembers room)
    update (onRooms (·.joinRoomLocal room username))
    let _ ← sendPacket k .statusUpdate (pack [ascii "SUCCESS", ascii "Joined room " ++ room])
    let locals ← observe (·.roomManager.getLocalMembers room)
    sendToMembers locals .statusUpdate
      (pack [ascii "INFO", ascii "User " ++ username ++ ascii " entered " ++ room])
    if before = [] then replicateRoomJoin room

/-- `ChatServer::HandleRoomLeave`. -/
def handleRoomLeave (k : ConnRef) (payload : Bytes) : ServerProg Unit := do
  let room := trim payload
  let username ← observe fun s => (s.connManager.sessions k).username
  let joined ← observe (·.connManager.isInRoom k room)
  if room = [] ∨ joined = false then pure ()
  else
    update (onConn (·.leaveRoom k room))
    update (onRooms (·.leaveRoomLocal room username))
    let _ ← sendPacket k .statusUpdate (pack [ascii "SUCCESS", ascii "Left room " ++ room])
    let locals ← observe (·.roomManager.getLocalMembers room)
    sendToMembers locals .statusUpdate
      (pack [ascii "INFO", ascii "User " ++ username ++ ascii " left " ++ room])
    if locals = [] then replicateRoomLeave room

/-- `ChatServer::HandleRoomCreate`. -/
def handleRoomCreate (k : ConnRef) (payload : Bytes) : ServerProg Unit := do
  let room := trim payload
  if room = [] then pure ()
  else
    let _ ← sendPacket k .statusUpdate
      (pack [ascii "SUCCESS",
        ascii "Room " ++ room ++ ascii " created. Type /join " ++ room ++ ascii " to enter."])

/-- The `S2S_CONNECT` case of `HandleClientPacket`: the session becomes the link
of a peer. -/
def promote (k : ConnRef) (payload : Bytes) : ServerProg Unit :=
  match stoi payload with
  | none => pure ()
  | some peerId => do
      let handle ← observe (·.connManager.getHandle k)
      update (onConn (·.removeSession handle))
      update fun s => s.onConn (·.registerPeerSocket peerId k s.now)
      let peerNode ← observe (·.connManager.hasPeerNode peerId)
      if peerNode = true then
        update (onConn (·.setConnected peerId true))
        update fun s => s.onConn (·.updateHeartbeat peerId s.now)

/-- `ChatServer::HandleClientPacket`. -/
def handleClientPacket (k : ConnRef) (pkt : RawPacket) : ServerProg Unit := do
  let authenticated ← observe fun s => (s.connManager.sessions k).isAuthenticated
  if authenticated = false ∧ pkt.type ≠ .login ∧ pkt.type ≠ .s2sConnect then
    let _ ← sendPacket k .loginResp (pack [ascii "0", ascii "Authentication required"])
  else
    match pkt.type with
    | .login => handleLogin k pkt.payload
    | .msgPrivate => handlePrivateMsg k pkt.payload
    | .msgRoom => handleRoomMsg k pkt.payload
    | .msgBroadcast => handleBroadcastMsg k pkt.payload
    | .roomJoin => handleRoomJoin k pkt.payload
    | .roomLeave => handleRoomLeave k pkt.payload
    | .roomCreate => handleRoomCreate k pkt.payload
    | .s2sConnect => promote k pkt.payload
    | _ => pure ()

/-! ## Packets of peers -/

/-- `ChatServer::HandleS2SHeartbeat`. -/
def handleS2SHeartbeat (p : Int) : ServerProg Unit := do
  let id ← observe serverId
  let socket ← observe fun s => (s.connManager.nodes p).socket
  match socket with
  | none => pure ()
  | some k =>
      let _ ← sendFrame p k .s2sHeartbeatAck (toString id)

/-- `ChatServer::HandleS2SReplicateUser`. -/
def handleS2SReplicateUser (payload : Bytes) : ServerProg Unit :=
  match unpack payload with
  | username :: id :: online :: _ =>
      match stoi id with
      | none => pure ()
      | some locationId => do
          if online = ascii "1" then
            update (onUsers (·.registerUser username locationId))
          else
            update (onUsers (·.unregisterUser username))
          notifyOnlineUsers none
  | _ => pure ()

/-- `ChatServer::HandleS2SRouteMsg`: three fields are a private message, two are
a broadcast. -/
def handleS2SRouteMsg (payload : Bytes) : ServerProg Unit :=
  match unpack payload with
  | [sender, receiver, text] => do
      let session ← observe (·.connManager.getSessionByUsername receiver)
      match session with
      | none => pure ()
      | some t =>
          let _ ← sendPacket t .msgPrivate (pack [sender, text])
  | [sender, text] => sendToAuthenticated .msgBroadcast (pack [sender, text])
  | _ => pure ()

/-- `ChatServer::HandleS2SRouteRoomMsg`. -/
def handleS2SRouteRoomMsg (payload : Bytes) : ServerProg Unit :=
  match unpack payload with
  | sender :: room :: text :: _ => do
      let locals ← observe (·.roomManager.getLocalMembers room)
      sendToMembers locals .msgRoom (pack [sender, room, text])
  | _ => pure ()

/-- `ChatServer::HandleS2SRoomMemberSync`. -/
def handleS2SRoomMemberSync (payload : Bytes) : ServerProg Unit :=
  match unpack payload with
  | room :: id :: active :: _ =>
      match stoi id with
      | none => pure ()
      | some peerServerId =>
          if active = ascii "1" then
            update (onRooms (·.joinRoomRemote room peerServerId))
          else
            update (onRooms (·.leaveRoomRemote room peerServerId))
  | _ => pure ()

/-- `ChatServer::HandleServerPacket`. -/
def handleServerPacket (p : Int) (pkt : RawPacket) : ServerProg Unit := do
  update fun s => s.onConn (·.updateHeartbeat p s.now)
  match pkt.type with
  | .s2sHeartbeat => handleS2SHeartbeat p
  | .s2sHeartbeatAck => pure ()
  | .s2sReplicateUser => handleS2SReplicateUser pkt.payload
  | .s2sRouteMsg => handleS2SRouteMsg pkt.payload
  | .s2sRouteRoomMsg => handleS2SRouteRoomMsg pkt.payload
  | .s2sRoomMemberSync => handleS2SRoomMemberSync pkt.payload
  | _ => pure ()

/-! ## The loops of the other threads -/

/-- `ListenerLoop`, an accepted connection: a session on a new socket. -/
def acceptConnection (handle : SOCKET) : ServerProg Unit := do
  let k ← observe (·.connManager.nextConn)
  update (onConn (·.newSocket handle))
  update (onConn (·.addSession k))

/-- `ListenerLoop`, a session whose `ReadPacket` fails. -/
def clientDisconnect (k : ConnRef) : ServerProg Unit := do
  let handle ← observe (·.connManager.getHandle k)
  let username ← observe fun s => (s.connManager.sessions k).username
  if username ≠ [] then
    update (onUsers (·.unregisterUser username))
    replicateUserLogout username
    notifyOnlineUsers (some handle)
  update (onConn (·.removeSession handle))

/-- `ListenerLoop`, a packet read from a socket and the task it becomes. -/
def readPacket (k : ConnRef) (pkt : RawPacket) : ServerProg Unit := do
  let session ← observe (·.connManager.isLive k)
  let peer ← observe (·.connManager.peerOn k)
  if session = true then handleClientPacket k pkt
  else
    match peer with
    | none => pure ()
    | some p => handleServerPacket p pkt

/-- `ListenerLoop`, `ReadPacket` fails on a socket. -/
def readFailure (k : ConnRef) : ServerProg Unit := do
  let session ← observe (·.connManager.isLive k)
  let peer ← observe (·.connManager.peerOn k)
  if session = true then clientDisconnect k
  else
    match peer with
    | none => pure ()
    | some p => handlePeerDisconnect p

/-- `PeerConnectorLoop`, one peer: `Connect` succeeds on a new socket. -/
def connectPeer (p : Int) (handle : SOCKET) : ServerProg Unit := do
  let peer ← observe (·.connManager.hasPeerNode p)
  let connected ← observe fun s => (s.connManager.nodes p).isConnected
  if peer = true ∧ connected = false then
    let sock ← observe (·.connManager.nextConn)
    update (onConn (·.newSocket handle))
    update fun s => s.onConn (·.registerPeerSocket p sock s.now)
    update (onConn (·.setConnected p true))
    update fun s => s.onConn (·.updateHeartbeat p s.now)
    let id ← observe serverId
    let _ ← sendFrame p sock .s2sConnect (toString id)

/-- `HeartbeatLoop`, one round: a peer silent for 15 seconds is disconnected,
the others are sent a heartbeat. -/
def heartbeatRound : ServerProg Unit := do
  let peers ← observe (·.connManager.getAllPeerNodes)
  let now ← observe now
  each peers fun p => do
    let node ← observe fun s => s.connManager.nodes p
    if node.isConnected = true then
      if now - node.lastHeartbeatTime ≥ 15 then handlePeerDisconnect p
      else
        let id ← observe serverId
        sendOrDisconnect p .s2sHeartbeat (toString id)

end ChatServer

end DistributedChat
