import DistributedChat.Client.ChatClient

/-!
# The command line of the client

`main` trims a line of input and reads a command off it.  A line without a slash
is broadcast.  Otherwise the command is what stands before the first space, and its
arguments are the trimmed rest.

`/join`, `/leave` and `/create` take the whole of the arguments as the name of a
room.  `/roommsg` takes what stands before their first space.  So a room whose name
has a space can be joined, and no line sends a message to it that names it in front
of the text (`roommsg_names_room_iff`).
-/

namespace DistributedChat

/-! ## The client's methods -/

/-- The client as `main` uses it. -/
structure ChatClient where
  /-- `m_connected`. -/
  connected : Bool := false
  /-- The packets handed to `SendAll`, oldest first. -/
  sent : List RawPacket := []
deriving DecidableEq, Repr

namespace ChatClient

/-- A method that serializes a packet and sends it. -/
def send (client : ChatClient) (pkt : RawPacket) : ChatClient :=
  if client.connected then { client with sent := client.sent ++ [pkt] } else client

/-- `ChatClient::Login`, when the send goes through. -/
def login (client : ChatClient) (username : Bytes) : ChatClient :=
  client.send ⟨.login, username⟩

/-- `ChatClient::SendPrivateMessage`. -/
def sendPrivateMessage (client : ChatClient) (receiver text : Bytes) : ChatClient :=
  client.send ⟨.msgPrivate, pack [receiver, text]⟩

/-- `ChatClient::SendRoomMessage`. -/
def sendRoomMessage (client : ChatClient) (room text : Bytes) : ChatClient :=
  client.send ⟨.msgRoom, pack [room, text]⟩

/-- `ChatClient::SendBroadcastMessage`. -/
def sendBroadcastMessage (client : ChatClient) (text : Bytes) : ChatClient :=
  client.send ⟨.msgBroadcast, text⟩

/-- `ChatClient::JoinRoom`. -/
def joinRoom (client : ChatClient) (room : Bytes) : ChatClient := client.send ⟨.roomJoin, room⟩

/-- `ChatClient::LeaveRoom`. -/
def leaveRoom (client : ChatClient) (room : Bytes) : ChatClient := client.send ⟨.roomLeave, room⟩

/-- `ChatClient::CreateRoom`. -/
def createRoom (client : ChatClient) (room : Bytes) : ChatClient := client.send ⟨.roomCreate, room⟩

/-- `ChatClient::Logout`, which is `Disconnect`. -/
def logout (client : ChatClient) : ChatClient := { client with connected := false }

end ChatClient

/-! ## One line of input -/

/-- `str.find(' ')`. -/
def findSpace (str : Bytes) : Option Nat := str.findIdx? (· == 32)

/-- `str.substr(0, pos)`, where no position stands for `npos`. -/
def substrTo (str : Bytes) : Option Nat → Bytes
  | some pos => str.take pos
  | none => str

/-- The part of the string behind the position, nothing behind `npos`. -/
def substrBehind (str : Bytes) : Option Nat → Bytes
  | some pos => str.drop (pos + 1)
  | none => []

/-- What a line of input does. -/
structure Handled where
  /-- The client afterwards. -/
  client : ChatClient
  /-- What is printed. -/
  printed : Bytes := []
  /-- The command loop is left. -/
  leaves : Bool := false

/-- A line in colour. -/
def printLine (code : String) (text : Bytes) : Bytes :=
  ChatClient.colour code ++ text ++ ChatClient.colour "0" ++ ascii "\n"

/-- `PrintHelp`. -/
def printHelp : Bytes :=
  printLine "93" (ascii ("Available Commands:\n" ++
    "  /msg <username> <text>      - Send a private message to any user in the cluster\n" ++
    "  /create <room>              - Register a new chat room\n" ++
    "  /join <room>                - Join a chat room\n" ++
    "  /roommsg <room> <text>      - Send a message to all users in a chat room\n" ++
    "  /leave <room>               - Exit a chat room\n" ++
    "  /broadcast <text>           - Broadcast a global message to all servers\n" ++
    "  /help                       - Show this guide\n" ++
    "  /logout                     - Disconnect from the server\n" ++
    "  /exit                       - Close the application\n"))

/-- A command that takes its arguments whole. -/
def wholeArgs (client : ChatClient) (usage : String) (call : ChatClient → Bytes → ChatClient)
    (args : Bytes) : Handled :=
  if args = [] then { client, printed := printLine "91" (ascii usage) }
  else { client := call client args }

/-- A command that cuts its arguments at their first space. -/
def cutArgs (client : ChatClient) (usage : String)
    (call : ChatClient → Bytes → Bytes → ChatClient) (args : Bytes) : Handled :=
  let argSpace := findSpace args
  if argSpace = none ∨ substrTo args argSpace = [] then
    { client, printed := printLine "91" (ascii usage) }
  else { client := call client (substrTo args argSpace) (substrBehind args argSpace) }

/-- The chain of commands. -/
def runCommand (client : ChatClient) (cmd args : Bytes) : Handled :=
  if cmd = ascii "/exit" then { client, leaves := true }
  else if cmd = ascii "/logout" then
    { client := client.logout, printed := printLine "93" (ascii "Logged out successfully."),
      leaves := true }
  else if cmd = ascii "/help" then { client, printed := printHelp }
  else if cmd = ascii "/msg" then
    cutArgs client "Usage: /msg <username> <text>" .sendPrivateMessage args
  else if cmd = ascii "/create" then wholeArgs client "Usage: /create <room>" .createRoom args
  else if cmd = ascii "/join" then wholeArgs client "Usage: /join <room>" .joinRoom args
  else if cmd = ascii "/leave" then wholeArgs client "Usage: /leave <room>" .leaveRoom args
  else if cmd = ascii "/roommsg" then
    cutArgs client "Usage: /roommsg <room> <text>" .sendRoomMessage args
  else if cmd = ascii "/broadcast" then
    wholeArgs client "Usage: /broadcast <text>" .sendBroadcastMessage args
  else
    { client, printed := printLine "91"
        (ascii "Unknown command: " ++ cmd ++ ascii ". Type /help to see guidelines.") }

/-- The body of the command loop, behind the trimming of the line. -/
def handleInput (client : ChatClient) (input : Bytes) : Handled :=
  if input = [] then { client }
  else if input.head? = some 47 then
    let spacePos := findSpace input
    runCommand client (substrTo input spacePos) (trim (substrBehind input spacePos))
  else { client := client.sendBroadcastMessage input }

/-! ## Cutting at a space -/

@[simp] theorem findSpace_append {a : Bytes} (ha : 32 ∉ a) (b : Bytes) :
    findSpace (a ++ 32 :: b) = some a.length := by
  induction a with
  | nil => rfl
  | cons c cs ih =>
      have hc : c ≠ 32 := fun h => ha (h ▸ List.mem_cons_self ..)
      have hcs : 32 ∉ cs := fun h => ha (List.mem_cons_of_mem _ h)
      rw [findSpace] at ih ⊢
      rw [List.cons_append, List.findIdx?_cons, ih hcs]
      simp [hc]

@[simp] theorem substrTo_append (a b : Bytes) : substrTo (a ++ b) (some a.length) = a :=
  List.take_left

@[simp] theorem substrBehind_append (a : Bytes) (c : UInt8) (b : Bytes) :
    substrBehind (a ++ c :: b) (some a.length) = b := by
  show (a ++ c :: b).drop (a.length + 1) = b
  rw [List.drop_append]
  simp

/-- A command that cuts its arguments gets what stands before their first space. -/
theorem cutArgs_append (client : ChatClient) (usage : String)
    (call : ChatClient → Bytes → Bytes → ChatClient) {a : Bytes} (ha : 32 ∉ a) (hne : a ≠ [])
    (b : Bytes) : (cutArgs client usage call (a ++ 32 :: b)).client = call client a b := by
  simp [cutArgs, ha, hne]

/-- A trimmed line with a command and arguments behind a space. -/
theorem handleInput_command (client : ChatClient) {cmd args : Bytes} (hcmd : 32 ∉ cmd)
    (hslash : cmd.head? = some 47) (hargs : trim args = args) :
    handleInput client (cmd ++ 32 :: args) = runCommand client cmd args := by
  have hne : cmd ++ 32 :: args ≠ [] := by simp
  have hhead : (cmd ++ 32 :: args).head? = some 47 := by
    rw [List.head?_append, hslash]
    rfl
  simp [handleInput, hhead, hcmd, hargs]

/-! ## Joining a room and talking to it -/

/-- Handling the line sends the packet. -/
def Sends (client : ChatClient) (line : Bytes) (pkt : RawPacket) : Prop :=
  (handleInput client (trim line)).client.sent = client.sent ++ [pkt]

instance (client : ChatClient) (line : Bytes) (pkt : RawPacket) :
    Decidable (Sends client line pkt) :=
  inferInstanceAs (Decidable (_ = _))

theorem ChatClient.sent_send {client : ChatClient} (hup : client.connected = true)
    (pkt : RawPacket) : (client.send pkt).sent = client.sent ++ [pkt] := by
  rw [send, if_pos hup]

/-- A method that sends a packet sends this one or none. -/
theorem ChatClient.sent_send_eq {client : ChatClient} {pkt pkt' : RawPacket}
    (h : (client.send pkt).sent = client.sent ++ [pkt']) : pkt = pkt' := by
  rw [send] at h
  split at h
  · simpa using h
  · simp at h

theorem wholeArgs_sends {client : ChatClient} {usage : String} {type : PacketType} {args : Bytes}
    {pkt : RawPacket}
    (h : (wholeArgs client usage (fun c room => c.send ⟨type, room⟩) args).client.sent =
      client.sent ++ [pkt]) : pkt = ⟨type, args⟩ ∧ args ≠ [] := by
  rw [wholeArgs] at h
  split at h
  · simp at h
  · next hargs => exact ⟨(ChatClient.sent_send_eq h).symm, hargs⟩

theorem cutArgs_sends {client : ChatClient} {usage : String} {type : PacketType} {args : Bytes}
    {pkt : RawPacket}
    (h : (cutArgs client usage (fun c x y => c.send ⟨type, pack [x, y]⟩) args).client.sent =
      client.sent ++ [pkt]) : pkt.type = type := by
  rw [cutArgs] at h
  split at h
  · simp at h
  · rw [← ChatClient.sent_send_eq h]

/-- Only `/join` sends a request to join, and for its arguments. -/
theorem runCommand_joins {client : ChatClient} {cmd args r : Bytes}
    (h : (runCommand client cmd args).client.sent = client.sent ++ [⟨.roomJoin, r⟩]) :
    r = args ∧ args ≠ [] := by
  have hcut {usage : String} {type : PacketType} (htype : type ≠ .roomJoin)
      (hs : (cutArgs client usage (fun c x y => c.send ⟨type, pack [x, y]⟩) args).client.sent =
        client.sent ++ [⟨.roomJoin, r⟩]) : r = args ∧ args ≠ [] :=
    absurd (cutArgs_sends hs).symm htype
  have hwhole {usage : String} {type : PacketType}
      (hs : (wholeArgs client usage (fun c room => c.send ⟨type, room⟩) args).client.sent =
        client.sent ++ [⟨.roomJoin, r⟩]) : r = args ∧ args ≠ [] := by
    obtain ⟨heq, hne⟩ := wholeArgs_sends hs
    exact ⟨congrArg RawPacket.payload heq, hne⟩
  rw [runCommand] at h
  split_ifs at h
  · simp at h
  · simp [ChatClient.logout] at h
  · simp at h
  · exact hcut (by decide) h
  · exact hwhole h
  · exact hwhole h
  · exact hwhole h
  · exact hcut (by decide) h
  · exact hwhole h
  · simp at h

/-- A line of input makes the client ask to join the room. -/
def Joinable (r : Bytes) : Prop :=
  ∃ client line, 10 ∉ line ∧ Sends client line ⟨.roomJoin, r⟩

/-- The name of such a room is trimmed. -/
theorem Joinable.trimmed {r : Bytes} (h : Joinable r) : trim r = r ∧ r ≠ [] := by
  obtain ⟨client, line, -, h⟩ := h
  rw [Sends, handleInput] at h
  split_ifs at h
  · simp at h
  · obtain ⟨rfl, hne⟩ := runCommand_joins h
    exact ⟨trim_trim _, hne⟩
  · cases congrArg RawPacket.type (ChatClient.sent_send_eq h)

/-- The line `/roommsg r t`. -/
def roommsgLine (r t : Bytes) : Bytes := ascii "/roommsg" ++ 32 :: (r ++ 32 :: t)

/-- The arguments of the line cannot be trimmed, and so the line cannot. -/
theorem trim_roommsgLine {r t : Bytes} (hr : trim r = r) (hrne : r ≠ []) (ht : trim t = t)
    (htne : t ≠ []) :
    trim (r ++ 32 :: t) = r ++ 32 :: t ∧ trim (roommsgLine r t) = roommsgLine r t := by
  have hargs : (r ++ 32 :: t).rdropWhile isBlank = r ++ 32 :: t := by
    have h := rdropWhile_append_of_trimmed ht htne (r ++ [32])
    rwa [List.append_assoc] at h
  have hline : (roommsgLine r t).rdropWhile isBlank = roommsgLine r t := by
    have h := rdropWhile_append_of_trimmed ht htne (ascii "/roommsg" ++ 32 :: (r ++ [32]))
    rwa [List.append_assoc, List.cons_append, List.append_assoc] at h
  exact ⟨trim_eq_self_iff.mpr ⟨dropWhile_append_of_trimmed hr hrne _, hargs⟩,
    trim_eq_self_iff.mpr ⟨rfl, hline⟩⟩

/-- The line sends what stands before the first space of its arguments as the room. -/
theorem sent_roommsgLine {client : ChatClient} (hup : client.connected = true) {r t a b : Bytes}
    (hr : trim r = r) (hrne : r ≠ []) (ht : trim t = t) (htne : t ≠ []) (ha : 32 ∉ a)
    (hane : a ≠ []) (hcut : r ++ 32 :: t = a ++ 32 :: b) :
    (handleInput client (trim (roommsgLine r t))).client.sent =
      client.sent ++ [⟨.msgRoom, pack [a, b]⟩] := by
  obtain ⟨hargs, hline⟩ := trim_roommsgLine hr hrne ht htne
  rw [hline, roommsgLine, handleInput_command client (by decide) rfl hargs, hcut]
  show (cutArgs client _ .sendRoomMessage (a ++ 32 :: b)).client.sent = _
  rw [cutArgs_append client _ _ ha hane]
  exact ChatClient.sent_send hup _

/-- **Joining and talking.**  For every room that can be joined and every trimmed text, the
line `/roommsg r t` sends the text to the room if and only if the name has no space. -/
theorem roommsg_names_room_iff {client : ChatClient} (hup : client.connected = true)
    {r t : Bytes} (hr : Joinable r) (ht : trim t = t) (htne : t ≠ []) :
    Sends client (roommsgLine r t) ⟨.msgRoom, pack [r, t]⟩ ↔ 32 ∉ r := by
  obtain ⟨htrim, hrne⟩ := hr.trimmed
  constructor
  · intro hsends hspace
    -- the name is cut at its first space
    obtain ⟨a, b, rfl, ha⟩ := List.eq_append_cons_of_mem hspace
    have hane : a ≠ [] := by
      rintro rfl
      have hhead := List.head?_dropWhile_not isBlank ([] ++ 32 :: b)
      rw [(trim_eq_self_iff.mp htrim).1] at hhead
      exact absurd hhead (by simp [isBlank])
    have hsent := sent_roommsgLine hup htrim hrne ht htne ha hane
      (b := b ++ 32 :: t) (by simp)
    rw [Sends, hsent, List.append_cancel_left_eq] at hsends
    simp [pack, nul] at hsends
  · intro hspace
    exact sent_roommsgLine hup htrim hrne ht htne hspace hrne rfl

/-- A client that is connected and has sent nothing. -/
def freshClient : ChatClient := { connected := true }

theorem roommsg_names_room_iff_lobby :
    Sends freshClient (roommsgLine (ascii "lobby") (ascii "hi"))
      ⟨.msgRoom, pack [ascii "lobby", ascii "hi"]⟩ ↔ 32 ∉ ascii "lobby" :=
  roommsg_names_room_iff rfl ⟨freshClient, ascii "/join lobby", by decide, by decide⟩ (by decide)
    (by decide)

/-- A room whose name has a space can be joined, and the text goes to another one. -/
theorem roommsg_misses_room : ¬ ∀ (client : ChatClient) (r t : Bytes), client.connected = true →
    Joinable r → trim t = t → t ≠ [] → 10 ∉ t →
    Sends client (roommsgLine r t) ⟨.msgRoom, pack [r, t]⟩ := by
  intro h
  have hjoin : Joinable (ascii "my room") :=
    ⟨freshClient, ascii "/join my room", by decide, by decide⟩
  exact absurd (h freshClient _ (ascii "hi") rfl hjoin (by decide) (by decide) (by decide))
    (by decide)

end DistributedChat
