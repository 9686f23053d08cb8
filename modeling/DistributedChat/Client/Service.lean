import DistributedChat.Logic.ChatService
import DistributedChat.Client.Presence
import DistributedChat.Cluster.Broadcast
import DistributedChat.Cluster.Rooms
import DistributedChat.Concurrency.Secrecy
import DistributedChat.Server.Membership

/-!
# What a server is to its clients

A server without peers that handles one packet after the other is a chat service
(`ChatService`), as long as no connection logs in twice and none ends in a room.  The
state is one of the service (`Provides`), and every connection is sent exactly the
packets that say what the service tells it, in this order (`serves_clients`).

The packets say what a client's packet asks for (`request`) and what a client is told
(`Tells`).  Only the order of the names in a list of users is left open.
-/

namespace DistributedChat

open ChatService (Act Request Line given forall₂_given)
open Threads (packetsTo)

/-- What a client's packet asks for. -/
def RawPacket.request (pkt : RawPacket) : Request Bytes Bytes Bytes :=
  match pkt.type with
  | .login =>
      let u := trim pkt.payload
      if u = [] ∨ nul ∈ u ∨ 32 ∈ u then .misname else .enter u
  | .msgPrivate =>
      match unpack pkt.payload with
      | u :: text :: _ => .whisper u text
      | _ => .nothing
  | .msgRoom =>
      match unpack pkt.payload with
      | r :: text :: _ => .say r text
      | _ => .nothing
  | .msgBroadcast => .shout pkt.payload
  | .roomJoin => if trim pkt.payload = [] then .nothing else .join (trim pkt.payload)
  | .roomLeave => if trim pkt.payload = [] then .nothing else .leave (trim pkt.payload)
  | .roomCreate => if trim pkt.payload = [] then .nothing else .create (trim pkt.payload)
  | _ => .nothing

/-- What a packet to a client says. -/
def RawPacket.Tells (pkt : RawPacket) : Line Bytes Bytes Bytes → Prop
  | .welcome => pkt = ⟨.loginResp, pack [ascii "1", ascii "Welcome to Distributed Chat!"]⟩
  | .badName => pkt = ⟨.loginResp, pack [ascii "0", ascii "Invalid username"]⟩
  | .nameTaken => pkt = ⟨.loginResp, pack [ascii "0", ascii "Username already online"]⟩
  | .nameFirst => pkt = ⟨.loginResp, pack [ascii "0", ascii "Authentication required"]⟩
  | .users names => ∃ us : List Bytes, us.Nodup ∧ (∀ u, u ∈ us ↔ u ∈ names) ∧
      pkt = ⟨.statusUpdate, pack [ascii "STATUS", pack us]⟩
  | .whispered u text => pkt = ⟨.msgPrivate, pack [u, text]⟩
  | .delivered u =>
      pkt = ⟨.statusUpdate, pack [ascii "SUCCESS", ascii "Message delivered to " ++ u]⟩
  | .offline => pkt = ⟨.statusUpdate, pack [ascii "ERROR", ascii "User offline"]⟩
  | .said u r text => pkt = ⟨.msgRoom, pack [u, r, text]⟩
  | .joinFirst => pkt = ⟨.statusUpdate, pack [ascii "ERROR", ascii "Join room first"]⟩
  | .shouted u text => pkt = ⟨.msgBroadcast, pack [u, text]⟩
  | .joined r => pkt = ⟨.statusUpdate, pack [ascii "SUCCESS", ascii "Joined room " ++ r]⟩
  | .entered u r =>
      pkt = ⟨.statusUpdate, pack [ascii "INFO", ascii "User " ++ u ++ ascii " entered " ++ r]⟩
  | .left r => pkt = ⟨.statusUpdate, pack [ascii "SUCCESS", ascii "Left room " ++ r]⟩
  | .departed u r =>
      pkt = ⟨.statusUpdate, pack [ascii "INFO", ascii "User " ++ u ++ ascii " left " ++ r]⟩
  | .created r => pkt = ⟨.statusUpdate, pack [ascii "SUCCESS",
      ascii "Room " ++ r ++ ascii " created. Type /join " ++ r ++ ascii " to enter."]⟩

namespace ChatServer

/-- What the server sends while it handles an action of a client. -/
def clientOut (s : ChatServer) : ClientAction → List Effect
  | .connect handle => ((acceptConnection handle).run s).out
  | .packet k pkt => ((readPacket k pkt).run s).out
  | .disconnect k => ((readFailure k).run s).out

/-- What the server sends in a run. -/
def transcript : ChatServer → List ClientAction → List Effect
  | _, [] => []
  | s, a :: as =>
      s.clientOut a ++
        match s.clientNext a with
        | none => []
        | some s' => transcript s' as

/-- What a client does, where the server numbers the next connection `n`. -/
def act (n : ConnRef) : ClientAction → Act ConnRef Bytes Bytes Bytes
  | .connect _ => .comes n
  | .packet k pkt => .asks k pkt.request
  | .disconnect k => .goes k

/-- The number of the connection that comes next. -/
def numbered (n : ConnRef) : ClientAction → ConnRef
  | .connect _ => n + 1
  | _ => n

/-- What the clients of a run do. -/
def acts : ConnRef → List ClientAction → List (Act ConnRef Bytes Bytes Bytes)
  | _, [] => []
  | n, a :: as => act n a :: acts (numbered n a) as

/-- The state of the server is the one of the service. -/
structure Provides (s : ChatServer) (v : ChatService ConnRef Bytes Bytes) : Prop where
  here : ∀ {k}, k ∈ v.here ↔ s.connManager.Live k
  name : ∀ {k u}, v.name k = some u ↔ s.Holds k u
  rooms : ∀ {k r}, r ∈ v.rooms k ↔
    s.connManager.Live k ∧ r ∈ (s.connManager.sessions k).joinedRooms

/-- What the server keeps while it serves its clients. -/
structure Serving (s : ChatServer) : Prop where
  inStep : s.InStep
  own : s.Own
  /-- `GetUserLocation` says `-1` of a user who is not online. -/
  id_ne : s.serverId ≠ -1

/-- The program does what the service does. -/
structure Answers (s : ChatServer) (v : ChatService ConnRef Bytes Bytes) (prog : ServerProg Unit)
    (act : Act ConnRef Bytes Bytes Bytes) : Prop where
  state : (prog.run s).state.Provides (v.next act)
  told : ∀ j, List.Forall₂ RawPacket.Tells (packetsTo j (prog.run s).out) (v.told j act)

/-! ## What is sent to one connection -/

section

variable {j k : ConnRef} {pkt : RawPacket}

@[simp] theorem packetsTo_nil (j : ConnRef) : packetsTo j [] = [] := rfl

@[simp] theorem packetsTo_append (j : ConnRef) (xs ys : List Effect) :
    packetsTo j (xs ++ ys) = packetsTo j xs ++ packetsTo j ys :=
  List.filterMap_append

/-- The same packet to some sessions. -/
theorem packetsTo_map {ks : List ConnRef} (h : ks.Nodup) (j : ConnRef) (pkt : RawPacket) :
    packetsTo j (ks.map fun k => .toSession k pkt) = given (j ∈ ks) pkt := by
  induction ks with
  | nil => rw [ChatService.given_of_not List.not_mem_nil]; rfl
  | cons k ks ih =>
      obtain ⟨hk, hks⟩ := List.nodup_cons.mp h
      have hcons : packetsTo j ((k :: ks).map fun k => .toSession k pkt) =
          (if k = j then [pkt] else []) ++ packetsTo j (ks.map fun k => .toSession k pkt) := by
        simp only [packetsTo, List.map_cons, List.filterMap_cons]
        split <;> simp_all
      rw [hcons, ih hks]
      by_cases hkj : k = j
      · subst hkj
        rw [if_pos rfl, ChatService.given_of_not hk, ChatService.given_of (List.mem_cons_self ..),
          List.append_nil]
      · have hiff : j ∈ k :: ks ↔ j ∈ ks := by
          rw [List.mem_cons, or_iff_right fun he => hkj he.symm]
        rw [if_neg hkj, List.nil_append, propext hiff]

theorem packetsTo_toSession (j k : ConnRef) (pkt : RawPacket) :
    packetsTo j [.toSession k pkt] = given (j = k) pkt := by
  have h := packetsTo_map (List.nodup_singleton k) j pkt
  rwa [List.map_singleton, propext List.mem_singleton] at h

end

/-! ## The tables -/

section

variable {s : ChatServer} {v : ChatService ConnRef Bytes Bytes} {j k : ConnRef} {u r : Bytes}

theorem Provides.known (h : s.Provides v) :
    v.Known k ↔ s.connManager.Live k ∧ s.Authenticated k := by
  rw [ChatService.Known, Option.ne_none_iff_exists']
  simp only [h.name]
  exact ⟨fun ⟨_, hk⟩ => ⟨hk.1, hk.2.1⟩, fun hk => ⟨_, hk.1, hk.2, rfl⟩⟩

theorem Provides.guest (h : s.Provides v)
    (ha : (s.connManager.sessions k).isAuthenticated = false) : v.name k = none := by
  by_contra hn
  rw [(h.known.mp hn).2] at ha
  cases ha

theorem Provides.nameOf (h : s.Provides v) (hk : s.connManager.Live k)
    (ha : (s.connManager.sessions k).isAuthenticated = true) : v.name k = some (s.nameOf k) :=
  h.name.mpr ⟨hk, ha, rfl⟩

theorem Provides.isInRoom (h : s.Provides v) (hk : s.connManager.Live k) :
    r ∈ v.rooms k ↔ s.connManager.isInRoom k r = true := by
  rw [h.rooms, and_iff_right hk, ConnectionManager.isInRoom, decide_eq_true_iff]

theorem Serving.isUserOnline (h : s.Serving) :
    s.userManager.isUserOnline u = true ↔ ∃ k, s.Holds k u := by
  rw [← h.inStep.names.located, UserManager.isUserOnline, Option.isSome_iff_exists]
  constructor
  · rintro ⟨i, hi⟩
    rw [hi, h.own.1 u i hi]
  · intro hi
    exact ⟨_, hi⟩

theorem Provides.online (h : s.Provides v) (hs : s.Serving) :
    u ∈ v.online ↔ s.userManager.isUserOnline u = true := by
  rw [hs.isUserOnline, ChatService.online, Set.mem_ofPred_eq]
  simp only [h.name]

/-- The list of users that is sent. -/
theorem tells_onlinePacket {names : Set Bytes}
    (h : ∀ u, s.userManager.isUserOnline u = true ↔ u ∈ names) :
    s.onlinePacket.Tells (.users names) :=
  ⟨s.userManager.getOnlineUsers, s.userManager.userLocations.keys_nodup,
    fun u => UserManager.mem_getOnlineUsers.trans (h u), rfl⟩

theorem Provides.mem_notified (h : s.Provides v) : j ∈ s.notified none ↔ v.Known j := by
  rw [ChatServer.mem_notified, h.known]
  simp

theorem nodup_notified (h : s.connManager.Ok) (skip : Option SOCKET) : (s.notified skip).Nodup := by
  refine h.nodup_getAllSessions.filterMap ?_
  intro a b k ha hb
  obtain ⟨-, ha⟩ := Option.ite_none_right_eq_some.mp ha
  obtain ⟨-, hb⟩ := Option.ite_none_right_eq_some.mp hb
  exact (Option.some.inj ha).trans (Option.some.inj hb).symm

/-- The sessions in a room are those filed under the names of its members. -/
theorem InStep.mem_audience (h : s.InStep) : j ∈ s.audience r ↔
    s.connManager.Live j ∧ r ∈ (s.connManager.sessions j).joinedRooms := by
  rw [audience, sessionsOf, List.mem_filterMap]
  constructor
  · rintro ⟨u, hu, hj⟩
    obtain ⟨k, hk, hr⟩ := (h.members u r).mp hu
    rw [hj] at hk
    cases hk
    exact ⟨(h.names.byName.mp hj).1, of_decide_eq_true hr⟩
  · rintro ⟨hj, hr⟩
    have ha : (s.connManager.sessions j).isAuthenticated = true := by
      by_contra hn
      rw [(h.ok.session_ok j).blank (Bool.eq_false_of_not_eq_true hn)] at hr
      exact ListSet.notMem_empty r hr
    have hname := h.names.byName.mpr (⟨hj, ha, rfl⟩ : s.Holds j (s.nameOf j))
    exact ⟨_, (h.members _ r).mpr ⟨j, hname, decide_eq_true hr⟩, hname⟩

theorem InStep.nodup_audience (h : s.InStep) (r : Bytes) : (s.audience r).Nodup := by
  refine (s.roomManager.nodup_getLocalMembers r).filterMap ?_
  intro u u' k hu hu'
  exact (h.names.byName.mp hu).name_unique (h.names.byName.mp hu')

end

/-! ## The answers -/

section

variable {s : ChatServer} {v : ChatService ConnRef Bytes Bytes} {k : ConnRef} {pkt : RawPacket}

/-- Without peers nothing is sent to one. -/
theorem run_broadcastS2S_of_alone (h : s.connManager.getAllPeerNodes = []) (t : PacketType)
    (pl : Bytes) : (broadcastS2S t pl).run s = ⟨(), s, []⟩ := by
  simp [broadcastS2S, h]

/-- A program that sends one packet back. -/
theorem Answers.reply {prog : ServerProg Unit} {act : Act ConnRef Bytes Bytes Bytes}
    (line : Line Bytes Bytes Bytes) (h : s.Provides v)
    (hrun : prog.run s = ⟨(), s, [.toSession k pkt]⟩)
    (hnext : v.next act = v) (htold : ∀ j, v.told j act = given (j = k) line)
    (hpkt : pkt.Tells line) : s.Answers v prog act where
  state := by rw [hrun, hnext]; exact h
  told j := by
    rw [hrun, htold, packetsTo_toSession]
    exact forall₂_given Iff.rfl fun _ => hpkt

theorem Provides.loggedIn {u : Bytes} (h : s.Provides v) (hk : s.connManager.Live k)
    (hi : k ∈ v.here) (hu : u ∉ v.online) : (s.loggedIn k u).Provides (v.enter k u hi hu) where
  here := h.here
  name {j w} := by rw [ChatService.name_enter, holds_loggedIn hk, h.name]
  rooms {j r} := by
    have hrooms : ((s.loggedIn k u).connManager.sessions j).joinedRooms =
        (s.connManager.sessions j).joinedRooms := by
      rw [ChatServer.loggedIn, onConn_connManager, onUsers_connManager,
        ConnectionManager.sessions_authenticateSession]
      split
      next he => rw [he]
      · rfl
    rw [hrooms]
    exact h.rooms

theorem Serving.loggedIn {payload u : Bytes} (hs : s.Serving) (hk : s.connManager.Live k)
    (ha : s.Accepts payload u) (hf : (s.connManager.sessions k).isAuthenticated = false) :
    (s.loggedIn k u).Serving :=
  ⟨hs.inStep.loggedIn hk ha hf, hs.own.loggedIn k u, hs.id_ne⟩

theorem run_handleLogin_of_accepts {payload u : Bytes} (h : s.connManager.getAllPeerNodes = [])
    (ha : s.Accepts payload u) : (handleLogin k payload).run s =
      ⟨(), s.loggedIn k u,
        .toSession k ⟨.loginResp, pack [ascii "1", ascii "Welcome to Distributed Chat!"]⟩ ::
          ((s.loggedIn k u).notified none).map fun j =>
            .toSession j (s.loggedIn k u).onlinePacket⟩ := by
  obtain ⟨rfl, hu, ho⟩ := ha
  have hb := run_broadcastS2S_of_alone (s := s.loggedIn k (trim payload)) h .s2sReplicateUser
    (replicationPayload (trim payload) s.serverId true)
  rw [ChatServer.loggedIn] at hb
  simp [handleLogin, hu, ho, replicateUserLogin, hb, ChatServer.loggedIn, -state_broadcastS2S]

theorem answers_handleLogin (hs : s.Serving) (h : s.Provides v) (hk : s.connManager.Live k)
    (ht : pkt.type = .login) (hf : s.FirstLogin (.packet k pkt)) :
    s.Answers v (handleLogin k pkt.payload) (.asks k pkt.request) := by
  by_cases hu : trim pkt.payload = [] ∨ nul ∈ trim pkt.payload ∨ 32 ∈ trim pkt.payload
  · have hq : pkt.request = .misname := by simp [RawPacket.request, ht, hu]
    have hrun : (handleLogin k pkt.payload).run s =
        ⟨(), s, [.toSession k ⟨.loginResp, pack [ascii "0", ascii "Invalid username"]⟩]⟩ := by
      simp [handleLogin, hu]
    rw [hq]
    exact .reply .badName h hrun rfl (fun _ => rfl) rfl
  have hq : pkt.request = .enter (trim pkt.payload) := by simp [RawPacket.request, ht, hu]
  rw [hq]
  cases ho : s.userManager.isUserOnline (trim pkt.payload) with
  | true =>
      have hin : trim pkt.payload ∈ v.online := (h.online hs).mpr ho
      have hrun : (handleLogin k pkt.payload).run s =
          ⟨(), s, [.toSession k
            ⟨.loginResp, pack [ascii "0", ascii "Username already online"]⟩]⟩ := by
        simp [handleLogin, hu, ho]
      exact .reply .nameTaken h hrun (dif_neg fun hn => hn.2 hin) (fun _ => if_pos hin) rfl
  | false =>
      have hin : trim pkt.payload ∉ v.online := by
        rw [h.online hs, ho]
        exact Bool.false_ne_true
      have ha : s.Accepts pkt.payload (trim pkt.payload) := ⟨rfl, hu, ho⟩
      have hs' := hs.loggedIn hk ha (hf ht _ ha)
      have hp := h.loggedIn hk (h.here.mpr hk) hin
      have hrun := run_handleLogin_of_accepts (k := k) hs.own.2 ha
      refine ⟨?_, fun j => ?_⟩
      · rw [hrun, ChatService.next, dif_pos ⟨h.here.mpr hk, hin⟩]
        exact hp
      · rw [hrun, ChatService.told, if_neg hin, ← List.singleton_append, packetsTo_append,
          packetsTo_toSession, packetsTo_map (nodup_notified hs'.inStep.ok none)]
        refine List.rel_append ?_ ?_
        · exact forall₂_given Iff.rfl fun _ => rfl
        · refine forall₂_given ?_ fun _ => ?_
          · rw [hp.mem_notified, ChatService.known_enter]
          · rw [← ChatService.online_enter (h.here.mpr hk) hin (h.guest (hf ht _ ha))]
            exact tells_onlinePacket fun u => (hp.online hs').symm

/-- What is done for somebody with a name. -/
theorem Answers.of_known {prog : ServerProg Unit} {q : Request Bytes Bytes Bytes} {u : Bytes}
    {s' : ChatServer} {out : List Effect} (hname : v.name k = some u) (hq : ¬ q.ForName)
    (hrun : prog.run s = ⟨(), s', out⟩) (hnext : s'.Provides (v.next (.asks k q)))
    (htold : ∀ j, List.Forall₂ RawPacket.Tells (packetsTo j out) (v.answer k u j q)) :
    s.Answers v prog (.asks k q) where
  state := by rw [hrun]; exact hnext
  told j := by
    rw [hrun, ChatService.told_asks_of_known hname hq]
    exact htold j

theorem Answers.of_nothing {prog : ServerProg Unit} {u : Bytes} (h : s.Provides v)
    (hname : v.name k = some u) (hrun : prog.run s = ⟨(), s, []⟩) :
    s.Answers v prog (.asks k .nothing) :=
  .of_known hname id hrun h fun _ => .nil

section

variable {payload u text r : Bytes} {fields : List Bytes} {t : ConnRef}

theorem run_handlePrivateMsg_here (hu : unpack payload = u :: text :: fields)
    (hloc : s.userManager.getUserLocation u = s.serverId)
    (ht : s.connManager.getSessionByUsername u = some t) :
    (handlePrivateMsg k payload).run s =
      ⟨(), s, [.toSession t ⟨.msgPrivate, pack [s.nameOf k, text]⟩] ++
        [.toSession k ⟨.statusUpdate,
          pack [ascii "SUCCESS", ascii "Message delivered to " ++ u]⟩]⟩ := by
  rw [handlePrivateMsg, hu]
  simp [hloc, ht, nameOf]

theorem run_handlePrivateMsg_offline (hu : unpack payload = u :: text :: fields)
    (hloc : s.userManager.getUserLocation u = -1) (hid : s.serverId ≠ -1) :
    (handlePrivateMsg k payload).run s =
      ⟨(), s, [.toSession k ⟨.statusUpdate, pack [ascii "ERROR", ascii "User offline"]⟩]⟩ := by
  rw [handlePrivateMsg, hu]
  simp [hloc, hid.symm]

end

theorem answers_handlePrivateMsg (hs : s.Serving) (h : s.Provides v) (hk : s.connManager.Live k)
    (ht : pkt.type = .msgPrivate) (ha : (s.connManager.sessions k).isAuthenticated = true) :
    s.Answers v (handlePrivateMsg k pkt.payload) (.asks k pkt.request) := by
  have hname := h.nameOf hk ha
  rcases hu : unpack pkt.payload with - | ⟨u, - | ⟨text, fields⟩⟩
  · rw [show pkt.request = .nothing by simp [RawPacket.request, ht, hu]]
    exact .of_nothing h hname (by rw [handlePrivateMsg, hu]; rfl)
  · rw [show pkt.request = .nothing by simp [RawPacket.request, ht, hu]]
    exact .of_nothing h hname (by rw [handlePrivateMsg, hu]; rfl)
  rw [show pkt.request = .whisper u text by simp [RawPacket.request, ht, hu]]
  by_cases hin : u ∈ v.online
  · obtain ⟨t, hheld⟩ := hs.isUserOnline.mp ((h.online hs).mp hin)
    have hloc : s.userManager.getUserLocation u = s.serverId := by
      rw [UserManager.getUserLocation, hs.inStep.names.located.mpr ⟨t, hheld⟩, Option.getD_some]
    have hsession := hs.inStep.names.byName.mpr hheld
    refine .of_known hname id (run_handlePrivateMsg_here hu hloc hsession) h fun j => ?_
    have hj : j = t ↔ v.name j = some u := by
      rw [h.name]
      exact ⟨fun he => he ▸ hheld, fun hj => hs.inStep.names.holder_unique hj hheld⟩
    rw [packetsTo_append, packetsTo_toSession, packetsTo_toSession, ChatService.answer, if_pos hin]
    refine List.rel_append ?_ ?_
    · exact forall₂_given hj fun _ => rfl
    · exact forall₂_given Iff.rfl fun _ => rfl
  · have hloc : s.userManager.getUserLocation u = -1 := by
      have hoff := isUserOnline_eq_false.mp
        (Bool.eq_false_of_not_eq_true (mt (h.online hs).mpr hin))
      rw [UserManager.getUserLocation, hoff, Option.getD_none]
    refine .of_known hname id (run_handlePrivateMsg_offline hu hloc hs.id_ne) h fun j => ?_
    rw [packetsTo_toSession, ChatService.answer, if_neg hin]
    exact forall₂_given Iff.rfl fun _ => rfl

/-! ## Rooms -/

section

variable {j : ConnRef} {payload r r' text : Bytes} {fields : List Bytes}

theorem not_mem_peerNodes_of_alone (h : s.connManager.getAllPeerNodes = []) (p : Int) :
    p ∉ s.connManager.peerNodes := by
  rw [ListSet.mem_def, ← ConnectionManager.getAllPeerNodes, h]
  exact List.not_mem_nil

theorem run_handleRoomMsg_of_alone (h : s.connManager.getAllPeerNodes = [])
    (hu : unpack payload = r :: text :: fields) (hj : s.connManager.isInRoom k r = true) :
    (handleRoomMsg k payload).run s =
      ⟨(), s, (s.audience r).map fun t => .toSession t ⟨.msgRoom, pack [s.nameOf k, r, text]⟩⟩ := by
  have hgood : s.LinksGood := fun p hp => absurd hp (not_mem_peerNodes_of_alone h p)
  have hnone : ((s.roomManager.getRemoteServers r).filter fun p =>
      p ∈ s.connManager.peerNodes) = [] :=
    List.filter_eq_nil_iff.mpr fun p _ => by simp [not_mem_peerNodes_of_alone h p]
  rw [run_handleRoomMsg hgood hu hj, hnone, frames_nil, List.append_nil]
  rfl

theorem Serving.joined (hs : s.Serving) (hk : s.connManager.Live k)
    (ha : (s.connManager.sessions k).isAuthenticated = true) : (s.joined k r).Serving :=
  ⟨hs.inStep.joined hk ha, hs.own, hs.id_ne⟩

theorem Serving.left (hs : s.Serving) (hk : s.connManager.Live k)
    (ha : (s.connManager.sessions k).isAuthenticated = true) : (s.left k r).Serving :=
  ⟨hs.inStep.left hk ha, hs.own, hs.id_ne⟩

theorem Provides.joined (h : s.Provides v) (hk : s.connManager.Live k) (hi : v.Known k) :
    (s.joined k r).Provides (v.join k r hi) where
  here := h.here
  name := h.name.trans holds_joined.symm
  rooms {j r'} := by
    have hrooms : r' ∈ ((s.joined k r).connManager.sessions j).joinedRooms ↔
        (j = k ∧ r' = r) ∨ r' ∈ (s.connManager.sessions j).joinedRooms := by
      rw [ChatServer.joined, onRooms_connManager, onConn_connManager,
        ConnectionManager.sessions_joinRoom]
      split
      next he => simp [he]
      next hne => simp [hne]
    have hlive : (s.joined k r).connManager.Live j ↔ s.connManager.Live j := Iff.rfl
    rw [ChatService.mem_rooms_join, hrooms, hlive, h.rooms]
    constructor
    · rintro (⟨rfl, rfl⟩ | ⟨hj, hr⟩)
      · exact ⟨hk, Or.inl ⟨rfl, rfl⟩⟩
      · exact ⟨hj, Or.inr hr⟩
    · rintro ⟨hj, he | hr⟩
      · exact Or.inl he
      · exact Or.inr ⟨hj, hr⟩

theorem Provides.left (h : s.Provides v) : (s.left k r).Provides (v.leave k r) where
  here := h.here
  name := h.name.trans holds_left.symm
  rooms {j r'} := by
    have hrooms : r' ∈ ((s.left k r).connManager.sessions j).joinedRooms ↔
        ¬ (j = k ∧ r' = r) ∧ r' ∈ (s.connManager.sessions j).joinedRooms := by
      rw [ChatServer.left, onRooms_connManager, onConn_connManager,
        ConnectionManager.sessions_leaveRoom]
      split
      next he => simp [he]
      next hne => simp [hne]
    have hlive : (s.left k r).connManager.Live j ↔ s.connManager.Live j := Iff.rfl
    rw [ChatService.mem_rooms_leave, hrooms, hlive, h.rooms]
    tauto

/-- The sessions in a room, as the service has them. -/
theorem Provides.mem_audience (h : s.Provides v) (hs : s.Serving) :
    j ∈ s.audience r ↔ r ∈ v.rooms j := by
  rw [hs.inStep.mem_audience, h.rooms]

theorem answers_handleRoomMsg (hs : s.Serving) (h : s.Provides v) (hk : s.connManager.Live k)
    (ht : pkt.type = .msgRoom) (ha : (s.connManager.sessions k).isAuthenticated = true) :
    s.Answers v (handleRoomMsg k pkt.payload) (.asks k pkt.request) := by
  have hname := h.nameOf hk ha
  rcases hu : unpack pkt.payload with - | ⟨r, - | ⟨text, fields⟩⟩
  · rw [show pkt.request = .nothing by simp [RawPacket.request, ht, hu]]
    exact .of_nothing h hname (by rw [handleRoomMsg, hu]; rfl)
  · rw [show pkt.request = .nothing by simp [RawPacket.request, ht, hu]]
    exact .of_nothing h hname (by rw [handleRoomMsg, hu]; rfl)
  rw [show pkt.request = .say r text by simp [RawPacket.request, ht, hu]]
  cases hj : s.connManager.isInRoom k r with
  | true =>
      refine .of_known hname id (run_handleRoomMsg_of_alone hs.own.2 hu hj) h fun j => ?_
      rw [packetsTo_map (hs.inStep.nodup_audience r), ChatService.answer,
        if_pos ((h.isInRoom hk).mpr hj)]
      exact forall₂_given (h.mem_audience hs) fun _ => rfl
  | false =>
      have hrun : (handleRoomMsg k pkt.payload).run s =
          ⟨(), s, [.toSession k
            ⟨.statusUpdate, pack [ascii "ERROR", ascii "Join room first"]⟩]⟩ := by
        rw [handleRoomMsg, hu]
        simp [hj]
      refine .of_known hname id hrun h fun j => ?_
      have hout : r ∉ v.rooms k := by
        rw [h.isInRoom hk, hj]
        exact Bool.false_ne_true
      rw [packetsTo_toSession, ChatService.answer, if_neg hout]
      exact forall₂_given Iff.rfl fun _ => rfl

theorem answers_handleBroadcastMsg (hs : s.Serving) (h : s.Provides v) (hk : s.connManager.Live k)
    (ht : pkt.type = .msgBroadcast) (ha : (s.connManager.sessions k).isAuthenticated = true) :
    s.Answers v (handleBroadcastMsg k pkt.payload) (.asks k pkt.request) := by
  have hrun : (handleBroadcastMsg k pkt.payload).run s = ⟨(), s, s.authenticatedSessions.map
      fun t => .toSession t ⟨.msgBroadcast, pack [s.nameOf k, pkt.payload]⟩⟩ := by
    simp [handleBroadcastMsg, run_broadcastS2S_of_alone hs.own.2, nameOf, -state_broadcastS2S]
  rw [show pkt.request = .shout pkt.payload by simp [RawPacket.request, ht]]
  refine .of_known (h.nameOf hk ha) id hrun h fun j => ?_
  have hnodup : s.authenticatedSessions.Nodup := hs.inStep.ok.nodup_getAllSessions.filter _
  rw [packetsTo_map hnodup, ChatService.answer]
  exact forall₂_given (mem_authenticatedSessions.trans h.known.symm) fun _ => rfl

theorem run_handleRoomJoin_of_alone (h : s.connManager.getAllPeerNodes = [])
    (hr : trim payload = r) (hne : r ≠ []) :
    (handleRoomJoin k payload).run s =
      ⟨(), s.joined k r,
        [.toSession k ⟨.statusUpdate, pack [ascii "SUCCESS", ascii "Joined room " ++ r]⟩] ++
          ((s.joined k r).audience r).map fun t => .toSession t ⟨.statusUpdate,
            pack [ascii "INFO", ascii "User " ++ s.nameOf k ++ ascii " entered " ++ r]⟩⟩ := by
  subst hr
  have hb := run_broadcastS2S_of_alone (s := s.joined k (trim payload)) h .s2sRoomMemberSync
    (replicationPayload (trim payload) s.serverId true)
  rw [ChatServer.joined, nameOf] at hb
  by_cases hm : s.roomManager.getLocalMembers (trim payload) = []
  · simp [handleRoomJoin, hne, hm, replicateRoomJoin, hb, ChatServer.joined, nameOf, audience,
      -state_broadcastS2S]
  · simp [handleRoomJoin, hne, hm, ChatServer.joined, nameOf, audience]

theorem run_handleRoomLeave_of_alone (h : s.connManager.getAllPeerNodes = [])
    (hr : trim payload = r) (hne : r ≠ []) (hj : s.connManager.isInRoom k r = true) :
    (handleRoomLeave k payload).run s =
      ⟨(), s.left k r,
        [.toSession k ⟨.statusUpdate, pack [ascii "SUCCESS", ascii "Left room " ++ r]⟩] ++
          ((s.left k r).audience r).map fun t => .toSession t ⟨.statusUpdate,
            pack [ascii "INFO", ascii "User " ++ s.nameOf k ++ ascii " left " ++ r]⟩⟩ := by
  subst hr
  have hb := run_broadcastS2S_of_alone (s := s.left k (trim payload)) h .s2sRoomMemberSync
    (replicationPayload (trim payload) s.serverId false)
  rw [ChatServer.left, nameOf] at hb
  by_cases hm : (s.roomManager.leaveRoomLocal (trim payload)
      (s.connManager.sessions k).username).getLocalMembers (trim payload) = []
  · simp [handleRoomLeave, hne, hj, hm, replicateRoomLeave, hb, ChatServer.left, nameOf, audience,
      -state_broadcastS2S]
  · simp [handleRoomLeave, hne, hj, hm, ChatServer.left, nameOf, audience]

theorem answers_handleRoomJoin (hs : s.Serving) (h : s.Provides v) (hk : s.connManager.Live k)
    (ht : pkt.type = .roomJoin) (ha : (s.connManager.sessions k).isAuthenticated = true) :
    s.Answers v (handleRoomJoin k pkt.payload) (.asks k pkt.request) := by
  have hname := h.nameOf hk ha
  by_cases hr : trim pkt.payload = []
  · rw [show pkt.request = .nothing by simp [RawPacket.request, ht, hr]]
    exact .of_nothing h hname (by simp [handleRoomJoin, hr])
  rw [show pkt.request = .join (trim pkt.payload) by simp [RawPacket.request, ht, hr]]
  have hi : v.Known k := h.known.mpr ⟨hk, ha⟩
  have hp := h.joined (r := trim pkt.payload) hk hi
  have hs' := hs.joined (r := trim pkt.payload) hk ha
  refine .of_known hname id (run_handleRoomJoin_of_alone hs.own.2 rfl hr) ?_ fun j => ?_
  · rw [ChatService.next, dif_pos hi]
    exact hp
  · rw [packetsTo_append, packetsTo_toSession, packetsTo_map (hs'.inStep.nodup_audience _),
      ChatService.answer]
    refine List.rel_append ?_ ?_
    · exact forall₂_given Iff.rfl fun _ => rfl
    · refine forall₂_given ?_ fun _ => rfl
      rw [hp.mem_audience hs', ChatService.mem_rooms_join, and_iff_left rfl]

theorem answers_handleRoomLeave (hs : s.Serving) (h : s.Provides v) (hk : s.connManager.Live k)
    (ht : pkt.type = .roomLeave) (ha : (s.connManager.sessions k).isAuthenticated = true) :
    s.Answers v (handleRoomLeave k pkt.payload) (.asks k pkt.request) := by
  have hname := h.nameOf hk ha
  by_cases hr : trim pkt.payload = []
  · rw [show pkt.request = .nothing by simp [RawPacket.request, ht, hr]]
    exact .of_nothing h hname (by simp [handleRoomLeave, hr])
  rw [show pkt.request = .leave (trim pkt.payload) by simp [RawPacket.request, ht, hr]]
  cases hj : s.connManager.isInRoom k (trim pkt.payload) with
  | true =>
      have hp := h.left (k := k) (r := trim pkt.payload)
      have hs' := hs.left (r := trim pkt.payload) hk ha
      refine .of_known hname id (run_handleRoomLeave_of_alone hs.own.2 rfl hr hj) hp fun j => ?_
      rw [packetsTo_append, packetsTo_toSession, packetsTo_map (hs'.inStep.nodup_audience _),
        ChatService.answer, if_pos ((h.isInRoom hk).mpr hj)]
      refine List.rel_append ?_ ?_
      · exact forall₂_given Iff.rfl fun _ => rfl
      · refine forall₂_given ?_ fun _ => rfl
        rw [hp.mem_audience hs', ChatService.mem_rooms_leave, and_iff_left rfl]
  | false =>
      have hout : trim pkt.payload ∉ v.rooms k := by
        rw [h.isInRoom hk, hj]
        exact Bool.false_ne_true
      have hsame : v.leave k (trim pkt.payload) = v := ChatService.leave_of_not_mem hout
      have hrun : (handleRoomLeave k pkt.payload).run s = ⟨(), s, []⟩ := by
        simp [handleRoomLeave, hr, hj]
      refine .of_known hname id hrun ?_ fun j => ?_
      · rw [ChatService.next, hsame]
        exact h
      · rw [ChatService.answer, if_neg hout]
        exact .nil

theorem answers_handleRoomCreate (h : s.Provides v) (hk : s.connManager.Live k)
    (ht : pkt.type = .roomCreate) (ha : (s.connManager.sessions k).isAuthenticated = true) :
    s.Answers v (handleRoomCreate k pkt.payload) (.asks k pkt.request) := by
  have hname := h.nameOf hk ha
  by_cases hr : trim pkt.payload = []
  · rw [show pkt.request = .nothing by simp [RawPacket.request, ht, hr]]
    exact .of_nothing h hname (by simp [handleRoomCreate, hr])
  rw [show pkt.request = .create (trim pkt.payload) by simp [RawPacket.request, ht, hr]]
  have hrun : (handleRoomCreate k pkt.payload).run s = ⟨(), s, [.toSession k ⟨.statusUpdate,
      pack [ascii "SUCCESS", ascii "Room " ++ trim pkt.payload ++
        ascii " created. Type /join " ++ trim pkt.payload ++ ascii " to enter."]⟩]⟩ := by
    simp [handleRoomCreate, hr]
  refine .of_known hname id hrun h fun j => ?_
  rw [packetsTo_toSession, ChatService.answer]
  exact forall₂_given Iff.rfl fun _ => rfl

end

/-! ## One action of a client -/

section

variable {a : ClientAction} {s' : ChatServer} {handle : SOCKET}

theorem not_forName_request (ht : pkt.type ≠ .login) : ¬ pkt.request.ForName := by
  rw [RawPacket.request]
  split
  next h => exact absurd h ht
  all_goals first | exact id | split <;> exact id

theorem Answers.congr {prog prog' : ServerProg Unit} {act : Act ConnRef Bytes Bytes Bytes}
    (h : s.Answers v prog act) (hrun : prog'.run s = prog.run s) : s.Answers v prog' act :=
  ⟨hrun ▸ h.state, hrun ▸ h.told⟩

theorem answers_readPacket (hs : s.Serving) (h : s.Provides v) (hk : s.connManager.Live k)
    (hf : s.FirstLogin (.packet k pkt)) (hn : pkt.type ≠ .s2sConnect) :
    s.Answers v (readPacket k pkt) (.asks k pkt.request) := by
  refine Answers.congr ?_ (run_readPacket_of_live hk pkt)
  by_cases hlogin : pkt.type = .login
  · exact (answers_handleLogin hs h hk hlogin hf).congr (by simp [handleClientPacket, hlogin])
  cases ha : (s.connManager.sessions k).isAuthenticated with
  | false =>
      have hguest := h.guest ha
      have hq := not_forName_request hlogin
      have hrun : (handleClientPacket k pkt).run s = ⟨(), s, [.toSession k ⟨.loginResp,
          pack [ascii "0", ascii "Authentication required"]⟩]⟩ := by
        simp [handleClientPacket, ha, hlogin, hn]
      exact .reply .nameFirst h hrun (ChatService.next_asks_of_guest hguest hq)
        (fun _ => ChatService.told_asks_of_guest hguest hq) rfl
  | true =>
      cases ht : pkt.type with
      | login => exact absurd ht hlogin
      | s2sConnect => exact absurd ht hn
      | msgPrivate =>
          exact (answers_handlePrivateMsg hs h hk ht ha).congr
            (by simp [handleClientPacket, ha, ht])
      | msgRoom =>
          exact (answers_handleRoomMsg hs h hk ht ha).congr (by simp [handleClientPacket, ha, ht])
      | msgBroadcast =>
          exact (answers_handleBroadcastMsg hs h hk ht ha).congr
            (by simp [handleClientPacket, ha, ht])
      | roomJoin =>
          exact (answers_handleRoomJoin hs h hk ht ha).congr (by simp [handleClientPacket, ha, ht])
      | roomLeave =>
          exact (answers_handleRoomLeave hs h hk ht ha).congr (by simp [handleClientPacket, ha, ht])
      | roomCreate =>
          exact (answers_handleRoomCreate h hk ht ha).congr (by simp [handleClientPacket, ha, ht])
      | _ =>
          rw [show pkt.request = .nothing by rw [RawPacket.request, ht]]
          exact .of_nothing h (h.nameOf hk ha) (by simp [handleClientPacket, ha, ht])

theorem answers_acceptConnection (hs : s.Serving) (h : s.Provides v)
    (hf : s.connManager.FreeHandle handle) :
    s.Answers v (acceptConnection handle) (.comes s.connManager.nextConn) where
  state := by
    have hlive {j : ConnRef} : (s.onConn (·.accepted handle)).connManager.Live j ↔
        j = s.connManager.nextConn ∨ s.connManager.Live j := ConnectionManager.live_accepted hf
    refine ⟨fun {j} => ?_, fun {j u} => ?_, fun {j r} => ?_⟩
    · rw [run_acceptConnection, hlive, ← h.here]
      rfl
    · rw [run_acceptConnection, holds_accepted hs.inStep.ok hf, ← h.name]
      rfl
    · have hobj : (s.onConn (·.accepted handle)).connManager.sessions j =
          if j = s.connManager.nextConn then {} else s.connManager.sessions j :=
        ConnectionManager.sessions_newSocket s.connManager j handle
      rw [run_acceptConnection, hlive, hobj]
      refine Iff.trans h.rooms ?_
      split
      next hj =>
        have hdead : ¬ s.connManager.Live j :=
          fun hl => Nat.ne_of_lt (hs.inStep.ok.live_lt hl) hj
        exact iff_of_false (fun hr => hdead hr.1) fun hr => ListSet.notMem_empty r hr.2
      next hj => rw [or_iff_right hj]
  told _ := .nil

theorem Provides.removed (h : s.Provides v) (hok : s.connManager.Ok) (hk : s.connManager.Live k) :
    (s.removed k).Provides (v.go k) where
  here {j} := by
    rw [ChatService.mem_here_go, h.here, ChatServer.removed, onConn_connManager,
      hok.live_removeSession hk]
  name {j u} := by rw [ChatService.name_go, holds_removed hok hk, h.name]
  rooms {j r} := by
    rw [ChatService.mem_rooms_go, h.rooms, ChatServer.removed, onConn_connManager,
      hok.live_removeSession hk, ConnectionManager.sessions_removeSession]
    tauto

/-- The session that ends is the one that is not notified. -/
theorem mem_notified_others (hs : s.Serving) (h : s.Provides v) (hk : s.connManager.Live k)
    {j : ConnRef} : j ∈ s.notified (some (s.connManager.getHandle k)) ↔ j ≠ k ∧ v.Known j := by
  rw [mem_notified, h.known]
  constructor
  · rintro ⟨hj, ha, hne⟩
    exact ⟨fun he => hne (he ▸ rfl), hj, ha⟩
  · rintro ⟨hne, hj, ha⟩
    refine ⟨hj, ha, fun he => hne ?_⟩
    have hlook := hs.inStep.ok.lookup_getHandle hj
    rw [← Option.some.inj he, hs.inStep.ok.lookup_getHandle hk] at hlook
    exact (Option.some.inj hlook).symm

theorem answers_readFailure (hs : s.Serving) (h : s.Provides v) (hk : s.connManager.Live k) :
    s.Answers v (readFailure k) (.goes k) := by
  have hok := hs.inStep.ok
  refine Answers.congr ?_ (run_readFailure_of_live hk)
  by_cases hu : s.nameOf k = []
  · have hrun : (clientDisconnect k).run s = ⟨(), s.removed k, []⟩ := by
      rw [nameOf] at hu
      simp [clientDisconnect, hu]
      rfl
    have hguest := h.guest ((hok.username_eq_nil_iff k).mp hu)
    refine ⟨hrun ▸ h.removed hok hk, fun j => ?_⟩
    rw [hrun, ChatService.told, hguest]
    exact .nil
  · have hb := run_broadcastS2S_of_alone (s := s.loggedOut k) hs.own.2 .s2sReplicateUser
      (replicationPayload (s.nameOf k) s.serverId false)
    have hrun : (clientDisconnect k).run s = ⟨(), (s.loggedOut k).removed k,
        (s.notified (some (s.connManager.getHandle k))).map fun j =>
          .toSession j (s.loggedOut k).onlinePacket⟩ := by
      rw [ChatServer.loggedOut, nameOf] at hb
      rw [nameOf] at hu
      simp [clientDisconnect, hu, replicateUserLogout, hb, ChatServer.loggedOut,
        ChatServer.removed, nameOf, -state_broadcastS2S]
      exact ⟨rfl, rfl⟩
    have hname : v.name k = some (s.nameOf k) := h.name.mpr (holds_nameOf hok hk hu)
    refine ⟨?_, fun j => ?_⟩
    · rw [hrun]
      exact Provides.removed (s := s.loggedOut k) ⟨h.here, h.name, h.rooms⟩ hok hk
    · rw [hrun, packetsTo_map (nodup_notified hok _), ChatService.told, hname]
      refine forall₂_given (mem_notified_others hs h hk) fun _ => tells_onlinePacket fun u => ?_
      rw [Set.mem_sdiff, h.online hs, Set.mem_singleton_iff]
      simp only [UserManager.isUserOnline, ChatServer.loggedOut, onUsers_userManager,
        UserManager.location?_unregisterUser]
      by_cases he : u = s.nameOf k <;> simp [he]

theorem numbered_of_move (hn : NoConnect a) (hm : ClientMove s a s') :
    s'.connManager.nextConn = numbered s.connManager.nextConn a := by
  cases hm with
  | connect hf => rfl
  | @packet k pkt _ s' ps hk hs =>
      refine (sameSessions_dropBroken s' ps).next.trans ?_
      cases hs with
      | promote p ht => exact absurd ht hn
      | _ => rfl
  | disconnectNew => exact ConnectionManager.nextConn_removeSession ..
  | @disconnect k hk hu =>
      exact (ConnectionManager.nextConn_removeSession ..).trans
        (sameSessions_dropBroken (s.loggedOut k) _).next

theorem Serving.move (hs : s.Serving) (hf : s.FirstLogin a) (hn : NoConnect a)
    (he : s.EndsOutside a) (hm : ClientMove s a s') : s'.Serving := by
  refine ⟨hs.inStep.move hf hn he hm, hs.own.move hn hm, ?_⟩
  rw [hm.same.1]
  exact hs.id_ne

/-- The server and the service take one step. -/
theorem provides_clientNext (hs : s.Serving) (h : s.Provides v) (hf : s.FirstLogin a)
    (hn : NoConnect a) (hnext : s.clientNext a = some s') :
    s'.Provides (v.next (act s.connManager.nextConn a)) ∧
      ∀ j, List.Forall₂ RawPacket.Tells (packetsTo j (s.clientOut a))
        (v.told j (act s.connManager.nextConn a)) := by
  cases a with
  | connect handle =>
      obtain ⟨hfree, he⟩ := Option.ite_none_right_eq_some.mp hnext
      cases he
      have hanswers := answers_acceptConnection hs h hfree
      exact ⟨hanswers.state, hanswers.told⟩
  | packet k pkt =>
      obtain ⟨⟨hk, -⟩, he⟩ := Option.ite_none_right_eq_some.mp hnext
      cases he
      have hanswers := answers_readPacket hs h hk hf hn
      exact ⟨hanswers.state, hanswers.told⟩
  | disconnect k =>
      obtain ⟨hk, he⟩ := Option.ite_none_right_eq_some.mp hnext
      cases he
      have hanswers := answers_readFailure hs h hk
      exact ⟨hanswers.state, hanswers.told⟩

/-- The server and the service take a run. -/
theorem provides_run {as : List ClientAction} {t : ChatServer} (hs : s.Serving) (h : s.Provides v)
    (hrun : exec clientNext s as = some t) (hno : ∀ a ∈ as, NoConnect a)
    (hlog : Along clientNext FirstLogin s as) (hend : Along clientNext EndsOutside s as) :
    t.Provides (v.after (acts s.connManager.nextConn as)) ∧
      ∀ j, List.Forall₂ RawPacket.Tells (packetsTo j (s.transcript as))
        (ChatService.conversation j v (acts s.connManager.nextConn as)) := by
  induction as generalizing s v with
  | nil =>
      cases hrun
      exact ⟨h, fun j => .nil⟩
  | cons a as ih =>
      obtain ⟨s', hnext, hrun⟩ := exec_cons_eq_some.mp hrun
      obtain ⟨hf, hlog⟩ := (along_cons hnext).mp hlog
      obtain ⟨he, hend⟩ := (along_cons hnext).mp hend
      have hn := hno a (List.mem_cons_self ..)
      have hm := clientNext_move hs.inStep.ok hnext
      obtain ⟨hp, htold⟩ := provides_clientNext hs h hf hn hnext
      obtain ⟨hstate, hrest⟩ := ih (hs.move hf hn he hm) hp hrun
        (fun b hb => hno b (List.mem_cons_of_mem _ hb)) hlog hend
      rw [numbered_of_move hn hm] at hstate hrest
      refine ⟨hstate, fun j => ?_⟩
      rw [transcript, hnext, packetsTo_append]
      exact List.rel_append (htold j) (hrest j)

theorem serving_fresh {id : Int} (hid : id ≠ -1) : (fresh id).Serving :=
  ⟨(unvisited_fresh id).inStep, (lone_fresh id).own, hid⟩

theorem provides_fresh (id : Int) : (fresh id).Provides ChatService.nobody where
  here := iff_of_false (Set.notMem_empty _) List.not_mem_nil
  name := iff_of_false (Option.some_ne_none _).symm fun h => List.not_mem_nil h.1
  rooms := iff_of_false (Set.notMem_empty _) fun h => List.not_mem_nil h.1

end

end

/-- **A server is a chat service.**  Take any run of a server without peers in which no connection
sends `S2S_CONNECT`, logs in twice or ends in a room.  The server ends in the state of the service
after what the clients have done, and every connection is sent, one after the other, exactly the
packets that say what the service tells it. -/
theorem serves_clients (id : Int) (hid : id ≠ -1) {as : List ClientAction} {t : ChatServer}
    (hrun : exec clientNext (fresh id) as = some t) (hno : ∀ a ∈ as, NoConnect a)
    (hlog : Along clientNext FirstLogin (fresh id) as)
    (hend : Along clientNext EndsOutside (fresh id) as) :
    t.Provides (ChatService.nobody.after (acts 0 as)) ∧
      ∀ j, List.Forall₂ RawPacket.Tells (packetsTo j ((fresh id).transcript as))
        (ChatService.conversation j ChatService.nobody (acts 0 as)) :=
  provides_run (serving_fresh hid) (provides_fresh id) hrun hno hlog hend

theorem endsOutside_disconnect (s : ChatServer) (k : ConnRef) :
    (s.connManager.sessions k).joinedRooms.elems = [] ↔ s.EndsOutside (.disconnect k) := by
  simp [EndsOutside, ConnectionManager.isInRoom, ListSet.mem_def, List.eq_nil_iff_forall_not_mem]

instance (s : ChatServer) : DecidablePred s.EndsOutside := fun
  | .connect _ | .packet _ _ => instDecidableTrue
  | .disconnect k => decidable_of_iff _ (s.endsOutside_disconnect k)

/-- Ann and Bob meet in a room, and Ann goes. -/
def meeting : List ClientAction :=
  [.connect 4, .packet 0 ⟨.login, ascii "ann"⟩, .connect 5, .packet 1 ⟨.login, ascii "bob"⟩,
    .packet 0 ⟨.roomJoin, ascii "den"⟩, .packet 1 ⟨.roomJoin, ascii "den"⟩,
    .packet 0 ⟨.msgRoom, pack [ascii "den", ascii "hi"]⟩,
    .packet 1 ⟨.msgPrivate, pack [ascii "ann", ascii "hello"]⟩,
    .packet 0 ⟨.roomLeave, ascii "den"⟩, .disconnect 0]

theorem serves_clients_meeting : ∃ t, exec clientNext (fresh 1) meeting = some t ∧
    t.Provides (ChatService.nobody.after (acts 0 meeting)) ∧
      ∀ j, List.Forall₂ RawPacket.Tells (packetsTo j ((fresh 1).transcript meeting))
        (ChatService.conversation j ChatService.nobody (acts 0 meeting)) := by
  have hrun : (exec clientNext (fresh 1) meeting).isSome = true := by decide
  obtain ⟨t, ht⟩ := Option.isSome_iff_exists.mp hrun
  exact ⟨t, ht, serves_clients 1 (by decide) ht (by decide) (by decide) (by decide)⟩

end ChatServer

end DistributedChat
