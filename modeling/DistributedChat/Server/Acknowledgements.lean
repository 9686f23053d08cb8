import DistributedChat.Server.Rounds

/-!
# What the sender of a private message is told

`HandlePrivateMsg` answers with a `STATUS_UPDATE` of category `SUCCESS` or
`ERROR`.  It looks at the receiver's location and, for a local receiver, at the
session table, but not at what became of the frame: neither `SendPacket` nor
`RoutePrivateMessage` is asked.  So the answer is right when the location it
acts on leads to a socket that takes the frame (`Deliverable`), and when the
location is neither this server nor positive.  In all other states the sender
is told of a success that did not happen, or nothing
(`acknowledged_iff`).
-/

namespace DistributedChat

/-- The category of a `STATUS_UPDATE` to the session. -/
def Effect.category (k : ConnRef) : Effect → Option Bytes
  | .toSession j pkt =>
      if j = k ∧ pkt.type = .statusUpdate then (unpack pkt.payload).head? else none
  | .toPeer _ _ _ => none

namespace ChatServer

open Prog (observe update each Emits)

/-- The categories of the replies to the session: its status updates, less the lists
of online users. -/
def replies (k : ConnRef) (out : List Effect) : List Bytes :=
  out.filterMap fun e => (e.category k).filter fun c => c ≠ ascii "STATUS"

theorem replies_append (k : ConnRef) (xs ys : List Effect) :
    replies k (xs ++ ys) = replies k xs ++ replies k ys :=
  List.filterMap_append

/-- The output is no reply to the session. -/
def Unanswered (k : ConnRef) (e : Effect) : Prop :=
  e.category k = none ∨ e.category k = some (ascii "STATUS")

theorem replies_eq_nil {k : ConnRef} {out : List Effect} (h : ∀ e ∈ out, Unanswered k e) :
    replies k out = [] := by
  rw [replies, List.filterMap_eq_nil_iff]
  intro e he
  rcases h e he with hc | hc
  · rw [hc]
    rfl
  · rw [hc]
    decide

/-- A list of online users is no reply. -/
theorem unanswered_notifyOnlineUsers (k : ConnRef) (skip : Option SOCKET) :
    Emits (Unanswered k) (notifyOnlineUsers skip) := by
  intro s e he
  rw [run_notifyOnlineUsers] at he
  obtain ⟨j, -, rfl⟩ := List.mem_map.mp he
  show Effect.category k (.toSession j s.onlinePacket) = none ∨ _
  rw [Effect.category]
  split
  · rw [onlinePacket, unpack_pack_cons (by decide)]
    exact .inr rfl
  · exact .inl rfl

/-- No reply is sent while a message is routed. -/
theorem unanswered_routePrivateMessage (k : ConnRef) (sender receiver text : Bytes) (p : Int) :
    Emits (Unanswered k) (routePrivateMessage sender receiver text p) :=
  .bind (Prog.emits_observe _) fun _ => .ite
    (fun _ => emits_sendToPeer_of p _ _ (fun _ => .inl rfl) (unanswered_notifyOnlineUsers k none))
    fun _ => Prog.emits_pure ()

section

variable (s : ChatServer) (k : ConnRef) (receiver text : Bytes)

/-- The frame was handed to the socket of the receiver's session, or to that of the peer
the receiver is on. -/
def Handed (out : List Effect) : Prop :=
  (∃ t, s.connManager.getSessionByUsername receiver = some t ∧ s.connManager.canSend t = true ∧
      .toSession t ⟨.msgPrivate, pack [s.nameOf k, text]⟩ ∈ out) ∨
    ∃ sock, .toPeer (s.userManager.getUserLocation receiver) sock
      ⟨.s2sRouteMsg, pack [s.nameOf k, receiver, text]⟩ ∈ out

/-- The sender is told once whether the frame was handed over. -/
def Acknowledged (payload : Bytes) : Prop :=
  let out := ((handlePrivateMsg k payload).run s).out
  (s.Handed k receiver text out ∧ replies k out = [ascii "SUCCESS"]) ∨
    (¬ s.Handed k receiver text out ∧ replies k out = [ascii "ERROR"])

/-- Where the server acts on the receiver's location, it leads to a socket that takes
the frame. -/
structure Deliverable : Prop where
  here : s.userManager.getUserLocation receiver = s.serverId →
    ∃ t, s.connManager.getSessionByUsername receiver = some t ∧ s.connManager.canSend t = true
  there : s.userManager.getUserLocation receiver ≠ s.serverId →
    s.userManager.getUserLocation receiver > 0 →
      s.userManager.getUserLocation receiver ∈ s.connManager.peerNodes ∧
        (s.connManager.openLink (s.userManager.getUserLocation receiver)).isSome = true

/-! ## The three answers -/

variable {s k receiver text}

/-- A reply of a category other than that of the lists of online users. -/
theorem replies_append_reply {c : Bytes} (hc : NulFree c) (hs : c ≠ ascii "STATUS") (t : Bytes)
    (out : List Effect) :
    replies k (out ++ [.toSession k ⟨.statusUpdate, pack [c, t]⟩]) = replies k out ++ [c] := by
  have hcat : Effect.category k (.toSession k ⟨.statusUpdate, pack [c, t]⟩) = some c := by
    simp [Effect.category, unpack_pack_cons hc]
  rw [replies_append]
  congr 1
  show ((Effect.category k (.toSession k ⟨.statusUpdate, pack [c, t]⟩)).filter _).toList = [c]
  simp [hcat, Option.filter, hs]

theorem out_handlePrivateMsg_here {payload : Bytes} {fields : List Bytes}
    (hu : unpack payload = receiver :: text :: fields)
    (hl : s.userManager.getUserLocation receiver = s.serverId) :
    ((handlePrivateMsg k payload).run s).out =
      match s.connManager.getSessionByUsername receiver with
      | none => []
      | some t => [.toSession t ⟨.msgPrivate, pack [s.nameOf k, text]⟩] ++
          [.toSession k ⟨.statusUpdate,
            pack [ascii "SUCCESS", ascii "Message delivered to " ++ receiver]⟩] := by
  rw [handlePrivateMsg, hu]
  cases hr : s.connManager.getSessionByUsername receiver with
  | none => simp [hl, hr]
  | some t => simp [hl, hr, nameOf]

theorem out_handlePrivateMsg_there {payload : Bytes} {fields : List Bytes}
    (hu : unpack payload = receiver :: text :: fields)
    (hl : s.userManager.getUserLocation receiver ≠ s.serverId)
    (h0 : s.userManager.getUserLocation receiver > 0) :
    ((handlePrivateMsg k payload).run s).out =
      ((routePrivateMessage (s.nameOf k) receiver text
        (s.userManager.getUserLocation receiver)).run s).out ++
        [.toSession k ⟨.statusUpdate,
          pack [ascii "SUCCESS", ascii "Message routed to remote server"]⟩] := by
  rw [handlePrivateMsg, hu]
  simp [hl, h0, nameOf]

theorem out_handlePrivateMsg_offline {payload : Bytes} {fields : List Bytes}
    (hu : unpack payload = receiver :: text :: fields)
    (hl : s.userManager.getUserLocation receiver ≠ s.serverId)
    (h0 : ¬ s.userManager.getUserLocation receiver > 0) :
    ((handlePrivateMsg k payload).run s).out =
      [.toSession k ⟨.statusUpdate, pack [ascii "ERROR", ascii "User offline"]⟩] := by
  rw [handlePrivateMsg, hu]
  simp [hl, h0]

/-- Routing hands the frame to the peer if the peer has an open link. -/
theorem toPeer_mem_routePrivateMessage (sender : Bytes) (p : Int) :
    (∃ sock, .toPeer p sock ⟨.s2sRouteMsg, pack [sender, receiver, text]⟩ ∈
        ((routePrivateMessage sender receiver text p).run s).out) ↔
      p ∈ s.connManager.peerNodes ∧ (s.connManager.openLink p).isSome = true := by
  have hframes : framesOf ((routePrivateMessage sender receiver text p).run s).out =
      if p ∈ s.connManager.peerNodes
      then s.sends [p] ⟨.s2sRouteMsg, pack [sender, receiver, text]⟩ else [] := by
    by_cases hp : p ∈ s.connManager.peerNodes <;>
      simp [routePrivateMessage, ConnectionManager.hasPeerNode, hp, frames_sendToPeer]
  have hframe : ∀ sock, .toPeer p sock ⟨.s2sRouteMsg, pack [sender, receiver, text]⟩ ∈
      ((routePrivateMessage sender receiver text p).run s).out ↔
      .toPeer p sock ⟨.s2sRouteMsg, pack [sender, receiver, text]⟩ ∈
        framesOf ((routePrivateMessage sender receiver text p).run s).out :=
    fun sock => by simp [framesOf, Effect.isFrame]
  simp only [hframe, hframes]
  by_cases hp : p ∈ s.connManager.peerNodes
  · simp [hp, mem_sends, Option.isSome_iff_exists]
  · simp [hp]

/-- A message to a user on this server. -/
theorem acknowledged_here {payload : Bytes} {fields : List Bytes}
    (hu : unpack payload = receiver :: text :: fields)
    (hl : s.userManager.getUserLocation receiver = s.serverId) :
    s.Acknowledged k receiver text payload ↔
      ∃ t, s.connManager.getSessionByUsername receiver = some t ∧
        s.connManager.canSend t = true := by
  rw [Acknowledged, out_handlePrivateMsg_here hu hl]
  cases hr : s.connManager.getSessionByUsername receiver with
  | none => simp [replies]
  | some t =>
      have hsuccess : replies k ([.toSession t ⟨.msgPrivate, pack [s.nameOf k, text]⟩] ++
          [.toSession k ⟨.statusUpdate,
            pack [ascii "SUCCESS", ascii "Message delivered to " ++ receiver]⟩]) =
          [ascii "SUCCESS"] := by
        rw [replies_append_reply (by decide) (by decide), replies_eq_nil]
        · rfl
        · intro e he
          rw [List.mem_singleton.mp he]
          exact .inl (if_neg fun h => nomatch h.2)
      show (_ ∧ _) ∨ (_ ∧ _) ↔ _
      rw [hsuccess]
      simp [Handed, hr, show ascii "SUCCESS" ≠ ascii "ERROR" by decide]

/-- A message to a user on another server. -/
theorem acknowledged_there {payload : Bytes} {fields : List Bytes}
    (hu : unpack payload = receiver :: text :: fields)
    (hl : s.userManager.getUserLocation receiver ≠ s.serverId)
    (h0 : s.userManager.getUserLocation receiver > 0) :
    s.Acknowledged k receiver text payload ↔
      s.userManager.getUserLocation receiver ∈ s.connManager.peerNodes ∧
        (s.connManager.openLink (s.userManager.getUserLocation receiver)).isSome = true := by
  rw [Acknowledged, out_handlePrivateMsg_there hu hl h0]
  have hsuccess : replies k (((routePrivateMessage (s.nameOf k) receiver text
      (s.userManager.getUserLocation receiver)).run s).out ++ [.toSession k ⟨.statusUpdate,
        pack [ascii "SUCCESS", ascii "Message routed to remote server"]⟩]) =
      [ascii "SUCCESS"] := by
    rw [replies_append_reply (by decide) (by decide),
      replies_eq_nil (unanswered_routePrivateMessage k _ _ _ _ s)]
    rfl
  have hhere : ∀ t, ¬ .toSession t ⟨.msgPrivate, pack [s.nameOf k, text]⟩ ∈
      ((routePrivateMessage (s.nameOf k) receiver text
        (s.userManager.getUserLocation receiver)).run s).out := by
    intro t ht
    have hstatus : PacketType.msgPrivate = .statusUpdate :=
      emits_routePrivateMessage _ (s.nameOf k) receiver text s _ ht
    cases hstatus
  rw [← @toPeer_mem_routePrivateMessage s receiver text (s.nameOf k)]
  show (_ ∧ _) ∨ (_ ∧ _) ↔ _
  rw [hsuccess]
  simp [Handed, hhere, show ascii "SUCCESS" ≠ ascii "ERROR" by decide]

/-- A message to nobody. -/
theorem acknowledged_offline {payload : Bytes} {fields : List Bytes}
    (hu : unpack payload = receiver :: text :: fields)
    (hl : s.userManager.getUserLocation receiver ≠ s.serverId)
    (h0 : ¬ s.userManager.getUserLocation receiver > 0) :
    s.Acknowledged k receiver text payload := by
  rw [Acknowledged, out_handlePrivateMsg_offline hu hl h0]
  have herror := replies_append_reply (k := k) (c := ascii "ERROR") (by decide) (by decide)
    (ascii "User offline") []
  exact .inr ⟨by simp [Handed], herror⟩

/-- The sender is told what became of the message exactly if a location the server acts on
leads to a socket that takes the frame. -/
theorem acknowledged_iff (s : ChatServer) (k : ConnRef) {payload receiver text : Bytes}
    {fields : List Bytes} (hu : unpack payload = receiver :: text :: fields) :
    s.Acknowledged k receiver text payload ↔ s.Deliverable receiver := by
  by_cases hl : s.userManager.getUserLocation receiver = s.serverId
  · rw [acknowledged_here hu hl]
    exact ⟨fun h => ⟨fun _ => h, fun hne => absurd hl hne⟩, fun h => h.here hl⟩
  · by_cases h0 : s.userManager.getUserLocation receiver > 0
    · rw [acknowledged_there hu hl h0]
      exact ⟨fun h => ⟨fun he => absurd he hl, fun _ _ => h⟩, fun h => h.there hl h0⟩
    · exact iff_of_true (acknowledged_offline hu hl h0)
        ⟨fun he => absurd he hl, fun _ hpos => absurd hpos h0⟩

/-- A server connected to peer 2, with `ann` logged in and `bob` on the peer. -/
def withAnnAndBob : ChatServer :=
  let dialed := ((connectPeer 2 4).run (configured 1 [2])).state
  let accepted := ((acceptConnection 5).run dialed).state
  let withAnn := ((handleClientPacket 1 ⟨.login, ascii "ann"⟩).run accepted).state
  ((handleServerPacket 2 ⟨.s2sReplicateUser, replicationPayload (ascii "bob") 2 true⟩).run
    withAnn).state

/-- `ann` writes to `bob` over the open link. -/
theorem acknowledged_iff_bob :
    withAnnAndBob.Acknowledged 1 (ascii "bob") (ascii "hi") (pack [ascii "bob", ascii "hi"]) :=
  (acknowledged_iff withAnnAndBob 1 (by decide :
    unpack (pack [ascii "bob", ascii "hi"]) = [ascii "bob", ascii "hi"])).mpr
    ⟨fun he => absurd he (by decide +kernel), fun _ _ => by decide +kernel⟩

/-- With the link cut off, `ann` writes to `bob` and is told that the message was routed. -/
theorem not_acknowledged :
    ¬ ∀ (s : ChatServer) (k : ConnRef) (payload receiver text : Bytes) (fields : List Bytes),
      unpack payload = receiver :: text :: fields → s.Acknowledged k receiver text payload := by
  intro h
  have hack := h (withAnnAndBob.cutOff 0) 1 (pack [ascii "bob", ascii "hi"]) (ascii "bob")
    (ascii "hi") [] (by decide)
  -- the failed send disconnects the peer, so `ann` is also sent a list of the users left
  have hout : ((handlePrivateMsg 1 (pack [ascii "bob", ascii "hi"])).run
      (withAnnAndBob.cutOff 0)).out =
      [.toSession 1 ⟨.statusUpdate, pack [ascii "STATUS", pack [ascii "ann"]]⟩,
        .toSession 1 ⟨.statusUpdate,
          pack [ascii "SUCCESS", ascii "Message routed to remote server"]⟩] := by decide +kernel
  rw [Acknowledged, hout] at hack
  rcases hack with ⟨hh, -⟩ | ⟨-, hr⟩
  · simp [Handed] at hh
  · exact absurd hr (by decide)

end

end ChatServer

end DistributedChat
