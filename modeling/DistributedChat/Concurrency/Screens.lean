import DistributedChat.Client.Screen
import DistributedChat.Logic.Guarantees
import DistributedChat.Server.Threads

/-!
# What a server makes its clients show

A client reads past the fields of a status update that is a category alone, and leaves
packets with too few fields out without a word.  The server sends no such packets: every
packet it packs has the fields that its type asks for, also when a name or a text has a
NUL in it, since a NUL only adds fields (`length_le_unpack_pack`).

So whatever the threads of a server do, a client shows every packet whose frame was sent
to its session as a whole, in the order in which the frames were sent, and nothing else
(`screen_shows_what_is_sent`).
-/

namespace DistributedChat

/-! ## Packets with all their fields -/

theorem length_le_unpack_pack (fields : List Bytes) :
    fields.length ≤ (unpack (pack fields)).length := by
  rw [unpack_pack_eq_flatMap]
  induction fields with
  | nil => exact Nat.le_refl 0
  | cons f fs ih =>
      have hpos := List.length_pos_iff.mpr (List.splitOn_ne_nil nul f)
      rw [List.flatMap_cons, List.length_append, List.length_cons]
      omega

namespace ChatClient

/-- The client handles the packet and prints something. -/
def Shows (pkt : RawPacket) : Prop := ∃ pieces, handlePacket pkt = some pieces ∧ pieces ≠ []

/-- A packet that is shown is of one of the types for clients. -/
theorem Shows.type {pkt : RawPacket} (h : Shows pkt) : ∃ b, pkt.type = .ofByte b := by
  obtain ⟨type, payload⟩ := pkt
  obtain ⟨pieces, hpieces, hne⟩ := h
  cases type with
  | loginResp => exact ⟨2, rfl⟩
  | msgPrivate => exact ⟨3, rfl⟩
  | msgRoom => exact ⟨4, rfl⟩
  | msgBroadcast => exact ⟨5, rfl⟩
  | statusUpdate => exact ⟨9, rfl⟩
  | _ =>
      cases hpieces
      exact absurd rfl hne

section

variable {x y z : Bytes}

/-- Two fields, and others behind them. -/
theorem unpack_pack_two (x y : Bytes) : ∃ a b more, unpack (pack [x, y]) = a :: b :: more := by
  have hlen := length_le_unpack_pack [x, y]
  match h : unpack (pack [x, y]) with
  | [] | [_] =>
      rw [h] at hlen
      simp at hlen
  | a :: b :: more => exact ⟨a, b, more, rfl⟩

theorem shows_loginResp (x y : Bytes) : Shows ⟨.loginResp, pack [x, y]⟩ := by
  obtain ⟨a, b, more, h⟩ := unpack_pack_two x y
  by_cases ha : a = ascii "1" <;> simp [Shows, handlePacket, h, ha]

theorem shows_msgPrivate (x y : Bytes) : Shows ⟨.msgPrivate, pack [x, y]⟩ := by
  obtain ⟨a, b, more, h⟩ := unpack_pack_two x y
  simp [Shows, handlePacket, h]

theorem shows_msgRoom (x y z : Bytes) : Shows ⟨.msgRoom, pack [x, y, z]⟩ := by
  have hlen := length_le_unpack_pack [x, y, z]
  match h : unpack (pack [x, y, z]) with
  | [] | [_] | [_, _] =>
      rw [h] at hlen
      simp at hlen
  | a :: b :: c :: more => simp [Shows, handlePacket, h]

theorem shows_msgBroadcast (payload : Bytes) : Shows ⟨.msgBroadcast, payload⟩ := by
  match h : unpack payload with
  | [] | [_] | _ :: _ :: _ => simp [Shows, handlePacket, h]

/-- A status update of one of the categories, with a text. -/
theorem shows_statusUpdate (hx : x = ascii "STATUS" ∨ x ∈ textCategories) (y : Bytes) :
    Shows ⟨.statusUpdate, pack [x, y]⟩ := by
  have hfree : NulFree x := by
    rcases hx with rfl | hx
    · decide
    · revert x
      decide
  have hlen := length_le_unpack_pack [y]
  match h : unpack (pack [y]) with
  | [] =>
      rw [h] at hlen
      simp at hlen
  | b :: more =>
      have hfields : unpack (pack [x, y]) = x :: b :: more := by rw [unpack_pack_cons hfree, h]
      have hother : ascii "SUCCESS" ≠ ascii "STATUS" ∧ ascii "INFO" ≠ ascii "STATUS" ∧
          ascii "ERROR" ≠ ascii "STATUS" ∧ ascii "INFO" ≠ ascii "SUCCESS" ∧
          ascii "ERROR" ≠ ascii "SUCCESS" ∧ ascii "ERROR" ≠ ascii "INFO" := by decide
      simp only [textCategories, List.mem_cons, List.not_mem_nil, or_false] at hx
      simp only [Shows, handlePacket, hfields, printStatus]
      rcases hx with rfl | rfl | rfl | rfl <;> simp [hother]

end

end ChatClient

/-- The client the packet is sent to shows it. -/
def Effect.Shown : Effect → Prop
  | .toSession _ pkt => ChatClient.Shows pkt
  | .toPeer _ _ _ => True

namespace ChatServer

open ChatClient
open Prog (observe update each Upholds upholds_pure)

/-! ## What the functions of a server send -/

/-- In whatever states its sections take place, the program sends what the clients show. -/
abbrev Displays {α : Type} (prog : ServerProg α) : Prop :=
  prog.Upholds (fun _ => True) Effect.Shown

section

variable {α β : Type} {k : ConnRef} {p : Int} {t : PacketType} {pl : Bytes}

theorem displays_observe {f : ChatServer → α} {q : α → ServerProg β} (h : ∀ a, Displays (q a)) :
    Displays (observe f >>= q) :=
  Prog.upholds_observe_bind fun s _ => h (f s)

theorem displays_update {f : ChatServer → ChatServer} {q : Unit → ServerProg β}
    (h : Displays (q ())) : Displays (update f >>= q) :=
  Upholds.bind (Prog.upholds_update fun _ _ => trivial) fun _ => h

theorem displays_updated (f : ChatServer → ChatServer) : Displays (update f) :=
  Prog.upholds_update fun _ _ => trivial

theorem displays_sendPacket (h : Shows ⟨t, pl⟩) {q : Bool → ServerProg β}
    (hq : ∀ sent, Displays (q sent)) : Displays (sendPacket k t pl >>= q) := by
  refine Upholds.bind (fun s _ => ⟨trivial, fun e he => ?_, trivial⟩) hq
  rw [List.mem_singleton.mp he]
  exact h

theorem displays_reply (h : Shows ⟨t, pl⟩) : Displays (sendPacket k t pl >>= fun _ => pure ()) :=
  displays_sendPacket h fun _ => upholds_pure ()

theorem displays_notifyOnlineUsers (skip : Option SOCKET) : Displays (notifyOnlineUsers skip) := by
  refine displays_observe fun sessions => displays_observe fun onlineList =>
    Upholds.each (fun k => ?_) _
  refine displays_observe fun authenticated => displays_observe fun handle => ?_
  exact .ite (fun _ => displays_reply (shows_statusUpdate (.inl rfl) _)) fun _ => upholds_pure ()

theorem displays_sendToMembers (h : Shows ⟨t, pl⟩) (members : List Bytes) :
    Displays (sendToMembers members t pl) := by
  refine Upholds.each (fun name => displays_observe fun session => ?_) _
  cases session with
  | none => exact upholds_pure ()
  | some k => exact displays_reply h

theorem displays_sendToAuthenticated (h : Shows ⟨t, pl⟩) : Displays (sendToAuthenticated t pl) := by
  refine displays_observe fun sessions => Upholds.each (fun k => displays_observe fun _ => ?_) _
  exact .ite (fun _ => displays_reply h) fun _ => upholds_pure ()

/-! ### Sends to peers -/

theorem displays_handlePeerDisconnect (p : Int) : Displays (handlePeerDisconnect p) := by
  have hpurge : Displays (do
      update fun s => s.onConn (·.unregisterPeerSocket p s.now)
      update (onUsers (·.clearServerUsers p))
      update (onRooms (·.clearServerMemberships p))
      notifyOnlineUsers none) :=
    displays_update (displays_update (displays_update (displays_notifyOnlineUsers none)))
  refine displays_observe fun peer => displays_observe fun connected => .ite (fun _ => ?_)
    fun _ => upholds_pure ()
  refine displays_observe fun socket => ?_
  cases socket with
  | none => exact hpurge
  | some k => exact displays_update hpurge

theorem displays_sendFrame {q : Bool → ServerProg β} (hq : ∀ sent, Displays (q sent)) :
    Displays (sendFrame p k t pl >>= q) := by
  refine Upholds.bind (fun s _ => ⟨trivial, fun e he => ?_, trivial⟩) hq
  change e ∈ (if s.connManager.canSend k = true then [.toPeer p k ⟨t, pl⟩] else []) at he
  split at he
  · rw [List.mem_singleton.mp he]
    trivial
  · exact absurd he List.not_mem_nil

theorem displays_sendOrDisconnect (p : Int) (t : PacketType) (pl : Bytes) :
    Displays (sendOrDisconnect p t pl) := by
  refine displays_observe fun socket => ?_
  cases socket with
  | none => exact upholds_pure ()
  | some k =>
      exact displays_sendFrame fun _ =>
        .ite (fun _ => upholds_pure ()) fun _ => displays_handlePeerDisconnect p

theorem displays_sendToPeer (p : Int) (t : PacketType) (pl : Bytes) :
    Displays (sendToPeer p t pl) :=
  displays_observe fun _ =>
    .ite (fun _ => displays_sendOrDisconnect p t pl) fun _ => upholds_pure ()

theorem displays_broadcastS2S (t : PacketType) (pl : Bytes) : Displays (broadcastS2S t pl) :=
  displays_observe fun _ => Upholds.each (fun p => displays_sendToPeer p t pl) _

theorem displays_toPresent (ps : List Int) (t : PacketType) (pl : Bytes) :
    Displays (each ps fun p => do
      let peer ← observe (·.connManager.hasPeerNode p)
      if peer = true then sendToPeer p t pl) :=
  Upholds.each (fun p => displays_observe fun _ => .ite (fun _ => displays_sendToPeer p t pl)
    fun _ => upholds_pure ()) _

/-! ### The handlers -/

/-- A status update with a text. -/
theorem shows_text {cat : Bytes} (text : Bytes) (h : cat ∈ textCategories) :
    Shows ⟨.statusUpdate, pack [cat, text]⟩ :=
  shows_statusUpdate (.inr h) text

theorem displays_handleLogin (k : ConnRef) (payload : Bytes) :
    Displays (handleLogin k payload) := by
  refine .ite (fun _ => displays_reply (shows_loginResp ..)) fun _ => ?_
  refine displays_observe fun online =>
    .ite (fun _ => displays_reply (shows_loginResp ..)) fun _ => ?_
  refine displays_update (displays_update (displays_sendPacket (shows_loginResp ..) fun _ => ?_))
  have hreplicate : Displays (replicateUserLogin (trim payload)) :=
    displays_observe fun _ => displays_broadcastS2S _ _
  exact hreplicate.bind fun _ => displays_notifyOnlineUsers none

theorem displays_handlePrivateMsg (k : ConnRef) (payload : Bytes) :
    Displays (handlePrivateMsg k payload) := by
  rw [handlePrivateMsg]
  split
  next receiver text fields hu =>
    refine displays_observe fun sender => displays_observe fun location =>
      displays_observe fun id => .ite (fun _ => ?_) fun _ => .ite (fun _ => ?_) fun _ => ?_
    · refine displays_observe fun targetSession => ?_
      cases targetSession with
      | none => exact upholds_pure ()
      | some t =>
          exact displays_sendPacket (shows_msgPrivate ..) fun _ =>
            displays_reply (shows_text _ (by decide))
    · have hroute : Displays (routePrivateMessage sender receiver text location) :=
        displays_observe fun _ => .ite (fun _ => displays_sendToPeer _ _ _) fun _ => upholds_pure ()
      exact hroute.bind fun _ => displays_reply (shows_text _ (by decide))
    · exact displays_reply (shows_text _ (by decide))
  next => exact upholds_pure ()

theorem displays_handleRoomMsg (k : ConnRef) (payload : Bytes) :
    Displays (handleRoomMsg k payload) := by
  rw [handleRoomMsg]
  split
  next room text fields hu =>
    refine displays_observe fun sender => displays_observe fun joined => .ite (fun _ => ?_)
      fun _ => displays_reply (shows_text _ (by decide))
    refine displays_observe fun locals => ?_
    exact (displays_sendToMembers (shows_msgRoom ..) locals).bind fun _ =>
      displays_observe fun ps => displays_toPresent ps _ _
  next => exact upholds_pure ()

theorem displays_handleBroadcastMsg (k : ConnRef) (payload : Bytes) :
    Displays (handleBroadcastMsg k payload) :=
  displays_observe fun _ => (displays_sendToAuthenticated (shows_msgBroadcast _)).bind fun _ =>
    displays_broadcastS2S _ _

theorem displays_handleRoomJoin (k : ConnRef) (payload : Bytes) :
    Displays (handleRoomJoin k payload) := by
  refine displays_observe fun username => .ite (fun _ => upholds_pure ()) fun _ => ?_
  refine displays_update (displays_observe fun before => displays_update ?_)
  refine displays_sendPacket (shows_text _ (by decide)) fun _ => displays_observe fun locals => ?_
  refine (displays_sendToMembers (shows_text _ (by decide)) locals).bind fun _ => ?_
  exact .ite (fun _ => displays_observe fun _ => displays_broadcastS2S _ _) fun _ => upholds_pure ()

theorem displays_handleRoomLeave (k : ConnRef) (payload : Bytes) :
    Displays (handleRoomLeave k payload) := by
  refine displays_observe fun username => displays_observe fun joined =>
    .ite (fun _ => upholds_pure ()) fun _ => displays_update (displays_update ?_)
  refine displays_sendPacket (shows_text _ (by decide)) fun _ => displays_observe fun locals => ?_
  refine (displays_sendToMembers (shows_text _ (by decide)) locals).bind fun _ => ?_
  exact .ite (fun _ => displays_observe fun _ => displays_broadcastS2S _ _) fun _ => upholds_pure ()

theorem displays_promote (k : ConnRef) (payload : Bytes) : Displays (promote k payload) := by
  rw [promote]
  cases stoi payload with
  | none => exact upholds_pure ()
  | some peerId =>
      refine displays_observe fun handle => displays_update (displays_update ?_)
      exact displays_observe fun peerNode =>
        .ite (fun _ => displays_update (displays_updated _)) fun _ => upholds_pure ()

theorem displays_handleClientPacket (k : ConnRef) (pkt : RawPacket) :
    Displays (handleClientPacket k pkt) := by
  refine displays_observe fun authenticated =>
    .ite (fun _ => displays_reply (shows_loginResp ..)) fun _ => ?_
  cases pkt.type with
  | login => exact displays_handleLogin k pkt.payload
  | msgPrivate => exact displays_handlePrivateMsg k pkt.payload
  | msgRoom => exact displays_handleRoomMsg k pkt.payload
  | msgBroadcast => exact displays_handleBroadcastMsg k pkt.payload
  | roomJoin => exact displays_handleRoomJoin k pkt.payload
  | roomLeave => exact displays_handleRoomLeave k pkt.payload
  | roomCreate =>
      exact .ite (fun _ => upholds_pure ()) fun _ => displays_reply (shows_text _ (by decide))
  | s2sConnect => exact displays_promote k pkt.payload
  | _ => exact upholds_pure ()

theorem displays_handleServerPacket (p : Int) (pkt : RawPacket) :
    Displays (handleServerPacket p pkt) := by
  refine displays_update ?_
  cases pkt.type with
  | s2sHeartbeat =>
      refine displays_observe fun id => displays_observe fun socket => ?_
      cases socket with
      | none => exact upholds_pure ()
      | some k => exact displays_sendFrame fun _ => upholds_pure ()
  | s2sReplicateUser =>
      show Displays (handleS2SReplicateUser pkt.payload)
      rw [handleS2SReplicateUser]
      split
      next =>
        split
        · exact upholds_pure ()
        · have hnotify := displays_notifyOnlineUsers none
          exact .ite (fun _ => displays_update hnotify) fun _ => displays_update hnotify
      next => exact upholds_pure ()
  | s2sRouteMsg =>
      show Displays (handleS2SRouteMsg pkt.payload)
      rw [handleS2SRouteMsg]
      split
      next =>
        refine displays_observe fun session => ?_
        cases session with
        | none => exact upholds_pure ()
        | some t => exact displays_reply (shows_msgPrivate ..)
      next => exact displays_sendToAuthenticated (shows_msgBroadcast _)
      next => exact upholds_pure ()
  | s2sRouteRoomMsg =>
      show Displays (handleS2SRouteRoomMsg pkt.payload)
      rw [handleS2SRouteRoomMsg]
      split
      next => exact displays_observe fun locals => displays_sendToMembers (shows_msgRoom ..) locals
      next => exact upholds_pure ()
  | s2sRoomMemberSync =>
      show Displays (handleS2SRoomMemberSync pkt.payload)
      rw [handleS2SRoomMemberSync]
      split
      next =>
        split
        · exact upholds_pure ()
        · exact .ite (fun _ => displays_updated _) fun _ => displays_updated _
      next => exact upholds_pure ()
  | _ => exact upholds_pure ()

/-! ### The loops of the other threads -/

theorem displays_clientDisconnect (k : ConnRef) : Displays (clientDisconnect k) := by
  refine displays_observe fun handle => displays_observe fun username => .ite (fun _ => ?_) fun _ =>
    displays_updated _
  have hreplicate : Displays (replicateUserLogout username) :=
    displays_observe fun _ => displays_broadcastS2S _ _
  exact displays_update (hreplicate.bind fun _ =>
    (displays_notifyOnlineUsers _).bind fun _ => displays_updated _)

theorem displays_heartbeatRound : Displays heartbeatRound := by
  refine displays_observe fun peers => displays_observe fun now => Upholds.each (fun p => ?_) peers
  refine displays_observe fun node => .ite (fun _ => .ite (fun _ => ?_) fun _ => ?_)
    fun _ => upholds_pure ()
  · exact displays_handlePeerDisconnect p
  · exact displays_observe fun id => displays_sendOrDisconnect _ _ _

theorem displays_peerConnected (p : Int) (sock : ConnRef) : Displays (peerConnected p sock) :=
  displays_update (displays_update (displays_update (displays_observe fun _ =>
    displays_sendFrame fun _ => upholds_pure ())))

/-- Whatever a thread has to do, the clients show what it sends. -/
theorem displays_prog (w : Work) : Displays w.prog := by
  cases w with
  | task t =>
      cases t with
      | client k pkt => exact displays_handleClientPacket k pkt
      | peer p k pkt => exact displays_handleServerPacket p pkt
  | clientGone k => exact displays_clientDisconnect k
  | peerGone p => exact displays_handlePeerDisconnect p
  | heartbeats => exact displays_heartbeatRound
  | connected p sock => exact displays_peerConnected p sock

end

end ChatServer

namespace Threads

open ChatServer

/-! ## Runs of the threads -/

variable {n : Nat}

/-- The clients show what was sent, and they will show what the programs send that wait or run. -/
structure Displayed (c : Threads n) : Prop where
  accounting : ∃ seen, Pool.Accounting (fun _ => True) (fun _ _ => Effect.Shown) seen c.toPool
  out : ∀ e ∈ c.out, e.Shown

section

variable {c c' : Threads n}

theorem displayed_idle (s : ChatServer) : (idle s : Threads n).Displayed where
  accounting := ⟨fun _ => [], trivial, fun _ hj => absurd hj List.not_mem_nil,
    fun _ _ hj => nomatch hj⟩
  out := fun _ he => absurd he List.not_mem_nil

/-- The server changes, and the pool does not. -/
theorem Displayed.setState (h : c.Displayed) (s : ChatServer) :
    Displayed { c with state := s } := by
  obtain ⟨seen, hacc⟩ := h.accounting
  exact ⟨⟨seen, trivial, hacc.queue, hacc.running⟩, h.out⟩

theorem Displayed.setSnapshot (h : c.Displayed) (ks : List ConnRef) :
    Displayed { c with snapshot := ks } :=
  ⟨h.accounting, h.out⟩

/-- Every program of a server accounts for what clients show. -/
theorem accounts_shown (w : Work) :
    w.prog.Accounts (fun _ => True) (fun _ => Effect.Shown) [] :=
  (displays_prog w).accounts fun _ _ he => he

theorem Displayed.launch (h : c.Displayed) {t : Thread n} {w : Work}
    (hn : c.launch t w = some c') : c'.Displayed := by
  obtain ⟨P, hP, rfl⟩ := Option.map_eq_some_iff.mp hn
  obtain ⟨seen, hacc⟩ := h.accounting
  refine ⟨⟨_, hacc.launch (accounts_shown w) hP⟩, ?_⟩
  obtain ⟨-, rfl⟩ := Pool.launch_eq_some.mp hP
  exact h.out

theorem Displayed.next (h : c.Displayed) {a : ThreadAction n} (hn : c.next a = some c') :
    c'.Displayed := by
  obtain ⟨seen, hacc⟩ := h.accounting
  cases a with
  | take i =>
      obtain ⟨P, hP, rfl⟩ := Option.map_eq_some_iff.mp hn
      refine ⟨⟨_, hacc.take hP⟩, ?_⟩
      obtain ⟨j, rest, -, -, rfl⟩ := Pool.take_eq_some.mp hP
      exact h.out
  | run t =>
      obtain ⟨P, hP, rfl⟩ := Option.map_eq_some_iff.mp hn
      refine ⟨⟨_, hacc.advance hP⟩, ?_⟩
      obtain ⟨j, sec, hj, hsec, rfl⟩ := Pool.advance_eq_some.mp hP
      exact List.forall_mem_append.mpr ⟨h.out, hacc.out hj hsec⟩
  | finish t =>
      obtain ⟨P, hP, rfl⟩ := Option.map_eq_some_iff.mp hn
      refine ⟨⟨_, hacc.finish hP⟩, ?_⟩
      obtain ⟨j, -, -, rfl⟩ := Pool.finish_eq_some.mp hP
      exact h.out
  | accept handle =>
      obtain ⟨-, heq⟩ := Option.ite_none_right_eq_some.mp hn
      cases heq
      exact h.setState _
  | scan | read k pkt =>
      obtain ⟨-, heq⟩ := Option.ite_none_right_eq_some.mp hn
      cases heq
      exact ⟨h.accounting, h.out⟩
  | hangUp k | hangUpPeer p =>
      obtain ⟨-, hl⟩ := Option.ite_none_right_eq_some.mp hn
      exact (h.setSnapshot _).launch hl
  | readPeer p pkt =>
      simp only [Threads.next] at hn
      split at hn
      · cases hn
      · obtain ⟨-, heq⟩ := Option.ite_none_right_eq_some.mp hn
        cases heq
        exact ⟨h.accounting, h.out⟩
  | enqueue =>
      simp only [Threads.next] at hn
      split at hn
      · cases hn
      · cases hn
        exact ⟨⟨_, hacc.submit (accounts_shown _)⟩, h.out⟩
  | clock now =>
      obtain ⟨-, heq⟩ := Option.ite_none_right_eq_some.mp hn
      cases heq
      exact h.setState _
  | beat => exact h.launch hn
  | dial p handle =>
      obtain ⟨-, hl⟩ := Option.ite_none_right_eq_some.mp hn
      exact (h.setState _).launch hl

end

/-- In every run of a server's threads, whatever is sent to a session is shown by its client. -/
theorem shows_of_run {s : ChatServer} {as : List (ThreadAction n)} {c : Threads n}
    (hrun : exec next (idle s) as = some c) {k : ConnRef} {pkt : RawPacket}
    (h : .toSession k pkt ∈ c.out) : ChatClient.Shows pkt :=
  (exec_invariant (I := Displayed) (fun h hn => h.next hn) (displayed_idle s) hrun).out _ h

end Threads

open ChatClient SessionSends in
/-- **What a client sees.**  Take any run of a server's threads, any calls of `SendPacket` it makes
on one session with packets of admissible size, any run of these calls, and a client to which the
first part of the bytes of the session arrive in any segments before its connection ends.  Every
packet is one the client prints something for.  The client prints the first of the packets whose
calls have returned `true`, in the order in which the calls took the mutex, and then that the
connection is lost.  If all bytes arrive, it prints all these packets. -/
theorem screen_shows_what_is_sent {n : Nat} {s : ChatServer} {as : List (ThreadAction n)}
    {c : Threads n} (hthreads : exec Threads.next (Threads.idle s) as = some c) (k : ConnRef)
    {ι : Type} [DecidableEq ι] {call : ι → RawPacket}
    (hcall : ∀ i, .toSession k (call i) ∈ c.out ∧ (call i).payload.length ≤ maxPayloadSize - 1)
    {hasSocket : Bool} {run : List (SendAction ι)} {d : SessionSends ι}
    (hrun : exec (next fun i => (call i).frame) { hasSocket } run = some d)
    (hfree : d.holder = none) {bytes : List Arrival} (hbytes : Arrival.content bytes <+: d.stream)
    {turns : Nat} (hturns : (acquired run).length < turns) :
    (∀ i, Shows (call i)) ∧
      ∃ read, read <+: ((acquired run).filter fun i => d.returned i = some true) ∧
        receiveLoop turns bytes = some ((read.flatMap fun i => shown (call i)) ++ [lostMessage]) ∧
        (.failure ∉ bytes → Arrival.content bytes = d.stream →
          read = (acquired run).filter fun i => d.returned i = some true) := by
  have hshows (i : ι) : Shows (call i) := Threads.shows_of_run hthreads (hcall i).1
  refine ⟨hshows, receiveLoop_session (fun i => ⟨⟨(hshows i).type, (hcall i).2⟩, ?_⟩) hrun hfree
    hbytes hturns⟩
  obtain ⟨pieces, hpieces, -⟩ := hshows i
  rw [hpieces]
  rfl

/-- Ann connects to a server and logs in. -/
def annEnters : List (ThreadAction 1) :=
  [.accept 5, .scan, .read 0 ⟨.login, ascii "ann"⟩, .enqueue, .take 0] ++
    List.replicate 5 (.run (.worker 0))

/-- The answer to her login. -/
def welcome : RawPacket :=
  ⟨.loginResp, pack [ascii "1", ascii "Welcome to Distributed Chat!"]⟩

open ChatServer ChatClient SessionSends in
theorem screen_shows_what_is_sent_welcome :
    let run : List (SendAction Unit) := [.acquire (), .taken 40, .finish]
    ∃ c d, exec Threads.next (Threads.idle (configured 1 [])) annEnters = some c ∧
      exec (next fun _ => welcome.frame) { hasSocket := true } run = some d ∧
      ((∀ _ : Unit, Shows welcome) ∧
        ∃ read, read <+: ((acquired run).filter fun i => d.returned i = some true) ∧
          receiveLoop 2 [.segment welcome.frame (frame_ne_nil _)] =
            some ((read.flatMap fun _ => shown welcome) ++ [lostMessage]) ∧
          (.failure ∉ [Arrival.segment welcome.frame (frame_ne_nil _)] →
            Arrival.content [.segment welcome.frame (frame_ne_nil _)] = d.stream →
            read = (acquired run).filter fun i => d.returned i = some true)) := by
  intro run
  have hc : (exec Threads.next (Threads.idle (configured 1 [])) annEnters).any fun c =>
      decide (.toSession 0 welcome ∈ c.out) := by decide +kernel
  have hd : (exec (next fun _ => welcome.frame) { hasSocket := true } run).any fun d =>
      decide (d.holder = none ∧
        Arrival.content [.segment welcome.frame (frame_ne_nil _)] = d.stream) := by decide +kernel
  obtain ⟨c, hthreads, hout⟩ := (Option.any_eq_true ..).mp hc
  obtain ⟨d, hrun, hd⟩ := (Option.any_eq_true ..).mp hd
  obtain ⟨hfree, hstream⟩ := of_decide_eq_true hd
  refine ⟨c, d, hthreads, hrun, ?_⟩
  exact screen_shows_what_is_sent hthreads 0 (fun _ => ⟨of_decide_eq_true hout, by decide⟩) hrun
    hfree (hstream ▸ List.prefix_rfl) (by decide)

end DistributedChat
