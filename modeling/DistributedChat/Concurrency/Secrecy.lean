import DistributedChat.Logic.Alike
import DistributedChat.Server.Threads

/-!
# Who learns the text of a message

The server looks at the receiver of a private message and at the room of a room
message, and never at the text.  So two runs of a server's threads in which the same
packets are read, but for the texts of messages to certain users and rooms, go through
the same states, and what is sent differs in these texts only (`texts_stay_in_circle`).
It differs for nobody but the sessions filed under the names of those users and of the
members of those rooms, whatever the threads do in between.  These are not only the
sessions that bear such a name: one that has logged in again under another name is still
filed under the first.

`Circle` says who is meant: the users, the rooms and the sessions that may learn a
text.  A text is packed again for every server and session it is passed to, and
`Veiled` relates what the two runs read, send and do.
-/

namespace DistributedChat

/-- Those who may learn a text. -/
structure Circle where
  users : Bytes → Prop
  rooms : Bytes → Prop
  sessions : ConnRef → Prop

/-- The packets are the same but for the text of a message to a user or room of the circle. -/
inductive RawPacket.Veiled (C : Circle) : RawPacket → RawPacket → Prop
  | same (pkt : RawPacket) : Veiled C pkt pkt
  /-- A client's message to a user. -/
  | direct {receiver t t' : Bytes} {more more' : List Bytes} {pl pl' : Bytes}
      (hr : C.users receiver) (h : unpack pl = receiver :: t :: more)
      (h' : unpack pl' = receiver :: t' :: more') : Veiled C ⟨.msgPrivate, pl⟩ ⟨.msgPrivate, pl'⟩
  /-- A client's message to a room. -/
  | room {room t t' : Bytes} {more more' : List Bytes} {pl pl' : Bytes}
      (hr : C.rooms room) (h : unpack pl = room :: t :: more)
      (h' : unpack pl' = room :: t' :: more') : Veiled C ⟨.msgRoom, pl⟩ ⟨.msgRoom, pl'⟩
  /-- A message to a user on its way to another server. -/
  | routed {sender receiver t t' : Bytes} (hr : C.users receiver) (hn : NulFree receiver)
      (ht : NulFree t) (ht' : NulFree t') :
      Veiled C ⟨.s2sRouteMsg, pack [sender, receiver, t]⟩
        ⟨.s2sRouteMsg, pack [sender, receiver, t']⟩
  /-- A message to a room on its way to another server. -/
  | routedRoom {sender room t t' : Bytes} (hr : C.rooms room) (hn : NulFree room)
      (ht : NulFree t) (ht' : NulFree t') :
      Veiled C ⟨.s2sRouteRoomMsg, pack [sender, room, t]⟩
        ⟨.s2sRouteRoomMsg, pack [sender, room, t']⟩

/-- The outputs are the same but for a text that the session may learn, or a peer passes on. -/
inductive Effect.Veiled (C : Circle) : Effect → Effect → Prop
  | same (e : Effect) : Veiled C e e
  /-- A message to a user. -/
  | direct {k : ConnRef} (hk : C.sessions k) (sender t t' : Bytes) :
      Veiled C (.toSession k ⟨.msgPrivate, pack [sender, t]⟩)
        (.toSession k ⟨.msgPrivate, pack [sender, t']⟩)
  /-- A message to a room. -/
  | room {k : ConnRef} {room : Bytes} (hk : C.sessions k) (hr : C.rooms room)
      (sender t t' : Bytes) :
      Veiled C (.toSession k ⟨.msgRoom, pack [sender, room, t]⟩)
        (.toSession k ⟨.msgRoom, pack [sender, room, t']⟩)
  | toPeer {pkt pkt' : RawPacket} (p : Int) (sock : ConnRef) (h : pkt.Veiled C pkt') :
      Veiled C (.toPeer p sock pkt) (.toPeer p sock pkt')

namespace ChatServer

open Prog (observe update Alike alike_observe_bind)

/-- Whoever is filed under the name of a user or of a member of a room of the circle is in it. -/
structure Within (C : Circle) (s : ChatServer) : Prop where
  filed : ∀ u, C.users u → ∀ k, s.connManager.getSessionByUsername u = some k → C.sessions k
  members : ∀ r, C.rooms r → ∀ u ∈ s.roomManager.getLocalMembers r, C.users u

/-- The programs send the same but for texts of the circle. -/
abbrev Discreet {α : Type} (C : Circle) (prog prog' : ServerProg α) : Prop :=
  prog.Alike (Within C) (Effect.Veiled C) prog'

section

variable {C : Circle} {k : ConnRef} {p : Int} {pl pl' : Bytes} {pkt pkt' : RawPacket}

theorem discreet_refl {α : Type} (prog : ServerProg α) : Discreet C prog prog :=
  .refl Effect.Veiled.same prog

theorem discreet_sendPacket {t : PacketType}
    (h : Effect.Veiled C (.toSession k ⟨t, pl⟩) (.toSession k ⟨t, pl'⟩)) :
    Discreet C (sendPacket k t pl) (sendPacket k t pl') :=
  fun _ _ => ⟨rfl, .cons h .nil, rfl⟩

/-- A message to a session of the circle. -/
theorem discreet_deliver {t : PacketType}
    (h : Effect.Veiled C (.toSession k ⟨t, pl⟩) (.toSession k ⟨t, pl'⟩))
    {prog : Bool → ServerProg Unit} :
    Discreet C (sendPacket k t pl >>= prog) (sendPacket k t pl' >>= prog) :=
  (discreet_sendPacket h).bind fun b => discreet_refl (prog b)

theorem discreet_sendFrame {t : PacketType} (h : RawPacket.Veiled C ⟨t, pl⟩ ⟨t, pl'⟩) :
    Discreet C (sendFrame p k t pl) (sendFrame p k t pl') := by
  refine fun s _ => ⟨rfl, ?_, rfl⟩
  show List.Forall₂ (Effect.Veiled C)
    (if s.connManager.canSend k = true then [Effect.toPeer p k ⟨t, pl⟩] else [])
    (if s.connManager.canSend k = true then [Effect.toPeer p k ⟨t, pl'⟩] else [])
  split
  · exact .cons (.toPeer p k h) .nil
  · exact .nil

theorem discreet_sendToPeer {t : PacketType} (h : RawPacket.Veiled C ⟨t, pl⟩ ⟨t, pl'⟩) :
    Discreet C (sendToPeer p t pl) (sendToPeer p t pl') := by
  refine alike_observe_bind fun s _ => .ite (fun _ => ?_) fun _ => discreet_refl _
  refine alike_observe_bind fun s' _ => ?_
  cases (s'.connManager.nodes p).socket with
  | none => exact discreet_refl _
  | some sock => exact (discreet_sendFrame h).bind fun _ => discreet_refl _

theorem discreet_routePrivateMessage {sender receiver t t' : Bytes} (hr : C.users receiver)
    (hn : NulFree receiver) (ht : NulFree t) (ht' : NulFree t') :
    Discreet C (routePrivateMessage sender receiver t p)
      (routePrivateMessage sender receiver t' p) :=
  alike_observe_bind fun _ _ => .ite (fun _ => discreet_sendToPeer (.routed hr hn ht ht')) fun _ =>
    discreet_refl _

theorem discreet_routeRoomMessage {sender room t t' : Bytes} (hr : C.rooms room)
    (hn : NulFree room) (ht : NulFree t) (ht' : NulFree t') :
    Discreet C (routeRoomMessage sender room t) (routeRoomMessage sender room t') := by
  refine alike_observe_bind fun s _ => .each fun p _ => ?_
  exact alike_observe_bind fun _ _ =>
    .ite (fun _ => discreet_sendToPeer (.routedRoom hr hn ht ht')) fun _ => discreet_refl _

theorem discreet_sendToMembers {members : List Bytes} (hm : ∀ u ∈ members, C.users u)
    {t : PacketType} (h : ∀ k, C.sessions k →
      Effect.Veiled C (.toSession k ⟨t, pl⟩) (.toSession k ⟨t, pl'⟩)) :
    Discreet C (sendToMembers members t pl) (sendToMembers members t pl') := by
  refine .each fun u hu => alike_observe_bind fun s hs => ?_
  cases hk : s.connManager.getSessionByUsername u with
  | none => exact discreet_refl _
  | some j =>
      exact discreet_deliver (h j (hs.filed u (hm u hu) j hk))

/-! ## The handlers -/

theorem discreet_handlePrivateMsg {receiver t t' : Bytes} {more more' : List Bytes}
    (hr : C.users receiver) (h : unpack pl = receiver :: t :: more)
    (h' : unpack pl' = receiver :: t' :: more') :
    Discreet C (handlePrivateMsg k pl) (handlePrivateMsg k pl') := by
  have hn : NulFree receiver := nulFree_of_mem_unpack (h ▸ List.mem_cons_self ..)
  have ht : NulFree t := nulFree_of_mem_unpack (h ▸ List.mem_cons_of_mem _ (List.mem_cons_self ..))
  have ht' : NulFree t' :=
    nulFree_of_mem_unpack (h' ▸ List.mem_cons_of_mem _ (List.mem_cons_self ..))
  rw [handlePrivateMsg, h, handlePrivateMsg, h']
  refine alike_observe_bind fun s _ => alike_observe_bind fun s₁ _ =>
    alike_observe_bind fun s₂ _ => .ite (fun _ => ?_) fun _ => .ite (fun _ => ?_) fun _ => ?_
  · -- the receiver is on this server
    refine alike_observe_bind fun s₃ hs₃ => ?_
    cases hj : s₃.connManager.getSessionByUsername receiver with
    | none => exact discreet_refl _
    | some j =>
        exact discreet_deliver (.direct (hs₃.filed receiver hr j hj) _ t t')
  · exact (discreet_routePrivateMessage hr hn ht ht').bind fun _ => discreet_refl _
  · exact discreet_refl _

theorem discreet_handleRoomMsg {room t t' : Bytes} {more more' : List Bytes}
    (hr : C.rooms room) (h : unpack pl = room :: t :: more)
    (h' : unpack pl' = room :: t' :: more') :
    Discreet C (handleRoomMsg k pl) (handleRoomMsg k pl') := by
  have hn : NulFree room := nulFree_of_mem_unpack (h ▸ List.mem_cons_self ..)
  have ht : NulFree t := nulFree_of_mem_unpack (h ▸ List.mem_cons_of_mem _ (List.mem_cons_self ..))
  have ht' : NulFree t' :=
    nulFree_of_mem_unpack (h' ▸ List.mem_cons_of_mem _ (List.mem_cons_self ..))
  rw [handleRoomMsg, h, handleRoomMsg, h']
  refine alike_observe_bind fun s _ => alike_observe_bind fun s₁ _ => .ite (fun _ => ?_) fun _ =>
    discreet_refl _
  refine alike_observe_bind fun s₂ hs₂ => ?_
  exact (discreet_sendToMembers (hs₂.members room hr) fun _ hk => .room hk hr _ t t').bind
    fun _ => discreet_routeRoomMessage hr hn ht ht'

/-- A sender with a NUL in it is more than one field, and then the text is not one that is read. -/
theorem unpack_routed {sender r t : Bytes} (hn : NulFree r) (ht : NulFree t) :
    unpack (pack [sender, r, t]) = sender.splitOn nul ++ [r, t] := by
  have hfields : ∀ {f : Bytes}, NulFree f → f.splitOn nul = [f] := fun {f} hf => by
    have hone := unpack_pack_eq_flatMap [f]
    rw [unpack_pack (List.forall_mem_singleton.mpr hf), List.flatMap_singleton] at hone
    exact hone.symm
  rw [unpack_pack_eq_flatMap, List.flatMap_cons, List.flatMap_cons, List.flatMap_singleton,
    hfields hn, hfields ht]
  rfl

theorem discreet_handleS2SRouteMsg {sender receiver t t' : Bytes} (hr : C.users receiver)
    (hn : NulFree receiver) (ht : NulFree t) (ht' : NulFree t') :
    Discreet C (handleS2SRouteMsg (pack [sender, receiver, t]))
      (handleS2SRouteMsg (pack [sender, receiver, t'])) := by
  rw [handleS2SRouteMsg, unpack_routed hn ht, handleS2SRouteMsg, unpack_routed hn ht']
  cases hsplit : sender.splitOn nul with
  | nil => exact absurd hsplit (List.splitOn_ne_nil nul sender)
  | cons u more =>
      cases more with
      | nil =>
          refine alike_observe_bind fun s hs => ?_
          cases hj : s.connManager.getSessionByUsername receiver with
          | none => exact discreet_refl _
          | some j =>
              exact discreet_deliver (.direct (hs.filed receiver hr j hj) u t t')
      | cons v more =>
          cases more with
          | nil => exact discreet_refl _
          | cons w more => cases more <;> exact discreet_refl _

theorem discreet_handleS2SRouteRoomMsg {sender room t t' : Bytes} (hr : C.rooms room)
    (hn : NulFree room) (ht : NulFree t) (ht' : NulFree t') :
    Discreet C (handleS2SRouteRoomMsg (pack [sender, room, t]))
      (handleS2SRouteRoomMsg (pack [sender, room, t'])) := by
  rw [handleS2SRouteRoomMsg, unpack_routed hn ht, handleS2SRouteRoomMsg, unpack_routed hn ht']
  cases hsplit : sender.splitOn nul with
  | nil => exact absurd hsplit (List.splitOn_ne_nil nul sender)
  | cons u more =>
      cases more with
      | nil =>
          exact alike_observe_bind fun s hs =>
            discreet_sendToMembers (hs.members room hr) fun _ hk => .room hk hr u t t'
      | cons v more =>
          cases more with
          | nil => exact discreet_refl _
          | cons w more => exact discreet_refl _

theorem discreet_handleClientPacket (h : pkt.Veiled C pkt') :
    Discreet C (handleClientPacket k pkt) (handleClientPacket k pkt') := by
  cases h with
  | same => exact discreet_refl _
  | direct hr h h' =>
      exact alike_observe_bind fun _ _ => .ite (fun _ => discreet_refl _) fun _ =>
        discreet_handlePrivateMsg hr h h'
  | room hr h h' =>
      exact alike_observe_bind fun _ _ => .ite (fun _ => discreet_refl _) fun _ =>
        discreet_handleRoomMsg hr h h'
  | routed hr hn ht ht' =>
      exact alike_observe_bind fun _ _ => .ite (fun _ => discreet_refl _) fun _ => discreet_refl _
  | routedRoom hr hn ht ht' =>
      exact alike_observe_bind fun _ _ => .ite (fun _ => discreet_refl _) fun _ => discreet_refl _

theorem discreet_handleServerPacket (h : pkt.Veiled C pkt') :
    Discreet C (handleServerPacket p pkt) (handleServerPacket p pkt') := by
  cases h with
  | same => exact discreet_refl _
  | direct => exact discreet_refl _
  | room => exact discreet_refl _
  | routed hr hn ht ht' =>
      exact (discreet_refl _).bind fun _ => discreet_handleS2SRouteMsg hr hn ht ht'
  | routedRoom hr hn ht ht' =>
      exact (discreet_refl _).bind fun _ => discreet_handleS2SRouteRoomMsg hr hn ht ht'

end

end ChatServer

open ChatServer

/-! ## The threads -/

/-- The packets were read from the same socket. -/
inductive Task.Veiled (C : Circle) : Task → Task → Prop
  | client {pkt pkt' : RawPacket} (k : ConnRef) (h : pkt.Veiled C pkt') :
      Veiled C (.client k pkt) (.client k pkt')
  | peer {pkt pkt' : RawPacket} (p : Int) (k : ConnRef) (h : pkt.Veiled C pkt') :
      Veiled C (.peer p k pkt) (.peer p k pkt')

/-- The threads have the same to do. -/
inductive Work.Veiled (C : Circle) : Work → Work → Prop
  | same (w : Work) : Veiled C w w
  | task {t t' : Task} (h : t.Veiled C t') : Veiled C (.task t) (.task t')

/-- The same action, but for the text of a packet that is read. -/
inductive ThreadAction.Veiled {n : Nat} (C : Circle) : ThreadAction n → ThreadAction n → Prop
  | same (a : ThreadAction n) : Veiled C a a
  | read {pkt pkt' : RawPacket} (k : ConnRef) (h : pkt.Veiled C pkt') (hfits : pkt'.Fits) :
      Veiled C (.read k pkt) (.read k pkt')
  | readPeer {pkt pkt' : RawPacket} (p : Int) (h : pkt.Veiled C pkt') (hfits : pkt'.Fits) :
      Veiled C (.readPeer p pkt) (.readPeer p pkt')

theorem Task.Veiled.prog {C : Circle} {t t' : Task} (h : t.Veiled C t') :
    Discreet C (Work.task t).prog (Work.task t').prog := by
  cases h with
  | client k h => exact discreet_handleClientPacket h
  | peer p k h => exact discreet_handleServerPacket h

namespace Threads

/-- The threads are equally far, with programs that send the same but for texts of the circle. -/
structure Alike {n : Nat} (C : Circle) (c d : Threads n) : Prop extends
    c.toPool.Alike (Within C) (Effect.Veiled C) (Work.Veiled C) d.toPool where
  snapshot : c.snapshot = d.snapshot
  held : Option.Rel (Task.Veiled C) c.held d.held

section

variable {n : Nat} {C : Circle} {c c' d : Threads n} {a a' : ThreadAction n}

theorem alike_idle (C : Circle) (s : ChatServer) : (idle s : Threads n).Alike C (idle s) :=
  ⟨Pool.alike_init s, rfl, .none⟩

/-- The pools take the next step. -/
theorem Alike.withPool (h : c.Alike C d) {P : Option (Pool (Thread n) ChatServer Effect Work)}
    {Q : Option (Pool (Thread n) ChatServer Effect Work)}
    (hstep : ∀ P', P = some P' → ∃ Q', Q = some Q' ∧
      P'.Alike (Within C) (Effect.Veiled C) (Work.Veiled C) Q')
    (hn : P.map c.withPool = some c') : ∃ d', Q.map d.withPool = some d' ∧ c'.Alike C d' := by
  obtain ⟨P', hP, rfl⟩ := Option.map_eq_some_iff.mp hn
  obtain ⟨Q', rfl, hQ⟩ := hstep P' hP
  exact ⟨_, rfl, hQ, h.snapshot, h.held⟩

theorem Alike.launch (h : c.Alike C d) {t : Thread n} (w : Work)
    (hn : c.launch t w = some c') : ∃ d', d.launch t w = some d' ∧ c'.Alike C d' :=
  h.withPool (fun _ hP => h.toAlike.launch (.same w) (discreet_refl _) hP) hn

theorem Alike.listening (h : c.Alike C d) (hl : c.Listening) : d.Listening := by
  refine ⟨h.toAlike.idle hl.1, ?_⟩
  have hheld := h.held
  rw [hl.2] at hheld
  generalize d.held = x at hheld
  cases hheld
  rfl

theorem Alike.setState (h : c.Alike C d) (f : ChatServer → ChatServer) :
    { c with state := f c.state }.Alike C { d with state := f d.state } :=
  ⟨⟨congrArg f h.state, h.out, h.queue, h.running, h.made⟩, h.snapshot, h.held⟩

theorem Alike.setSnapshot (h : c.Alike C d) (f : List ConnRef → List ConnRef) :
    { c with snapshot := f c.snapshot }.Alike C { d with snapshot := f d.snapshot } :=
  ⟨h.toAlike, congrArg f h.snapshot, h.held⟩

/-- The listener reads a packet in both. -/
theorem Alike.hold (h : c.Alike C d) {t t' : Task} (ht : t.Veiled C t') :
    { c with held := some t }.Alike C { d with held := some t' } :=
  ⟨h.toAlike, h.snapshot, .some ht⟩

theorem Alike.read (h : c.Alike C d) {k : ConnRef} {pkt pkt' : RawPacket} (hpkt : pkt.Veiled C pkt')
    (hfits : pkt'.Fits) (hn : c.next (.read k pkt) = some c') :
    ∃ d', d.next (.read k pkt') = some d' ∧ c'.Alike C d' := by
  obtain ⟨⟨hl, hk, -⟩, hc'⟩ := Option.ite_none_right_eq_some.mp hn
  cases hc'
  refine ⟨_, if_pos ⟨h.listening hl, h.snapshot ▸ hk, hfits⟩, ?_⟩
  exact (h.setSnapshot (·.filter (· ≠ k))).hold (.client k hpkt)

theorem Alike.readPeer (h : c.Alike C d) {p : Int} {pkt pkt' : RawPacket}
    (hpkt : pkt.Veiled C pkt') (hfits : pkt'.Fits) (hn : c.next (.readPeer p pkt) = some c') :
    ∃ d', d.next (.readPeer p pkt') = some d' ∧ c'.Alike C d' := by
  simp only [Threads.next] at hn ⊢
  rw [← h.state]
  split at hn
  next => cases hn
  next k hk =>
    obtain ⟨⟨hl, hp, -⟩, hc'⟩ := Option.ite_none_right_eq_some.mp hn
    cases hc'
    refine ⟨_, if_pos ⟨h.listening hl, hp, hfits⟩, ?_⟩
    exact (h.setSnapshot fun _ => []).hold (.peer p k hpkt)

theorem fits_of_read {k : ConnRef} {pkt : RawPacket} (hn : c.next (.read k pkt) = some c') :
    pkt.Fits :=
  (Option.ite_none_right_eq_some.mp hn).1.2.2

theorem fits_of_readPeer {p : Int} {pkt : RawPacket} (hn : c.next (.readPeer p pkt) = some c') :
    pkt.Fits := by
  simp only [Threads.next] at hn
  split at hn
  next => cases hn
  next => exact (Option.ite_none_right_eq_some.mp hn).1.2.2

/-- What one server's threads do, the other's can do too. -/
theorem Alike.next (h : c.Alike C d) (hin : c.state.Within C) (ha : a.Veiled C a')
    (hn : c.next a = some c') : ∃ d', d.next a' = some d' ∧ c'.Alike C d' := by
  cases ha with
  | read k hpkt hfits => exact h.read hpkt hfits hn
  | readPeer p hpkt hfits => exact h.readPeer hpkt hfits hn
  | same =>
    cases a with
    | take i => exact h.withPool (fun _ hP => h.toAlike.take hP) hn
    | run t => exact h.withPool (fun _ hP => h.toAlike.advance hin hP) hn
    | finish t => exact h.withPool (fun _ hP => h.toAlike.finish hP) hn
    | accept handle =>
        obtain ⟨⟨hl, hf⟩, hc'⟩ := Option.ite_none_right_eq_some.mp hn
        cases hc'
        refine ⟨_, if_pos ⟨h.listening hl, h.state ▸ hf⟩, ?_⟩
        exact h.setState (·.onConn (·.accepted handle))
    | scan =>
        obtain ⟨hl, hc'⟩ := Option.ite_none_right_eq_some.mp hn
        cases hc'
        refine ⟨_, if_pos (h.listening hl), ?_⟩
        rw [← h.state]
        exact h.setSnapshot fun _ => c.state.connManager.getAllSessions
    | read k pkt => exact h.read (.same pkt) (fits_of_read hn) hn
    | hangUp k =>
        obtain ⟨⟨hl, hk⟩, hc'⟩ := Option.ite_none_right_eq_some.mp hn
        obtain ⟨d', hd', halike⟩ := (h.setSnapshot (·.filter (· ≠ k))).launch _ hc'
        exact ⟨d', (if_pos ⟨h.listening hl, h.snapshot ▸ hk⟩).trans hd', halike⟩
    | readPeer p pkt => exact h.readPeer (.same pkt) (fits_of_readPeer hn) hn
    | hangUpPeer p =>
        obtain ⟨⟨hl, hp, hk⟩, hc'⟩ := Option.ite_none_right_eq_some.mp hn
        obtain ⟨d', hd', halike⟩ := (h.setSnapshot fun _ => []).launch _ hc'
        exact ⟨d', (if_pos ⟨h.listening hl, h.state ▸ hp, h.state ▸ hk⟩).trans hd', halike⟩
    | enqueue =>
        simp only [Threads.next] at hn ⊢
        have hheld := h.held
        split at hn
        next => cases hn
        next t ht =>
          cases hn
          rw [ht] at hheld
          generalize hx : d.held = x at hheld
          cases hheld with
          | some htask =>
              exact ⟨_, rfl, h.toAlike.submit (.task htask) htask.prog, h.snapshot, .none⟩
    | clock now =>
        obtain ⟨hnow, hc'⟩ := Option.ite_none_right_eq_some.mp hn
        cases hc'
        refine ⟨_, if_pos (h.state ▸ hnow), ?_⟩
        exact h.setState fun s => { s with now := now }
    | beat => exact h.launch .heartbeats hn
    | dial p handle =>
        obtain ⟨⟨hp, hd, hf⟩, hc'⟩ := Option.ite_none_right_eq_some.mp hn
        obtain ⟨d', hd', halike⟩ := (h.setState (·.onConn (·.newSocket handle))).launch _ hc'
        refine ⟨d', (if_pos ⟨h.state ▸ hp, h.state ▸ hd, h.state ▸ hf⟩).trans ?_, halike⟩
        rw [h.state] at hd'
        exact hd'

end

/-! ## The circle of a run -/

/-- What a session is sent. -/
def packetsTo (k : ConnRef) (out : List Effect) : List RawPacket :=
  out.filterMap fun
    | .toSession j pkt => if j = k then some pkt else none
    | .toPeer _ _ _ => none

/-- Who may learn messages to `users` and `rooms` in a run: these users, whoever is a member of
one of the rooms at some time, and the sessions filed under their names at some time. -/
def circleOf {n : Nat} (s : ChatServer) (as : List (ThreadAction n)) (users rooms : Bytes → Prop) :
    Circle where
  users u := users u ∨ ∃ c, Visits next (idle s) as c ∧ ∃ r, rooms r ∧
    u ∈ c.state.roomManager.getLocalMembers r
  rooms := rooms
  sessions k := ∃ c, Visits next (idle s) as c ∧ ∃ u,
    (users u ∨ ∃ d, Visits next (idle s) as d ∧ ∃ r, rooms r ∧
      u ∈ d.state.roomManager.getLocalMembers r) ∧
    c.state.connManager.getSessionByUsername u = some k

theorem within_circleOf {n : Nat} {s : ChatServer} {as : List (ThreadAction n)}
    {users rooms : Bytes → Prop} {c : Threads n} (hc : Visits next (idle s) as c) :
    c.state.Within (circleOf s as users rooms) where
  filed u hu _ hk := ⟨c, hc, u, hu, hk⟩
  members r hr _ hu := Or.inr ⟨c, hc, r, hr, hu⟩

/-- Outside of the circle the outputs are the same. -/
theorem packetsTo_of_veiled {C : Circle} {k : ConnRef} (hk : ¬ C.sessions k)
    {out out' : List Effect} (h : List.Forall₂ (Effect.Veiled C) out out') :
    packetsTo k out' = packetsTo k out := by
  induction h with
  | nil => rfl
  | cons he _ ih =>
      cases he with
      | same e =>
          simp only [packetsTo, List.filterMap_cons] at ih ⊢
          rw [ih]
      | @direct j hj sender t t' | @room j r hj hr sender t t' =>
          have hne : j ≠ k := fun he => hk (he ▸ hj)
          simp only [packetsTo, List.filterMap_cons, if_neg hne]
          exact ih
      | toPeer p sock hpkt => exact ih

/-- **Texts stay in the circle.**  Take any run of a server's threads and any users and rooms.  If
the same packets are read in the same places, but for the texts of messages to these users and
rooms, then the same run is possible, the server goes to the same state, what it sends differs in
such texts only, and sessions outside of the circle are sent exactly the same. -/
theorem texts_stay_in_circle {n : Nat} {s : ChatServer} {as as' : List (ThreadAction n)}
    {users rooms : Bytes → Prop} {c : Threads n} (hrun : exec next (idle s) as = some c)
    (hsame : List.Forall₂ (ThreadAction.Veiled (circleOf s as users rooms)) as as') :
    ∃ d, exec next (idle s) as' = some d ∧ d.state = c.state ∧
      List.Forall₂ (Effect.Veiled (circleOf s as users rooms)) c.out d.out ∧
      ∀ k, ¬ (circleOf s as users rooms).sessions k → packetsTo k d.out = packetsTo k c.out := by
  have hstep : ∀ {c d : Threads n} {a a' : ThreadAction n} {c' : Threads n},
      c.Alike (circleOf s as users rooms) d → c.state.Within (circleOf s as users rooms) →
        a.Veiled (circleOf s as users rooms) a' → c.next a = some c' →
          ∃ d', d.next a' = some d' ∧ c'.Alike (circleOf s as users rooms) d' :=
    fun h hin ha hn => h.next hin ha hn
  obtain ⟨d, hd, halike⟩ := exec_simulates hstep hsame (alike_idle _ s)
    (fun u hu => within_circleOf hu) hrun
  exact ⟨d, hd, halike.state.symm, halike.out, fun k hk => packetsTo_of_veiled hk halike.out⟩

/-- Ann and Bob are logged in. -/
def annAndBob : ChatServer :=
  let accepted := ((configured 1 []).onConn (·.accepted 4)).onConn (·.accepted 5)
  let withAnn := ((handleClientPacket 0 ⟨.login, ascii "ann"⟩).run accepted).state
  ((handleClientPacket 1 ⟨.login, ascii "bob"⟩).run withAnn).state

/-- Ann writes to Bob. -/
def whisper (text : Bytes) : List (ThreadAction 1) :=
  [.scan, .read 0 ⟨.msgPrivate, pack [ascii "bob", text]⟩, .enqueue, .take 0] ++
    List.replicate 7 (.run (.worker 0)) ++ [.finish (.worker 0)]

/-- With another text the server does the same, and Bob reads another text. -/
theorem texts_stay_in_circle_whisper : ∃ c d : Threads 1,
    exec next (idle annAndBob) (whisper (ascii "hi")) = some c ∧
      exec next (idle annAndBob) (whisper (ascii "no")) = some d ∧ d.state = c.state ∧
        packetsTo 1 d.out ≠ packetsTo 1 c.out := by
  have hrun : (exec next (idle annAndBob : Threads 1) (whisper (ascii "hi"))).any fun c =>
      (exec next (idle annAndBob : Threads 1) (whisper (ascii "no"))).any fun d =>
        packetsTo 1 d.out ≠ packetsTo 1 c.out := by decide +kernel
  obtain ⟨c, hc, h⟩ := (Option.any_eq_true ..).mp hrun
  obtain ⟨d', hd', hne⟩ := (Option.any_eq_true ..).mp h
  have hpkt : RawPacket.Veiled (circleOf annAndBob (whisper (ascii "hi")) (· = ascii "bob")
      fun _ => False) ⟨.msgPrivate, pack [ascii "bob", ascii "hi"]⟩
      ⟨.msgPrivate, pack [ascii "bob", ascii "no"]⟩ :=
    .direct (Or.inl rfl) (unpack_pack (by decide)) (unpack_pack (by decide))
  have hsame : List.Forall₂ (ThreadAction.Veiled _) (whisper (ascii "hi"))
      (whisper (ascii "no")) :=
    .cons (.same _) (.cons (.read 0 hpkt (by decide)) (List.forall₂_same.mpr fun a _ => .same a))
  obtain ⟨d, hd, hstate, -, -⟩ := texts_stay_in_circle hc hsame
  rw [hd] at hd'
  cases hd'
  exact ⟨c, d', hc, hd, hstate, of_decide_eq_true hne⟩

end Threads

end DistributedChat
