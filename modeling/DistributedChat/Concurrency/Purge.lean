import DistributedChat.Server.Views

/-!
# What a dead peer leaves behind

`HandlePeerDisconnect` takes a peer off its socket and then purges the two tables
of it.  The workers do not look whether a peer is still connected.  So a packet
that was read before the disconnect and is handled after it puts a user or a
membership of a dead peer back into a table (`late_replica_outlives_peer`).  If
no such packet is under way whenever a peer is disconnected, then an entry of a
peer that is not connected is one that a thread is about to purge
(`dead_peer_leaves_nothing`).
-/

namespace DistributedChat

open ChatServer

/-- The packet brings something into the tables. -/
def RawPacket.Adds (pkt : RawPacket) : Prop :=
  (pkt.type = .s2sReplicateUser ∨ pkt.type = .s2sRoomMemberSync) ∧
    (content pkt.payload).any (·.2.2) = true

instance (pkt : RawPacket) : Decidable pkt.Adds := inferInstanceAs (Decidable (_ ∧ _))

/-- A packet of the peer that brings something into the tables. -/
def Work.Adds (p : Int) : Work → Prop
  | .task (.peer q _ pkt) => q = p ∧ pkt.Adds
  | _ => False

instance (p : Int) : DecidablePred (Work.Adds p) := fun
  | .task (.peer q _ pkt) => inferInstanceAs (Decidable (q = p ∧ pkt.Adds))
  | .task (.client _ _) | .clientGone _ | .peerGone _ | .heartbeats | .connected _ _ =>
      instDecidableFalse

/-- Replication packets of a peer name its own id. -/
def ThreadAction.Honest {n : Nat} : ThreadAction n → Prop
  | .readPeer p pkt => pkt.Adds → ∀ c ∈ content pkt.payload, c.2.1 = p
  | _ => True

instance {n : Nat} (act : ThreadAction n) : Decidable act.Honest :=
  match act with
  | .readPeer p pkt => inferInstanceAs (Decidable (pkt.Adds → ∀ c ∈ content pkt.payload, c.2.1 = p))
  | .take _ | .run _ | .finish _ | .accept _ | .scan | .read _ _ | .hangUp _
  | .hangUpPeer _ | .enqueue | .clock _ | .beat | .dial _ _ => instDecidableTrue

/-- The server has a connection to the peer. -/
def ChatServer.Connected (s : ChatServer) (p : Int) : Prop :=
  (s.connManager.nodes p).isConnected = true

instance (s : ChatServer) (p : Int) : Decidable (s.Connected p) :=
  inferInstanceAs (Decidable (_ = true))

/-- No peer is taken off while a packet of it that brings something into the tables
is under way. -/
def Threads.Unhurried {n : Nat} (c : Threads n) (act : ThreadAction n) : Prop :=
  ∀ c' ∈ c.next act, ∀ p ∈ c.state.connManager.getAllPeerNodes, c.state.Connected p →
    ¬ c'.state.Connected p → ¬ c.UnderWay (Work.Adds p)

instance {n : Nat} (c : Threads n) (act : ThreadAction n) : Decidable (c.Unhurried act) :=
  inferInstanceAs (Decidable (∀ c' ∈ c.next act, ∀ p ∈ c.state.connManager.getAllPeerNodes, _))

namespace View

variable {n : Nat}

/-- A thread is at the stage of a `HandlePeerDisconnect`. -/
def Purging (v : View n) (stage : Stage) : Prop := ∃ t w m, v.doing t = some (w, ⟨m, stage⟩)

/-- Whatever the tables say of a peer that is not connected is about to be purged. -/
structure Purged (id : Int) (v : View n) : Prop where
  serverId : v.server.serverId = id
  honest : ∀ x p (k : ConnRef) pkt g, v.workAt x = some (.task (.peer p k pkt), g) → pkt.Adds →
    ∀ c ∈ content pkt.payload, c.2.1 = p
  adding : ∀ x w g p, v.workAt x = some (w, g) → w.Adds p → v.server.Connected p
  users : ∀ u p, v.server.userManager.location? u = some p → p ≠ id →
    v.server.Connected p ∨ v.Purging (.cut p)
  rooms : ∀ r p, p ∈ v.server.roomManager.getRemoteServers r →
    v.server.Connected p ∨ v.Purging (.cut p) ∨ v.Purging (.wiped p)

section

variable {v v' : View n} {act : ThreadAction n} {t : Thread n} {w : Work} {g g' : Phase}
  {s s' : ChatServer} {out : List Effect} {p id : Int} {u r : Bytes}

/-! ## What a section does to links and tables -/

theorem connected_registerPeerSocket {q : Int} {k : ConnRef} {now : Nat} (h : s.Connected p) :
    (s.onConn (·.registerPeerSocket q k now)).Connected p := by
  rw [Connected, onConn_connManager, ConnectionManager.nodes_registerPeerSocket]
  split
  · rfl
  · exact h

theorem connected_setConnected {q : Int} (h : s.Connected p) :
    (s.onConn (·.setConnected q true)).Connected p := by
  rw [Connected, onConn_connManager, ConnectionManager.nodes_setConnected]
  split
  · rfl
  · exact h

theorem connected_updateHeartbeat {q : Int} {now : Nat} (h : s.Connected p) :
    (s.onConn (·.updateHeartbeat q now)).Connected p := by
  rw [Connected, onConn_connManager, ConnectionManager.nodes_updateHeartbeat]
  split
  next he =>
    rw [he] at h
    exact h
  · exact h

/-- A peer is disconnected by `UnregisterPeerSocket` only. -/
theorem connected_step (h : Phase.Step w g s out s' g') (hp : s.Connected p) :
    s'.Connected p ∨ p ∈ s.connManager.peerNodes ∧ ∃ m, g' = ⟨m, .cut p⟩ := by
  cases h with
  | touch h =>
      cases h with
      | beat | connectedBeat => exact Or.inl (connected_updateHeartbeat hp)
      | register => exact Or.inl (connected_registerPeerSocket hp)
      | setConnected => exact Or.inl (connected_setConnected hp)
      | _ => exact Or.inl hp
  | @cut _ m _ q =>
      by_cases hcut : q ∈ s.connManager.peerNodes ∧ p = q
      · obtain ⟨hq, rfl⟩ := hcut
        exact Or.inr ⟨hq, m, rfl⟩
      · left
        rw [Connected, onConn_connManager, ConnectionManager.nodes_unregisterPeerSocket, if_neg hcut]
        exact hp
  | remove | drop =>
      left
      rw [Connected, onConn_connManager, ConnectionManager.nodes_removeSession]
      exact hp
  | promote => exact Or.inl (connected_registerPeerSocket hp)
  | setConnected => exact Or.inl (connected_setConnected hp)
  | promotedBeat => exact Or.inl (connected_updateHeartbeat hp)
  | apply h => cases h <;> exact Or.inl hp
  | _ => exact Or.inl hp

/-- The work is a packet that names the server and adds to the tables. -/
def Brings (w : Work) (p : Int) : Prop :=
  ∃ q k pkt, w = .task (.peer q k pkt) ∧ pkt.Adds ∧ ∃ c ∈ content pkt.payload, c.2.1 = p

/-- A user comes to be located at a server by a replication packet that names it. -/
theorem users_step (h : Phase.Step w g s out s' g') (hu : s'.userManager.location? u = some p) :
    s.userManager.location? u = some p ∨ p = s.serverId ∨ Brings w p := by
  cases h with
  | touch h => cases h <;> exact Or.inl hu
  | wipeUsers => exact Or.inl (UserManager.location?_clearServerUsers_eq_some.mp hu).1
  | register =>
      rw [onUsers_userManager, UserManager.location?_registerUser] at hu
      split at hu
      · exact Or.inr (Or.inl (Option.some.inj hu).symm)
      · exact Or.inl hu
  | logout =>
      rw [onUsers_userManager, UserManager.location?_unregisterUser] at hu
      split at hu
      · cases hu
      · exact Or.inl hu
  | @apply q k pkt _ _ h =>
      cases h with
      | login ht hc =>
          rw [onUsers_userManager, UserManager.location?_registerUser] at hu
          split at hu
          · have hadds : pkt.Adds := ⟨Or.inl ht, by rw [hc]; rfl⟩
            exact Or.inr (Or.inr ⟨q, k, pkt, rfl, hadds, _, hc, Option.some.inj hu⟩)
          · exact Or.inl hu
      | logout =>
          rw [onUsers_userManager, UserManager.location?_unregisterUser] at hu
          split at hu
          · cases hu
          · exact Or.inl hu
      | enter | exit => exact Or.inl hu
  | _ => exact Or.inl hu

/-- A server comes into a room by a sync packet that names it. -/
theorem rooms_step (h : Phase.Step w g s out s' g')
    (hr : p ∈ s'.roomManager.getRemoteServers r) :
    p ∈ s.roomManager.getRemoteServers r ∨ Brings w p := by
  cases h with
  | touch h => cases h <;> simp_all
  | wipeRooms =>
      exact Or.inl ((ChatRoomManager.mem_getRemoteServers_clearServerMemberships ..).mp hr).2
  | @apply q k pkt _ _ h =>
      cases h with
      | login | logout => exact Or.inl hr
      | enter ht hc =>
          rcases (ChatRoomManager.mem_getRemoteServers_joinRoomRemote ..).mp hr with ⟨-, he⟩ | hr
          · have hadds : pkt.Adds := ⟨Or.inr ht, by rw [hc]; rfl⟩
            exact Or.inr ⟨q, k, pkt, rfl, hadds, _, hc, he.symm⟩
          · exact Or.inl hr
      | exit => exact Or.inl ((ChatRoomManager.mem_getRemoteServers_leaveRoomRemote ..).mp hr).2
  | _ => exact Or.inl hr

/-- After `UnregisterPeerSocket` come the two purges, one after the other. -/
theorem cut_step {m : Point} (h : Phase.Step w ⟨m, .cut p⟩ s out s' g') :
    s' = s.onUsers (·.clearServerUsers p) ∧ g' = ⟨m, .wiped p⟩ := by
  cases h
  exact ⟨rfl, rfl⟩

theorem wiped_step {m : Point} (h : Phase.Step w ⟨m, .wiped p⟩ s out s' g') :
    s' = s.onRooms (·.clearServerMemberships p) := by
  cases h
  rfl

/-! ## The invariant -/

theorem Step.connected (hs : v.Step act v') (hp : v.server.Connected p) :
    v'.server.Connected p ∨ p ∈ v.server.connManager.peerNodes ∧ v'.Purging (.cut p) := by
  cases hs.serves with
  | same he => exact Or.inl (he ▸ hp)
  | accepted _ he | clocked _ he | dialed _ _ he =>
      rw [he]
      exact Or.inl hp
  | ran _ _ ht' hstep =>
      rcases connected_step hstep hp with hp | ⟨hpeer, m, rfl⟩
      · exact Or.inl hp
      · exact Or.inr ⟨hpeer, _, _, m, ht'⟩

/-- What a packet brings into the tables is of a connected peer. -/
theorem Purged.connected_of_brings (h : Purged id v) (ht : v.doing t = some (w, g))
    (hb : Brings w p) : v.server.Connected p := by
  obtain ⟨q, k, pkt, rfl, hadds, c, hc, rfl⟩ := hb
  rw [h.honest (.thread t) q k pkt g ht hadds c hc]
  exact h.adding (.thread t) _ g q ht ⟨rfl, hadds⟩

/-- A thread that has taken a peer off stays there until it purges the user table. -/
theorem Step.cut (hs : v.Step act v') (hcut : v.Purging (.cut p)) :
    v'.Purging (.cut p) ∨
      v'.Purging (.wiped p) ∧ v'.server = v.server.onUsers (·.clearServerUsers p) := by
  obtain ⟨t, w, m, ht⟩ := hcut
  cases hs.stays ht with
  | same ht' => exact Or.inl ⟨t, w, m, ht'⟩
  | ran _ ht' hstep =>
      obtain ⟨hserver, rfl⟩ := cut_step hstep
      exact Or.inr ⟨⟨t, w, m, ht'⟩, hserver⟩
  | done _ _ hwhole => cases hwhole

theorem Step.wiped (hs : v.Step act v') (hwiped : v.Purging (.wiped p)) :
    v'.Purging (.wiped p) ∨ v'.server = v.server.onRooms (·.clearServerMemberships p) := by
  obtain ⟨t, w, m, ht⟩ := hwiped
  cases hs.stays ht with
  | same ht' => exact Or.inl ⟨t, w, m, ht'⟩
  | ran _ _ hstep => exact Or.inr (wiped_step hstep)
  | done _ _ hwhole => cases hwhole

theorem Purged.step (h : Purged id v) (hs : v.Step act v') (hhonest : act.Honest)
    (hcalm : ∀ p ∈ v.server.connManager.peerNodes, v.server.Connected p →
      ¬ v'.server.Connected p → ∀ x w g, v.workAt x = some (w, g) → ¬ w.Adds p) :
    Purged id v' where
  serverId := hs.serverId.trans h.serverId
  honest := by
    intro y p k pkt g hy hadds
    cases hs.origin hy with
    | moved hx => exact h.honest _ p k pkt g hx hadds
    | ran _ _ ht => exact h.honest (.thread _) p k pkt _ ht hadds
    | began hg hb =>
        cases act with
        | readPeer =>
            obtain ⟨k', -, he⟩ := hb
            cases he
            exact hhonest hadds
        | read | hangUp | hangUpPeer | beat | dial => cases hb
        | _ => exact hb.elim
  adding := by
    intro y w g p hy hw
    have hkeep : ∀ {x : Place n} {g₀ : Phase}, v.workAt x = some (w, g₀) →
        v'.server.Connected p := by
      intro x g₀ hx
      have hp := h.adding x w g₀ p hx hw
      by_contra hdown
      rcases hs.connected hp with hp' | ⟨hpeer, -⟩
      · exact hdown hp'
      · exact hcalm p hpeer hp hdown x w g₀ hx hw
    cases hs.origin hy with
    | moved hx => exact hkeep hx
    | ran _ _ ht => exact hkeep (x := .thread _) ht
    | began hg hb =>
        cases hs with
        | @readPeer q k pkt _ _ _ hsock =>
            obtain ⟨k', -, rfl⟩ := hb
            obtain ⟨rfl, -⟩ := hw
            exact (Option.ite_none_right_eq_some.mp hsock).1
        | read | hangUp | hangUpPeer | beat | dial =>
            cases hb
            exact hw.elim
        | take | run | finish | accept | scan | enqueue | clock => exact hb.elim
  users := by
    intro u p hu hp
    have hold : v.server.userManager.location? u = some p ∨ v.server.Connected p := by
      cases hs.serves with
      | same he => exact Or.inl (he ▸ hu)
      | accepted _ he | clocked _ he | dialed _ _ he =>
          rw [he] at hu
          exact Or.inl hu
      | ran _ ht _ hstep =>
          rcases users_step hstep hu with hu | hid | hbrings
          · exact Or.inl hu
          · exact absurd (hid.trans h.serverId) hp
          · exact Or.inr (h.connected_of_brings ht hbrings)
    have hconn : v.server.Connected p → v'.server.Connected p ∨ v'.Purging (.cut p) :=
      fun hp => (hs.connected hp).imp_right And.right
    rcases hold with hloc | hup
    · rcases h.users u p hloc hp with hup | hcut
      · exact hconn hup
      · rcases hs.cut hcut with hcut | ⟨-, hserver⟩
        · exact Or.inr hcut
        · rw [hserver] at hu
          exact absurd rfl (UserManager.location?_clearServerUsers_eq_some.mp hu).2
    · exact hconn hup
  rooms := by
    intro r p hr
    have hold : p ∈ v.server.roomManager.getRemoteServers r ∨ v.server.Connected p := by
      cases hs.serves with
      | same he => exact Or.inl (he ▸ hr)
      | accepted _ he | clocked _ he | dialed _ _ he =>
          rw [he] at hr
          exact Or.inl hr
      | ran _ ht _ hstep => exact (rooms_step hstep hr).imp_right (h.connected_of_brings ht)
    have hconn : v.server.Connected p →
        v'.server.Connected p ∨ v'.Purging (.cut p) ∨ v'.Purging (.wiped p) :=
      fun hp => (hs.connected hp).imp_right fun hcut => Or.inl hcut.2
    rcases hold with hin | hup
    · rcases h.rooms r p hin with hup | hcut | hwiped
      · exact hconn hup
      · exact Or.inr ((hs.cut hcut).imp_right And.left)
      · rcases hs.wiped hwiped with hwiped | hserver
        · exact Or.inr (Or.inr hwiped)
        · rw [hserver] at hr
          exact absurd rfl ((ChatRoomManager.mem_getRemoteServers_clearServerMemberships ..).mp hr).1
    · exact hconn hup

end

theorem purged_idle (id : Int) (peers : List Int) :
    Purged id (idle (configured id peers) : View n) where
  serverId := rfl
  honest := by
    intro x _ _ _ _ hx
    cases x <;> cases hx
  adding := by
    intro x _ _ _ hx
    cases x <;> cases hx
  users := fun _ _ hu => nomatch hu
  rooms := fun _ _ hr => absurd hr List.not_mem_nil

end View

namespace Threads

open View

section

variable {n : Nat} {c d : Threads n} {id p : Int} {peers : List Int} {as : List (ThreadAction n)}

theorem sees_purged (hhonest : ∀ a ∈ as, a.Honest)
    (hcalm : Along next Unhurried (idle (configured id peers)) as)
    (hrun : exec next (idle (configured id peers)) as = some c) :
    ∃ v, c.Sees v ∧ v.Purged id := by
  refine exec_induct (I := fun c : Threads n => ∃ v, c.Sees v ∧ v.Purged id) ?_
    ⟨_, sees_idle _, purged_idle id peers⟩ (hcalm.and (along_of_forall hhonest)) hrun
  rintro c act c' ⟨v, hsees, hpurged⟩ ⟨hcalm, hhonest⟩ hn
  obtain ⟨v', hstep, hsees'⟩ := hsees.next hn
  refine ⟨v', hsees', hpurged.step hstep hhonest ?_⟩
  rw [hsees.server, hsees'.server]
  exact fun p hp hup hdown x w g hx hw => hcalm c' hn p hp hup hdown (hsees.underWay hx hw)

/-- If peers are honest and none is taken off while a packet of it that brings
something into the tables is under way, then, whenever nothing is under way,
neither table names a peer that is not connected. -/
theorem dead_peer_leaves_nothing (hhonest : ∀ a ∈ as, a.Honest)
    (hcalm : Along next Unhurried (idle (configured id peers)) as)
    (hd : Visits next (idle (configured id peers)) as d) (hset : d.Settled) (hp : p ≠ id)
    (hdown : ¬ d.state.Connected p) :
    (∀ u, d.state.userManager.location? u ≠ some p) ∧
      ∀ r, p ∉ d.state.roomManager.getRemoteServers r := by
  obtain ⟨pre, post, rfl, hpre⟩ := hd
  obtain ⟨v, hsees, h⟩ := sees_purged (fun a ha => hhonest a (List.mem_append_left _ ha))
    ((along_append hpre).mp hcalm).1 hpre
  have hfree : ∀ stage, ¬ v.Purging stage := by
    rintro stage ⟨t, w, m, ht⟩
    rw [(hsees.settled hset).2.2 t] at ht
    cases ht
  rw [← hsees.server] at hdown ⊢
  constructor
  · intro u hu
    rcases h.users u p hu hp with hup | hcut
    · exact hdown hup
    · exact hfree _ hcut
  · intro r hr
    rcases h.rooms r p hr with hup | hcut | hwiped
    · exact hdown hup
    · exact hfree _ hcut
    · exact hfree _ hwiped

end

/-- Server 1 connects to server 2 and reads that its user bob has logged in. -/
def bobArrives : List (ThreadAction 4) :=
  [.dial 2 5] ++ List.replicate 5 (.run .connector) ++
    [.finish .connector,
      .readPeer 2 ⟨.s2sReplicateUser, pack [ascii "bob", ascii "2", ascii "1"]⟩, .enqueue]

/-- The worker is done with the login when the link is lost. -/
def orderlyLoss : List (ThreadAction 4) :=
  bobArrives ++ [.take 0] ++ List.replicate 4 (.run (.worker 0)) ++
    [.finish (.worker 0), .hangUpPeer 2] ++ List.replicate 9 (.run .listener) ++ [.finish .listener]

theorem dead_peer_leaves_nothing_orderlyLoss :
    ∃ d, exec next (idle (configured 1 [2])) orderlyLoss = some d ∧
      (∀ u, d.state.userManager.location? u ≠ some 2) ∧
        ∀ r, 2 ∉ d.state.roomManager.getRemoteServers r := by
  have hrun : (exec next (idle (configured 1 [2])) orderlyLoss).any fun d =>
      decide (d.Settled ∧ ¬ d.state.Connected 2) := by decide +kernel
  obtain ⟨d, hd, h⟩ := (Option.any_eq_true ..).mp hrun
  obtain ⟨hset, hdown⟩ := of_decide_eq_true h
  exact ⟨d, hd, dead_peer_leaves_nothing (by decide) (by decide +kernel) (.last hd) hset (by decide)
    hdown⟩

/-- The link is lost while the login waits in the queue. -/
def hurriedLoss : List (ThreadAction 4) :=
  bobArrives ++ [.hangUpPeer 2] ++ List.replicate 9 (.run .listener) ++
    [.finish .listener, .take 0] ++ List.replicate 4 (.run (.worker 0)) ++ [.finish (.worker 0)]

/-- The login that was read before the disconnect outlives the peer. -/
theorem late_replica_outlives_peer :
    (∀ a ∈ hurriedLoss, a.Honest) ∧
      ∃ d, exec next (idle (configured 1 [2])) hurriedLoss = some d ∧ d.Settled ∧
        ¬ d.state.Connected 2 ∧ d.state.userManager.location? (ascii "bob") = some 2 := by
  have hrun : (exec next (idle (configured 1 [2])) hurriedLoss).any fun d =>
      decide (d.Settled ∧ ¬ d.state.Connected 2 ∧
        d.state.userManager.location? (ascii "bob") = some 2) := by decide +kernel
  obtain ⟨d, hd, h⟩ := (Option.any_eq_true ..).mp hrun
  exact ⟨by decide, d, hd, of_decide_eq_true h⟩

end Threads

end DistributedChat
