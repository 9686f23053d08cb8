import DistributedChat.Core.SendLoop
import DistributedChat.Protocol.Lengths
import DistributedChat.Server.Purges

/-!
# Sends that fail for some of the peers

The loops of `BroadcastS2S` and `RouteRoomMessage` with the bytes they send.  What the
socket of a peer will take is a list of departures, any one for any peer, so a send may
be cut into pieces, be put off and fail at any byte.  A failed send disconnects the peer
in the middle of the loop.

`Isolated` says what such a loop leaves behind: the whole frame for every peer whose
sends did not fail, the purge of every peer whose sends did, and nothing else.
-/

namespace DistributedChat

/-- A server and what goes on at its peer sockets. -/
structure Cabled where
  /-- The server. -/
  server : ChatServer
  /-- What each socket will take. -/
  future : ConnRef → List Departure
  /-- The bytes put on the socket of each peer. -/
  stream : Int → Bytes := fun _ => []
  /-- The peers for which `sendFailed` was set. -/
  failed : List Int := []
  /-- What the disconnects send to sessions. -/
  told : List Effect := []

namespace Cabled

/-- What `Send` on a socket meets.  On a closed one it fails. -/
def takes (x : Cabled) (k : ConnRef) : List Departure :=
  if x.server.connManager.getHandle k = invalidSocket then [] else x.future k

/-- The send loop on the socket `k` of peer `p` has ended. -/
def sent (x : Cabled) (p : Int) (k : ConnRef) (r : Bool × Bytes × List Departure) : Cabled :=
  { x with
    future := Function.update x.future k r.2.2
    stream := Function.update x.stream p (x.stream p ++ r.2.1) }

/-- The send to `p` has failed: `HandlePeerDisconnect`. -/
def disconnected (x : Cabled) (p : Int) : Cabled :=
  let r := (ChatServer.handlePeerDisconnect p).run x.server
  { x with server := r.state, failed := x.failed ++ [p], told := x.told ++ r.out }

/-- The body of the loops: a frame to a connected peer. -/
def sendToPeer (frame : Bytes) (x : Cabled) (p : Int) : Cabled :=
  match x.server.connManager.linkSocket p with
  | none => x
  | some k =>
      let r := sendLoop (.start frame) (x.takes k)
      if r.1 = true then x.sent p k r else (x.sent p k r).disconnected p

/-- `ReplicationManager::BroadcastS2S`. -/
def broadcastS2S (type : PacketType) (payload : Bytes) (x : Cabled) : Cabled :=
  x.server.connManager.getAllPeerNodes.foldl (sendToPeer (serialize type payload)) x

/-- The body of the loop of `RouteRoomMessage`. -/
def sendToNode (frame : Bytes) (x : Cabled) (p : Int) : Cabled :=
  if x.server.connManager.hasPeerNode p = true then x.sendToPeer frame p else x

/-- `ReplicationManager::RouteRoomMessage`. -/
def routeRoomMessage (sender room text : Bytes) (x : Cabled) : Cabled :=
  let targetServers := x.server.roomManager.getRemoteServers room
  if targetServers = [] then x
  else targetServers.foldl (sendToNode (serialize .s2sRouteRoomMsg (pack [sender, room, text]))) x

/-! ## One send -/

/-- The peer is connected over the socket. -/
def Linked (s : ChatServer) (p : Int) (k : ConnRef) : Prop :=
  p ∈ s.connManager.peerNodes ∧ s.connManager.linkSocket p = some k

instance (s : ChatServer) (p : Int) (k : ConnRef) : Decidable (Linked s p k) :=
  inferInstanceAs (Decidable (_ ∧ _))

section

variable {frame : Bytes} {x : Cabled} {p : Int} {k : ConnRef}
  {r : Bool × Bytes × List Departure}

theorem Linked.node {s : ChatServer} (h : Linked s p k) :
    (s.connManager.nodes p).isConnected = true ∧ (s.connManager.nodes p).socket = some k := by
  obtain ⟨-, hl⟩ := h
  rw [ConnectionManager.linkSocket] at hl
  split at hl
  next hc => exact ⟨hc, hl⟩
  next => cases hl

theorem sendToNode_of_not_linked (h : ∀ k, ¬ Linked x.server p k) :
    sendToNode frame x p = x := by
  rw [sendToNode]
  split
  next hnode =>
    have hp : p ∈ x.server.connManager.peerNodes := by
      simpa [ConnectionManager.hasPeerNode] using hnode
    cases hl : x.server.connManager.linkSocket p with
    | none => rw [sendToPeer, hl]
    | some k => exact absurd ⟨hp, hl⟩ (h k)
  next => rfl

theorem sendToNode_of_linked (h : Linked x.server p k) :
    sendToNode frame x p =
      if (sendLoop (.start frame) (x.takes k)).1 = true then
        x.sent p k (sendLoop (.start frame) (x.takes k))
      else (x.sent p k (sendLoop (.start frame) (x.takes k))).disconnected p := by
  have hnode : x.server.connManager.hasPeerNode p = true := by
    simpa [ConnectionManager.hasPeerNode] using h.1
  rw [sendToNode, if_pos hnode, sendToPeer, h.2]

/-- The disconnect of a linked peer is a purge. -/
theorem purged_disconnected (h : Linked x.server p k) :
    ChatServer.Purged (· = p) x.server (x.disconnected p).server :=
  ChatServer.run_handlePeerDisconnect_of_connected ⟨h.1, h.node.1⟩

/-- The send of a peer does not touch what another socket takes. -/
theorem takes_sent {j : ConnRef} (hj : j ≠ k) : (x.sent p k r).takes j = x.takes j := by
  show (if _ then _ else Function.update x.future k r.2.2 j) = _
  rw [Function.update_of_ne hj]
  rfl

theorem takes_disconnected (h : Linked x.server p k) {j : ConnRef} (hj : j ≠ k) :
    (x.disconnected p).takes j = x.takes j := by
  have hsocket : (x.disconnected p).server.connManager.sockets j =
      x.server.connManager.sockets j := by
    refine (purged_disconnected h).sockets fun q hq hk => hj ?_
    rw [hq, h.node.2] at hk
    exact (Option.some.inj hk).symm
  rw [takes, takes, ConnectionManager.getHandle, hsocket]
  rfl

end

/-! ## The loop -/

/-- From the state `x` a frame was sent to the peers of a list, and the failures were kept to
the peers that failed. -/
structure Isolated (frame : Bytes) (x : Cabled) (done : List Int) (y : Cabled) : Prop where
  /-- Only peers that were linked have failed. -/
  failed : ∀ {p}, p ∈ y.failed → p ∈ done ∧ ∃ k, Linked x.server p k
  /-- The peers that have failed are purged, and nothing else is changed. -/
  purged : ChatServer.Purged (· ∈ y.failed) x.server y.server
  /-- The others that were linked have the frame. -/
  whole : ∀ {p k}, p ∈ done → Linked x.server p k → p ∉ y.failed →
    y.stream p = x.stream p ++ frame
  /-- Those that have failed have less. -/
  part : ∀ {p}, p ∈ y.failed → ∃ part, part <+: frame ∧ part ≠ frame ∧
    y.stream p = x.stream p ++ part
  /-- Nobody else is sent anything. -/
  quiet : ∀ {p}, (p ∈ done → ∀ k, ¬ Linked x.server p k) → y.stream p = x.stream p
  /-- Whether a peer fails is up to its own socket. -/
  verdict : ∀ {p k}, p ∈ done → Linked x.server p k →
    (∀ q ∈ done, Linked x.server q k → q = p) →
    (p ∈ y.failed ↔ (sendLoop (.start frame) (x.takes k)).1 = false)
  /-- A socket of nobody in the list takes what it took. -/
  waiting : ∀ {k}, (∀ q ∈ done, ¬ Linked x.server q k) → y.takes k = x.takes k

theorem Isolated.start (frame : Bytes) {x : Cabled} (hx : x.failed = []) :
    Isolated frame x [] x where
  failed h := by rw [hx] at h; cases h
  purged := by
    simp only [hx, List.not_mem_nil]
    exact .refl _
  whole h := nomatch h
  part h := by rw [hx] at h; cases h
  quiet _ := rfl
  verdict h := nomatch h
  waiting _ := rfl

section

variable {frame : Bytes} {x y : Cabled} {done : List Int} {p : Int} {k : ConnRef}

/-- A peer whose turn has not come is linked as it was. -/
theorem Isolated.linked_iff (h : Isolated frame x done y) (hp : p ∉ done) :
    Linked y.server p k ↔ Linked x.server p k := by
  have hnode := h.purged.peers fun hF => hp (h.failed hF).1
  rw [Linked, Linked, ConnectionManager.linkSocket, ConnectionManager.linkSocket, hnode,
    h.purged.sessions.peers]

/-- A peer that is not linked is passed over. -/
theorem Isolated.pass (h : Isolated frame x done y)
    (hl : ∀ k, ¬ Linked x.server p k) : Isolated frame x (done ++ [p]) y where
  failed hF := ⟨List.mem_append_left _ (h.failed hF).1, (h.failed hF).2⟩
  purged := h.purged
  whole := by
    intro q k hq hk hF
    refine h.whole (List.mem_append.mp hq |>.resolve_right fun he => ?_) hk hF
    exact hl k (List.mem_singleton.mp he ▸ hk)
  part := h.part
  quiet hq := h.quiet fun hd => hq (List.mem_append_left _ hd)
  verdict := by
    intro q k hq hk hown
    refine h.verdict (List.mem_append.mp hq |>.resolve_right fun he => ?_) hk fun q' hq' =>
      hown q' (List.mem_append_left _ hq')
    exact hl k (List.mem_singleton.mp he ▸ hk)
  waiting hk := h.waiting fun q hq => hk q (List.mem_append_left _ hq)

/-- Before its turn a peer is sent nothing. -/
theorem Isolated.stream_eq (h : Isolated frame x done y) (hp : p ∉ done) :
    y.stream p = x.stream p :=
  h.quiet fun hd => absurd hd hp

/-- A socket that is the peer's own takes at its turn what it took at the start. -/
theorem Isolated.takes_eq (h : Isolated frame x done y) (hp : p ∉ done)
    (hown : ∀ q ∈ done ++ [p], Linked x.server q k → q = p) : y.takes k = x.takes k :=
  h.waiting fun q hq hk => hp (hown q (List.mem_append_left _ hq) hk ▸ hq)

theorem Linked.unique {s : ChatServer} {k' : ConnRef} (h : Linked s p k) (h' : Linked s p k') :
    k' = k :=
  Option.some.inj (h'.2.symm.trans h.2)

/-- The send to a peer completes. -/
theorem Isolated.complete (h : Isolated frame x done y) (hp : p ∉ done) (hl : Linked x.server p k)
    (hsize : frame.length < 2 ^ 31)
    (hr : (sendLoop (.start frame) (y.takes k)).1 = true) :
    Isolated frame x (done ++ [p]) (y.sent p k (sendLoop (.start frame) (y.takes k))) where
  failed hF := ⟨List.mem_append_left _ (h.failed hF).1, (h.failed hF).2⟩
  purged := h.purged
  whole := by
    intro q j hq hj hF
    by_cases hqp : q = p
    · subst hqp
      show Function.update y.stream q _ q = _
      have hsent : (sendLoop (.start frame) (y.takes k)).2.1 = frame :=
        (sendAll_sent hsize (y.takes k)).whole hr
      rw [Function.update_self, h.stream_eq hp, hsent]
    · show Function.update y.stream p _ q = _
      rw [Function.update_of_ne hqp]
      exact h.whole ((List.mem_append.mp hq).resolve_right fun he => hqp (List.mem_singleton.mp he))
        hj hF
  part := by
    intro q hq
    have hqp : q ≠ p := fun he => hp (he ▸ (h.failed hq).1)
    show ∃ part, _ ∧ _ ∧ Function.update y.stream p _ q = _
    rw [Function.update_of_ne hqp]
    exact h.part hq
  quiet := by
    intro q hq
    have hqp : q ≠ p := fun he => hq (by simp [he]) k (he ▸ hl)
    show Function.update y.stream p _ q = _
    rw [Function.update_of_ne hqp]
    exact h.quiet fun hd => hq (List.mem_append_left _ hd)
  verdict := by
    intro q j hq hj hown
    rcases List.mem_append.mp hq with hd | he
    · exact h.verdict hd hj fun q' hq' => hown q' (List.mem_append_left _ hq')
    · cases List.mem_singleton.mp he
      cases hl.unique hj
      rw [h.takes_eq hp hown] at hr
      rw [hr]
      exact iff_of_false (fun hF => hp (h.failed hF).1) (by simp)
  waiting := by
    intro j hj
    have hjk : j ≠ k := fun he => hj p (by simp) (he ▸ hl)
    rw [takes_sent hjk]
    exact h.waiting fun q hq => hj q (List.mem_append_left _ hq)

/-- The send to a peer fails. -/
theorem Isolated.fail (h : Isolated frame x done y) (hp : p ∉ done) (hl : Linked x.server p k)
    (hsize : frame.length < 2 ^ 31)
    (hr : (sendLoop (.start frame) (y.takes k)).1 = false) :
    Isolated frame x (done ++ [p])
      ((y.sent p k (sendLoop (.start frame) (y.takes k))).disconnected p) := by
  have hmem {q : Int} : q ∈ y.failed ++ [p] ↔ q ∈ y.failed ∨ q = p := by simp
  have hnot : p ∉ y.failed := fun hF => hp (h.failed hF).1
  have hly : Linked (y.sent p k (sendLoop (.start frame) (y.takes k))).server p k :=
    (h.linked_iff hp).mpr hl
  have hother {q : Int} (hqp : q ≠ p) :
      ((y.sent p k (sendLoop (.start frame) (y.takes k))).disconnected p).stream q = y.stream q :=
    Function.update_of_ne hqp _ _
  refine ⟨?_, ?_, ?_, ?_, ?_, ?_, ?_⟩
  · intro q hq
    rcases hmem.mp hq with hF | rfl
    · exact ⟨List.mem_append_left _ (h.failed hF).1, (h.failed hF).2⟩
    · exact ⟨by simp, k, hl⟩
  · have hset : (fun q => q ∈ y.failed ++ [p]) = fun q => q ∈ y.failed ∨ q = p :=
      funext fun q => propext hmem
    show ChatServer.Purged (fun q => q ∈ y.failed ++ [p]) _ _
    rw [hset]
    exact h.purged.add hnot (purged_disconnected hly)
  · intro q j hq hj hF
    obtain ⟨hF, hqp⟩ := not_or.mp (mt hmem.mpr hF)
    rw [hother hqp]
    exact h.whole ((List.mem_append.mp hq).resolve_right fun he => hqp (List.mem_singleton.mp he))
      hj hF
  · intro q hq
    by_cases hqp : q = p
    · subst hqp
      obtain ⟨hne, hprefix⟩ := (sendAll_sent hsize (y.takes k)).part hr
      refine ⟨_, hprefix, hne, ?_⟩
      show Function.update y.stream q _ q = _
      rw [Function.update_self, h.stream_eq hp]
      rfl
    · rw [hother hqp]
      exact h.part ((hmem.mp hq).resolve_right hqp)
  · intro q hq
    have hqp : q ≠ p := fun he => hq (by simp [he]) k (he ▸ hl)
    rw [hother hqp]
    exact h.quiet fun hd => hq (List.mem_append_left _ hd)
  · intro q j hq hj hown
    show q ∈ y.failed ++ [p] ↔ _
    rw [hmem]
    rcases List.mem_append.mp hq with hd | he
    · have hqp : q ≠ p := fun he => hp (he ▸ hd)
      rw [or_iff_left hqp]
      exact h.verdict hd hj fun q' hq' => hown q' (List.mem_append_left _ hq')
    · cases List.mem_singleton.mp he
      cases hl.unique hj
      rw [h.takes_eq hp hown] at hr
      exact iff_of_true (Or.inr rfl) hr
  · intro j hj
    have hjk : j ≠ k := fun he => hj p (by simp) (he ▸ hl)
    rw [takes_disconnected hly hjk, takes_sent hjk]
    exact h.waiting fun q hq => hj q (List.mem_append_left _ hq)

/-- The next peer. -/
theorem Isolated.next (h : Isolated frame x done y) (hp : p ∉ done)
    (hsize : frame.length < 2 ^ 31) : Isolated frame x (done ++ [p]) (sendToNode frame y p) := by
  by_cases hl : ∃ k, Linked x.server p k
  · obtain ⟨k, hl⟩ := hl
    rw [sendToNode_of_linked ((h.linked_iff hp).mpr hl)]
    split
    next hr => exact h.complete hp hl hsize hr
    next hr => exact h.fail hp hl hsize (Bool.eq_false_iff.mpr hr)
  · have hl' : ∀ k, ¬ Linked y.server p k := fun k hk => hl ⟨k, (h.linked_iff hp).mp hk⟩
    rw [sendToNode_of_not_linked hl']
    exact h.pass fun k hk => hl ⟨k, hk⟩

/-- The whole loop. -/
theorem Isolated.loop (h : Isolated frame x done y) {ps : List Int} (hnodup : (done ++ ps).Nodup)
    (hsize : frame.length < 2 ^ 31) :
    Isolated frame x (done ++ ps) (ps.foldl (sendToNode frame) y) := by
  induction ps generalizing done y with
  | nil =>
      rw [List.append_nil]
      exact h
  | cons p ps ih =>
      have hp : p ∉ done := fun hd =>
        (List.nodup_append.mp hnodup).2.2 p hd p (List.mem_cons_self ..) rfl
      have hsplit : done ++ p :: ps = done ++ [p] ++ ps := by simp
      rw [hsplit] at hnodup ⊢
      exact ih (h.next hp hsize) hnodup

end

/-- The frame of a payload that is not too long. -/
theorem length_frame_lt {type : PacketType} {payload : Bytes} (h : 5 + payload.length < 2 ^ 31) :
    (serialize type payload).length < 2 ^ 31 := by
  rw [length_serialize, Nat.mod_eq_of_lt (by omega)]
  exact h

/-- The payloads of the callers are not too long: they pack fields that came with packets. -/
theorem length_pack_lt {a b c : Bytes} (ha : a.length ≤ maxPayloadSize)
    (hb : b.length ≤ maxPayloadSize) (hc : c.length ≤ maxPayloadSize) :
    5 + (pack [a, b, c]).length < 2 ^ 31 := by
  have hmax : maxPayloadSize = 2 ^ 20 := rfl
  simp only [pack, List.length_append, List.length_cons, List.length_nil]
  omega

theorem peerNodes_sendToNode (frame : Bytes) (x : Cabled) (p : Int) :
    (sendToNode frame x p).server.connManager.peerNodes = x.server.connManager.peerNodes := by
  by_cases hl : ∃ k, Linked x.server p k
  · obtain ⟨k, hl⟩ := hl
    rw [sendToNode_of_linked hl]
    split
    · rfl
    · have hl' : Linked (x.sent p k (sendLoop (.start frame) (x.takes k))).server p k := hl
      exact (purged_disconnected hl').sessions.peers
  · rw [sendToNode_of_not_linked fun k hk => hl ⟨k, hk⟩]

/-- For peers that have a node the two loops are the same. -/
theorem foldl_sendToPeer (frame : Bytes) (x : Cabled) (ps : List Int)
    (h : ∀ p ∈ ps, p ∈ x.server.connManager.peerNodes) :
    ps.foldl (sendToPeer frame) x = ps.foldl (sendToNode frame) x := by
  induction ps generalizing x with
  | nil => rfl
  | cons p ps ih =>
      have hnode : x.server.connManager.hasPeerNode p = true := by
        simpa [ConnectionManager.hasPeerNode] using h p (List.mem_cons_self ..)
      have hsame : sendToNode frame x p = sendToPeer frame x p := by rw [sendToNode, if_pos hnode]
      rw [List.foldl_cons, List.foldl_cons, ← hsame]
      refine ih _ fun q hq => ?_
      rw [peerNodes_sendToNode]
      exact h q (List.mem_cons_of_mem _ hq)

/-! ## The loops as programs

Above, a send loop on a socket completes or does not (`canSend`).  Where that is what the
sockets take, and no two peers share one, the loops here do to the server what the programs
do. -/

section

variable {frame : Bytes} {x y : Cabled} {done ps : List Int} {p : Int}

/-- Of the linked peers no two have one socket. -/
def OwnSockets (s : ChatServer) : Prop := ∀ {p q k}, Linked s p k → Linked s q k → q = p

/-- A send loop on the socket of a linked peer completes exactly if the frame is taken. -/
def CanSendTakes (frame : Bytes) (x : Cabled) : Prop :=
  ∀ {p k}, Linked x.server p k →
    x.server.connManager.canSend k = (sendLoop (.start frame) (x.takes k)).1

theorem Isolated.server_next (h : Isolated frame x done y) (hp : p ∉ done)
    (hnode : p ∈ x.server.connManager.peerNodes) (hown : OwnSockets x.server)
    (hcan : CanSendTakes frame x) :
    (sendToNode frame y p).server = y.server.dropIfBroken p := by
  by_cases hl : ∃ k, Linked x.server p k
  · obtain ⟨k, hl⟩ := hl
    have hsocket : y.server.connManager.sockets k = x.server.connManager.sockets k := by
      refine h.purged.sockets fun q hq hk => ?_
      obtain ⟨hd, j, hj⟩ := h.failed hq
      cases Option.some.inj (hj.node.2.symm.trans hk)
      exact hp (hown hl hj ▸ hd)
    have htakes : y.takes k = x.takes k :=
      h.takes_eq hp fun q _ hq => hown hl hq
    have hcan' : y.server.connManager.canSend k = (sendLoop (.start frame) (y.takes k)).1 := by
      rw [htakes, ← hcan hl, ConnectionManager.canSend, ConnectionManager.canSend,
        ConnectionManager.getHandle, ConnectionManager.getHandle, hsocket]
    rw [sendToNode_of_linked ((h.linked_iff hp).mpr hl), ChatServer.dropIfBroken,
      ((h.linked_iff hp).mpr hl).2]
    simp only [hcan']
    split <;> rfl
  · have hl' : ∀ k, ¬ Linked y.server p k := fun k hk => hl ⟨k, (h.linked_iff hp).mp hk⟩
    have hnone : y.server.connManager.linkSocket p = none := by
      cases hs : y.server.connManager.linkSocket p with
      | none => rfl
      | some k =>
          have hnode' : p ∈ y.server.connManager.peerNodes := h.purged.sessions.peers ▸ hnode
          exact absurd ⟨hnode', hs⟩ (hl' k)
    rw [sendToNode_of_not_linked hl', ChatServer.dropIfBroken, hnone]

theorem Isolated.server_loop (h : Isolated frame x done y) (hnodup : (done ++ ps).Nodup)
    (hsize : frame.length < 2 ^ 31) (hnode : ∀ p ∈ ps, p ∈ x.server.connManager.peerNodes)
    (hown : OwnSockets x.server) (hcan : CanSendTakes frame x) :
    (ps.foldl (sendToNode frame) y).server = y.server.dropBroken ps := by
  induction ps generalizing done y with
  | nil => rfl
  | cons p ps ih =>
      have hp : p ∉ done := fun hd =>
        (List.nodup_append.mp hnodup).2.2 p hd p (List.mem_cons_self ..) rfl
      have hsplit : done ++ p :: ps = done ++ [p] ++ ps := by simp
      rw [hsplit] at hnodup
      rw [List.foldl_cons, ih (h.next hp hsize) hnodup fun q hq => hnode q (List.mem_cons_of_mem _ hq),
        h.server_next hp (hnode p (List.mem_cons_self ..)) hown hcan]
      rfl

/-- The bytes of `BroadcastS2S` refine its program. -/
theorem broadcastS2S_refines {type : PacketType} {payload : Bytes} (hx : x.failed = [])
    (hsize : 5 + payload.length < 2 ^ 31) (hown : OwnSockets x.server)
    (hcan : CanSendTakes (serialize type payload) x) :
    (x.broadcastS2S type payload).server =
      ((ChatServer.broadcastS2S type payload).run x.server).state := by
  have heq := foldl_sendToPeer (serialize type payload) x x.server.connManager.getAllPeerNodes
    fun p hp => hp
  rw [broadcastS2S, heq, ChatServer.state_broadcastS2S]
  exact (Isolated.start _ hx).server_loop x.server.connManager.peerNodes.nodup
    (length_frame_lt hsize) (fun p hp => hp) hown hcan

end

end Cabled

end DistributedChat
