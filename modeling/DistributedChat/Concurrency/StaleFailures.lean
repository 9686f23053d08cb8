import DistributedChat.Server.Failures

/-!
# Stale failures and newer links

Several threads may see a link fail, and meanwhile the peer may be connected
again over another socket.  `HandlePeerDisconnect` looks the socket up again by
the id of the peer, so a thread that is late closes the new socket and purges
what has come in over it (`stale_failure_tears_down`).  If no socket is
registered for a peer while a failure of another socket of it is being handled,
and no thread takes up a failure of a socket whose place another one has taken,
then a failure is the end of its own socket only (`failures_spare_newer_links`).

`LinkThreads` is a server whose threads are known by their troubles alone.
Whatever the threads of a server do, these do (`links_of_threads`).
-/

namespace DistributedChat

open ChatServer

/-- A server, and the trouble each of its threads is in. -/
structure LinkThreads (ι : Type) where
  server : ChatServer
  hand : ι → Trouble := fun _ => .calm

/-- What happens at a server. -/
inductive LinkAction (ι : Type) where
  /-- A section that has nothing to do with the sockets of peers. -/
  | aside (a : Aside)
  /-- `RegisterPeerSocket`, in a handshake of either side. -/
  | register (p : Int) (k : ConnRef)
  /-- A thread goes on with a link. -/
  | link (t : ι) (a : LinkStep)

/-- What handling a failure on the socket `x` of peer `p` leaves as it is. -/
structure Spared (p : Int) (x : Option ConnRef) (s s' : ChatServer) : Prop where
  /-- Other sockets are not closed. -/
  sockets : ∀ y, x ≠ some y → s'.connManager.sockets y = s.connManager.sockets y
  /-- Other sockets are not unregistered. -/
  nodes : ∀ q y, (s.connManager.nodes q).socket = some y → (q = p → x ≠ some y) →
    s'.connManager.nodes q = s.connManager.nodes q
  /-- While another socket is registered for the peer, nothing is purged. -/
  tables : ∀ y, (s.connManager.nodes p).socket = some y → x ≠ some y →
    s'.userManager = s.userManager ∧ s'.roomManager = s.roomManager

theorem Spared.refl (p : Int) (x : Option ConnRef) (s : ChatServer) : Spared p x s s :=
  ⟨fun _ _ => rfl, fun _ _ _ _ => rfl, fun _ _ _ => ⟨rfl, rfl⟩⟩

namespace Trouble

/-- The thread is not handling a failure of another socket of the peer. -/
def Admits (p : Int) (k : ConnRef) : Trouble → Prop
  | handling q x _ => q = p → x = some k
  | _ => True

/-- The socket the thread is using is the one registered for the peer, or there is none. -/
def UpToDate (registered : Int → Option ConnRef) : Trouble → Prop
  | engaged p x => ∀ y ∈ registered p, y = x
  | _ => True

instance (p : Int) (k : ConnRef) : DecidablePred (Admits p k) := fun
  | handling q x _ => inferInstanceAs (Decidable (q = p → x = some k))
  | calm | engaged _ _ => instDecidableTrue

instance (registered : Int → Option ConnRef) : DecidablePred (UpToDate registered) := fun
  | engaged p x => inferInstanceAs (Decidable (∀ y ∈ registered p, y = x))
  | calm | handling _ _ _ => instDecidableTrue

end Trouble

namespace LinkThreads

variable {ι : Type}

/-- No thread is in trouble. -/
def start (s : ChatServer) : LinkThreads ι := { server := s }

/-- The socket registered for a peer. -/
def registered (c : LinkThreads ι) (p : Int) : Option ConnRef := (c.server.connManager.nodes p).socket

/-- One action. -/
def next [DecidableEq ι] (c : LinkThreads ι) : LinkAction ι → Option (LinkThreads ι)
  | .aside a => some { c with server := a.apply c.server }
  | .register p k =>
      some { c with server := c.server.onConn (·.registerPeerSocket p k c.server.now) }
  | .link t a =>
      (a.perform c.server (c.hand t)).map fun r =>
        { server := r.2, hand := Function.update c.hand t r.1 }

/-- The action is not the late end of a failure on another socket. -/
def Spares [DecidableEq ι] (c : LinkThreads ι) : LinkAction ι → Prop
  | .link t a => ∀ p x stage, c.hand t = .handling p x stage → ∀ c' ∈ c.next (.link t a),
      Spared p x c.server c'.server
  | _ => True

/-- A socket is registered for a peer only if no thread is handling a failure of another socket of
the peer, and a failure is taken up only if no other socket is registered for the peer. -/
def Orderly (c : LinkThreads ι) : LinkAction ι → Prop
  | .register p k => ∀ t, (c.hand t).Admits p k
  | .link t .fail => (c.hand t).UpToDate c.registered
  | _ => True

/-- Whoever handles a failure handles one of the socket registered for the peer, if there is
one, and closes no other. -/
structure Current (c : LinkThreads ι) : Prop where
  registered : ∀ {t p x stage y}, c.hand t = .handling p x stage → c.registered p = some y →
    x = some y
  closing : ∀ {t p x y}, c.hand t = .handling p x (.closing y) → x = some y

/-! ## What a section does -/

section

variable {s s' : ChatServer} {a : LinkStep} {g g' : Trouble} {p q : Int} {x x' : Option ConnRef}
  {y : ConnRef} {stage stage' : Handling}

/-- `HandlePeerDisconnect` registers no socket. -/
theorem socket_of_proceed (h : ((stage.proceed s p x).2.connManager.nodes q).socket = some y) :
    (s.connManager.nodes q).socket = some y := by
  cases stage with
  | connected =>
      rw [Handling.proceed] at h
      split at h <;> exact h
  | cutting =>
      rw [Handling.proceed, onConn_connManager, ConnectionManager.nodes_unregisterPeerSocket] at h
      split at h
      · cases h
      · exact h
  | called | found | closing | unregistered | cleared => exact h

/-- A thread goes on handling the failure it handles, and closes the socket it reads. -/
theorem handling_of_proceed (h : (stage.proceed s p x).1 = .handling q x' stage') :
    q = p ∧ x' = x ∧ ∀ y, stage' = .closing y → (s.connManager.nodes p).socket = some y := by
  cases stage with
  | called | found =>
      rw [Handling.proceed] at h
      split at h
      · cases h
        exact ⟨rfl, rfl, fun _ he => Handling.noConfusion he⟩
      · cases h
  | connected =>
      rw [Handling.proceed] at h
      split at h
      next hsock =>
        cases h
        exact ⟨rfl, rfl, fun _ he => Handling.noConfusion he⟩
      next z hsock =>
        cases h
        refine ⟨rfl, rfl, fun y he => ?_⟩
        cases he
        exact hsock
  | closing | cutting | unregistered =>
      cases h
      exact ⟨rfl, rfl, fun _ he => Handling.noConfusion he⟩
  | cleared => cases h

/-- If the failure is one of the registered socket, the next section spares what is not of it. -/
theorem spared_proceed (hreg : ∀ y, (s.connManager.nodes p).socket = some y → x = some y)
    (hclose : ∀ y, stage = .closing y → x = some y) : Spared p x s (stage.proceed s p x).2 := by
  -- no other socket is registered, so the last condition is void
  have htables : ∀ {s' : ChatServer} (y : ConnRef), (s.connManager.nodes p).socket = some y →
      x ≠ some y → s'.userManager = s.userManager ∧ s'.roomManager = s.roomManager :=
    fun y hy hne => absurd (hreg y hy) hne
  cases stage with
  | called | found => exact .refl p x s
  | connected =>
      rw [Handling.proceed]
      split <;> exact .refl p x s
  | closing z =>
      refine ⟨fun y hy => ?_, fun _ _ _ _ => rfl, htables⟩
      rw [Handling.proceed, onConn_connManager, ConnectionManager.sockets_closeSocket, if_neg]
      rintro rfl
      exact hy (hclose y rfl)
  | cutting =>
      refine ⟨fun y _ => ?_, fun q y hq hne => ?_, htables⟩
      · rw [Handling.proceed, onConn_connManager, ConnectionManager.sockets_unregisterPeerSocket]
      · rw [Handling.proceed, onConn_connManager, ConnectionManager.nodes_unregisterPeerSocket,
          if_neg]
        rintro ⟨-, rfl⟩
        exact hne rfl (hreg y hq)
  | unregistered | cleared => exact ⟨fun _ _ => rfl, fun _ _ _ _ => rfl, htables⟩

/-- No thread that is in trouble registers a socket. -/
theorem socket_of_perform (h : a.perform s g = some (g', s'))
    (hq : (s'.connManager.nodes q).socket = some y) : (s.connManager.nodes q).socket = some y := by
  cases a with
  | engage r =>
      cases g with
      | calm =>
          obtain ⟨z, -, he⟩ := Option.map_eq_some_iff.mp h
          cases he
          exact hq
      | engaged | handling => cases h
  | succeed | fail =>
      cases g with
      | engaged =>
          cases h
          exact hq
      | calm | handling => cases h
  | timeOut r =>
      cases g with
      | calm =>
          obtain ⟨-, he⟩ := Option.ite_none_right_eq_some.mp h
          cases he
          exact hq
      | engaged | handling => cases h
  | proceed =>
      cases g with
      | handling r z stage =>
          have he := congrArg Prod.snd (Option.some.inj h)
          rw [← show _ = s' from he] at hq
          exact socket_of_proceed hq
      | calm | engaged => cases h

/-- Where a failure that is handled comes from. -/
inductive Arises (s : ChatServer) (a : LinkStep) (g : Trouble) (p : Int) (x : Option ConnRef)
    (stage : Handling) : Prop where
  | handled (stage₀ : Handling) (h : g = .handling p x stage₀)
      (hclose : ∀ y, stage = .closing y → (s.connManager.nodes p).socket = some y)
  | seen (y : ConnRef) (ha : a = .fail) (h : g = .engaged p y) (hx : x = some y)
      (hstage : stage = .called)
  | late (hx : x = (s.connManager.nodes p).socket) (hstage : stage = .called)

theorem arises_of_perform (h : a.perform s g = some (.handling p x stage, s')) :
    Arises s a g p x stage := by
  cases a with
  | engage r =>
      cases g with
      | calm =>
          obtain ⟨z, -, he⟩ := Option.map_eq_some_iff.mp h
          cases he
      | engaged | handling => cases h
  | succeed =>
      cases g with
      | calm | engaged | handling => cases h
  | fail =>
      cases g with
      | engaged r z =>
          cases h
          exact .seen z rfl rfl rfl rfl
      | calm | handling => cases h
  | timeOut r =>
      cases g with
      | calm =>
          obtain ⟨-, he⟩ := Option.ite_none_right_eq_some.mp h
          cases he
          exact .late rfl rfl
      | engaged | handling => cases h
  | proceed =>
      cases g with
      | handling r z stage₀ =>
          have he := congrArg Prod.fst (Option.some.inj h)
          obtain ⟨rfl, rfl, hclose⟩ := handling_of_proceed he
          exact .handled stage₀ rfl hclose
      | calm | engaged => cases h

end

/-! ## The invariant -/

section

variable [DecidableEq ι] {c c' : LinkThreads ι} {act : LinkAction ι}

omit [DecidableEq ι] in
theorem current_start (s : ChatServer) : (start s : LinkThreads ι).Current :=
  ⟨(fun h => nomatch h), (fun h => nomatch h)⟩

theorem Current.next (h : c.Current) (ho : c.Orderly act) (hn : c.next act = some c') :
    c'.Current := by
  cases act with
  | aside a =>
      cases hn
      refine ⟨fun {t p x stage y} ht hy => h.registered ht ?_, h.closing⟩
      exact (a.socket_apply c.server p).symm.trans hy
  | register p k =>
      cases hn
      refine ⟨fun {t q x stage y} ht hy => ?_, h.closing⟩
      rw [LinkThreads.registered, onConn_connManager,
        ConnectionManager.nodes_registerPeerSocket] at hy
      split at hy
      next hp =>
        have hk : Trouble.Admits p k (c.hand t) := ho t
        rw [show c.hand t = _ from ht] at hk
        rw [hk hp.2]
        exact hy
      next => exact h.registered ht hy
  | link t a =>
      obtain ⟨⟨g', s'⟩, hp, rfl⟩ := Option.map_eq_some_iff.mp hn
      have hback : ∀ {q y}, (s'.connManager.nodes q).socket = some y → c.registered q = some y :=
        socket_of_perform hp
      constructor
      · intro t' p x stage y ht hy
        change Function.update c.hand t g' t' = _ at ht
        rw [Function.update_apply] at ht
        split at ht
        next =>
          subst ht
          cases arises_of_perform hp with
          | handled stage₀ hg => exact h.registered hg (hback hy)
          | seen z ha hg hx =>
              subst ha
              rw [Orderly, hg] at ho
              rw [hx, ho y (hback hy)]
          | late hx => exact hx.trans (hback hy)
        next => exact h.registered ht (hback hy)
      · intro t' p x y ht
        change Function.update c.hand t g' t' = _ at ht
        rw [Function.update_apply] at ht
        split at ht
        next =>
          subst ht
          cases arises_of_perform hp with
          | handled stage₀ hg hclose => exact h.registered hg (hclose y rfl)
          | seen _ _ _ _ hstage => cases hstage
          | late _ hstage => cases hstage
        next => exact h.closing ht

theorem Current.spares (h : c.Current) : c.Spares act := by
  cases act with
  | aside | register => trivial
  | link t a =>
      intro p x stage ht c' hn
      obtain ⟨⟨g', s'⟩, hp, rfl⟩ := Option.map_eq_some_iff.mp hn
      rw [ht] at hp
      cases a with
      | proceed =>
          rw [← show _ = s' from congrArg Prod.snd (Option.some.inj hp)]
          exact spared_proceed (fun y hy => h.registered ht hy) fun y hy => h.closing (hy ▸ ht)
      | engage | succeed | fail | timeOut => cases hp

/-- **Newer links are spared.**  If no socket is registered for a peer while a failure of another
socket of the peer is being handled, and no failure is taken up while another socket is
registered, then handling a failure closes and unregisters no socket but the one that failed, and
purges users and rooms of the peer only while no other socket is registered for it. -/
theorem failures_spare_newer_links {s : ChatServer} {as : List (LinkAction ι)}
    (h : Along next Orderly (start s) as) : Along next Spares (start s) as :=
  Along.of_invariant (fun hI ho hn => hI.next ho hn) (fun hI _ => hI.spares) (current_start s) h

end

/-! ## The threads of a server -/

/-- Every thread of a pool is in a trouble that what is left of its program gets over. -/
structure Mirrors (d : LinkThreads ι) (P : Pool ι ChatServer Effect Work) : Prop where
  server : d.server = P.state
  free : ∀ {t}, P.running t = none → d.hand t = .calm
  busy : ∀ {t j}, P.running t = some j → Recovers j.rest (d.hand t)
  waiting : ∀ {j}, j ∈ P.queue → Recovers j.rest .calm

section

variable [DecidableEq ι] {P P' : Pool ι ChatServer Effect Work} {d d' : LinkThreads ι} {t : ι}
  {w : Work}

/-- A section of a thread, as an action. -/
theorem exec_of_moves {s' : ChatServer} {g' : Trouble} {out : List Effect}
    (h : Trouble.Moves (d.hand t) d.server out s' g') :
    ∃ act d', d.next act = some d' ∧ d'.server = s' ∧ d'.hand t = g' ∧
      ∀ t', t' ≠ t → d'.hand t' = d.hand t' := by
  generalize hg : d.hand t = g at h
  generalize hs : d.server = s at h
  cases h with
  | aside a => exact ⟨.aside a, _, rfl, hs ▸ rfl, hg, fun _ _ => rfl⟩
  | register p k => exact ⟨.register p k, _, rfl, hs ▸ rfl, hg, fun _ _ => rfl⟩
  | @link a _ _ _ _ _ hp =>
      rw [← hg, ← hs] at hp
      refine ⟨.link t a, _, Option.map_eq_some_iff.mpr ⟨_, hp, rfl⟩, rfl, ?_, fun t' ht => ?_⟩
      · exact Function.update_self ..
      · exact Function.update_of_ne ht ..

/-- A thread changes its program, and its trouble with it. -/
theorem Mirrors.assign (h : d.Mirrors P) (hs : d'.server = d.server)
    (hother : ∀ t', t' ≠ t → d'.hand t' = d.hand t') {x : Option (Job ChatServer Effect Work)}
    (hnone : x = none → d'.hand t = .calm) (hsome : ∀ j, x = some j → Recovers j.rest (d'.hand t)) :
    d'.Mirrors (P.assign t x) where
  server := hs.trans h.server
  free := by
    intro t' ht
    rw [Pool.running_assign] at ht
    split at ht
    next he => exact he ▸ hnone ht
    next hne => exact (hother t' hne).trans (h.free ht)
  busy := by
    intro t' j ht
    rw [Pool.running_assign] at ht
    split at ht
    next he => exact he ▸ hsome j ht
    next hne => exact (hother t' hne).symm ▸ h.busy ht
  waiting := h.waiting

theorem Mirrors.launch (h : d.Mirrors P) (hP : P.launch t w w.prog = some P')
    (hs : d'.server = d.server) (hother : ∀ t', t' ≠ t → d'.hand t' = d.hand t')
    (hw : Recovers w.prog (d'.hand t)) : d'.Mirrors P' := by
  obtain ⟨-, rfl⟩ := Pool.launch_eq_some.mp hP
  have hassign : d'.Mirrors (P.assign t (some ⟨P.made, w, w.prog⟩)) := by
    refine h.assign hs hother (fun he => nomatch he) fun j he => ?_
    cases he
    exact hw
  exact ⟨hassign.server, hassign.free, hassign.busy, hassign.waiting⟩

/-- A thread that is free takes up work and is in no trouble. -/
theorem Mirrors.launch_calm (h : d.Mirrors P) (hP : P.launch t w w.prog = some P')
    (hw : w.outset none = .calm) : d.Mirrors P' := by
  obtain ⟨hfree, -⟩ := Pool.launch_eq_some.mp hP
  have hrec := w.recovers none
  rw [hw, ← h.free hfree] at hrec
  exact h.launch hP rfl (fun _ _ => rfl) hrec

/-- A thread that has seen the socket of a peer fail disconnects the peer. -/
theorem Mirrors.peerGone {p : Int} {x : ConnRef} (h : d.Mirrors P)
    (hP : P.launch t (.peerGone p) (handlePeerDisconnect p) = some P')
    (hx : (P.state.connManager.nodes p).socket = some x) :
    ∃ as d', exec next d as = some d' ∧ d'.Mirrors P' := by
  obtain ⟨hfree, -⟩ := Pool.launch_eq_some.mp hP
  let d₁ : LinkThreads ι := { d with hand := Function.update d.hand t (.engaged p x) }
  let d₂ : LinkThreads ι :=
    { d with hand := Function.update d₁.hand t (.handling p (some x) .called) }
  have hengage : d.next (.link t (.engage p)) = some d₁ := by
    rw [← h.server] at hx
    simp [next, LinkStep.perform, h.free hfree, hx, d₁]
  have hfail : d₁.next (.link t .fail) = some d₂ := by
    simp [next, LinkStep.perform, d₁, d₂]
  refine ⟨[.link t (.engage p), .link t .fail], d₂, ?_, ?_⟩
  · exact exec_cons_eq_some.mpr ⟨d₁, hengage, exec_cons_eq_some.mpr ⟨d₂, hfail, rfl⟩⟩
  · refine h.launch (w := .peerGone p) hP rfl (fun t' ht => ?_) ?_
    · simp [d₁, d₂, Function.update_of_ne ht]
    · simp only [d₂, Function.update_self]
      exact recovers_handlePeerDisconnect p (some x)

theorem Mirrors.take (h : d.Mirrors P) (hP : P.take t = some P') : d.Mirrors P' := by
  obtain ⟨j₀, rest, hfree, hq, rfl⟩ := Pool.take_eq_some.mp hP
  have hassign : d.Mirrors (P.assign t (some j₀)) := by
    refine h.assign rfl (fun _ _ => rfl) (fun he => nomatch he) fun j he => ?_
    cases he
    rw [h.free hfree]
    exact h.waiting (hq ▸ List.mem_cons_self ..)
  exact ⟨hassign.server, hassign.free, hassign.busy,
    fun hj => h.waiting (hq ▸ List.mem_cons_of_mem _ hj)⟩

theorem Mirrors.finish (h : d.Mirrors P) (hP : P.finish t = some P') : d.Mirrors P' := by
  obtain ⟨j, hj, hend, rfl⟩ := Pool.finish_eq_some.mp hP
  obtain ⟨-, hcalm⟩ := (h.busy hj).ended hend
  exact h.assign rfl (fun _ _ => rfl) (fun _ => hcalm) fun _ he => nomatch he

omit [DecidableEq ι] in
theorem Mirrors.submit (h : d.Mirrors P) (hw : Recovers w.prog .calm) :
    d.Mirrors (P.submit w w.prog) where
  server := h.server
  free := h.free
  busy := h.busy
  waiting := by
    intro j hj
    rcases List.mem_append.mp hj with hj | hj
    · exact h.waiting hj
    · rw [List.mem_singleton.mp hj]
      exact hw

theorem Mirrors.advance (h : d.Mirrors P) (hP : P.advance t = some P') :
    ∃ act d', d.next act = some d' ∧ d'.Mirrors P' := by
  obtain ⟨j, c, hj, hc, rfl⟩ := Pool.advance_eq_some.mp hP
  obtain ⟨g', hmove, hrest⟩ := (h.busy hj).section hc
  rw [← h.server] at hmove
  obtain ⟨act, d', hn, hserver, hhand, hother⟩ := exec_of_moves hmove
  refine ⟨act, d', hn, hserver, ?_, ?_, h.waiting⟩
  · intro t' ht
    rw [Pool.running_perform] at ht
    split at ht
    · cases ht
    next hne => exact (hother t' hne).trans (h.free ht)
  · intro t' j' ht
    rw [Pool.running_perform] at ht
    split at ht
    next he =>
      cases ht
      rw [he, hhand]
      exact hrest
    next hne => exact (hother t' hne).symm ▸ h.busy ht

omit [DecidableEq ι] in
/-- An action that changes the state alone. -/
theorem Mirrors.aside (h : d.Mirrors P) (a : Aside) :
    ({ d with server := a.apply d.server } : LinkThreads ι).Mirrors
      { P with state := a.apply P.state } where
  server := congrArg a.apply h.server
  free := h.free
  busy := h.busy
  waiting := h.waiting

end

/-- Whatever the threads of a server do, their counterparts can do. -/
theorem Mirrors.threads {n : Nat} {c c' : Threads n} {act : ThreadAction n}
    {d : LinkThreads (Thread n)} (h : d.Mirrors c.toPool) (hn : c.next act = some c') :
    ∃ as d', exec LinkThreads.next d as = some d' ∧ d'.Mirrors c'.toPool := by
  cases act with
  | take i =>
      obtain ⟨P, hP, rfl⟩ := Option.map_eq_some_iff.mp hn
      exact ⟨[], d, rfl, h.take hP⟩
  | run t =>
      obtain ⟨P, hP, rfl⟩ := Option.map_eq_some_iff.mp hn
      obtain ⟨act, d', hact, h'⟩ := h.advance hP
      exact ⟨[act], d', exec_cons_eq_some.mpr ⟨d', hact, rfl⟩, h'⟩
  | finish t =>
      obtain ⟨P, hP, rfl⟩ := Option.map_eq_some_iff.mp hn
      exact ⟨[], d, rfl, h.finish hP⟩
  | accept handle =>
      obtain ⟨-, he⟩ := Option.ite_none_right_eq_some.mp hn
      cases he
      exact ⟨[.aside ⟨fun s => s.onConn (·.accepted handle), fun _ _ => rfl⟩], _, rfl, h.aside _⟩
  | scan | read =>
      obtain ⟨-, he⟩ := Option.ite_none_right_eq_some.mp hn
      cases he
      exact ⟨[], d, rfl, h⟩
  | hangUp k =>
      obtain ⟨-, he⟩ := Option.ite_none_right_eq_some.mp hn
      obtain ⟨P, hP, rfl⟩ := Option.map_eq_some_iff.mp he
      exact ⟨[], d, rfl, Mirrors.launch_calm (P := c.toPool) h hP rfl⟩
  | readPeer p pkt =>
      rw [Threads.next] at hn
      split at hn
      · cases hn
      · obtain ⟨-, he⟩ := Option.ite_none_right_eq_some.mp hn
        cases he
        exact ⟨[], d, rfl, h⟩
  | hangUpPeer p =>
      obtain ⟨⟨-, -, hlink⟩, he⟩ := Option.ite_none_right_eq_some.mp hn
      obtain ⟨P, hP, rfl⟩ := Option.map_eq_some_iff.mp he
      obtain ⟨x, hx⟩ := Option.isSome_iff_exists.mp hlink
      exact Mirrors.peerGone (P := c.toPool) h hP (Option.ite_none_right_eq_some.mp hx).2
  | enqueue =>
      rw [Threads.next] at hn
      split at hn
      · cases hn
      next t _ =>
        cases hn
        exact ⟨[], d, rfl, h.submit ((Work.task t).recovers none)⟩
  | clock now =>
      obtain ⟨-, he⟩ := Option.ite_none_right_eq_some.mp hn
      cases he
      exact ⟨[.aside ⟨fun s => { s with now := now }, fun _ _ => rfl⟩], _, rfl, h.aside _⟩
  | beat =>
      obtain ⟨P, hP, rfl⟩ := Option.map_eq_some_iff.mp hn
      exact ⟨[], d, rfl, h.launch_calm hP rfl⟩
  | dial p handle =>
      obtain ⟨-, he⟩ := Option.ite_none_right_eq_some.mp hn
      obtain ⟨P, hP, rfl⟩ := Option.map_eq_some_iff.mp he
      exact ⟨[.aside (.newSocket handle)], _, rfl, (h.aside (.newSocket handle)).launch_calm hP rfl⟩

/-- A run of the threads of a server is a run of threads that are known by their troubles: the
server goes through the same states. -/
theorem links_of_threads {n : Nat} {s : ChatServer} {as : List (ThreadAction n)} {c : Threads n}
    (hrun : exec Threads.next (Threads.idle s) as = some c) :
    ∃ bs d, exec LinkThreads.next (start s : LinkThreads (Thread n)) bs = some d ∧
      d.server = c.state := by
  have hstart : (start s).Mirrors (Threads.idle s : Threads n).toPool :=
    ⟨rfl, fun _ => rfl, (fun h => nomatch h), fun h => absurd h List.not_mem_nil⟩
  have hkeep := exec_invariant (I := fun c : Threads n => ∃ bs d,
    exec LinkThreads.next (start s : LinkThreads (Thread n)) bs = some d ∧ d.Mirrors c.toPool) ?_
    ⟨[], start s, rfl, hstart⟩ hrun
  · obtain ⟨bs, d, hbs, hd⟩ := hkeep
    exact ⟨bs, d, hbs, hd.server⟩
  · rintro c act c' ⟨bs, d, hbs, hd⟩ hn
    obtain ⟨bs', d', hbs', hd'⟩ := hd.threads hn
    exact ⟨bs ++ bs', d', exec_append_eq_some.mpr ⟨d, hbs, hbs'⟩, hd'⟩

/-! ## Two runs -/

instance [Fintype ι] (c : LinkThreads ι) (act : LinkAction ι) : Decidable (c.Orderly act) :=
  match act with
  | .register p k => inferInstanceAs (Decidable (∀ t, (c.hand t).Admits p k))
  | .link t .fail => inferInstanceAs (Decidable ((c.hand t).UpToDate c.registered))
  | .aside _ | .link _ (.engage _) | .link _ .succeed | .link _ (.timeOut _) | .link _ .proceed =>
      instDecidableTrue

/-- A failure of socket 0 is handled, and then the peer is connected over socket 1. -/
def relink : List (LinkAction Bool) :=
  [.aside (.newSocket 4), .register 2 0, .link false (.engage 2), .link false .fail] ++
    List.replicate 7 (.link false .proceed) ++
    [.aside (.newSocket 5), .register 2 1, .link true (.engage 2), .link true .succeed]

/-- Both threads see socket 0 fail.  One of them handles the failure, and the peer is connected
over socket 1.  Then the other one comes to read the socket of the peer. -/
def lateFailure : List (LinkAction Bool) :=
  [.aside (.newSocket 4), .register 2 0, .link false (.engage 2), .link false .fail,
      .link true (.engage 2), .link true .fail] ++
    List.replicate 7 (.link true .proceed) ++ [.aside (.newSocket 5), .register 2 1] ++
    List.replicate 3 (.link false .proceed)

theorem failures_spare_newer_links_relink :
    ∃ c, exec next (start (configured 1 [2])) relink = some c ∧ c.registered 2 = some 1 ∧
      Along next Spares (start (configured 1 [2])) relink := by
  have hrun : (exec next (start (configured 1 [2])) relink).any fun c =>
      decide (c.registered 2 = some 1) := by decide +kernel
  obtain ⟨c, hc, h⟩ := (Option.any_eq_true ..).mp hrun
  exact ⟨c, hc, of_decide_eq_true h, failures_spare_newer_links (by decide +kernel)⟩

/-- The thread that is late has seen socket 0 fail, and closes socket 1. -/
theorem stale_failure_tears_down :
    ¬ Along next Spares (start (configured 1 [2])) (lateFailure ++ [.link false .proceed]) := by
  intro hall
  have hrun : (exec next (start (configured 1 [2])) lateFailure).any fun c =>
      decide (c.hand false = .handling 2 (some 0) (.closing 1) ∧
        c.server.connManager.getHandle 1 = 5) := by decide +kernel
  obtain ⟨c, hc, h⟩ := (Option.any_eq_true ..).mp hrun
  obtain ⟨hhand, hopen⟩ := of_decide_eq_true h
  obtain ⟨hspares, -⟩ := ((along_append hc).mp hall).2
  have hclosed := (hspares 2 (some 0) _ hhand _
    (by rw [next, hhand]; exact rfl)).sockets 1 (by decide)
  have hhandle := congrArg TcpSocket.handle hclosed
  rw [show (c.server.connManager.sockets 1).handle = 5 from hopen] at hhandle
  exact absurd (show invalidSocket = 5 from hhandle) (by decide)

end LinkThreads

end DistributedChat
