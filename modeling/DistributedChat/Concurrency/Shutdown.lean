import DistributedChat.Concurrency.PeerSockets
import DistributedChat.Server.Closing

/-!
# Stopping a server

`ChatServer::Stop` clears the flags of the loops, closes the sockets and joins the
heartbeat thread, the listener and the connector.  Each statement of it is a step among
those of the threads.  Send loops are taken to end; when they do is the subject of
`sendShared_ends_iff`.

A listener in the middle of a packet comes back to the condition of its loop only
through its socket.  A socket that `Stop`, or a `HandlePeerDisconnect`, has closed gives it
nothing (`readPacketShared_ends_iff`), and `Stop` waits for the listener.  So one client
that keeps back a byte of a packet keeps the server from stopping, and nothing else does
(`stop_returns_iff`).
-/

namespace DistributedChat

open ChatServer
open Prog (observe update each follows_observe_bind Calm)

namespace ChatServer

/-- `Stop`, the sockets of the sessions and of the peers. -/
def closeConnections : ServerProg Unit := do
  let sessions ← observe (·.connManager.getAllSessions)
  each sessions fun k => update (onConn (·.closeSocket k))
  let peers ← observe (·.connManager.getAllPeerNodes)
  each peers fun p => do
    let socket ← observe fun s => (s.connManager.nodes p).socket
    match socket with
    | none => pure ()
    | some k => update (onConn (·.closeSocket k))

/-- A section closes a socket or does nothing. -/
def Closes (_ : Unit) (s : ChatServer) (out : List Effect) (s' : ChatServer) (_ : Unit) : Prop :=
  out = [] ∧ (s' = s ∨ ∃ k, s' = s.onConn (·.closeSocket k))

theorem calm_closeConnections : closeConnections.Calm Closes () := by
  have hclose (k : ConnRef) :
      (update (onConn (·.closeSocket k)) : ServerProg Unit).Calm Closes () :=
    fun _ => ⟨(), ⟨rfl, Or.inr ⟨k, rfl⟩⟩, rfl⟩
  refine follows_observe_bind fun s => ⟨(), ⟨rfl, Or.inl rfl⟩, ?_⟩
  refine Calm.then (Calm.each fun k _ => hclose k) fun _ => ?_
  refine follows_observe_bind fun s => ⟨(), ⟨rfl, Or.inl rfl⟩, Calm.each fun p _ => ?_⟩
  refine follows_observe_bind fun s => ⟨(), ⟨rfl, Or.inl rfl⟩, ?_⟩
  cases (s.connManager.nodes p).socket with
  | none => exact rfl
  | some k => exact hclose k

end ChatServer

/-! ## The steps -/

/-- The statement of `Stop` that comes next. -/
inductive Main where
  /-- `Stop` has not been called. -/
  | serving
  | clearRunning
  | clearBeating
  | joinHeartbeat
  | closeListener
  | closing (rest : ServerProg Unit)
  | joinListener
  | joinConnector
  | returned

/-- The socket on which the listener has part of a packet. -/
inductive HalfRead where
  | session (k : ConnRef)
  /-- Socket `k` of peer `p`. -/
  | peer (p : Int) (k : ConnRef)
deriving DecidableEq

namespace HalfRead

def conn : HalfRead → ConnRef
  | session k | peer _ k => k

/-- What it puts into the queue when it has the packet. -/
def task (pkt : RawPacket) : HalfRead → Task
  | session k => .client k pkt
  | peer p k => .peer p k pkt

/-- What it does when `ReadPacket` fails. -/
def gone : HalfRead → Work
  | session k => .clientGone k
  | peer p _ => .peerGone p

/-- The sessions it has still to look at. -/
def remaining (snapshot : List ConnRef) : HalfRead → List ConnRef
  | session k => snapshot.filter (· ≠ k)
  | peer _ _ => []

theorem mem_of_mem_remaining {x : HalfRead} {l : List ConnRef} {k : ConnRef}
    (h : k ∈ x.remaining l) : k ∈ l := by
  cases x with
  | session j => exact List.mem_of_mem_filter h
  | peer p j => cases h

end HalfRead

/-- A server, its threads and the thread that stops it. -/
structure Stoppable (n : Nat) extends Threads n where
  /-- `m_running` of the server. -/
  on : Bool := true
  /-- `m_running` of the heartbeat manager. -/
  beating : Bool := true
  /-- The listening socket is open. -/
  accepting : Bool := true
  /-- The loop of the thread is over. -/
  ended : Thread n → Bool := fun _ => false
  /-- Where the listener is in the middle of a packet and meets `WSAEWOULDBLOCK`. -/
  waits : Option HalfRead := none
  main : Main := .serving

/-- What the threads do. -/
inductive StopAction (n : Nat) where
  | thread (act : ThreadAction n)
  /-- A `Recv` of the listener meets `WSAEWOULDBLOCK` in the middle of a packet. -/
  | wait (x : HalfRead)
  /-- The rest of the packet arrives. -/
  | arrive (pkt : RawPacket)
  /-- The connection breaks. -/
  | cut
  /-- A thread finds the condition of its loop false. -/
  | leave (t : Thread n)
  /-- The next statement of `Stop`. -/
  | main

namespace Stoppable

variable {n : Nat}

/-- A server whose threads have just been started. -/
def started (id : Int) (peers : List Int) : Stoppable n :=
  { toThreads := Threads.idle (configured id peers) }

/-- The action is one of a loop that goes on. -/
def Allows (c : Stoppable n) : ThreadAction n → Prop
  | .accept _ => c.waits = none ∧ c.ended .listener = false ∧ c.accepting = true
  | .scan => c.waits = none ∧ c.ended .listener = false ∧ c.on = true
  | .read _ _ | .hangUp _ | .readPeer _ _ | .hangUpPeer _ =>
      c.waits = none ∧ c.ended .listener = false
  | .beat => c.ended .heartbeat = false ∧ c.beating = true
  | .dial _ _ => c.ended .connector = false
  | .take _ | .run _ | .finish _ | .enqueue | .clock _ => True

instance (c : Stoppable n) : DecidablePred c.Allows := fun
  | .accept _ | .scan => inferInstanceAs (Decidable (_ ∧ _ ∧ _))
  | .read _ _ | .hangUp _ | .readPeer _ _ | .hangUpPeer _ | .beat =>
      inferInstanceAs (Decidable (_ ∧ _))
  | .dial _ _ => inferInstanceAs (Decidable (_ = _))
  | .take _ | .run _ | .finish _ | .enqueue | .clock _ => instDecidableTrue

/-- The thread is at the condition of its loop and finds it false. -/
def MayLeave (c : Stoppable n) : Thread n → Prop
  | .listener => c.Listening ∧ c.waits = none ∧ c.on = false
  | .heartbeat => c.running .heartbeat = none ∧ c.beating = false
  | .connector => c.running .connector = none ∧ c.on = false
  | .worker _ => False

instance (c : Stoppable n) : DecidablePred c.MayLeave := fun
  | .listener => inferInstanceAs (Decidable (_ ∧ _ ∧ _))
  | .heartbeat | .connector => inferInstanceAs (Decidable (_ ∧ _))
  | .worker _ => instDecidableFalse

/-- The socket is one of those the listener reads. -/
def Reads (c : Stoppable n) : HalfRead → Prop
  | .session k => k ∈ c.snapshot
  | .peer p k =>
      c.state.connManager.hasPeerNode p = true ∧ c.state.connManager.linkSocket p = some k

instance (c : Stoppable n) : DecidablePred c.Reads := fun
  | .session _ => inferInstanceAs (Decidable (_ ∈ _))
  | .peer _ _ => inferInstanceAs (Decidable (_ ∧ _))

/-- The listener gets something from where it waits.  It calls no `recv` on a closed socket. -/
def heard (c : Stoppable n) : Option HalfRead :=
  c.waits.filter fun x => c.state.connManager.getHandle x.conn ≠ invalidSocket

/-- The loop of the thread ends. -/
def endLoop (c : Stoppable n) (t : Thread n) : Stoppable n :=
  { c with ended := Function.update c.ended t true }

/-- `ChatServer::Stop`. -/
def mainNext (c : Stoppable n) : Option (Stoppable n) :=
  match c.main with
  | .serving => some { c with main := if c.on = true then .clearRunning else .returned }
  | .clearRunning => some { c with on := false, main := .clearBeating }
  | .clearBeating =>
      some { c with
        beating := false
        main := if c.beating = true then .joinHeartbeat else .closeListener }
  | .joinHeartbeat =>
      if c.ended .heartbeat = true then some { c with main := .closeListener } else none
  | .closeListener => some { c with accepting := false, main := .closing closeConnections }
  | .closing rest =>
      match rest.step? c.state with
      | none => some { c with main := .joinListener }
      | some sec => some { c with state := sec.state, main := .closing sec.rest }
  | .joinListener =>
      if c.ended .listener = true then some { c with main := .joinConnector } else none
  | .joinConnector =>
      if c.ended .connector = true then some { c with main := .returned } else none
  | .returned => none

def next (c : Stoppable n) : StopAction n → Option (Stoppable n)
  | .thread act =>
      if c.Allows act then (c.toThreads.next act).map fun d => { c with toThreads := d } else none
  | .wait x =>
      if c.Listening ∧ c.ended .listener = false ∧ c.waits = none ∧ c.Reads x then
        some { c with waits := some x }
      else none
  | .arrive pkt =>
      c.heard.bind fun x =>
        if c.Listening ∧ pkt.Fits then
          some { c with
            snapshot := x.remaining c.snapshot
            held := some (x.task pkt)
            waits := none }
        else none
  | .cut =>
      c.heard.bind fun x =>
        ({ c.toThreads with snapshot := x.remaining c.snapshot }.launch .listener x.gone).map
          fun d => { c with toThreads := d, waits := none }
  | .leave t => if c.MayLeave t then some (c.endLoop t) else none
  | .main => c.mainNext

/-- The listener waits for a socket that has been closed. -/
def Stuck (c : Stoppable n) : Prop :=
  ∃ x ∈ c.waits, c.state.connManager.getHandle x.conn = invalidSocket

instance (c : Stoppable n) : Decidable c.Stuck := inferInstanceAs (Decidable (∃ _ ∈ _, _))

/-- `Stop` returns in some order of the steps. -/
def MayStop (c : Stoppable n) : Prop :=
  ∃ as d, exec next c as = some d ∧ d.main = .returned

end Stoppable

/-! ## A closed socket stays closed -/

namespace View

variable {n : Nat}

/-- The sockets of peers, and those that may become one, are objects that have been made. -/
structure Made (v : View n) : Prop where
  ground : v.Grounded
  linked : ∀ p k, (v.server.connManager.nodes p).socket = some k →
    k < v.server.connManager.nextConn
  dialed : ∀ x p k g, v.workAt x = some (.connected p k, g) → k < v.server.connManager.nextConn

theorem made_idle (id : Int) (peers : List Int) : Made (idle (configured id peers) : View n) where
  ground := grounded_idle id peers
  linked := by
    intro p k hp
    change ((configured id peers).connManager.nodes p).socket = some k at hp
    rw [(configured_connManager id peers).2.1 p] at hp
    cases hp
  dialed := fun _ _ _ _ hx => absurd hx workAt_idle

section

variable {v v' : View n} {act : ThreadAction n} {k : ConnRef}

theorem Made.step (h : Made v) (hs : v.Step act v') : Made v' where
  ground := h.ground.step hs
  linked := by
    intro p k hp
    refine Nat.lt_of_lt_of_le ?_ hs.nextConn
    cases hs.serves with
    | same he => exact h.linked p k (he ▸ hp)
    | accepted _ he | clocked _ he | dialed _ _ he =>
        rw [he] at hp
        exact h.linked p k hp
    | ran _ ht _ hstep =>
        rcases socket_step hstep hp with hp | rfl | ⟨-, pkt, rfl, -⟩
        · exact h.linked p k hp
        · exact h.dialed (.thread _) p k _ ht
        · exact h.ground.client (.thread _) k pkt _ ht
  dialed := by
    intro x p k g hx
    cases hs.origin hx with
    | moved hx => exact Nat.lt_of_lt_of_le (h.dialed _ p k g hx) hs.nextConn
    | ran _ _ ht => exact Nat.lt_of_lt_of_le (h.dialed (.thread _) p k _ ht) hs.nextConn
    | began _ hb =>
        cases hs with
        | dial =>
            cases hb
            exact Nat.lt_succ_self _
        | readPeer =>
            obtain ⟨_, _, he⟩ := hb
            cases he
        | read | hangUp | hangUpPeer | beat => cases hb
        | take | run | finish | accept | scan | enqueue | clock => exact hb.elim

/-- The listener has the rest of a packet. -/
theorem Made.hold (h : Made v) {x : HalfRead} (hx : x.conn < v.server.connManager.nextConn)
    (pkt : RawPacket) :
    Made { v with snapshot := x.remaining v.snapshot, held := some (x.task pkt) } where
  ground := by
    refine ⟨h.ground.live, fun k hk => h.ground.looked k (HalfRead.mem_of_mem_remaining hk), ?_⟩
    intro y k pkt' g hy
    cases y with
    | hand =>
        cases x with
        | session j =>
            cases hy
            exact hx
        | peer p j => cases hy
    | queue i => exact h.ground.client (.queue i) k pkt' g hy
    | thread t => exact h.ground.client (.thread t) k pkt' g hy
  linked := h.linked
  dialed := by
    intro y p k g hy
    cases y with
    | hand => cases hy
    | queue i => exact h.dialed (.queue i) p k g hy
    | thread t => exact h.dialed (.thread t) p k g hy

/-- The listener does what it does when a connection breaks. -/
theorem Made.gone (h : Made v) (x : HalfRead) :
    Made ({ v with snapshot := x.remaining v.snapshot }.assign .listener
      (some (x.gone, .start))) where
  ground := by
    refine ⟨h.ground.live, fun k hk => h.ground.looked k (HalfRead.mem_of_mem_remaining hk), ?_⟩
    intro y k pkt g hy
    cases y with
    | hand => exact h.ground.client .hand k pkt g hy
    | queue i => exact h.ground.client (.queue i) k pkt g hy
    | thread t =>
        rw [workAt, doing_assign] at hy
        split at hy
        next => cases x <;> cases hy
        next => exact h.ground.client (.thread t) k pkt g hy
  linked := h.linked
  dialed := by
    intro y p k g hy
    cases y with
    | hand => exact h.dialed .hand p k g hy
    | queue i => exact h.dialed (.queue i) p k g hy
    | thread t =>
        rw [workAt, doing_assign] at hy
        split at hy
        next => cases x <;> cases hy
        next => exact h.dialed (.thread t) p k g hy

/-- Closing a socket leaves everything else as it was. -/
theorem Made.close (h : Made v) (k : ConnRef) :
    Made { v with server := v.server.onConn (·.closeSocket k) } :=
  ⟨⟨h.ground.live, h.ground.looked, h.ground.client⟩, h.linked, h.dialed⟩

end

end View

namespace Stoppable

variable {n : Nat} {c c' : Stoppable n} {act : StopAction n} {k : ConnRef}

/-- What the flags say at a statement of `Stop`. -/
def Stage (c : Stoppable n) : Prop :=
  match c.main with
  | .serving | .clearRunning => c.on = true
  | .clearBeating | .closeListener | .joinListener => c.on = false
  | .joinHeartbeat => c.on = false ∧ c.beating = false
  | .closing rest => c.on = false ∧ rest.Calm Closes ()
  | .joinConnector | .returned => c.on = false ∧ c.ended .listener = true

/-- What holds of a server that is being stopped. -/
structure Sound (c : Stoppable n) : Prop where
  made : ∃ v, c.toThreads.Sees v ∧ v.Made
  stage : c.Stage
  waits : ∀ x ∈ c.waits, c.ended .listener = false ∧ c.held = none ∧
    x.conn < c.state.connManager.nextConn

theorem sound_started (id : Int) (peers : List Int) : (started id peers : Stoppable n).Sound where
  made := ⟨_, Threads.sees_idle _, View.made_idle id peers⟩
  stage := rfl
  waits := fun k hk => (Option.not_mem_none k hk).elim

/-- A statement of `Stop` changes the flags of the loops and closes sockets. -/
theorem Sound.mainNext (h : c.Sound) (hn : c.mainNext = some c') : c'.Sound := by
  have hstage := h.stage
  obtain ⟨threads, on, beating, accepting, ended, waits, main⟩ := c
  cases main with
  | serving =>
      cases hn
      obtain rfl : on = true := hstage
      exact ⟨h.made, rfl, h.waits⟩
  | clearRunning =>
      cases hn
      exact ⟨h.made, rfl, h.waits⟩
  | clearBeating =>
      cases hn
      refine ⟨h.made, ?_, h.waits⟩
      cases beating with
      | true => exact ⟨hstage, rfl⟩
      | false => exact hstage
  | joinHeartbeat =>
      obtain ⟨-, hs⟩ := Option.ite_none_right_eq_some.mp hn
      cases hs
      exact ⟨h.made, hstage.1, h.waits⟩
  | closeListener =>
      cases hn
      exact ⟨h.made, ⟨hstage, calm_closeConnections⟩, h.waits⟩
  | closing rest =>
      obtain ⟨hon, hcalm⟩ := hstage
      simp only [Stoppable.mainNext] at hn
      split at hn
      next =>
        cases hn
        exact ⟨h.made, hon, h.waits⟩
      next sec hsec =>
        cases hn
        obtain ⟨⟨⟩, ⟨-, hclose⟩, hrest⟩ := hcalm.section hsec
        refine ⟨?_, ⟨hon, hrest⟩, ?_⟩
        · obtain ⟨v, hsees, hmade⟩ := h.made
          have hserver : v.server = threads.state := hsees.server
          rcases hclose with hs | ⟨k, hs⟩
          · exact ⟨v, { hsees with server := hserver.trans hs.symm }, hmade⟩
          · have hclosed : v.server.onConn (·.closeSocket k) = sec.state := by rw [hserver, hs]
            exact ⟨{ v with server := v.server.onConn (·.closeSocket k) },
              { hsees with server := hclosed }, hmade.close k⟩
        · intro x hx
          obtain ⟨hended, hheld, hlt⟩ := h.waits x hx
          refine ⟨hended, hheld, ?_⟩
          rcases hclose with hs | ⟨j, hs⟩
          · exact hs ▸ hlt
          · rw [hs]
            exact hlt
  | joinListener =>
      obtain ⟨hended, hs⟩ := Option.ite_none_right_eq_some.mp hn
      cases hs
      exact ⟨h.made, ⟨hstage, hended⟩, h.waits⟩
  | joinConnector =>
      obtain ⟨-, hs⟩ := Option.ite_none_right_eq_some.mp hn
      cases hs
      exact ⟨h.made, hstage, h.waits⟩
  | returned => cases hn

/-- A loop that is over does not begin again. -/
theorem Stage.endLoop (h : c.Stage) (t : Thread n) : (c.endLoop t).Stage := by
  obtain ⟨threads, on, beating, accepting, ended, waits, main⟩ := c
  have hended (h : ended .listener = true) : Function.update ended t true .listener = true := by
    rw [Function.update_apply, h, ite_self]
  cases main with
  | joinConnector | returned => exact ⟨h.1, hended h.2⟩
  | _ => exact h

theorem heard_eq_some {x : HalfRead} : c.heard = some x ↔
    c.waits = some x ∧ c.state.connManager.getHandle x.conn ≠ invalidSocket := by
  rw [heard, Option.filter_eq_some_iff, decide_eq_true_iff]

/-- A listener that waits takes no packet. -/
theorem held_of_waits {a : ThreadAction n} {v v' : View n} (ha : c.Allows a)
    (hw : c.waits ≠ none) (hs : v.Step a v') (hh : v.held = none) : v'.held = none := by
  cases hs with
  | read | readPeer => exact absurd ha.1 hw
  | enqueue => rfl
  | _ => exact hh

theorem Sound.next (h : c.Sound) (hn : c.next act = some c') : c'.Sound := by
  cases act with
  | thread act =>
      obtain ⟨hallows, hn⟩ := Option.ite_none_right_eq_some.mp hn
      obtain ⟨d, hd, rfl⟩ := Option.map_eq_some_iff.mp hn
      obtain ⟨v, hsees, hmade⟩ := h.made
      obtain ⟨v', hstep, hsees'⟩ := hsees.next hd
      refine ⟨⟨v', hsees', hmade.step hstep⟩, h.stage, fun x hx => ?_⟩
      obtain ⟨hended, hheld, hlt⟩ := h.waits x hx
      refine ⟨hended, ?_, ?_⟩
      · rw [← hsees.held] at hheld
        have hw : c.waits ≠ none := fun hw => by
          change x ∈ c.waits at hx
          rw [hw] at hx
          cases hx
        rw [← hsees'.held]
        exact held_of_waits hallows hw hstep hheld
      · have hmore := hstep.nextConn
        rw [hsees.server, hsees'.server] at hmore
        exact Nat.lt_of_lt_of_le hlt hmore
  | wait x =>
      obtain ⟨⟨hlisten, hended, -, hreads⟩, hs⟩ := Option.ite_none_right_eq_some.mp hn
      cases hs
      refine ⟨h.made, h.stage, ?_⟩
      rintro _ ⟨⟩
      obtain ⟨v, hsees, hmade⟩ := h.made
      refine ⟨hended, hlisten.2, ?_⟩
      cases x with
      | session k => exact hsees.server ▸ hmade.ground.looked k (hsees.snapshot ▸ hreads)
      | peer p k =>
          have hk := hreads.2
          rw [ConnectionManager.linkSocket] at hk
          obtain ⟨-, hk⟩ := Option.ite_none_right_eq_some.mp hk
          exact hsees.server ▸ hmade.linked p k (hsees.server ▸ hk)
  | arrive pkt =>
      obtain ⟨x, hx, hn⟩ := Option.bind_eq_some_iff.mp hn
      obtain ⟨-, hs⟩ := Option.ite_none_right_eq_some.mp hn
      cases hs
      obtain ⟨v, hsees, hmade⟩ := h.made
      have hlt := (h.waits x (heard_eq_some.mp hx).1).2.2
      rw [← hsees.server] at hlt
      refine ⟨⟨_, ?_, hmade.hold hlt pkt⟩, h.stage, fun y hy => (Option.not_mem_none y hy).elim⟩
      exact { hsees with snapshot := congrArg x.remaining hsees.snapshot, held := rfl }
  | cut =>
      obtain ⟨x, -, hn⟩ := Option.bind_eq_some_iff.mp hn
      obtain ⟨d, hd, rfl⟩ := Option.map_eq_some_iff.mp hn
      obtain ⟨v, hsees, hmade⟩ := h.made
      have hrest : { c.toThreads with snapshot := x.remaining c.snapshot }.Sees
          { v with snapshot := x.remaining v.snapshot } :=
        { hsees with snapshot := congrArg x.remaining hsees.snapshot }
      exact ⟨⟨_, (hrest.launch hd).2, hmade.gone x⟩, h.stage,
        fun y hy => (Option.not_mem_none y hy).elim⟩
  | leave t =>
      obtain ⟨hleave, hs⟩ := Option.ite_none_right_eq_some.mp hn
      cases hs
      refine ⟨h.made, h.stage.endLoop t, fun x hx => ?_⟩
      change x ∈ c.waits at hx
      obtain ⟨hended, hheld, hlt⟩ := h.waits x hx
      refine ⟨?_, hheld, hlt⟩
      cases t with
      | listener =>
          rw [hleave.2.1] at hx
          cases hx
      | worker i => exact hleave.elim
      | heartbeat | connector => exact hended
  | main => exact h.mainNext hn

theorem sound_of_run {id : Int} {peers : List Int} {as : List (StopAction n)}
    (hrun : exec next (started id peers) as = some c) : c.Sound :=
  exec_invariant (I := Sound) Sound.next (sound_started id peers) hrun

/-! ## A listener that waits for ever -/

/-- A statement of `Stop` opens no socket and has nobody wait. -/
theorem closed_mainNext (h : c.Sound) (hn : c.mainNext = some c') : c'.waits = c.waits ∧
    (c.state.connManager.getHandle k = invalidSocket →
      c'.state.connManager.getHandle k = invalidSocket) := by
  have hstage := h.stage
  obtain ⟨threads, on, beating, accepting, ended, waits, main⟩ := c
  cases main with
  | serving | clearRunning | clearBeating | closeListener =>
      cases hn
      exact ⟨rfl, id⟩
  | joinHeartbeat | joinListener | joinConnector =>
      obtain ⟨-, hs⟩ := Option.ite_none_right_eq_some.mp hn
      cases hs
      exact ⟨rfl, id⟩
  | closing rest =>
      simp only [Stoppable.mainNext] at hn
      split at hn
      next =>
        cases hn
        exact ⟨rfl, id⟩
      next sec hsec =>
        cases hn
        obtain ⟨⟨⟩, ⟨-, hclose⟩, -⟩ := hstage.2.section hsec
        refine ⟨rfl, fun hc => ?_⟩
        change sec.state.connManager.getHandle k = invalidSocket
        rcases hclose with hs | ⟨j, hs⟩
        · rw [hs]
          exact hc
        · rw [hs, onConn_connManager, ConnectionManager.getHandle,
            ConnectionManager.sockets_closeSocket]
          split
          · rfl
          · exact hc
  | returned => cases hn

theorem Stuck.heard (hs : c.Stuck) : c.heard = none := by
  obtain ⟨x, hx, hc⟩ := hs
  refine Option.eq_none_iff_forall_not_mem.mpr fun y hy => ?_
  obtain ⟨hw, hne⟩ := heard_eq_some.mp hy
  rw [hx] at hw
  cases hw
  exact hne hc

theorem Stuck.next (h : c.Sound) (hs : c.Stuck) (hn : c.next act = some c') : c'.Stuck := by
  have hheard := hs.heard
  obtain ⟨x, hx, hc⟩ := hs
  cases act with
  | thread act =>
      obtain ⟨-, hn⟩ := Option.ite_none_right_eq_some.mp hn
      obtain ⟨d, hd, rfl⟩ := Option.map_eq_some_iff.mp hn
      obtain ⟨v, hsees, hmade⟩ := h.made
      obtain ⟨v', hstep, hsees'⟩ := hsees.next hd
      have hlt := (h.waits x hx).2.2
      rw [← hsees.server] at hc hlt
      exact ⟨x, hx, by rw [← hsees'.server, hstep.closed hlt hc]⟩
  | wait y =>
      obtain ⟨⟨-, -, hnone, -⟩, -⟩ := Option.ite_none_right_eq_some.mp hn
      rw [hnone] at hx
      cases hx
  | arrive pkt =>
      rw [Stoppable.next, hheard] at hn
      cases hn
  | cut =>
      rw [Stoppable.next, hheard] at hn
      cases hn
  | leave t =>
      obtain ⟨-, hs⟩ := Option.ite_none_right_eq_some.mp hn
      cases hs
      exact ⟨x, hx, hc⟩
  | main =>
      obtain ⟨hwaits, hclosed⟩ := closed_mainNext (k := x.conn) h hn
      exact ⟨x, hwaits ▸ hx, hclosed hc⟩

/-- `Stop` waits for the listener. -/
theorem Stuck.not_mayStop (h : c.Sound) (hs : c.Stuck) : ¬ c.MayStop := by
  rintro ⟨as, d, hrun, hret⟩
  have hboth : d.Sound ∧ d.Stuck :=
    exec_invariant (I := fun c => c.Sound ∧ c.Stuck)
      (fun h hn => ⟨h.1.next hn, h.2.next h.1 hn⟩) ⟨h, hs⟩ hrun
  obtain ⟨hsound, x, hx, -⟩ := hboth
  have hstage := hsound.stage
  rw [Stage, hret] at hstage
  exact Bool.noConfusion ((hsound.waits x hx).1.symm.trans hstage.2)

/-! ## A server that can stop -/

/-- The three loops that `Stop` waits for are in no program. -/
structure Resting (c : Stoppable n) : Prop where
  listener : c.running .listener = none
  heartbeat : c.running .heartbeat = none
  connector : c.running .connector = none

/-- They are at their conditions. -/
structure Ready (c : Stoppable n) : Prop extends Resting c where
  held : c.held = none
  waits : c.waits = none

theorem mayStop_of_next {a : StopAction n} (hn : c.next a = some c') (h : c'.MayStop) :
    c.MayStop := by
  obtain ⟨as, d, hrun, hret⟩ := h
  exact ⟨a :: as, d, exec_cons_eq_some.mpr ⟨c', hn, hrun⟩, hret⟩

/-- A loop that can end may be taken to have ended. -/
theorem mayStop_of_endLoop {t : Thread n} (hl : c.MayLeave t) (h : (c.endLoop t).MayStop) :
    c.MayStop :=
  mayStop_of_next (a := .leave t) (if_pos hl) h

/-- A statement of `Stop` leaves the loops where they are. -/
theorem Ready.goOn (h : c.Ready) (s : ChatServer) (on beating accepting : Bool) (main : Main) :
    Ready { c with
      state := s
      on := on
      beating := beating
      accepting := accepting
      main := main } :=
  ⟨⟨h.listener, h.heartbeat, h.connector⟩, h.held, h.waits⟩

theorem Ready.joinConnector (h : c.Ready) (hon : c.on = false) (hm : c.main = .joinConnector) :
    c.MayStop := by
  refine mayStop_of_endLoop (t := .connector) ⟨h.connector, hon⟩ ?_
  have hn : (c.endLoop .connector).mainNext =
      some { c.endLoop .connector with main := .returned } := by
    simp [mainNext, endLoop, hm]
  exact mayStop_of_next (a := .main) hn ⟨[], _, rfl, rfl⟩

theorem Ready.joinListener (h : c.Ready) (hon : c.on = false) (hm : c.main = .joinListener) :
    c.MayStop := by
  refine mayStop_of_endLoop (t := .listener) ⟨⟨h.listener, h.held⟩, h.waits, hon⟩ ?_
  have hn : (c.endLoop .listener).mainNext =
      some { c.endLoop .listener with main := .joinConnector } := by
    simp [mainNext, endLoop, hm]
  have hready : (c.endLoop .listener).Ready :=
    ⟨⟨h.listener, h.heartbeat, h.connector⟩, h.held, h.waits⟩
  exact mayStop_of_next (a := .main) hn ((hready.goOn ..).joinConnector hon rfl)

theorem Ready.closing (h : c.Ready) (hon : c.on = false) {rest : ServerProg Unit}
    (hm : c.main = .closing rest) : c.MayStop := by
  induction rest generalizing c with
  | ret a =>
      have hn : c.mainNext = some { c with main := .joinListener } := by
        simp only [mainNext, hm, Prog.step?]
      exact mayStop_of_next (a := .main) hn ((h.goOn ..).joinListener hon rfl)
  | ask f ih =>
      have hn : c.mainNext = some { c with main := .closing (f c.state) } := by
        simp only [mainNext, hm, Prog.step?]
      exact mayStop_of_next (a := .main) hn (ih c.state (h.goOn ..) hon rfl)
  | act upd emit f ih =>
      have hn : c.mainNext =
          some { c with state := upd c.state, main := .closing (f c.state) } := by
        simp only [mainNext, hm, Prog.step?]
      exact mayStop_of_next (a := .main) hn (ih c.state (h.goOn ..) hon rfl)

theorem Ready.closeListener (h : c.Ready) (hon : c.on = false) (hm : c.main = .closeListener) :
    c.MayStop := by
  have hn : c.mainNext =
      some { c with accepting := false, main := .closing closeConnections } := by
    simp only [mainNext, hm]
  exact mayStop_of_next (a := .main) hn ((h.goOn ..).closing hon rfl)

theorem Ready.joinHeartbeat (h : c.Ready) (hon : c.on = false) (hbeat : c.beating = false)
    (hm : c.main = .joinHeartbeat) : c.MayStop := by
  refine mayStop_of_endLoop (t := .heartbeat) ⟨h.heartbeat, hbeat⟩ ?_
  have hn : (c.endLoop .heartbeat).mainNext =
      some { c.endLoop .heartbeat with main := .closeListener } := by
    simp [mainNext, endLoop, hm]
  have hready : (c.endLoop .heartbeat).Ready :=
    ⟨⟨h.listener, h.heartbeat, h.connector⟩, h.held, h.waits⟩
  exact mayStop_of_next (a := .main) hn ((hready.goOn ..).closeListener hon rfl)

theorem Ready.clearBeating (h : c.Ready) (hon : c.on = false) (hm : c.main = .clearBeating) :
    c.MayStop := by
  cases hbeat : c.beating with
  | true =>
      have hn : c.mainNext = some { c with beating := false, main := .joinHeartbeat } := by
        simp only [mainNext, hm, hbeat, if_true]
      exact mayStop_of_next (a := .main) hn ((h.goOn ..).joinHeartbeat hon rfl rfl)
  | false =>
      have hn : c.mainNext = some { c with beating := false, main := .closeListener } := by
        simp only [mainNext, hm, hbeat, Bool.false_eq_true, if_false]
      exact mayStop_of_next (a := .main) hn ((h.goOn ..).closeListener hon rfl)

theorem Ready.clearRunning (h : c.Ready) (hm : c.main = .clearRunning) : c.MayStop := by
  have hn : c.mainNext = some { c with on := false, main := .clearBeating } := by
    simp only [mainNext, hm]
  exact mayStop_of_next (a := .main) hn ((h.goOn ..).clearBeating rfl rfl)

/-- With every loop at its condition, `Stop` goes through from wherever it is. -/
theorem Ready.mayStop (h : c.Ready) (hstage : c.Stage) : c.MayStop := by
  cases hm : c.main with
  | serving =>
      rw [Stage, hm] at hstage
      have hn : c.mainNext = some { c with main := .clearRunning } := by
        simp only [mainNext, hm, show c.on = true from hstage, if_true]
      exact mayStop_of_next (a := .main) hn ((h.goOn ..).clearRunning rfl)
  | clearRunning => exact h.clearRunning hm
  | clearBeating =>
      rw [Stage, hm] at hstage
      exact h.clearBeating hstage hm
  | joinHeartbeat =>
      rw [Stage, hm] at hstage
      exact h.joinHeartbeat hstage.1 hstage.2 hm
  | closeListener =>
      rw [Stage, hm] at hstage
      exact h.closeListener hstage hm
  | closing rest =>
      rw [Stage, hm] at hstage
      exact h.closing hstage.1 hm
  | joinListener =>
      rw [Stage, hm] at hstage
      exact h.joinListener hstage hm
  | joinConnector =>
      rw [Stage, hm] at hstage
      exact h.joinConnector hstage.1 hm
  | returned => exact ⟨[], c, rfl, hm⟩

/-- The listener puts what it has read into the queue. -/
theorem Resting.mayStop (h : c.Resting) (hstage : c.Stage) (hfree : c.waits = none) :
    c.MayStop := by
  cases hheld : c.held with
  | none => exact Ready.mayStop ⟨h, hheld, hfree⟩ hstage
  | some task =>
      have hn : c.next (.thread .enqueue) = some { c with
          toPool := c.toPool.submit (.task task) (Work.task task).prog
          held := none } := by
        simp only [next, Allows, if_true, Threads.next, hheld, Option.map_some, Threads.withPool]
      have hready : Ready { c with
          toPool := c.toPool.submit (.task task) (Work.task task).prog
          held := none } :=
        ⟨⟨h.listener, h.heartbeat, h.connector⟩, rfl, hfree⟩
      exact mayStop_of_next hn (hready.mayStop hstage)

/-- **Stopping a server.**  In any run of a server, whenever the three loops are in no program,
`Stop` can still return, if it has been called or is called now, if and only if the listener does
not wait for the rest of a packet on a socket that has been closed. -/
theorem stop_returns_iff (id : Int) (peers : List Int) {as : List (StopAction n)}
    (hrun : exec next (started id peers) as = some c) (hrest : c.Resting) :
    c.MayStop ↔ ¬ c.Stuck := by
  have hsound := sound_of_run hrun
  refine ⟨fun hmay hs => hs.not_mayStop hsound hmay, fun hnot => ?_⟩
  cases hw : c.waits with
  | none => exact hrest.mayStop hsound.stage hw
  | some x =>
      have hopen : c.state.connManager.getHandle x.conn ≠ invalidSocket :=
        fun hc => hnot ⟨x, hw, hc⟩
      have hheld := (hsound.waits x hw).2.1
      have hn : c.next (.arrive ⟨.login, []⟩) = some { c with
          snapshot := x.remaining c.snapshot
          held := some (x.task ⟨.login, []⟩)
          waits := none } := by
        rw [Stoppable.next, heard_eq_some.mpr ⟨hw, hopen⟩, Option.bind_some,
          if_pos ⟨⟨hrest.listener, hheld⟩, by decide⟩]
      refine mayStop_of_next hn (Resting.mayStop ?_ hsound.stage rfl)
      exact ⟨hrest.listener, hrest.heartbeat, hrest.connector⟩

/-- A client sends a byte, and then the server is stopped. -/
def heldBack : List (StopAction 1) :=
  [.thread (.accept 5), .thread .scan, .wait (.session 0), .main, .main, .main, .leave .heartbeat,
    .main, .main, .main, .main]

theorem stop_returns_iff_heldBack :
    ∃ c, exec next (started 1 [] : Stoppable 1) heldBack = some c ∧ ¬ c.MayStop := by
  have hrun : (exec next (started 1 [] : Stoppable 1) heldBack).any fun c =>
      decide (c.Stuck) && (c.running .listener).isNone && (c.running .heartbeat).isNone &&
        (c.running .connector).isNone := by decide +kernel
  obtain ⟨c, hc, h⟩ := (Option.any_eq_true ..).mp hrun
  simp only [Bool.and_eq_true, Option.isNone_iff_eq_none, decide_eq_true_eq] at h
  obtain ⟨⟨⟨hstuck, hl⟩, hh⟩, hcon⟩ := h
  exact ⟨c, hc, fun hmay => (stop_returns_iff 1 [] hc ⟨hl, hh, hcon⟩).mp hmay hstuck⟩

end Stoppable

end DistributedChat
