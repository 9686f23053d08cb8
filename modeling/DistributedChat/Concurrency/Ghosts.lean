import DistributedChat.Server.Registry
import DistributedChat.Server.Views

/-!
# Late logins

A server without peers whose clients each send one `LOGIN` and may leave at any
time.  The listener handles the end of a connection on its own thread, while the
connection's login may still be in the queue or on a worker.  If the login takes
effect after the clean-up, its name stays in the tables for good
(`late_login_leaves_ghost`).  If the listener handles the end of a connection
only when its session is logged in or no packet of it is under way, nobody is
left behind (`no_ghost`).

The invariant is `Alive`: a login that has not yet reached `AuthenticateSession`
belongs to a session that is registered and that the listener is not removing.
So whoever is entered in a table is, or is about to be, the name of a session
that stays.
-/

namespace DistributedChat

open ChatServer

/-- The connection the action reads a packet from. -/
def ThreadAction.reader {n : Nat} : ThreadAction n → Option ConnRef
  | .read k _ => some k
  | _ => none

/-- What is read from a client is a login. -/
def ThreadAction.OnlyLogins {n : Nat} : ThreadAction n → Prop
  | .read _ pkt => pkt.type = .login
  | _ => True

instance {n : Nat} (act : ThreadAction n) : Decidable act.OnlyLogins :=
  match act with
  | .read _ pkt => inferInstanceAs (Decidable (pkt.type = .login))
  | .take _ | .run _ | .finish _ | .accept _ | .scan | .hangUp _ | .readPeer _ _
  | .hangUpPeer _ | .enqueue | .clock _ | .beat | .dial _ _ => instDecidableTrue

/-- Every user located at this server, and every entry of `m_sessionsByUsername`,
belongs to a session in `m_sessionsBySocket`. -/
structure ChatServer.NoGhost (s : ChatServer) : Prop where
  located : ∀ u, s.userManager.location? u = some s.serverId → ∃ k, s.Holds k u
  named : ∀ u k, s.connManager.getSessionByUsername u = some k → s.Holds k u

/-- The end of a connection is handled when its session is logged in or no packet
of it is waiting or being handled. -/
def Threads.Heard {n : Nat} (c : Threads n) : ThreadAction n → Prop
  | .hangUp k => c.state.Authenticated k ∨ ¬ c.Awaits k
  | _ => True

instance {n : Nat} (c : Threads n) (act : ThreadAction n) : Decidable (c.Heard act) :=
  match act with
  | .hangUp k => inferInstanceAs (Decidable (c.state.Authenticated k ∨ ¬ c.Awaits k))
  | .take _ | .run _ | .finish _ | .accept _ | .scan | .read _ _ | .readPeer _ _
  | .hangUpPeer _ | .enqueue | .clock _ | .beat | .dial _ _ => instDecidableTrue

namespace View

variable {n : Nat}

/-- The phases of a login before `AuthenticateSession`. -/
inductive Trying : Phase → Prop where
  | start : Trying .start
  | free {u : Bytes} (hu : u ≠ [] ∧ NulFree u) : Trying ⟨.free u, .whole⟩
  | entered {u : Bytes} (hu : u ≠ [] ∧ NulFree u) : Trying ⟨.entered u, .whole⟩

/-- What is done in a server without peers to which clients send logins. -/
inductive Quaint : Work → Phase → Prop where
  | trying {k : ConnRef} {pkt : RawPacket} {g : Phase} (ht : pkt.type = .login) (hg : Trying g) :
      Quaint (.task (.client k pkt)) g
  | named {k : ConnRef} {pkt : RawPacket} (u : Bytes) :
      Quaint (.task (.client k pkt)) ⟨.named u, .whole⟩
  | served {k : ConnRef} {pkt : RawPacket} : Quaint (.task (.client k pkt)) ⟨.served, .whole⟩
  | leaves (k : ConnRef) : Quaint (.clientGone k) .start
  | ending (k : ConnRef) (h : SOCKET) : Quaint (.clientGone k) ⟨.ending h, .whole⟩
  | leaving (k : ConnRef) (h : SOCKET) (u : Bytes) : Quaint (.clientGone k) ⟨.leaving h u, .whole⟩
  | removing (k : ConnRef) (h : SOCKET) : Quaint (.clientGone k) ⟨.removing h, .whole⟩
  | gone (k : ConnRef) : Quaint (.clientGone k) ⟨.gone, .whole⟩
  | heartbeats : Quaint .heartbeats .start

/-- The sections of such programs. -/
inductive Turn (s : ChatServer) : Work → Phase → ChatServer → Phase → Prop where
  | rest {w : Work} {g : Phase} : Turn s w g s g
  | find {k : ConnRef} {pkt : RawPacket} {u : Bytes} (hu : u ≠ [] ∧ NulFree u) :
      Turn s (.task (.client k pkt)) .start s ⟨.free u, .whole⟩
  | enter {k : ConnRef} {pkt : RawPacket} {u : Bytes} (hu : u ≠ [] ∧ NulFree u) :
      Turn s (.task (.client k pkt)) ⟨.free u, .whole⟩ (s.onUsers (·.registerUser u s.serverId))
        ⟨.entered u, .whole⟩
  | letIn {k : ConnRef} {pkt : RawPacket} {u : Bytes} (hu : u ≠ [] ∧ NulFree u) :
      Turn s (.task (.client k pkt)) ⟨.entered u, .whole⟩ (s.onConn (·.authenticateSession k u))
        ⟨.named u, .whole⟩
  | answer {k : ConnRef} {pkt : RawPacket} {u : Bytes} :
      Turn s (.task (.client k pkt)) ⟨.named u, .whole⟩ s ⟨.served, .whole⟩
  | look {k : ConnRef} :
      Turn s (.clientGone k) .start s ⟨.ending (s.connManager.getHandle k), .whole⟩
  | know {k : ConnRef} {h : SOCKET} (hu : (s.connManager.sessions k).username ≠ []) :
      Turn s (.clientGone k) ⟨.ending h, .whole⟩ s
        ⟨.leaving h (s.connManager.sessions k).username, .whole⟩
  | skip {k : ConnRef} {h : SOCKET} (hu : (s.connManager.sessions k).username = []) :
      Turn s (.clientGone k) ⟨.ending h, .whole⟩ s ⟨.removing h, .whole⟩
  | forget {k : ConnRef} {h : SOCKET} {u : Bytes} :
      Turn s (.clientGone k) ⟨.leaving h u, .whole⟩ (s.onUsers (·.unregisterUser u))
        ⟨.removing h, .whole⟩
  | discard {k : ConnRef} {h : SOCKET} :
      Turn s (.clientGone k) ⟨.removing h, .whole⟩ (s.onConn (·.removeSession h)) ⟨.gone, .whole⟩

/-- What the listener knows of the session it is removing. -/
def Knows (s : ChatServer) (k : ConnRef) : Point → Prop
  | .ending h | .removing h => h = s.connManager.getHandle k
  | .leaving h u => h = s.connManager.getHandle k ∧ s.Holds k u
  | _ => True

/-- The name is that of a session that stays, or soon will be. -/
def Vouched (v : View n) (u : Bytes) : Prop :=
  (∃ k, v.server.Holds k u ∧ ∀ h, v.doing .listener ≠ some (.clientGone k, ⟨.removing h, .whole⟩)) ∨
    ∃ t k pkt, v.doing t = some (.task (.client k pkt), ⟨.entered u, .whole⟩)

/-- No login overtakes the end of its connection.  `R` are the connections read
from so far. -/
structure Alive (R : List ConnRef) (v : View n) : Prop where
  ok : v.server.connManager.Ok
  noPeer : ∀ p, v.server.connManager.hasPeerNode p = false
  quaint : ∀ x w g, v.workAt x = some (w, g) → Quaint w g
  listener : ∀ x k g, v.workAt x = some (.clientGone k, g) → x = .thread .listener
  distinct : v.Distinct
  known : ∀ x w g k, v.workAt x = some (w, g) → w.conn = some k → k ∈ R
  heard : ∀ k, v.server.Authenticated k → k ∈ R
  looked : ∀ k ∈ v.snapshot, v.server.connManager.Live k
  trying : ∀ x k pkt g, v.workAt x = some (.task (.client k pkt), g) → Trying g →
    v.server.connManager.Live k ∧ ¬ v.server.Authenticated k
  leaving : ∀ k m, v.doing .listener = some (.clientGone k, ⟨m, .whole⟩) → m ≠ .gone →
    v.server.connManager.Live k ∧ k ∉ v.snapshot ∧ Knows v.server k m ∧
      ∀ x pkt g, v.workAt x = some (.task (.client k pkt), g) → ¬ Trying g
  located : ∀ u, v.server.userManager.location? u = some v.server.serverId → v.Vouched u
  named : ∀ u k, v.server.connManager.getSessionByUsername u = some k → v.server.Holds k u

section

variable {R : List ConnRef} {v v' : View n} {act : ThreadAction n} {k : ConnRef} {u : Bytes}
  {w : Work} {g g' : Phase} {s s' : ChatServer} {out : List Effect}

/-! ## The programs -/

theorem not_trying_named : ¬ Trying ⟨.named u, .whole⟩ := by
  intro h
  cases h

theorem not_trying_served : ¬ Trying ⟨.served, .whole⟩ := by
  intro h
  cases h

/-- Without peers no program gets into a `HandlePeerDisconnect`. -/
theorem Quaint.turn (hq : Quaint w g) (hno : ∀ p, s.connManager.hasPeerNode p = false)
    (hstep : Phase.Step w g s out s' g') : Turn s w g s' g' := by
  have haim : ∀ {p : Int}, s.connManager.hasPeerNode p ≠ true := by
    intro p hp
    rw [hno] at hp
    cases hp
  cases hq with
  | trying ht hg =>
      cases hg with
      | start =>
          cases hstep with
          | idle => exact .rest
          | touch h => cases h <;> simp_all
          | aim _ hp => exact absurd hp haim
          | free _ hu hn => exact .find ⟨hu, hn⟩
          | dropping hc => simp_all
      | free hu =>
          cases hstep with
          | idle hm => cases hm
          | aim hm => cases hm
          | register => exact .enter hu
      | entered hu =>
          cases hstep with
          | idle hm => cases hm
          | aim hm => cases hm
          | authenticate => exact .letIn hu
  | named u =>
      cases hstep with
      | idle hm => cases hm
      | aim hm => cases hm
      | welcome => exact .answer
  | served =>
      cases hstep with
      | idle => exact .rest
      | aim _ hp => exact absurd hp haim
  | leaves k =>
      cases hstep with
      | idle => exact .rest
      | touch h => cases h
      | aim _ hp => exact absurd hp haim
      | ending => exact .look
  | ending k h =>
      cases hstep with
      | idle hm => cases hm
      | aim hm => cases hm
      | leaving hu => exact .know hu
      | nameless hu => exact .skip hu
  | leaving k h u =>
      cases hstep with
      | idle hm => cases hm
      | aim hm => cases hm
      | logout => exact .forget
  | removing k h =>
      cases hstep with
      | idle => exact .rest
      | aim _ hp => exact absurd hp haim
      | remove => exact .discard
  | gone k =>
      cases hstep with
      | idle hm => cases hm
      | aim hm => cases hm
  | heartbeats =>
      cases hstep with
      | idle => exact .rest
      | touch h => cases h
      | aim _ hp => exact absurd hp haim

theorem Turn.quaint (h : Turn s w g s' g') (hq : Quaint w g) : Quaint w g' := by
  cases h with
  | rest => exact hq
  | find hu =>
      cases hq with
      | trying ht => exact .trying ht (.free hu)
  | enter hu =>
      cases hq with
      | trying ht => exact .trying ht (.entered hu)
  | letIn => exact .named _
  | answer => exact .served
  | look => exact .ending _ _
  | know => exact .leaving ..
  | skip | forget => exact .removing ..
  | discard => exact .gone _

/-- A login that has not yet got through had not before. -/
theorem Turn.trying {pkt : RawPacket} (h : Turn s (.task (.client k pkt)) g s' g')
    (hg : Trying g') : Trying g := by
  cases h with
  | rest => exact hg
  | find => exact .start
  | enter hu => exact .free hu
  | letIn => exact absurd hg not_trying_named
  | answer => exact absurd hg not_trying_served

/-! ## What an action does to the places -/

/-- The connections read from after an action. -/
def readers (R : List ConnRef) (act : ThreadAction n) : List ConnRef :=
  R ++ [act].filterMap ThreadAction.reader

theorem mem_readers (h : k ∈ R) : k ∈ readers R act := List.mem_append_left _ h

theorem mem_readers_self {pkt : RawPacket} :
    k ∈ readers R (.read k pkt : ThreadAction n) :=
  List.mem_append_right _ (List.mem_singleton_self _)

/-- Links are not read, and nobody is dialed. -/
theorem Alive.begins (h : Alive R v) (hs : v.Step act v') (hb : Begins v act w) :
    (∃ k pkt, act = .read k pkt ∧ w = .task (.client k pkt) ∧ k ∈ v.snapshot) ∨
      (∃ k, act = .hangUp k ∧ w = .clientGone k ∧ k ∈ v.snapshot) ∨ act = .beat ∧ w = .heartbeats := by
  cases hs with
  | read _ _ hk => exact Or.inl ⟨_, _, rfl, hb, hk⟩
  | hangUp _ _ hk => exact Or.inr (Or.inl ⟨_, rfl, hb, hk⟩)
  | beat => exact Or.inr (Or.inr ⟨rfl, hb⟩)
  | readPeer _ _ hp =>
      rw [h.noPeer] at hp
      cases hp
  | hangUpPeer _ _ hp =>
      rw [h.noPeer] at hp
      cases hp
  | dial _ hp =>
      rw [h.noPeer] at hp
      cases hp
  | take | run | finish | accept | scan | enqueue | clock => exact hb.elim

/-- A program that has been taken further has taken a turn. -/
theorem Alive.turn (h : Alive R v) {t : Thread n} (ht : v.doing t = some (w, g))
    (hstep : Phase.Step w g v.server out s' g') : Turn v.server w g s' g' :=
  (h.quaint (.thread t) w g ht).turn h.noPeer hstep

/-- What does not depend on the server survives every action. -/
theorem Alive.places (h : Alive R v) (hs : v.Step act v') (hlog : act.OnlyLogins)
    (hfresh : ∀ k ∈ act.reader, k ∉ R) :
    (∀ x w g, v'.workAt x = some (w, g) → Quaint w g) ∧
      (∀ x k g, v'.workAt x = some (.clientGone k, g) → x = .thread .listener) ∧ v'.Distinct ∧
      (∀ x w g k, v'.workAt x = some (w, g) → w.conn = some k → k ∈ readers R act) := by
  refine ⟨?_, ?_, ?_, ?_⟩
  · intro y w g hy
    cases hs.origin hy with
    | moved hx => exact h.quaint _ w g hx
    | ran _ _ ht hstep => exact (h.turn ht hstep).quaint (h.quaint (.thread _) _ _ ht)
    | began hg hb =>
        subst hg
        rcases h.begins hs hb with ⟨k, pkt, rfl, rfl, -⟩ | ⟨k, rfl, rfl, -⟩ | ⟨rfl, rfl⟩
        · exact .trying hlog .start
        · exact .leaves k
        · exact .heartbeats
  · intro y k g hy
    cases hs.origin hy with
    | moved hx => exact before_eq_thread (h.listener _ k g hx)
    | ran _ hyt ht => exact hyt.trans (h.listener (.thread _) k _ ht)
    | began hg hb hspot =>
        rcases h.begins hs hb with ⟨_, _, _, he, -⟩ | ⟨_, rfl, -⟩ | ⟨_, he⟩
        · cases he
        · exact hspot
        · cases he
  · refine h.distinct.step hs fun w k hb hk x w' g' hx hk' => ?_
    rcases h.begins hs hb with ⟨k', pkt, rfl, rfl, -⟩ | ⟨k', rfl, rfl, -⟩ | ⟨rfl, rfl⟩
    · cases hk
      exact hfresh _ rfl (h.known x w' g' _ hx hk')
    · cases hk
    · cases hk
  · intro y w g k hy hk
    cases hs.origin hy with
    | moved hx => exact mem_readers (h.known _ w g k hx hk)
    | ran _ _ ht => exact mem_readers (h.known (.thread _) w _ k ht hk)
    | began hg hb =>
        rcases h.begins hs hb with ⟨k', pkt, rfl, rfl, -⟩ | ⟨k', rfl, rfl, -⟩ | ⟨rfl, rfl⟩
        · cases hk
          exact mem_readers_self
        · cases hk
        · cases hk

/-! ## What an action does to the sessions -/

/-- What the sessions and their tables see of an action. -/
inductive Sessions (v v' : View n) : Prop where
  | same (h : v'.server.connManager = v.server.connManager)
  | accepted {handle : SOCKET} (hf : v.server.connManager.FreeHandle handle)
      (h : v'.server = v.server.onConn (·.accepted handle))
  | admitted {t : Thread n} {k : ConnRef} {pkt : RawPacket} {u : Bytes} (hu : u ≠ [] ∧ NulFree u)
      (ht : v.doing t = some (.task (.client k pkt), ⟨.entered u, .whole⟩))
      (ht' : v'.doing t = some (.task (.client k pkt), ⟨.named u, .whole⟩))
      (h : v'.server = v.server.onConn (·.authenticateSession k u))
  | discarded {k : ConnRef} (hk : v.server.connManager.Live k) (hsnap : k ∉ v.snapshot)
      (ht : v.doing .listener =
        some (.clientGone k, ⟨.removing (v.server.connManager.getHandle k), .whole⟩))
      (ht' : v'.doing .listener = some (.clientGone k, ⟨.gone, .whole⟩))
      (htry : ∀ x pkt g, v.workAt x = some (.task (.client k pkt), g) → ¬ Trying g)
      (h : v'.server = v.server.onConn (·.removeSession (v.server.connManager.getHandle k)))

theorem Alive.sessions (h : Alive R v) (hs : v.Step act v') : Sessions v v' := by
  cases hs.serves with
  | same he => exact .same (by rw [he])
  | accepted hf he => exact .accepted hf he
  | clocked _ he => exact .same (by rw [he])
  | dialed _ hp =>
      rw [h.noPeer] at hp
      cases hp
  | @ran t w g g' out ha ht ht' hstep =>
      have hturn := h.turn ht hstep
      generalize hserver : v'.server = s' at hturn
      cases hturn with
      | enter | forget => exact .same (by rw [hserver]; rfl)
      | letIn hu => exact .admitted hu ht ht' hserver
      | @discard k hd =>
          have hl : Place.thread t = .thread .listener := h.listener (.thread t) k _ ht
          cases hl
          obtain ⟨hk, hsnap, rfl, htry⟩ := h.leaving k _ ht Point.noConfusion
          exact .discarded hk hsnap ht ht' htry hserver
      | _ => exact .same (by rw [hserver])

/-- The session of a login that has not got through is not authenticated. -/
theorem Alive.blank (h : Alive R v) {t : Thread n} {pkt : RawPacket} (hu : u ≠ [] ∧ NulFree u)
    (ht : v.doing t = some (.task (.client k pkt), ⟨.entered u, .whole⟩)) :
    v.server.connManager.Live k ∧ ¬ v.server.Authenticated k :=
  h.trying (.thread t) k pkt _ ht (.entered hu)

/-- The listener does not remove the session in this action. -/
def Kept (v v' : View n) (k : ConnRef) : Prop :=
  ∀ hd, v.doing .listener = some (.clientGone k, ⟨.removing hd, .whole⟩) →
    v'.doing .listener ≠ some (.clientGone k, ⟨.gone, .whole⟩)

/-- A session stays in `m_sessionsBySocket` unless the listener removes it. -/
theorem Alive.live (h : Alive R v) (hs : Sessions v v') (hk : v.server.connManager.Live k)
    (hkept : Kept v v' k) :
    v'.server.connManager.Live k := by
  cases hs with
  | same he => rwa [he]
  | accepted hf he =>
      rw [he]
      exact (ConnectionManager.live_accepted hf).mpr (Or.inr hk)
  | admitted _ _ _ he =>
      rw [he]
      exact hk
  | discarded hj _ ht ht' _ he =>
      rw [he]
      refine (h.ok.live_removeSession hj).mpr ⟨hk, ?_⟩
      rintro rfl
      exact hkept _ ht ht'

/-- A session is logged in by its own login only. -/
theorem Sessions.authenticated (hs : Sessions v v') (ha : v'.server.Authenticated k) :
    v.server.Authenticated k ∨ ∃ t pkt u,
      v.doing t = some (.task (.client k pkt), ⟨.entered u, .whole⟩) ∧
        v'.doing t = some (.task (.client k pkt), ⟨.named u, .whole⟩) := by
  cases hs with
  | same he =>
      rw [Authenticated, he] at ha
      exact Or.inl ha
  | accepted hf he =>
      rw [he] at ha
      exact Or.inl (authenticated_accepted.mp ha).2
  | @admitted t j pkt u hu ht ht' he =>
      by_cases hkj : k = j
      · subst hkj
        exact Or.inr ⟨t, pkt, u, ht, ht'⟩
      · rw [Authenticated, he, onConn_connManager, ConnectionManager.sessions_authenticateSession,
          if_neg hkj] at ha
        exact Or.inl ha
  | discarded _ _ _ _ _ he =>
      rw [Authenticated, he, onConn_connManager, ConnectionManager.sessions_removeSession] at ha
      exact Or.inl ha

/-- A session keeps its name unless the listener removes it. -/
theorem Alive.holds (h : Alive R v) (hs : Sessions v v') (hk : v.server.Holds k u)
    (hkept : Kept v v' k) :
    v'.server.Holds k u := by
  cases hs with
  | same he =>
      have hsame : v.server.connManager.SameSessions v'.server.connManager := he ▸ .refl _
      exact (holds_of_sameSessions hsame).mpr hk
  | accepted hf he =>
      rw [he]
      exact (holds_accepted h.ok hf).mpr hk
  | @admitted t j pkt u' hu ht _ he =>
      have hne : k ≠ j := by
        rintro rfl
        exact (h.blank hu ht).2 hk.2.1
      rw [he]
      exact (holds_loggedIn (h.blank hu ht).1).mpr (Or.inr ⟨hne, hk⟩)
  | discarded hj _ ht ht' _ he =>
      rw [he]
      refine (holds_removed h.ok hj).mpr ⟨hk, ?_⟩
      rintro rfl
      exact hkept _ ht ht'

/-- The handle of a registered session does not change. -/
theorem Alive.getHandle (h : Alive R v) (hs : Sessions v v') (hk : v.server.connManager.Live k) :
    v'.server.connManager.getHandle k = v.server.connManager.getHandle k := by
  cases hs with
  | same he => rw [he]
  | accepted hf he =>
      rw [he]
      exact ConnectionManager.getHandle_newSocket_of_lt (h.ok.live_lt hk)
  | admitted _ _ _ he =>
      rw [he]
      rfl
  | discarded hj _ _ _ _ he =>
      rw [he, onConn_connManager, ConnectionManager.getHandle, ConnectionManager.sockets_removeSession]
      rfl

theorem Alive.step_ok (h : Alive R v) (hs : Sessions v v') : v'.server.connManager.Ok := by
  cases hs with
  | same he => exact he ▸ h.ok
  | accepted hf he => exact he ▸ h.ok.accepted hf
  | admitted hu _ _ he => exact he ▸ h.ok.authenticateSession hu
  | discarded hk _ _ _ _ he => exact he ▸ h.ok.removeSession hk

theorem Alive.step_noPeer (h : Alive R v) (hs : Sessions v v') (p : Int) :
    v'.server.connManager.hasPeerNode p = false := by
  rw [← h.noPeer p, ConnectionManager.hasPeerNode, ConnectionManager.hasPeerNode]
  cases hs with
  | same he => rw [he]
  | accepted _ he => rw [he]; rfl
  | admitted _ _ _ he => rw [he]; rfl
  | discarded _ _ _ _ _ he => rw [he, onConn_connManager, ConnectionManager.peerNodes_removeSession]

theorem Alive.step_heard (h : Alive R v) (hs : Sessions v v') (ha : v'.server.Authenticated k) :
    k ∈ readers R act := by
  rcases hs.authenticated ha with ha | ⟨t, pkt, u, ht, -⟩
  · exact mem_readers (h.heard k ha)
  · exact mem_readers (h.known (.thread t) _ _ k ht rfl)

theorem Alive.step_looked (h : Alive R v) (hs : v.Step act v') (hk : k ∈ v'.snapshot) :
    v'.server.connManager.Live k := by
  rcases hs.snapshot hk with hk | ⟨rfl, hk⟩
  · refine h.live (h.sessions hs) (h.looked k hk) fun hd ht => ?_
    exact absurd hk (h.leaving k _ ht Point.noConfusion).2.1
  · cases hs with
    | scan => exact hk

/-- Before `AuthenticateSession` the session is registered and not logged in. -/
theorem Alive.step_trying (h : Alive R v) (hs : v.Step act v') (hlog : act.OnlyLogins)
    (hfresh : ∀ k ∈ act.reader, k ∉ R) {y : Place n} {pkt : RawPacket}
    (hy : v'.workAt y = some (.task (.client k pkt), g)) (hg : Trying g) :
    v'.server.connManager.Live k ∧ ¬ v'.server.Authenticated k := by
  obtain ⟨-, -, hdist, -⟩ := h.places hs hlog hfresh
  have hold : (v.server.connManager.Live k ∧ ¬ v.server.Authenticated k) ∧
      Kept v v' k := by
    have hwas : ∀ {x : Place n} {g₀ : Phase}, v.workAt x = some (.task (.client k pkt), g₀) →
        Trying g₀ → (v.server.connManager.Live k ∧ ¬ v.server.Authenticated k) ∧ Kept v v' k :=
      fun hx hg₀ => ⟨h.trying _ k pkt _ hx hg₀, fun hd ht =>
        absurd hg₀ ((h.leaving k _ ht Point.noConfusion).2.2.2 _ pkt _ hx)⟩
    cases hs.origin hy with
    | moved hx => exact hwas hx hg
    | ran _ _ ht hstep => exact hwas (x := .thread _) ht ((h.turn ht hstep).trying hg)
    | began hg hb =>
        rcases h.begins hs hb with ⟨k', pkt', rfl, he, hk⟩ | ⟨_, _, he, -⟩ | ⟨_, he⟩
        · cases he
          refine ⟨⟨h.looked k hk, fun ha => hfresh k rfl (h.heard k ha)⟩, fun hd ht => ?_⟩
          exact absurd hk (h.leaving k _ ht Point.noConfusion).2.1
        · cases he
        · cases he
  have hsess := h.sessions hs
  refine ⟨h.live hsess hold.1.1 hold.2, fun ha => ?_⟩
  rcases hsess.authenticated ha with ha | ⟨t, pkt', u, -, ht'⟩
  · exact hold.1.2 ha
  · -- the connection has sent one packet, so its login is the one that got through
    cases hdist y (.thread t) _ _ _ _ k hy ht' rfl rfl
    cases hy.symm.trans ht'
    exact not_trying_named hg

/-- While the listener is busy nothing is read. -/
theorem Step.not_read {pkt : RawPacket} {x : Work × Phase} (hs : v.Step act v')
    (hl : v.doing .listener = some x) : act ≠ .read k pkt := by
  rintro rfl
  cases hs with
  | read hfree =>
      rw [hfree] at hl
      cases hl

/-- What the listener knows stays true. -/
theorem Alive.step_leaving (h : Alive R v) (hs : v.Step act v')
    (hheard : ∀ k, act = .hangUp k → v.server.Authenticated k ∨ v.Quiet k) {m : Point}
    (hl : v'.doing .listener = some (.clientGone k, ⟨m, .whole⟩)) (hm : m ≠ .gone) :
    v'.server.connManager.Live k ∧ k ∉ v'.snapshot ∧ Knows v'.server k m ∧
      ∀ x pkt g, v'.workAt x = some (.task (.client k pkt), g) → ¬ Trying g := by
  have hsess := h.sessions hs
  -- whoever does not log in while the listener is busy does not log in after it
  have htry : ∀ {x₀ : Work × Phase}, v.doing .listener = some x₀ →
      (∀ x pkt g, v.workAt x = some (.task (.client k pkt), g) → ¬ Trying g) →
        ∀ x pkt g, v'.workAt x = some (.task (.client k pkt), g) → ¬ Trying g := by
    intro x₀ hbusy hold x pkt g hx hg
    cases hs.origin hx with
    | moved hx => exact hold _ pkt g hx hg
    | ran _ _ ht hstep => exact hold (.thread _) pkt _ ht ((h.turn ht hstep).trying hg)
    | began _ hb =>
        rcases h.begins hs hb with ⟨_, _, rfl, -⟩ | ⟨_, _, he, -⟩ | ⟨_, he⟩
        · exact hs.not_read hbusy rfl
        · cases he
        · cases he
  have hsnap : ∀ {x₀ : Work × Phase}, v.doing .listener = some x₀ → k ∉ v.snapshot →
      k ∉ v'.snapshot := by
    intro x₀ hbusy hk hk'
    rcases hs.snapshot hk' with hk' | ⟨rfl, -⟩
    · exact hk hk'
    · cases hs with
      | scan hfree =>
          rw [hfree] at hbusy
          cases hbusy
  cases hs.origin (y := .thread .listener) hl with
  | moved hx =>
      have hbusy : v.doing .listener = some (.clientGone k, ⟨m, .whole⟩) := by
        have := h.listener _ k _ hx
        rw [this] at hx
        exact hx
      obtain ⟨hk, hns, hknow, hold⟩ := h.leaving k m hbusy hm
      have hkept : Kept v v' k := by
        intro hd ht ht'
        cases hl.symm.trans ht'
        exact hm rfl
      refine ⟨h.live hsess hk hkept, hsnap hbusy hns, ?_, htry hbusy hold⟩
      cases m with
      | ending | removing => exact hknow.trans (h.getHandle hsess hk).symm
      | leaving =>
          exact ⟨hknow.1.trans (h.getHandle hsess hk).symm, h.holds hsess hknow.2 hkept⟩
      | _ => trivial
  | @ran t g₀ out ha hy ht hstep =>
      cases hy
      have hturn := h.turn ht hstep
      have hpoint : ∀ {m₀ : Point}, g₀ = ⟨m₀, .whole⟩ → m₀ ≠ .gone →
          v.server.connManager.Live k ∧ k ∉ v'.snapshot ∧ Knows v.server k m₀ ∧
            ∀ x pkt g, v'.workAt x = some (.task (.client k pkt), g) → ¬ Trying g := by
        rintro m₀ rfl hm₀
        obtain ⟨hk, hns, hknow, hold⟩ := h.leaving k m₀ ht hm₀
        exact ⟨hk, hsnap ht hns, hknow, htry ht hold⟩
      generalize hserver : v'.server = s' at hturn
      cases hturn with
      | rest => exact hpoint rfl hm
      | look =>
          obtain ⟨hk, hns, -, hold⟩ := hpoint rfl Point.noConfusion
          exact ⟨hk, hns, rfl, hold⟩
      | know hu =>
          obtain ⟨hk, hns, hknow, hold⟩ := hpoint rfl Point.noConfusion
          exact ⟨hk, hns, ⟨hknow, holds_nameOf h.ok hk hu⟩, hold⟩
      | skip =>
          obtain ⟨hk, hns, hknow, hold⟩ := hpoint rfl Point.noConfusion
          exact ⟨hk, hns, hknow, hold⟩
      | forget =>
          obtain ⟨hk, hns, hknow, hold⟩ := hpoint rfl Point.noConfusion
          exact ⟨hk, hns, hknow.1, hold⟩
      | discard => exact absurd rfl hm
  | began hg hb =>
      cases hg
      rcases h.begins hs hb with ⟨_, _, _, he, -⟩ | ⟨j, rfl, he, hk⟩ | ⟨_, he⟩
      · cases he
      · cases he
        have hnot : ∀ x pkt g, v'.workAt x = some (.task (.client k pkt), g) → ¬ Trying g := by
          intro x pkt g hx hg
          have hwas : ∃ y, v.workAt y = some (.task (.client k pkt), g) := by
            cases hs.origin hx with
            | moved hx => exact ⟨_, hx⟩
            | ran ha => cases ha
            | began _ hb => cases hb
          obtain ⟨y, hy⟩ := hwas
          rcases hheard k rfl with ha | hq
          · exact (h.trying y k pkt g hy hg).2 ha
          · exact hq y _ g hy rfl
        cases hs with
        | hangUp hfree =>
            exact ⟨h.looked k hk, by simp, trivial, hnot⟩
      · cases he

/-! ## Nobody is left behind -/

theorem Alive.step_named (h : Alive R v) (hs : Sessions v v')
    (hn : v'.server.connManager.getSessionByUsername u = some k) : v'.server.Holds k u := by
  cases hs with
  | same he =>
      have hsame : v.server.connManager.SameSessions v'.server.connManager := he ▸ .refl _
      rw [he] at hn
      exact (holds_of_sameSessions hsame).mpr (h.named u k hn)
  | accepted hf he =>
      rw [he] at hn ⊢
      exact (holds_accepted h.ok hf).mpr (h.named u k hn)
  | @admitted t j pkt u' hu ht _ he =>
      obtain ⟨hj, hblank⟩ := h.blank hu ht
      rw [he, onConn_connManager, ConnectionManager.getSessionByUsername_authenticateSession] at hn
      rw [he]
      apply (holds_loggedIn hj).mpr
      split at hn
      next hname =>
        cases hn
        exact Or.inl ⟨rfl, hname⟩
      next =>
        have hold := h.named u k hn
        refine Or.inr ⟨?_, hold⟩
        rintro rfl
        exact hblank hold.2.1
  | @discarded j hj _ _ _ _ he =>
      rw [he, onConn_connManager, h.ok.getSessionByUsername_removeSession hj] at hn
      split at hn
      · cases hn
      next hne =>
        have hold := h.named u k hn
        rw [he]
        refine (holds_removed h.ok hj).mpr ⟨hold, ?_⟩
        rintro rfl
        have hname : (v.server.connManager.sessions k).username = u := hold.2.2
        exact hne ⟨fun hnil => hold.ne_nil h.ok (hname.symm.trans hnil), hname.symm⟩

/-- The listener comes to remove a session it knows to be nameless, or whose name
it has just taken out of the user table. -/
theorem Alive.removing (h : Alive R v) (hs : v.Step act v') (hk : v.server.Holds k u) {hd : SOCKET}
    (hl : v'.doing .listener = some (.clientGone k, ⟨.removing hd, .whole⟩)) :
    v.doing .listener = some (.clientGone k, ⟨.removing hd, .whole⟩) ∨
      v'.server.userManager.location? u = none := by
  cases hs.origin (y := .thread .listener) hl with
  | moved hx =>
      rw [h.listener _ k _ hx] at hx
      exact Or.inl hx
  | @ran t g₀ out ha hy ht hstep =>
      cases hy
      have hturn := h.turn ht hstep
      generalize hserver : v'.server = s' at hturn
      cases hturn with
      | rest => exact Or.inl ht
      | skip hu => exact absurd (hk.2.2.symm.trans hu) (hk.ne_nil h.ok)
      | forget =>
          obtain ⟨-, -, hknow, -⟩ := h.leaving k _ ht Point.noConfusion
          rw [hknow.2.name_unique hk]
          exact Or.inr (by simp)
  | began hg => cases hg

/-- A name stays vouched for until it leaves the user table. -/
theorem Alive.vouched (h : Alive R v) (hs : v.Step act v') (hv : v.Vouched u)
    (hloc : v'.server.userManager.location? u ≠ none) : v'.Vouched u := by
  have hsess := h.sessions hs
  rcases hv with ⟨k, hk, hnot⟩ | ⟨t, k, pkt, ht⟩
  · refine Or.inl ⟨k, h.holds hsess hk fun hd hl => absurd hl (hnot hd), fun hd hl => ?_⟩
    rcases h.removing hs hk hl with hl | hnone
    · exact hnot hd hl
    · exact hloc hnone
  · cases hs.stays ht with
    | same ht' => exact Or.inr ⟨t, k, pkt, ht'⟩
    | @ran g' out ha ht' hstep =>
        have hturn := h.turn ht hstep
        generalize hserver : v'.server = s' at hturn
        cases hturn with
        | rest => exact Or.inr ⟨t, k, pkt, ht'⟩
        | letIn hu =>
            obtain ⟨hk, -⟩ := h.blank hu ht
            refine Or.inl ⟨k, ?_, fun hd hl => ?_⟩
            · rw [hserver]
              exact (holds_loggedIn hk).mpr (Or.inl ⟨rfl, rfl⟩)
            · -- the listener is not removing a session that is logging in
              cases hs.origin (y := .thread .listener) hl with
              | moved hx =>
                  rw [h.listener _ k _ hx] at hx
                  exact (h.leaving k _ hx Point.noConfusion).2.2.2 (.thread t) pkt _ ht (.entered hu)
              | ran ha' hy ht₁ =>
                  cases ha.symm.trans ha'
                  cases ht.symm.trans ht₁
              | began hg => cases hg
    | done _ _ _ hends =>
        rw [Work.Ends] at hends
        split at hends
        · cases hends
        · rcases hends with he | he <;> cases he

/-- A name that comes into the user table is that of a login under way. -/
theorem Alive.step_located (h : Alive R v) (hs : v.Step act v')
    (hu : v'.server.userManager.location? u = some v'.server.serverId) : v'.Vouched u := by
  have hloc : v'.server.userManager.location? u ≠ none := by
    rw [hu]
    exact Option.some_ne_none _
  have hold : v.server.userManager.location? u = some v.server.serverId → v'.Vouched u :=
    fun hu => h.vouched hs (h.located u hu) hloc
  cases hs.serves with
  | same he => exact hold (he ▸ hu)
  | accepted _ he | clocked _ he | dialed _ _ he =>
      rw [he] at hu
      exact hold hu
  | @ran t w g g' out ha ht ht' hstep =>
      have hturn := h.turn ht hstep
      generalize hserver : v'.server = s' at hturn hu
      cases hturn with
      | @enter k pkt u' =>
          rw [onUsers_userManager, UserManager.location?_registerUser] at hu
          split at hu
          next he => exact Or.inr ⟨t, k, pkt, he ▸ ht'⟩
          next => exact hold hu
      | forget =>
          rw [onUsers_userManager, UserManager.location?_unregisterUser] at hu
          split at hu
          · cases hu
          · exact hold hu
      | _ => exact hold hu

/-- Every action keeps the invariant. -/
theorem Alive.step (h : Alive R v) (hs : v.Step act v') (hlog : act.OnlyLogins)
    (hfresh : ∀ k ∈ act.reader, k ∉ R)
    (hheard : ∀ k, act = .hangUp k → v.server.Authenticated k ∨ v.Quiet k) :
    Alive (readers R act) v' where
  ok := h.step_ok (h.sessions hs)
  noPeer := h.step_noPeer (h.sessions hs)
  quaint := (h.places hs hlog hfresh).1
  listener := (h.places hs hlog hfresh).2.1
  distinct := (h.places hs hlog hfresh).2.2.1
  known := (h.places hs hlog hfresh).2.2.2
  heard := fun _ => h.step_heard (h.sessions hs)
  looked := fun _ => h.step_looked hs
  trying := fun _ _ _ _ => h.step_trying hs hlog hfresh
  leaving := fun _ _ => h.step_leaving hs hheard
  located := fun _ => h.step_located hs
  named := fun _ _ => h.step_named (h.sessions hs)

end

theorem alive_idle (id : Int) : Alive [] (idle (fresh id) : View n) := by
  have hplace : ∀ x : Place n, (idle (fresh id)).workAt x = none := by
    intro x
    cases x <;> rfl
  have hnowhere : ∀ {x : Place n} {a : Work × Phase}, (idle (fresh id)).workAt x ≠ some a := by
    intro x a hx
    rw [hplace] at hx
    cases hx
  constructor
  case ok => exact (lone_fresh id).ok
  case noPeer => exact fun _ => rfl
  case quaint => exact fun _ _ _ hx => absurd hx hnowhere
  case listener => exact fun _ _ _ hx => absurd hx hnowhere
  case distinct => exact fun _ _ _ _ _ _ _ hx => absurd hx hnowhere
  case known => exact fun _ _ _ _ hx => absurd hx hnowhere
  case heard => exact fun _ ha => absurd ha Bool.false_ne_true
  case looked => exact fun _ hk => absurd hk List.not_mem_nil
  case trying => exact fun _ _ _ _ hx => absurd hx hnowhere
  case leaving => exact fun _ _ hx => nomatch hx
  case located => exact fun _ hu => nomatch hu
  case named => exact fun _ _ hu => nomatch hu

end View

namespace Threads

open View

section

variable {n : Nat} {c d : Threads n} {id : Int} {as : List (ThreadAction n)}

/-- The invariant along a run. -/
theorem sees_alive (hlog : ∀ a ∈ as, a.OnlyLogins) (hone : (as.filterMap ThreadAction.reader).Nodup)
    (hheard : Along next Heard (idle (fresh id)) as) (hrun : exec next (idle (fresh id)) as = some c) :
    ∃ v, c.Sees v ∧ v.Alive (as.filterMap ThreadAction.reader) := by
  refine exec_induct_trace (I := fun pre c => (pre.filterMap ThreadAction.reader).Nodup →
    ∃ v, c.Sees v ∧ v.Alive (pre.filterMap ThreadAction.reader)) (fun hpre hI hP hn hone => ?_)
    (fun _ => ⟨_, sees_idle _, alive_idle id⟩) (hheard.and (along_of_forall hlog)) hrun hone
  rw [List.filterMap_append, List.nodup_append'] at hone
  obtain ⟨v, hsees, halive⟩ := hI hone.1
  obtain ⟨v', hstep, hsees'⟩ := hsees.next hn
  refine ⟨v', hsees', ?_⟩
  rw [List.filterMap_append]
  refine halive.step hstep hP.2 (fun k hk hR => ?_) fun k hk => ?_
  · exact hone.2.2 hR (List.mem_filterMap.mpr ⟨_, List.mem_singleton_self _, hk⟩)
  · subst hk
    rcases hP.1 with ha | hq
    · exact Or.inl (hsees.server ▸ ha)
    · obtain ⟨hif, -⟩ := Option.ite_none_right_eq_some.mp hn
      exact Or.inr (hsees.quiet hif.1.2 hq)

/-- If the end of every connection is handled when its session is logged in or
none of its packets is under way, then whenever nothing is under way every name
in a table is that of a session in `m_sessionsBySocket`. -/
theorem no_ghost (hlog : ∀ a ∈ as, a.OnlyLogins) (hone : (as.filterMap ThreadAction.reader).Nodup)
    (hheard : Along next Heard (idle (fresh id)) as) (hd : Visits next (idle (fresh id)) as d)
    (hset : d.Settled) : d.state.NoGhost := by
  obtain ⟨pre, post, rfl, hpre⟩ := hd
  rw [List.filterMap_append] at hone
  obtain ⟨v, hsees, halive⟩ := sees_alive (fun a ha => hlog a (List.mem_append_left _ ha))
    hone.of_append_left ((along_append hpre).mp hheard).1 hpre
  rw [← hsees.server]
  refine ⟨fun u hu => ?_, halive.named⟩
  rcases halive.located u hu with ⟨k, hk, -⟩ | ⟨t, k, pkt, ht⟩
  · exact ⟨k, hk⟩
  · rw [(hsees.settled hset).2.2 t] at ht
    cases ht

end

/-- A client logs in, and leaves when its login has been handled. -/
def promptLogin : List (ThreadAction 4) :=
  [.accept 4, .scan, .read 0 ⟨.login, ascii "ann"⟩, .enqueue, .take 0] ++
    List.replicate 12 (.run (.worker 0)) ++ [.finish (.worker 0), .scan, .hangUp 0] ++
      List.replicate 10 (.run .listener) ++ [.finish .listener]

theorem no_ghost_promptLogin :
    ∃ d, exec next (idle (fresh 1)) promptLogin = some d ∧ d.Settled ∧ d.state.NoGhost := by
  have hrun : (exec next (idle (fresh 1)) promptLogin).any fun d => decide d.Settled := by
    decide +kernel
  obtain ⟨d, hd, hset⟩ := (Option.any_eq_true ..).mp hrun
  have hsettled := of_decide_eq_true hset
  exact ⟨d, hd, hsettled, no_ghost (by decide) (by decide) (by decide +kernel) (.last hd) hsettled⟩

/-- A client sends its login and leaves at once.  The listener has handled the end
of the connection before a worker takes the login. -/
def lateLogin : List (ThreadAction 4) :=
  [.accept 4, .scan, .read 0 ⟨.login, ascii "ann"⟩, .enqueue, .scan, .hangUp 0] ++
    List.replicate 3 (.run .listener) ++ [.finish .listener, .take 0] ++
      List.replicate 9 (.run (.worker 0)) ++ [.finish (.worker 0)]

/-- The name of a late login stays behind. -/
theorem late_login_leaves_ghost :
    (∀ a ∈ lateLogin, a.OnlyLogins) ∧ (lateLogin.filterMap ThreadAction.reader).Nodup ∧
      ∃ d, exec next (idle (fresh 1)) lateLogin = some d ∧ d.Settled ∧ ¬ d.state.NoGhost := by
  have hrun : (exec next (idle (fresh 1)) lateLogin).any fun d =>
      decide (d.Settled ∧ d.state.userManager.location? (ascii "ann") = some d.state.serverId ∧
        d.state.connManager.getAllSessions = []) := by decide +kernel
  obtain ⟨d, hd, h⟩ := (Option.any_eq_true ..).mp hrun
  obtain ⟨hset, hloc, hnone⟩ := of_decide_eq_true h
  refine ⟨by decide, by decide, d, hd, hset, fun hno => ?_⟩
  obtain ⟨k, hk, -⟩ := hno.located _ hloc
  rw [ConnectionManager.Live, hnone] at hk
  exact absurd hk List.not_mem_nil

end Threads

end DistributedChat
