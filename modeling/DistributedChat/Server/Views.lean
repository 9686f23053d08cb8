import DistributedChat.Server.Phases

/-!
# What the threads of a server look like from outside

A *view* forgets the programs of the threads and keeps their phases.  Its steps
are those of the automaton.  `Sees.next` says that the threads refine their view:
whatever the threads do, the view does.  So an invariant of views that is proved
by cases on `View.Step` is an invariant of the threads.
-/

namespace DistributedChat

open ChatServer

/-- The threads of a server, each with its work and its phase. -/
structure View (n : Nat) where
  server : ChatServer
  out : List Effect
  doing : Thread n → Option (Work × Phase)
  waiting : List Work
  held : Option Task
  snapshot : List ConnRef

/-- Where a piece of work may be. -/
inductive Place (n : Nat) where
  /-- The listener holds it. -/
  | hand
  /-- It waits at a position of the queue. -/
  | queue (i : Nat)
  /-- A thread is at it. -/
  | thread (t : Thread n)

/-- Where the work that an action begins is put. -/
def ThreadAction.spot {n : Nat} : ThreadAction n → Place n
  | .hangUp _ | .hangUpPeer _ => .thread .listener
  | .beat => .thread .heartbeat
  | .dial _ _ => .thread .connector
  | _ => .hand

namespace View

variable {n : Nat}

/-- Nothing is going on. -/
def idle (s : ChatServer) : View n :=
  { server := s, out := [], doing := fun _ => none, waiting := [], held := none, snapshot := [] }

/-- What is at a place, with its phase. -/
def workAt (v : View n) : Place n → Option (Work × Phase)
  | .hand => v.held.map fun t => (.task t, .start)
  | .queue i => v.waiting[i]?.map fun w => (w, .start)
  | .thread t => v.doing t

/-- No packet of the connection is held, waiting or being handled. -/
def Quiet (v : View n) (k : ConnRef) : Prop :=
  ∀ x w g, v.workAt x = some (w, g) → w.conn ≠ some k

/-- No two packets of one connection are held, waiting or being handled. -/
def Distinct (v : View n) : Prop :=
  ∀ x y w w' g g' k, v.workAt x = some (w, g) → v.workAt y = some (w', g') → w.conn = some k →
    w'.conn = some k → x = y

/-- A thread does something else. -/
def assign (v : View n) (t : Thread n) (x : Option (Work × Phase)) : View n :=
  { v with doing := Function.update v.doing t x }

theorem doing_assign (v : View n) (t t' : Thread n) (x : Option (Work × Phase)) :
    (v.assign t x).doing t' = if t' = t then x else v.doing t' :=
  Function.update_apply ..

/-- The steps of a view. -/
inductive Step (v : View n) : ThreadAction n → View n → Prop where
  | take {i : Fin n} {w : Work} {rest : List Work} (hi : v.doing (.worker i) = none)
      (hq : v.waiting = w :: rest) :
      Step v (.take i) { v.assign (.worker i) (some (w, .start)) with waiting := rest }
  | run {t : Thread n} {w : Work} {g g' : Phase} {s' : ChatServer} {out : List Effect}
      (ht : v.doing t = some (w, g)) (h : Phase.Step w g v.server out s' g') :
      Step v (.run t) { v.assign t (some (w, g')) with server := s', out := v.out ++ out }
  | finish {t : Thread n} {w : Work} {m : Point} (ht : v.doing t = some (w, ⟨m, .whole⟩))
      (hm : w.Ends m) : Step v (.finish t) (v.assign t none)
  | accept {handle : SOCKET} (hl : v.doing .listener = none) (hh : v.held = none)
      (hf : v.server.connManager.FreeHandle handle) :
      Step v (.accept handle) { v with server := v.server.onConn (·.accepted handle) }
  | scan (hl : v.doing .listener = none) (hh : v.held = none) :
      Step v .scan { v with snapshot := v.server.connManager.getAllSessions }
  | read {k : ConnRef} {pkt : RawPacket} (hl : v.doing .listener = none) (hh : v.held = none)
      (hk : k ∈ v.snapshot) (hfit : pkt.Fits) :
      Step v (.read k pkt)
        { v with snapshot := v.snapshot.filter (· ≠ k), held := some (.client k pkt) }
  | hangUp {k : ConnRef} (hl : v.doing .listener = none) (hh : v.held = none)
      (hk : k ∈ v.snapshot) :
      Step v (.hangUp k)
        { v.assign .listener (some (.clientGone k, .start)) with
          snapshot := v.snapshot.filter (· ≠ k) }
  | readPeer {p : Int} {k : ConnRef} {pkt : RawPacket} (hl : v.doing .listener = none)
      (hh : v.held = none) (hp : v.server.connManager.hasPeerNode p = true)
      (hs : v.server.connManager.linkSocket p = some k) (hfit : pkt.Fits) :
      Step v (.readPeer p pkt) { v with snapshot := [], held := some (.peer p k pkt) }
  | hangUpPeer {p : Int} (hl : v.doing .listener = none) (hh : v.held = none)
      (hp : v.server.connManager.hasPeerNode p = true) :
      Step v (.hangUpPeer p)
        { v.assign .listener (some (.peerGone p, .start)) with snapshot := [] }
  | enqueue {t : Task} (hh : v.held = some t) :
      Step v .enqueue { v with waiting := v.waiting ++ [.task t], held := none }
  | clock {now : Nat} (hn : v.server.now ≤ now) :
      Step v (.clock now) { v with server := { v.server with now := now } }
  | beat (ht : v.doing .heartbeat = none) :
      Step v .beat (v.assign .heartbeat (some (.heartbeats, .start)))
  | dial {p : Int} {handle : SOCKET} (ht : v.doing .connector = none)
      (hp : v.server.connManager.hasPeerNode p = true)
      (hd : (v.server.connManager.nodes p).isConnected = false)
      (hf : v.server.connManager.FreeHandle handle) :
      Step v (.dial p handle)
        { v.assign .connector (some (.connected p v.server.connManager.nextConn, .start)) with
          server := v.server.onConn (·.newSocket handle) }

section

variable {v v' : View n} {act : ThreadAction n} {w : Work} {g : Phase} {y : Place n}

/-- The work an action begins. -/
def Begins (v : View n) : ThreadAction n → Work → Prop
  | .read k pkt, w => w = .task (.client k pkt)
  | .readPeer p pkt, w => ∃ k, v.server.connManager.linkSocket p = some k ∧ w = .task (.peer p k pkt)
  | .hangUp k, w => w = .clientGone k
  | .hangUpPeer p, w => w = .peerGone p
  | .beat, w => w = .heartbeats
  | .dial p _, w => w = .connected p v.server.connManager.nextConn
  | _, _ => False

/-- Where what is at a place after an action was before it. -/
def before (v : View n) : ThreadAction n → Place n → Place n
  | .take _, .queue j => .queue (j + 1)
  | .take i, .thread t => if t = .worker i then .queue 0 else .thread t
  | .enqueue, .queue j => if j < v.waiting.length then .queue j else .hand
  | _, y => y

/-- Work after a step was there before, has been taken a section further, or has
just begun. -/
inductive Origin (v v' : View n) (act : ThreadAction n) (y : Place n) (w : Work) (g : Phase) :
    Prop where
  | moved (h : v.workAt (v.before act y) = some (w, g)) (hrun : ∀ t, act = .run t → y ≠ .thread t)
  | ran {t : Thread n} {g₀ : Phase} {out : List Effect} (ha : act = .run t) (hy : y = .thread t)
      (ht : v.doing t = some (w, g₀)) (hstep : Phase.Step w g₀ v.server out v'.server g)
  | began (hg : g = .start) (hb : Begins v act w) (hy : y = act.spot)

theorem Step.origin (h : v.Step act v') (hy : v'.workAt y = some (w, g)) :
    Origin v v' act y w g := by
  cases h with
  | @take i w₀ rest hi hq =>
      refine .moved ?_ fun _ he => nomatch he
      cases y with
      | hand => exact hy
      | queue j =>
          rw [before, workAt, hq]
          exact hy
      | thread t' =>
          change (v.assign _ _).doing t' = _ at hy
          rw [doing_assign] at hy
          rw [before]
          split at hy
          next he =>
            rw [if_pos he, workAt, hq]
            exact hy
          next he =>
            rw [if_neg he]
            exact hy
  | @run t w₀ g₀ g₁ s' out ht hstep =>
      cases y with
      | hand => exact .moved hy fun _ _ he => nomatch he
      | queue j => exact .moved hy fun _ _ he => nomatch he
      | thread t' =>
          change (v.assign _ _).doing t' = _ at hy
          rw [doing_assign] at hy
          split at hy
          next he =>
            cases hy
            exact .ran rfl (congrArg _ he) ht hstep
          next hne =>
            refine .moved hy fun t₁ ht₁ he => ?_
            cases ht₁
            cases he
            exact hne rfl
  | finish ht hm =>
      refine .moved ?_ fun _ he => nomatch he
      cases y with
      | hand => exact hy
      | queue j => exact hy
      | thread t' =>
          change (v.assign _ _).doing t' = _ at hy
          rw [doing_assign] at hy
          split at hy
          · cases hy
          · exact hy
  | accept | scan | clock => exact .moved (by cases y <;> exact hy) fun _ he => nomatch he
  | read =>
      cases y with
      | hand =>
          cases hy
          exact .began rfl rfl rfl
      | queue j => exact .moved hy fun _ he => nomatch he
      | thread t' => exact .moved hy fun _ he => nomatch he
  | readPeer _ _ _ hs =>
      cases y with
      | hand =>
          cases hy
          exact .began rfl ⟨_, hs, rfl⟩ rfl
      | queue j => exact .moved hy fun _ he => nomatch he
      | thread t' => exact .moved hy fun _ he => nomatch he
  | @enqueue t hh =>
      refine .moved ?_ fun _ he => nomatch he
      cases y with
      | hand => cases hy
      | queue j =>
          change (v.waiting ++ [Work.task t])[j]?.map _ = _ at hy
          rw [before]
          split
          next hj =>
            rw [List.getElem?_append_left hj] at hy
            exact hy
          next hj =>
            rw [List.getElem?_append_right (Nat.le_of_not_lt hj)] at hy
            rw [workAt, hh]
            cases hlen : j - v.waiting.length with
            | zero =>
                rw [hlen] at hy
                exact hy
            | succ i =>
                rw [hlen] at hy
                cases hy
      | thread t' => exact hy
  | hangUp | hangUpPeer | beat | dial =>
      cases y with
      | hand => exact .moved hy fun _ he => nomatch he
      | queue j => exact .moved hy fun _ he => nomatch he
      | thread t' =>
          change Function.update v.doing _ _ t' = _ at hy
          rw [Function.update_apply] at hy
          split at hy
          next he =>
            cases hy
            exact .began rfl rfl (congrArg _ he)
          next => exact .moved hy fun _ he => nomatch he

/-- What has been begun is at a thread. -/
theorem workAt_begun (hy : v.workAt y = some (w, g)) (hg : g ≠ .start) :
    ∃ t, y = .thread t ∧ v.doing t = some (w, g) := by
  cases y with
  | hand =>
      obtain ⟨_, _, he⟩ := Option.map_eq_some_iff.mp hy
      cases he
      exact absurd rfl hg
  | queue i =>
      obtain ⟨_, _, he⟩ := Option.map_eq_some_iff.mp hy
      cases he
      exact absurd rfl hg
  | thread t => exact ⟨t, rfl, hy⟩

/-- What a thread is at it has been at before the action. -/
theorem before_eq_thread {t : Thread n} (h : v.before act y = .thread t) : y = .thread t := by
  cases act with
  | take i =>
      cases y with
      | hand => cases h
      | queue j => cases h
      | thread t' =>
          rw [before] at h
          split at h
          · cases h
          · exact h
  | enqueue =>
      cases y with
      | hand => cases h
      | queue j =>
          rw [before] at h
          split at h <;> cases h
      | thread t' => exact h
  | _ => exact h

/-- A busy thread stays where it is, performs a section or is done. -/
inductive Stays (v v' : View n) (act : ThreadAction n) (t : Thread n) (w : Work) (g : Phase) :
    Prop where
  | same (h : v'.doing t = some (w, g))
  | ran {g' : Phase} {out : List Effect} (ha : act = .run t) (h : v'.doing t = some (w, g'))
      (hstep : Phase.Step w g v.server out v'.server g')
  | done (ha : act = .finish t) (h : v'.doing t = none) (hg : g.stage = .whole)
      (hw : w.Ends g.point)

theorem Step.stays (h : v.Step act v') {t : Thread n} (ht : v.doing t = some (w, g)) :
    Stays v v' act t w g := by
  have hfree : ∀ {t₁ : Thread n} {x : Option (Work × Phase)}, v.doing t₁ = none →
      (v.assign t₁ x).doing t = some (w, g) := by
    intro t₁ x h₁
    rw [doing_assign, if_neg, ht]
    rintro rfl
    rw [h₁] at ht
    cases ht
  cases h with
  | take hi => exact .same (hfree hi)
  | hangUp hl => exact .same (hfree hl)
  | hangUpPeer hl => exact .same (hfree hl)
  | beat hb => exact .same (hfree hb)
  | dial hc => exact .same (hfree hc)
  | @run t₁ w₁ g₁ g' s' out h₁ hstep =>
      by_cases he : t = t₁
      · subst he
        rw [ht] at h₁
        cases h₁
        exact .ran rfl (by rw [show _ = _ from doing_assign .., if_pos rfl]) hstep
      · exact .same (by rw [show _ = _ from doing_assign .., if_neg he, ht])
  | @finish t₁ w₁ m h₁ hm =>
      by_cases he : t = t₁
      · subst he
        rw [ht] at h₁
        cases h₁
        exact .done rfl (by rw [doing_assign, if_pos rfl]) rfl hm
      · exact .same (by rw [doing_assign, if_neg he, ht])
  | _ => exact .same ht

/-- Work stays under way until it is done. -/
theorem Step.kept (h : v.Step act v') {x : Place n} (hx : v.workAt x = some (w, g)) :
    (∃ y g', v'.workAt y = some (w, g')) ∨
      ∃ t, x = .thread t ∧ g.stage = .whole ∧ w.Ends g.point := by
  cases x with
  | thread t =>
      cases h.stays hx with
      | same ht => exact Or.inl ⟨.thread t, g, ht⟩
      | ran _ ht => exact Or.inl ⟨.thread t, _, ht⟩
      | done _ _ hg hw => exact Or.inr ⟨t, rfl, hg, hw⟩
  | hand =>
      left
      cases h with
      | enqueue hh =>
          rw [workAt, hh] at hx
          cases hx
          refine ⟨.queue v.waiting.length, .start, ?_⟩
          change (v.waiting ++ [_])[v.waiting.length]?.map _ = _
          rw [List.getElem?_concat_length]
          rfl
      | read _ hh | readPeer _ hh =>
          rw [workAt, hh] at hx
          cases hx
      | _ => exact ⟨.hand, g, hx⟩
  | queue i =>
      left
      cases h with
      | @take j w₀ rest hj hq =>
          rw [workAt, hq] at hx
          cases i with
          | zero =>
              cases hx
              exact ⟨.thread (.worker j), .start, (doing_assign ..).trans (if_pos rfl)⟩
          | succ i => exact ⟨.queue i, g, hx⟩
      | enqueue hh =>
          refine ⟨.queue i, g, ?_⟩
          obtain ⟨w', hw', he⟩ := Option.map_eq_some_iff.mp hx
          change (v.waiting ++ [_])[i]?.map _ = _
          rw [List.getElem?_append_left (List.getElem?_eq_some_iff.mp hw').1, hw']
          exact congrArg some he
      | _ => exact ⟨.queue i, g, hx⟩

/-- What an action does to the server and to what it has sent. -/
inductive Serves (v v' : View n) (act : ThreadAction n) : Prop where
  | same (h : v'.server = v.server) (hout : v'.out = v.out)
  | accepted {handle : SOCKET} (hf : v.server.connManager.FreeHandle handle)
      (h : v'.server = v.server.onConn (·.accepted handle)) (hout : v'.out = v.out)
  | clocked {now : Nat} (hn : v.server.now ≤ now) (h : v'.server = { v.server with now := now })
      (hout : v'.out = v.out)
  | dialed {p : Int} {handle : SOCKET} (hf : v.server.connManager.FreeHandle handle)
      (hp : v.server.connManager.hasPeerNode p = true)
      (h : v'.server = v.server.onConn (·.newSocket handle))
      (hd : v'.doing .connector = some (.connected p v.server.connManager.nextConn, .start))
      (hout : v'.out = v.out)
  | ran {t : Thread n} {w : Work} {g g' : Phase} {out : List Effect} (ha : act = .run t)
      (ht : v.doing t = some (w, g)) (ht' : v'.doing t = some (w, g'))
      (h : Phase.Step w g v.server out v'.server g') (hout : v'.out = v.out ++ out)

theorem Step.serves (h : v.Step act v') : Serves v v' act := by
  cases h with
  | accept _ _ hf => exact .accepted hf rfl rfl
  | clock hn => exact .clocked hn rfl rfl
  | dial _ hp _ hf =>
      exact .dialed hf hp rfl (by rw [show _ = _ from doing_assign .., if_pos rfl]) rfl
  | run ht hstep =>
      exact .ran rfl ht (by rw [show _ = _ from doing_assign .., if_pos rfl]) hstep rfl
  | _ => exact .same rfl rfl

theorem Step.serverId (h : v.Step act v') : v'.server.serverId = v.server.serverId := by
  cases h.serves with
  | same he => rw [he]
  | accepted _ he | clocked _ he | dialed _ _ he =>
      have hid := congrArg ChatServer.serverId he
      exact hid
  | ran _ _ _ hstep => exact hstep.serverId

theorem Step.peerNodes (h : v.Step act v') :
    v'.server.connManager.peerNodes = v.server.connManager.peerNodes := by
  cases h.serves with
  | same he | clocked _ he => rw [he]
  | accepted _ he | dialed _ _ he =>
      rw [he]
      rfl
  | ran _ _ _ hstep => exact hstep.peerNodes

/-- After an action objects are the ones before it, and perhaps a new one. -/
theorem Step.nextConn (h : v.Step act v') :
    v.server.connManager.nextConn ≤ v'.server.connManager.nextConn := by
  cases h.serves with
  | same he => rw [he]
  | accepted _ he | dialed _ _ he =>
      rw [he]
      exact Nat.le_succ _
  | clocked _ he => rw [he]
  | ran _ _ _ hstep => rw [hstep.nextConn]

/-- A session is added by the listener when it accepts a connection. -/
theorem Step.live (h : v.Step act v') {k : ConnRef} (hk : v'.server.connManager.Live k) :
    v.server.connManager.Live k ∨ k = v.server.connManager.nextConn ∧
      v'.server.connManager.nextConn = v.server.connManager.nextConn + 1 ∧
        v'.server.nameOf k = [] := by
  cases h.serves with
  | same he => exact Or.inl (he ▸ hk)
  | @accepted handle hf he =>
      have hname : v'.server.nameOf k =
          if k = v.server.connManager.nextConn then [] else v.server.nameOf k :=
        nameOf_newSocket (h := handle) (by rw [he]; rfl)
      rw [he] at hk
      rcases (ConnectionManager.live_accepted hf).mp hk with rfl | hk
      · exact Or.inr ⟨rfl, by rw [he]; rfl, hname.trans (if_pos rfl)⟩
      · exact Or.inl hk
  | clocked _ he | dialed _ _ he =>
      rw [he] at hk
      exact Or.inl hk
  | ran _ _ _ hstep => exact Or.inl (hstep.live hk)

/-- A session in the listener's round is one of the round before, or the listener
has just started this one. -/
theorem Step.snapshot (h : v.Step act v') {k : ConnRef} (hk : k ∈ v'.snapshot) :
    k ∈ v.snapshot ∨ (act = .scan ∧ v.server.connManager.Live k) := by
  cases h with
  | scan => exact Or.inr ⟨rfl, hk⟩
  | read | hangUp => exact Or.inl (List.mem_of_mem_filter hk)
  | readPeer | hangUpPeer => exact absurd hk List.not_mem_nil
  | _ => exact Or.inl hk

/-- No two places after an action were one place before it. -/
theorem Step.before_inj (h : v.Step act v') {x y : Place n} {a b : Work × Phase}
    (hx : v'.workAt x = some a) (hy : v'.workAt y = some b) (he : v.before act x = v.before act y) :
    x = y := by
  cases h with
  | take hi hq => cases x <;> cases y <;> simp only [before] at he <;> grind
  | @enqueue t hh =>
      have hlast : ∀ {j : Nat} {a : Work × Phase},
          (v.waiting ++ [Work.task t])[j]?.map (fun w => (w, Phase.start)) = some a →
            j < v.waiting.length + 1 := by
        intro j a hj
        obtain ⟨w, hw, -⟩ := Option.map_eq_some_iff.mp hj
        obtain ⟨hlt, -⟩ := List.getElem?_eq_some_iff.mp hw
        rw [List.length_append] at hlt
        exact hlt
      cases x with
      | hand => cases hx
      | thread t₁ => cases y <;> simp only [before] at he <;> grind
      | queue i =>
          cases y with
          | hand => cases hy
          | thread t₂ => simp only [before] at he; grind
          | queue j =>
              have hi := hlast hx
              have hj := hlast hy
              simp only [before] at he
              grind
  | _ => exact he

/-- There is no work of the kind. -/
def Without (v : View n) (P : Work → Prop) : Prop :=
  ∀ x w g, v.workAt x = some (w, g) → ¬ P w

/-- There is at most one piece of work of the kind. -/
def Alone (v : View n) (P : Work → Prop) : Prop :=
  ∀ x y w w' g g', v.workAt x = some (w, g) → v.workAt y = some (w', g') → P w → P w' → x = y

/-- There stays at most one if one is begun only when there is none. -/
theorem Alone.step {P : Work → Prop} (ha : v.Alone P) (h : v.Step act v')
    (hnone : ∀ w, Begins v act w → P w → v.Without P) : v'.Alone P := by
  intro x y w w' g g' hx hy hw hw'
  have hinj := h.before_inj hx hy
  cases h.origin hx with
  | moved hx' hrun =>
      cases h.origin hy with
      | moved hy' => exact hinj (ha _ _ _ _ _ _ hx' hy' hw hw')
      | ran hact hyt ht =>
          subst hact hyt
          exact absurd (ha x (.thread _) _ _ _ _ hx' ht hw hw') (hrun _ rfl)
      | began hg hb => exact absurd hw (hnone _ hb hw' _ _ _ hx')
  | ran hact hxt ht =>
      subst hact hxt
      cases h.origin hy with
      | moved hy' hrun => exact absurd (ha y (.thread _) _ _ _ _ hy' ht hw' hw) (hrun _ rfl)
      | ran hact' hyt =>
          cases hact'
          exact hyt.symm
      | began hg hb => exact absurd hw (hnone _ hb hw' (.thread _) _ _ ht)
  | began hg hb hspot =>
      cases h.origin hy with
      | moved hy' => exact absurd hw' (hnone _ hb hw _ _ _ hy')
      | ran hact hyt ht => exact absurd hw' (hnone _ hb hw (.thread _) _ _ ht)
      | began _ _ hspot' => exact hspot.trans hspot'.symm

/-- Packets of one connection are read one at a time. -/
theorem Distinct.step (hd : v.Distinct) (h : v.Step act v')
    (hq : ∀ w k, Begins v act w → w.conn = some k → v.Quiet k) : v'.Distinct := by
  intro x y w w' g g' k hx hy
  have halone : v.Alone fun w => w.conn = some k :=
    fun x y w w' g g' hx hy => hd x y w w' g g' k hx hy
  exact halone.step h (fun w hb hw => hq w k hb hw) x y w w' g g' hx hy

/-- Whatever the threads know of is an object that has been made. -/
structure Grounded (v : View n) : Prop where
  live : ∀ k, v.server.connManager.Live k → k < v.server.connManager.nextConn
  looked : ∀ k ∈ v.snapshot, k < v.server.connManager.nextConn
  client : ∀ x k pkt g, v.workAt x = some (.task (.client k pkt), g) →
    k < v.server.connManager.nextConn

theorem Grounded.step (h : Grounded v) (hs : v.Step act v') : Grounded v' where
  live := by
    intro k hk
    rcases hs.live hk with hk | ⟨he, hn, -⟩
    · exact Nat.lt_of_lt_of_le (h.live k hk) hs.nextConn
    · rw [hn, he]
      exact Nat.lt_succ_self _
  looked := by
    intro k hk
    rcases hs.snapshot hk with hk | ⟨-, hk⟩
    · exact Nat.lt_of_lt_of_le (h.looked k hk) hs.nextConn
    · exact Nat.lt_of_lt_of_le (h.live k hk) hs.nextConn
  client := by
    intro y k pkt g hy
    refine Nat.lt_of_lt_of_le ?_ hs.nextConn
    cases hs.origin hy with
    | moved hx => exact h.client _ k pkt g hx
    | ran _ _ ht => exact h.client (.thread _) k pkt _ ht
    | began _ hb =>
        cases hs with
        | read _ _ hk =>
            cases hb
            exact h.looked _ hk
        | readPeer =>
            obtain ⟨_, _, he⟩ := hb
            cases he
        | hangUp | hangUpPeer | beat | dial => cases hb
        | take | run | finish | accept | scan | enqueue | clock => exact hb.elim

end

theorem workAt_idle {s : ChatServer} {x : Place n} {a : Work × Phase} :
    (idle s : View n).workAt x ≠ some a := by
  intro hx
  cases x <;> cases hx

theorem grounded_idle (id : Int) (peers : List Int) :
    Grounded (idle (configured id peers) : View n) where
  live := fun k hk => absurd hk (not_live_configured id peers k)
  looked := fun _ hk => absurd hk List.not_mem_nil
  client := fun _ _ _ _ hx => absurd hx workAt_idle

end View

namespace Threads

variable {n : Nat} {c c' : Threads n} {v : View n} {act : ThreadAction n} {t : Thread n}

/-- What a thread runs looks like `x`. -/
def Looks (j : Option (Job ChatServer Effect Work)) (x : Option (Work × Phase)) : Prop :=
  match j, x with
  | none, none => True
  | some j, some (w, g) => j.label = w ∧ w.Goes j.rest g
  | _, _ => False

/-- The view of the threads. -/
structure Sees (c : Threads n) (v : View n) : Prop where
  server : v.server = c.state
  out : v.out = c.out
  doing : ∀ t, Looks (c.running t) (v.doing t)
  waiting : v.waiting = c.queue.map (·.label)
  fresh : ∀ j ∈ c.queue, j.rest = j.label.prog
  held : v.held = c.held
  snapshot : v.snapshot = c.snapshot

theorem sees_idle (s : ChatServer) : (idle s : Threads n).Sees (View.idle s) where
  server := rfl
  out := rfl
  doing := fun _ => trivial
  waiting := rfl
  fresh := fun _ h => absurd h List.not_mem_nil
  held := rfl
  snapshot := rfl

theorem looks_none {x : Option (Work × Phase)} (h : Looks none x) : x = none := by
  cases x with
  | none => rfl
  | some x => exact h.elim

theorem looks_some {j : Job ChatServer Effect Work} {x : Option (Work × Phase)}
    (h : Looks (some j) x) : ∃ g, x = some (j.label, g) ∧
      j.label.Goes j.rest g := by
  cases x with
  | none => exact h.elim
  | some x =>
      obtain ⟨w, g⟩ := x
      obtain ⟨rfl, hg⟩ := h
      exact ⟨g, rfl, hg⟩

theorem looks_goes {j : Job ChatServer Effect Work} {g : Phase}
    (h : j.label.Goes j.rest g) : Looks (some j) (some (j.label, g)) :=
  ⟨rfl, h⟩

theorem looks_start (m : Nat) (w : Work) : Looks (some ⟨m, w, w.prog⟩) (some (w, .start)) :=
  ⟨rfl, w.goes⟩

theorem Looks.update {run : Thread n → Option (Job ChatServer Effect Work)}
    {doing : Thread n → Option (Work × Phase)} {j : Option (Job ChatServer Effect Work)}
    {x : Option (Work × Phase)} (h : ∀ t, Looks (run t) (doing t)) (hx : Looks j x) (t : Thread n) :
    ∀ t', Looks (Function.update run t j t') (Function.update doing t x t') := by
  intro t'
  rw [Function.update_apply, Function.update_apply]
  split
  · exact hx
  · exact h t'

/-- A thread that is not busy is not busy in the view. -/
theorem Sees.free (h : c.Sees v) (ht : c.running t = none) : v.doing t = none :=
  looks_none (ht ▸ h.doing t)

/-- A busy thread with its phase. -/
theorem Sees.busy (h : c.Sees v) {j : Job ChatServer Effect Work} (ht : c.running t = some j) :
    ∃ g, v.doing t = some (j.label, g) ∧ j.label.Goes j.rest g :=
  looks_some (ht ▸ h.doing t)

/-- What a thread of the view is at is what is left of its program. -/
theorem Sees.job (h : c.Sees v) {w : Work} {g : Phase} (ht : v.doing t = some (w, g)) :
    ∃ j, c.running t = some j ∧ j.label = w ∧ w.Goes j.rest g := by
  cases hr : c.running t with
  | none =>
      rw [h.free hr] at ht
      cases ht
  | some j =>
      obtain ⟨g', hg, hgoes⟩ := h.busy hr
      cases ht.symm.trans hg
      exact ⟨j, rfl, rfl, hgoes⟩

/-- With nothing going on, nothing is going on in the view. -/
theorem Sees.settled (h : c.Sees v) (hs : c.Settled) :
    v.waiting = [] ∧ v.held = none ∧ ∀ t, v.doing t = none := by
  obtain ⟨⟨hq, hr⟩, hheld⟩ := hs
  refine ⟨?_, h.held.trans hheld, fun t => h.free (hr t)⟩
  rw [h.waiting, hq, List.map_nil]

/-- What is at a place of the view is under way. -/
theorem Sees.underWay (h : c.Sees v) {P : Work → Prop} {x : Place n} {w : Work} {g : Phase}
    (hx : v.workAt x = some (w, g)) (hw : P w) : c.UnderWay P := by
  cases x with
  | hand =>
      rw [View.workAt, h.held] at hx
      obtain ⟨t, ht, he⟩ := Option.map_eq_some_iff.mp hx
      cases he
      exact Or.inl ⟨t, ht, hw⟩
  | queue i =>
      rw [View.workAt, h.waiting, List.getElem?_map, Option.map_map] at hx
      obtain ⟨j, hj, he⟩ := Option.map_eq_some_iff.mp hx
      cases he
      exact Or.inr (Or.inl ⟨j, List.mem_of_getElem? hj, hw⟩)
  | thread t =>
      cases hr : c.running t with
      | none =>
          rw [View.workAt, h.free hr] at hx
          cases hx
      | some j =>
          obtain ⟨g', hg, -⟩ := h.busy hr
          rw [View.workAt, hg] at hx
          cases hx
          exact Or.inr (Or.inr ⟨t, j, hr, hw⟩)

/-- A connection without packets is quiet in the view. -/
theorem Sees.quiet (h : c.Sees v) (hheld : c.held = none) {k : ConnRef} (hk : ¬ c.Awaits k) :
    v.Quiet k := by
  intro x w g hx hw
  rcases h.underWay (P := fun w => w.conn = some k) hx hw with ⟨t, ht, -⟩ | hrest
  · rw [hheld] at ht
    cases ht
  · exact hk hrest

theorem launch_eq_some {w : Work} : c.launch t w = some c' ↔
    c.running t = none ∧ c' = c.withPool
      { c.toPool.assign t (some ⟨c.made, w, w.prog⟩) with made := c.made + 1 } := by
  rw [launch, Option.map_eq_some_iff]
  constructor
  · rintro ⟨P, hP, rfl⟩
    obtain ⟨ht, rfl⟩ := Pool.launch_eq_some.mp hP
    exact ⟨ht, rfl⟩
  · rintro ⟨ht, rfl⟩
    exact ⟨_, Pool.launch_eq_some.mpr ⟨ht, rfl⟩, rfl⟩

/-- A thread that starts a program of its own. -/
theorem Sees.launch (h : c.Sees v) {w : Work} (hc : c.launch t w = some c') :
    v.doing t = none ∧ c'.Sees (v.assign t (some (w, .start))) := by
  obtain ⟨ht, rfl⟩ := launch_eq_some.mp hc
  exact ⟨h.free ht, { h with doing := Looks.update h.doing (looks_start _ w) t }⟩

/-- The network cuts off a socket. -/
theorem Sees.cutOff (h : c.Sees v) (k : ConnRef) :
    Sees { c with state := c.state.cutOff k } { v with server := v.server.cutOff k } :=
  { h with server := congrArg (·.cutOff k) h.server }

/-- The threads refine their view. -/
theorem Sees.next (h : c.Sees v) (hn : c.next act = some c') :
    ∃ v', v.Step act v' ∧ c'.Sees v' := by
  have hlisten : c.Listening → v.doing .listener = none ∧ v.held = none :=
    fun hl => ⟨h.free hl.1, h.held.trans hl.2⟩
  have hserver := h.server
  cases act with
  | take i =>
      obtain ⟨P, hP, rfl⟩ := Option.map_eq_some_iff.mp hn
      obtain ⟨j, rest, hi, hq, rfl⟩ := Pool.take_eq_some.mp hP
      have hwait := h.waiting
      rw [hq, List.map_cons] at hwait
      have hj : j.rest = j.label.prog := h.fresh j (hq ▸ List.mem_cons_self ..)
      refine ⟨_, .take (h.free hi) hwait, { h with waiting := rfl, fresh := ?fresh, doing := ?_ }⟩
      case fresh => exact fun j' hj' => h.fresh j' (hq ▸ List.mem_cons_of_mem _ hj')
      exact Looks.update h.doing (looks_goes (hj ▸ j.label.goes)) _
  | run t =>
      obtain ⟨P, hP, rfl⟩ := Option.map_eq_some_iff.mp hn
      obtain ⟨j, sec, ht, hsec, rfl⟩ := Pool.advance_eq_some.mp hP
      obtain ⟨g, hg, hgoes⟩ := h.busy ht
      obtain ⟨g', hstep, hrest⟩ := hgoes.section hsec
      rw [← hserver] at hstep
      refine ⟨_, .run hg hstep, { h with server := rfl, out := ?out, doing := ?_ }⟩
      case out => exact congrArg (· ++ sec.out) h.out
      exact Looks.update h.doing (looks_goes (j := { j with rest := sec.rest }) hrest) _
  | finish t =>
      obtain ⟨P, hP, rfl⟩ := Option.map_eq_some_iff.mp hn
      obtain ⟨j, ht, hend, rfl⟩ := Pool.finish_eq_some.mp hP
      obtain ⟨g, hg, hgoes⟩ := h.busy ht
      obtain ⟨-, hwhole, hends⟩ := hgoes.ended hend
      obtain ⟨m, stage⟩ := g
      cases hwhole
      have hnone : Looks none none := trivial
      exact ⟨_, .finish hg hends, { h with doing := Looks.update h.doing hnone _ }⟩
  | accept handle =>
      obtain ⟨hif, he⟩ := Option.ite_none_right_eq_some.mp hn
      cases he
      refine ⟨_, .accept (hlisten hif.1).1 (hlisten hif.1).2 (hserver ▸ hif.2), ?_⟩
      exact { h with server := congrArg (fun s : ChatServer => s.onConn (·.accepted handle)) hserver }
  | scan =>
      obtain ⟨hif, he⟩ := Option.ite_none_right_eq_some.mp hn
      cases he
      refine ⟨_, .scan (hlisten hif).1 (hlisten hif).2, { h with snapshot := ?_ }⟩
      exact congrArg (·.connManager.getAllSessions) hserver
  | read k pkt =>
      obtain ⟨hif, he⟩ := Option.ite_none_right_eq_some.mp hn
      cases he
      refine ⟨_, .read (hlisten hif.1).1 (hlisten hif.1).2 (h.snapshot ▸ hif.2.1) hif.2.2, ?_⟩
      exact { h with snapshot := congrArg (List.filter (· ≠ k)) h.snapshot, held := rfl }
  | hangUp k =>
      obtain ⟨hif, he⟩ := Option.ite_none_right_eq_some.mp hn
      have hsees : { c with snapshot := c.snapshot.filter (· ≠ k) }.Sees
          { v with snapshot := v.snapshot.filter (· ≠ k) } :=
        { h with snapshot := congrArg (List.filter (· ≠ k)) h.snapshot }
      exact ⟨_, .hangUp (hlisten hif.1).1 (hlisten hif.1).2 (h.snapshot ▸ hif.2),
        (hsees.launch he).2⟩
  | readPeer p pkt =>
      rw [Threads.next] at hn
      split at hn
      next => cases hn
      next k hk =>
        obtain ⟨hif, he⟩ := Option.ite_none_right_eq_some.mp hn
        cases he
        refine ⟨_, .readPeer (hlisten hif.1).1 (hlisten hif.1).2 (hserver ▸ hif.2.1) (hserver ▸ hk)
          hif.2.2, ?_⟩
        exact { h with snapshot := rfl, held := rfl }
  | hangUpPeer p =>
      obtain ⟨hif, he⟩ := Option.ite_none_right_eq_some.mp hn
      have hsees : { c with snapshot := [] }.Sees { v with snapshot := [] } :=
        { h with snapshot := rfl }
      exact ⟨_, .hangUpPeer (hlisten hif.1).1 (hlisten hif.1).2 (hserver ▸ hif.2.1),
        (hsees.launch he).2⟩
  | enqueue =>
      rw [Threads.next] at hn
      split at hn
      next => cases hn
      next t ht =>
        cases hn
        refine ⟨_, .enqueue (h.held.trans ht), { h with waiting := ?_, fresh := ?_, held := rfl }⟩
        · change v.waiting ++ _ = (c.queue ++ _).map _
          rw [List.map_append, h.waiting]
          rfl
        · intro j hj
          rcases List.mem_append.mp hj with hj | hj
          · exact h.fresh j hj
          · rw [List.mem_singleton.mp hj]
  | clock now =>
      obtain ⟨hif, he⟩ := Option.ite_none_right_eq_some.mp hn
      cases he
      refine ⟨_, .clock (hserver ▸ hif), { h with server := ?_ }⟩
      exact congrArg (fun s : ChatServer => { s with now := now }) hserver
  | beat =>
      obtain ⟨hfree, hsees⟩ := h.launch hn
      exact ⟨_, .beat hfree, hsees⟩
  | dial p handle =>
      obtain ⟨hif, he⟩ := Option.ite_none_right_eq_some.mp hn
      have hsees :
          { c with toPool := { c.toPool with state := c.state.onConn (·.newSocket handle) } }.Sees
          { v with server := v.server.onConn (·.newSocket handle) } :=
        { h with
          server := congrArg (fun s : ChatServer => s.onConn (·.newSocket handle)) hserver }
      obtain ⟨hfree, hsees⟩ := hsees.launch he
      rw [← hserver] at hsees hif
      exact ⟨_, .dial hfree hif.1 hif.2.1 hif.2.2, hsees⟩

end Threads

end DistributedChat
