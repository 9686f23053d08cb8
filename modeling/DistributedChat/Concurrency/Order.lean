import DistributedChat.Server.Views

/-!
# The order of the packets of one connection

Every packet becomes a task of its own, and workers overtake each other.  So two
packets of one connection may take effect in the other order, and a replicated
logout may be applied before the login it follows (`logout_overtakes_login`).
As long as a worker updates the server, or sends, only while no older packet of
its connection is being handled, they take effect as they were read
(`packets_in_order`).
-/

namespace DistributedChat

open ChatServer

/-- The user a replication packet is about, and whether it says that the user is
online. -/
def Work.tells : Work → Option (Bytes × Bool)
  | .task (.peer _ _ pkt) =>
      if pkt.type = .s2sReplicateUser then (content pkt.payload).map fun c => (c.1, c.2.2) else none
  | _ => none

/-- No client asks for the name. -/
def ThreadAction.Spares {n : Nat} (u : Bytes) : ThreadAction n → Prop
  | .read _ pkt => pkt.type = .login → trim pkt.payload ≠ u
  | _ => True

instance {n : Nat} (u : Bytes) (act : ThreadAction n) : Decidable (act.Spares u) :=
  match act with
  | .read _ pkt => inferInstanceAs (Decidable (pkt.type = .login → trim pkt.payload ≠ u))
  | .take _ | .run _ | .finish _ | .accept _ | .scan | .hangUp _ | .readPeer _ _
  | .hangUpPeer _ | .enqueue | .clock _ | .beat | .dial _ _ => instDecidableTrue

namespace Threads

variable {n : Nat}

/-- A thread updates the server, or sends, only while no older packet of its
connection is being handled. -/
def Patient (c : Threads n) : ThreadAction n → Prop
  | .run t => c.toPool.Waits Work.conn t
  | _ => True

instance (c : Threads n) (t : Thread n) : Decidable (c.toPool.Waits Work.conn t) :=
  inferInstanceAs (Decidable (∀ j ∈ c.running t, ∀ sec ∈ j.rest.step? c.state,
    sec.isUpdate = true → ∀ x ∈ j.label.conn, ∀ t', ∀ j' ∈ c.running t', _ → _))

instance (c : Threads n) (act : ThreadAction n) : Decidable (c.Patient act) :=
  match act with
  | .run t => inferInstanceAs (Decidable (c.toPool.Waits Work.conn t))
  | .take _ | .finish _ | .accept _ | .scan | .read _ _ | .hangUp _ | .readPeer _ _
  | .hangUpPeer _ | .enqueue | .clock _ | .beat | .dial _ _ => instDecidableTrue

/-- Every login of the user that has taken effect was followed on its connection by
a logout that has. -/
def LoggedOutLast (c : Threads n) (u : Bytes) : Prop :=
  ∀ e ∈ c.history, e.2.tells = some (u, true) →
    ∃ f ∈ c.history, e.1 < f.1 ∧ f.2.conn = e.2.conn ∧ f.2.tells = some (u, false)

instance (c : Threads n) (u : Bytes) : Decidable (c.LoggedOutLast u) :=
  inferInstanceAs (Decidable (∀ e ∈ c.history, _ → ∃ f ∈ c.history, _))

section

variable {c c' d : Threads n} {v v' : View n} {act : ThreadAction n} {t : Thread n}
  {as : List (ThreadAction n)} {s : ChatServer} {u : Bytes} {j : Job ChatServer Effect Work}

/-! ## The order of effects -/

/-- A thread that starts a program of its own keeps the order. -/
theorem disciplined_launch {w : Work} (h : Pool.Disciplined Work.conn c.toPool)
    (hw : w.conn = none) (hc : c.launch t w = some c') : Pool.Disciplined Work.conn c'.toPool := by
  obtain ⟨P, hP, rfl⟩ := Option.map_eq_some_iff.mp hc
  exact h.launch hw hP

/-- Every action of patient threads keeps the order. -/
theorem disciplined_next (h : Pool.Disciplined Work.conn c.toPool) (hp : c.Patient act)
    (hn : c.next act = some c') : Pool.Disciplined Work.conn c'.toPool := by
  cases act with
  | take i =>
      obtain ⟨P, hP, rfl⟩ := Option.map_eq_some_iff.mp hn
      exact h.take hP
  | run t =>
      obtain ⟨P, hP, rfl⟩ := Option.map_eq_some_iff.mp hn
      exact h.advance hp hP
  | finish t =>
      obtain ⟨P, hP, rfl⟩ := Option.map_eq_some_iff.mp hn
      exact h.finish hP
  | accept handle =>
      obtain ⟨-, he⟩ := Option.ite_none_right_eq_some.mp hn
      cases he
      exact h.congr rfl rfl rfl rfl
  | scan | read | clock =>
      obtain ⟨-, he⟩ := Option.ite_none_right_eq_some.mp hn
      cases he
      exact h.congr rfl rfl rfl rfl
  | hangUp k =>
      obtain ⟨-, he⟩ := Option.ite_none_right_eq_some.mp hn
      refine disciplined_launch ?_ ?_ he
      · exact h.congr rfl rfl rfl rfl
      · rfl
  | readPeer p pkt =>
      rw [Threads.next] at hn
      split at hn
      next => cases hn
      next =>
        obtain ⟨-, he⟩ := Option.ite_none_right_eq_some.mp hn
        cases he
        exact h.congr rfl rfl rfl rfl
  | hangUpPeer p =>
      obtain ⟨-, he⟩ := Option.ite_none_right_eq_some.mp hn
      refine disciplined_launch ?_ ?_ he
      · exact h.congr rfl rfl rfl rfl
      · rfl
  | enqueue =>
      rw [Threads.next] at hn
      split at hn
      next => cases hn
      next t ht =>
        cases hn
        exact h.submit _ _
  | beat => exact disciplined_launch h rfl hn
  | dial p handle =>
      obtain ⟨-, he⟩ := Option.ite_none_right_eq_some.mp hn
      refine disciplined_launch ?_ ?_ he
      · exact h.congr rfl rfl rfl rfl
      · rfl

/-! ## What an action does to the programs -/

/-- A program stays what it was, performs a section or is done. -/
inductive Keeps (c c' : Threads n) (act : ThreadAction n) (t : Thread n)
    (j : Job ChatServer Effect Work) : Prop where
  | same (h : c'.running t = some j)
  | ran {sec : Prog.Section ChatServer Effect Unit} (ha : act = .run t)
      (hsec : j.rest.step? c.state = some sec)
      (h : c'.running t = some { j with rest := sec.rest })
      (hhist : c'.history =
        if sec.isUpdate = true then c.history ++ [(j.number, j.label)] else c.history)
  | done (ha : act = .finish t) (hend : j.rest.step? c.state = none)

theorem running_launch {w : Work} (hj : c.running t = some j) {t' : Thread n}
    (hc : c.launch t' w = some c') : c'.running t = some j := by
  obtain ⟨ht, rfl⟩ := launch_eq_some.mp hc
  change (c.toPool.assign t' _).running t = some j
  rw [Pool.running_assign, if_neg, hj]
  rintro rfl
  rw [ht] at hj
  cases hj

theorem keeps_next (hn : c.next act = some c') (hj : c.running t = some j) :
    Keeps c c' act t j := by
  cases act with
  | take i =>
      obtain ⟨P, hP, rfl⟩ := Option.map_eq_some_iff.mp hn
      obtain ⟨j', rest, hi, hq, rfl⟩ := Pool.take_eq_some.mp hP
      refine .same ?_
      change (c.toPool.assign (.worker i) _).running t = some j
      rw [Pool.running_assign, if_neg, hj]
      rintro rfl
      rw [hi] at hj
      cases hj
  | run t' =>
      obtain ⟨P, hP, rfl⟩ := Option.map_eq_some_iff.mp hn
      obtain ⟨j', sec, hj', hsec, rfl⟩ := Pool.advance_eq_some.mp hP
      by_cases ht : t = t'
      · subst ht
        cases hj.symm.trans hj'
        refine .ran rfl hsec ?_ rfl
        change (c.toPool.perform t j sec).running t = _
        rw [Pool.running_perform, if_pos rfl]
      · refine .same ?_
        change (c.toPool.perform t' j' sec).running t = _
        rw [Pool.running_perform, if_neg ht, hj]
  | finish t' =>
      obtain ⟨P, hP, rfl⟩ := Option.map_eq_some_iff.mp hn
      obtain ⟨j', hj', hend, rfl⟩ := Pool.finish_eq_some.mp hP
      by_cases ht : t = t'
      · subst ht
        cases hj.symm.trans hj'
        exact .done rfl hend
      · refine .same ?_
        change (c.toPool.assign t' none).running t = _
        rw [Pool.running_assign, if_neg ht, hj]
  | accept | scan | read | clock =>
      obtain ⟨-, he⟩ := Option.ite_none_right_eq_some.mp hn
      cases he
      exact .same hj
  | hangUp | hangUpPeer | dial =>
      obtain ⟨-, he⟩ := Option.ite_none_right_eq_some.mp hn
      exact .same (running_launch (by exact hj) he)
  | readPeer p pkt =>
      rw [Threads.next] at hn
      split at hn
      next => cases hn
      next =>
        obtain ⟨-, he⟩ := Option.ite_none_right_eq_some.mp hn
        cases he
        exact .same hj
  | enqueue =>
      rw [Threads.next] at hn
      split at hn
      next => cases hn
      next =>
        cases hn
        exact .same hj
  | beat => exact .same (running_launch hj hn)

/-- A program was there before, has performed a section or has just begun. -/
inductive Came (c : Threads n) (act : ThreadAction n) (t : Thread n)
    (j : Job ChatServer Effect Work) : Prop where
  | same (h : c.running t = some j)
  | ran (ha : act = .run t)
  | fresh (h : j.rest = j.label.prog)

theorem came_launch {w : Work} {t' : Thread n} (hc : c.launch t' w = some c')
    (hj : c'.running t = some j) : c.running t = some j ∨ j.rest = j.label.prog := by
  obtain ⟨ht, rfl⟩ := launch_eq_some.mp hc
  change (c.toPool.assign t' _).running t = some j at hj
  rw [Pool.running_assign] at hj
  split at hj
  · cases hj
    exact Or.inr rfl
  · exact Or.inl hj

theorem came_next (hfresh : ∀ j ∈ c.queue, j.rest = j.label.prog) (hn : c.next act = some c')
    (hj : c'.running t = some j) : Came c act t j := by
  cases act with
  | take i =>
      obtain ⟨P, hP, rfl⟩ := Option.map_eq_some_iff.mp hn
      obtain ⟨j', rest, hi, hq, rfl⟩ := Pool.take_eq_some.mp hP
      change (c.toPool.assign (.worker i) _).running t = some j at hj
      rw [Pool.running_assign] at hj
      split at hj
      · cases hj
        exact .fresh (hfresh j (hq ▸ List.mem_cons_self ..))
      · exact .same hj
  | run t' =>
      obtain ⟨P, hP, rfl⟩ := Option.map_eq_some_iff.mp hn
      obtain ⟨j', sec, hj', hsec, rfl⟩ := Pool.advance_eq_some.mp hP
      change (c.toPool.perform t' j' sec).running t = some j at hj
      rw [Pool.running_perform] at hj
      split at hj
      next he => exact .ran (he ▸ rfl)
      next => exact .same hj
  | finish t' =>
      obtain ⟨P, hP, rfl⟩ := Option.map_eq_some_iff.mp hn
      obtain ⟨j', hj', -, rfl⟩ := Pool.finish_eq_some.mp hP
      change (c.toPool.assign t' none).running t = some j at hj
      rw [Pool.running_assign] at hj
      split at hj
      · cases hj
      · exact .same hj
  | accept | scan | read | clock =>
      obtain ⟨-, he⟩ := Option.ite_none_right_eq_some.mp hn
      cases he
      exact .same hj
  | hangUp | hangUpPeer | dial =>
      obtain ⟨-, he⟩ := Option.ite_none_right_eq_some.mp hn
      rcases came_launch he hj with hj | hj
      · exact .same hj
      · exact .fresh hj
  | readPeer p pkt =>
      rw [Threads.next] at hn
      split at hn
      next => cases hn
      next =>
        obtain ⟨-, he⟩ := Option.ite_none_right_eq_some.mp hn
        cases he
        exact .same hj
  | enqueue =>
      rw [Threads.next] at hn
      split at hn
      next => cases hn
      next =>
        cases hn
        exact .same hj
  | beat =>
      rcases came_launch hn hj with hj | hj
      · exact .same hj
      · exact .fresh hj

/-- Only sections change the user table and the history. -/
theorem unchanged_next (hn : c.next act = some c') (hrun : ∀ t, act ≠ .run t) :
    c'.state.userManager = c.state.userManager ∧ c'.history = c.history := by
  cases act with
  | take i =>
      obtain ⟨P, hP, rfl⟩ := Option.map_eq_some_iff.mp hn
      obtain ⟨_, _, _, _, rfl⟩ := Pool.take_eq_some.mp hP
      exact ⟨rfl, rfl⟩
  | run t' => exact absurd rfl (hrun t')
  | finish t' =>
      obtain ⟨P, hP, rfl⟩ := Option.map_eq_some_iff.mp hn
      obtain ⟨_, _, _, rfl⟩ := Pool.finish_eq_some.mp hP
      exact ⟨rfl, rfl⟩
  | accept | scan | read | clock =>
      obtain ⟨-, he⟩ := Option.ite_none_right_eq_some.mp hn
      cases he
      exact ⟨rfl, rfl⟩
  | hangUp | hangUpPeer | dial =>
      obtain ⟨-, he⟩ := Option.ite_none_right_eq_some.mp hn
      obtain ⟨-, rfl⟩ := launch_eq_some.mp he
      exact ⟨rfl, rfl⟩
  | readPeer p pkt =>
      rw [Threads.next] at hn
      split at hn
      next => cases hn
      next =>
        obtain ⟨-, he⟩ := Option.ite_none_right_eq_some.mp hn
        cases he
        exact ⟨rfl, rfl⟩
  | enqueue =>
      rw [Threads.next] at hn
      split at hn
      next => cases hn
      next =>
        cases hn
        exact ⟨rfl, rfl⟩
  | beat =>
      obtain ⟨-, rfl⟩ := launch_eq_some.mp hn
      exact ⟨rfl, rfl⟩

/-! ## Replicated logins and logouts -/

/-- What a replication packet does to the user table. -/
def put (u : Bytes) (i : Int) (online : Bool) (m : UserManager) : UserManager :=
  if online = true then m.registerUser u i else m.unregisterUser u

/-- How far the program of a replication packet has come, and whether it has been
applied. -/
inductive Course (w : Work) (u : Bytes) (online : Bool) : ServerProg Unit → Bool → Prop where
  | start : Course w u online w.prog false
  | beaten (i : Int) : Course w u online
      (Prog.update (onUsers (put u i online)) >>= fun _ => notifyOnlineUsers none) false
  | told {rest : ServerProg Unit}
      (h : rest.Calm (fun _ s _ s' _ => s'.userManager = s.userManager) ()) :
      Course w u online rest true

theorem calm_notifyOnlineUsers : (notifyOnlineUsers none).Calm
    (fun (_ : Unit) (s : ChatServer) (_ : List Effect) s' _ => s'.userManager = s.userManager)
    () := by
  intro s
  refine ⟨(), rfl, fun s' => ⟨(), rfl, Prog.Calm.each fun k _ => ?_⟩⟩
  intro s₁
  refine ⟨(), rfl, fun s₂ => ⟨(), rfl, Prog.Follows.ite (fun _ => ?_) fun _ => rfl⟩⟩
  exact fun s₃ => ⟨(), rfl, rfl⟩

/-- The program of a replication packet. -/
theorem prog_of_tells {w : Work} {online : Bool} (h : w.tells = some (u, online)) :
    ∃ (p : Int) (i : Int), w.prog =
      (Prog.update (fun s : ChatServer => s.onConn (·.updateHeartbeat p s.now)) >>= fun _ =>
        Prog.update (onUsers (put u i online)) >>= fun _ => notifyOnlineUsers none) := by
  cases w with
  | task t =>
      cases t with
      | client => cases h
      | peer p k pkt =>
          rw [Work.tells, Option.ite_none_right_eq_some] at h
          obtain ⟨ht, hc⟩ := h
          rw [content] at hc
          split at hc
          next name id active fields hu =>
            cases hi : stoi id with
            | none =>
                rw [hi] at hc
                cases hc
            | some i =>
                rw [hi] at hc
                cases hc
                refine ⟨p, i, ?_⟩
                simp only [Work.prog, handleServerPacket, ht, handleS2SReplicateUser, hu, hi]
                congr 1
                funext _
                split
                next ho =>
                  rw [decide_eq_true ho]
                  rfl
                next ho =>
                  rw [decide_eq_false ho]
                  rfl
          next => cases hc
  | clientGone | peerGone | heartbeats | connected => cases h

/-- Until it is applied, every section of a replication packet is an update. -/
theorem Course.section_false {w : Work} {online : Bool} {rest : ServerProg Unit}
    {sec : Prog.Section ChatServer Effect Unit} (h : Course w u online rest false)
    (hw : w.tells = some (u, online)) (hsec : rest.step? s = some sec) :
    sec.isUpdate = true ∧
      ((sec.state.userManager = s.userManager ∧ Course w u online sec.rest false) ∨
        (∃ i, sec.state.userManager = put u i online s.userManager) ∧
          Course w u online sec.rest true) := by
  cases h with
  | start =>
      obtain ⟨p, i, hprog⟩ := prog_of_tells hw
      rw [hprog] at hsec
      cases hsec
      exact ⟨rfl, Or.inl ⟨rfl, .beaten i⟩⟩
  | beaten i =>
      cases hsec
      exact ⟨rfl, Or.inr ⟨⟨i, rfl⟩, .told calm_notifyOnlineUsers⟩⟩

theorem Course.section_true {w : Work} {online : Bool} {rest : ServerProg Unit}
    {sec : Prog.Section ChatServer Effect Unit} (h : Course w u online rest true)
    (hsec : rest.step? s = some sec) :
    sec.state.userManager = s.userManager ∧ Course w u online sec.rest true := by
  cases h with
  | told h =>
      obtain ⟨⟨⟩, husers, hrest⟩ := h.section hsec
      exact ⟨husers, .told hrest⟩

/-- A replication packet has been applied when its program has ended. -/
theorem Course.ended {w : Work} {online : Bool} {rest : ServerProg Unit}
    (h : Course w u online rest false) (hw : w.tells = some (u, online)) :
    rest.step? s ≠ none := by
  cases h with
  | start =>
      obtain ⟨p, i, hprog⟩ := prog_of_tells hw
      rw [hprog]
      exact fun h => nomatch h
  | beaten i => exact fun h => nomatch h

/-- A name comes into the user table by a login of a client or a replication. -/
theorem location?_step {w : Work} {g g' : Phase} {out : List Effect} {s' : ChatServer}
    (h : Phase.Step w g s out s' g') (hu : s'.userManager.location? u ≠ none) :
    s.userManager.location? u ≠ none ∨ w.tells = some (u, true) ∨ g.point = .free u := by
  cases h with
  | touch h => cases h <;> exact Or.inl hu
  | wipeUsers =>
      rw [onUsers_userManager, UserManager.location?_clearServerUsers] at hu
      refine Or.inl fun hnone => hu ?_
      rw [hnone]
      rfl
  | register =>
      rw [onUsers_userManager, UserManager.location?_registerUser] at hu
      split at hu
      next he => exact Or.inr (Or.inr (he ▸ rfl))
      next => exact Or.inl hu
  | logout =>
      rw [onUsers_userManager, UserManager.location?_unregisterUser] at hu
      split at hu
      · exact absurd rfl hu
      · exact Or.inl hu
  | apply h =>
      cases h with
      | login ht hc =>
          rw [onUsers_userManager, UserManager.location?_registerUser] at hu
          split at hu
          next he =>
            refine Or.inr (Or.inl ?_)
            rw [Work.tells, if_pos ht, hc, he]
            rfl
          next => exact Or.inl hu
      | logout =>
          rw [onUsers_userManager, UserManager.location?_unregisterUser] at hu
          split at hu
          · exact absurd rfl hu
          · exact Or.inl hu
      | enter | exit => exact Or.inl hu
  | _ => exact Or.inl hu

/-- The program has found the name free only if its client asked for it. -/
theorem free_step {w : Work} {g g' : Phase} {out : List Effect} {s' : ChatServer}
    (h : Phase.Step w g s out s' g') (hg : g'.point = .free u) : g.point = .free u ∨
      ∃ k pkt, w = .task (.client k pkt) ∧ pkt.type = .login ∧ trim pkt.payload = u := by
  cases h with
  | @free k pkt _ ht =>
      cases hg
      exact Or.inr ⟨k, pkt, rfl, ht, rfl⟩
  | idle | aim | abort | found | target | bare | close | cut | wipeUsers | wipeRooms =>
      exact Or.inl hg
  | _ => cases hg

/-- What keeps a user offline whose logins are followed by logouts: when the user is
online, a login has been applied and no later logout of its connection has. -/
structure Replayed (u : Bytes) (c : Threads n) (v : View n) : Prop where
  order : Pool.Disciplined Work.conn c.toPool
  sees : c.Sees v
  spared : ∀ x w g, v.workAt x = some (w, g) → g.point ≠ .free u ∧
    ∀ k pkt, w = .task (.client k pkt) → pkt.type = .login → trim pkt.payload ≠ u
  course : ∀ t j online, c.running t = some j → j.label.tells = some (u, online) →
    ∃ x, Course j.label u online j.rest x ∧ (x = true → (j.number, j.label) ∈ c.history)
  online : c.state.userManager.location? u ≠ none → ∃ e ∈ c.history, e.2.tells = some (u, true) ∧
    ∀ f ∈ c.history, e.1 < f.1 → f.2.conn = e.2.conn → f.2.tells = some (u, false) →
      ∃ t j, c.running t = some j ∧ (j.number, j.label) = f ∧ Course j.label u false j.rest false

theorem Replayed.step_spared (h : Replayed u c v) (hs : v.Step act v') (hspare : act.Spares u)
    {x : Place n} {w : Work} {g : Phase} (hx : v'.workAt x = some (w, g)) :
    g.point ≠ .free u ∧
      ∀ k pkt, w = .task (.client k pkt) → pkt.type = .login → trim pkt.payload ≠ u := by
  cases hs.origin hx with
  | moved hx => exact h.spared _ w g hx
  | ran _ _ ht hstep =>
      obtain ⟨hpoint, hclient⟩ := h.spared (.thread _) w _ ht
      refine ⟨fun hg => ?_, hclient⟩
      rcases free_step hstep hg with hg | ⟨k, pkt, hw, ht, hu⟩
      · exact hpoint hg
      · exact hclient k pkt hw ht hu
  | began hg hb =>
      subst hg
      refine ⟨Point.noConfusion, fun k pkt hw ht => ?_⟩
      subst hw
      cases act with
      | read =>
          cases hb
          exact hspare ht
      | readPeer =>
          obtain ⟨_, _, he⟩ := hb
          cases he
      | hangUp | hangUpPeer | beat | dial => cases hb
      | _ => exact hb.elim

/-- A section of a program. -/
theorem Replayed.run_online (h : Replayed u c v) {j : Job ChatServer Effect Work}
    {sec : Prog.Section ChatServer Effect Unit} (ht : c.running t = some j)
    (hsec : j.rest.step? c.state = some sec)
    (hrun : ∀ t', c'.running t' = if t' = t then some { j with rest := sec.rest } else c.running t')
    (hstate : c'.state = sec.state)
    (hhist : c'.history =
      if sec.isUpdate = true then c.history ++ [(j.number, j.label)] else c.history) :
    (∀ online, j.label.tells = some (u, online) →
      ∃ x, Course j.label u online sec.rest x ∧ (x = true → (j.number, j.label) ∈ c'.history)) ∧
    (c'.state.userManager.location? u ≠ none → ∃ e ∈ c'.history, e.2.tells = some (u, true) ∧
      ∀ f ∈ c'.history, e.1 < f.1 → f.2.conn = e.2.conn → f.2.tells = some (u, false) →
        ∃ t j, c'.running t = some j ∧ (j.number, j.label) = f ∧
          Course j.label u false j.rest false) := by
  have hmono : ∀ e ∈ c.history, e ∈ c'.history := by
    intro e he
    rw [hhist]
    split
    · exact List.mem_append_left _ he
    · exact he
  have hnew : ∀ f ∈ c'.history, f ∈ c.history ∨ f = (j.number, j.label) := by
    intro f hf
    rw [hhist] at hf
    split at hf
    · exact (List.mem_append.mp hf).imp_right List.mem_singleton.mp
    · exact Or.inl hf
  by_cases htells : ∃ online, j.label.tells = some (u, online)
  · obtain ⟨online, hw⟩ := htells
    by_cases hfalse : Course j.label u online j.rest false
    · obtain ⟨hup, hwhere⟩ := hfalse.section_false hw hsec
      rw [if_pos hup] at hhist
      have hself : (j.number, j.label) ∈ c'.history := by
        rw [hhist]
        exact List.mem_append_right _ (List.mem_singleton_self _)
      rcases hwhere with ⟨husers, hcourse⟩ | ⟨⟨i, husers⟩, hcourse⟩
      · -- not yet applied: the program itself is the witness
        refine ⟨fun b hb => ?_, fun hu => ?_⟩
        · cases hw.symm.trans hb
          exact ⟨false, hcourse, Bool.noConfusion⟩
        · rw [hstate, husers] at hu
          obtain ⟨e, he, hlogin, hlater⟩ := h.online hu
          refine ⟨e, hmono e he, hlogin, fun f hf hlt hconn hout => ?_⟩
          have hmine : f = (j.number, j.label) → ∃ t j, c'.running t = some j ∧
              (j.number, j.label) = f ∧ Course j.label u false j.rest false := by
            rintro rfl
            cases hw.symm.trans hout
            exact ⟨t, _, (hrun t).trans (if_pos rfl), rfl, hcourse⟩
          rcases hnew f hf with hf | hf
          · obtain ⟨t', j', ht', hj', hcourse'⟩ := hlater f hf hlt hconn hout
            by_cases htt : t' = t
            · subst htt
              cases ht.symm.trans ht'
              exact hmine hj'.symm
            · exact ⟨t', j', (hrun t').trans (if_neg htt ▸ ht'), hj', hcourse'⟩
          · exact hmine hf
      · -- applied now: nothing younger of the connection has taken effect
        refine ⟨fun b hb => ?_, fun hu => ?_⟩
        · cases hw.symm.trans hb
          exact ⟨true, hcourse, fun _ => hself⟩
        · rw [hstate, husers] at hu
          cases online with
          | false => exact absurd (by simp [put]) hu
          | true =>
              refine ⟨_, hself, hw, fun f hf hlt hconn hout => ?_⟩
              rcases hnew f hf with hf | rfl
              · have hkey : ∃ x, j.label.conn = some x := by
                  revert hw
                  cases j.label with
                  | task t => exact fun _ => ⟨_, rfl⟩
                  | clientGone | peerGone | heartbeats | connected => exact fun hw => nomatch hw
                obtain ⟨x, hx⟩ := hkey
                exact absurd hlt (Nat.not_lt.mpr
                  (h.order.later f hf j (Or.inr ⟨t, ht⟩) x (hconn.trans hx) hx))
              · exact absurd hlt (Nat.lt_irrefl _)
    · obtain ⟨x, hcourse, hin⟩ := h.course t j online ht hw
      cases x with
      | false => exact absurd hcourse hfalse
      | true =>
          obtain ⟨husers, hcourse'⟩ := hcourse.section_true hsec
          refine ⟨fun b hb => ?_, fun hu => ?_⟩
          · cases hw.symm.trans hb
            exact ⟨true, hcourse', fun _ => hmono _ (hin rfl)⟩
          · rw [hstate, husers] at hu
            obtain ⟨e, he, hlogin, hlater⟩ := h.online hu
            refine ⟨e, hmono e he, hlogin, fun f hf hlt hconn hout => ?_⟩
            have hold : f ∈ c.history := by
              rcases hnew f hf with hf | rfl
              · exact hf
              · exact hin rfl
            obtain ⟨t', j', ht', hj', hcourse''⟩ := hlater f hold hlt hconn hout
            refine ⟨t', j', (hrun t').trans ((if_neg ?_).trans ht'), hj', hcourse''⟩
            rintro rfl
            cases ht.symm.trans ht'
            cases hj'
            cases hw.symm.trans hout
            exact hfalse hcourse''
  · -- a program that says nothing of the user
    refine ⟨fun b hb => absurd ⟨b, hb⟩ htells, fun hu => ?_⟩
    obtain ⟨g, hg, hgoes⟩ := h.sees.busy ht
    obtain ⟨g', hstep, -⟩ := hgoes.section hsec
    rw [hstate] at hu
    rcases location?_step hstep hu with hu | hw | hfree
    · obtain ⟨e, he, hlogin, hlater⟩ := h.online hu
      refine ⟨e, hmono e he, hlogin, fun f hf hlt hconn hout => ?_⟩
      rcases hnew f hf with hf | rfl
      · obtain ⟨t', j', ht', hj', hcourse⟩ := hlater f hf hlt hconn hout
        refine ⟨t', j', (hrun t').trans ((if_neg ?_).trans ht'), hj', hcourse⟩
        rintro rfl
        cases ht.symm.trans ht'
        cases hj'
        exact htells ⟨false, hout⟩
      · exact absurd ⟨false, hout⟩ htells
    · exact absurd ⟨true, hw⟩ htells
    · exact absurd hfree (h.spared (.thread t) _ g hg).1

theorem Replayed.step (h : Replayed u c v) (hp : c.Patient act) (hspare : act.Spares u)
    (hn : c.next act = some c') : ∃ v', Replayed u c' v' := by
  obtain ⟨v', hs, hsees⟩ := h.sees.next hn
  suffices hkey : (∀ t j online, c'.running t = some j → j.label.tells = some (u, online) →
      ∃ x, Course j.label u online j.rest x ∧ (x = true → (j.number, j.label) ∈ c'.history)) ∧
    (c'.state.userManager.location? u ≠ none → ∃ e ∈ c'.history, e.2.tells = some (u, true) ∧
      ∀ f ∈ c'.history, e.1 < f.1 → f.2.conn = e.2.conn → f.2.tells = some (u, false) →
        ∃ t j, c'.running t = some j ∧ (j.number, j.label) = f ∧
          Course j.label u false j.rest false) from
    ⟨v', disciplined_next h.order hp hn, hsees, fun _ _ _ => h.step_spared hs hspare, hkey.1, hkey.2⟩
  by_cases hrun : ∃ t, act = .run t
  · obtain ⟨t, rfl⟩ := hrun
    obtain ⟨P, hP, rfl⟩ := Option.map_eq_some_iff.mp hn
    obtain ⟨j, sec, ht, hsec, rfl⟩ := Pool.advance_eq_some.mp hP
    have hrunning : ∀ t', (c.withPool (c.toPool.perform t j sec)).running t' =
        if t' = t then some { j with rest := sec.rest } else c.running t' :=
      fun t' => Pool.running_perform sec
    obtain ⟨hcourse, honline⟩ := h.run_online ht hsec hrunning rfl rfl
    refine ⟨fun t' j' online ht' hw => ?_, honline⟩
    have ht'' := (hrunning t').symm.trans ht'
    split at ht''
    · cases ht''
      exact hcourse online hw
    · obtain ⟨x, hx, hin⟩ := h.course t' j' online ht'' hw
      refine ⟨x, hx, fun hx => ?_⟩
      change _ ∈ (if sec.isUpdate = true then _ else _)
      split
      · exact List.mem_append_left _ (hin hx)
      · exact hin hx
  · push Not at hrun
    obtain ⟨husers, hhist⟩ := unchanged_next hn hrun
    constructor
    · intro t j online ht hw
      rw [hhist]
      cases came_next h.sees.fresh hn ht with
      | same ht => exact h.course t j online ht hw
      | ran ha => exact absurd ha (hrun t)
      | fresh he => exact ⟨false, he ▸ .start, Bool.noConfusion⟩
    · intro hu
      rw [husers] at hu
      obtain ⟨e, he, hlogin, hlater⟩ := h.online hu
      refine ⟨e, hhist ▸ he, hlogin, fun f hf hlt hconn hout => ?_⟩
      obtain ⟨t, j, ht, hj, hcourse⟩ := hlater f (hhist ▸ hf) hlt hconn hout
      cases keeps_next hn ht with
      | same ht => exact ⟨t, j, ht, hj, hcourse⟩
      | ran ha => exact absurd ha (hrun t)
      | done _ hend =>
          -- a logout that has not been applied has not ended
          cases hj
          exact absurd hend (hcourse.ended hout)

theorem replayed_idle (hu : s.userManager.isUserOnline u = false) :
    Replayed u (idle s) (View.idle s : View n) where
  order := Pool.disciplined_init s
  sees := sees_idle s
  spared := by
    intro x w g hx
    cases x <;> cases hx
  course := fun _ _ _ ht => nomatch ht
  online := by
    intro hloc
    rw [UserManager.isUserOnline, Option.isSome_eq_false_iff, Option.isNone_iff_eq_none] at hu
    exact absurd hu hloc

/-- If every section that updates the server or sends belongs to the oldest packet
of its connection that is being handled, the packets of each connection take
effect in the order in which they were read.  In particular a user whose
replicated logins were followed by logouts is offline in the end. -/
theorem packets_in_order (hwait : Along next Patient (idle s) as)
    (hd : Visits next (idle s) as d) :
    d.toPool.InOrder Work.conn ∧
      ∀ u, s.userManager.isUserOnline u = false → (∀ a ∈ as, a.Spares u) → d.Settled →
        d.LoggedOutLast u → d.state.userManager.isUserOnline u = false := by
  obtain ⟨pre, post, rfl, hpre⟩ := hd
  have hwait := ((along_append hpre).mp hwait).1
  constructor
  · exact (exec_induct (I := fun c : Threads n => Pool.Disciplined Work.conn c.toPool)
      disciplined_next (Pool.disciplined_init s) hwait hpre).inOrder
  · intro u hu hspare hset hlast
    have hspares : Along next (fun _ a => a.Spares u) (idle s) pre :=
      along_of_forall fun a ha => hspare a (List.mem_append_left post ha)
    obtain ⟨v, h⟩ := exec_induct (I := fun c : Threads n => ∃ v, Replayed u c v)
      (fun ⟨v, h⟩ hP hn => h.step hP.1 hP.2 hn) ⟨_, replayed_idle hu⟩ (hwait.and hspares) hpre
    rw [UserManager.isUserOnline, Option.isSome_eq_false_iff, Option.isNone_iff_eq_none]
    by_contra hloc
    obtain ⟨e, he, hlogin, hlater⟩ := h.online hloc
    obtain ⟨f, hf, hlt, hconn, hout⟩ := hlast e he hlogin
    obtain ⟨t, j, ht, -⟩ := hlater f hf hlt hconn hout
    rw [hset.1.2 t] at ht
    cases ht

end

/-- Server 1 connects to server 2, whose user bob logs in and out again. -/
def bobComesAndGoes : List (ThreadAction 4) :=
  [.dial 2 5] ++ List.replicate 5 (.run .connector) ++
    [.finish .connector,
      .readPeer 2 ⟨.s2sReplicateUser, pack [ascii "bob", ascii "2", ascii "1"]⟩, .enqueue,
      .readPeer 2 ⟨.s2sReplicateUser, pack [ascii "bob", ascii "2", ascii "0"]⟩, .enqueue,
      .take 0, .take 1]

/-- The worker with the logout waits for the one with the login. -/
def patientLogout : List (ThreadAction 4) :=
  bobComesAndGoes ++ List.replicate 4 (.run (.worker 0)) ++ [.finish (.worker 0)] ++
    List.replicate 4 (.run (.worker 1)) ++ [.finish (.worker 1)]

theorem packets_in_order_patientLogout :
    ∃ d, exec next (idle (configured 1 [2])) patientLogout = some d ∧ d.toPool.InOrder Work.conn ∧
      d.state.userManager.isUserOnline (ascii "bob") = false := by
  have hrun : (exec next (idle (configured 1 [2])) patientLogout).any fun d =>
      decide (d.Settled ∧ d.LoggedOutLast (ascii "bob")) := by decide +kernel
  obtain ⟨d, hd, h⟩ := (Option.any_eq_true ..).mp hrun
  obtain ⟨hset, hlast⟩ := of_decide_eq_true h
  obtain ⟨horder, hoffline⟩ := packets_in_order (by decide +kernel) (.last hd)
  exact ⟨d, hd, horder, hoffline _ (by decide) (by decide) hset hlast⟩

/-- The worker with the logout overtakes the one with the login. -/
def overtakingLogout : List (ThreadAction 4) :=
  bobComesAndGoes ++ List.replicate 4 (.run (.worker 1)) ++ [.finish (.worker 1)] ++
    List.replicate 4 (.run (.worker 0)) ++ [.finish (.worker 0)]

/-- The logout takes effect before the login it follows, and bob stays online. -/
theorem logout_overtakes_login :
    ∃ d, exec next (idle (configured 1 [2])) overtakingLogout = some d ∧
      ¬ d.toPool.InOrder Work.conn ∧ d.Settled ∧ d.LoggedOutLast (ascii "bob") ∧
        d.state.userManager.isUserOnline (ascii "bob") = true := by
  have hrun : (exec next (idle (configured 1 [2])) overtakingLogout).any fun d =>
      decide (¬ d.toPool.InOrder Work.conn ∧ d.Settled ∧ d.LoggedOutLast (ascii "bob") ∧
        d.state.userManager.isUserOnline (ascii "bob") = true) := by decide +kernel
  obtain ⟨d, hd, h⟩ := (Option.any_eq_true ..).mp hrun
  exact ⟨d, hd, of_decide_eq_true h⟩

end Threads

end DistributedChat
