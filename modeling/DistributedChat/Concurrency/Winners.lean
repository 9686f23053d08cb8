import DistributedChat.Server.Views

/-!
# One name, several logins

`HandleLogin` looks a name up in one section, registers it in a second and
authenticates its session in a third.  Two logins that look before either
registers are both welcomed (`two_winners`).  If a login registers its name only
while no other session of `m_sessionsBySocket` bears it, and no other worker is
about to give it to one, then the sessions that were welcomed under a name and
whose disconnect has not been handled are at most one (`one_winner`).

The invariant is that at most one registered session holds a name, where a session
whose login has registered the name and not yet authenticated it holds it too.
-/

namespace DistributedChat

open ChatServer

/-- The session an output welcomes. -/
def Effect.welcomes : Effect → Option ConnRef
  | .toSession k pkt => if (Effect.toSession k pkt).isWelcome = true then some k else none
  | .toPeer _ _ _ => none

/-- The name a login packet of a client asks for. -/
def Work.asks : Work → Option Bytes
  | .task (.client _ pkt) => if pkt.type = .login then some (trim pkt.payload) else none
  | _ => none

/-- Every client asks for the name it wants. -/
def ThreadAction.Wants {n : Nat} (wants : ConnRef → Bytes) : ThreadAction n → Prop
  | .read k pkt => pkt.type = .login → trim pkt.payload = wants k
  | _ => True

instance {n : Nat} (wants : ConnRef → Bytes) (act : ThreadAction n) : Decidable (act.Wants wants) :=
  match act with
  | .read k pkt => inferInstanceAs (Decidable (pkt.type = .login → trim pkt.payload = wants k))
  | .take _ | .run _ | .finish _ | .accept _ | .scan | .hangUp _ | .readPeer _ _
  | .hangUpPeer _ | .enqueue | .clock _ | .beat | .dial _ _ => instDecidableTrue

namespace Threads

variable {n : Nat}

/-- The session has been sent a `LOGIN_RESP` with "1". -/
def Welcomed (c : Threads n) (k : ConnRef) : Prop := k ∈ c.out.filterMap Effect.welcomes

instance (c : Threads n) (k : ConnRef) : Decidable (c.Welcomed k) :=
  inferInstanceAs (Decidable (k ∈ _))

/-- Of the registered sessions that want one name, one at most has been welcomed. -/
def SingleWinners (wants : ConnRef → Bytes) (c : Threads n) : Prop :=
  ∀ i k, c.state.connManager.Live i → c.state.connManager.Live k → c.Welcomed i → c.Welcomed k →
    wants i = wants k → i = k

/-- The next section of the job, were the name free, puts it into the user table. -/
def Registers (c : Threads n) (j : Job ChatServer Effect Work) (u : Bytes) : Prop :=
  ∃ sec ∈ j.rest.step? (c.state.onUsers (·.unregisterUser u)),
    sec.state.userManager.isUserOnline u = true

instance (c : Threads n) (j : Job ChatServer Effect Work) (u : Bytes) : Decidable (c.Registers j u) :=
  inferInstanceAs (Decidable (∃ sec ∈ _, _))

/-- No session but `k` bears the name, nor will one after the next section of some
thread. -/
def Unclaimed (c : Threads n) (u : Bytes) (k : ConnRef) : Prop :=
  ∀ i ∈ c.state.connManager.getAllSessions, i ≠ k → c.state.nameOf i ≠ u ∧
    ∀ t, ∀ j ∈ c.running t, ∀ sec ∈ j.rest.step? c.state, sec.state.nameOf i ≠ u

instance (c : Threads n) (u : Bytes) (k : ConnRef) : Decidable (c.Unclaimed u k) :=
  inferInstanceAs (Decidable (∀ i ∈ c.state.connManager.getAllSessions, i ≠ k → _ ∧
    ∀ t, ∀ j ∈ c.running t, ∀ sec ∈ j.rest.step? c.state, _))

/-- A login registers its name only while nobody else has a claim to it. -/
def Polite (c : Threads n) : ThreadAction n → Prop
  | .run t => ∀ j ∈ c.running t, ∀ u ∈ j.label.asks, ∀ k ∈ j.label.conn, c.Registers j u →
      c.Unclaimed u k
  | _ => True

instance (c : Threads n) (act : ThreadAction n) : Decidable (c.Polite act) :=
  match act with
  | .run t => inferInstanceAs (Decidable (∀ j ∈ c.running t, ∀ u ∈ j.label.asks,
      ∀ k ∈ j.label.conn, c.Registers j u → c.Unclaimed u k))
  | .take _ | .finish _ | .accept _ | .scan | .read _ _ | .hangUp _ | .readPeer _ _
  | .hangUpPeer _ | .enqueue | .clock _ | .beat | .dial _ _ => instDecidableTrue

end Threads

namespace View

variable {n : Nat}

/-- The session is registered, and it bears the name or its login has registered
it. -/
def Holding (v : View n) (k : ConnRef) (u : Bytes) : Prop :=
  v.server.connManager.Live k ∧ (v.server.nameOf k = u ∨
    ∃ t pkt, v.doing t = some (.task (.client k pkt), ⟨.entered u, .whole⟩))

/-- The name a login has come to is that of its packet, and what its session wants. -/
def Fits (wants : ConnRef → Bytes) (w : Work) : Point → Prop
  | .free u | .entered u | .named u =>
      ∃ k pkt, w = .task (.client k pkt) ∧ pkt.type = .login ∧ trim pkt.payload = u ∧
        u = wants k ∧ u ≠ []
  | _ => True

/-- At most one registered session holds a name. -/
structure Won (wants : ConnRef → Bytes) (v : View n) : Prop where
  ground : v.Grounded
  asks : ∀ x k pkt g, v.workAt x = some (.task (.client k pkt), g) → pkt.type = .login →
    trim pkt.payload = wants k
  fits : ∀ x w g, v.workAt x = some (w, g) → Fits wants w g.point
  whole : ∀ x w g, v.workAt x = some (w, g) → g.point.isOpen = true ∨ g.stage = .whole
  named : ∀ t k pkt u, v.doing t = some (.task (.client k pkt), ⟨.named u, .whole⟩) →
    v.server.nameOf k = u
  welcomed : ∀ k ∈ v.out.filterMap Effect.welcomes,
    v.server.nameOf k = wants k ∧ wants k ≠ [] ∧ k < v.server.connManager.nextConn
  one : ∀ i k u, u ≠ [] → v.Holding i u → v.Holding k u → i = k

section

variable {wants : ConnRef → Bytes} {v v' : View n} {act : ThreadAction n} {t : Thread n} {w : Work}
  {g g' : Phase} {s s' : ChatServer} {out : List Effect} {k i : ConnRef} {pkt : RawPacket}
  {u : Bytes}

/-! ## What a section does to names and sessions -/

/-- A login comes to a name by looking its own up. -/
theorem fits_step (h : Phase.Step w g s out s' g') (hfit : Fits wants w g.point)
    (hlogin : ∀ k pkt, w = .task (.client k pkt) → pkt.type = .login → trim pkt.payload = wants k) :
    Fits wants w g'.point := by
  cases h with
  | free ht hu => exact ⟨_, _, rfl, ht, rfl, hlogin _ _ rfl ht, hu⟩
  | register | authenticate => exact hfit
  | idle | aim | abort | found | target | bare | close | cut | wipeUsers | wipeRooms =>
      exact hfit
  | _ => trivial

/-- A session that exists gets a name in `AuthenticateSession` only. -/
theorem Step.nameOf (hs : v.Step act v') (hk : k < v.server.connManager.nextConn) :
    v'.server.nameOf k = v.server.nameOf k ∨ ∃ t pkt u,
      v.doing t = some (.task (.client k pkt), ⟨.entered u, .whole⟩) ∧ v'.server.nameOf k = u := by
  cases hs.serves with
  | same he => exact Or.inl (by rw [he])
  | @accepted handle _ he =>
      have hname : v'.server.nameOf k =
          if k = v.server.connManager.nextConn then [] else v.server.nameOf k :=
        nameOf_newSocket (h := handle) (by rw [he]; rfl)
      exact Or.inl (hname.trans (if_neg (Nat.ne_of_lt hk)))
  | @dialed _ handle _ _ he =>
      have hname : v'.server.nameOf k =
          if k = v.server.connManager.nextConn then [] else v.server.nameOf k :=
        nameOf_newSocket (h := handle) (by rw [he]; rfl)
      exact Or.inl (hname.trans (if_neg (Nat.ne_of_lt hk)))
  | clocked _ he =>
      left
      rw [he]
      rfl
  | ran _ ht _ hstep =>
      rcases hstep.nameOf k with he | ⟨u, pkt, rfl, rfl, -, he⟩
      · exact Or.inl he
      · exact Or.inr ⟨_, pkt, u, ht, he⟩

/-! ## The invariant -/

theorem Won.wants_of_entered (h : Won wants v)
    (ht : v.doing t = some (.task (.client k pkt), ⟨.entered u, .whole⟩)) : u = wants k := by
  obtain ⟨_, _, he, _, _, hu, _⟩ := h.fits (.thread t) _ _ ht
  cases he
  exact hu

/-- A session that bears the name it wants keeps it. -/
theorem Won.step_wants (h : Won wants v) (hs : v.Step act v')
    (hk : k < v.server.connManager.nextConn) (hname : v.server.nameOf k = wants k) :
    v'.server.nameOf k = wants k := by
  rcases hs.nameOf hk with he | ⟨t, pkt, u, ht, he⟩
  · exact he.trans hname
  · exact he.trans (h.wants_of_entered ht)

theorem Won.step_asks (h : Won wants v) (hs : v.Step act v') (hwants : act.Wants wants)
    {x : Place n} (hx : v'.workAt x = some (.task (.client k pkt), g)) (ht : pkt.type = .login) :
    trim pkt.payload = wants k := by
  cases hs.origin hx with
  | moved hx => exact h.asks _ k pkt g hx ht
  | ran _ _ hx => exact h.asks (.thread _) k pkt _ hx ht
  | began hg hb =>
      cases hs with
      | read =>
          cases hb
          exact hwants ht
      | readPeer =>
          obtain ⟨_, _, he⟩ := hb
          cases he
      | hangUp | hangUpPeer | beat | dial => cases hb
      | take | run | finish | accept | scan | enqueue | clock => exact hb.elim

theorem Won.step_fits (h : Won wants v) (hs : v.Step act v') {x : Place n}
    (hx : v'.workAt x = some (w, g)) :
    Fits wants w g.point ∧ (g.point.isOpen = true ∨ g.stage = .whole) := by
  cases hs.origin hx with
  | moved hx => exact ⟨h.fits _ w g hx, h.whole _ w g hx⟩
  | ran _ _ ht hstep =>
      refine ⟨fits_step hstep (h.fits (.thread _) w _ ht) fun k pkt hw => ?_,
        hstep.whole (h.whole (.thread _) w _ ht)⟩
      subst hw
      exact h.asks (.thread _) k pkt _ ht
  | began hg =>
      subst hg
      exact ⟨trivial, Or.inr rfl⟩

theorem Won.step_named (h : Won wants v) (hs : v.Step act v')
    (ht : v'.doing t = some (.task (.client k pkt), ⟨.named u, .whole⟩)) :
    v'.server.nameOf k = u := by
  cases hs.origin (y := .thread t) ht with
  | moved hx =>
      obtain ⟨t', -, ht'⟩ := workAt_begun hx (by rintro ⟨⟩)
      obtain ⟨_, _, he, _, _, hu, _⟩ := h.fits (.thread t') _ _ ht'
      cases he
      have hold := h.named t' k pkt u ht'
      exact (h.step_wants hs (h.ground.client (.thread t') k pkt _ ht') (hold.trans hu)).trans hu.symm
  | ran _ _ ht₀ hstep =>
      have hwhole := h.whole (.thread _) _ _ ht₀
      generalize hserver : v'.server = s' at hstep
      cases hstep with
      | idle hm => cases hm
      | abort | wipeRooms => rcases hwhole with hm | hm <;> cases hm
      | authenticate =>
          rw [ChatServer.nameOf, onConn_connManager,
            ConnectionManager.sessions_authenticateSession, if_pos rfl]
  | began hg => cases hg

/-- A session is welcomed under the name it bears. -/
theorem Won.step_welcomed (h : Won wants v) (hs : v.Step act v')
    (hk : k ∈ v'.out.filterMap Effect.welcomes) :
    v'.server.nameOf k = wants k ∧ wants k ≠ [] ∧ k < v'.server.connManager.nextConn := by
  have hold : k ∈ v.out.filterMap Effect.welcomes →
      v'.server.nameOf k = wants k ∧ wants k ≠ [] ∧ k < v'.server.connManager.nextConn := by
    intro hk
    obtain ⟨hname, hne, hlt⟩ := h.welcomed k hk
    exact ⟨h.step_wants hs hlt hname, hne, Nat.lt_of_lt_of_le hlt hs.nextConn⟩
  cases hs.serves with
  | same _ hout | accepted _ _ hout | clocked _ _ hout | dialed _ _ _ _ hout =>
      rw [hout] at hk
      exact hold hk
  | @ran t w g g' out ha ht ht' hstep hout =>
      rw [hout, List.filterMap_append] at hk
      rcases List.mem_append.mp hk with hk | hk
      · exact hold hk
      · obtain ⟨e, he, hwel⟩ := List.mem_filterMap.mp hk
        generalize hserver : v'.server = s' at hstep
        cases hstep with
        | idle _ hout =>
            have hnot := hout e he
            cases e with
            | toPeer => cases hwel
            | toSession j pkt =>
                rw [Effect.welcomes, hnot] at hwel
                cases hwel
        | @welcome j pkt u pl =>
            rw [List.mem_singleton.mp he, Effect.welcomes, Option.ite_none_right_eq_some] at hwel
            cases hwel.2
            obtain ⟨_, _, he, _, _, hu, hne⟩ := h.fits (.thread t) _ _ ht
            cases he
            refine ⟨(h.named t _ pkt u ht).trans hu, hu ▸ hne, ?_⟩
            exact h.ground.client (.thread t) _ pkt _ ht
        | _ => exact absurd he List.not_mem_nil

/-- A name is come by in `RegisterUser` only. -/
theorem Won.holding (h : Won wants v) (hs : v.Step act v') (hu : u ≠ []) (hh : v'.Holding k u) :
    v.Holding k u ∨ ∃ t pkt, act = .run t ∧
      v.doing t = some (.task (.client k pkt), ⟨.free u, .whole⟩) := by
  obtain ⟨hlive, hname⟩ := hh
  rcases hname with hname | ⟨t, pkt, ht⟩
  · rcases hs.live hlive with hlive | ⟨-, -, hnil⟩
    · rcases hs.nameOf (h.ground.live k hlive) with he | ⟨t, pkt, u', ht, he⟩
      · exact Or.inl ⟨hlive, Or.inl (he.symm.trans hname)⟩
      · cases he.symm.trans hname
        exact Or.inl ⟨hlive, Or.inr ⟨t, pkt, ht⟩⟩
    · exact absurd (hname.symm.trans hnil) hu
  · have hold : k < v.server.connManager.nextConn → v.server.connManager.Live k := by
      intro hlt
      rcases hs.live hlive with hlive | ⟨he, -, -⟩
      · exact hlive
      · exact absurd he (Nat.ne_of_lt hlt)
    cases hs.origin (y := .thread t) ht with
    | moved hx =>
        obtain ⟨t', -, ht'⟩ := workAt_begun hx (by rintro ⟨⟩)
        exact Or.inl ⟨hold (h.ground.client (.thread t') k pkt _ ht'), Or.inr ⟨t', pkt, ht'⟩⟩
    | @ran t₁ g₀ out ha hy ht₀ hstep =>
        have hwhole := h.whole (.thread t₁) _ _ ht₀
        generalize hserver : v'.server = s' at hstep
        cases hstep with
        | idle hm => cases hm
        | abort | wipeRooms => rcases hwhole with hm | hm <;> cases hm
        | register => exact Or.inr ⟨t₁, pkt, ha, ht₀⟩
    | began hg => cases hg

/-- Polite logins keep the invariant. -/
theorem Won.step (h : Won wants v) (hs : v.Step act v') (hwants : act.Wants wants)
    (hpolite : ∀ t k pkt u, act = .run t →
      v.doing t = some (.task (.client k pkt), ⟨.free u, .whole⟩) → ∀ i, v.Holding i u → i = k) :
    Won wants v' where
  ground := h.ground.step hs
  asks := fun _ _ _ _ => h.step_asks hs hwants
  fits := fun _ _ _ hx => (h.step_fits hs hx).1
  whole := fun _ _ _ hx => (h.step_fits hs hx).2
  named := fun _ _ _ _ => h.step_named hs
  welcomed := fun _ => h.step_welcomed hs
  one := by
    intro i k u hu hi hk
    rcases h.holding hs hu hi with hi | ⟨t, pkt, rfl, ht⟩
    · rcases h.holding hs hu hk with hk | ⟨t, pkt, rfl, ht⟩
      · exact h.one i k u hu hi hk
      · exact hpolite t k pkt u rfl ht i hi
    · rcases h.holding hs hu hk with hk | ⟨t', pkt', he, ht'⟩
      · exact (hpolite t i pkt u rfl ht k hk).symm
      · cases he
        cases ht.symm.trans ht'
        rfl

end

theorem won_idle (wants : ConnRef → Bytes) (id : Int) (peers : List Int) :
    Won wants (idle (configured id peers) : View n) := by
  constructor
  case ground => exact grounded_idle id peers
  case asks => exact fun _ _ _ _ hx => absurd hx workAt_idle
  case fits => exact fun _ _ _ hx => absurd hx workAt_idle
  case whole => exact fun _ _ _ hx => absurd hx workAt_idle
  case named => exact fun _ _ _ _ ht => nomatch ht
  case welcomed => exact fun _ hk => absurd hk List.not_mem_nil
  case one => exact fun i _ _ _ hi => absurd hi.1 (not_live_configured id peers i)

end View

namespace Threads

open View

section

variable {n : Nat} {wants : ConnRef → Bytes} {c d : Threads n} {v : View n} {act : ThreadAction n}
  {id : Int} {peers : List Int} {as : List (ThreadAction n)}

/-- A login that registers a name politely finds it with nobody. -/
theorem polite_view (hsees : c.Sees v) (hwon : v.Won wants) (hp : c.Polite act) {t : Thread n}
    {k i : ConnRef} {pkt : RawPacket} {u : Bytes} (ha : act = .run t)
    (ht : v.doing t = some (.task (.client k pkt), ⟨.free u, .whole⟩)) (hi : v.Holding i u) :
    i = k := by
  subst ha
  have hmid : ∀ {w : Work} {m : Point}, m = .free u ∨ m = .entered u → ¬ w.Ends m := by
    rintro w m (rfl | rfl) hends <;> rcases hends.point with he | he | he | he | he <;> cases he
  by_contra hne
  obtain ⟨_, _, he, hlogin, hu, -⟩ := hwon.fits (.thread t) _ _ ht
  cases he
  obtain ⟨j, hj, hlabel, hgoes⟩ := hsees.job ht
  have hreg : c.Registers j u := by
    obtain ⟨sec, g', hsec, hstep⟩ := exists_section hgoes (hmid (Or.inl rfl))
      (c.state.onUsers (·.unregisterUser u))
    refine ⟨sec, hsec, ?_⟩
    generalize sec.state = s', sec.out = out at hstep ⊢
    cases hstep with
    | idle hm => cases hm
    | aim hm => cases hm
    | register =>
        rw [onUsers_userManager, UserManager.isUserOnline, UserManager.location?_registerUser,
          if_pos rfl]
        rfl
  have hclaim : c.Unclaimed u k := by
    refine hp j hj u ?_ k ?_ hreg
    · rw [hlabel, Work.asks, if_pos hlogin, hu]
      rfl
    · rw [hlabel]
      rfl
  obtain ⟨hlive, hname⟩ := hi
  rw [hsees.server] at hlive hname
  obtain ⟨hnow, hnext⟩ := hclaim i hlive hne
  rcases hname with hname | ⟨t', pkt', ht'⟩
  · exact hnow hname
  · -- the other worker is about to authenticate its session
    obtain ⟨j', hj', -, hgoes'⟩ := hsees.job ht'
    obtain ⟨sec, g', hsec, hstep⟩ := exists_section hgoes' (hmid (Or.inr rfl)) c.state
    refine hnext t' j' hj' sec hsec ?_
    generalize sec.state = s', sec.out = out at hstep ⊢
    cases hstep with
    | idle hm => cases hm
    | aim hm => cases hm
    | authenticate =>
        rw [nameOf, onConn_connManager, ConnectionManager.sessions_authenticateSession, if_pos rfl]

theorem sees_won (hwants : ∀ a ∈ as, a.Wants wants)
    (hpolite : Along next Polite (idle (configured id peers)) as)
    (hrun : exec next (idle (configured id peers)) as = some c) :
    ∃ v, c.Sees v ∧ v.Won wants := by
  refine exec_induct (I := fun c : Threads n => ∃ v, c.Sees v ∧ v.Won wants) ?_
    ⟨_, sees_idle _, won_idle wants id peers⟩ (hpolite.and (along_of_forall hwants)) hrun
  rintro c act c' ⟨v, hsees, hwon⟩ ⟨hpolite, hwants⟩ hn
  obtain ⟨v', hstep, hsees'⟩ := hsees.next hn
  exact ⟨v', hsees', hwon.step hstep hwants fun _ _ _ _ ha ht _ =>
    polite_view hsees hwon hpolite ha ht⟩

/-- If a login registers its name only while no other registered session bears it or
is about to, then of the sessions that want one name at most one has been
welcomed and is still registered. -/
theorem one_winner (hwants : ∀ a ∈ as, a.Wants wants)
    (hpolite : Along next Polite (idle (configured id peers)) as)
    (hd : Visits next (idle (configured id peers)) as d) : d.SingleWinners wants := by
  obtain ⟨pre, post, rfl, hpre⟩ := hd
  obtain ⟨v, hsees, hwon⟩ := sees_won (fun a ha => hwants a (List.mem_append_left _ ha))
    ((along_append hpre).mp hpolite).1 hpre
  intro i k hi hk hwi hwk hsame
  rw [Welcomed, ← hsees.out] at hwi hwk
  rw [← hsees.server] at hi hk
  obtain ⟨hni, hne, -⟩ := hwon.welcomed i hwi
  obtain ⟨hnk, -, -⟩ := hwon.welcomed k hwk
  exact hwon.one i k (wants i) hne ⟨hi, Or.inl hni⟩ ⟨hk, Or.inl (hnk.trans hsame.symm)⟩

end

/-- Two clients ask for the name ann, and two workers have their logins. -/
def twoLogins : List (ThreadAction 4) :=
  [.accept 4, .accept 5, .scan, .read 0 ⟨.login, ascii "ann"⟩, .enqueue,
    .read 1 ⟨.login, ascii " ann"⟩, .enqueue, .take 0, .take 1]

/-- One worker is done before the other looks the name up. -/
def politeLogins : List (ThreadAction 4) :=
  twoLogins ++ List.replicate 14 (.run (.worker 0)) ++ [.finish (.worker 0)] ++
    List.replicate 3 (.run (.worker 1)) ++ [.finish (.worker 1)]

theorem one_winner_politeLogins :
    ∃ d, exec next (idle (configured 1 [])) politeLogins = some d ∧ d.Welcomed 0 ∧
      d.SingleWinners fun _ => ascii "ann" := by
  have hrun : (exec next (idle (configured 1 [])) politeLogins).any fun d =>
      decide (d.Welcomed 0) := by decide +kernel
  obtain ⟨d, hd, hwel⟩ := (Option.any_eq_true ..).mp hrun
  exact ⟨d, hd, of_decide_eq_true hwel, one_winner (by decide) (by decide +kernel) (.last hd)⟩

/-- Both workers look the name up before either registers it. -/
def racingLogins : List (ThreadAction 4) :=
  twoLogins ++ List.replicate 2 (.run (.worker 0)) ++ List.replicate 14 (.run (.worker 1)) ++
    [.finish (.worker 1)] ++ List.replicate 13 (.run (.worker 0)) ++ [.finish (.worker 0)]

/-- Two registered sessions have been welcomed under one name. -/
theorem two_winners :
    (∀ a ∈ racingLogins, a.Wants fun _ => ascii "ann") ∧
      ∃ d, exec next (idle (configured 1 [])) racingLogins = some d ∧
        ¬ d.SingleWinners fun _ => ascii "ann" := by
  have hrun : (exec next (idle (configured 1 [])) racingLogins).any fun d =>
      decide (d.state.connManager.Live 0 ∧ d.state.connManager.Live 1 ∧ d.Welcomed 0 ∧
        d.Welcomed 1) := by decide +kernel
  obtain ⟨d, hd, h⟩ := (Option.any_eq_true ..).mp hrun
  obtain ⟨hi, hk, hwi, hwk⟩ := of_decide_eq_true h
  refine ⟨by decide, d, hd, fun hone => ?_⟩
  exact absurd (hone 0 1 hi hk hwi hwk rfl) (by decide)

end Threads

end DistributedChat
