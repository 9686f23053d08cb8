import DistributedChat.Cluster.Replication

/-!
# A name that several clients want

`HandleLogin` looks for the name in its own user table, and what another server
has accepted gets there only when its `S2S_REPLICATE_USER` is read.  Until then a
server accepts the name a second time (`both_accept`), and no later packet takes
either session back.

`contest_settles` says that this is all that can go wrong.  With links that stay,
once nothing is on its way, at most one server has a session of the name and all
locate the name there, if and only if no server accepted the name while a
replication of it was on its way to it.
-/

namespace DistributedChat

open ChatServer

namespace Cluster

/-- Clients connect and log in under the name, and servers read what they are sent. -/
def Contest (u : Bytes) : Action → Prop
  | .client _ (.packet _ pkt) => pkt.type = .login ∧ trim pkt.payload = u
  | .client _ (.connect _) | .heartbeat _ _ | .deliver _ _ => True
  | _ => False

/-- At most one server has a session of the name. -/
def Alone (c : Cluster) (u : Bytes) : Prop :=
  ∀ a ∈ c.ids, ∀ b ∈ c.ids, (c.server a).Online u → (c.server b).Online u → a = b

/-- At most one server has a session of the name, and all servers locate the name there. -/
def Agreed (c : Cluster) (u : Bytes) : Prop :=
  c.Alone u ∧ ∀ a ∈ c.ids, (c.server a).Online u → ∀ b ∈ c.ids,
    (c.server b).userManager.getUserLocation u = a

/-- A replication of the user is on its way to the server, over the link of a peer. -/
def Expects (c : Cluster) (u : Bytes) (b : Int) : Prop :=
  ∃ a ∈ (c.server b).connManager.getAllPeerNodes,
    ∃ k ∈ (c.server b).connManager.linkSocket a, ∃ pkt ∈ c.packets b k,
      (readUser pkt).map Prod.fst = some u

/-- The name is not accepted by a server that a replication of it is on its way to. -/
def Unannounced (u : Bytes) (c : Cluster) : Action → Prop
  | .client a (.packet _ pkt) => (c.server a).Accepts pkt.payload u → ¬ c.Expects u a
  | _ => True

instance (u : Bytes) (act : Action) : Decidable (Contest u act) :=
  match act with
  | .client _ (.packet _ pkt) => inferInstanceAs (Decidable (pkt.type = .login ∧ trim pkt.payload = u))
  | .client _ (.connect _) | .heartbeat _ _ | .deliver _ _ => instDecidableTrue
  | .client _ (.disconnect _) | .dial _ _ _ _ | .hang _ _ => instDecidableFalse

instance (c : Cluster) (u : Bytes) (b : Int) : Decidable (c.Expects u b) :=
  inferInstanceAs (Decidable (∃ a ∈ (c.server b).connManager.getAllPeerNodes,
    ∃ k ∈ (c.server b).connManager.linkSocket a, ∃ pkt ∈ c.packets b k, _ = _))

instance (u : Bytes) (c : Cluster) (act : Action) : Decidable (Unannounced u c act) :=
  match act with
  | .client a (.packet _ pkt) =>
      inferInstanceAs (Decidable ((c.server a).Accepts pkt.payload u → ¬ c.Expects u a))
  | .client _ (.connect _) | .client _ (.disconnect _) | .heartbeat _ _ | .deliver _ _
  | .dial _ _ _ _ | .hang _ _ => instDecidableTrue

/-! ## What an action of the contest does -/

/-- What an action of the contest does to server `x`, with what it tells peers. -/
inductive Contends (u : Bytes) (c : Cluster) (act : Action) (x : Int) :
    ChatServer → List Int → RawPacket → Prop where
  /-- The users stay as they are, and no frame of a link is read. -/
  | still {s' : ChatServer} {ps : List Int} {out : RawPacket}
      (htables : SameTables (c.server x) s') (hmute : ps ≠ [] → readUser out = none)
      (hact : ∀ {p k}, (c.server x).connManager.linkSocket p = some k → act ≠ .deliver x k)
      (hrefused : ∀ {k pkt}, act = .client x (.packet k pkt) →
        ¬ (c.server x).Accepts pkt.payload u) : Contends u c act x s' ps out
  /-- The name is accepted. -/
  | enters {k : ConnRef} {pkt : RawPacket} (hact : act = .client x (.packet k pkt))
      (hk : (c.server x).connManager.Live k) (h : (c.server x).Accepts pkt.payload u) :
      Contends u c act x ((c.server x).loggedIn k u) (c.server x).connManager.getAllPeerNodes
        ⟨.s2sReplicateUser, replicationPayload u (c.server x).serverId true⟩
  /-- A frame of peer `p` is read on its link. -/
  | hears {p : Int} {k : ConnRef} {pkt : RawPacket} (hact : act = .deliver x k)
      (hp : p ∈ (c.server x).connManager.peerNodes)
      (hl : (c.server x).connManager.linkSocket p = some k) (hread : c.readBy act x k = [pkt])
      (hpkt : Honest (fun _ => True) p pkt) :
      Contends u c act x ((c.server x).received p pkt) (answered p pkt)
        ⟨.s2sHeartbeatAck, toString (c.server x).serverId⟩

section

variable {u : Bytes} {c c' : Cluster} {act : Action} {x : Int} {ps : List Int} {out : RawPacket}
  {s' : ChatServer} {a b : Int} {k k' : ConnRef}

theorem Contest.neverFails (h : Contest u act) : NeverFails act := by
  cases act with
  | hang => exact h.elim
  | _ => trivial

theorem Contest.noHijack (h : Contest u act) : c.NoHijack act := by
  rw [NoHijack.eq_def]
  split
  next =>
    intro ht
    cases h.1.symm.trans ht
  · trivial

/-- A login run alone: the session takes the name, or nothing happens. -/
theorem performs_login {s : ChatServer} {pkt : RawPacket} (hs : s.Sane)
    (hk : s.connManager.Live k) (ht : pkt.type = .login) (htrim : trim pkt.payload = u) :
    (s.Accepts pkt.payload u ∧ Performs (readPacket k pkt) s (s.loggedIn k u)
        s.connManager.getAllPeerNodes ⟨.s2sReplicateUser, replicationPayload u s.serverId true⟩) ∨
      (¬ s.Accepts pkt.payload u ∧ Performs (readPacket k pkt) s s [] pkt) := by
  have hrun : (readPacket k pkt).run s = (handleLogin k pkt.payload).run s := by
    rw [run_readPacket_of_live hk]
    simp [handleClientPacket, ht]
  by_cases ha : s.Accepts pkt.payload u
  · have hstep : ClientStep s k pkt _ _ _ := .login u ht ha
    have hperf := (amounts_handleLogin ha).performs (hstep.usable hs.usable hs.ok hk)
      hstep.targets.1 hstep.targets.2
    exact Or.inl ⟨ha, hrun ▸ hperf.state, hrun ▸ hperf.frames, hperf.nodup, hperf.peers⟩
  · have hrefused : ((handleLogin k pkt.payload).run s).state = s ∧
        framesOf ((handleLogin k pkt.payload).run s).out = [] := by
      by_cases hu : trim pkt.payload = [] ∨ nul ∈ trim pkt.payload ∨ 32 ∈ trim pkt.payload
      · constructor <;> simp [handleLogin, hu]
      · cases ho : s.userManager.isUserOnline (trim pkt.payload) with
        | true => constructor <;> simp [handleLogin, hu, ho]
        | false => exact absurd ⟨htrim, htrim ▸ hu, htrim ▸ ho⟩ ha
    exact Or.inr ⟨ha, .local pkt (hrun ▸ hrefused.1) (hrun ▸ hrefused.2)⟩

/-- Every action of the contest is a move that does one of these things. -/
theorem step_contends (hc : c.Steady fun _ => True) (hact : Contest u act)
    (hstep : c.step act = some c') :
    ∃ x ps out, Move c act c' x ps out ∧ Contends u c act x (c'.server x) ps out := by
  obtain ⟨x, ps, out, hm⟩ := step_move hc.toSound hstep
  have hok := (hc.sane x (hm.turn.mem hc.toSound)).ok
  have ht := hm.turn
  cases act with
  | client a ca =>
      cases ca with
      | connect handle =>
          refine ⟨x, ps, out, hm, ?_⟩
          generalize c'.server x = s' at ht
          cases ht with
          | connect ha hf =>
              exact .still (sameTables_accepted hok hf) (fun hps => absurd rfl hps)
                (fun _ he => by cases he) fun he => by cases he
      | packet k pkt =>
          obtain ⟨htype, htrim⟩ := hact
          have hreads : a ∈ c.ids ∧ (c.server a).reads k = true ∧ c.far a k = none := by
            simp only [step] at hstep
            split at hstep
            next ha =>
              simp only [clientStep] at hstep
              split at hstep
              next hk => exact ⟨ha, hk.1, hk.2.1⟩
              · cases hstep
            · cases hstep
          obtain ⟨ha, hr, hfar⟩ := hreads
          -- a socket without far end is no link
          have hk : (c.server a).connManager.Live k := by
            rcases reads_eq_true.mp hr with hk | ⟨p, hp, hl⟩
            · exact hk
            · obtain ⟨j, hj⟩ := hc.linksTrue ha hp hl
              rw [hfar] at hj
              cases hj
          rcases performs_login (hc.sane a ha) hk htype htrim with ⟨hacc, hperf⟩ | ⟨hacc, hperf⟩
          · obtain ⟨hm, hserver⟩ := move_packet hc.toSound ha hstep
              (.session hk (.login u htype hacc)) hperf
            exact ⟨a, _, _, hm, hserver ▸ .enters rfl hk hacc⟩
          · obtain ⟨hm, hserver⟩ := move_packet hc.toSound ha hstep (.session hk (.idle pkt)) hperf
            refine ⟨a, _, _, hm, hserver ▸ .still (.refl _) (fun hps => absurd rfl hps)
              (fun _ he => by cases he) fun he => ?_⟩
            cases he
            exact hacc
      | disconnect => exact hact.elim
  | heartbeat a now =>
      refine ⟨x, ps, out, hm, ?_⟩
      generalize c'.server x = s' at ht
      cases ht with
      | heartbeat =>
          refine .still ⟨rfl, rfl, rfl, fun _ => rfl, fun _ _ => Iff.rfl⟩ (fun _ => ?_)
            (fun _ he => by cases he) fun he => by cases he
          exact readAs_of_ne PacketType.noConfusion
  | deliver b k =>
      refine ⟨x, ps, out, hm, ?_⟩
      generalize c'.server x = s' at ht
      cases ht with
      | @deliver b a i j cause pkt out rest s' ps hfar hin hr =>
          have hpkt : Honest (fun _ => True) a pkt :=
            hc.honest (f := (cause, pkt)) hfar (hin ▸ List.mem_cons_self ..)
          have hdead : ∀ {p k'}, (c.server x).connManager.linkSocket p = some k' →
              (c.server x).connManager.Live k → Action.deliver x k ≠ .deliver x k' := by
            intro p k' hl hi he
            rw [hok.linkSocket_eq] at hl
            cases he
            exact hok.link_dead hl hi
          cases Reads.frame hc.toTraffic hfar hpkt hr with
          | ignored hk =>
              exact .still (.refl _) (fun hps => absurd rfl hps) (fun hl => hdead hl hk)
                fun he => by cases he
          | handshake hk ht hself hp =>
              have hanon : ¬ (c.server x).Authenticated k :=
                hc.anonymous (by rw [hfar]; exact Option.some_ne_none _)
              have hn := (hok.username_eq_nil_iff k).mpr (Bool.eq_false_iff.mpr hanon)
              exact .still (sameTables_promoted hok hk hn) (fun hps => absurd rfl hps)
                (fun hl => hdead hl hk) fun he => by cases he
          | @peer p hp hl =>
              obtain ⟨j', hj'⟩ := hc.linksTrue (hm.turn.mem hc.toSound) hp hl
              rw [hfar] at hj'
              cases hj'
              refine .hears rfl hp hl ?_ hpkt
              rw [readBy, if_pos rfl, packets, hin]
              rfl
  | dial => exact hact.elim
  | hang => exact hact.elim

/-- One server acts, unless a connector dials. -/
theorem Move.server_of_ne (hm : Move c act c' x ps out) (hact : Contest u act) {y : Int}
    (hy : y ≠ x) : c'.server y = c.server y := by
  refine (hm.others y hy).resolve_right fun ⟨o, ht'⟩ => ?_
  have ht := hm.turn
  generalize c'.server x = s' at ht
  generalize c'.server y = t', ([] : List Int) = ps' at ht'
  cases ht with
  | dial | accept => exact hact.elim
  | _ => cases ht' with | _ => exact hy rfl

/-! ## The invariant -/

/-- What the servers know of the name, and what they have been told, is true. -/
structure Contested (u : Bytes) (c : Cluster) : Prop extends Steady (fun _ => True) c where
  located : ∀ b ∈ c.ids, ∀ a, (c.server b).Locates a u → a ∈ c.ids ∧ (c.server a).Online u
  held : ∀ a ∈ c.ids, (c.server a).Online u → (c.server a).userManager.location? u ≠ none
  told : ∀ {a k b k'}, c.Linked a k b k' → (c.server a).Online u →
    (c.server b).userManager.location? u ≠ none ∨
      ∃ pkt ∈ c.packets b k', readUser pkt = some (u, true)
  tells : ∀ {a k b k'}, c.Linked a k b k' → ∀ pkt ∈ c.packets b k',
    readUser pkt = none ∨ readUser pkt = some (u, true) ∧ (c.server a).Online u

/-- What a server knows of a user after a packet that says nothing of users or that he is online. -/
theorem location?_heard {s : ChatServer} {p : Int} {pkt : RawPacket}
    (hpkt : Honest (fun _ => True) p pkt) (hp : IsInt p)
    (h : readUser pkt = none ∨ readUser pkt = some (u, true)) :
    (s.received p pkt).userManager.location? u =
      if readUser pkt = none then s.userManager.location? u else some p := by
  by_cases ht : pkt.type = .s2sReplicateUser
  · obtain ⟨v, online, hv, rfl⟩ := eq_of_honest_replicateUser hpkt ht
    have hread := readAs_replicationPayload hv .s2sReplicateUser p online
    rw [readUser, hread] at h ⊢
    rcases h with h | h
    · cases h
    · cases h
      rw [location?_received hv hp, if_pos rfl, if_pos rfl, if_neg (fun he => by cases he)]
  · rw [received_userManager ht, if_pos (readAs_of_ne ht)]

/-- Whoever was online is, and a login that is accepted adds its user. -/
theorem Contends.online (h : Contends u c act x s' ps out) :
    s'.Online u ↔ (c.server x).Online u ∨
      ∃ k pkt, act = .client x (.packet k pkt) ∧ (c.server x).Accepts pkt.payload u := by
  cases h with
  | still htables hmute hact hrefused =>
      rw [htables.online]
      exact (or_iff_left fun ⟨k, pkt, hact, ha⟩ => hrefused hact ha).symm
  | @enters k pkt hact hk ha =>
      have honline : ((c.server x).loggedIn k u).Online u :=
        ⟨k, (holds_loggedIn hk).mpr (Or.inl ⟨rfl, rfl⟩)⟩
      exact iff_of_true honline (Or.inr ⟨k, pkt, hact, ha⟩)
  | hears hact =>
      rw [online_congr fun _ _ => holds_of_sameSessions sameSessions_received]
      refine (or_iff_left fun ⟨k, pkt, hact', _⟩ => ?_).symm
      rw [hact] at hact'
      cases hact'

/-- The connection a link is the end of. -/
theorem Steady.linked {R : Bytes → Prop} (hc : c.Steady R) (hb : b ∈ c.ids)
    (ha : a ∈ (c.server b).connManager.peerNodes)
    (hl : (c.server b).connManager.linkSocket a = some k') : ∃ k, c.Linked a k b k' := by
  obtain ⟨hain, hne⟩ := (hc.peers b hb a).mp ha
  obtain ⟨k, j, hlinked⟩ := hc.meshed a hain b hb hne
  have hj := hlinked.2.1
  rw [hl] at hj
  cases hj
  exact ⟨k, hlinked⟩

/-- What is heard of the name is true. -/
theorem Contested.heard (hc : c.Contested u) (hx : x ∈ c.ids) {p : Int} {pkt : RawPacket}
    (hp : p ∈ (c.server x).connManager.peerNodes)
    (hl : (c.server x).connManager.linkSocket p = some k) (hread : c.readBy act x k = [pkt]) :
    readUser pkt = none ∨ readUser pkt = some (u, true) ∧ p ∈ c.ids ∧ (c.server p).Online u := by
  obtain ⟨j, hlinked⟩ := hc.toSteady.linked hx hp hl
  have hmem : pkt ∈ c.packets x k := by
    rw [readBy] at hread
    split at hread
    · exact List.mem_of_mem_take (hread ▸ List.mem_singleton_self pkt)
    · cases hread
  exact (hc.tells hlinked pkt hmem).imp_right fun h => ⟨h.1, ((hc.peers x hx p).mp hp).1, h.2⟩

/-- What a server knows of the name stays, or is where it is accepted or said to be. -/
theorem Contends.location? (h : Contends u c act x s' ps out) (hc : c.Contested u)
    (hx : x ∈ c.ids) :
    s'.userManager.location? u = (c.server x).userManager.location? u ∨
      (s'.userManager.location? u = some x ∧ s'.Online u) ∨
      ∃ p ∈ c.ids, s'.userManager.location? u = some p ∧ (c.server p).Online u := by
  cases h with
  | still htables => exact Or.inl (by rw [htables.users])
  | @enters k pkt hact hk ha =>
      refine Or.inr (Or.inl ⟨?_, k, (holds_loggedIn hk).mpr (Or.inl ⟨rfl, rfl⟩)⟩)
      show ((c.server x).userManager.registerUser u (c.server x).serverId).location? u = some x
      rw [UserManager.location?_registerUser, if_pos rfl, hc.serverId x hx]
  | @hears p k pkt hact hp hl hread hpkt =>
      have hpin := ((hc.peers x hx p).mp hp).1
      have hheard := hc.heard hx hp hl hread
      rw [location?_heard hpkt (hc.isInt p hpin) (hheard.imp_right And.left)]
      rcases hheard with hnone | ⟨hu, -, honline⟩
      · exact Or.inl (if_pos hnone)
      · refine Or.inr (Or.inr ⟨p, hpin, if_neg ?_, honline⟩)
        rw [hu]
        exact fun he => by cases he

/-- What is sent to a peer says that the name is online, or nothing of users. -/
theorem Contends.sent (h : Contends u c act x s' ps out) (hps : ps ≠ []) :
    readUser out = none ∨ readUser out = some (u, true) ∧ s'.Online u := by
  cases h with
  | still htables hmute => exact Or.inl (hmute hps)
  | @enters k pkt hact hk ha =>
      have hfree : NulFree u := fun hnul => ha.2.1 (Or.inr (Or.inl hnul))
      refine Or.inr ⟨readAs_replicationPayload hfree _ _ _, k, ?_⟩
      exact (holds_loggedIn hk).mpr (Or.inl ⟨rfl, rfl⟩)
  | hears => exact Or.inl (readAs_of_ne PacketType.noConfusion)

/-- A login that is accepted is told to all peers. -/
theorem Contends.accepted (h : Contends u c act x s' ps out) {pkt : RawPacket}
    (hact : act = .client x (.packet k pkt)) (ha : (c.server x).Accepts pkt.payload u) :
    s'.userManager.location? u ≠ none ∧ ps = (c.server x).connManager.getAllPeerNodes ∧
      readUser out = some (u, true) := by
  cases h with
  | still htables hmute hact' hrefused => exact absurd ha (hrefused hact)
  | enters =>
      have hfree : NulFree u := fun hnul => ha.2.1 (Or.inr (Or.inl hnul))
      refine ⟨?_, rfl, readAs_replicationPayload hfree _ _ _⟩
      show ((c.server x).userManager.registerUser u (c.server x).serverId).location? u ≠ none
      rw [UserManager.location?_registerUser, if_pos rfl]
      exact fun he => by cases he
  | hears hact' =>
      rw [hact] at hact'
      cases hact'

/-- What is read on a link says nothing of users, or the server knows of the name then. -/
theorem Contends.read (h : Contends u c act x s' ps out) (hc : c.Contested u) (hx : x ∈ c.ids)
    (hl : (c.server x).connManager.linkSocket a = some k') {pkt : RawPacket}
    (hpkt : pkt ∈ c.readBy act x k') :
    readUser pkt = none ∨ s'.userManager.location? u ≠ none := by
  cases h with
  | still htables hmute hact =>
      rw [readBy_of_ne (hact hl)] at hpkt
      cases hpkt
  | enters hact =>
      rw [readBy_of_ne (by rw [hact]; exact fun he => by cases he)] at hpkt
      cases hpkt
  | @hears p k pkt' hact hp hl' hread hhonest =>
      by_cases hk : act = .deliver x k'
      · rw [hact] at hk
        cases hk
        rw [hread, List.mem_singleton] at hpkt
        subst hpkt
        have hheard := hc.heard hx hp hl' hread
        refine hheard.imp_right fun hu he => ?_
        rw [location?_heard hhonest (hc.isInt p ((hc.peers x hx p).mp hp).1)
          (hheard.imp_right And.left), hu.1] at he
        cases he
      · rw [readBy_of_ne hk] at hpkt
        cases hpkt

/-- Some server accepts the name. -/
def AcceptsAt (u : Bytes) (c : Cluster) (act : Action) (a : Int) : Prop :=
  ∃ k pkt, act = .client a (.packet k pkt) ∧ (c.server a).Accepts pkt.payload u

/-- A server at which the name is accepted is the one that acts. -/
theorem AcceptsAt.actor (h : AcceptsAt u c act a) (hm : Move c act c' x ps out) : a = x := by
  obtain ⟨k, pkt, rfl, -⟩ := h
  have ht := hm.turn
  generalize c'.server x = s' at ht
  cases ht with
  | packet => rfl

section

variable (hm : Move c act c' x ps out) (hc : c.Contested u) (hact : Contest u act)
  (h : Contends u c act x (c'.server x) ps out)

include hm hact h

theorem Contends.online_at (y : Int) :
    (c'.server y).Online u ↔ (c.server y).Online u ∨ AcceptsAt u c act y := by
  by_cases hy : y = x
  · subst hy
    exact h.online
  · rw [hm.server_of_ne hact hy]
    exact (or_iff_left fun hacc => hy (hacc.actor hm)).symm

include hc

/-- What a server knows of the name stays, or is true. -/
theorem Contends.location?_at {y : Int} (hy : y ∈ c.ids) :
    (c'.server y).userManager.location? u = (c.server y).userManager.location? u ∨
      ∃ a ∈ c.ids, (c'.server y).userManager.location? u = some a ∧ (c'.server a).Online u := by
  by_cases hyx : y = x
  · subst hyx
    rcases h.location? hc hy with he | ⟨he, honline⟩ | ⟨p, hp, he, honline⟩
    · exact Or.inl he
    · exact Or.inr ⟨y, hy, he, honline⟩
    · exact Or.inr ⟨p, hp, he, (h.online_at hm hact p).mpr (Or.inl honline)⟩
  · exact Or.inl (by rw [hm.server_of_ne hact hyx])

theorem Contends.known_at {y : Int} (hy : y ∈ c.ids)
    (hknown : (c.server y).userManager.location? u ≠ none) :
    (c'.server y).userManager.location? u ≠ none := by
  rcases h.location?_at hm hc hact hy with he | ⟨a, -, he, -⟩
  · rw [he]
    exact hknown
  · rw [he]
    exact Option.some_ne_none a

/-- What is read on a link says nothing of users, or the reader knows of the name then. -/
theorem Contends.read_at {a b : Int} {k' : ConnRef} {pkt : RawPacket}
    (hl : (c.server b).connManager.linkSocket a = some k') (hpkt : pkt ∈ c.readBy act b k') :
    readUser pkt = none ∨ (c'.server b).userManager.location? u ≠ none := by
  have hx := hm.turn.mem hc.toSound
  by_cases he : act = .deliver b k'
  · subst he
    obtain rfl := (hm.delivery hc.toTraffic).1
    exact h.read hc hx hl hpkt
  · rw [readBy_of_ne he] at hpkt
    cases hpkt

theorem Contends.contested : c'.Contested u := by
  have hno : c.NoHijack act := hact.noHijack
  have hstay := hact.neverFails
  have hx := hm.turn.mem hc.toSound
  have hsteady := hm.steady hc.toSteady (namesRoom_true act) hno hstay
  have hmono : ∀ {a}, (c.server a).Online u → (c'.server a).Online u :=
    fun honline => (h.online_at hm hact _).mpr (Or.inl honline)
  -- what is sent and what is read on a link
  have hflow : ∀ {a k b k'}, c'.Linked a k b k' →
      c.Linked a k b k' ∧ c.packets b k' ++ (if x = a ∧ b ∈ ps then [out] else []) =
        c.readBy act b k' ++ c'.packets b k' := by
    intro a k b k' hlinked
    have hold := hm.linked_of_steady hc.toSteady hno hstay hlinked
    exact ⟨hold, hm.flow_of_link hc.toSound hold.2.2 hlinked.1 hold.2.1 hlinked.2.1⟩
  refine ⟨hsteady, ?_, ?_, ?_, ?_⟩
  · intro b hb a hloc
    rw [hm.ids] at hb ⊢
    rcases h.location?_at hm hc hact hb with he | ⟨a', ha', he, honline⟩
    · rw [Locates, he] at hloc
      obtain ⟨ha, honline⟩ := hc.located b hb a hloc
      exact ⟨ha, hmono honline⟩
    · rw [Locates, he] at hloc
      cases hloc
      exact ⟨ha', honline⟩
  · intro a ha honline
    rw [hm.ids] at ha
    rcases (h.online_at hm hact a).mp honline with hold | hacc
    · exact h.known_at hm hc hact ha (hc.held a ha hold)
    · obtain rfl := hacc.actor hm
      obtain ⟨k, pkt, he, hacc⟩ := hacc
      exact (h.accepted he hacc).1
  · intro a k b k' hlinked honline
    obtain ⟨hold, hpackets⟩ := hflow hlinked
    have hb := hc.far_ids' hold.2.2
    -- what was on its way or is sent now is read or still on its way
    have hsettle : ∀ pkt ∈ c.packets b k' ++ (if x = a ∧ b ∈ ps then [out] else []),
        readUser pkt = some (u, true) → (c'.server b).userManager.location? u ≠ none ∨
          ∃ pkt ∈ c'.packets b k', readUser pkt = some (u, true) := by
      intro pkt hpkt hu
      rw [hpackets] at hpkt
      rcases List.mem_append.mp hpkt with hread | hleft
      · exact Or.inl ((h.read_at hm hc hact hold.2.1 hread).resolve_left (by rw [hu]; simp))
      · exact Or.inr ⟨pkt, hleft, hu⟩
    rcases (h.online_at hm hact a).mp honline with honline | hacc
    · rcases hc.told hold honline with hknown | ⟨pkt, hpkt, hu⟩
      · exact Or.inl (h.known_at hm hc hact hb hknown)
      · exact hsettle pkt (List.mem_append_left _ hpkt) hu
    · obtain rfl := hacc.actor hm
      obtain ⟨k, pkt, he, hacc⟩ := hacc
      obtain ⟨-, hps, hu⟩ := h.accepted he hacc
      have hpeer : b ∈ ps := hps ▸ (hc.peers a hx b).mpr ⟨hb, (hc.far_ids hold.2.2).2.1.symm⟩
      refine hsettle out (List.mem_append_right _ ?_) hu
      rw [if_pos ⟨rfl, hpeer⟩]
      exact List.mem_singleton_self out
  · intro a k b k' hlinked pkt hpkt
    obtain ⟨hold, hpackets⟩ := hflow hlinked
    have hmem := List.mem_append_right (c.readBy act b k') hpkt
    rw [← hpackets] at hmem
    rcases List.mem_append.mp hmem with hmem | hsent
    · exact (hc.tells hold pkt hmem).imp_right fun htell => ⟨htell.1, hmono htell.2⟩
    · split at hsent
      next hto =>
        obtain ⟨rfl, hto⟩ := hto
        obtain rfl := List.mem_singleton.mp hsent
        exact h.sent (List.ne_nil_of_mem hto)
      next => cases hsent

end

/-- Whoever is about to be told of the name is told by a server that has it. -/
theorem Contested.online_of_expects (hc : c.Contested u) (hb : b ∈ c.ids) (h : c.Expects u b) :
    ∃ a ∈ c.ids, a ≠ b ∧ (c.server a).Online u := by
  obtain ⟨a, ha, k, hk, pkt, hpkt, hu⟩ := h
  obtain ⟨j, hlinked⟩ := hc.toSteady.linked hb ha hk
  obtain ⟨hain, hne⟩ := (hc.peers b hb a).mp ha
  rcases hc.tells hlinked pkt hpkt with hnone | ⟨-, honline⟩
  · rw [hnone] at hu
    cases hu
  · exact ⟨a, hain, hne, honline⟩

/-- A server that accepts the name and is not about to be told of it is the first one. -/
theorem Contested.accepts_first (hc : c.Contested u) (hb : b ∈ c.ids) {payload : Bytes}
    (hacc : (c.server b).Accepts payload u) (hnew : ¬ c.Expects u b) (ha : a ∈ c.ids)
    (honline : (c.server a).Online u) : False := by
  have hnone := isUserOnline_eq_false.mp hacc.2.2
  by_cases hab : a = b
  · subst hab
    exact hc.held a ha honline hnone
  · obtain ⟨k, k', hlinked⟩ := hc.meshed a ha b hb hab
    rcases hc.told hlinked honline with hknown | ⟨pkt, hpkt, hu⟩
    · exact hknown hnone
    · refine hnew ⟨a, (hc.peers b hb a).mpr ⟨ha, hab⟩, k', hlinked.2.1, pkt, hpkt, ?_⟩
      rw [hu]
      rfl

/-- Only a login that is accepted too early brings a second session. -/
theorem alone_step (hc : c.Contested u) (hact : Contest u act) (hstep : c.step act = some c') :
    c'.Alone u ↔ c.Alone u ∧ Unannounced u c act := by
  obtain ⟨x, ps, out, hm, h⟩ := step_contends hc.toSteady hact hstep
  have hx := hm.turn.mem hc.toSound
  have honline := h.online_at hm hact
  constructor
  · intro halone
    refine ⟨fun a ha b hb hola holb => ?_, ?_⟩
    · exact halone a (hm.ids ▸ ha) b (hm.ids ▸ hb) ((honline a).mpr (Or.inl hola))
        ((honline b).mpr (Or.inl holb))
    · rw [Unannounced.eq_def]
      split
      next y k pkt =>
        intro hacc hexp
        have hy : AcceptsAt u c (.client y (.packet k pkt)) y := ⟨k, pkt, rfl, hacc⟩
        obtain rfl := hy.actor hm
        obtain ⟨a, ha, hne, hola⟩ := hc.online_of_expects hx hexp
        exact hne (halone a (hm.ids ▸ ha) y (hm.ids ▸ hx) ((honline a).mpr (Or.inl hola))
          ((honline y).mpr (Or.inr hy)))
      · trivial
  · rintro ⟨halone, hnew⟩
    intro a ha b hb hola holb
    rw [hm.ids] at ha hb
    -- with an accepted login nobody else was online
    have hfirst : ∀ {y}, AcceptsAt u c act y → ∀ {z}, z ∈ c.ids → ¬ (c.server z).Online u := by
      intro y hacc z hz holz
      obtain rfl := hacc.actor hm
      obtain ⟨k, pkt, rfl, hacc⟩ := hacc
      exact hc.accepts_first hx hacc (hnew hacc) hz holz
    rcases (honline a).mp hola with hola | hacca
    · rcases (honline b).mp holb with holb | haccb
      · exact halone a ha b hb hola holb
      · exact absurd hola (hfirst haccb ha)
    · rcases (honline b).mp holb with holb | haccb
      · exact absurd holb (hfirst hacca hb)
      · exact (hacca.actor hm).trans (haccb.actor hm).symm

/-- Before the first login nobody is known and nothing about users is on its way. -/
theorem Ready.contested (hc : c.Ready fun _ => True) : c.Contested u where
  toSteady := hc.toSteady
  located := by
    intro b hb a hu
    rw [Locates, (hc.server b hb).noUser] at hu
    cases hu
  held := fun a ha ⟨k, hk⟩ => absurd hk.2.1 ((hc.server a ha).noLogin k)
  told := fun hlinked ⟨k, hk⟩ => absurd hk.2.1 ((hc.server _ (hc.far_ids hlinked.2.2).1).noLogin k)
  tells := by
    intro a k b k' hlinked pkt hpkt
    obtain ⟨f, hf, rfl⟩ := List.mem_map.mp hpkt
    exact Or.inl (readAs_of_ne (hc.silent hf).1)

/-- With nothing on its way all servers know of the name, and what they know is true. -/
theorem Contested.agreed_iff (hc : c.Contested u) (hq : c.Quiet) : c.Agreed u ↔ c.Alone u := by
  refine ⟨And.left, fun halone => ⟨halone, fun a ha honline b hb => ?_⟩⟩
  have hknown : (c.server b).userManager.location? u ≠ none := by
    by_cases hab : a = b
    · subst hab
      exact hc.held a ha honline
    · obtain ⟨k, k', hlinked⟩ := hc.meshed a ha b hb hab
      refine (hc.told hlinked honline).resolve_right fun ⟨pkt, hpkt, _⟩ => ?_
      rw [packets, hq.inbox hc.toTraffic] at hpkt
      cases hpkt
  obtain ⟨a', hloc⟩ := Option.ne_none_iff_exists'.mp hknown
  obtain ⟨ha', honline'⟩ := hc.located b hb a' hloc
  rw [UserManager.getUserLocation, hloc]
  exact halone a' ha' a ha honline' honline

end

/-- In a mesh whose links are up and stay, with clients that connect and log in under one name
only: whenever nothing is on its way, at most one server has a session of the name and all
servers locate the name there, if and only if no server has accepted the name while a
replication of it was on its way to it. -/
theorem contest_settles (u : Bytes) (c₀ c : Cluster) (as : List Action)
    (hready : c₀.Ready fun _ => True) (hcontest : ∀ act ∈ as, Contest u act)
    (hrun : exec step c₀ as = some c) (hq : c.Quiet) :
    c.Agreed u ↔ Along step (Unannounced u) c₀ as := by
  have hkeep : ∀ {d act d'}, Contested u d → Contest u act → d.step act = some d' →
      d'.Contested u := by
    intro d act d' hd hact hstep
    obtain ⟨x, ps, out, hm, h⟩ := step_contends hd.toSteady hact hstep
    exact h.contested hm hd hact
  have hfirst : c₀.Alone u := fun a ha _ _ ⟨k, hk⟩ =>
    absurd hk.2.1 ((hready.server a ha).noLogin k)
  have hall : Along step (fun _ act => Contest u act) c₀ as := along_of_forall hcontest
  have hend : c.Contested u :=
    exec_induct (I := Contested u) (P := fun _ => Contest u) hkeep hready.contested hall hrun
  have halone : c.Alone u ↔ c₀.Alone u ∧ Along step (Unannounced u) c₀ as :=
    iff_and_along (I := Contested u) (Q := fun d => d.Alone u) (A := fun _ => Contest u) hkeep
      alone_step hready.contested hall hrun
  rw [hend.agreed_iff hq, halone, and_iff_right hfirst]

/-- Clients of both servers connect, and the one of server 1 logs in. -/
def firstOfTwo : List Action :=
  [.client 1 (.connect 5), .client 2 (.connect 5), .client 1 (.packet 1 ⟨.login, ascii "ann"⟩)]

/-- Server 2 hears of the login before its client asks for the name. -/
theorem contest_settles_in_turn : ∃ c₀ c, exec step (start [1, 2]) handshake = some c₀ ∧
    exec step c₀ (firstOfTwo ++ [.deliver 2 0, .client 2 (.packet 1 ⟨.login, ascii "ann"⟩)]) =
      some c ∧ (c.server 1).Online (ascii "ann") ∧ c.Agreed (ascii "ann") := by
  obtain ⟨c₀, hc₀, hready⟩ := ready_handshake (R := fun _ => True)
  let run := firstOfTwo ++ [.deliver 2 0, .client 2 (.packet 1 ⟨.login, ascii "ann"⟩)]
  have hrun : (exec step (start [1, 2]) handshake).any fun c₀ =>
      (decide (Along step (Unannounced (ascii "ann")) c₀ run)) &&
        (exec step c₀ run).any fun c => c.Quiet ∧ (c.server 1).Online (ascii "ann") := by
    decide +kernel
  rw [hc₀] at hrun
  obtain ⟨hgood, hend⟩ := Bool.and_eq_true_iff.mp hrun
  obtain ⟨c, hc, hend⟩ := (Option.any_eq_true ..).mp hend
  obtain ⟨hq, honline⟩ := of_decide_eq_true hend
  exact ⟨c₀, c, hc₀, hc, honline, (contest_settles (ascii "ann") c₀ c run hready (by decide) hc hq).mpr
    (of_decide_eq_true hgood)⟩

/-- Server 2 accepts the name while it is about to hear of the login.  Each server ends with a
session of the name and locates the name at the other one. -/
theorem both_accept : ¬ ∀ (u : Bytes) (c₀ c : Cluster) (as : List Action),
    c₀.Ready (fun _ => True) → (∀ act ∈ as, Contest u act) → exec step c₀ as = some c →
      c.Quiet → c.Agreed u := by
  intro hall
  obtain ⟨c₀, hc₀, hready⟩ := ready_handshake (R := fun _ => True)
  let run := firstOfTwo ++
    [.client 2 (.packet 1 ⟨.login, ascii "ann"⟩), .deliver 2 0, .deliver 1 0]
  have hrun : (exec step (start [1, 2]) handshake).any fun c₀ =>
      (exec step c₀ run).any fun c => c.Quiet ∧ (1 ∈ c.ids ∧ 2 ∈ c.ids) ∧
        (c.server 1).Online (ascii "ann") ∧ (c.server 2).Online (ascii "ann") := by
    decide +kernel
  rw [hc₀] at hrun
  obtain ⟨c, hc, hend⟩ := (Option.any_eq_true ..).mp (show (exec step c₀ run).any _ = true from hrun)
  obtain ⟨hq, ⟨h1, h2⟩, honline1, honline2⟩ := of_decide_eq_true hend
  have halone := (hall (ascii "ann") c₀ c run hready (by decide) hc hq).1
  exact absurd (halone 1 h1 2 h2 honline1 honline2) (by decide)

end Cluster

end DistributedChat
