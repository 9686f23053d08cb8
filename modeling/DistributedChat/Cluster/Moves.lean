import DistributedChat.Cluster.Model

/-!
# What an action of the cluster does

`Sound` is the invariant every run of a cluster keeps, whatever clients send:
the servers are sane and the ends of the connections match.  In a sound cluster
`Turn` lists what an action does to a server, and `Move` says the rest: at most
one packet is put on its way to some of the server's peers, one frame is read or
the frames of a broken end are lost, and nothing else moves.
-/

namespace DistributedChat

namespace Cluster

open ChatServer

/-- The servers are the configured ones, in order, and the connections have two ends. -/
structure Sound (c : Cluster) : Prop where
  sane : ∀ a ∈ c.ids, (c.server a).Sane
  serverId : ∀ a ∈ c.ids, (c.server a).serverId = a
  peers : ∀ a ∈ c.ids, ∀ b, b ∈ (c.server a).connManager.peerNodes ↔ b ∈ c.ids ∧ b ≠ a
  far_symm : ∀ {a k b k'}, c.far a k = some (b, k') → c.far b k' = some (a, k)
  far_ids : ∀ {a k b k'}, c.far a k = some (b, k') →
    a ∈ c.ids ∧ a ≠ b ∧ k < (c.server a).connManager.nextConn

section

variable {c c' : Cluster}

/-- Servers that stay in order and connections that match keep the cluster sound. -/
theorem Sound.of_keeps (hs : c.Sound) (hids : c'.ids = c.ids)
    (hkeep : ∀ a, Keeps (c.server a) (c'.server a)) (hsane : ∀ a ∈ c.ids, (c'.server a).Sane)
    (hsymm : ∀ {a k b k'}, c'.far a k = some (b, k') → c'.far b k' = some (a, k))
    (hfar : ∀ {a k b k'}, c'.far a k = some (b, k') →
      a ∈ c.ids ∧ a ≠ b ∧ k < (c'.server a).connManager.nextConn) : c'.Sound := by
  refine ⟨?_, ?_, ?_, hsymm, ?_⟩
  · rw [hids]
    exact hsane
  · intro a ha
    rw [hids] at ha
    rw [(hkeep a).serverId, hs.serverId a ha]
  · intro a ha b
    rw [hids] at ha ⊢
    rw [(hkeep a).peers, hs.peers a ha]
  · rw [hids]
    exact hfar

/-- The end of a connection of which a server is the far end. -/
theorem Sound.far_ids' (hs : c.Sound) {a b : Int} {k k' : ConnRef}
    (hf : c.far a k = some (b, k')) : b ∈ c.ids :=
  (hs.far_ids (hs.far_symm hf)).1

end

/-- A packet server `x` sends to the peers `ps` over its links reaches the end. -/
def Reaches (c : Cluster) (x : Int) (s : ChatServer) (ps : List Int) (stop : Int × ConnRef) : Prop :=
  ∃ p ∈ ps, ∃ k, s.connManager.linkSocket p = some k ∧ c.far x k = some stop

/-- Server `x` becomes `s'` and sends a packet to the peers `ps`. -/
structure Put (c c' : Cluster) (x : Int) (s' : ChatServer) (ps : List Int) (pkt : RawPacket)
    (cause : Cause) (out : List Effect) : Prop where
  ids : c'.ids = c.ids
  server : c'.server = Function.update c.server x s'
  far : c'.far = c.far
  inbox_of_reaches : ∀ {b k}, (c.server b).reads k = true → c.Reaches x s' ps (b, k) →
    c'.inbox b k = c.inbox b k ++ [(cause, pkt)]
  inbox_of_not : ∀ {b k}, ¬ ((c.server b).reads k = true ∧ c.Reaches x s' ps (b, k)) →
    c'.inbox b k = c.inbox b k
  log : c'.log = c.log ++ events x cause out

theorem framesTo_framesOf (c : Cluster) (a : Int) (out : List Effect) (stop : Int × ConnRef) :
    c.framesTo a (framesOf out) stop = c.framesTo a out stop := by
  rw [framesTo, framesTo, framesOf, List.filterMap_filter]
  congr 1
  funext e
  cases e <;> rfl

theorem framesTo_frames_cons (c : Cluster) (x : Int) (s : ChatServer) (p : Int) (ps : List Int)
    (pkt : RawPacket) (stop : Int × ConnRef) :
    c.framesTo x (s.frames (p :: ps) pkt) stop =
      c.framesTo x (s.frames [p] pkt) stop ++ c.framesTo x (s.frames ps pkt) stop := by
  rw [framesTo, framesTo, framesTo, ← List.filterMap_append]
  congr 1
  exact List.filterMap_append (l := [p])

theorem reaches_cons {c : Cluster} {x p : Int} {s : ChatServer} {ps : List Int}
    {stop : Int × ConnRef} :
    c.Reaches x s (p :: ps) stop ↔ c.Reaches x s [p] stop ∨ c.Reaches x s ps stop := by
  simp only [Reaches, List.mem_cons, List.not_mem_nil, or_false, exists_eq_or_imp, exists_eq_left]

theorem framesTo_frames_singleton {c : Cluster} {x p : Int} {s : ChatServer} {pkt : RawPacket}
    {stop : Int × ConnRef} :
    (c.Reaches x s [p] stop → c.framesTo x (s.frames [p] pkt) stop = [pkt]) ∧
      (¬ c.Reaches x s [p] stop → c.framesTo x (s.frames [p] pkt) stop = []) := by
  cases hl : s.connManager.linkSocket p with
  | none => simp [Reaches, framesTo, frames, hl]
  | some k => by_cases hf : c.far x k = some stop <;> simp [Reaches, framesTo, frames, hl, hf]

/-- At most one of the packets sent in a round goes to a given end. -/
theorem framesTo_frames {c : Cluster} {x : Int} {s : ChatServer} {ps : List Int}
    {pkt : RawPacket} {stop : Int × ConnRef}
    (hsymm : ∀ {a k b k'}, c.far a k = some (b, k') → c.far b k' = some (a, k))
    (hok : s.connManager.Ok) (hn : ps.Nodup) :
    (c.Reaches x s ps stop → c.framesTo x (s.frames ps pkt) stop = [pkt]) ∧
      (¬ c.Reaches x s ps stop → c.framesTo x (s.frames ps pkt) stop = []) := by
  induction ps with
  | nil =>
      refine ⟨fun h => ?_, fun _ => rfl⟩
      obtain ⟨p, hp, -⟩ := h
      exact absurd hp List.not_mem_nil
  | cons p ps ih =>
      obtain ⟨hp, hn⟩ := List.nodup_cons.mp hn
      obtain ⟨hin, hout⟩ := ih hn
      rw [framesTo_frames_cons, reaches_cons]
      by_cases h1 : c.Reaches x s [p] stop
      · -- no other peer is linked over the same connection
        have h2 : ¬ c.Reaches x s ps stop := by
          intro h2
          obtain ⟨q, hq, k, hk, hfar⟩ := h2
          obtain ⟨p', hp', j, hj, hfar'⟩ := h1
          rw [List.mem_singleton] at hp'
          subst hp'
          have hkj : k = j := by
            have he := (hsymm hfar).symm.trans (hsymm hfar')
            exact congrArg Prod.snd (Option.some.inj he)
          subst hkj
          rw [hok.linkSocket_eq] at hk hj
          exact hp (hok.link_inj hj hk ▸ hq)
        rw [framesTo_frames_singleton.1 h1, hout h2]
        exact ⟨fun _ => rfl, fun hnot => absurd (Or.inl h1) hnot⟩
      · rw [framesTo_frames_singleton.2 h1, List.nil_append]
        exact ⟨fun h => hin (h.resolve_left h1), fun hnot => hout fun h => hnot (Or.inr h)⟩

section

variable {c c' : Cluster} {x : Int} {s' : ChatServer} {ps : List Int} {pkt : RawPacket}
  {cause : Cause} {out : List Effect}

theorem put_perform {prog : ServerProg Unit} {s : ChatServer} (hx : c.server x = s)
    (hsymm : ∀ {a k b k'}, c.far a k = some (b, k') → c.far b k' = some (a, k))
    (hok : s'.connManager.Ok) (h : Performs prog s s' ps pkt) (cause : Cause) :
    Put c (c.perform x cause prog) x s' ps pkt cause (prog.run s).out := by
  subst hx
  have hframes : ∀ stop, c.framesTo x (prog.run (c.server x)).out stop =
      c.framesTo x (s'.frames ps pkt) stop := by
    intro stop
    rw [← framesTo_framesOf, h.frames]
  refine ⟨rfl, ?_, rfl, ?_, ?_, rfl⟩
  · rw [perform, h.state]
  · intro b k hr hreach
    simp only [perform, hr, if_true, hframes, (framesTo_frames hsymm hok h.nodup).1 hreach]
    rfl
  · intro b k hnot
    simp only [perform, hframes]
    split
    next hr =>
      rw [(framesTo_frames hsymm hok h.nodup).2 fun hreach => hnot ⟨hr, hreach⟩]
      exact List.append_nil _
    · rfl

theorem Put.tick (h : Put c c' x s' ps pkt cause out) : Put c c'.tick x s' ps pkt cause out :=
  ⟨h.ids, h.server, h.far, h.inbox_of_reaches, h.inbox_of_not, h.log⟩

theorem Put.server_self (h : Put c c' x s' ps pkt cause out) : c'.server x = s' := by
  rw [h.server, Function.update_self]

theorem Put.server_of_ne (h : Put c c' x s' ps pkt cause out) {a : Int} (ha : a ≠ x) :
    c'.server a = c.server a := by
  rw [h.server, Function.update_of_ne ha]

end

/-! ## The moves -/

/-- What an action does to server `x`: its next state, and the packet it sends
with the peers it goes to. -/
inductive Turn (c : Cluster) : Action → Int → ChatServer → List Int → RawPacket → Prop where
  | connect {a : Int} {h : SOCKET} (ha : a ∈ c.ids) (hf : (c.server a).connManager.FreeHandle h)
      (out : RawPacket) :
      Turn c (.client a (.connect h)) a ((c.server a).onConn (·.accepted h)) [] out
  /-- A packet on a connection that is not a server's. -/
  | packet {a : Int} {k : ConnRef} {pkt out : RawPacket} {s' : ChatServer} {ps : List Int}
      (ha : a ∈ c.ids) (hfar : c.far a k = none) (hr : Reads (c.server a) k pkt s' ps out) :
      Turn c (.client a (.packet k pkt)) a s' ps out
  /-- A connection that is not a server's ends. -/
  | disconnect {a : Int} {k : ConnRef} {out : RawPacket} {s' : ChatServer} {ps : List Int}
      (ha : a ∈ c.ids) (hfar : c.far a k = none) (hf : Fails (c.server a) k s' ps out) :
      Turn c (.client a (.disconnect k)) a s' ps out
  | heartbeat {a : Int} {now : Nat} (ha : a ∈ c.ids) :
      Turn c (.heartbeat a now) a { c.server a with now := now }
        (c.server a).connManager.getAllPeerNodes
        ⟨.s2sHeartbeat, toString (c.server a).serverId⟩
  /-- A frame between servers is read. -/
  | deliver {b a : Int} {k j : ConnRef} {cause : Cause} {pkt out : RawPacket}
      {rest : List (Cause × RawPacket)} {s' : ChatServer} {ps : List Int}
      (hfar : c.far b k = some (a, j)) (hin : c.inbox b k = (cause, pkt) :: rest)
      (hr : Reads (c.server b) k pkt s' ps out) : Turn c (.deliver b k) b s' ps out
  | dial {a b : Int} {h h' : SOCKET} (ha : a ∈ c.ids) (hb : b ∈ c.ids) (hne : a ≠ b)
      (hc : ((c.server a).connManager.nodes b).isConnected = false)
      (hf : (c.server a).connManager.FreeHandle h) :
      Turn c (.dial a b h h') a ((c.server a).dialed b h) [b] ⟨.s2sConnect, toString a⟩
  /-- The other side of a connector's connection. -/
  | accept {a b : Int} {h h' : SOCKET} (ha : a ∈ c.ids) (hb : b ∈ c.ids) (hne : a ≠ b)
      (hc : ((c.server a).connManager.nodes b).isConnected = false)
      (hf : (c.server b).connManager.FreeHandle h') (out : RawPacket) :
      Turn c (.dial a b h h') b ((c.server b).onConn (·.accepted h')) [] out
  /-- Reading on an end of a connection between servers fails. -/
  | hang {a : Int} {k : ConnRef} {out : RawPacket} {s' : ChatServer} {ps : List Int}
      (hfar : c.far a k ≠ none) (hf : Fails (c.server a) k s' ps out) :
      Turn c (.hang a k) a s' ps out

/-- What the frames an action sends are due to. -/
def causeOf (c : Cluster) : Action → Cause
  | .deliver b k =>
      match c.inbox b k with
      | (cause, _) :: _ => cause
      | [] => c.seq
  | _ => c.seq

/-- The frames an action leaves on their way to an end. -/
def kept (c : Cluster) (act : Action) (b : Int) (k : ConnRef) : List (Cause × RawPacket) :=
  if act = .deliver b k then (c.inbox b k).tail else if act = .hang b k then [] else c.inbox b k

/-- What an action leaves in the log. -/
def eventsOf (c : Cluster) : Action → List Event
  | .client a (.packet k pkt) =>
      events a c.seq ((readPacket k pkt).run (c.server a)).out
  | .client a (.disconnect k) => events a c.seq ((readFailure k).run (c.server a)).out
  | .deliver b k =>
      match c.far b k, c.inbox b k with
      | some (a, _), (cause, pkt) :: _ =>
          .received a b cause pkt :: events b cause ((readPacket k pkt).run (c.server b)).out
      | _, _ => []
  | .hang a k => events a c.seq ((readFailure k).run (c.server a)).out
  | _ => []

/-- The connections after an action. -/
def farOf (c : Cluster) : Action → Int → ConnRef → Option (Int × ConnRef)
  | .dial a b _ _ =>
      (c.join a (c.server a).connManager.nextConn b (c.server b).connManager.nextConn).far
  | _ => c.far

/-- The number of the next action. -/
def seqOf (c : Cluster) : Action → Nat
  | .deliver _ _ => c.seq
  | _ => c.seq + 1

/-- What server `x` sends to the peers `ps` gets to the end. -/
def Gets (c : Cluster) (x : Int) (ps : List Int) (stop : Int × ConnRef) : Prop :=
  (c.server stop.1).reads stop.2 = true ∧ c.Reaches x (c.server x) ps stop

/-- What an action does, `x` being the server that may send a packet. -/
structure Move (c : Cluster) (act : Action) (c' : Cluster) (x : Int) (ps : List Int)
    (out : RawPacket) : Prop where
  ids : c'.ids = c.ids
  far : c'.far = c.farOf act
  seq : c'.seq = c.seqOf act
  log : c'.log = c.log ++ c.eventsOf act
  turn : Turn c act x (c'.server x) ps out
  others : ∀ y, y ≠ x → c'.server y = c.server y ∨ ∃ o, Turn c act y (c'.server y) [] o
  dialed : ∀ {a b h h'}, act = .dial a b h h' →
    c'.server a = (c.server a).dialed b h ∧ c'.server b = (c.server b).onConn (·.accepted h')
  sent : ∀ {b k}, c'.Gets x ps (b, k) → c'.inbox b k = c.kept act b k ++ [(c.causeOf act, out)]
  kept : ∀ {b k}, ¬ c'.Gets x ps (b, k) → c'.inbox b k = c.kept act b k

section

variable {c c' : Cluster} {act : Action} {x : Int} {ps : List Int} {out : RawPacket}

/-- An action does something to a server or leaves it alone. -/
theorem Move.server (hm : Move c act c' x ps out) (y : Int) :
    c'.server y = c.server y ∨ ∃ ps o, Turn c act y (c'.server y) ps o := by
  by_cases hy : y = x
  · exact Or.inr (hy ▸ ⟨ps, out, hm.turn⟩)
  · exact (hm.others y hy).imp id fun ho => ho.elim fun o ho => ⟨[], o, ho⟩

theorem Turn.mem {s' : ChatServer} (hs : c.Sound) (ht : Turn c act x s' ps out) : x ∈ c.ids := by
  cases ht with
  | connect ha => exact ha
  | packet ha => exact ha
  | disconnect ha => exact ha
  | heartbeat ha => exact ha
  | deliver hfar => exact (hs.far_ids hfar).1
  | dial ha hb => exact ha
  | accept ha hb => exact hb
  | hang hfar =>
      obtain ⟨⟨b, j⟩, hbj⟩ := Option.ne_none_iff_exists'.mp hfar
      exact (hs.far_ids hbj).1

theorem Turn.not_connected {s' : ChatServer} {a b : Int} {h h' : SOCKET}
    (ht : Turn c (.dial a b h h') x s' ps out) :
    ((c.server a).connManager.nodes b).isConnected = false := by
  cases ht with
  | dial ha hb hne hc => exact hc
  | accept ha hb hne hc => exact hc

theorem Turn.ne_of_dial {s' : ChatServer} {a b : Int} {h h' : SOCKET}
    (ht : Turn c (.dial a b h h') x s' ps out) : a ∈ c.ids ∧ b ∈ c.ids ∧ a ≠ b := by
  cases ht with
  | dial ha hb hne => exact ⟨ha, hb, hne⟩
  | accept ha hb hne => exact ⟨ha, hb, hne⟩

theorem Turn.sane {s' : ChatServer} (hs : c.Sound) (ht : Turn c act x s' ps out) : s'.Sane := by
  have hsane := hs.sane x (ht.mem hs)
  cases ht with
  | connect ha hf => exact hsane.accepted hf
  | packet ha hfar hr => exact hr.sane hsane
  | disconnect ha hfar hf => exact hf.sane hsane
  | heartbeat => exact ⟨hsane.ok, hsane.usable⟩
  | deliver hfar hin hr => exact hr.sane hsane
  | dial ha hb hne hc hf => exact hsane.dialed ((hs.peers _ ha _).mpr ⟨hb, hne.symm⟩) hf
  | accept ha hb hne hc hf => exact hsane.accepted hf
  | hang hfar hf => exact hf.sane hsane

theorem Turn.keeps {s' : ChatServer} (ht : Turn c act x s' ps out) : Keeps (c.server x) s' := by
  cases ht with
  | connect => exact keeps_accepted ..
  | packet ha hfar hr => exact hr.keeps
  | disconnect ha hfar hf => exact hf.keeps
  | heartbeat => exact ⟨rfl, rfl, Nat.le_refl _⟩
  | deliver hfar hin hr => exact hr.keeps
  | dial => exact keeps_dialed ..
  | accept => exact keeps_accepted ..
  | hang hfar hf => exact hf.keeps

/-- A server sends to its peers. -/
theorem Turn.targets {s' : ChatServer} (hs : c.Sound) (ht : Turn c act x s' ps out) :
    ∀ p ∈ ps, p ∈ (c.server x).connManager.peerNodes := by
  have hkeep := ht.keeps.peers
  cases ht with
  | connect => exact fun p hp => absurd hp List.not_mem_nil
  | packet ha hfar hr | deliver hfar hin hr =>
      cases hr with
      | session hk hs => exact fun p hp => hkeep ▸ hs.targets.2 p hp
      | peer hp hl =>
          intro q hq
          rw [answered] at hq
          split at hq
          · exact List.mem_singleton.mp hq ▸ hp
          · exact absurd hq List.not_mem_nil
  | disconnect ha hfar hf | hang hfar hf =>
      cases hf with
      | newSession => exact fun p hp => absurd hp List.not_mem_nil
      | session => exact fun p hp => hp
      | peer => exact fun p hp => absurd hp List.not_mem_nil
  | heartbeat => exact fun p hp => hp
  | dial ha hb hne =>
      exact fun p hp => (hs.peers _ ha p).mpr (List.mem_singleton.mp hp ▸ ⟨hb, hne.symm⟩)
  | accept => exact fun p hp => absurd hp List.not_mem_nil

theorem Move.keeps (hm : Move c act c' x ps out) (y : Int) :
    Keeps (c.server y) (c'.server y) := by
  cases hm.server y with
  | inl he => exact he ▸ .refl _
  | inr ht => exact ht.elim fun _ ht => ht.elim fun _ ht => ht.keeps

/-! ### The connections -/

theorem far_join {a b : Int} (hne : a ≠ b) (k k' : ConnRef) (x : Int) (i : ConnRef) :
    (c.join a k b k').far x i =
      if x = b ∧ i = k' then some (a, k) else if x = a ∧ i = k then some (b, k') else c.far x i := by
  simp only [join]
  by_cases hb : x = b
  · subst hb
    rw [Function.update_self, Function.update_apply]
    simp only [true_and, Ne.symm hne, false_and, if_false]
  · rw [Function.update_of_ne hb, Function.update_apply]
    simp only [hb, false_and, if_false]
    split
    next ha =>
      subst ha
      rw [Function.update_apply]
      simp only [true_and]
    next ha => simp only [ha, false_and, if_false]

/-- The fresh sockets of two servers become the ends of one connection. -/
theorem far_symm_join (hs : c.Sound) {a b : Int} (hne : a ≠ b) {x y : Int} {i j : ConnRef}
    (hf : (c.join a (c.server a).connManager.nextConn b (c.server b).connManager.nextConn).far x i =
      some (y, j)) :
    (c.join a (c.server a).connManager.nextConn b (c.server b).connManager.nextConn).far y j =
      some (x, i) := by
  rw [far_join hne] at hf ⊢
  split at hf
  next h1 =>
    cases hf
    rw [if_neg fun he => hne he.1, if_pos ⟨rfl, rfl⟩, h1.1, h1.2]
  next h1 =>
    split at hf
    next h2 =>
      cases hf
      rw [if_pos ⟨rfl, rfl⟩, h2.1, h2.2]
    next h2 =>
      -- an end of an older connection is not a fresh socket
      have hback := hs.far_symm hf
      have hlt := (hs.far_ids hback).2.2
      rw [if_neg, if_neg, hback]
      · intro he
        exact Nat.lt_irrefl _ (he.2 ▸ he.1 ▸ hlt)
      · intro he
        exact Nat.lt_irrefl _ (he.2 ▸ he.1 ▸ hlt)

/-- A connection stays. -/
theorem Move.far_of_some (hm : Move c act c' x ps out) (hs : c.Sound) {a b : Int}
    {k k' : ConnRef} (hf : c.far a k = some (b, k')) : c'.far a k = some (b, k') := by
  rw [hm.far]
  have hlt := (hs.far_ids hf).2.2
  cases act with
  | dial d e h h' =>
      rw [farOf, far_join hm.turn.ne_of_dial.2.2, if_neg, if_neg, hf]
      · exact fun he => Nat.lt_irrefl _ (he.2 ▸ he.1 ▸ hlt)
      · exact fun he => Nat.lt_irrefl _ (he.2 ▸ he.1 ▸ hlt)
  | _ => exact hf

/-- A socket keeps its far end. -/
theorem Move.far_before (hm : Move c act c' x ps out) (hs : c.Sound) {a : Int} {k : ConnRef}
    {stop : Int × ConnRef} (hf : c'.far a k = some stop) :
    c.far a k = none ∨ c.far a k = some stop := by
  cases hold : c.far a k with
  | none => exact Or.inl rfl
  | some stop' =>
      obtain ⟨b, k'⟩ := stop'
      exact Or.inr ((hm.far_of_some hs hold).symm.trans hf)

/-- A connection was there before, or it is the one a connector has just made. -/
theorem Move.far_cases (hm : Move c act c' x ps out) {a b : Int} {k k' : ConnRef}
    (hf : c'.far a k = some (b, k')) : c.far a k = some (b, k') ∨
      ∃ h h', k = (c.server a).connManager.nextConn ∧ k' = (c.server b).connManager.nextConn ∧
        (act = .dial a b h h' ∨ act = .dial b a h h') := by
  rw [hm.far] at hf
  cases act with
  | dial d e h h' =>
      rw [farOf, far_join hm.turn.ne_of_dial.2.2] at hf
      split at hf
      next h1 =>
        cases hf
        obtain ⟨rfl, rfl⟩ := h1
        exact Or.inr ⟨h, h', rfl, rfl, Or.inr rfl⟩
      · split at hf
        next h2 =>
          cases hf
          obtain ⟨rfl, rfl⟩ := h2
          exact Or.inr ⟨h, h', rfl, rfl, Or.inl rfl⟩
        · exact Or.inl hf
  | _ => exact Or.inl hf

/-- Every move keeps the cluster sound. -/
theorem Move.sound (hm : Move c act c' x ps out) (hs : c.Sound) : c'.Sound := by
  refine hs.of_keeps hm.ids hm.keeps ?_ ?_ ?_
  · intro a ha
    cases hm.server a with
    | inl he => exact he ▸ hs.sane a ha
    | inr ht => exact ht.elim fun _ ht => ht.elim fun _ ht => ht.sane hs
  · intro a k b k' hf
    rw [hm.far] at hf ⊢
    cases act with
    | dial d e h h' => exact far_symm_join hs hm.turn.ne_of_dial.2.2 hf
    | _ => exact hs.far_symm hf
  · intro a k b k' hf
    obtain hf | ⟨h, h', rfl, -, hact⟩ := hm.far_cases hf
    · obtain ⟨ha, hne, hlt⟩ := hs.far_ids hf
      exact ⟨ha, hne, Nat.lt_of_lt_of_le hlt (hm.keeps a).next⟩
    · cases hact with
      | inl hact =>
          subst hact
          obtain ⟨ha, hb, hne⟩ := hm.turn.ne_of_dial
          rw [(hm.dialed rfl).1, nextConn_dialed]
          exact ⟨ha, hne, Nat.lt_succ_self _⟩
      | inr hact =>
          subst hact
          obtain ⟨hb, ha, hne⟩ := hm.turn.ne_of_dial
          rw [(hm.dialed rfl).2]
          exact ⟨ha, hne.symm, Nat.lt_succ_self _⟩

end

/-! ### Every action is a move -/

section

variable {c c' : Cluster} {act : Action}

theorem performs_accept (s : ChatServer) (h : SOCKET) (pkt : RawPacket) :
    Performs (acceptConnection h) s (s.onConn (·.accepted h)) [] pkt :=
  .local pkt rfl rfl

theorem Put.gets_iff {base : Cluster} {x : Int} {s' : ChatServer} {ps : List Int}
    {pkt : RawPacket} {cause : Cause} {effects : List Effect} {b : Int} {k : ConnRef}
    (hput : Put base c' x s' ps pkt cause effects)
    (hne : ∀ {a k b k'}, base.far a k = some (b, k') → a ≠ b) :
    c'.Gets x ps (b, k) ↔ (base.server b).reads k = true ∧ base.Reaches x s' ps (b, k) := by
  rw [Gets, Reaches, Reaches, hput.far, hput.server_self]
  refine and_congr_left fun hr => ?_
  -- a server has no connection to itself
  have hb : b ≠ x := by
    obtain ⟨p, -, i, -, hi⟩ := hr
    exact (hne hi).symm
  rw [hput.server_of_ne hb]

/-- A put is a move, if the frames kept are those of the state it starts from. -/
theorem Put.move {base : Cluster} {x : Int} {s' : ChatServer} {ps : List Int} {pkt : RawPacket}
    {effects : List Effect} (hs : c.Sound) (hput : Put base c' x s' ps pkt (c.causeOf act) effects)
    (ht : Turn c act x s' ps pkt) (hids : base.ids = c.ids)
    (hserver : ∀ y, y ≠ x → base.server y = c.server y) (hfar : base.far = c.far)
    (hbox : base.inbox = c.kept act) (hseq : c'.seq = c.seqOf act)
    (hlog : base.log ++ events x (c.causeOf act) effects = c.log ++ c.eventsOf act)
    (hnd : ∀ a b h h', act ≠ .dial a b h h') : Move c act c' x ps pkt := by
  have hne : ∀ {a k b k'}, base.far a k = some (b, k') → a ≠ b :=
    fun hf => (hs.far_ids (hfar ▸ hf)).2.1
  have hfar' : c.farOf act = c.far := by
    cases act with
    | dial a b h h' => exact absurd rfl (hnd a b h h')
    | _ => rfl
  refine ⟨hput.ids.trans hids, (hput.far.trans hfar).trans hfar'.symm, hseq, hput.log.trans hlog,
    hput.server_self.symm ▸ ht, ?_, fun he => absurd he (hnd _ _ _ _), ?_, ?_⟩
  · intro y hy
    exact Or.inl ((hput.server_of_ne hy).trans (hserver y hy))
  · intro b k hg
    obtain ⟨hr, hreach⟩ := (hput.gets_iff hne).mp hg
    rw [hput.inbox_of_reaches hr hreach, hbox]
  · intro b k hg
    rw [hput.inbox_of_not (mt (hput.gets_iff hne).mpr hg), hbox]

/-- The frames of a setting of one inbox. -/
theorem inbox_setInbox (c : Cluster) (b : Int) (k : ConnRef) (q : List (Cause × RawPacket))
    (y : Int) (j : ConnRef) :
    (c.setInbox b k q).inbox y j = if y = b ∧ j = k then q else c.inbox y j := by
  simp only [setInbox, Function.update_apply]
  by_cases hy : y = b
  · subst hy
    rw [if_pos rfl, Function.update_apply]
    simp only [true_and]
  · rw [if_neg hy, if_neg fun he => hy he.1]

theorem kept_eq_inbox (c : Cluster) (act : Action) (hd : ∀ b k, act ≠ .deliver b k)
    (hh : ∀ b k, act ≠ .hang b k) :
    c.inbox = c.kept act := by
  funext b k
  rw [kept, if_neg (hd b k), if_neg (hh b k)]

theorem mem_of_clientStep {a : Int} {ca : ClientAction} (h : c.step (.client a ca) = some c') :
    a ∈ c.ids ∧ c.clientStep a ca = some c' := by
  simp only [step] at h
  split at h
  next ha => exact ⟨ha, h⟩
  · cases h

/-- The move of a client's packet, given what the handler of the packet does. -/
theorem move_packet (hs : c.Sound) {a : Int} {k : ConnRef} {pkt out : RawPacket} {s' : ChatServer}
    {ps : List Int} (ha : a ∈ c.ids) (h : c.step (.client a (.packet k pkt)) = some c')
    (hr : Reads (c.server a) k pkt s' ps out)
    (hperf : Performs (readPacket k pkt) (c.server a) s' ps out) :
    Move c (.client a (.packet k pkt)) c' a ps out ∧ c'.server a = s' := by
  simp only [step, if_pos ha, clientStep] at h
  split at h
  next hk =>
    cases h
    have hput := put_perform rfl hs.far_symm (hr.sane (hs.sane a ha)).ok hperf c.seq
    refine ⟨?_, hput.server_self⟩
    exact hput.tick.move hs (.packet ha hk.2.1 hr) rfl (fun _ _ => rfl) rfl
      (kept_eq_inbox c _ (fun _ _ he => nomatch he) fun _ _ he => nomatch he) rfl rfl
      (fun _ _ _ _ he => nomatch he)
  · cases h

theorem move_client (hs : c.Sound) {a : Int} {ca : ClientAction} (ha : a ∈ c.ids)
    (h : c.clientStep a ca = some c') : ∃ ps out, Move c (.client a ca) c' a ps out := by
  have hsane := hs.sane a ha
  have hbox : c.inbox = c.kept (.client a ca) :=
    kept_eq_inbox c _ (fun _ _ he => nomatch he) fun _ _ he => nomatch he
  cases ca with
  | connect handle =>
      simp only [clientStep] at h
      split at h
      next hf =>
        cases h
        have hput := put_perform rfl hs.far_symm (hsane.accepted hf).ok
          (performs_accept (c.server a) handle ⟨.login, []⟩) c.seq
        refine ⟨[], ⟨.login, []⟩, hput.tick.move hs (.connect ha hf _) rfl (fun _ _ => rfl) rfl hbox
          rfl ?_ (fun _ _ _ _ he => nomatch he)⟩
        rfl
      · cases h
  | packet k pkt =>
      have hreads : (c.server a).reads k = true := by
        simp only [clientStep] at h
        split at h
        next hk => exact hk.1
        · cases h
      obtain ⟨s', ps, out, hr, hperf⟩ := readPacket_reads hsane hreads pkt
      exact ⟨ps, out, (move_packet hs ha (by rw [step, if_pos ha]; exact h) hr hperf).1⟩
  | disconnect k =>
      simp only [clientStep] at h
      split at h
      next hk =>
        cases h
        obtain ⟨s', ps, out, hf, hperf⟩ := readFailure_fails hsane hk.1
        have hput := put_perform rfl hs.far_symm (hf.sane hsane).ok hperf c.seq
        exact ⟨ps, out, hput.tick.move hs (.disconnect ha hk.2 hf) rfl (fun _ _ => rfl) rfl hbox
          rfl rfl (fun _ _ _ _ he => nomatch he)⟩
      · cases h

theorem events_framesOf_eq_nil {a : Int} {cause : Cause} {out : List Effect}
    (h : framesOf out = out) : events a cause out = [] := by
  rw [events, ← h, framesOf, List.filterMap_filter]
  refine List.filterMap_eq_nil_iff.mpr fun e _ => ?_
  cases e <;> rfl

theorem move_heartbeat (hs : c.Sound) {a : Int} {now : Nat}
    (h : c.step (.heartbeat a now) = some c') :
    ∃ ps out, Move c (.heartbeat a now) c' a ps out := by
  simp only [step] at h
  split at h
  next ht =>
    cases h
    have hsane : ({ c.server a with now := now } : ChatServer).Sane :=
      ⟨(hs.sane a ht.1).ok, (hs.sane a ht.1).usable⟩
    have hperf := heartbeatRound_performs hsane.usable ht.2
    have hput := put_perform
      (c := { c with server := Function.update c.server a { c.server a with now := now } })
      (Function.update_self ..) hs.far_symm hsane.ok hperf c.seq
    have hout : framesOf (heartbeatRound.run { c.server a with now := now }).out =
        (heartbeatRound.run { c.server a with now := now }).out := by
      rw [hperf.frames, run_heartbeatRound (linksGood_of_usable hsane.usable) ht.2]
    refine ⟨_, _, hput.tick.move hs (.heartbeat ht.1) rfl
      (fun y hy => Function.update_of_ne hy ..) rfl
      (kept_eq_inbox c _ (fun _ _ he => nomatch he) fun _ _ he => nomatch he) rfl ?_
      (fun _ _ _ _ he => nomatch he)⟩
    rw [events_framesOf_eq_nil hout]
    rfl
  · cases h

theorem move_deliver (hs : c.Sound) {b : Int} {k : ConnRef}
    (h : c.step (.deliver b k) = some c') : ∃ ps out, Move c (.deliver b k) c' b ps out := by
  simp only [step] at h
  split at h
  next a j cause pkt rest hfar hin =>
    split at h
    next hk =>
      cases h
      have hsane := hs.sane b (hs.far_ids hfar).1
      obtain ⟨s', ps, out, hr, hperf⟩ := readPacket_reads hsane hk.1 pkt
      have hput := put_perform (c := (c.setInbox b k rest).note (.received a b cause pkt)) rfl
        hs.far_symm (hr.sane hsane).ok hperf cause
      have hcause : c.causeOf (.deliver b k) = cause := by
        simp only [causeOf, hin]
      have hbox : (c.setInbox b k rest).inbox = c.kept (.deliver b k) := by
        funext y i
        rw [inbox_setInbox, Cluster.kept]
        simp only [Action.deliver.injEq, reduceCtorEq, if_false]
        by_cases hy : y = b ∧ i = k
        · rw [if_pos hy, if_pos ⟨hy.1.symm, hy.2.symm⟩, hy.1, hy.2, hin]
          rfl
        · rw [if_neg hy, if_neg fun he => hy ⟨he.1.symm, he.2.symm⟩]
      have hlog : (c.log ++ [.received a b cause pkt]) ++
          events b cause ((readPacket k pkt).run (c.server b)).out =
            c.log ++ c.eventsOf (.deliver b k) := by
        simp only [eventsOf, hfar, hin, List.append_assoc, List.singleton_append]
      subst hcause
      exact ⟨ps, out, hput.move hs (.deliver hfar hin hr) rfl (fun _ _ => rfl) rfl hbox rfl hlog
        (fun _ _ _ _ he => nomatch he)⟩
    · cases h
  · cases h

theorem move_hang (hs : c.Sound) {a : Int} {k : ConnRef} (h : c.step (.hang a k) = some c') :
    ∃ ps out, Move c (.hang a k) c' a ps out := by
  simp only [step] at h
  split at h
  next hk =>
    cases h
    obtain ⟨⟨b, j⟩, hfar⟩ := Option.ne_none_iff_exists'.mp hk.2
    have hsane := hs.sane a (hs.far_ids hfar).1
    obtain ⟨s', ps, out, hf, hperf⟩ := readFailure_fails hsane hk.1
    have hput := put_perform (c := c.setInbox a k []) rfl hs.far_symm (hf.sane hsane).ok hperf
      c.seq
    have hbox : (c.setInbox a k []).inbox = c.kept (.hang a k) := by
      funext y i
      rw [inbox_setInbox, Cluster.kept]
      simp only [Action.hang.injEq, reduceCtorEq, if_false]
      by_cases hy : y = a ∧ i = k
      · rw [if_pos hy, if_pos ⟨hy.1.symm, hy.2.symm⟩]
      · rw [if_neg hy, if_neg fun he => hy ⟨he.1.symm, he.2.symm⟩]
    exact ⟨ps, out, hput.tick.move hs (.hang hk.2 hf) rfl (fun _ _ => rfl) rfl hbox rfl rfl
      (fun _ _ _ _ he => nomatch he)⟩
  · cases h

theorem move_dial (hs : c.Sound) {a b : Int} {h h' : SOCKET}
    (hstep : c.step (.dial a b h h') = some c') :
    ∃ ps out, Move c (.dial a b h h') c' a ps out := by
  simp only [step] at hstep
  split at hstep
  next hd =>
    cases hstep
    obtain ⟨ha, hb, hne, hpeer, hc, hf, hf'⟩ := hd
    have hsymm := fun {x i y j} => far_symm_join (x := x) (i := i) (y := y) (j := j) hs hne
    have hput := put_perform
      (c := c.join a (c.server a).connManager.nextConn b (c.server b).connManager.nextConn)
      rfl hsymm ((hs.sane b hb).accepted hf').ok
      (performs_accept (c.server b) h' ⟨.login, []⟩) c.seq
    have hself := hput.server_of_ne hne
    have hperf := connectPeer_performs (of_decide_eq_true hpeer) hc hf.1
    rw [hs.serverId a ha] at hperf
    have hput' := (put_perform hself hsymm ((hs.sane a ha).dialed (of_decide_eq_true hpeer) hf).ok
      hperf c.seq).tick
    have hbox := kept_eq_inbox c (.dial a b h h') (fun _ _ he => nomatch he)
      fun _ _ he => nomatch he
    have hmid : ∀ y i, ((c.join a (c.server a).connManager.nextConn b
        (c.server b).connManager.nextConn).perform b c.seq (acceptConnection h')).inbox y i =
        c.kept (.dial a b h h') y i := by
      intro y i
      rw [← hbox]
      refine hput.inbox_of_not fun hg => ?_
      obtain ⟨-, p, hp, -⟩ := hg
      exact absurd hp List.not_mem_nil
    have hlog : (c.log ++ events b c.seq
        ((acceptConnection h').run (c.server b)).out) ++
        events a c.seq ((connectPeer b h).run (c.server a)).out =
          c.log ++ c.eventsOf (.dial a b h h') := by
      rw [run_connectPeer (of_decide_eq_true hpeer) hc hf.1, run_acceptConnection]
      exact (List.append_nil _)
    have hfar : ∀ {y i z j}, (c.join a (c.server a).connManager.nextConn b
        (c.server b).connManager.nextConn).far y i = some (z, j) → y ≠ z := by
      intro y i z j hi
      rw [far_join hne] at hi
      split at hi
      next h1 =>
        cases hi
        exact h1.1 ▸ hne.symm
      · split at hi
        next h2 =>
          cases hi
          exact h2.1 ▸ hne
        · exact (hs.far_ids hi).2.1
    have hgets := fun {y i} => hput'.gets_iff (b := y) (k := i) (hfar)
    refine ⟨[b], ⟨.s2sConnect, toString a⟩, hput'.ids, hput'.far, rfl, hput'.log.trans hlog,
      ?_, ?_, ?_, ?_, ?_⟩
    · rw [hput'.server_self]
      exact .dial ha hb hne hc hf
    · intro y hy
      rw [hput'.server_of_ne hy]
      by_cases hyb : y = b
      · subst hyb
        rw [hput.server_self]
        exact Or.inr ⟨⟨.login, []⟩, .accept ha hb hne hc hf' _⟩
      · exact Or.inl (hput.server_of_ne hyb)
    · intro d e i i' he
      cases he
      rw [hput'.server_self, hput'.server_of_ne hne.symm, hput.server_self]
      exact ⟨rfl, rfl⟩
    · intro y i hg
      obtain ⟨hr, hreach⟩ := hgets.mp hg
      exact (hput'.inbox_of_reaches hr hreach).trans (congrArg (· ++ _) (hmid y i))
    · intro y i hg
      exact (hput'.inbox_of_not (mt hgets.mpr hg)).trans (hmid y i)
  · cases hstep

/-- Every action of a sound cluster is a move. -/
theorem step_move (hs : c.Sound) (h : c.step act = some c') :
    ∃ x ps out, Move c act c' x ps out := by
  cases act with
  | client a ca =>
      simp only [step] at h
      split at h
      next ha => exact ⟨a, move_client hs ha h⟩
      · cases h
  | heartbeat a now => exact ⟨a, move_heartbeat hs h⟩
  | deliver b k => exact ⟨b, move_deliver hs h⟩
  | dial a b i i' => exact ⟨a, move_dial hs h⟩
  | hang a k => exact ⟨a, move_hang hs h⟩

end

end Cluster

end DistributedChat
