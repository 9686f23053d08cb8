import DistributedChat.Cluster.Start
import DistributedChat.Logic.Pace
import DistributedChat.Server.Heartbeats

/-!
# Heartbeats between servers

A server that was not heard of for 15 seconds is disconnected, whether it has failed
or not.  Here the clock of the cluster runs, and a round of the heartbeat loop does
what the code does, also to peers that have been silent for too long.  If every
server goes round at least once in a period, and every heartbeat is read within a
delay, and the two together are less than 15 seconds, then no round of any server
disconnects anybody, and the links stay as they are (`heartbeats_keep_links`).
This is about runs that begin with nothing on its way and links heard of recently
(`Begun`), in which no link fails and no client claims to be a peer (`Calm`).

On each link the heartbeats are signals at a pace.  A link needs the heartbeats on
their way, the time of the last round on one side and the time of the last packet on
the other (`Timed.Kept`).
-/

namespace DistributedChat

open ChatServer

/-- A cluster with a clock. -/
structure Timed where
  cluster : Cluster
  clock : Nat := 0
  /-- The times of the rounds, by the numbers of the actions. -/
  roundAt : Cause → Nat := fun _ => 0
  /-- The time of the last round of each server. -/
  lastRound : Int → Nat := fun _ => 0

/-- What happens in a cluster with a clock. -/
inductive Tick where
  /-- Time goes by. -/
  | wait (now : Nat)
  /-- Anything but a round of heartbeats. -/
  | act (act : Action)
  /-- The heartbeat loop of a server goes round. -/
  | round (a : Int)
deriving DecidableEq, Repr

/-- The action is a round of heartbeats. -/
def Action.IsRound : Action → Prop
  | .heartbeat _ _ => True
  | _ => False

instance : DecidablePred Action.IsRound := fun
  | .heartbeat _ _ => instDecidableTrue
  | .client _ _ | .deliver _ _ | .dial _ _ _ _ | .hang _ _ => instDecidableFalse

/-- The clocks of all servers show the time. -/
def Cluster.setClock (c : Cluster) (now : Nat) : Cluster :=
  { c with server := fun a => { c.server a with now := now } }

namespace Timed

def next (t : Timed) : Tick → Option Timed
  | .wait now =>
      if t.clock ≤ now then some { t with cluster := t.cluster.setClock now, clock := now }
      else none
  | .act act =>
      if act.IsRound then none
      else (t.cluster.step act).map fun c => { t with cluster := c }
  | .round a =>
      if a ∈ t.cluster.ids then
        some { t with
          cluster := (t.cluster.perform a t.cluster.seq heartbeatRound).tick
          roundAt := Function.update t.roundAt t.cluster.seq t.clock
          lastRound := Function.update t.lastRound a t.clock }
      else none

/-- The times of the heartbeats among the frames. -/
def beats (t : Timed) (fs : List (Cause × RawPacket)) : List Nat :=
  (fs.filter fun f => f.2.type = .s2sHeartbeat).map fun f => t.roundAt f.1

/-- The times of the heartbeats on their way to an end. -/
def flying (t : Timed) (b : Int) (k : ConnRef) : List Nat := t.beats (t.cluster.inbox b k)

/-- At the time no server is late with its round and no heartbeat late on its way. -/
def InTime (r : Pace) (t : Timed) (now : Nat) : Prop :=
  (∀ a ∈ t.cluster.ids, now ≤ t.lastRound a + r.period) ∧
    ∀ b ∈ t.cluster.ids, ∀ k < (t.cluster.server b).connManager.nextConn,
      ∀ τ ∈ t.flying b k, now ≤ τ + r.delay

instance (r : Pace) (t : Timed) (now : Nat) : Decidable (t.InTime r now) :=
  inferInstanceAs (Decidable (_ ∧ _))

/-- Time goes by in time, no link fails and no client claims to be a server. -/
def Calm (r : Pace) (t : Timed) : Tick → Prop
  | .wait now => t.InTime r now
  | .act act => t.cluster.NoHijack act ∧ Cluster.NeverFails act
  | .round _ => True

instance (r : Pace) (t : Timed) (tick : Tick) : Decidable (t.Calm r tick) :=
  match tick with
  | .wait now => inferInstanceAs (Decidable (t.InTime r now))
  | .act act => inferInstanceAs (Decidable (t.cluster.NoHijack act ∧ Cluster.NeverFails act))
  | .round _ => instDecidableTrue

end Timed

/-! ## What an action does to a server and the heartbeats -/

namespace ChatServer

section

variable {s s' : ChatServer} {k : ConnRef} {pkt out : RawPacket} {ps : List Int}

theorem Reads.now_eq (h : Reads s k pkt s' ps out) : s'.now = s.now := by
  cases h with
  | session hk hs => exact hs.now_eq
  | peer hp hl => exact now_received ..

theorem Fails.now_eq (h : Fails s k s' ps out) : s'.now = s.now := by
  cases h <;> rfl

/-- A server that handles a packet sends no heartbeat. -/
theorem Reads.not_heartbeat (h : Reads s k pkt s' ps out) (hps : ps ≠ []) :
    out.type ≠ .s2sHeartbeat := by
  cases h with
  | session hk hs =>
      cases hs with
      | idle | join | leave | promote => exact absurd rfl hps
      | _ => exact fun ht => PacketType.noConfusion ht
  | peer hp hl => exact fun ht => PacketType.noConfusion ht

theorem Fails.not_heartbeat (h : Fails s k s' ps out) (hps : ps ≠ []) :
    out.type ≠ .s2sHeartbeat := by
  cases h with
  | newSession | peer => exact absurd rfl hps
  | session => exact fun ht => PacketType.noConfusion ht

end

end ChatServer

namespace Cluster

section

variable {c c' : Cluster} {act : Action} {x : Int} {ps : List Int} {out : RawPacket}
  {R : Bytes → Prop} {s' : ChatServer} {a b p : Int} {k k' : ConnRef}

theorem Turn.now_eq (ht : Turn c act x s' ps out) (hact : ¬ act.IsRound) :
    s'.now = (c.server x).now := by
  cases ht with
  | packet ha hfar hr | deliver hfar hin hr => exact hr.now_eq
  | disconnect ha hfar hf | hang hfar hf => exact hf.now_eq
  | heartbeat => exact absurd trivial hact
  | connect | dial | accept => rfl

/-- Only a round sends heartbeats. -/
theorem Turn.not_heartbeat (ht : Turn c act x s' ps out) (hact : ¬ act.IsRound) (hps : ps ≠ []) :
    out.type ≠ .s2sHeartbeat := by
  cases ht with
  | packet ha hfar hr | deliver hfar hin hr => exact hr.not_heartbeat hps
  | disconnect ha hfar hf | hang hfar hf => exact hf.not_heartbeat hps
  | heartbeat => exact absurd trivial hact
  | dial => exact fun ht => PacketType.noConfusion ht
  | connect | accept => exact absurd rfl hps

/-- Reading a frame off the link of a peer refreshes its time. -/
def Refreshes (c : Cluster) (act : Action) (x p : Int) : Prop :=
  ∃ k ∈ (c.server x).connManager.linkSocket p, act = .deliver x k

/-- In a mesh all peers are connected, so no connector dials. -/
theorem Steady.not_dial (hc : c.Steady R) (ht : Turn c act x s' ps out) {a b : Int}
    {h h' : SOCKET} : act ≠ .dial a b h h' := by
  rintro rfl
  obtain ⟨ha, hb, hne⟩ := ht.ne_of_dial
  have hdown := ht.not_connected
  obtain ⟨k, -, hk, -⟩ := hc.meshed a ha b hb hne
  rw [ConnectionManager.linkSocket, hdown] at hk
  cases hk

/-- In a mesh nothing but the frames of a peer changes the time it was last heard of. -/
theorem Turn.lastHeartbeatTime (hc : c.Steady R) (hno : c.NoHijack act) (hn : NeverFails act)
    (ht : Turn c act x s' ps out) (p : Int) :
    (c.Refreshes act x p ∧
        (s'.connManager.nodes p).lastHeartbeatTime = (c.server x).now) ∨
      (¬ c.Refreshes act x p ∧ (s'.connManager.nodes p).lastHeartbeatTime =
        ((c.server x).connManager.nodes p).lastHeartbeatTime) := by
  have hok := (hc.sane x (ht.mem hc.toSound)).ok
  have hdial : ∀ {a b h h'}, act ≠ .dial a b h h' := hc.not_dial ht
  cases ht with
  | connect | heartbeat => exact Or.inr ⟨fun ⟨_, _, he⟩ => Action.noConfusion he, rfl⟩
  | packet ha hfar hr =>
      refine Or.inr ⟨fun ⟨_, _, he⟩ => Action.noConfusion he, ?_⟩
      cases hr with
      | session hk hs => rw [hs.nodes hno]
      | peer hp hl =>
          obtain ⟨j, hj⟩ := hc.linksTrue ha hp hl
          rw [hfar] at hj
          cases hj
  | disconnect ha hfar hf =>
      refine Or.inr ⟨fun ⟨_, _, he⟩ => Action.noConfusion he, ?_⟩
      cases hf with
      | newSession => rw [node_removed]
      | session =>
          rw [node_removed]
          rfl
      | peer hp hl =>
          obtain ⟨j, hj⟩ := hc.linksTrue ha hp hl
          rw [hfar] at hj
          cases hj
  | @deliver b a k j cause pkt out rest s' ps hfar hin hr =>
      have hpkt : Honest R a pkt := hc.honest (f := (cause, pkt)) hfar (hin ▸ List.mem_cons_self ..)
      -- frames are on their way over links only, and a link is no session
      have hdead : ¬ (c.server x).connManager.Live k := by
        intro hk
        have hempty := hc.loose (b := x) (k := k) fun q hq => by
          rw [hok.linkSocket_eq] at hq
          exact hok.link_dead hq hk
        rw [hin] at hempty
        cases hempty
      cases Reads.frame hc.toTraffic hfar hpkt hr with
      | ignored hk => exact absurd hk hdead
      | handshake hk => exact absurd hk hdead
      | @peer q hp hl =>
          rw [received_connManager, ConnectionManager.nodes_updateHeartbeat]
          split
          next he =>
            subst he
            exact Or.inl ⟨⟨k, hl, rfl⟩, rfl⟩
          next he =>
            refine Or.inr ⟨?_, rfl⟩
            rintro ⟨k', hk', hact⟩
            cases hact
            rw [Option.mem_def, hok.linkSocket_eq] at hk'
            rw [hok.linkSocket_eq] at hl
            exact he (hok.link_inj hk' hl)
  | dial => exact absurd rfl hdial
  | accept => exact absurd rfl hdial
  | hang => exact hn.elim

/-! ### Setting the clocks -/

theorem Steady.setClock (hc : c.Steady R) (now : Nat) : (c.setClock now).Steady R where
  sane := fun a ha => ⟨(hc.sane a ha).ok, (hc.sane a ha).usable⟩
  serverId := hc.serverId
  peers := hc.peers
  far_symm := hc.far_symm
  far_ids := hc.far_ids
  isInt := hc.isInt
  honest := hc.honest
  dry := hc.dry
  tagged := hc.tagged
  logged := hc.logged
  anonymous := hc.anonymous
  meshed := hc.meshed
  loose := hc.loose

/-- A round that suspects nobody is one of the untimed cluster. -/
theorem step_heartbeat (ha : a ∈ c.ids)
    (ht : ∀ p ∈ (c.server a).connManager.getAllPeerNodes, (c.server a).Timely p) :
    c.step (.heartbeat a (c.server a).now) = some (c.perform a c.seq heartbeatRound).tick := by
  have hserver : Function.update c.server a { c.server a with now := (c.server a).now } =
      c.server := Function.update_eq_self ..
  rw [step, if_pos ⟨ha, ht⟩, hserver]

end

end Cluster

namespace Timed

open Cluster

/-! ## The pace of the heartbeats -/

/-- What is known of the rounds and the heartbeats in a mesh. -/
structure Kept (r : Pace) (t : Timed) : Prop where
  steady : t.cluster.Steady fun _ => True
  clocks : ∀ a ∈ t.cluster.ids, (t.cluster.server a).now = t.clock
  paced : ∀ {a k b k'}, t.cluster.Linked a k b k' →
    r.Paced t.clock (t.lastRound a) (t.flying b k')
      ((t.cluster.server b).connManager.nodes a).lastHeartbeatTime

section

variable {r : Pace} {t t' : Timed} {a b p : Int} {k k' : ConnRef} {act : Action} {c' : Cluster}

theorem Kept.wait (h : t.Kept r) {now : Nat} (hin : t.InTime r now) (hle : t.clock ≤ now) :
    Kept r { t with cluster := t.cluster.setClock now, clock := now } where
  steady := h.steady.setClock now
  clocks := fun _ _ => rfl
  paced := by
    intro a k b k' hl
    obtain ⟨ha, hb, hlt⟩ : a ∈ t.cluster.ids ∧ b ∈ t.cluster.ids ∧
        k' < (t.cluster.server b).connManager.nextConn := by
      have hback := h.steady.far_symm hl.2.2
      exact ⟨h.steady.far_ids' hback, (h.steady.far_ids hback).1, (h.steady.far_ids hback).2.2⟩
    exact (h.paced hl).wait hle (hin.1 a ha) (hin.2 b hb k' hlt)

theorem beats_append (fs gs : List (Cause × RawPacket)) :
    t.beats (fs ++ gs) = t.beats fs ++ t.beats gs := by
  simp [beats]

theorem beats_singleton {f : Cause × RawPacket} :
    t.beats [f] = if f.2.type = .s2sHeartbeat then [t.roundAt f.1] else [] := by
  by_cases hf : f.2.type = .s2sHeartbeat <;> simp [beats, hf]

/-- Reading a frame off an end takes the oldest heartbeat, or none. -/
theorem flying_deliver (t : Timed) (b : Int) (k : ConnRef) :
    t.flying b k = t.beats (t.cluster.kept (.deliver b k) b k) ∨
      ∃ τ, t.flying b k = τ :: t.beats (t.cluster.kept (.deliver b k) b k) := by
  rw [flying, Cluster.kept, if_pos rfl]
  cases t.cluster.inbox b k with
  | nil => exact Or.inl rfl
  | cons f fs =>
      by_cases hf : f.2.type = .s2sHeartbeat
      · exact Or.inr ⟨t.roundAt f.1, by simp [beats, hf]⟩
      · exact Or.inl (by simp [beats, hf])

/-- The far end of a link is polled. -/
theorem reads_of_linked {c : Cluster} (hc : c.Steady fun _ => True) (h : c.Linked a k b k') :
    (c.server b).reads k' = true := by
  have hback := hc.far_symm h.2.2
  obtain ⟨hb, hne, -⟩ := hc.far_ids hback
  exact reads_eq_true.mpr (Or.inr ⟨a, (hc.peers b hb a).mpr ⟨hc.far_ids' hback, hne.symm⟩, h.2.1⟩)

theorem Kept.acted (h : t.Kept r) (hact : ¬ act.IsRound) (hno : t.cluster.NoHijack act)
    (hn : NeverFails act) (hstep : t.cluster.step act = some c') :
    Kept r { t with cluster := c' } := by
  obtain ⟨x, ps, out, hm⟩ := step_move h.steady.toSound hstep
  have hsteady := hm.steady h.steady (namesRoom_true act) hno hn
  refine ⟨hsteady, fun a ha => ?_, fun {a k b k'} hl => ?_⟩
  · replace ha : a ∈ t.cluster.ids := hm.ids ▸ ha
    cases hm.server a with
    | inl he => exact he ▸ h.clocks a ha
    | inr ht =>
        obtain ⟨ps', o, ht⟩ := ht
        exact (ht.now_eq hact).trans (h.clocks a ha)
  · have hl₀ := hm.linked_of_steady h.steady hno hn hl
    have hb : b ∈ t.cluster.ids := h.steady.far_ids' hl₀.2.2
    have hpaced := h.paced hl₀
    have hinbox := hm.inbox h.steady.toSound hl₀.2.2 hl.1 (reads_of_linked hsteady hl)
    -- what is sent is no heartbeat
    have hflying : Timed.flying { t with cluster := c' } b k' =
        t.beats (t.cluster.kept act b k') := by
      show t.beats (c'.inbox b k') = _
      rw [hinbox, beats_append]
      split
      next hsent =>
        have hps : ps ≠ [] := List.ne_nil_of_mem hsent.2
        rw [beats_singleton, if_neg (hm.turn.not_heartbeat hact hps), List.append_nil]
      next => exact List.append_nil _
    by_cases hread : act = .deliver b k'
    · subst hread
      obtain ⟨rfl, -⟩ := hm.delivery h.steady.toTraffic
      have hrefresh : t.cluster.Refreshes (.deliver x k') x a := ⟨k', hl₀.2.1, rfl⟩
      have hlast : ((c'.server x).connManager.nodes a).lastHeartbeatTime = t.clock := by
        have ht := hm.turn.lastHeartbeatTime h.steady hno hn a
        rw [h.clocks x hb] at ht
        exact (ht.resolve_right fun hnot => hnot.1 hrefresh).2
      show r.Paced t.clock (t.lastRound a) (Timed.flying { t with cluster := c' } x k')
        ((c'.server x).connManager.nodes a).lastHeartbeatTime
      rw [hflying, hlast]
      rcases t.flying_deliver x k' with hsame | ⟨τ, hcons⟩
      · rw [← hsame]
        exact hpaced.refresh
      · rw [hcons] at hpaced
        exact hpaced.hear
    · have hkept : t.cluster.kept act b k' = t.cluster.inbox b k' := by
        rw [Cluster.kept, if_neg hread, if_neg]
        rintro rfl
        exact hn
      have hlast : ((c'.server b).connManager.nodes a).lastHeartbeatTime =
          ((t.cluster.server b).connManager.nodes a).lastHeartbeatTime := by
        cases hm.server b with
        | inl he => rw [he]
        | inr ht =>
            obtain ⟨ps', o, ht⟩ := ht
            refine ((ht.lastHeartbeatTime h.steady hno hn a).resolve_left ?_).2
            rintro ⟨⟨j, hj, hact'⟩, -⟩
            rw [hl₀.2.1] at hj
            cases hj
            exact hread hact'
      show r.Paced t.clock (t.lastRound a) (Timed.flying { t with cluster := c' } b k')
        ((c'.server b).connManager.nodes a).lastHeartbeatTime
      rw [hflying, hkept, hlast]
      exact hpaced

/-- Nobody has been silent for too long. -/
theorem Kept.timely (h : t.Kept r) (hr : r.patience = 15) (ha : a ∈ t.cluster.ids)
    (hp : p ∈ (t.cluster.server a).connManager.getAllPeerNodes) :
    (t.cluster.server a).Timely p := by
  intro _
  obtain ⟨hpin, hne⟩ := (h.steady.peers a ha p).mp hp
  obtain ⟨k, k', hl⟩ := h.steady.meshed p hpin a ha hne
  have hlt := (h.paced hl).lt
  rw [h.clocks a ha]
  omega

/-- The number of a round is new, so the times of the frames on their way are as they were. -/
theorem beats_round {fs : List (Cause × RawPacket)} (hfs : ∀ f ∈ fs, f.1 < t.cluster.seq)
    {roundAt : Cause → Nat} (hround : roundAt = Function.update t.roundAt t.cluster.seq t.clock) :
    (fs.filter fun f => f.2.type = .s2sHeartbeat).map (fun f => roundAt f.1) = t.beats fs := by
  refine List.map_congr_left fun f hf => ?_
  rw [hround, Function.update_of_ne (Nat.ne_of_lt (hfs f (List.mem_filter.mp hf).1))]

theorem Kept.round (h : t.Kept r) (hr : r.patience = 15) (ha : a ∈ t.cluster.ids) :
    Kept r { t with
      cluster := (t.cluster.perform a t.cluster.seq heartbeatRound).tick
      roundAt := Function.update t.roundAt t.cluster.seq t.clock
      lastRound := Function.update t.lastRound a t.clock } := by
  have hstep := step_heartbeat ha fun p hp => h.timely hr ha hp
  obtain ⟨ps, out, hm⟩ := move_heartbeat h.steady.toSound hstep
  generalize (t.cluster.perform a t.cluster.seq heartbeatRound).tick = c' at hm
  have hsteady := hm.steady h.steady (namesRoom_true _) trivial trivial
  have hserver (b : Int) : c'.server b = t.cluster.server b := by
    cases hm.server b with
    | inl he => exact he
    | inr ht =>
        obtain ⟨ps', o, ht⟩ := ht
        generalize c'.server b = s' at ht
        cases ht
        rfl
  refine ⟨hsteady, fun b hb => ?_, fun {d k b k'} hl => ?_⟩
  · replace hb : b ∈ t.cluster.ids := hm.ids ▸ hb
    exact (hserver b).symm ▸ h.clocks b hb
  · have hl₀ := hm.linked_of_steady h.steady trivial trivial hl
    have hpaced := h.paced hl₀
    have hinbox := hm.inbox h.steady.toSound hl₀.2.2 hl.1 (reads_of_linked hsteady hl)
    have htags : ∀ f ∈ t.cluster.inbox b k', f.1 < t.cluster.seq := fun f hf => h.steady.tagged hf
    have hturn : ps = (t.cluster.server a).connManager.getAllPeerNodes ∧
        out.type = .s2sHeartbeat := by
      have ht := hm.turn
      generalize c'.server a = s' at ht
      cases ht
      exact ⟨rfl, rfl⟩
    show r.Paced t.clock (Function.update t.lastRound a t.clock d)
      ((((c'.inbox b k').filter fun f => f.2.type = .s2sHeartbeat)).map fun f =>
        Function.update t.roundAt t.cluster.seq t.clock f.1)
      ((c'.server b).connManager.nodes d).lastHeartbeatTime
    rw [hserver b, hinbox, List.filter_append, List.map_append, Cluster.kept,
      if_neg (fun he => Action.noConfusion he), if_neg (fun he => Action.noConfusion he),
      beats_round htags rfl]
    by_cases hd : a = d
    · subst hd
      have hpeer : b ∈ ps := by
        have hne := (h.steady.far_ids hl₀.2.2).2.1
        rw [hturn.1]
        exact (h.steady.peers a ha b).mpr ⟨h.steady.far_ids' hl₀.2.2, hne.symm⟩
      have hout : ((if a = a ∧ b ∈ ps then [(t.cluster.causeOf (.heartbeat a
          (t.cluster.server a).now), out)] else []).filter fun f => f.2.type = .s2sHeartbeat).map
            (fun f => Function.update t.roundAt t.cluster.seq t.clock f.1) = [t.clock] := by
        rw [if_pos ⟨rfl, hpeer⟩]
        simp [hturn.2, causeOf]
      rw [hout, Function.update_self]
      exact hpaced.give
    · rw [if_neg fun he => hd he.1, Function.update_of_ne (Ne.symm hd)]
      rw [List.filter_nil, List.map_nil, List.append_nil]
      exact hpaced

theorem Kept.next (h : t.Kept r) (hr : r.patience = 15) {tick : Tick} (hc : t.Calm r tick)
    (hn : t.next tick = some t') : t'.Kept r := by
  cases tick with
  | wait now =>
      obtain ⟨hle, ht⟩ := Option.ite_none_right_eq_some.mp hn
      cases ht
      exact h.wait hc hle
  | act act =>
      obtain ⟨hact, ht⟩ := Option.ite_none_left_eq_some.mp hn
      obtain ⟨c', hstep, rfl⟩ := Option.map_eq_some_iff.mp ht
      exact h.acted hact hc.1 hc.2 hstep
  | round a =>
      obtain ⟨ha, ht⟩ := Option.ite_none_right_eq_some.mp hn
      cases ht
      exact h.round hr ha

end

/-! ## Nobody is disconnected -/

/-- The links are up, nothing is on its way, and no server is late or will be before it can be
heard of. -/
structure Begun (r : Pace) (t : Timed) : Prop where
  steady : t.cluster.Steady fun _ => True
  quiet : t.cluster.Quiet
  clocks : ∀ a ∈ t.cluster.ids, (t.cluster.server a).now = t.clock
  punctual : ∀ a ∈ t.cluster.ids, t.clock ≤ t.lastRound a + r.period
  heard : ∀ b ∈ t.cluster.ids, ∀ a ∈ t.cluster.ids,
    ((t.cluster.server b).connManager.nodes a).lastHeartbeatTime ≤ t.clock ∧
      (a ≠ b → t.lastRound a + r.period + r.delay <
        ((t.cluster.server b).connManager.nodes a).lastHeartbeatTime + r.patience)

theorem Begun.kept {r : Pace} {t : Timed} (h : t.Begun r) : t.Kept r where
  steady := h.steady
  clocks := h.clocks
  paced := by
    intro a k b k' hl
    obtain ⟨ha, hne, -⟩ := h.steady.far_ids hl.2.2
    have hb := h.steady.far_ids' hl.2.2
    obtain ⟨hpast, hdue⟩ := h.heard b hb a ha
    have hempty : t.flying b k' = [] := by
      rw [flying, h.quiet.inbox h.steady.toTraffic]
      rfl
    rw [hempty]
    exact Pace.paced_nil hpast (h.punctual a ha) (hdue hne)

/-- A link stays. -/
theorem Kept.linkSocket_next {r : Pace} {t t' : Timed} (h : t.Kept r) (hr : r.patience = 15)
    {tick : Tick} (hc : t.Calm r tick) (hn : t.next tick = some t') (a p : Int) :
    (t'.cluster.server a).connManager.linkSocket p =
      (t.cluster.server a).connManager.linkSocket p := by
  cases tick with
  | wait now =>
      obtain ⟨-, ht⟩ := Option.ite_none_right_eq_some.mp hn
      cases ht
      rfl
  | act act =>
      obtain ⟨-, ht⟩ := Option.ite_none_left_eq_some.mp hn
      obtain ⟨c', hstep, rfl⟩ := Option.map_eq_some_iff.mp ht
      obtain ⟨x, ps, out, hm⟩ := step_move h.steady.toSound hstep
      exact hm.linkSocket_of_steady h.steady hc.1 hc.2 a p
  | round b =>
      obtain ⟨hb, ht⟩ := Option.ite_none_right_eq_some.mp hn
      cases ht
      obtain ⟨ps, out, hm⟩ := move_heartbeat h.steady.toSound
        (step_heartbeat hb fun p hp => h.timely hr hb hp)
      exact hm.linkSocket_of_steady h.steady trivial trivial a p

/-- A round suspects nobody, so it leaves its server as it is. -/
theorem Kept.run_heartbeatRound {r : Pace} {t : Timed} (h : t.Kept r) (hr : r.patience = 15)
    {a : Int} (ha : a ∈ t.cluster.ids) :
    (heartbeatRound.run (t.cluster.server a)).state = t.cluster.server a := by
  have husable := (h.steady.sane a ha).usable
  rw [ChatServer.run_heartbeatRound (linksGood_of_usable husable) fun p hp => h.timely hr ha hp]

/-- **Heartbeats.**  Suppose that every server goes round at least once in a period, that every
heartbeat is read within a delay, and that the two together are less than 15 seconds.  Take a mesh
with nothing on its way, in which no server is late with its round and every link has been heard of
recently enough.  As long as its links do not fail and no client's `S2S_CONNECT` names a peer, it
stays as it is in every state of every run, and no round of a heartbeat loop disconnects a peer. -/
theorem heartbeats_keep_links {period delay : Nat} (hsum : period + delay < 15) {t₀ t u : Timed}
    {ticks : List Tick} (hbegun : t₀.Begun ⟨period, delay, 15, hsum⟩)
    (hcalm : Along next (Calm ⟨period, delay, 15, hsum⟩) t₀ ticks)
    (hrun : exec next t₀ ticks = some t) (hu : Visits next t₀ ticks u) :
    u.cluster.Meshed ∧
      (∀ a p, (u.cluster.server a).connManager.linkSocket p =
        (t₀.cluster.server a).connManager.linkSocket p) ∧
      ∀ a ∈ u.cluster.ids,
        (heartbeatRound.run (u.cluster.server a)).state = u.cluster.server a := by
  have hall : u.Kept ⟨period, delay, 15, hsum⟩ ∧
      ∀ a p, (u.cluster.server a).connManager.linkSocket p =
        (t₀.cluster.server a).connManager.linkSocket p := by
    refine visits_induct (I := fun u => u.Kept ⟨period, delay, 15, hsum⟩ ∧
      ∀ a p, (u.cluster.server a).connManager.linkSocket p =
        (t₀.cluster.server a).connManager.linkSocket p) (fun hI hc hn => ?_)
      ⟨hbegun.kept, fun _ _ => rfl⟩ hcalm hrun hu
    exact ⟨hI.1.next rfl hc hn, fun a p => (hI.1.linkSocket_next rfl hc hn a p).trans (hI.2 a p)⟩
  exact ⟨hall.1.steady.meshed, hall.2, fun a ha => hall.1.run_heartbeatRound rfl ha⟩

/-- Two servers go round every five seconds, and their heartbeats are read nine seconds later. -/
def slowBeats : List Tick :=
  [.wait 5, .round 1, .round 2, .wait 10, .round 1, .round 2, .wait 14, .act (.deliver 1 0),
    .act (.deliver 2 0), .wait 15, .round 1, .round 2]

theorem heartbeats_keep_links_slowBeats :
    ∃ c t, exec Cluster.step (start [1, 2]) handshake = some c ∧
      exec next { cluster := c } slowBeats = some t ∧ t.cluster.Meshed := by
  have hrun : (exec Cluster.step (start [1, 2]) handshake).any fun c =>
      decide (c.Meshed ∧ c.Quiet ∧ (∀ a ∈ c.ids, (c.server a).now = 0) ∧
        (∀ b ∈ c.ids, ∀ a ∈ c.ids, ((c.server b).connManager.nodes a).lastHeartbeatTime = 0) ∧
        Along next (Calm ⟨5, 9, 15, by decide⟩) { cluster := c } slowBeats) &&
      (exec next { cluster := c } slowBeats).isSome := by decide +kernel
  obtain ⟨c, hc, h⟩ := (Option.any_eq_true ..).mp hrun
  obtain ⟨hdec, hsome⟩ := Bool.and_eq_true_iff.mp h
  obtain ⟨hmeshed, hquiet, hclocks, hheard, hcalm⟩ := of_decide_eq_true hdec
  obtain ⟨t, ht⟩ := Option.isSome_iff_exists.mp hsome
  have hready : c.Ready fun _ => True := ready_of_setup (by decide) (by decide) hc hmeshed hquiet
  have hbegun : Begun ⟨5, 9, 15, by decide⟩ { cluster := c } := by
    refine ⟨hready.toSteady, hquiet, hclocks, fun _ _ => Nat.zero_le _, fun b hb a ha => ?_⟩
    rw [hheard b hb a ha]
    exact ⟨Nat.le_refl _, fun _ => (by decide : 0 + 5 + 9 < 0 + 15)⟩
  exact ⟨c, t, hc, ht, (heartbeats_keep_links (by decide) hbegun hcalm ht (.last ht)).1⟩

/-- With a delay of ten seconds the sum is 15, and a round comes before the first heartbeat that
is read in time. -/
example : (exec Cluster.step (start [1, 2]) handshake).any fun c =>
    (exec next { cluster := c }
      [.wait 5, .round 1, .round 2, .wait 10, .round 1, .round 2, .wait 15, .round 2]).any fun t =>
        decide ¬ t.cluster.Meshed := by decide +kernel

end Timed

end DistributedChat
