import DistributedChat.Cluster.Traffic

/-!
# Clusters whose links stay

In a mesh every two servers are connected over one connection, registered on both
sides (`Meshed`).  As long as no link fails and no client claims to be a peer the
links stay as they are (`Steady`).  One lemma says how the frames on any
connection change (`Move.flow`): the writer adds behind what it sends to the
reader, the reader takes from the front what it reads.
-/

namespace DistributedChat

open ChatServer

namespace Cluster

/-! ## The frames on a connection -/

/-- The packets on their way to an end. -/
def packets (c : Cluster) (b : Int) (k : ConnRef) : List RawPacket := (c.inbox b k).map Prod.snd

/-- The packets an action reads on an end. -/
def readBy (c : Cluster) (act : Action) (b : Int) (k : ConnRef) : List RawPacket :=
  if act = .deliver b k then (c.packets b k).take 1 else []

section

variable {c c' : Cluster} {act : Action} {x : Int} {ps : List Int} {out : RawPacket}
  {R : Bytes → Prop} {a b : Int} {k k' : ConnRef}

/-- Only the server at the other end sends to an end. -/
theorem Move.gets_iff (hm : Move c act c' x ps out) (hs : c.Sound) (hfar : c.far a k = some (b, k'))
    (hl : (c'.server a).connManager.linkSocket b = some k)
    (hr : (c'.server b).reads k' = true) : c'.Gets x ps (b, k') ↔ x = a ∧ b ∈ ps := by
  have hs' := hm.sound hs
  have hfar' := hm.far_of_some hs hfar
  constructor
  · intro hg
    obtain ⟨-, p, hp, i, hi, -, hback⟩ := hg.far hs'
    have he := hback.symm.trans (hs'.far_symm hfar')
    obtain ⟨rfl, rfl⟩ := Prod.mk.inj (Option.some.inj he)
    have hok := (hs'.sane x (hs'.far_ids hfar').1).ok
    rw [hok.linkSocket_eq] at hi hl
    exact ⟨rfl, hok.link_inj hi hl ▸ hp⟩
  · intro he
    obtain ⟨rfl, hb⟩ := he
    exact ⟨hr, b, hb, k, hl, hfar'⟩

/-- The frames on their way to an end after a move. -/
theorem Move.inbox (hm : Move c act c' x ps out) (hs : c.Sound) (hfar : c.far a k = some (b, k'))
    (hl : (c'.server a).connManager.linkSocket b = some k)
    (hr : (c'.server b).reads k' = true) :
    c'.inbox b k' = c.kept act b k' ++ if x = a ∧ b ∈ ps then [(c.causeOf act, out)] else [] := by
  have hgets := hm.gets_iff hs hfar hl hr
  split
  next he => exact hm.sent (hgets.mpr he)
  next he => rw [hm.kept (mt hgets.mp he), List.append_nil]

/-- What is sent to an end is added behind, what is read is taken from the front. -/
theorem Move.flow (hm : Move c act c' x ps out) (hs : c.Sound) (hfar : c.far a k = some (b, k'))
    (hl : (c'.server a).connManager.linkSocket b = some k)
    (hr : (c'.server b).reads k' = true) (hh : act ≠ .hang b k') :
    c.packets b k' ++ (if x = a ∧ b ∈ ps then [out] else []) =
      c.readBy act b k' ++ c'.packets b k' := by
  have hkept : c.packets b k' = c.readBy act b k' ++ (c.kept act b k').map Prod.snd := by
    rw [readBy, Cluster.kept, packets, if_neg hh]
    split
    · rw [← List.map_take, ← List.map_append, ← List.drop_one, List.take_append_drop]
    · rfl
  rw [hkept, packets, hm.inbox hs hfar hl hr, List.map_append, List.append_assoc]
  split <;> rfl

/-! ## The mesh -/

/-- Two servers are connected over one connection, registered on both sides. -/
def Linked (c : Cluster) (a : Int) (k : ConnRef) (b : Int) (k' : ConnRef) : Prop :=
  (c.server a).connManager.linkSocket b = some k ∧
    (c.server b).connManager.linkSocket a = some k' ∧ c.far a k = some (b, k')

/-- Every two servers are connected. -/
def Meshed (c : Cluster) : Prop :=
  ∀ a ∈ c.ids, ∀ b ∈ c.ids, a ≠ b → ∃ k k', c.Linked a k b k'

instance (c : Cluster) : Decidable c.Meshed :=
  have (a b : Int) : Decidable (∃ k k', c.Linked a k b k') :=
    decidable_of_iff (((c.server a).connManager.linkSocket b).any fun k =>
        ((c.server b).connManager.linkSocket a).any fun k' => c.far a k == some (b, k'))
      (by simp [Option.any_eq_true, Linked])
  inferInstanceAs (Decidable (∀ a ∈ c.ids, ∀ b ∈ c.ids, a ≠ b → ∃ k k', c.Linked a k b k'))

/-- No frame is on its way between servers. -/
def Quiet (c : Cluster) : Prop :=
  ∀ b ∈ c.ids, ∀ k < (c.server b).connManager.nextConn, c.inbox b k = []

instance (c : Cluster) : Decidable c.Quiet :=
  inferInstanceAs (Decidable (∀ b ∈ c.ids, ∀ k < (c.server b).connManager.nextConn, _))

theorem Quiet.inbox (hq : c.Quiet) (hc : c.Traffic R) (b : Int) (k : ConnRef) :
    c.inbox b k = [] := by
  cases hfar : c.far b k with
  | none => exact hc.dry hfar
  | some stop =>
      obtain ⟨hb, -, hlt⟩ := hc.far_ids hfar
      exact hq b hb k hlt

/-- The cluster is a mesh and frames are on their way over links only. -/
structure Steady (R : Bytes → Prop) (c : Cluster) : Prop extends Traffic R c where
  meshed : c.Meshed
  loose : ∀ {b k}, (∀ a, (c.server b).connManager.linkSocket a ≠ some k) → c.inbox b k = []

theorem Steady.linksTrue (hc : c.Steady R) : c.LinksTrue := by
  intro a p k ha hp hk
  obtain ⟨hpin, hne⟩ := (hc.peers a ha p).mp hp
  obtain ⟨j, j', hj, -, hfar⟩ := hc.meshed a ha p hpin hne.symm
  rw [hk] at hj
  cases hj
  exact ⟨j', hfar⟩

/-- The action is not a failure of a link. -/
def NeverFails (act : Action) : Prop :=
  match act with
  | .hang _ _ => False
  | _ => True

instance (act : Action) : Decidable (NeverFails act) :=
  match act with
  | .hang _ _ => instDecidableFalse
  | .client _ _ | .heartbeat _ _ | .deliver _ _ | .dial _ _ _ _ => instDecidableTrue

/-- In a mesh no action changes a link. -/
theorem Turn.socket_of_steady (hc : c.Steady R) (hno : c.NoHijack act) (hn : NeverFails act)
    {s' : ChatServer} (ht : Turn c act x s' ps out) (p : Int) :
    (s'.connManager.nodes p).socket = ((c.server x).connManager.nodes p).socket := by
  have hx := ht.mem hc.toSound
  have hok := (hc.sane x hx).ok
  -- all peers are connected, so no connector dials
  have hdial : ∀ {a b h h'}, act ≠ .dial a b h h' := by
    intro a b h h' he
    subst he
    obtain ⟨ha, hb, hne⟩ := ht.ne_of_dial
    have hdown := ht.not_connected
    obtain ⟨k, -, hk, -⟩ := hc.meshed a ha b hb hne
    rw [ConnectionManager.linkSocket, hdown] at hk
    cases hk
  cases ht with
  | connect => rfl
  | packet ha hfar hr =>
      cases hr with
      | session hk hs => rw [hs.nodes hno]
      | peer hp hl => exact socket_received ..
  | disconnect ha hfar hf =>
      cases hf with
      | newSession =>
          rw [removed, onConn_connManager, ConnectionManager.nodes_removeSession]
      | session =>
          rw [removed, onConn_connManager, ConnectionManager.nodes_removeSession]
          rfl
      | peer hp hl =>
          -- the socket of a link is not a client's
          obtain ⟨j, hj⟩ := hc.linksTrue ha hp hl
          rw [hfar] at hj
          cases hj
  | heartbeat => rfl
  | @deliver b a k j cause pkt out rest s' ps hfar hin hr =>
      have hpkt : Honest R a pkt := hc.honest (f := (cause, pkt)) hfar (hin ▸ List.mem_cons_self ..)
      cases Reads.frame hc.toTraffic hfar hpkt hr with
      | ignored => rfl
      | handshake hk ht hself hp =>
          -- frames are on their way over links only, and a link is no session
          have hempty := hc.loose (b := _) (k := k) fun q hq => by
            rw [hok.linkSocket_eq] at hq
            exact hok.link_dead hq hk
          rw [hin] at hempty
          cases hempty
      | peer hp hl => exact socket_received ..
  | dial => exact absurd rfl hdial
  | accept => exact absurd rfl hdial
  | hang => exact hn.elim

theorem Move.linkSocket_of_steady (hm : Move c act c' x ps out) (hc : c.Steady R)
    (hno : c.NoHijack act) (hn : NeverFails act) (a p : Int) :
    (c'.server a).connManager.linkSocket p = (c.server a).connManager.linkSocket p := by
  cases hm.server a with
  | inl he => rw [he]
  | inr ht =>
      obtain ⟨ps', o, ht⟩ := ht
      have hx := ht.mem hc.toSound
      rw [(ht.sane hc.toSound).ok.linkSocket_eq, (hc.sane a hx).ok.linkSocket_eq]
      exact ht.socket_of_steady hc hno hn p

/-- A link was there before, with the same ends. -/
theorem Move.linked_of_steady (hm : Move c act c' x ps out) (hc : c.Steady R)
    (hno : c.NoHijack act) (hn : NeverFails act) (h : c'.Linked a k b k') : c.Linked a k b k' := by
  obtain ⟨hl, hr, hfar⟩ := h
  rw [hm.linkSocket_of_steady hc hno hn] at hl hr
  refine ⟨hl, hr, ?_⟩
  rcases hm.far_cases hfar with hfar | ⟨h, h', rfl, -, -⟩
  · exact hfar
  · have ha : a ∈ c.ids := hm.ids ▸ ((hm.sound hc.toSound).far_ids hfar).1
    have hok := (hc.sane a ha).ok
    rw [hok.linkSocket_eq] at hl
    exact absurd (hok.link_lt hl) (Nat.lt_irrefl _)

/-- A mesh whose links do not fail stays one. -/
theorem Move.steady (hm : Move c act c' x ps out) (hc : c.Steady R) (hR : NamesRoom R act)
    (hno : c.NoHijack act) (hn : NeverFails act) : c'.Steady R := by
  have hsame := hm.linkSocket_of_steady hc hno hn
  have htraffic := hm.traffic hc.toTraffic hR
  have hmeshed : c'.Meshed := by
    intro a ha b hb hne
    rw [hm.ids] at ha hb
    obtain ⟨k, k', hk, hk', hfar⟩ := hc.meshed a ha b hb hne
    exact ⟨k, k', (hsame a b).trans hk, (hsame b a).trans hk', hm.far_of_some hc.toSound hfar⟩
  refine ⟨htraffic, hmeshed, ?_⟩
  · intro b k hk
    have hnot : ¬ c'.Gets x ps (b, k) := by
      intro hg
      obtain ⟨-, p, hp, i, hi, hfar, -⟩ := hg.far htraffic.toSound
      have hx := hm.turn.mem hc.toSound
      obtain ⟨hpin, hne⟩ := (hc.peers x hx p).mp (hm.turn.targets hc.toSound p hp)
      obtain ⟨j, j', hj, hj', hfar'⟩ := hmeshed x (hm.ids ▸ hx) p (hm.ids ▸ hpin) hne.symm
      rw [hi] at hj
      cases hj
      rw [hfar] at hfar'
      cases hfar'
      exact hk x hj'
    have hempty := hc.loose (b := b) (k := k) fun a => hsame b a ▸ hk a
    rw [hm.kept hnot]
    exact List.eq_nil_of_subset_nil (hempty ▸ kept_subset)

end

end Cluster

end DistributedChat
