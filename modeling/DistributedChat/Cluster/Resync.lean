import DistributedChat.Cluster.Rooms
import DistributedChat.Cluster.Topics
import DistributedChat.Server.Promotions

/-!
# Links that are lost and come back

Servers tell each other of changes only.  A handshake registers a link and says
nothing of the users who are logged in or of the rooms that have members.  So
over a link a server knows of its peer what has come up there since the peer
registered the link (`resynced`), and what was there before stays unknown
(`not_resynced`).

A server that has lost a link knows nothing of the peer (`Topic.Tracked`).  From
the moment the peer registers the new link, the copy and the frames on their way
behind the handshake mirror what comes up at the peer (`Topic.Follows`).
-/

namespace DistributedChat

open ChatServer Mirror

namespace Cluster

/-- A frame of another server is read on a session only while no link to that server is
registered, so the loss of its last link has been noticed. -/
def Noticed (c : Cluster) : Action → Prop
  | .deliver b k => (c.server b).connManager.Live k → ∀ a ∈ (c.far b k).map Prod.fst,
      (c.server b).connManager.linkSocket a = none
  | _ => True

instance (c : Cluster) (act : Action) : Decidable (c.Noticed act) :=
  match act with
  | .deliver b k => inferInstanceAs (Decidable ((c.server b).connManager.Live k →
      ∀ a ∈ (c.far b k).map Prod.fst, (c.server b).connManager.linkSocket a = none))
  | .client _ _ | .heartbeat _ _ | .hang _ _ | .dial _ _ _ _ => instDecidableTrue

/-- At the end of a run `P` holds of server `a`, and at some moment since it registered its
link `k` to server `b` it did not. -/
def CameUp (P : ChatServer → Prop) (c₀ : Cluster) (as : List Action) (c : Cluster) (a b : Int)
    (k : ConnRef) : Prop :=
  P (c.server a) ∧ Since step (fun d => (d.server a).connManager.linkSocket b = some k)
    (fun d => ¬ P (d.server a)) c₀ as

section

variable {c c' : Cluster} {act : Action} {x : Int} {ps : List Int} {out : RawPacket}
  {R : Bytes → Prop} {a b : Int} {k k' j : ConnRef}

/-- A connection over an old socket was there before. -/
theorem Move.far_of_lt (hm : Move c act c' x ps out) (hfar : c'.far a k = some (b, k'))
    (hlt : k < (c.server a).connManager.nextConn) : c.far a k = some (b, k') := by
  rcases hm.far_cases hfar with hfar | ⟨-, -, rfl, -⟩
  · exact hfar
  · exact absurd hlt (Nat.lt_irrefl _)

/-- The connector's handshake is put on its way. -/
theorem Move.dial {h h' : SOCKET} (hm : Move c (.dial a b h h') c' x ps out) :
    x = a ∧ ps = [b] ∧ out = ⟨.s2sConnect, toString a⟩ := by
  have ht := hm.turn
  generalize c'.server x = s' at ht
  cases ht with
  | dial => exact ⟨rfl, rfl, rfl⟩
  | accept ha hb hne =>
      exfalso
      rcases hm.others a hne with he | ⟨o, ht⟩
      · have hnext := nextConn_dialed (c.server a) x h
        rw [← (hm.dialed rfl).1, he] at hnext
        exact Nat.succ_ne_self _ hnext.symm
      · generalize c'.server a = s' at ht
        cases ht with
        | accept _ _ hne => exact hne rfl

/-- A session on which reading fails is gone. -/
theorem Move.not_live_of_hang (hm : Move c (.hang b k) c' x ps out) (hs : c.Sound)
    (hk : (c.server b).connManager.Live k) : ¬ (c'.server b).connManager.Live k := by
  have ht := hm.turn
  have hx := ht.mem hs
  generalize hs' : c'.server x = s' at ht
  cases ht with
  | hang hfar hf =>
      have hok := (hs.sane _ hx).ok
      rw [hs']
      cases hf with
      | newSession | session => exact fun hj => ((hok.live_removeSession hk).mp hj).2 rfl
      | peer hp hl =>
          rw [hok.linkSocket_eq] at hl
          exact absurd hk (hok.link_dead hl)

/-- A session that reads a handshake becomes a link. -/
theorem not_live_of_connect {rest : List RawPacket} (hc : c.Traffic R)
    (hstep : c.step (.deliver b k) = some c') (hfar : c.far b k = some (a, j))
    (hk : (c.server b).connManager.Live k)
    (hin : c.packets b k = ⟨.s2sConnect, toString a⟩ :: rest) :
    ¬ (c'.server b).connManager.Live k := by
  have hok := (hc.sane b (hc.far_ids hfar).1).ok
  cases hbox : c.inbox b k with
  | nil =>
      rw [packets, hbox] at hin
      cases hin
  | cons f fs =>
      obtain ⟨cause, pkt⟩ := f
      rw [packets, hbox, List.map_cons] at hin
      obtain ⟨rfl, -⟩ := List.cons.inj hin
      simp only [step, hfar, hbox] at hstep
      split at hstep
      · cases hstep
        intro hlive
        have hstate : ((readPacket k ⟨.s2sConnect, toString a⟩).run (c.server b)).state =
            (c.server b).promoted k a := by
          rw [run_readPacket_of_live hk, run_handleClientPacket_s2sConnect,
            stoi_toString (hc.isInt a (hc.far_ids' hfar))]
        change (Function.update c.server b
          ((readPacket k ⟨.s2sConnect, toString a⟩).run (c.server b)).state b).connManager.Live k
          at hlive
        rw [Function.update_self, hstate] at hlive
        exact ((live_promoted hok hk).mp hlive).2 rfl
      · cases hstep

end

end Cluster

namespace Topic

open Cluster

/-- Links and copies before the handshake is complete. -/
structure Tracked (t : Topic) (c : Cluster) : Prop where
  /-- Nothing is on its way from a session. -/
  silent : ∀ {a k b k'}, c.far a k = some (b, k') → (c.server a).connManager.Live k →
    c.inbox b k' = []
  /-- Nothing is known of a peer without link. -/
  unknown : ∀ b ∈ c.ids, ∀ {a}, a ≠ b → (c.server b).connManager.linkSocket a = none →
    ∀ u, ¬ t.copy (c.server b) a u
  /-- Nothing is known of a peer that has not registered the link. -/
  unheard : ∀ {a k b k'}, c.far a k = some (b, k') → (c.server a).connManager.Live k →
    (c.server b).connManager.linkSocket a = some k' → ∀ u, ¬ t.copy (c.server b) a u

/-- The part of a server's set that has come up since it registered its link `k` to `b`. -/
def Recent (t : Topic) (c₀ : Cluster) (as : List Action) (c : Cluster) (a b : Int) (k : ConnRef)
    (u : Bytes) : Prop :=
  CameUp (fun s => t.own s u) c₀ as c a b k

/-- Copies mirror what is recent, from the moment the handshake is on its way. -/
structure Follows (t : Topic) (c₀ : Cluster) (as : List Action) (c : Cluster) : Prop where
  linked : ∀ {a k b k'}, c.Linked a k b k' →
    settle t.read (c.packets b k') (t.copy (c.server b) a) = t.Recent c₀ as c a b k
  pending : ∀ {a k b k'}, c.far a k = some (b, k') →
    (c.server a).connManager.linkSocket b = some k → (c.server b).connManager.Live k' →
      ∃ rest, c.packets b k' = ⟨.s2sConnect, toString a⟩ :: rest ∧
        settle t.read rest (fun _ => False) = t.Recent c₀ as c a b k

section

variable {t : Topic} {R : Bytes → Prop} {c₀ c c' : Cluster} {as : List Action} {act : Action}
  {x : Int} {ps : List Int} {out : RawPacket} {a b : Int} {k k' : ConnRef}

/-- What is recent changes as the server announces. -/
theorem recent_step {ps' : List Int} {o : RawPacket} (hrun : exec step c₀ as = some c)
    (hstep : c.step act = some c') (hob : t.Obeyed c act a (c'.server a) ps' o)
    (hb : b ∈ (c.server a).connManager.peerNodes)
    (hl : (c.server a).connManager.linkSocket b = some k)
    (hl' : (c'.server a).connManager.linkSocket b = some k) :
    t.Recent c₀ (as ++ [act]) c' a b k =
      settle t.read (if b ∈ ps' then [o] else []) (t.Recent c₀ as c a b k) := by
  -- what the server does not have now has not been there all the time
  have hnow : ∀ u, ¬ t.own (c.server a) u → Since step
      (fun d => (d.server a).connManager.linkSocket b = some k) (fun d => ¬ t.own (d.server a) u)
      c₀ as :=
    fun u hu => .of_last hrun hl hu
  have hsettle := settle_ite_and (S := t.own (c.server a)) (m := o) (p := b ∈ ps')
    (Q := fun u => Since step (fun d => (d.server a).connManager.linkSocket b = some k)
      (fun d => ¬ t.own (d.server a) u) c₀ as)
    fun hmem u hread => hnow u (hob.new (List.ne_nil_of_mem hmem) u hread)
  refine Eq.trans ?_ hsettle.symm
  rw [← hob.own b hb]
  funext u
  rw [Recent, CameUp, since_append_singleton hrun hstep]
  refine propext (and_congr_right fun hu => ?_)
  exact ⟨fun h => h.2.resolve_right fun hnot => hnot hu, fun h => ⟨hl', Or.inl h⟩⟩

/-- Nothing is recent when the link is registered. -/
theorem recent_new (hrun : exec step c₀ as = some c) (hstep : c.step act = some c')
    (hl : (c.server a).connManager.linkSocket b ≠ some k) :
    t.Recent c₀ (as ++ [act]) c' a b k = fun _ => False := by
  funext u
  rw [Recent, CameUp, since_append_singleton hrun hstep]
  refine propext (iff_false_intro fun h => ?_)
  rcases h.2.2 with hsince | hnot
  · exact hl (hsince.last hrun)
  · exact hnot h.1

/-- Server `b` reads the handshake: what is behind it is what is recent, and its copy is empty. -/
theorem settle_of_reader (hrun : exec step c₀ as = some c)
    (hstep : c.step (.deliver b k') = some c')
    (hm : Move c (.deliver b k') c' x [] out) (hc : c.Traffic R) (htr : t.Tracked c)
    (hk : t.Kept c (.deliver b k') c' x [] out) (hnot : c.Noticed (.deliver b k'))
    (h : t.Follows c₀ as c) (hfar : c.far a k = some (b, k'))
    (hlive : (c.server b).connManager.Live k') (hreads : (c'.server b).reads k' = true)
    (hl : (c.server a).connManager.linkSocket b = some k)
    (hl' : (c'.server a).connManager.linkSocket b = some k) :
    settle t.read (c'.packets b k') (t.copy (c'.server b) a) =
      t.Recent c₀ (as ++ [.deliver b k']) c' a b k := by
  obtain ⟨ha, hne, -⟩ := hc.far_ids hfar
  have hb := hc.far_ids' hfar
  obtain ⟨psa, oa, hoba, hsent⟩ := hk a ha
  obtain ⟨psb, ob, hobb, -⟩ := hk b hb
  obtain ⟨rest, hpackets, hrest⟩ := h.pending hfar hl hlive
  have hflow := hm.flow hc.toSound hfar hl' hreads fun he => Action.noConfusion he
  rw [if_neg fun he => absurd he.2 List.not_mem_nil, List.append_nil, readBy, if_pos rfl,
    hpackets] at hflow
  have hrest' : c'.packets b k' = rest := (List.tail_eq_of_cons_eq hflow).symm
  -- the loss of the last link has emptied the copy
  have hdown := hnot hlive a (by rw [hc.far_symm hfar]; exact rfl)
  have hcopy : t.copy (c'.server b) a = fun _ => False := by
    funext u
    exact propext (iff_false_intro fun hu =>
      htr.unknown b hb hne hdown u (hobb.unlinked hne hdown u hu))
  have hmute : (if b ∈ psa then [oa] else []) = [] := by
    rw [← hsent b, if_neg fun he => absurd he.2 List.not_mem_nil]
  have hpeer : b ∈ (c.server a).connManager.peerNodes := (hc.peers a ha b).mpr ⟨hb, hne.symm⟩
  rw [recent_step hrun hstep hoba hpeer hl hl', hmute, settle_nil, hrest', hcopy, hrest]

/-- Server `a` reads the handshake: nothing is recent yet, and nothing has been sent. -/
theorem settle_of_writer (hrun : exec step c₀ as = some c) (hstep : c.step (.deliver a k) = some c')
    (hm : Move c (.deliver a k) c' x [] out) (hc : c.Traffic R) (htr : t.Tracked c)
    (hfar : c.far a k = some (b, k')) (hlive : (c.server a).connManager.Live k)
    (hreads : (c'.server b).reads k' = true)
    (hl' : (c'.server a).connManager.linkSocket b = some k)
    (hr' : (c'.server b).connManager.linkSocket a = some k') :
    settle t.read (c'.packets b k') (t.copy (c'.server b) a) =
      t.Recent c₀ (as ++ [.deliver a k]) c' a b k := by
  obtain ⟨ha, hne, -⟩ := hc.far_ids hfar
  have hok := (hc.sane a ha).ok
  obtain ⟨-, hothers, -⟩ := hm.delivery hc
  have hold : (c.server a).connManager.linkSocket b ≠ some k := by
    intro hl
    rw [hok.linkSocket_eq] at hl
    exact hok.link_dead hl hlive
  have hflow := hm.flow hc.toSound hfar hl' hreads fun he => Action.noConfusion he
  have hempty : c.packets b k' = [] := by rw [packets, htr.silent hfar hlive, List.map_nil]
  rw [if_neg fun he => absurd he.2 List.not_mem_nil, List.append_nil, hempty] at hflow
  have hempty' : c'.packets b k' = [] := (List.append_eq_nil_iff.mp hflow.symm).2
  have hcopy : t.copy (c'.server b) a = fun _ => False := by
    rw [hothers b hne.symm] at hr' ⊢
    funext u
    exact propext (iff_false_intro (htr.unheard hfar hlive hr' u))
  rw [recent_new hrun hstep hold, hempty', settle_nil, hcopy]

/-- The copy of a server that has its link mirrors what is recent. -/
theorem linked_step (hrun : exec step c₀ as = some c) (hstep : c.step act = some c')
    (hm : Move c act c' x ps out) (hc : c.Traffic R) (htr : t.Tracked c)
    (hk : t.Kept c act c' x ps out) (hno : c.NoHijack act) (hnot : c.Noticed act)
    (h : t.Follows c₀ as c) (hlinked : c'.Linked a k b k') :
    settle t.read (c'.packets b k') (t.copy (c'.server b) a) =
      t.Recent c₀ (as ++ [act]) c' a b k := by
  obtain ⟨hl', hr', hfar'⟩ := hlinked
  have hs' := hm.sound hc.toSound
  obtain ⟨ha, hne, -⟩ := hs'.far_ids hfar'
  have hb := hs'.far_ids' hfar'
  rw [hm.ids] at ha hb
  have hoka := (hc.sane a ha).ok
  have hokb := (hc.sane b hb).ok
  have hreads : (c'.server b).reads k' = true := by
    refine reads_eq_true.mpr (Or.inr ⟨a, ?_, hr'⟩)
    rw [(hm.keeps b).peers, hc.peers b hb]
    exact ⟨ha, hne⟩
  rcases hm.linkSocket hc hno hl' with hl | ⟨rfl, hlive, rfl, -⟩ | ⟨i, i', rfl, rfl⟩
  · -- server `a` had registered the link
    have hfar := hm.far_of_lt hfar' (hoka.link_lt (hoka.linkSocket_eq b ▸ hl))
    rcases hm.linkSocket hc hno hr' with hr | ⟨rfl, hlive, rfl, -⟩ | ⟨i, i', rfl, rfl⟩
    · -- and so had server `b`
      obtain ⟨psa, oa, hoba, hsent⟩ := hk a ha
      obtain ⟨psb, ob, hobb, -⟩ := hk b hb
      have hpeer := (hc.peers a ha b).mpr ⟨hb, hne.symm⟩
      have hflow := hm.flow_of_link hc.toSound hfar hl' hr hr'
      rw [hsent b] at hflow
      exact settle_step hflow (recent_step hrun hstep hoba hpeer hl hl') (hobb.copy hne hr hr')
        (h.linked ⟨hl, hr, hfar⟩)
    · exact settle_of_reader hrun hstep hm hc htr hk hnot h hfar hlive hreads hl hl'
    · exact absurd (hc.far_ids (hc.far_symm hfar)).2.2 (Nat.lt_irrefl _)
  · have hfar := hm.far_of_lt hfar' (hoka.live_lt hlive)
    exact settle_of_writer hrun hstep hm hc htr hfar hlive hreads hl' hr'
  · -- the connector of `a` dials, and `b` has not registered the link yet
    exfalso
    obtain hfar | ⟨-, -, -, hk', -⟩ := hm.far_cases hfar'
    · exact Nat.lt_irrefl _ (hc.far_ids hfar).2.2
    · subst hk'
      rcases hm.linkSocket hc hno hr' with hr | ⟨he, -⟩ | ⟨j, j', he, -⟩
      · rw [hokb.linkSocket_eq] at hr
        exact Nat.lt_irrefl _ (hokb.link_lt hr)
      · cases he
      · cases he
        exact hne rfl

/-- The connector of `a` dials: the handshake is all that is on its way, and nothing is recent. -/
theorem packets_of_dial {h h' : SOCKET} (hm : Move c (.dial a b h h') c' x ps out)
    (hc : c.Traffic R) (hfar' : c'.far a (c.server a).connManager.nextConn = some (b, k'))
    (hl' : (c'.server a).connManager.linkSocket b = some (c.server a).connManager.nextConn)
    (hreads : (c'.server b).reads k' = true) :
    c'.packets b k' = [⟨.s2sConnect, toString a⟩] := by
  obtain ⟨rfl, rfl, rfl⟩ := hm.dial
  have hnone : c.far b k' = none := by
    rcases hm.far_before hc.toSound ((hm.sound hc.toSound).far_symm hfar') with hback | hback
    · exact hback
    · exact absurd (hc.far_ids (hc.far_symm hback)).2.2 (Nat.lt_irrefl _)
  have hempty : c.kept (.dial x b h h') b k' = [] :=
    List.eq_nil_of_subset_nil (hc.dry hnone ▸ kept_subset)
  have hgets : c'.Gets x [b] (b, k') := ⟨hreads, b, List.mem_singleton_self b, _, hl', hfar'⟩
  have hinbox := hm.sent hgets
  rw [hempty, List.nil_append] at hinbox
  rw [packets, hinbox]
  rfl

/-- What is behind a handshake on its way is what is recent. -/
theorem pending_step (hrun : exec step c₀ as = some c) (hstep : c.step act = some c')
    (hm : Move c act c' x ps out) (hc : c.Traffic R) (htr : t.Tracked c)
    (hk : t.Kept c act c' x ps out) (hno : c.NoHijack act) (h : t.Follows c₀ as c)
    (hfar' : c'.far a k = some (b, k')) (hl' : (c'.server a).connManager.linkSocket b = some k)
    (hlive' : (c'.server b).connManager.Live k') :
    ∃ rest, c'.packets b k' = ⟨.s2sConnect, toString a⟩ :: rest ∧
      settle t.read rest (fun _ => False) = t.Recent c₀ (as ++ [act]) c' a b k := by
  have hs' := hm.sound hc.toSound
  obtain ⟨ha, hne, -⟩ := hs'.far_ids hfar'
  have hb := hs'.far_ids' hfar'
  rw [hm.ids] at ha hb
  have hoka := (hc.sane a ha).ok
  have hreads : (c'.server b).reads k' = true := reads_eq_true.mpr (Or.inl hlive')
  rcases hm.linkSocket hc hno hl' with hl | ⟨rfl, hlive, -, -⟩ | ⟨i, i', rfl, rfl⟩
  · -- server `a` had registered the link, and `b` reads none of it in this action
    have hfar := hm.far_of_lt hfar' (hoka.link_lt (hoka.linkSocket_eq b ▸ hl))
    have hback := hc.far_symm hfar
    have hlive := hm.live hc.toSound (hc.far_ids hback).2.2 hlive'
    obtain ⟨rest, hpackets, hrest⟩ := h.pending hfar hl hlive
    have hread : act ≠ .deliver b k' := by
      rintro rfl
      exact not_live_of_connect hc hstep hback hlive hpackets hlive'
    have hhang : act ≠ .hang b k' := by
      rintro rfl
      exact hm.not_live_of_hang hc.toSound hlive hlive'
    have hpeer := (hc.peers a ha b).mpr ⟨hb, hne.symm⟩
    have hflow := hm.flow hc.toSound hfar hl' hreads hhang
    obtain ⟨psa, oa, hoba, hsent⟩ := hk a ha
    rw [readBy_of_ne hread, List.nil_append, hpackets, hsent b] at hflow
    refine ⟨rest ++ if b ∈ psa then [oa] else [], hflow.symm, ?_⟩
    rw [settle_append, hrest, recent_step hrun hstep hoba hpeer hl hl']
  · -- `a` reads a handshake that `b` has not sent, its end being a session
    exfalso
    have hfar := hm.far_of_lt hfar' (hoka.live_lt hlive)
    obtain ⟨-, hothers, i, j, cause, pkt, rest, -, hin, -⟩ := hm.delivery hc
    rw [hothers b hne.symm] at hlive'
    rw [htr.silent (hc.far_symm hfar) hlive'] at hin
    cases hin
  · -- the connector of `a` dials
    have hold : (c.server a).connManager.linkSocket b ≠
        some (c.server a).connManager.nextConn := by
      intro hl
      rw [hoka.linkSocket_eq] at hl
      exact Nat.lt_irrefl _ (hoka.link_lt hl)
    exact ⟨[], packets_of_dial hm hc hfar' hl' hreads, (recent_new hrun hstep hold).symm⟩

/-- Every action keeps the copies in order as long as losses are noticed. -/
theorem Tracked.step (hm : Move c act c' x ps out) (hc : c.Traffic R) (htr : t.Tracked c)
    (hk : t.Kept c act c' x ps out) (hno : c.NoHijack act) (hnot : c.Noticed act) :
    t.Tracked c' := by
  have hs' := hm.sound hc.toSound
  -- who had no copy before the link is registered has none after
  have hnone : ∀ b ∈ c.ids, ∀ {a}, a ≠ b → (c.server b).connManager.linkSocket a = none →
      ∀ u, ¬ t.copy (c'.server b) a u := by
    intro b hb a hne hdown u hu
    obtain ⟨psb, ob, hobb, -⟩ := hk b hb
    exact htr.unknown b hb hne hdown u (hobb.unlinked hne hdown u hu)
  refine ⟨?_, ?_, ?_⟩
  · intro a k b k' hfar' hlive'
    have hok' := (hs'.sane a (hs'.far_ids hfar').1).ok
    have hnot : ¬ c'.Gets x ps (b, k') := by
      intro hg
      obtain ⟨-, p, -, i, hi, -, hback⟩ := hg.far hs'
      have he := hback.symm.trans (hs'.far_symm hfar')
      cases he
      rw [hok'.linkSocket_eq] at hi
      exact hok'.link_dead hi hlive'
    have hempty : c.inbox b k' = [] := by
      rcases hm.far_before hc.toSound (hs'.far_symm hfar') with hback | hback
      · exact hc.dry hback
      · have hfar := hc.far_symm hback
        exact htr.silent hfar (hm.live hc.toSound (hc.far_ids hfar).2.2 hlive')
    rw [hm.kept hnot]
    exact List.eq_nil_of_subset_nil (hempty ▸ kept_subset)
  · intro b hb a hne hdown'
    rw [hm.ids] at hb
    cases hdown : (c.server b).connManager.linkSocket a with
    | none => exact hnone b hb hne hdown
    | some j =>
        -- the link has just been lost
        rcases hm.server b with he | ⟨ps', o, ht⟩
        · rw [he, hdown] at hdown'
          cases hdown'
        · rw [ht.eq_purgePeer hc hno hdown hdown']
          exact t.not_copy_purgePeer _ a
  · intro a k b k' hfar' hlive' hr'
    obtain ⟨ha, hne, -⟩ := hs'.far_ids hfar'
    have hb := hs'.far_ids' hfar'
    rw [hm.ids] at ha hb
    have hokb := (hc.sane b hb).ok
    rcases hm.linkSocket hc hno hr' with hr | ⟨rfl, hlive, -, i, hi⟩ | ⟨i, i', rfl, -⟩
    · have hfar := hc.far_symm (hm.far_of_lt (hs'.far_symm hfar')
        (hokb.link_lt (hokb.linkSocket_eq a ▸ hr)))
      have hlive := hm.live hc.toSound (hc.far_ids hfar).2.2 hlive'
      obtain ⟨psb, ob, hobb, -⟩ := hk b hb
      have hcopy := hobb.copy hne hr hr'
      have hnothing : c.readBy act b k' = [] := by
        rw [readBy, packets, htr.silent hfar hlive]
        exact ite_self _
      rw [hnothing, settle_nil] at hcopy
      rw [hcopy]
      exact htr.unheard hfar hlive hr
    · exact hnone b hb hne (hnot hlive a (by rw [hi]; exact rfl))
    · have hdown := hm.turn.not_connected
      refine hnone b hb hne ?_
      rw [ConnectionManager.linkSocket, hdown]
      rfl

theorem Follows.step (hrun : exec step c₀ as = some c) (hstep : c.step act = some c')
    (hm : Move c act c' x ps out) (hc : c.Traffic R) (htr : t.Tracked c)
    (hk : t.Kept c act c' x ps out) (hno : c.NoHijack act) (hnot : c.Noticed act) (h : t.Follows c₀ as c) :
    t.Follows c₀ (as ++ [act]) c' :=
  ⟨linked_step hrun hstep hm hc htr hk hno hnot h, pending_step hrun hstep hm hc htr hk hno h⟩

end

/-! ## Runs -/

section

variable {t : Topic} {ids : List Int}

theorem tracked_start (hcopy : ∀ b ∈ ids, ∀ a u, ¬ t.copy ((start ids).server b) a u) :
    t.Tracked (start ids) where
  silent := fun hfar => Option.noConfusion rfl (heq_of_eq hfar)
  unknown := fun b hb a _ _ => hcopy b hb a
  unheard := fun hfar => Option.noConfusion rfl (heq_of_eq hfar)

theorem Follows.start (t : Topic) (ids : List Int) : t.Follows (start ids) [] (start ids) where
  linked := fun hlinked => Option.noConfusion rfl (heq_of_eq hlinked.2.2)
  pending := fun hfar => Option.noConfusion rfl (heq_of_eq hfar)

/-- With nothing on its way the copies are what is recent. -/
theorem Follows.copy_iff {R : Bytes → Prop} {c₀ c : Cluster} {as : List Action} {a b : Int}
    {k k' : ConnRef} (h : t.Follows c₀ as c) (hc : c.Traffic R) (hlinked : c.Linked a k b k')
    (hq : c.Quiet) (u : Bytes) : t.copy (c.server b) a u ↔ t.Recent c₀ as c a b k u := by
  have hmirror := h.linked hlinked
  rw [packets, hq.inbox hc, List.map_nil, settle_nil] at hmirror
  rw [hmirror]

end

end Topic

namespace Cluster

section

variable {c c' : Cluster} {act : Action} {x : Int} {ps : List Int} {out : RawPacket}
  {R : Bytes → Prop} {home : Bytes → Int} {a b : Int} {k : ConnRef}

/-- Properties that agree on server `a` all along the run come up together. -/
theorem cameUp_congr {P Q : ChatServer → Prop} {c₀ : Cluster} {as : List Action}
    (hrun : exec step c₀ as = some c)
    (h : ∀ d, Visits step c₀ as d → (P (d.server a) ↔ Q (d.server a))) :
    CameUp P c₀ as c a b k ↔ CameUp Q c₀ as c a b k :=
  and_congr (h c (.last hrun)) (since_congr fun d hd => not_congr (h d hd))

/-- What clients do: no `S2S_CONNECT`, logins at home, and rooms without NUL in their names. -/
def Usual (home : Bytes → Int) (act : Action) : Prop :=
  NoConnects act ∧ NamesRoom NulFree act ∧ LogsInAtHome home act

instance (home : Bytes → Int) (act : Action) : Decidable (Usual home act) :=
  inferInstanceAs (Decidable (NoConnects act ∧ NamesRoom NulFree act ∧ LogsInAtHome home act))

/-- What runs keep in which clients do the usual. -/
structure Orderly (home : Bytes → Int) (c : Cluster) : Prop extends Traffic NulFree c where
  linksTrue : c.LinksTrue
  homed : c.Homed home

theorem orderly_start {ids : List Int} (hids : ∀ a ∈ ids, IsInt a) (home : Bytes → Int) :
    (start ids).Orderly home :=
  ⟨traffic_start hids _, fun ha => linksTrue_start ids ha, homed_start ids home⟩

theorem Move.orderly (hm : Move c act c' x ps out) (hc : c.Orderly home) (hu : Usual home act) :
    c'.Orderly home := by
  obtain ⟨hno, hroom, hlogin⟩ := hu
  have hharm := hno.harmless c
  exact ⟨hm.traffic hc.toTraffic hroom, fun ha =>
      hm.linksTrue hc.toTraffic hharm.noHijack hc.linksTrue ha,
    hm.homed hc.toTraffic hc.linksTrue hc.homed hlogin hharm⟩

/-- The copies of both topics follow. -/
structure Synced (home : Bytes → Int) (ids : List Int) (as : List Action) (c : Cluster) : Prop
    extends Orderly home c where
  users : Topic.users.Tracked c ∧ Topic.users.Follows (start ids) as c
  rooms : Topic.rooms.Tracked c ∧ Topic.rooms.Follows (start ids) as c

theorem synced_start {ids : List Int} (hids : ∀ a ∈ ids, IsInt a) (home : Bytes → Int) :
    Synced home ids [] (start ids) := by
  have hblank := (blank_start ids).server
  refine ⟨orderly_start hids home, ⟨Topic.tracked_start fun b hb a u hu => ?_, .start _ ids⟩,
    Topic.tracked_start fun b hb a r hr => ?_, .start _ ids⟩
  · have hloc : ((start ids).server b).userManager.location? u = some a := hu
    rw [(hblank b hb).noUser] at hloc
    cases hloc
  · have hmem : a ∈ ((start ids).server b).roomManager.getRemoteServers r := hr
    rw [(hblank b hb).noRemote] at hmem
    cases hmem

/-- The copies follow in every run in which losses are noticed. -/
theorem synced_of_run {ids : List Int} {as : List Action} (hids : ∀ a ∈ ids, IsInt a)
    (hrun : exec step (start ids) as = some c) (husual : ∀ act ∈ as, Usual home act)
    (hnot : Along step Noticed (start ids) as) : Synced home ids as c := by
  refine exec_induct_trace (I := Synced home ids) ?_ (synced_start hids home)
    ((along_of_forall husual).and hnot) hrun
  intro pre d act d' hpre hi hact hstep
  obtain ⟨hu, hn⟩ := hact
  obtain ⟨x, ps, out, hm⟩ := step_move hi.toSound hstep
  have hno := (hu.1.harmless d).noHijack
  have husers := hm.kept_users hi.toTraffic hi.linksTrue hi.homed
  have hrooms := hm.kept_rooms hi.toTraffic hi.linksTrue hu.2.1
  exact ⟨hm.orderly hi.toOrderly hu,
    ⟨hi.users.1.step hm hi.toTraffic husers hno hn,
      hi.users.2.step hpre hstep hm hi.toTraffic hi.users.1 husers hno hn⟩,
    hi.rooms.1.step hm hi.toTraffic hrooms hno hn,
    hi.rooms.2.step hpre hstep hm hi.toTraffic hi.rooms.1 hrooms hno hn⟩

/-- Every state of a run in which clients do the usual is orderly. -/
theorem orderly_of_visits {ids : List Int} {as : List Action} {d : Cluster}
    (hids : ∀ a ∈ ids, IsInt a) (hrun : exec step (start ids) as = some c)
    (husual : ∀ act ∈ as, Usual home act) (hd : Visits step (start ids) as d) :
    d.ids = ids ∧ d.Orderly home := by
  refine visits_induct (I := fun d => d.ids = ids ∧ d.Orderly home)
    (P := fun _ act => Usual home act) ?_ ⟨rfl, orderly_start hids home⟩ (along_of_forall husual)
    hrun hd
  intro d act d' hi hu hstep
  obtain ⟨x, ps, out, hm⟩ := step_move hi.2.toSound hstep
  exact ⟨hm.ids.trans hi.1, hm.orderly hi.2 hu⟩

/-- With first logins the user tables know in every state of a run who is online. -/
theorem names_of_visits {ids : List Int} {as : List Action} {d : Cluster}
    (hids : ∀ a ∈ ids, IsInt a) (hrun : exec step (start ids) as = some c)
    (husual : ∀ act ∈ as, Usual home act) (hlog : Along step FirstLogins (start ids) as)
    (hd : Visits step (start ids) as d) : ∀ a ∈ d.ids, (d.server a).Names := by
  have hall : d.Orderly home ∧ ∀ a ∈ d.ids, (d.server a).Names := by
    refine visits_induct (I := fun d => d.Orderly home ∧ ∀ a ∈ d.ids, (d.server a).Names) ?_
      ⟨orderly_start hids home, fun a ha => ((blank_start ids).server a ha).names⟩
      ((along_of_forall husual).and hlog) hrun hd
    intro d act d' hi hact hstep
    obtain ⟨hc, hnames⟩ := hi
    obtain ⟨hu, hf⟩ := hact
    obtain ⟨x, ps, out, hm⟩ := step_move hc.toSound hstep
    refine ⟨hm.orderly hc hu, fun a ha => ?_⟩
    rw [hm.ids] at ha
    obtain ⟨_, _, hchange, -⟩ := hm.change hc.toTraffic hc.linksTrue a
    exact hchange.names hc.toSound ha hc.isInt (hnames a ha) hf (hu.1.harmless d)
      (hc.homed.clean hc.toSound act)
  exact hall.2

end

/-- Whenever two servers are linked and nothing is on its way, one of them locates at the other
the users who have come to be located there since that one registered the link, and lists it for
the rooms that have got their first member there since.  With first logins these are the users
who have logged in since and are online.  The runs start with the servers, clients send no
`S2S_CONNECT`, log in under a name on one server only and name rooms without NUL, and a handshake
is read only after the loss of the last link has been noticed. -/
theorem resynced (ids : List Int) (home : Bytes → Int) (as : List Action) (c : Cluster) (a b : Int)
    (k k' : ConnRef) (hids : ∀ a ∈ ids, IsInt a) (hrun : exec step (start ids) as = some c)
    (husual : ∀ act ∈ as, Usual home act) (hnot : Along step Noticed (start ids) as)
    (hlinked : c.Linked a k b k') (hq : c.Quiet) :
    (∀ u, (c.server b).Locates a u ↔ CameUp (·.Locates a u) (start ids) as c a b k) ∧
      (∀ r, (c.server b).Remotes a r ↔ CameUp (·.Occupied r) (start ids) as c a b k) ∧
      (Along step FirstLogins (start ids) as →
        ∀ u, (c.server b).Locates a u ↔ CameUp (·.Online u) (start ids) as c a b k) := by
  have hc := synced_of_run hids hrun husual hnot
  -- the servers of the run are the same ones all along
  have hmem : ∀ d, Visits step (start ids) as d → a ∈ d.ids := by
    intro d hd
    rw [(orderly_of_visits hids hrun husual hd).1,
      ← (orderly_of_visits hids hrun husual (.last hrun)).1]
    exact (hc.far_ids hlinked.2.2).1
  have hself : ∀ d, Visits step (start ids) as d → (d.server a).serverId = a := fun d hd =>
    (orderly_of_visits hids hrun husual hd).2.serverId a (hmem d hd)
  have husers : ∀ u, (c.server b).Locates a u ↔
      CameUp (·.Locates a u) (start ids) as c a b k := by
    intro u
    refine (hc.users.2.copy_iff hc.toTraffic hlinked hq u).trans (cameUp_congr hrun fun d hd => ?_)
    show (d.server a).Locates (d.server a).serverId u ↔ (d.server a).Locates a u
    rw [hself d hd]
  refine ⟨husers, fun r => hc.rooms.2.copy_iff hc.toTraffic hlinked hq r, fun hlog u => ?_⟩
  refine (husers u).trans (cameUp_congr hrun fun d hd => ?_)
  have hlocated := (names_of_visits hids hrun husual hlog hd a (hmem d hd)).located (u := u)
  rw [hself d hd] at hlocated
  exact hlocated

/-- Ann logs in on server 1 and joins a room while the servers are linked.  Then the link is
lost, both servers notice it, and the connector of server 1 makes a new one. -/
def relinked : List Action :=
  handshake ++ [.client 1 (.connect 5), .client 1 (.packet 1 ⟨.login, ascii "ann"⟩),
    .client 1 (.packet 1 ⟨.roomJoin, ascii "den"⟩), .deliver 2 0, .deliver 2 0, .hang 1 0,
    .hang 2 0, .dial 1 2 6 6, .deliver 2 1]

/-- Bob logs in on server 1 once the new link is up. -/
def late : List Action :=
  relinked ++ [.client 1 (.connect 7), .client 1 (.packet 3 ⟨.login, ascii "bob"⟩), .deliver 2 1]

theorem resynced_late : ∃ c, exec step (start [1, 2]) late = some c ∧
    (∀ u, (c.server 2).Locates 1 u ↔ CameUp (·.Locates 1 u) (start [1, 2]) late c 1 2 2) ∧
      (∀ r, (c.server 2).Remotes 1 r ↔ CameUp (·.Occupied r) (start [1, 2]) late c 1 2 2) ∧
      (Along step FirstLogins (start [1, 2]) late →
        ∀ u, (c.server 2).Locates 1 u ↔ CameUp (·.Online u) (start [1, 2]) late c 1 2 2) := by
  have hrun : (exec step (start [1, 2]) late).any fun c =>
      Along step Noticed (start [1, 2]) late ∧
      ((c.server 1).connManager.linkSocket 2 = some 2 ∧
        (c.server 2).connManager.linkSocket 1 = some 1 ∧ c.far 1 2 = some (2, 1)) ∧ c.Quiet := by
    decide +kernel
  obtain ⟨c, hc, hend⟩ := (Option.any_eq_true ..).mp hrun
  obtain ⟨hnot, hlinked, hq⟩ := of_decide_eq_true hend
  exact ⟨c, hc, resynced [1, 2] (fun _ => 1) late c 1 2 2 1 (by decide) hc (by decide) hnot
    hlinked hq⟩

/-- The new link is up and nothing is on its way, and server 2 knows neither that Ann is online
on server 1 nor that the room has a member there. -/
theorem not_resynced : ∃ c, exec step (start [1, 2]) relinked = some c ∧
    (∀ act ∈ relinked, Usual (fun _ => 1) act) ∧ Along step Noticed (start [1, 2]) relinked ∧
    Along step FirstLogins (start [1, 2]) relinked ∧ c.Linked 1 2 2 1 ∧ c.Quiet ∧
    ¬ (∀ u, (c.server 2).Locates 1 u ↔ (c.server 1).Online u) ∧
    ¬ (∀ r, (c.server 2).Remotes 1 r ↔ (c.server 1).Occupied r) := by
  have hrun : (exec step (start [1, 2]) relinked).any fun c =>
      (Along step Noticed (start [1, 2]) relinked ∧
        Along step FirstLogins (start [1, 2]) relinked) ∧
      ((c.server 1).connManager.linkSocket 2 = some 2 ∧
        (c.server 2).connManager.linkSocket 1 = some 1 ∧ c.far 1 2 = some (2, 1)) ∧ c.Quiet ∧
      (¬ (c.server 2).Locates 1 (ascii "ann") ∧ (c.server 1).Online (ascii "ann")) ∧
      ¬ (c.server 2).Remotes 1 (ascii "den") ∧ (c.server 1).Occupied (ascii "den") := by
    decide +kernel
  obtain ⟨c, hc, hend⟩ := (Option.any_eq_true ..).mp hrun
  obtain ⟨⟨hnot, hlog⟩, hlinked, hq, ⟨hann, honline⟩, hden, hocc⟩ := of_decide_eq_true hend
  refine ⟨c, hc, by decide, hnot, hlog, hlinked, hq, fun h => ?_, fun h => ?_⟩
  · exact hann ((h (ascii "ann")).mpr honline)
  · exact hden ((h (ascii "den")).mpr hocc)

end Cluster

end DistributedChat
