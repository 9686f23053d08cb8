import DistributedChat.Cluster.Replication

/-!
# Presence

With links that stay, every server's user table mirrors the users online at each
of its peers (`Converging`).  So once nothing is on its way the tables are right
(`presence_true`).  What keeps the mirrors apart is `Clean`: a replication is
read only where its user is unknown or known at the sender.  Nothing in the
servers ensures it.  A user who leaves one server and enters another overtakes
his own logout, which takes the new entry away
(`stale_logout_breaks_presence`).
-/

namespace DistributedChat

open ChatServer Mirror

namespace Cluster

/-- Every server locates every user where he is online. -/
def PresenceTrue (c : Cluster) : Prop :=
  ∀ b ∈ c.ids, ∀ u,
    (∀ a ∈ c.ids, (c.server b).userManager.getUserLocation u = a ↔ (c.server a).Online u) ∧
      ((∀ a ∈ c.ids, ¬ (c.server a).Online u) →
        (c.server b).userManager.getUserLocation u = -1)

/-- What is known of users mirrors who is online. -/
structure Converging (R : Bytes → Prop) (c : Cluster) : Prop extends Steady R c where
  names : ∀ a ∈ c.ids, (c.server a).Names
  mirrored : ∀ {a k b k'}, c.Linked a k b k' → c.UsersMirrored a b k'
  known : ∀ b ∈ c.ids, ∀ u a, (c.server b).Locates a u → a ∈ c.ids

section

variable {c c' c₀ : Cluster} {act : Action} {x : Int} {ps : List Int} {out : RawPacket}
  {R : Bytes → Prop} {s' : ChatServer}

theorem getUserLocation_eq_iff {m : UserManager} {u : Bytes} {a : Int} (ha : a ≠ -1) :
    m.getUserLocation u = a ↔ m.location? u = some a := by
  rw [UserManager.getUserLocation]
  cases m.location? u with
  | none => simp [ha.symm]
  | some i => simp

/-- Users are located at servers of the cluster. -/
theorem Change.known (h : Change R c act x s' ps out) (hs : c.Sound) (hx : x ∈ c.ids)
    (hint : ∀ a ∈ c.ids, IsInt a) (hknown : ∀ u a, (c.server x).Locates a u → a ∈ c.ids) :
    ∀ u a, s'.Locates a u → a ∈ c.ids := by
  intro u a hu
  cases h with
  | same htables => exact hknown u a (htables.locates a ▸ hu)
  | client hact hk hstep =>
      by_cases ha : a = x
      · exact ha ▸ hx
      · have hself : a ≠ (c.server x).serverId := by
          rw [hs.serverId x hx]
          exact ha
        exact hknown u a (hstep.locates hself ▸ hu)
  | @ended k =>
      have hloc : (((c.server x).userManager.unregisterUser ((c.server x).nameOf k)).location? u) =
          some a := hu
      rw [UserManager.location?_unregisterUser] at hloc
      split at hloc
      · cases hloc
      · exact hknown u a hloc
  | @received p i pkt hact hp hl hread hpkt =>
      have hpin := ((hs.peers x hx p).mp hp).1
      by_cases ht : pkt.type = .s2sReplicateUser
      · obtain ⟨v, online, hv, rfl⟩ := eq_of_honest_replicateUser hpkt ht
        rw [Locates, location?_received hv (hint p hpin)] at hu
        split at hu
        · split at hu
          · exact Option.some.inj hu ▸ hpin
          · cases hu
        · exact hknown u a hu
      · rw [Locates, received_userManager ht] at hu
        exact hknown u a hu
  | purged => exact hknown u a (UserManager.location?_clearServerUsers_eq_some.mp hu).1

/-- Clean and harmless actions keep the mirrors. -/
theorem Move.converging (hm : Move c act c' x ps out) (hc : c.Converging R) (hR : NamesRoom R act)
    (hstay : NeverFails act) (hf : c.FirstLogins act) (hn : c.Harmless act)
    (hclean : c.Clean act) : c'.Converging R := by
  have hno := hn.noHijack
  have hlinks : c.LinksTrue := hc.toSteady.linksTrue
  refine ⟨hm.steady hc.toSteady hR hno hstay, ?_, ?_, ?_⟩
  · intro a ha
    rw [hm.ids] at ha
    obtain ⟨_, _, hchange, -⟩ := hm.change hc.toTraffic hlinks a
    exact hchange.names hc.toSound ha hc.isInt (hc.names a ha) hf hn hclean
  · intro a k b k' hlinked
    have hold := hm.linked_of_steady hc.toSteady hno hstay hlinked
    exact hm.usersMirrored hc.toTraffic hlinks hc.names hf hn hclean hold.2.2 hlinked.1 hold.2.1
      hlinked.2.1 (hc.mirrored hold)
  · intro b hb
    rw [hm.ids] at hb ⊢
    obtain ⟨_, _, hchange, -⟩ := hm.change hc.toTraffic hlinks b
    exact hchange.known hc.toSound hb hc.isInt (hc.known b hb)

/-- Before the first login nobody is known and nothing about users is on its way. -/
theorem Ready.converging (hc : c.Ready R) : c.Converging R where
  toSteady := hc.toSteady
  names := fun a ha => (hc.server a ha).names
  mirrored := by
    intro a k b k' hlinked
    obtain ⟨ha, hne, -⟩ := hc.far_ids hlinked.2.2
    have hb := hc.far_ids' hlinked.2.2
    rw [UsersMirrored, settle_of_none]
    · funext u
      refine propext ⟨fun hu => ?_, fun hu => ?_⟩
      · rw [Locates, (hc.server b hb).noUser] at hu
        cases hu
      · obtain ⟨j, hj⟩ := hu
        exact absurd hj.2.1 ((hc.server a ha).noLogin j)
    · intro pkt hpkt
      obtain ⟨f, hf, rfl⟩ := List.mem_map.mp hpkt
      exact readAs_of_ne (hc.silent hf).1
  known := by
    intro b hb u a hu
    rw [Locates, (hc.server b hb).noUser] at hu
    cases hu

/-- With nothing on its way the mirrors are exact. -/
theorem Converging.presenceTrue (hc : c.Converging R) (hq : c.Quiet) (hneg : -1 ∉ c.ids) :
    c.PresenceTrue := by
  have hloc : ∀ b ∈ c.ids, ∀ a ∈ c.ids, ∀ u,
      (c.server b).Locates a u ↔ (c.server a).Online u := by
    intro b hb a ha u
    by_cases hab : a = b
    · subst hab
      have hlocated := (hc.names a ha).located (u := u)
      rw [hc.serverId a ha] at hlocated
      exact hlocated
    · obtain ⟨k, k', hlinked⟩ := hc.meshed a ha b hb hab
      have hmirror := hc.mirrored hlinked
      rw [UsersMirrored, packets, hq.inbox hc.toTraffic, List.map_nil, settle_nil] at hmirror
      rw [hmirror]
  intro b hb u
  refine ⟨fun a ha => ?_, fun hnone => ?_⟩
  · have hne : a ≠ -1 := fun he => hneg (he ▸ ha)
    exact (getUserLocation_eq_iff hne).trans (hloc b hb a ha u)
  · cases hu : (c.server b).userManager.location? u with
    | none => rw [UserManager.getUserLocation, hu, Option.getD_none]
    | some a =>
        have ha := hc.known b hb u a hu
        exact absurd ((hloc b hb a ha u).mp hu) (hnone a ha)

end

/-- In a mesh whose links are up before the first login and never fail, whose
connections log in at most once, and in which clients send no harmful
`S2S_CONNECT` and every replication is read where its user is unknown or known at
its sender: whenever nothing is on its way, every server locates every user where
he is online. -/
theorem presence_true (c₀ c : Cluster) (as : List Action) (hready : c₀.Ready fun _ => True)
    (hneg : -1 ∉ c₀.ids) (hrun : exec step c₀ as = some c) (hstay : ∀ act ∈ as, NeverFails act)
    (hlog : Along step FirstLogins c₀ as)
    (hgood : Along step (fun d act => d.Harmless act ∧ d.Clean act) c₀ as) :
    ∀ d, Visits step c₀ as d → d.Quiet → d.PresenceTrue := by
  intro d hd hq
  have hall : d.Converging (fun _ => True) ∧ -1 ∉ d.ids := by
    refine visits_induct (I := fun d => d.Converging (fun _ => True) ∧ -1 ∉ d.ids) ?_
      ⟨hready.converging, hneg⟩ (((along_of_forall hstay).and hlog).and hgood) hrun hd
    intro d act d' hi hact hstep
    obtain ⟨x, ps, out, hm⟩ := step_move hi.1.toSound hstep
    refine ⟨hm.converging hi.1 (namesRoom_true act) hact.1.1 hact.1.2 hact.2.1 hact.2.2, ?_⟩
    rw [hm.ids]
    exact hi.2
  exact hall.1.presenceTrue hq hall.2

/-- Ann logs in on server 1, which tells server 2, and logs out. -/
def visit : List Action :=
  [.client 1 (.connect 5), .client 1 (.packet 1 ⟨.login, ascii "ann"⟩), .deliver 2 0,
    .client 1 (.disconnect 1), .deliver 2 0]

theorem presence_true_visit : ∃ c₀ c, exec step (start [1, 2]) handshake = some c₀ ∧
    exec step c₀ visit = some c ∧ ∀ d, Visits step c₀ visit d → d.Quiet → d.PresenceTrue := by
  obtain ⟨c₀, hc₀, hready⟩ := ready_handshake (R := fun _ => True)
  have hrun : (exec step (start [1, 2]) handshake).any fun c₀ => (-1 ∉ c₀.ids ∧
      Along step FirstLogins c₀ visit ∧
      Along step (fun d act => d.Harmless act ∧ d.Clean act) c₀ visit) ∧
        (exec step c₀ visit).isSome = true := by
    decide +kernel
  rw [hc₀] at hrun
  obtain ⟨⟨hneg, hlog, hgood⟩, hsome⟩ := of_decide_eq_true hrun
  obtain ⟨c, hc⟩ := Option.isSome_iff_exists.mp hsome
  exact ⟨c₀, c, hc₀, hc, presence_true c₀ c visit hready hneg hc (by decide) hlog hgood⟩

/-- No two sessions of the cluster bear the same name. -/
def DistinctNames (c : Cluster) : Prop :=
  ∀ a ∈ c.ids, ∀ j ∈ (c.server a).connManager.getAllSessions, ∀ b ∈ c.ids,
    ∀ i ∈ (c.server b).connManager.getAllSessions,
      (c.server a).Authenticated j → (c.server b).Authenticated i →
        (c.server a).nameOf j = (c.server b).nameOf i → a = b ∧ j = i

instance (c : Cluster) : Decidable c.DistinctNames := by
  unfold DistinctNames
  infer_instance

/-- Ann logs in on server 1, logs out, and logs in on server 2.  Only then does
server 2 read what server 1 sent. -/
def moved : List Action :=
  [.client 1 (.connect 5), .client 1 (.packet 1 ⟨.login, ascii "ann"⟩), .client 1 (.disconnect 1),
    .client 2 (.connect 5), .client 2 (.packet 1 ⟨.login, ascii "ann"⟩), .deliver 2 0,
    .deliver 2 0, .deliver 1 0]

/-- Nothing is on its way, and server 2 does not know that Ann is online on it. -/
theorem stale_logout_breaks_presence : ∃ c₀ c, exec step (start [1, 2]) handshake = some c₀ ∧
    c₀.Ready (fun _ => True) ∧ -1 ∉ c₀.ids ∧ exec step c₀ moved = some c ∧
    (∀ act ∈ moved, NeverFails act) ∧ Along step FirstLogins c₀ moved ∧
    (∀ d, Visits step c₀ moved d → d.DistinctNames) ∧ c.Quiet ∧ ¬ c.PresenceTrue := by
  obtain ⟨c₀, hc₀, hready⟩ := ready_handshake (R := fun _ => True)
  have hrun : (exec step (start [1, 2]) handshake).any fun c₀ => (-1 ∉ c₀.ids ∧
      Along step FirstLogins c₀ moved ∧
      (∀ pre ∈ moved.inits, ∀ d ∈ exec step c₀ pre, d.DistinctNames)) ∧
        (exec step c₀ moved).any fun c => c.Quiet ∧ 2 ∈ c.ids ∧ (c.server 2).Online (ascii "ann") ∧
          (c.server 2).userManager.getUserLocation (ascii "ann") = -1 := by
    decide +kernel
  rw [hc₀] at hrun
  obtain ⟨⟨hneg, hlog, hdistinct⟩, hend⟩ := of_decide_eq_true hrun
  obtain ⟨c, hc, hend⟩ := (Option.any_eq_true ..).mp hend
  obtain ⟨hq, hmem, honline, hloc⟩ := of_decide_eq_true hend
  refine ⟨c₀, c, hc₀, hready, hneg, hc, by decide, hlog, ?_, hq, fun htrue => ?_⟩
  · intro d hd
    obtain ⟨pre, post, he, hpre⟩ := hd
    exact hdistinct pre ((List.mem_inits _ _).mpr ⟨post, he.symm⟩) d hpre
  · have hfound := ((htrue 2 hmem (ascii "ann")).1 2 hmem).mpr honline
    rw [hloc] at hfound
    cases hfound

end Cluster

end DistributedChat
