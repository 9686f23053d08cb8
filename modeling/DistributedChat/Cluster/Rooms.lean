import DistributedChat.Cluster.Multicast
import DistributedChat.Cluster.Replication

/-!
# Room messages

A room message goes to the sessions of the local members of the room and, as an
`S2S_ROUTE_ROOM_MSG`, to the room's remote servers.  In a mesh these mirror the
servers with members of the room, and every name is filed under a session that
bears it (`Gathered`).  So with nothing on its way a room message reaches every
server with members once and every member's session once
(`room_multicast_once`).
-/

namespace DistributedChat

open ChatServer Mirror

namespace ChatServer

/-- A session filed under a name bears it. -/
def Filed (s : ChatServer) : Prop :=
  ∀ u k, s.connManager.getSessionByUsername u = some k → s.Holds k u

section

variable {s s' : ChatServer} {k t : ConnRef} {pkt out : RawPacket} {ps : List Int} {u r : Bytes}

theorem SameTables.filed (h : SameTables s s') (hs : s.Filed) : s'.Filed := by
  intro u k hu
  rw [h.names] at hu
  exact (h.holds k u).mpr (hs u k hu)

theorem Filed.of_sameSessions (hs : s.Filed) (h : s.connManager.SameSessions s'.connManager) :
    s'.Filed := by
  intro u k hu
  rw [ConnectionManager.getSessionByUsername, h.byUsername] at hu
  exact (holds_of_sameSessions h).mpr (hs u k hu)

/-- First logins and harmless packets keep the names filed. -/
theorem ClientStep.filed (hs : ClientStep s k pkt s' ps out) (h : s.Filed) (hok : s.connManager.Ok)
    (hk : s.connManager.Live k) (hf : s.FirstLogin (.packet k pkt))
    (hn : s.Harmless (.packet k pkt)) : s'.Filed := by
  cases hs with
  | login u ht ha =>
      intro v j hv
      rw [loggedIn, onConn_connManager, onUsers_connManager,
        ConnectionManager.getSessionByUsername_authenticateSession] at hv
      split at hv
      next hvu =>
        cases hv
        exact (holds_loggedIn hk).mpr (Or.inl ⟨rfl, hvu⟩)
      next hvu =>
        refine (holds_loggedIn hk).mpr (Or.inr ⟨?_, h _ _ hv⟩)
        rintro rfl
        have hauth := (h _ _ hv).2.1
        rw [hf ht u ha] at hauth
        cases hauth
  | firstJoin | join => exact fun _ _ hu => holds_joined.mpr (h _ _ hu)
  | lastLeave | leave => exact fun _ _ hu => holds_left.mpr (h _ _ hu)
  | promote p ht hp =>
      obtain ⟨-, hanon⟩ := hn ht p hp
      exact (sameTables_promoted hok hk ((hok.username_eq_nil_iff k).mpr hanon)).filed h
  | _ => exact h

theorem Filed.ended (h : s.Filed) (hok : s.connManager.Ok) (hk : s.connManager.Live k)
    (hn : s.nameOf k ≠ []) : ((s.loggedOut k).removed k).Filed := by
  intro u j hu
  have hname := hok.getSessionByUsername_removeSession hk u
  rw [removed, onConn_connManager] at hu
  rw [show (s.loggedOut k).connManager = s.connManager from rfl, hname] at hu
  split at hu
  · cases hu
  next hne =>
    refine (holds_removed (s := s.loggedOut k) hok hk).mpr ⟨h _ _ hu, ?_⟩
    rintro rfl
    exact hne ⟨hn, (h _ _ hu).2.2.symm⟩

/-- The sessions that are sent the messages of a room. -/
def audience (s : ChatServer) (r : Bytes) : List ConnRef :=
  s.sessionsOf (s.roomManager.getLocalMembers r)

/-- The session is filed under the name of a local member of the room. -/
def Hears (s : ChatServer) (r : Bytes) (t : ConnRef) : Prop :=
  ∃ u ∈ s.roomManager.getLocalMembers r, s.connManager.getSessionByUsername u = some t

instance (s : ChatServer) (r : Bytes) (t : ConnRef) : Decidable (s.Hears r t) :=
  inferInstanceAs (Decidable (∃ u ∈ s.roomManager.getLocalMembers r, _))

/-- Every session of the audience is in it once. -/
theorem Filed.count_audience (h : s.Filed) (r : Bytes) (t : ConnRef) :
    (s.audience r).count t = if s.Hears r t then 1 else 0 := by
  have hnodup : (s.audience r).Nodup := by
    refine (s.roomManager.nodup_getLocalMembers r).filterMap ?_
    intro u v j hu hv
    exact (h _ _ hu).name_unique (h _ _ hv)
  have hmem : t ∈ s.audience r ↔ s.Hears r t := List.mem_filterMap
  split
  next ht => exact List.count_eq_one_of_mem hnodup (hmem.mpr ht)
  next ht => exact List.count_eq_zero_of_not_mem (mt hmem.mp ht)

end

end ChatServer

namespace Cluster

/-- No client sends an `S2S_CONNECT`. -/
def NoConnects : Action → Prop
  | .client _ act => NoConnect act
  | _ => True

instance (act : Action) : Decidable (NoConnects act) :=
  match act with
  | .client _ act => inferInstanceAs (Decidable (NoConnect act))
  | .heartbeat _ _ | .deliver _ _ | .hang _ _ | .dial _ _ _ _ => instDecidableTrue

theorem NoConnects.harmless {act : Action} (h : NoConnects act) (c : Cluster) : c.Harmless act := by
  cases act with
  | client a ca => exact NoConnect.harmless h (c.server a)
  | _ => trivial

/-- What is known of rooms mirrors who has members, and names are filed. -/
structure Gathered (c : Cluster) : Prop extends Steady NulFree c where
  filed : ∀ a ∈ c.ids, (c.server a).Filed
  mirrored : ∀ {a k b k'}, c.Linked a k b k' → c.RoomsMirrored a b k'
  /-- The remote servers of rooms are servers of the cluster. -/
  known : ∀ b ∈ c.ids, ∀ r a, (c.server b).Remotes a r → a ∈ c.ids ∧ a ≠ b

section

variable {c c' : Cluster} {act : Action} {x : Int} {ps : List Int} {out : RawPacket}
  {R : Bytes → Prop} {s' : ChatServer}

theorem Change.filed (h : Change R c act x s' ps out) (hok : (c.server x).connManager.Ok)
    (hfiled : (c.server x).Filed) (hf : c.FirstLogins act) (hn : c.Harmless act) : s'.Filed := by
  cases h with
  | same htables => exact htables.filed hfiled
  | client hact hk hstep =>
      subst hact
      exact hstep.filed hfiled hok hk hf hn
  | ended hact hk hnew => exact hfiled.ended hok hk hnew
  | received => exact hfiled.of_sameSessions sameSessions_received
  | purged => exact hfiled.of_sameSessions (ConnectionManager.sameSessions_unlinked ..)

theorem Change.remotes_known (h : Change NulFree c act x s' ps out) (hs : c.Sound) (hx : x ∈ c.ids)
    (hint : ∀ a ∈ c.ids, IsInt a)
    (hknown : ∀ r a, (c.server x).Remotes a r → a ∈ c.ids ∧ a ≠ x) :
    ∀ r a, s'.Remotes a r → a ∈ c.ids ∧ a ≠ x := by
  intro r a hr
  cases h with
  | same htables => exact hknown r a (htables.remotes a ▸ hr)
  | client hact hk hstep => exact hknown r a (hstep.remotes a ▸ hr)
  | ended => exact hknown r a hr
  | @received p i pkt hact hp hl hread hpkt =>
      have hpin := (hs.peers x hx p).mp hp
      rw [remotes_received hpkt (hint p hpin.1)] at hr
      split at hr
      next hap => exact hap ▸ hpin
      · exact hknown r a hr
  | purged =>
      exact hknown r a ((ChatRoomManager.mem_getRemoteServers_clearServerMemberships ..).mp hr).2

theorem Move.gathered (hm : Move c act c' x ps out) (hc : c.Gathered) (hroom : NamesRoom NulFree act)
    (hstay : NeverFails act) (hf : c.FirstLogins act) (hn : c.Harmless act) : c'.Gathered := by
  have hno := hn.noHijack
  have hlinks : c.LinksTrue := hc.toSteady.linksTrue
  refine ⟨hm.steady hc.toSteady hroom hno hstay, ?_, ?_, ?_⟩
  · intro a ha
    rw [hm.ids] at ha
    obtain ⟨_, _, hchange, -⟩ := hm.change hc.toTraffic hlinks a
    exact hchange.filed (hc.sane a ha).ok (hc.filed a ha) hf hn
  · intro a k b k' hlinked
    have hold := hm.linked_of_steady hc.toSteady hno hstay hlinked
    exact hm.roomsMirrored hc.toTraffic hlinks hroom hold.2.2 hlinked.1 hold.2.1 hlinked.2.1
      (hc.mirrored hold)
  · intro b hb
    rw [hm.ids] at hb ⊢
    obtain ⟨_, _, hchange, -⟩ := hm.change hc.toTraffic hlinks b
    exact hchange.remotes_known hc.toSound hb hc.isInt (hc.known b hb)

/-- Before the first login no room has members. -/
theorem Ready.gathered (hc : c.Ready NulFree) : c.Gathered where
  toSteady := hc.toSteady
  filed := by
    intro a ha u k hu
    rw [(hc.server a ha).noName] at hu
    cases hu
  mirrored := by
    intro a k b k' hlinked
    obtain ⟨ha, hne, -⟩ := hc.far_ids hlinked.2.2
    have hb := hc.far_ids' hlinked.2.2
    rw [RoomsMirrored, settle_of_none]
    · funext r
      rw [Remotes, Occupied, (hc.server b hb).noRemote, (hc.server a ha).noMember]
      simp
    · intro pkt hpkt
      obtain ⟨f, hf, rfl⟩ := List.mem_map.mp hpkt
      exact readAs_of_ne (hc.silent hf).2
  known := by
    intro b hb r a hr
    rw [Remotes, (hc.server b hb).noRemote] at hr
    exact absurd hr List.not_mem_nil

/-- With nothing on its way the remote servers of a room are those with members. -/
theorem Gathered.remotes_iff (hc : c.Gathered) (hq : c.Quiet) {a b : Int} (ha : a ∈ c.ids)
    (hb : b ∈ c.ids) (hne : a ≠ b) (r : Bytes) :
    (c.server b).Remotes a r ↔ (c.server a).Occupied r := by
  obtain ⟨k, k', hlinked⟩ := hc.meshed a ha b hb hne
  have hmirror := hc.mirrored hlinked
  rw [RoomsMirrored, packets, hq.inbox hc.toTraffic, List.map_nil, settle_nil] at hmirror
  rw [hmirror]

/-- Reading frames changes nobody's audience. -/
theorem Frame.audience {b q : Int} {k : ConnRef} {p : RawPacket} (hc : c.Traffic R)
    (hfar : c.far b k ≠ none) (hf : Frame c b k q p s' ps out) (r : Bytes) :
    s'.audience r = (c.server b).audience r := by
  obtain ⟨⟨y, j⟩, hbj⟩ := Option.ne_none_iff_exists'.mp hfar
  have hok := (hc.sane b (hc.far_ids hbj).1).ok
  have hof : ∀ {s : ChatServer},
      s.roomManager.getLocalMembers r = (c.server b).roomManager.getLocalMembers r →
        (∀ u, s.connManager.getSessionByUsername u =
          (c.server b).connManager.getSessionByUsername u) →
        s.audience r = (c.server b).audience r := by
    intro s hmembers hname
    rw [ChatServer.audience, ChatServer.audience, hmembers, sessionsOf, sessionsOf]
    exact congrArg (List.filterMap · _) (funext hname)
  cases hf with
  | ignored => rfl
  | handshake hk ht hself hp =>
      have hn := (hok.username_eq_nil_iff k).mpr (Bool.eq_false_iff.mpr (hc.anonymous hfar))
      have hsame := sameTables_promoted (p := q) hok hk hn
      exact hof (congrArg (·.getLocalMembers r) hsame.rooms) hsame.names
  | peer hp hl =>
      exact hof (getLocalMembers_received r) fun u =>
        congrArg (·.lookup u) sameSessions_received.byUsername

end

/-- Because of the next action of `c`, a room message of server `a`: every other
server with members read one packet, and the servers without members none; every
session in a server's audience was sent the message once, and the others nothing. -/
def MulticastOnce (c : Cluster) (a : Int) (name r text : Bytes) (log : List Event) : Prop :=
  ∀ b ∈ c.ids,
    (readFrom log b c.seq =
      if b ≠ a ∧ (c.server b).Occupied r then [(a, ⟨.s2sRouteRoomMsg, pack [name, r, text]⟩)]
      else []) ∧
    ∀ t, ((c.server b).Hears r t → ∃ payload, sentTo log b t c.seq = [⟨.msgRoom, payload⟩] ∧
        unpack payload = [name, r, text]) ∧
      (¬ (c.server b).Hears r t → sentTo log b t c.seq = [])

/-- A run whose links stay, from the mesh before the first login. -/
theorem gathered_of_run {c₀ c : Cluster} {as : List Action} (hready : c₀.Ready NulFree)
    (hrun : exec step c₀ as = some c) (hstay : ∀ act ∈ as, NeverFails act)
    (hno : ∀ act ∈ as, NoConnects act) (hroom : ∀ act ∈ as, NamesRoom NulFree act)
    (hlog : Along step FirstLogins c₀ as) : c.Gathered := by
  refine exec_induct (I := Gathered) ?_ hready.gathered
    ((((along_of_forall hstay).and (along_of_forall hno)).and (along_of_forall hroom)).and hlog) hrun
  intro d act d' hi hact hstep
  obtain ⟨x, ps, out, hm⟩ := step_move hi.toSound hstep
  exact hm.gathered hi hact.1.2 hact.1.1.1 hact.2 (hact.1.1.2.harmless d)

/-- A session in a room is logged in. -/
theorem authenticated_of_isInRoom {s : ChatServer} {k : ConnRef} {r : Bytes}
    (hok : s.connManager.Ok) (hin : s.connManager.isInRoom k r = true) : s.Authenticated k := by
  rw [Authenticated]
  by_contra hanon
  have hblank := (hok.session_ok k).blank (Bool.eq_false_iff.mpr hanon)
  rw [ConnectionManager.isInRoom, hblank] at hin
  exact absurd (of_decide_eq_true hin) (ListSet.notMem_empty r)

/-- From a mesh whose links are up before the first login, never fail and are not
claimed by clients, with first logins and names of rooms without NUL, to any
state `c` with nothing on its way: if session `k` of server `a`, which is in the
room, sends a room message and the frames due to it are delivered, in any order,
everybody who should gets it exactly once. -/
theorem room_multicast_once (c₀ c c₁ c₂ : Cluster) (as ds : List Action) (a : Int) (k : ConnRef)
    (payload r text : Bytes) (fields : List Bytes) (hready : c₀.Ready NulFree)
    (hrun : exec step c₀ as = some c) (hstay : ∀ act ∈ as, NeverFails act)
    (hno : ∀ act ∈ as, NoConnects act) (hroom : ∀ act ∈ as, NamesRoom NulFree act)
    (hlog : Along step FirstLogins c₀ as) (hq : c.Quiet)
    (hk : (c.server a).connManager.Live k) (hin : (c.server a).connManager.isInRoom k r = true)
    (hu : unpack payload = r :: text :: fields)
    (hstep : c.step (.client a (.packet k ⟨.msgRoom, payload⟩)) = some c₁)
    (hds : ∀ act ∈ ds, Delivery act) (hrun₂ : exec step c₁ ds = some c₂)
    (hdone : c₂.Settled c.seq) :
    c.MulticastOnce a ((c.server a).nameOf k) r text c₂.log := by
  have hc := gathered_of_run hready hrun hstay hno hroom hlog
  obtain ⟨ha, -⟩ := mem_of_clientStep hstep
  have hsane := hc.sane a ha
  have hauth := authenticated_of_isInRoom hsane.ok hin
  let name := (c.server a).nameOf k
  let ps := ((c.server a).roomManager.getRemoteServers r).filter fun p =>
    p ∈ (c.server a).connManager.peerNodes
  let stop : Int → ConnRef := fun b => ((c.server b).connManager.linkSocket a).getD 0
  have hfields : unpack (pack [name, r, text]) = [name, r, text] := by
    refine unpack_pack fun f hf => ?_
    simp only [List.mem_cons, List.not_mem_nil, or_false] at hf
    rcases hf with rfl | rfl | rfl
    · exact hsane.ok.nulFree_username k
    · exact nulFree_of_mem_unpack (show f ∈ unpack payload by simp [hu])
    · exact nulFree_of_mem_unpack (show f ∈ unpack payload by simp [hu])
  -- the servers the message is passed on to are the others with members
  have hps : ∀ b ∈ c.ids, b ∈ ps ↔ b ≠ a ∧ (c.server b).Occupied r := by
    intro b hb
    show b ∈ List.filter _ _ ↔ _
    rw [List.mem_filter, decide_eq_true_iff, hc.peers a ha b]
    refine ⟨fun h => ?_, fun h => ?_⟩
    · exact ⟨h.2.2, (hc.remotes_iff hq hb ha h.2.2 r).mp h.1⟩
    · exact ⟨(hc.remotes_iff hq hb ha h.1 r).mpr h.2, hb, h.1⟩
  have hpeers : ∀ b ∈ ps, b ∈ c.ids ∧ b ≠ a := by
    intro b hb
    exact (hc.peers a ha b).mp (of_decide_eq_true (List.mem_filter.mp hb).2)
  have hlinked : ∀ b ∈ ps, ∃ i, c.Linked a i b (stop b) := by
    intro b hb
    obtain ⟨hbin, hne⟩ := hpeers b hb
    obtain ⟨i, i', hi, hi', hfar⟩ := hc.meshed a ha b hbin hne.symm
    exact ⟨i, hi, by simp [stop, hi'], by simp [stop, hi', hfar]⟩
  have hout : (readPacket k ⟨.msgRoom, payload⟩).run (c.server a) = ⟨(), c.server a,
      (((c.server a).audience r).map fun t => .toSession t ⟨.msgRoom, pack [name, r, text]⟩) ++
        (c.server a).frames ps ⟨.s2sRouteRoomMsg, pack [name, r, text]⟩⟩ := by
    rw [run_readPacket_of_live hk,
      run_handleClientPacket_of_authenticated hauth (Or.inl ⟨rfl, rfl⟩)]
    exact run_handleRoomMsg (linksGood_of_usable hsane.usable) hu hin
  have hspread : _ ∧ Spread c.seq a ps stop _ _ (fun s => s.audience r) _ _ :=
    spread_of_run hc.toTraffic hstep (fun ht => by simp at ht) hk
      (.routeRoom r text fields rfl hu hauth hin) hout hlinked
  obtain ⟨hc₁, hS⟩ := hspread
  obtain ⟨hc₂, hS₂⟩ := hS.deliveries hc₁ hrun₂ hds
    (fun _ _ => out_handleServerPacket_routeRoomMsg hfields) (by simp)
    fun hd _ _ _ _ _ _ _ hfar hf t => by rw [Frame.audience hd hfar hf]
  intro b hb
  obtain ⟨hsent, hread⟩ := hS₂.finished (hdone.inbox hc₂) b
  refine ⟨?_, fun t => ⟨fun ht => ?_, fun ht => ?_⟩⟩
  · rw [hread]
    exact if_congr (hps b hb) rfl rfl
  · refine ⟨pack [name, r, text], ?_, hfields⟩
    have hto : b ∈ ps ∨ b = a := by
      by_cases hba : b = a
      · exact Or.inr hba
      · refine Or.inl ((hps b hb).mpr ⟨hba, ?_⟩)
        obtain ⟨u, hu, -⟩ := ht
        exact List.ne_nil_of_mem hu
    rw [hsent, if_pos hto, (hc.filed b hb).count_audience, if_pos ht]
    rfl
  · rw [hsent, (hc.filed b hb).count_audience, if_neg ht]
    split <;> rfl

/-- Ann on server 1 and Bob on server 2 log in and enter a room. -/
def den : List Action :=
  [.client 1 (.connect 5), .client 1 (.packet 1 ⟨.login, ascii "ann"⟩),
    .client 1 (.packet 1 ⟨.roomJoin, ascii "den"⟩), .client 2 (.connect 5),
    .client 2 (.packet 1 ⟨.login, ascii "bob"⟩), .client 2 (.packet 1 ⟨.roomJoin, ascii "den"⟩),
    .deliver 2 0, .deliver 2 0, .deliver 1 0, .deliver 1 0]

theorem room_multicast_once_den : ∃ c₀ c c₁ c₂, exec step (start [1, 2]) handshake = some c₀ ∧
    exec step c₀ den = some c ∧
    c.step (.client 1 (.packet 1 ⟨.msgRoom, pack [ascii "den", ascii "hi"]⟩)) = some c₁ ∧
    exec step c₁ [.deliver 2 0] = some c₂ ∧
    c.MulticastOnce 1 ((c.server 1).nameOf 1) (ascii "den") (ascii "hi") c₂.log := by
  obtain ⟨c₀, hc₀, hready⟩ := ready_handshake (R := NulFree)
  have hrun : (exec step (start [1, 2]) handshake).any fun c₀ =>
      Along step FirstLogins c₀ den ∧ (exec step c₀ den).any fun c =>
        (c.Quiet ∧ (c.server 1).connManager.Live 1 ∧
          (c.server 1).connManager.isInRoom 1 (ascii "den") = true) ∧
        (c.step (.client 1 (.packet 1 ⟨.msgRoom, pack [ascii "den", ascii "hi"]⟩))).any fun c₁ =>
          (exec step c₁ [.deliver 2 0]).any fun c₂ => c₂.Settled c.seq := by
    decide +kernel
  rw [hc₀] at hrun
  obtain ⟨hlog, h⟩ := of_decide_eq_true hrun
  obtain ⟨c, hc, h⟩ := (Option.any_eq_true ..).mp h
  obtain ⟨⟨hq, hk, hin⟩, h⟩ := of_decide_eq_true h
  obtain ⟨c₁, hc₁, h⟩ := (Option.any_eq_true ..).mp h
  obtain ⟨c₂, hc₂, hd⟩ := (Option.any_eq_true ..).mp h
  exact ⟨c₀, c, c₁, c₂, hc₀, hc, hc₁, hc₂, room_multicast_once c₀ c c₁ c₂ den [.deliver 2 0] 1 1
    (pack [ascii "den", ascii "hi"]) (ascii "den") (ascii "hi") [] hready hc (by decide) (by decide)
    (by decide) hlog hq hk hin (unpack_pack (by decide)) hc₁ (by decide) hc₂ (of_decide_eq_true hd)⟩

end Cluster

end DistributedChat
