import DistributedChat.Cluster.Start

/-!
# One packet on its way to many servers

A server has put one packet on the links of several peers, and from then on
frames are only delivered.  `Spread` follows the copies by the number of the
action that sent them: the copy for a server is still on its way and the server
has sent nothing because of it, or the copy was read once and every session it
is meant for was sent its packet once.  The room messages and the broadcasts of
the servers are both instances.
-/

namespace DistributedChat

open ChatServer

namespace Cluster

/-- What session `t` of server `b` was sent because of an action. -/
def sentTo (log : List Event) (b : Int) (t : ConnRef) (n : Cause) : List RawPacket :=
  log.filterMap fun
    | .sent b' t' n' pkt => if b' = b ∧ t' = t ∧ n' = n then some pkt else none
    | .received _ _ _ _ => none

/-- What server `b` read from other servers because of an action. -/
def readFrom (log : List Event) (b : Int) (n : Cause) : List (Int × RawPacket) :=
  log.filterMap fun
    | .sent _ _ _ _ => none
    | .received a b' n' pkt => if b' = b ∧ n' = n then some (a, pkt) else none

/-- The frames of an action on their way to an end. -/
def due (c : Cluster) (b : Int) (k : ConnRef) (n : Cause) : List (Cause × RawPacket) :=
  (c.inbox b k).filter (·.1 = n)

/-- No frame of the action is on its way. -/
def Settled (c : Cluster) (n : Cause) : Prop :=
  ∀ b ∈ c.ids, ∀ k < (c.server b).connManager.nextConn, ∀ f ∈ c.inbox b k, f.1 ≠ n

instance (c : Cluster) (n : Cause) : Decidable (c.Settled n) :=
  inferInstanceAs (Decidable (∀ b ∈ c.ids, ∀ k < (c.server b).connManager.nextConn, _))

/-- The action is the delivery of a frame. -/
def Delivery (act : Action) : Prop :=
  match act with
  | .deliver _ _ => True
  | _ => False

instance (act : Action) : Decidable (Delivery act) :=
  match act with
  | .deliver _ _ => instDecidableTrue
  | .client _ _ | .heartbeat _ _ | .hang _ _ | .dial _ _ _ _ => instDecidableFalse

theorem Settled.inbox {c : Cluster} {n : Cause} {R : Bytes → Prop} (h : c.Settled n)
    (hc : c.Traffic R) (b : Int) (k : ConnRef) : ∀ f ∈ c.inbox b k, f.1 ≠ n := by
  cases hfar : c.far b k with
  | none =>
      rw [hc.dry hfar]
      exact fun f hf => absurd hf List.not_mem_nil
  | some stop =>
      obtain ⟨hb, -, hlt⟩ := hc.far_ids hfar
      exact h b hb k hlt

/-! ## The log -/

section

variable {es es' : List Event} {b y : Int} {t : ConnRef} {n m : Cause} {pkt : RawPacket}

theorem sentTo_append : sentTo (es ++ es') b t n = sentTo es b t n ++ sentTo es' b t n :=
  List.filterMap_append

theorem readFrom_append : readFrom (es ++ es') b n = readFrom es b n ++ readFrom es' b n :=
  List.filterMap_append

theorem sentTo_cons_sent {t' : ConnRef} : sentTo (.sent y t' m pkt :: es) b t n =
    (if y = b ∧ t' = t ∧ m = n then [pkt] else []) ++ sentTo es b t n := by
  by_cases h : y = b ∧ t' = t ∧ m = n
  · simp [sentTo, h]
  · simp only [sentTo, List.filterMap_cons, if_neg h, List.nil_append]

theorem sentTo_cons_received {a : Int} :
    sentTo (.received a y m pkt :: es) b t n = sentTo es b t n := rfl

theorem readFrom_cons_received {a : Int} :
    readFrom (.received a y m pkt :: es) b n =
      (if y = b ∧ m = n then [(a, pkt)] else []) ++ readFrom es b n := by
  by_cases h : y = b ∧ m = n
  · simp [readFrom, h]
  · simp only [readFrom, List.filterMap_cons, if_neg h, List.nil_append]

/-- What a batch of packets to sessions adds for one session. -/
theorem sentTo_events (dest : List ConnRef) :
    sentTo (events y m (dest.map fun t => .toSession t pkt)) b t n =
      if y = b ∧ m = n then List.replicate (dest.count t) pkt else [] := by
  induction dest with
  | nil => split <;> rfl
  | cons t' dest ih =>
      change sentTo (.sent y t' m pkt :: events y m (dest.map fun t => .toSession t pkt)) b t n = _
      rw [sentTo_cons_sent, ih, List.count_cons]
      by_cases hy : y = b ∧ m = n
      · by_cases ht : t' = t <;> simp [hy, ht, List.replicate_succ]
      · rw [if_neg fun h => hy ⟨h.1, h.2.2⟩, if_neg hy, if_neg hy]
        rfl

theorem readFrom_events {effects : List Effect} : readFrom (events y m effects) b n = [] := by
  rw [readFrom, List.filterMap_eq_nil_iff]
  intro e he
  obtain ⟨f, -, hf⟩ := List.mem_filterMap.mp he
  cases f with
  | toSession => cases hf; rfl
  | toPeer => cases hf

/-- Events of other actions add nothing. -/
theorem sentTo_eq_nil (h : ∀ e ∈ es, e.cause ≠ n) : sentTo es b t n = [] := by
  rw [sentTo, List.filterMap_eq_nil_iff]
  intro e he
  cases e with
  | sent b' t' n' pkt => exact if_neg fun hh => h _ he hh.2.2
  | received => rfl

@[inherit_doc sentTo_eq_nil]
theorem readFrom_eq_nil (h : ∀ e ∈ es, e.cause ≠ n) : readFrom es b n = [] := by
  rw [readFrom, List.filterMap_eq_nil_iff]
  intro e he
  cases e with
  | sent => rfl
  | received a b' n' pkt => exact if_neg fun hh => h _ he hh.2

end

/-! ## The copies of a packet -/

/-- The packet `frame` of action `n` of server `a` on its way to the servers `ps`,
over the ends `stop`.  The server `a` has sent `pkt` to its sessions `dest`, and a
server that reads the frame does so too. -/
structure Spread (n : Cause) (a : Int) (ps : List Int) (stop : Int → ConnRef)
    (frame pkt : RawPacket) (dest : ChatServer → List ConnRef) (aim : Int → ConnRef → Nat)
    (c : Cluster) : Prop where
  far : ∀ b ∈ ps, ∃ j, c.far b (stop b) = some (a, j)
  noSession : ∀ b ∈ ps, ¬ (c.server b).connManager.Live (stop b)
  elsewhere : ∀ {b k}, ¬ (b ∈ ps ∧ k = stop b) → c.due b k n = []
  aimed : ∀ b t, (dest (c.server b)).count t = aim b t
  others : ∀ b, b ∉ ps → (∀ t, sentTo c.log b t n =
    if b = a then List.replicate (aim b t) pkt else []) ∧ readFrom c.log b n = []
  copies : ∀ b ∈ ps,
    (c.due b (stop b) n = [(n, frame)] ∧ (∀ t, sentTo c.log b t n = []) ∧ readFrom c.log b n = []) ∨
      (c.due b (stop b) n = [] ∧ (∀ t, sentTo c.log b t n = List.replicate (aim b t) pkt) ∧
        readFrom c.log b n = [(a, frame)])

section

variable {c c' : Cluster} {act : Action} {x : Int} {qs : List Int} {out : RawPacket}
  {R : Bytes → Prop} {n : Cause} {a : Int} {ps : List Int} {stop : Int → ConnRef}
  {frame pkt : RawPacket} {dest : ChatServer → List ConnRef} {aim : Int → ConnRef → Nat}

/-- Frames of other actions do not count. -/
theorem Move.due_eq (hm : Move c act c' x qs out) (hs : c.Sound) (h : c.causeOf act ≠ n ∨ qs = [])
    (b : Int) (k : ConnRef) : c'.due b k n = (c.kept act b k).filter (·.1 = n) := by
  rw [due]
  by_cases hg : c'.Gets x qs (b, k)
  · have hne := h.resolve_right (hg.far (hm.sound hs)).1
    rw [hm.sent hg, List.filter_append, List.filter_singleton]
    simp [hne]
  · rw [hm.kept hg]

theorem kept_deliver {m : Cause} {p : RawPacket} {rest : List (Cause × RawPacket)} {k : ConnRef}
    (hin : c.inbox x k = (m, p) :: rest) (b : Int) (i : ConnRef) :
    c.kept (.deliver x k) b i = if b = x ∧ i = k then rest else c.inbox b i := by
  rw [Cluster.kept]
  simp only [Action.deliver.injEq, reduceCtorEq, if_false]
  by_cases he : b = x ∧ i = k
  · rw [if_pos he, if_pos ⟨he.1.symm, he.2.symm⟩, he.1, he.2, hin]
    rfl
  · rw [if_neg he, if_neg fun he' => he ⟨he'.1.symm, he'.2.symm⟩]

/-- The delivery of a frame of another action. -/
theorem Spread.pass (hS : Spread n a ps stop frame pkt dest aim c)
    {m : Cause} {p : RawPacket} {rest : List (Cause × RawPacket)} {k : ConnRef}
    (hm : Move c (.deliver x k) c' x qs out) (hs : c.Sound)
    (hin : c.inbox x k = (m, p) :: rest) (hmn : m ≠ n)
    (hfar : ∀ b ∈ ps, ∃ j, c'.far b (stop b) = some (a, j))
    (hdead : ∀ b ∈ ps, ¬ (c'.server b).connManager.Live (stop b))
    (haim : ∀ b t, (dest (c'.server b)).count t = aim b t) :
    Spread n a ps stop frame pkt dest aim c' := by
  have hcause : c.causeOf (.deliver x k) = m := by
    simp only [causeOf, hin]
  have hdue : ∀ b i, c'.due b i n = c.due b i n := by
    intro b i
    rw [hm.due_eq hs (Or.inl (hcause ▸ hmn)), kept_deliver hin, due]
    split
    next he =>
      rw [he.1, he.2, hin, List.filter_cons, if_neg fun hf => hmn (of_decide_eq_true hf)]
    · rfl
  have hnew : ∀ e ∈ c.eventsOf (.deliver x k), e.cause ≠ n := by
    intro e he
    rw [cause_of_mem_eventsOf he, hcause]
    exact hmn
  have hsent : ∀ b t, sentTo c'.log b t n = sentTo c.log b t n := by
    intro b t
    rw [hm.log, sentTo_append, sentTo_eq_nil hnew, List.append_nil]
  have hread : ∀ b, readFrom c'.log b n = readFrom c.log b n := by
    intro b
    rw [hm.log, readFrom_append, readFrom_eq_nil hnew, List.append_nil]
  refine ⟨hfar, hdead, fun h => (hdue _ _).trans (hS.elsewhere h), haim, fun b hb => ?_,
    fun b hb => ?_⟩
  · simp only [hsent, hread]
    exact hS.others b hb
  · simp only [hsent, hread, hdue]
    exact hS.copies b hb

/-- The delivery of a copy: the reader sends the packet to its sessions. -/
theorem Spread.read (hS : Spread n a ps stop frame pkt dest aim c) (hx : x ∈ ps)
    {rest : List (Cause × RawPacket)} (hm : Move c (.deliver x (stop x)) c' x [] out)
    (hs : c.Sound) (hin : c.inbox x (stop x) = (n, frame) :: rest)
    (hrest : rest.filter (·.1 = n) = [])
    (hlog : c'.log = c.log ++
      (.received a x n frame :: events x n ((dest (c.server x)).map fun t => .toSession t pkt)))
    (hfar : ∀ b ∈ ps, ∃ j, c'.far b (stop b) = some (a, j))
    (hdead : ∀ b ∈ ps, ¬ (c'.server b).connManager.Live (stop b))
    (haim : ∀ b t, (dest (c'.server b)).count t = aim b t)
    (hbefore : (∀ t, sentTo c.log x t n = []) ∧ readFrom c.log x n = []) :
    Spread n a ps stop frame pkt dest aim c' := by
  have hdue : ∀ b i, c'.due b i n = if b = x ∧ i = stop x then [] else c.due b i n := by
    intro b i
    rw [hm.due_eq hs (Or.inr rfl), kept_deliver hin, due]
    split
    · exact hrest
    · rfl
  have hsent : ∀ b t, sentTo c'.log b t n = sentTo c.log b t n ++
      if x = b then List.replicate (aim x t) pkt else [] := by
    intro b t
    rw [hlog, sentTo_append, sentTo_cons_received, sentTo_events, hS.aimed]
    simp only [and_true]
  have hread : ∀ b, readFrom c'.log b n = readFrom c.log b n ++
      if x = b then [(a, frame)] else [] := by
    intro b
    rw [hlog, readFrom_append, readFrom_cons_received, readFrom_events, List.append_nil]
    simp only [and_true]
  refine ⟨hfar, hdead, fun {b i} h => ?_, haim, fun b hb => ?_, fun b hb => ?_⟩
  · have hne : ¬ (b = x ∧ i = stop x) := fun he => h ⟨he.1.symm ▸ hx, he.1.symm ▸ he.2⟩
    rw [hdue, if_neg hne]
    exact hS.elsewhere h
  · have hne : x ≠ b := fun he => hb (he ▸ hx)
    simp only [hsent, hread, if_neg hne, List.append_nil]
    exact hS.others b hb
  · by_cases hbx : x = b
    · subst hbx
      right
      refine ⟨(hdue _ _).trans (if_pos ⟨rfl, rfl⟩), fun t => ?_, ?_⟩
      · rw [hsent, hbefore.1, if_pos rfl, List.nil_append]
      · rw [hread, hbefore.2, if_pos rfl, List.nil_append]
    · have hne : ¬ (b = x ∧ stop b = stop x) := fun he => hbx he.1.symm
      simp only [hsent, hread, if_neg hbx, List.append_nil, hdue, if_neg hne]
      exact hS.copies b hb

/-- Deliveries keep the copies in order. -/
theorem Spread.deliver (hS : Spread n a ps stop frame pkt dest aim c)
    (hm : Move c act c' x qs out) (hc : c.Traffic R) (hd : Delivery act)
    (hout : ∀ s p, ((handleServerPacket p frame).run s).out =
      (dest s).map fun t => .toSession t pkt)
    (hbeat : frame.type ≠ .s2sHeartbeat)
    (hstable : ∀ {b k p q s' os o}, c.far b k ≠ none → Frame c b k q p s' os o →
      ∀ t, (dest s').count t = (dest (c.server b)).count t) :
    Spread n a ps stop frame pkt dest aim c' := by
  cases act with
  | deliver y k =>
      obtain ⟨rfl, hserver, a', j, m, p, rest, hfar, hin, hpkt, hframe⟩ := hm.delivery hc
      have hx := (hc.far_ids hfar).1
      have haim : ∀ b t, (dest (c'.server b)).count t = aim b t := by
        intro b t
        by_cases hb : b = x
        · subst hb
          exact (hstable (by rw [hfar]; exact Option.some_ne_none _) hframe t).trans (hS.aimed b t)
        · rw [hserver b hb]
          exact hS.aimed b t
      have hfar' : ∀ b ∈ ps, ∃ j, c'.far b (stop b) = some (a, j) := fun b hb =>
        (hS.far b hb).imp fun _ hj => hm.far_of_some hc.toSound hj
      have hdead : ∀ b ∈ ps, ¬ (c'.server b).connManager.Live (stop b) := by
        intro b hb hlive
        by_cases hbx : b = x
        · subst hbx
          exact hS.noSession b hb (hframe.reads.live (hc.sane b hx).ok hlive)
        · exact hS.noSession b hb (hserver b hbx ▸ hlive)
      by_cases hmn : m = n
      · subst hmn
        have hdue : c.due x k m = (m, p) :: rest.filter (·.1 = m) := by
          rw [due, hin, List.filter_cons, if_pos (decide_eq_true rfl)]
        obtain ⟨hxps, rfl⟩ : x ∈ ps ∧ k = stop x := by
          by_contra hnot
          rw [hS.elsewhere hnot] at hdue
          cases hdue
        obtain ⟨hone, hbefore⟩ := (hS.copies x hxps).resolve_right fun h => by
          rw [h.1] at hdue
          cases hdue
        rw [hone] at hdue
        obtain ⟨hhead, hrest⟩ := List.cons.inj hdue
        obtain ⟨-, rfl⟩ := Prod.mk.inj hhead
        obtain ⟨i, hi⟩ := hS.far x hxps
        rw [hfar] at hi
        cases hi
        have hlog := hm.log
        simp only [eventsOf, hfar, hin] at hlog
        generalize hs' : c'.server x = s' at hframe
        cases hframe with
        | ignored hk => exact absurd hk (hS.noSession x hxps)
        | handshake hk => exact absurd hk (hS.noSession x hxps)
        | @peer q hq hl =>
            have hsane := hc.sane x hx
            rw [(readPacket_peer hsane.ok hsane.usable hq hl frame).1, hout] at hlog
            have hqs : answered q frame = [] := if_neg hbeat
            rw [hqs] at hm
            exact hS.read hxps hm hc.toSound hin hrest.symm hlog hfar' hdead haim hbefore
      · exact hS.pass hm hc.toSound hin hmn hfar' hdead haim
  | _ => exact hd.elim

/-- A run of deliveries keeps the copies in order. -/
theorem Spread.deliveries {as : List Action} (hS : Spread n a ps stop frame pkt dest aim c)
    (hc : c.Traffic R) (hrun : exec step c as = some c') (hd : ∀ act ∈ as, Delivery act)
    (hout : ∀ s p, ((handleServerPacket p frame).run s).out =
      (dest s).map fun t => .toSession t pkt)
    (hbeat : frame.type ≠ .s2sHeartbeat)
    (hstable : ∀ {d : Cluster}, d.Traffic R → ∀ {b k p q s' os o}, d.far b k ≠ none →
      Frame d b k q p s' os o → ∀ t, (dest s').count t = (dest (d.server b)).count t) :
    c'.Traffic R ∧ Spread n a ps stop frame pkt dest aim c' := by
  refine exec_induct (I := fun d => d.Traffic R ∧ Spread n a ps stop frame pkt dest aim d)
    (P := fun _ act => Delivery act) ?_ ⟨hc, hS⟩ (along_of_forall hd) hrun
  intro d act d' hi hact hstep
  obtain ⟨x, qs, out, hm⟩ := step_move hi.1.toSound hstep
  have hroom : NamesRoom R act := by
    cases act with
    | deliver => trivial
    | _ => exact hact.elim
  exact ⟨hm.traffic hi.1 hroom, hi.2.deliver hm hi.1 hact hout hbeat (hstable hi.1)⟩

/-- When no copy is on its way any more, everyone was sent what is meant for them. -/
theorem Spread.finished (hS : Spread n a ps stop frame pkt dest aim c)
    (hdone : ∀ b k f, f ∈ c.inbox b k → f.1 ≠ n) (b : Int) :
    (∀ t, sentTo c.log b t n =
        if b ∈ ps ∨ b = a then List.replicate (aim b t) pkt else []) ∧
      readFrom c.log b n = if b ∈ ps then [(a, frame)] else [] := by
  by_cases hb : b ∈ ps
  · have hnone : c.due b (stop b) n = [] := by
      rw [due, List.filter_eq_nil_iff]
      exact fun f hf hn => hdone b _ f hf (of_decide_eq_true hn)
    obtain ⟨-, hsent, hread⟩ := (hS.copies b hb).resolve_left fun h => by
      rw [hnone] at h
      cases h.1
    simp only [hb, true_or, if_true]
    exact ⟨hsent, hread⟩
  · simp only [hb, false_or, if_false]
    exact hS.others b hb

theorem sentTo_events_append {effects : List Effect} {dests : List ConnRef} {y b : Int}
    {t : ConnRef} {m : Cause} (hframes : framesOf effects = effects) :
    sentTo (events y m ((dests.map fun t => .toSession t pkt) ++ effects)) b t n =
      if y = b ∧ m = n then List.replicate (dests.count t) pkt else [] := by
  have hsplit : events y m ((dests.map fun t => .toSession t pkt) ++ effects) =
      events y m (dests.map fun t => .toSession t pkt) ++ events y m effects :=
    List.filterMap_append
  rw [hsplit, sentTo_append, sentTo_events, events_framesOf_eq_nil hframes]
  exact List.append_nil _

/-- A client's packet that is sent to sessions and passed on to peers. -/
theorem spread_of_run {k : ConnRef} {p : RawPacket} (hc : c.Traffic R)
    (hstep : c.step (.client a (.packet k p)) = some c')
    (hroom : NamesRoom R (.client a (.packet k p))) (hk : (c.server a).connManager.Live k)
    (hcs : ClientStep (c.server a) k p (c.server a) ps frame)
    (hrun : (readPacket k p).run (c.server a) = ⟨(), c.server a,
      ((dest (c.server a)).map fun t => .toSession t pkt) ++ (c.server a).frames ps frame⟩)
    (hlinked : ∀ b ∈ ps, ∃ i, c.Linked a i b (stop b)) :
    c'.Traffic R ∧ Spread c.seq a ps stop frame pkt dest
      (fun b t => (dest (c.server b)).count t) c' := by
  have ha : a ∈ c.ids ∧ c.far a k = none := by
    simp only [step] at hstep
    split at hstep
    next ha =>
      simp only [clientStep] at hstep
      split at hstep
      next hf => exact ⟨ha, hf.2.1⟩
      · cases hstep
    · cases hstep
  have hperf : Performs (readPacket k p) (c.server a) (c.server a) ps frame := by
    refine ⟨by rw [hrun], ?_, hcs.targets.1, hcs.targets.2⟩
    rw [hrun, framesOf_append, framesOf_map_toSession, List.nil_append, framesOf_frames]
  obtain ⟨hm, hself⟩ := move_packet hc.toSound ha.1 hstep (.session hk hcs) hperf
  have hserver : ∀ b, c'.server b = c.server b := by
    intro b
    by_cases hb : b = a
    · rw [hb, hself]
    · refine (hm.others b hb).resolve_right fun ht => ?_
      obtain ⟨o, ht⟩ := ht
      generalize c'.server b = s' at ht
      cases ht with
      | packet => exact hb rfl
  have hids : ∀ {b}, b ∈ ps → b ∈ c.ids := fun hb =>
    ((hc.peers a ha.1 _).mp (hm.turn.targets hc.toSound _ hb)).1
  have hkept : ∀ b i, c.kept (.client a (.packet k p)) b i = c.inbox b i := by
    have hbox := kept_eq_inbox c (.client a (.packet k p)) (fun _ _ he => Action.noConfusion he)
      fun _ _ he => Action.noConfusion he
    exact fun b i => congrFun (congrFun hbox.symm b) i
  have hnone : ∀ b i, (c.inbox b i).filter (·.1 = c.seq) = [] := by
    intro b i
    rw [List.filter_eq_nil_iff]
    exact fun f hf hn => Nat.ne_of_lt (hc.tagged hf) (of_decide_eq_true hn)
  -- a copy is on its way to every server of the list
  have hgets : ∀ {b}, b ∈ ps → c'.Gets a ps (b, stop b) := by
    intro b hb
    obtain ⟨i, hi, hback, hfar⟩ := hlinked b hb
    refine (hm.gets_iff hc.toSound hfar (hserver a ▸ hi) ?_).mpr ⟨rfl, hb⟩
    rw [hserver, reads_eq_true]
    refine Or.inr ⟨a, ?_, hback⟩
    exact (hc.peers b (hids hb) a).mpr ⟨ha.1, (hc.far_ids hfar).2.1⟩
  have hold : ∀ e ∈ c.log, e.cause ≠ c.seq := fun e he => Nat.ne_of_lt (hc.logged e he)
  have hlog : c'.log = c.log ++ events a c.seq ((readPacket k p).run (c.server a)).out := hm.log
  have hsent : ∀ b t, sentTo c'.log b t c.seq =
      if b = a then List.replicate ((dest (c.server b)).count t) pkt else [] := by
    intro b t
    rw [hlog, hrun, sentTo_append, sentTo_eq_nil hold,
      sentTo_events_append (framesOf_frames ..), List.nil_append]
    by_cases hb : b = a
    · rw [if_pos ⟨hb.symm, rfl⟩, if_pos hb, hb]
    · rw [if_neg fun he => hb he.1.symm, if_neg hb]
  have hread : ∀ b, readFrom c'.log b c.seq = [] := by
    intro b
    rw [hlog, readFrom_append, readFrom_eq_nil hold, readFrom_events]
    rfl
  refine ⟨hm.traffic hc hroom, fun b hb => ?_, fun b hb => ?_, fun {b i} hnot => ?_,
    fun b t => by rw [hserver], fun b hb => ⟨hsent b, hread b⟩, fun b hb => Or.inl ⟨?_, ?_, hread b⟩⟩
  · obtain ⟨i, hi, hback, hfar⟩ := hlinked b hb
    exact ⟨i, hm.far_of_some hc.toSound (hc.far_symm hfar)⟩
  · obtain ⟨i, hi, hback, hfar⟩ := hlinked b hb
    have hok := (hc.sane b (hids hb)).ok
    rw [hserver]
    rw [hok.linkSocket_eq] at hback
    exact hok.link_dead hback
  · have hno : ¬ c'.Gets a ps (b, i) := by
      intro hg
      obtain ⟨-, q, hq, j, hj, hfar, -⟩ := hg.far (hm.sound hc.toSound)
      obtain ⟨j', hj', -, hfar'⟩ := hlinked q hq
      rw [hserver, hj'] at hj
      cases hj
      rw [hm.far_of_some hc.toSound hfar'] at hfar
      cases hfar
      exact hnot ⟨hq, rfl⟩
    rw [due, hm.kept hno, hkept, hnone]
  · rw [due, hm.sent (hgets hb), hkept, List.filter_append, hnone]
    simp [causeOf]
  · intro t
    rw [hsent, if_neg]
    rintro rfl
    exact ((hc.peers b ha.1 b).mp (hm.turn.targets hc.toSound b hb)).2 rfl

end

end Cluster

end DistributedChat
