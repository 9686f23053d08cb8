import DistributedChat.Cluster.Start
import DistributedChat.Cluster.Broadcast
import DistributedChat.Cluster.Rooms
import DistributedChat.Server.Privates

/-!
# Private messages in a cluster

Whatever the tables of the servers say, a private message leads to one frame
between servers and one packet to a session at most, and that session is filed
under the receiver's name (`private_once`).  `Carried` follows the message: it is
on its way in one frame and nobody was sent it, or it is over.

That nothing else depends on the text is a statement about two runs.
`mapPackets` puts other packets in the place of those a cluster holds, and every
step commutes with it (`step_mapPackets`), except for the two in which the text
is handled.
-/

namespace DistributedChat

open ChatServer

/-- Send another packet instead: `f` says which frame to a peer, `g` which packet to
a session. -/
def Effect.map (f g : RawPacket → RawPacket) : Effect → Effect
  | .toSession k pkt => .toSession k (g pkt)
  | .toPeer p sock pkt => .toPeer p sock (f pkt)

/-- The event with another packet. -/
def Event.map (f g : Cause → RawPacket → RawPacket) : Event → Event
  | .sent a k n pkt => .sent a k n (g n pkt)
  | .received a b n pkt => .received a b n (f n pkt)

namespace Cluster

/-! ## What happens because of an action -/

/-- The private messages sessions were sent because of an action. -/
def privatesSent (log : List Event) (n : Cause) : List (Int × ConnRef × RawPacket) :=
  log.filterMap fun
    | .sent b t m pkt => if m = n ∧ pkt.type = .msgPrivate then some (b, t, pkt) else none
    | .received _ _ _ _ => none

/-- What sessions were sent, without the private messages of an action. -/
def otherPackets (log : List Event) (n : Cause) : List (Int × ConnRef × Cause × RawPacket) :=
  log.filterMap fun
    | .sent b t m pkt => if m = n ∧ pkt.type = .msgPrivate then none else some (b, t, m, pkt)
    | .received _ _ _ _ => none

/-- The frames the acting server hands to the sockets of peers. -/
def handed (c : Cluster) : Action → List Effect
  | .client a (.connect h) => framesOf ((acceptConnection h).run (c.server a)).out
  | .client a (.packet k pkt) => framesOf ((readPacket k pkt).run (c.server a)).out
  | .client a (.disconnect k) => framesOf ((readFailure k).run (c.server a)).out
  | .heartbeat a now => framesOf (heartbeatRound.run { c.server a with now := now }).out
  | .deliver b k =>
      match c.inbox b k with
      | (_, pkt) :: _ => framesOf ((readPacket k pkt).run (c.server b)).out
      | [] => []
  | .dial a b h _ => framesOf ((connectPeer b h).run (c.server a)).out
  | .hang a k => framesOf ((readFailure k).run (c.server a)).out

/-- The frames handed to the sockets of peers in a run because of action `n`. -/
def framesSent (n : Cause) : Cluster → List Action → List Effect
  | _, [] => []
  | c, act :: as =>
      match c.step act with
      | none => []
      | some c' => (if c.causeOf act = n then c.handed act else []) ++ framesSent n c' as

/-- The private messages of action `n` that the action sends go to sessions that
are logged in as the receiver, and decode to the sender and the text. -/
def Addressed (n : Cause) (sender receiver text : Bytes) (c : Cluster) (act : Action) : Prop :=
  ∀ c', c.step act = some c' → ∀ b t pkt,
    (b, t, pkt) ∈ privatesSent (c'.log.drop c.log.length) n →
      (c.server b).Holds t receiver ∧ unpack pkt.payload = [sender, text]

/-! ## Other packets in the same places -/

/-- The cluster with other packets on their way and in the log. -/
def mapPackets (f g : Cause → RawPacket → RawPacket) (c : Cluster) : Cluster :=
  { c with
    inbox := fun b k => (c.inbox b k).map fun e => (e.1, f e.1 e.2)
    log := c.log.map (Event.map f g) }

section

variable {c c' : Cluster} {f g : Cause → RawPacket → RawPacket} {act : Action}

theorem framesTo_map (f g : RawPacket → RawPacket) (a : Int) (out : List Effect)
    (stop : Int × ConnRef) :
    c.framesTo a (out.map (Effect.map f g)) stop = (c.framesTo a out stop).map f := by
  rw [framesTo, framesTo, List.filterMap_map, List.map_filterMap]
  refine List.filterMap_congr fun e _ => ?_
  cases e with
  | toSession => rfl
  | toPeer p sock pkt =>
      simp only [Function.comp_apply, Effect.map]
      split <;> rfl

theorem events_map (a : Int) (m : Cause) (out : List Effect) :
    events a m (out.map (Effect.map (f m) (g m))) = (events a m out).map (Event.map f g) := by
  rw [events, events, List.filterMap_map, List.map_filterMap]
  refine List.filterMap_congr fun e _ => ?_
  cases e <;> rfl

/-- Two programs that differ in the packets they send. -/
theorem perform_mapPackets {a : Int} {m : Cause} {p q : ServerProg Unit}
    (hstate : (q.run (c.server a)).state = (p.run (c.server a)).state)
    (hout : (q.run (c.server a)).out = (p.run (c.server a)).out.map (Effect.map (f m) (g m))) :
    (c.mapPackets f g).perform a m q = (c.perform a m p).mapPackets f g := by
  have hto : ∀ stop, (c.mapPackets f g).framesTo a (q.run (c.server a)).out stop =
      (c.framesTo a (p.run (c.server a)).out stop).map (f m) := by
    intro stop
    rw [hout, ← framesTo_map (f m) (g m)]
    rfl
  refine (Cluster.mk.injEq ..).mpr ⟨rfl, ?_, rfl, ?_, rfl, ?_⟩
  · exact congrArg (Function.update c.server a) hstate
  · funext b k
    show (if (c.server b).reads k = true then _ else _) = List.map _ (if _ then _ else _)
    split
    · rw [List.map_append, List.map_map]
      refine congrArg (_ ++ ·) ?_
      exact (congrArg (List.map (m, ·)) (hto (b, k))).trans (List.map_map ..)
    · rfl
  · show _ ++ events a m (q.run (c.server a)).out = _
    rw [hout, events_map]
    exact List.map_append.symm

/-- The packets of an action stay. -/
def Fixes (f g : Cause → RawPacket → RawPacket) (m : Cause) : Prop :=
  ∀ pkt, f m pkt = pkt ∧ g m pkt = pkt

/-- A program whose packets stay. -/
theorem perform_mapPackets_self {a : Int} {m : Cause} (hf : Fixes f g m) (prog : ServerProg Unit) :
    (c.mapPackets f g).perform a m prog = (c.perform a m prog).mapPackets f g := by
  refine perform_mapPackets rfl (List.map_id'' (fun e => ?_) _).symm
  cases e with
  | toSession k pkt => rw [Effect.map, (hf pkt).2]
  | toPeer p sock pkt => rw [Effect.map, (hf pkt).1]

theorem setInbox_mapPackets (b : Int) (k : ConnRef) (q : List (Cause × RawPacket)) :
    (c.mapPackets f g).setInbox b k (q.map fun e => (e.1, f e.1 e.2)) =
      (c.setInbox b k q).mapPackets f g := by
  rw [setInbox, mapPackets, mapPackets]
  congr 1
  funext y j
  have hin := inbox_setInbox c b k q y j
  have hin' := inbox_setInbox (c.mapPackets f g) b k (q.map fun e => (e.1, f e.1 e.2)) y j
  rw [hin]
  refine hin'.trans ?_
  split <;> rfl

/-- A step whose frames and events stay leads to the same state with other packets. -/
theorem step_mapPackets (hstep : c.step act = some c') (hf : Fixes f g (c.causeOf act)) :
    (c.mapPackets f g).step act = some (c'.mapPackets f g) := by
  cases act with
  | client a ca =>
      simp only [step] at hstep ⊢
      split at hstep
      next ha =>
        refine (if_pos ha).trans ?_
        cases ca with
        | connect h | packet k pkt | disconnect k =>
            simp only [clientStep] at hstep ⊢
            split at hstep
            next hok =>
              cases hstep
              refine (if_pos hok).trans ?_
              exact congrArg (some ∘ tick) (perform_mapPackets_self hf _)
            · cases hstep
      · cases hstep
  | heartbeat a now =>
      simp only [step] at hstep ⊢
      split at hstep
      next hok =>
        cases hstep
        refine (if_pos hok).trans ?_
        exact congrArg (some ∘ tick) (perform_mapPackets_self
          (c := { c with server := Function.update c.server a { c.server a with now := now } }) hf _)
      · cases hstep
  | deliver b k =>
      simp only [step] at hstep ⊢
      split at hstep
      next a j m pkt rest hfar hin =>
        simp only [causeOf, hin] at hf
        have hin' : (c.mapPackets f g).inbox b k =
            (m, pkt) :: rest.map fun e => (e.1, f e.1 e.2) := by
          rw [mapPackets]
          simp only [hin, List.map_cons, (hf pkt).1]
        split at hstep
        next hok =>
          cases hstep
          rw [show (c.mapPackets f g).far b k = some (a, j) from hfar, hin']
          refine (if_pos hok).trans (congrArg some ?_)
          rw [setInbox_mapPackets, ← perform_mapPackets_self hf]
          congr 1
          simp only [note, mapPackets, List.map_append, List.map_cons, List.map_nil, Event.map,
            (hf pkt).1]
        · cases hstep
      · cases hstep
  | dial a b h h' =>
      simp only [causeOf] at hf
      simp only [step] at hstep ⊢
      split at hstep
      next hok =>
        cases hstep
        refine (if_pos hok).trans ?_
        let d := c.join a (c.server a).connManager.nextConn b (c.server b).connManager.nextConn
        have hperf : ((d.mapPackets f g).perform b c.seq (acceptConnection h')).perform a c.seq
            (connectPeer b h) =
              ((d.perform b c.seq (acceptConnection h')).perform a c.seq
                (connectPeer b h)).mapPackets f g := by
          rw [perform_mapPackets_self hf, perform_mapPackets_self hf]
        exact congrArg (some ∘ tick) hperf
      · cases hstep
  | hang a k =>
      simp only [causeOf] at hf
      simp only [step] at hstep ⊢
      split at hstep
      next hok =>
        cases hstep
        refine (if_pos hok).trans ?_
        have hperf : ((c.mapPackets f g).setInbox a k []).perform a c.seq (readFailure k) =
            ((c.setInbox a k []).perform a c.seq (readFailure k)).mapPackets f g := by
          rw [← perform_mapPackets_self hf, ← setInbox_mapPackets]
          rfl
        exact congrArg (some ∘ tick) hperf
      · cases hstep

end

/-! ## The text in two runs -/

/-- The routed message of action `n` with another text. -/
def reroute (n : Cause) (sender receiver text : Bytes) (m : Cause) (pkt : RawPacket) : RawPacket :=
  if m = n ∧ pkt.type = .s2sRouteMsg then ⟨.s2sRouteMsg, pack [sender, receiver, text]⟩ else pkt

/-- The private message of action `n` with another text. -/
def reword (n : Cause) (sender text : Bytes) (m : Cause) (pkt : RawPacket) : RawPacket :=
  if m = n ∧ pkt.type = .msgPrivate then ⟨.msgPrivate, pack [sender, text]⟩ else pkt

section

variable {n m : Cause} {sender receiver text text' : Bytes}

theorem fixes_of_ne (h : m ≠ n) : Fixes (reroute n sender receiver text) (reword n sender text) m :=
  fun _ => ⟨if_neg fun hm => h hm.1, if_neg fun hm => h hm.1⟩

/-- With another text a dispatch sends the same packets with that text. -/
theorem out_outcome_map {s : ChatServer} (d : s.Dispatch receiver) :
    (d.outcome sender text').out = (d.outcome sender text).out.map
      (Effect.map (reroute n sender receiver text' n) (reword n sender text' n)) := by
  have hnotes : d.notes.map
      (Effect.map (reroute n sender receiver text' n) (reword n sender text' n)) = d.notes := by
    refine (List.map_congr_left fun e he => ?_).trans (List.map_id _)
    have haside := d.aside e he
    cases e with
    | toSession k pkt =>
        rw [Effect.map, reword, if_neg, id]
        exact fun h => haside (h.2 ▸ trivial)
    | toPeer => exact haside.elim
  rw [Dispatch.outcome, Dispatch.outcome, List.map_append, hnotes]
  refine congrArg (· ++ _) ?_
  cases d.aim with
  | nobody => rfl
  | session t =>
      simp only [copyTo, List.map_cons, List.map_nil, Effect.map, reword]
      rfl
  | peer p =>
      simp only [copyTo, frames, List.map_filterMap]
      refine List.filterMap_congr fun q _ => ?_
      cases d.state.connManager.linkSocket q with
      | none => rfl
      | some i =>
          simp only [Option.map_some, Effect.map, reroute]
          rfl

theorem otherPackets_map (log : List Event) :
    otherPackets (log.map (Event.map (reroute n sender receiver text) (reword n sender text))) n =
      otherPackets log n := by
  rw [otherPackets, List.filterMap_map]
  refine List.filterMap_congr fun e _ => ?_
  cases e with
  | received => rfl
  | sent b t m pkt =>
      simp only [Function.comp_apply, Event.map, reword]
      by_cases h : m = n ∧ pkt.type = .msgPrivate
      · simp [h.1, h.2]
      · simp only [if_neg h]

/-- Before the action nothing changes. -/
theorem mapPackets_of_fixes {c : Cluster} {R : Bytes → Prop} {f g : Cause → RawPacket → RawPacket}
    (hc : c.Traffic R) (hf : ∀ m < c.seq, Fixes f g m) : c.mapPackets f g = c := by
  refine (Cluster.mk.injEq ..).mpr ⟨rfl, rfl, rfl, ?_, rfl, ?_⟩
  · funext b k
    refine (List.map_congr_left fun e he => ?_).trans (List.map_id _)
    rw [(hf e.1 (hc.tagged he) e.2).1]
    rfl
  · refine (List.map_congr_left fun e he => ?_).trans (List.map_id _)
    have hlt := hc.logged e he
    cases e with
    | sent b t m pkt => rw [Event.map, (hf m hlt pkt).2, id]
    | received a b m pkt => rw [Event.map, (hf m hlt pkt).1, id]

/-! ## What a dispatch leaves behind -/

theorem privatesSent_append (es es' : List Event) :
    privatesSent (es ++ es') n = privatesSent es n ++ privatesSent es' n :=
  List.filterMap_append

theorem privatesSent_eq_nil {es : List Event} (h : ∀ e ∈ es, e.cause ≠ n) :
    privatesSent es n = [] := by
  rw [privatesSent, List.filterMap_eq_nil_iff]
  intro e he
  cases e with
  | sent b t m pkt => exact if_neg fun hh => h _ he hh.1
  | received => rfl

/-- The private messages among the outputs of a dispatch. -/
theorem privatesSent_outcome {s : ChatServer} (d : s.Dispatch receiver) (y : Int) :
    privatesSent (events y n (d.outcome sender text).out) n =
      match d.aim with
      | .session t => [(y, t, ⟨.msgPrivate, pack [sender, text]⟩)]
      | _ => [] := by
  have hnotes : privatesSent (events y n d.notes) n = [] := by
    rw [privatesSent, List.filterMap_eq_nil_iff]
    intro e he
    obtain ⟨t, pkt, hmem, rfl⟩ := mem_events.mp he
    refine if_neg fun h => ?_
    have haside := d.aside _ hmem
    exact haside (h.2 ▸ trivial)
  have hsplit : events y n (d.outcome sender text).out =
      events y n (d.state.copyTo sender receiver text d.aim) ++ events y n d.notes :=
    List.filterMap_append
  rw [hsplit, privatesSent_append, hnotes, List.append_nil]
  cases d.aim with
  | nobody => rfl
  | session t =>
      simp only [copyTo, events, List.filterMap_cons, List.filterMap_nil, privatesSent]
      simp
  | peer p => rw [copyTo, events_framesOf_eq_nil (framesOf_frames ..)]; rfl

theorem framesOf_outcome {s : ChatServer} (d : s.Dispatch receiver) :
    framesOf (d.outcome sender text).out =
      match d.aim with
      | .peer p => d.state.frames [p] ⟨.s2sRouteMsg, pack [sender, receiver, text]⟩
      | _ => [] := by
  have hnotes : framesOf d.notes = [] := by
    rw [framesOf, List.filter_eq_nil_iff]
    intro e he
    have haside := d.aside e he
    cases e with
    | toSession => exact Bool.false_ne_true
    | toPeer => exact haside.elim
  rw [Dispatch.outcome, framesOf_append, hnotes, List.append_nil]
  cases d.aim with
  | nobody => rfl
  | session t => rfl
  | peer p => exact framesOf_frames ..

end

/-! ## Names are filed -/

/-- In a run of first logins in which nobody claims to be a server. -/
structure Filing (c : Cluster) : Prop extends Traffic (fun _ => True) c where
  links : c.LinksTrue
  filed : ∀ a ∈ c.ids, (c.server a).Filed

section

variable {c c' : Cluster} {act : Action} {x : Int} {ps : List Int} {out : RawPacket}

theorem Move.filing (hm : Move c act c' x ps out) (hc : c.Filing) (hf : c.FirstLogins act)
    (hn : NoConnects act) : c'.Filing := by
  have hharm := hn.harmless c
  refine ⟨hm.traffic hc.toTraffic (namesRoom_true act),
    hm.linksTrue hc.toTraffic hharm.noHijack hc.links, fun a ha => ?_⟩
  rw [hm.ids] at ha
  obtain ⟨_, _, hchange, -⟩ := hm.change hc.toTraffic hc.links a
  exact hchange.filed (hc.sane a ha).ok (hc.filed a ha) hf hharm

theorem filing_start {ids : List Int} (hids : ∀ a ∈ ids, IsInt a) : (start ids).Filing where
  toTraffic := traffic_start hids _
  links := linksTrue_start ids
  filed := by
    intro a ha u k hu
    have hname := ((blank_start ids).server a ha).noName u
    rw [hname] at hu
    cases hu

/-- A client's socket that is read has a session. -/
theorem Filing.live (hc : c.Filing) {a : Int} (ha : a ∈ c.ids) {k : ConnRef}
    (hr : (c.server a).reads k = true) (hfar : c.far a k = none) :
    (c.server a).connManager.Live k := by
  refine (reads_eq_true.mp hr).resolve_right fun h => ?_
  obtain ⟨p, hp, hl⟩ := h
  obtain ⟨j, hj⟩ := hc.links ha hp hl
  rw [hfar] at hj
  cases hj

end

/-! ## Where the message is -/

/-- The message of action `n` is on its way in one frame and nobody was sent it, or
it is over. -/
def Carried (n : Cause) (frame : RawPacket) (c : Cluster) : Prop :=
  (∃ b k, (∀ b' k', c.due b' k' n = if b' = b ∧ k' = k then [(n, frame)] else []) ∧
      privatesSent c.log n = []) ∨
    (∀ b k, c.due b k n = []) ∧ (privatesSent c.log n).length ≤ 1

section

variable {c c' : Cluster} {act : Action} {x : Int} {ps : List Int} {out : RawPacket} {n : Cause}
  {sender receiver text text' : Bytes}

theorem due_eq_nil_of_seq_le {R : Bytes → Prop} (hc : c.Traffic R) (hn : c.seq ≤ n) (b : Int)
    (k : ConnRef) : c.due b k n = [] := by
  rw [due, List.filter_eq_nil_iff]
  intro f hf he
  exact Nat.not_le_of_lt (hc.tagged hf) (of_decide_eq_true he ▸ hn)

/-- What is sent to one peer reaches one end. -/
theorem reaches_unique {s : ChatServer} {p : Int} {stop stop' : Int × ConnRef}
    (h : c.Reaches x s [p] stop) (h' : c.Reaches x s [p] stop') : stop' = stop := by
  obtain ⟨q, hq, i, hi, hfar⟩ := h
  obtain ⟨q', hq', i', hi', hfar'⟩ := h'
  rw [List.mem_singleton.mp hq] at hi
  rw [List.mem_singleton.mp hq', hi] at hi'
  cases hi'
  rw [hfar] at hfar'
  cases hfar'
  rfl

/-- A submitted message is on its way in one frame, or it is over. -/
theorem carried_of_submit {a : Int} {prog : ServerProg Unit} (hc : c.Filing)
    (d : (c.server a).Dispatch receiver) (hrun : prog.run (c.server a) = d.outcome sender text) :
    Carried c.seq ⟨.s2sRouteMsg, pack [sender, receiver, text]⟩ (c.perform a c.seq prog).tick := by
  have hdue : ∀ b k, (c.perform a c.seq prog).tick.due b k c.seq =
      if (c.server b).reads k = true
      then (c.framesTo a (d.outcome sender text).out (b, k)).map (c.seq, ·) else [] := by
    intro b k
    have hold := due_eq_nil_of_seq_le hc.toTraffic (Nat.le_refl c.seq) b k
    rw [due] at hold ⊢
    show List.filter _ (if _ then c.inbox b k ++ (c.framesTo a (prog.run _).out (b, k)).map _
      else c.inbox b k) = _
    rw [hrun]
    split
    · rw [List.filter_append, hold, List.nil_append, List.filter_map]
      refine congrArg _ (List.filter_eq_self.mpr fun _ _ => ?_)
      exact decide_eq_true rfl
    · exact hold
  have hsent : privatesSent (c.perform a c.seq prog).tick.log c.seq =
      privatesSent (events a c.seq (d.outcome sender text).out) c.seq := by
    show privatesSent (c.log ++ events a c.seq (prog.run _).out) _ = _
    rw [privatesSent_append, privatesSent_eq_nil fun e he => Nat.ne_of_lt (hc.logged e he), hrun,
      List.nil_append]
  have hto : ∀ stop, c.framesTo a (d.outcome sender text).out stop =
      c.framesTo a (framesOf (d.outcome sender text).out) stop :=
    fun stop => (framesTo_framesOf ..).symm
  rw [privatesSent_outcome] at hsent
  simp only [hto, framesOf_outcome] at hdue
  cases haim : d.aim with
  | nobody =>
      simp only [haim] at hdue hsent
      exact Or.inr ⟨fun b k => (hdue b k).trans (ite_self _), by rw [hsent]; exact Nat.zero_le _⟩
  | session t =>
      simp only [haim] at hdue hsent
      exact Or.inr ⟨fun b k => (hdue b k).trans (ite_self _), by rw [hsent]; exact Nat.le_refl _⟩
  | peer p =>
      simp only [haim] at hdue hsent
      by_cases hgets : ∃ b k, (c.server b).reads k = true ∧ c.Reaches a d.state [p] (b, k)
      · obtain ⟨b, k, hr, hreach⟩ := hgets
        refine Or.inl ⟨b, k, fun b' k' => (hdue b' k').trans ?_, hsent⟩
        by_cases he : b' = b ∧ k' = k
        · rw [if_pos he, he.1, he.2, if_pos hr, framesTo_frames_singleton.1 hreach]
          rfl
        · rw [if_neg he, framesTo_frames_singleton.2, List.map_nil, ite_self]
          intro hreach'
          exact he (Prod.mk.inj (reaches_unique hreach hreach'))
      · refine Or.inr ⟨fun b k => (hdue b k).trans ?_, by rw [hsent]; exact Nat.zero_le _⟩
        split
        next hr =>
          rw [framesTo_frames_singleton.2 fun hreach => hgets ⟨b, k, hr, hreach⟩]
          rfl
        · rfl

/-- An action because of which nothing of the message happens, or the delivery of
its one frame. -/
theorem Carried.cases {frame : RawPacket} (h : Carried n frame c) (hn : n < c.seq)
    (hbeat : frame.type ≠ .s2sHeartbeat) (hc : c.Filing) (hm : Move c act c' x ps out) :
    c.causeOf act ≠ n ∨ ∃ k a j rest, act = .deliver x k ∧ c.far x k = some (a, j) ∧
        c.inbox x k = (n, frame) :: rest ∧ (∀ b i, c'.due b i n = []) ∧
        privatesSent c.log n = [] := by
  by_cases hcause : c.causeOf act = n
  · right
    cases act with
    | deliver y k =>
        obtain ⟨rfl, -, a, j, m, p, rest, hfar, hin, hpkt, hframe⟩ := hm.delivery hc.toTraffic
        simp only [causeOf, hin] at hcause
        subst hcause
        have hdue : c.due x k m = (m, p) :: rest.filter (·.1 = m) := by
          rw [due, hin, List.filter_cons, if_pos (decide_eq_true rfl)]
        rcases h with ⟨b, i, hone, hnone⟩ | ⟨hnone, -⟩
        · rw [hone] at hdue
          split at hdue
          next he =>
            obtain ⟨hhead, hrest⟩ := List.cons.inj hdue
            obtain ⟨-, rfl⟩ := Prod.mk.inj hhead
            refine ⟨k, a, j, rest, rfl, hfar, hin, fun b' i' => ?_, hnone⟩
            have hmute : ps = [] := by
              generalize c'.server x = s' at hframe
              cases hframe with
              | peer => exact if_neg hbeat
              | _ => rfl
            rw [hm.due_eq hc.toSound (Or.inr hmute), kept_deliver hin]
            split
            · exact hrest.symm
            next hne =>
              show c.due b' i' m = []
              rw [hone, if_neg]
              rintro ⟨rfl, rfl⟩
              exact hne ⟨he.1.symm, he.2.symm⟩
          · cases hdue
        · rw [hnone] at hdue
          cases hdue
    | _ => exact absurd hcause (Nat.ne_of_gt hn)
  · exact Or.inl hcause

/-- An action of another number leaves the message where it is, or loses it. -/
theorem Carried.pass {frame : RawPacket} (h : Carried n frame c) (hcause : c.causeOf act ≠ n)
    (hc : c.Filing) (hm : Move c act c' x ps out) : Carried n frame c' := by
  have hlog : privatesSent c'.log n = privatesSent c.log n := by
    have hnone : privatesSent (c.eventsOf act) n = [] := by
      refine privatesSent_eq_nil fun e he => ?_
      rw [cause_of_mem_eventsOf he]
      exact hcause
    rw [hm.log, privatesSent_append, hnone, List.append_nil]
  have hdue : ∀ b k, c'.due b k n = if act = .hang b k then [] else c.due b k n := by
    intro b k
    rw [hm.due_eq hc.toSound (Or.inl hcause), kept]
    split
    next he =>
      subst he
      rw [if_neg (by simp), due]
      cases hin : c.inbox b k with
      | nil => rfl
      | cons f rest =>
          simp only [causeOf, hin] at hcause
          rw [List.tail_cons, List.filter_cons, if_neg fun hf => hcause (of_decide_eq_true hf)]
    · split <;> rfl
  rw [Carried, hlog]
  simp only [hdue]
  rcases h with ⟨b, k, hone, hnone⟩ | ⟨hnone, hone⟩
  · by_cases hlost : act = .hang b k
    · refine Or.inr ⟨fun b' k' => ?_, hnone ▸ Nat.zero_le _⟩
      rw [hone]
      by_cases he : b' = b ∧ k' = k
      · rw [he.1, he.2, if_pos hlost]
      · rw [if_neg he, ite_self]
    · refine Or.inl ⟨b, k, fun b' k' => ?_, hnone⟩
      rw [hone]
      by_cases he : b' = b ∧ k' = k
      · rw [he.1, he.2, if_neg hlost]
      · rw [if_neg he, ite_self]
  · exact Or.inr ⟨fun b k => by rw [hnone, ite_self], hone⟩

end

/-! ## After the submission -/

section

variable {c c' : Cluster} {act : Action} {x : Int} {ps : List Int} {out : RawPacket} {n : Cause}
  {sender receiver text text' : Bytes}

/-- The state of a run in which the message has been submitted. -/
structure After (n : Cause) (sender receiver text : Bytes) (c : Cluster) : Prop
    extends Filing c where
  later : n < c.seq
  carried : Carried n ⟨.s2sRouteMsg, pack [sender, receiver, text]⟩ c

/-- A dispatch sends the message to a session of the receiver, if to any. -/
theorem addressed_of_dispatch {y b : Int} {t : ConnRef} {pkt : RawPacket}
    (d : (c.server y).Dispatch receiver) (hfiled : (c.server y).Filed) (hs : NulFree sender)
    (ht : NulFree text)
    (hmem : (b, t, pkt) ∈ privatesSent (events y n (d.outcome sender text).out) n) :
    (c.server b).Holds t receiver ∧ unpack pkt.payload = [sender, text] := by
  rw [privatesSent_outcome] at hmem
  split at hmem
  next t' haim =>
    obtain ⟨rfl, hrest⟩ := Prod.mk.inj (List.mem_singleton.mp hmem)
    obtain ⟨rfl, rfl⟩ := Prod.mk.inj hrest
    refine ⟨hfiled _ _ (d.filed t haim), unpack_pack fun f hf => ?_⟩
    simp only [List.mem_cons, List.not_mem_nil, or_false] at hf
    rcases hf with rfl | rfl
    · exact hs
    · exact ht
  · exact absurd hmem List.not_mem_nil

/-- Reading the frame is a dispatch to a session. -/
theorem dispatch_of_deliver (hc : c.Filing) (hs : NulFree sender) (hr : NulFree receiver) {b : Int}
    {k : ConnRef} {stop : Int × ConnRef} (hfar : c.far b k = some stop) :
    ∃ d : (c.server b).Dispatch receiver, (∀ p, d.aim ≠ .peer p) ∧ ∀ {text}, NulFree text →
      (readPacket k ⟨.s2sRouteMsg, pack [sender, receiver, text]⟩).run (c.server b) =
        d.outcome sender text :=
  dispatch_routeMsg (hc.anonymous (by rw [hfar]; exact Option.some_ne_none _)) hs hr

/-- What the delivery of the frame leaves in the log. -/
theorem eventsOf_deliver {a : Int} {k j : ConnRef} {m : Cause} {pkt : RawPacket}
    {rest : List (Cause × RawPacket)} (hfar : c.far x k = some (a, j))
    (hin : c.inbox x k = (m, pkt) :: rest) : c.eventsOf (.deliver x k) =
      .received a x m pkt :: events x m ((readPacket k pkt).run (c.server x)).out := by
  simp only [eventsOf, hfar, hin]

theorem privatesSent_deliver {s : ChatServer} (d : s.Dispatch receiver) {a y : Int}
    {pkt : RawPacket} : privatesSent (.received a y n pkt ::
      events y n (d.outcome sender text).out) n =
        match d.aim with
        | .session t => [(y, t, ⟨.msgPrivate, pack [sender, text]⟩)]
        | _ => [] :=
  privatesSent_outcome d y

theorem After.next (h : After n sender receiver text c) (hs : NulFree sender)
    (hr : NulFree receiver) (ht : NulFree text) (hf : c.FirstLogins act) (hno : NoConnects act)
    (hstep : c.step act = some c') : After n sender receiver text c' := by
  obtain ⟨x, ps, out, hm⟩ := step_move h.toSound hstep
  refine ⟨hm.filing h.toFiling hf hno, ?_, ?_⟩
  · rw [hm.seq]
    exact Nat.lt_of_lt_of_le h.later (le_seqOf c act)
  · rcases h.carried.cases h.later PacketType.noConfusion h.toFiling hm with
      hcause | ⟨k, a, j, rest, rfl, hfar, hin, hdue, hnone⟩
    · exact h.carried.pass hcause h.toFiling hm
    · obtain ⟨d, -, hrun⟩ := dispatch_of_deliver h.toFiling hs hr hfar
      refine Or.inr ⟨hdue, ?_⟩
      rw [hm.log, eventsOf_deliver hfar hin, hrun ht, privatesSent_append, hnone,
        privatesSent_deliver, List.nil_append]
      split
      · exact Nat.le_refl _
      · exact Nat.zero_le _

theorem drop_log (hm : Move c act c' x ps out) : c'.log.drop c.log.length = c.eventsOf act := by
  rw [hm.log, List.drop_left]

/-- After the submission the message is sent to a session of the receiver, if any. -/
theorem After.addressed (h : After n sender receiver text c) (hs : NulFree sender)
    (hr : NulFree receiver) (ht : NulFree text) : Addressed n sender receiver text c act := by
  intro c' hstep b t pkt hmem
  obtain ⟨x, ps, out, hm⟩ := step_move h.toSound hstep
  rw [drop_log hm] at hmem
  rcases h.carried.cases h.later PacketType.noConfusion h.toFiling hm with
    hcause | ⟨k, a, j, rest, rfl, hfar, hin, hdue, hnone⟩
  · rw [privatesSent_eq_nil fun e he => cause_of_mem_eventsOf he ▸ hcause] at hmem
    exact absurd hmem List.not_mem_nil
  · obtain ⟨d, -, hrun⟩ := dispatch_of_deliver h.toFiling hs hr hfar
    rw [eventsOf_deliver hfar hin, hrun ht] at hmem
    exact addressed_of_dispatch d (h.filed x (h.far_ids hfar).1) hs ht hmem

/-- After the submission no server hands a frame to a peer because of it. -/
theorem After.framesSent_eq_nil (hs : NulFree sender) (hr : NulFree receiver) (ht : NulFree text) :
    ∀ {as : List Action} {c : Cluster}, After n sender receiver text c →
      Along step FirstLogins c as → (∀ act ∈ as, NoConnects act) → framesSent n c as = []
  | [], _, _, _, _ => rfl
  | act :: as, c, h, hf, hno => by
      rw [framesSent]
      cases hstep : c.step act with
      | none => rfl
      | some c' =>
          obtain ⟨hfirst, hrest⟩ := (along_cons hstep).mp hf
          have hnoact := hno act (List.mem_cons_self ..)
          have hnext := h.next hs hr ht hfirst hnoact hstep
          have hlater := After.framesSent_eq_nil hs hr ht hnext hrest fun b hb =>
            hno b (List.mem_cons_of_mem _ hb)
          simp only [hlater, List.append_nil, ite_eq_right_iff]
          intro hcause
          obtain ⟨x, ps, out, hm⟩ := step_move h.toSound hstep
          obtain ⟨k, a, j, rest, rfl, hfar, hin, -, -⟩ :=
            (h.carried.cases h.later PacketType.noConfusion h.toFiling hm).resolve_left
              fun hne => hne hcause
          obtain ⟨d, haim, hrun⟩ := dispatch_of_deliver h.toFiling hs hr hfar
          simp only [handed, hin]
          rw [hrun ht, framesOf_outcome]
          split
          next p hp => exact absurd hp (haim p)
          · rfl

/-- After the submission the two runs take the same steps. -/
theorem After.retext (h : After n sender receiver text c) (hs : NulFree sender)
    (hr : NulFree receiver) (ht : NulFree text) (ht' : NulFree text')
    (hfits : RawPacket.Fits ⟨.s2sRouteMsg, pack [sender, receiver, text']⟩)
    (hstep : c.step act = some c') :
    (c.mapPackets (reroute n sender receiver text') (reword n sender text')).step act =
      some (c'.mapPackets (reroute n sender receiver text') (reword n sender text')) := by
  obtain ⟨x, ps, out, hm⟩ := step_move h.toSound hstep
  rcases h.carried.cases h.later PacketType.noConfusion h.toFiling hm with
    hcause | ⟨k, a, j, rest, rfl, hfar, hin, -, -⟩
  · exact step_mapPackets hstep (fixes_of_ne hcause)
  · obtain ⟨d, -, hrun⟩ := dispatch_of_deliver h.toFiling hs hr hfar
    simp only [step, hfar, hin] at hstep
    split at hstep
    next hok =>
      cases hstep
      let f := reroute n sender receiver text'
      let g := reword n sender text'
      have hin' : (c.mapPackets f g).inbox x k =
          (n, ⟨.s2sRouteMsg, pack [sender, receiver, text']⟩) ::
            rest.map fun e => (e.1, f e.1 e.2) := by
        rw [mapPackets]
        simp only [hin, List.map_cons]
        refine congrArg (· :: _) (Prod.mk.injEq .. |>.mpr ⟨rfl, ?_⟩)
        exact if_pos ⟨rfl, rfl⟩
      show step (c.mapPackets f g) (.deliver x k) = _
      simp only [step]
      rw [show (c.mapPackets f g).far x k = some (a, j) from hfar, hin']
      refine (if_pos ⟨hok.1, hfits⟩).trans (congrArg some ?_)
      have hstate : ((readPacket k ⟨.s2sRouteMsg, pack [sender, receiver, text']⟩).run
          (c.server x)).state =
            ((readPacket k ⟨.s2sRouteMsg, pack [sender, receiver, text]⟩).run (c.server x)).state := by
        rw [hrun ht, hrun ht']
        rfl
      have hout : ((readPacket k ⟨.s2sRouteMsg, pack [sender, receiver, text']⟩).run
          (c.server x)).out =
            ((readPacket k ⟨.s2sRouteMsg, pack [sender, receiver, text]⟩).run
              (c.server x)).out.map (Effect.map (f n) (g n)) := by
        rw [hrun ht, hrun ht']
        exact out_outcome_map d
      let e := Event.received a x n ⟨.s2sRouteMsg, pack [sender, receiver, text]⟩
      refine Eq.trans ?_ (perform_mapPackets (c := (c.setInbox x k rest).note e) hstate hout)
      rw [setInbox_mapPackets]
      refine congrArg (perform · x n _) ?_
      simp only [note, mapPackets, List.map_append, List.map_cons, List.map_nil]
      have he : Event.map f g e =
          .received a x n ⟨.s2sRouteMsg, pack [sender, receiver, text']⟩ := by
        simp only [e, Event.map]
        exact congrArg _ (if_pos ⟨rfl, rfl⟩)
      rw [he]
    · cases hstep

/-- What is sent at the submission is sent to a session of the receiver. -/
theorem addressed_of_submit {a : Int} {k : ConnRef} {payload : Bytes} (hc : c.Filing)
    (ha : a ∈ c.ids) (d : (c.server a).Dispatch receiver)
    (hrun : (readPacket k ⟨.msgPrivate, payload⟩).run (c.server a) = d.outcome sender text)
    (hs : NulFree sender) (ht : NulFree text) :
    Addressed c.seq sender receiver text c (.client a (.packet k ⟨.msgPrivate, payload⟩)) := by
  intro c' hstep b t pkt hmem
  obtain ⟨x, ps, out, hm⟩ := step_move hc.toSound hstep
  rw [drop_log hm] at hmem
  simp only [eventsOf] at hmem
  rw [hrun] at hmem
  exact addressed_of_dispatch d (hc.filed a ha) hs ht hmem

/-- The two runs begin alike. -/
theorem submit_mapPackets {a : Int} {k : ConnRef} {payload payload' : Bytes}
    (hc : c.Filing) (d : (c.server a).Dispatch receiver)
    (hrun : (readPacket k ⟨.msgPrivate, payload⟩).run (c.server a) = d.outcome sender text)
    (hrun' : (readPacket k ⟨.msgPrivate, payload'⟩).run (c.server a) = d.outcome sender text')
    (hfits : RawPacket.Fits ⟨.msgPrivate, payload'⟩)
    (hstep : c.step (.client a (.packet k ⟨.msgPrivate, payload⟩)) = some c') :
    c.step (.client a (.packet k ⟨.msgPrivate, payload'⟩)) =
      some (c'.mapPackets (reroute c.seq sender receiver text') (reword c.seq sender text')) := by
  simp only [step, clientStep] at hstep ⊢
  split at hstep
  next ha =>
    split at hstep
    next hok =>
      cases hstep
      rw [if_pos ha, if_pos ⟨hok.1, hok.2.1, hfits⟩]
      have hself := mapPackets_of_fixes (f := reroute c.seq sender receiver text')
        (g := reword c.seq sender text') hc.toTraffic fun m hm => fixes_of_ne (Nat.ne_of_lt hm)
      have hperf := perform_mapPackets (c := c) (a := a) (m := c.seq)
        (p := readPacket k ⟨.msgPrivate, payload⟩) (q := readPacket k ⟨.msgPrivate, payload'⟩)
        (f := reroute c.seq sender receiver text') (g := reword c.seq sender text')
        (by rw [hrun, hrun']; rfl) (by rw [hrun, hrun']; exact out_outcome_map d)
      rw [hself] at hperf
      exact congrArg (some ∘ tick) hperf
    · cases hstep
  · cases hstep

end

/-- What is promised of a private message of session `k` of server `a` in the state
`c`, when the actions `bs` follow and lead to `c₂`. -/
structure DeliveredOnce (c : Cluster) (a : Int) (k : ConnRef) (payload receiver text : Bytes)
    (bs : List Action) (c₂ : Cluster) : Prop where
  /-- At most one frame is handed to a peer because of it. -/
  frames : (framesSent c.seq c (.client a (.packet k ⟨.msgPrivate, payload⟩) :: bs)).length ≤ 1
  /-- At most one session is sent a private message because of it. -/
  once : (privatesSent c₂.log c.seq).length ≤ 1
  /-- That session is logged in as the receiver at that moment. -/
  addressed : Along step (Addressed c.seq ((c.server a).nameOf k) receiver text) c
    (.client a (.packet k ⟨.msgPrivate, payload⟩) :: bs)
  /-- With another text all other packets to sessions are the same. -/
  independent : ∀ payload' text', (∃ fields', unpack payload' = receiver :: text' :: fields') →
    RawPacket.Fits ⟨.msgPrivate, payload'⟩ →
    RawPacket.Fits ⟨.s2sRouteMsg, pack [(c.server a).nameOf k, receiver, text']⟩ →
    ∃ c₁' c₂', c.step (.client a (.packet k ⟨.msgPrivate, payload'⟩)) = some c₁' ∧
      exec step c₁' bs = some c₂' ∧ otherPackets c₂'.log c.seq = otherPackets c₂.log c.seq

/-- In every run of servers that have just started, whatever their tables say, with
first logins and without a client's `S2S_CONNECT`: a private message submitted in
any state `c` is handed to at most one peer and to at most one session, which is
the receiver's, and nothing else that sessions are sent depends on its text. -/
theorem private_once (ids : List Int) (as bs : List Action) (c c₁ c₂ : Cluster) (a : Int)
    (k : ConnRef) (payload receiver text : Bytes) (fields : List Bytes)
    (hids : ∀ a ∈ ids, IsInt a) (hrun : exec step (start ids) as = some c)
    (hu : unpack payload = receiver :: text :: fields)
    (hstep : c.step (.client a (.packet k ⟨.msgPrivate, payload⟩)) = some c₁)
    (hrun₂ : exec step c₁ bs = some c₂) (hno : ∀ act ∈ as ++ bs, NoConnects act)
    (hf : Along step FirstLogins (start ids)
      (as ++ .client a (.packet k ⟨.msgPrivate, payload⟩) :: bs)) :
    c.DeliveredOnce a k payload receiver text bs c₂ := by
  obtain ⟨hfas, hfrest⟩ := (along_append hrun).mp hf
  obtain ⟨hfirst, hfbs⟩ := (along_cons hstep).mp hfrest
  have hnobs : ∀ act ∈ bs, NoConnects act := fun act h => hno act (List.mem_append_right _ h)
  have keep : ∀ {d : Cluster} {act : Action} {d' : Cluster}, d.Filing →
      d.FirstLogins act ∧ NoConnects act → d.step act = some d' → d'.Filing := by
    intro d act d' hi hact hd
    obtain ⟨x, ps, out, hm⟩ := step_move hi.toSound hd
    exact hm.filing hi hact.1 hact.2
  have hc : c.Filing := exec_induct (I := Filing) keep (filing_start hids)
    (hfas.and (along_of_forall fun act h => hno act (List.mem_append_left _ h))) hrun
  -- the submission
  obtain ⟨ha, hcl⟩ := mem_of_clientStep hstep
  have hsane := hc.sane a ha
  have hs : NulFree ((c.server a).nameOf k) := hsane.ok.nulFree_username k
  have hr : NulFree receiver := nulFree_of_mem_unpack (show receiver ∈ unpack payload by simp [hu])
  have ht : NulFree text := nulFree_of_mem_unpack (show text ∈ unpack payload by simp [hu])
  simp only [clientStep] at hcl
  split at hcl
  next hok =>
    cases hcl
    obtain ⟨d, hd⟩ := dispatch_msgPrivate (linksGood_of_usable hsane.usable)
      (hc.live ha hok.1 hok.2.1) receiver
    have hafter : After c.seq ((c.server a).nameOf k) receiver text
        (c.perform a c.seq (readPacket k ⟨.msgPrivate, payload⟩)).tick :=
      ⟨keep hc ⟨hfirst, by simp [NoConnects, NoConnect]⟩ hstep, Nat.lt_succ_self _,
        carried_of_submit hc d (hd hu)⟩
    have hinv : ∀ {d : Cluster} {act : Action} {d' : Cluster},
        After c.seq ((c.server a).nameOf k) receiver text d →
          d.FirstLogins act ∧ NoConnects act → d.step act = some d' →
            After c.seq ((c.server a).nameOf k) receiver text d' :=
      fun hi hact hd' => hi.next hs hr ht hact.1 hact.2 hd'
    have hbs := hfbs.and (along_of_forall hnobs)
    refine ⟨?_, ?_, (along_cons hstep).mpr ⟨addressed_of_submit hc ha d (hd hu) hs ht, ?_⟩, ?_⟩
    · rw [framesSent, hstep]
      simp only [hafter.framesSent_eq_nil hs hr ht hfbs hnobs, List.append_nil, causeOf, if_true,
        handed]
      rw [hd hu, framesOf_outcome]
      split
      · exact List.length_filterMap_le ..
      · exact Nat.zero_le _
    · rcases (exec_induct hinv hafter hbs hrun₂).carried with ⟨-, -, -, hnone⟩ | ⟨-, hone⟩
      · rw [hnone]
        exact Nat.zero_le _
      · exact hone
    · exact Along.of_invariant hinv (fun hi _ => hi.addressed hs hr ht) hafter hbs
    · intro payload' text' hu' hfits hfits'
      obtain ⟨fields', hu'⟩ := hu'
      have ht' : NulFree text' :=
        nulFree_of_mem_unpack (show text' ∈ unpack payload' by simp [hu'])
      have hmap := @exec_map _ _ step _ _
        (mapPackets (reroute c.seq ((c.server a).nameOf k) receiver text')
          (reword c.seq ((c.server a).nameOf k) text'))
        hinv (fun hi _ hd' => hi.retext hs hr ht ht' hfits' hd') _ _ _ hafter hbs hrun₂
      exact ⟨_, _, submit_mapPackets hc d (hd hu) (hd hu') hfits hstep, hmap, otherPackets_map _⟩
  · cases hcl

/-- Bob, on server 2, writes to Ann, on server 1. -/
theorem private_once_hi : ∃ c c₁ c₂, exec step (start [1, 2]) logins = some c ∧
    c.step (.client 2 (.packet 1 ⟨.msgPrivate, pack [ascii "ann", ascii "hi"]⟩)) = some c₁ ∧
    exec step c₁ [.deliver 1 0] = some c₂ ∧
    c.DeliveredOnce 2 1 (pack [ascii "ann", ascii "hi"]) (ascii "ann") (ascii "hi")
      [.deliver 1 0] c₂ := by
  have hrun : (exec step (start [1, 2]) logins).any fun c =>
      (c.step (.client 2 (.packet 1 ⟨.msgPrivate, pack [ascii "ann", ascii "hi"]⟩))).any fun c₁ =>
        (exec step c₁ [.deliver 1 0]).any fun c₂ => (privatesSent c₂.log c.seq).length = 1 := by
    decide +kernel
  have hlog : Along step FirstLogins (start [1, 2]) (logins ++
      [.client 2 (.packet 1 ⟨.msgPrivate, pack [ascii "ann", ascii "hi"]⟩), .deliver 1 0]) := by
    decide +kernel
  obtain ⟨c, hc, h⟩ := (Option.any_eq_true ..).mp hrun
  obtain ⟨c₁, hc₁, h⟩ := (Option.any_eq_true ..).mp h
  obtain ⟨c₂, hc₂, -⟩ := (Option.any_eq_true ..).mp h
  exact ⟨c, c₁, c₂, hc, hc₁, hc₂, private_once [1, 2] logins [.deliver 1 0] c c₁ c₂ 2 1
    (pack [ascii "ann", ascii "hi"]) (ascii "ann") (ascii "hi") [] (by decide) hc
    (unpack_pack (by decide)) hc₁ hc₂ (by decide) hlog⟩

end Cluster

end DistributedChat
