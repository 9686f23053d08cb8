import DistributedChat.Cluster.Moments
import DistributedChat.Cluster.Outages

/-!
# Who a chat message is from

As long as no client claims to be a configured peer, every chat message a session
is sent bears the name under which the client that submitted it was logged in
(`sender_authentic`).  And no packet of a client changes a link, but for one thing:
handling it may include a send to a peer, and if the peer's socket does not take
the frame, the peer is disconnected.  All of this holds whatever the network does.

The gate of `HandleClientPacket` lets an `S2S_CONNECT` of any connection pass, so a
client that does claim to be a peer takes its place and may say anything
(`hijack_forges_sender`).
-/

namespace DistributedChat

open ChatServer

namespace Cluster

/-- Occurrence number `cause` of the run is a packet of a client that is logged in
under the name. -/
def Submitted (c₀ : Cluster) (is : List Occurrence) (cause : Cause) (name : Bytes) : Prop :=
  ∃ pre a k pkt post c, is = pre ++ .act (.client a (.packet k pkt)) :: post ∧
    exec undergo c₀ pre = some c ∧ c.seq = cause ∧ c.far a k = none ∧ (c.server a).Holds k name

theorem Submitted.append {c₀ : Cluster} {is : List Occurrence} {cause : Cause} {name : Bytes}
    (h : Submitted c₀ is cause name) (js : List Occurrence) :
    Submitted c₀ (is ++ js) cause name := by
  obtain ⟨pre, a, k, pkt, post, c, rfl, h⟩ := h
  exact ⟨pre, a, k, pkt, post ++ js, c, by simp, h⟩

/-- Every chat message a session was sent bears the name of who submitted it. -/
def SendersTrue (c₀ : Cluster) (is : List Occurrence) (c : Cluster) : Prop :=
  ∀ a k cause pkt, .sent a k cause pkt ∈ c.log → pkt.type.IsMessage →
    ∃ name, Submitted c₀ is cause name ∧ pkt.sender? = some name

/-- A packet of a client leaves the links of its server as they are, but for those of peers whose
sockets take no frames, which it may take down. -/
def LinksKept (c : Cluster) (i : Occurrence) : Prop :=
  match i with
  | .act (.client a (.packet _ _)) => ∀ c', c.undergo i = some c' →
      ∀ p ∈ (c.server a).connManager.getAllPeerNodes,
        (c'.server a).connManager.linkSocket p = (c.server a).connManager.linkSocket p ∨
          (c.server a).Unreachable p ∧ (c'.server a).connManager.linkSocket p = none
  | _ => True

/-- No client claims to be a configured peer. -/
def NoClaim (c : Cluster) : Occurrence → Prop
  | .act act => c.NoHijack act
  | _ => True

instance (c : Cluster) : DecidablePred c.NoClaim := fun
  | .act act => inferInstanceAs (Decidable (c.NoHijack act))
  | .cutOff _ _ | .beat _ _ => instDecidableTrue

/-- A chat message bears the name of who submitted it. -/
def Bears (c₀ : Cluster) (is : List Occurrence) (cause : Cause) (pkt : RawPacket) : Prop :=
  pkt.type.IsChat → ∃ name, Submitted c₀ is cause name ∧ pkt.sender? = some name

/-- What is known after a run in which no client claims to be a peer. -/
structure Authentic (c₀ : Cluster) (is : List Occurrence) (c : Cluster) : Prop where
  ok : ∀ a, (c.server a).connManager.Ok
  made : ∀ a k, (c.server a).Authenticated k → k < (c.server a).connManager.nextConn
  /-- Nobody has logged in over a connection between servers. -/
  anonymous : ∀ a k, c.far a k ≠ none → ¬ (c.server a).Authenticated k
  /-- The links are connections between servers. -/
  linked : ∀ a, ∀ p ∈ (c.server a).connManager.peerNodes, ∀ k,
    (c.server a).connManager.linkSocket p = some k → c.far a k ≠ none
  frames : ∀ b k f, f ∈ c.inbox b k → f.2.type.IsS2S ∧ Bears c₀ is f.1 f.2
  events : ∀ a k cause pkt, .sent a k cause pkt ∈ c.log → Bears c₀ is cause pkt

section

variable {c₀ c c' : Cluster} {is : List Occurrence} {i : Occurrence} {a b : Int} {k : ConnRef}
  {cause : Cause} {prog : ServerProg Unit} {m : Moment}

theorem Authentic.append (h : Authentic c₀ is c) (js : List Occurrence) :
    Authentic c₀ (is ++ js) c := by
  have hbears : ∀ {cause pkt}, Bears c₀ is cause pkt → Bears c₀ (is ++ js) cause pkt := by
    intro cause pkt hb hchat
    obtain ⟨name, hname, htells⟩ := hb hchat
    exact ⟨name, hname.append js, htells⟩
  exact { h with
    frames := fun b k f hf => ⟨(h.frames b k f hf).1, hbears (h.frames b k f hf).2⟩
    events := fun a k cause pkt he => hbears (h.events a k cause pkt he) }

/-- Time passes, the next number is taken, or frames are taken off their way. -/
theorem Authentic.idle (h : Authentic c₀ is c)
    (hconn : ∀ a, (c'.server a).connManager = (c.server a).connManager) (hfar : c'.far = c.far)
    (hin : ∀ b k f, f ∈ c'.inbox b k → f ∈ c.inbox b k)
    (hlog : ∀ a k cause pkt, .sent a k cause pkt ∈ c'.log → .sent a k cause pkt ∈ c.log) :
    Authentic c₀ is c' where
  ok := fun a => hconn a ▸ h.ok a
  made := by
    intro a k hk
    rw [Authenticated, hconn] at hk
    rw [hconn]
    exact h.made a k hk
  anonymous := by
    intro a k hk
    rw [hfar] at hk
    rw [Authenticated, hconn]
    exact h.anonymous a k hk
  linked := by
    intro a
    rw [hconn, hfar]
    exact h.linked a
  frames := fun b k f hf => h.frames b k f (hin b k f hf)
  events := fun a k cause pkt he => h.events a k cause pkt (hlog a k cause pkt he)

/-- Two new sockets become the ends of a connection. -/
theorem Authentic.join (h : Authentic c₀ is c) (hne : a ≠ b) : Authentic c₀ is
    (c.join a (c.server a).connManager.nextConn b (c.server b).connManager.nextConn) where
  ok := h.ok
  made := h.made
  anonymous := by
    intro x k hk ha
    rw [far_join hne] at hk
    split at hk
    next he =>
      obtain ⟨rfl, rfl⟩ := he
      exact Nat.lt_irrefl _ (h.made _ _ ha)
    next =>
      split at hk
      next he =>
        obtain ⟨rfl, rfl⟩ := he
        exact Nat.lt_irrefl _ (h.made _ _ ha)
      next => exact h.anonymous x k hk ha
  linked := by
    intro x p hp k hl
    rw [far_join hne]
    split
    · exact Option.some_ne_none _
    · split
      · exact Option.some_ne_none _
      · exact h.linked x p hp k hl
  frames := h.frames
  events := h.events

theorem mem_inbox_perform {f : Cause × RawPacket}
    (hf : f ∈ (c.perform a cause prog).inbox b k) : f ∈ c.inbox b k ∨
      ∃ p sock pkt, .toPeer p sock pkt ∈ (prog.run (c.server a)).out ∧ f = (cause, pkt) := by
  have hsplit : f ∈ c.inbox b k ++
      (c.framesTo a (prog.run (c.server a)).out (b, k)).map (cause, ·) → f ∈ c.inbox b k ∨
        ∃ p sock pkt, .toPeer p sock pkt ∈ (prog.run (c.server a)).out ∧ f = (cause, pkt) := by
    intro hf
    rcases List.mem_append.mp hf with hf | hf
    · exact Or.inl hf
    · obtain ⟨pkt, hpkt, rfl⟩ := List.mem_map.mp hf
      obtain ⟨e, he, hsome⟩ := List.mem_filterMap.mp hpkt
      cases e with
      | toSession => cases hsome
      | toPeer p sock q =>
          obtain ⟨-, hq⟩ := Option.ite_none_right_eq_some.mp hsome
          cases hq
          exact Or.inr ⟨p, sock, pkt, he, rfl⟩
  change f ∈ (if _ then _ else _) at hf
  split at hf
  · exact hsplit hf
  · exact Or.inl hf

/-- A moment of one server.  A login comes from a client, and who claims to be a peer, or is linked
by the connector, is at the end of a connection between servers. -/
theorem Authentic.become (h : Authentic c₀ is c) {s : ChatServer}
    (hn : (c.server a).timedNext m = some s)
    (hlogin : ∀ k pkt, m = .packet k pkt → pkt.type = .login → c.far a k = none)
    (hclaim : ∀ k pkt, m = .packet k pkt → pkt.type = .s2sConnect →
      ∀ p ∈ (c.server a).connManager.peerNodes, stoi pkt.payload = some p → c.far a k ≠ none)
    (hdial : ∀ p handle, m = .dial p handle →
      c.far a (c.server a).connManager.nextConn ≠ none) : Authentic c₀ is (c.become a s) := by
  have hkeep := timedNext_keeping (h.ok a) hn
  have hmakes := makes_timedNext (h.ok a) hn
  refine ⟨fun x => ?_, fun x k => ?_, fun x k hfar => ?_, fun x => ?_, h.frames, h.events⟩
  · rw [server_become]
    split
    · exact hkeep.ok
    · exact h.ok x
  · rw [server_become]
    split
    next he =>
      subst he
      intro hk
      refine Nat.lt_of_lt_of_le ?_ hmakes.next
      rcases hmakes.authenticated k hk with hk | ⟨hlive, -⟩
      · exact h.made x k hk
      · exact (h.ok x).live_lt hlive
    next => exact h.made x k
  · rw [server_become]
    split
    next he =>
      subst he
      intro hk
      rcases hmakes.authenticated k hk with hk | ⟨-, pkt, hm, ht⟩
      · exact h.anonymous x k hfar hk
      · exact hfar (hlogin k pkt hm ht)
    next => exact h.anonymous x k hfar
  · rw [server_become]
    split
    next he =>
      subst he
      intro p hp k hl
      rw [hkeep.peers] at hp
      rcases hmakes.linked p hp k hl with hl | ⟨pkt, hm, ht, hq⟩ | ⟨handle, hm, rfl⟩
      · exact h.linked x p hp k hl
      · exact hclaim k pkt hm ht p hp hq
      · exact hdial p handle hm
    next => exact h.linked x

/-- The outputs of a program go on their way. -/
theorem Authentic.perform
    (h : Authentic c₀ is (c.become a (prog.run (c.server a)).state))
    (hpeers : Prog.Emits Effect.ForPeers prog)
    (hbears : ∀ e ∈ (prog.run (c.server a)).out, Bears c₀ is cause e.packet) :
    Authentic c₀ is (c.perform a cause prog) := by
  refine ⟨h.ok, h.made, h.anonymous, h.linked, fun b k f hf => ?_, fun x k q pkt he => ?_⟩
  · rcases mem_inbox_perform hf with hf | ⟨p, sock, pkt, he, rfl⟩
    · exact h.frames b k f hf
    · exact ⟨hpeers _ _ he, hbears _ he⟩
  · rcases List.mem_append.mp he with he | he
    · exact h.events x k q pkt he
    · obtain ⟨j, pkt', hmem, heq⟩ := mem_events.mp he
      cases heq
      exact hbears _ hmem

/-- A moment that is not the handling of a packet. -/
theorem Authentic.become_quiet (h : Authentic c₀ is c) {s : ChatServer}
    (hn : (c.server a).timedNext m = some s) (hm : ∀ k pkt, m ≠ .packet k pkt)
    (hdial : ∀ p handle, m = .dial p handle →
      c.far a (c.server a).connManager.nextConn ≠ none) : Authentic c₀ is (c.become a s) :=
  h.become hn (fun k pkt he => absurd he (hm k pkt)) (fun k pkt he => absurd he (hm k pkt)) hdial

/-- The program of such a moment sends no chat messages. -/
theorem Authentic.perform_plain (h : Authentic c₀ is c)
    (hn : (c.server a).timedNext m = some (prog.run (c.server a)).state)
    (hm : ∀ k pkt, m ≠ .packet k pkt)
    (hdial : ∀ p handle, m = .dial p handle →
      c.far a (c.server a).connManager.nextConn ≠ none)
    (hplain : Prog.Emits Effect.Plain prog) : Authentic c₀ is (c.perform a cause prog) :=
  (h.become_quiet hn hm hdial).perform (hplain.mono fun _ => And.right)
    fun e he hchat => absurd hchat (hplain _ e he).1

/-- A round of the heartbeat loop. -/
theorem Authentic.beat (h : Authentic c₀ is c) (a : Int) (now : Nat) (cause : Cause) :
    Authentic c₀ is
      ((c.become a { c.server a with now := now }).perform a cause heartbeatRound) := by
  have hnow : Authentic c₀ is (c.become a { c.server a with now := now }) := by
    refine h.idle (fun x => ?_) rfl (fun _ _ _ hf => hf) fun _ _ _ _ he => he
    rw [server_become]
    split
    next he => rw [he]
    next => rfl
  exact hnow.perform_plain (m := .beat) rfl (by simp) (by simp) plain_heartbeatRound

theorem Authentic.tick (h : Authentic c₀ is c) : Authentic c₀ is c.tick :=
  h.idle (fun _ => rfl) rfl (fun _ _ _ hf => hf) fun _ _ _ _ he => he

theorem Authentic.noteReceived (h : Authentic c₀ is c) (x y : Int) (q : Cause) (pkt : RawPacket) :
    Authentic c₀ is (c.note (.received x y q pkt)) := by
  refine h.idle (fun _ => rfl) rfl (fun _ _ _ hf => hf) fun a k q' pkt' he => ?_
  rcases List.mem_append.mp he with he | he
  · exact he
  · cases List.mem_singleton.mp he

theorem Authentic.setInbox (h : Authentic c₀ is c) {q : List (Cause × RawPacket)}
    (hq : ∀ f ∈ q, f ∈ c.inbox b k) : Authentic c₀ is (c.setInbox b k q) := by
  refine h.idle (fun _ => rfl) rfl (fun x j f hf => ?_) fun _ _ _ _ he => he
  change f ∈ Function.update c.inbox b (Function.update (c.inbox b) k q) x j at hf
  rw [Function.update_apply] at hf
  split at hf
  next he =>
    subst he
    rw [Function.update_apply] at hf
    split at hf
    next he => exact he ▸ hq f hf
    next => exact hf
  next => exact hf

/-- What is sent while a packet of a client is handled bears the name of the client. -/
theorem Authentic.submits (h : Authentic c₀ is c) (hrun : exec undergo c₀ is = some c)
    {pkt : RawPacket} (hfar : c.far a k = none) {e : Effect}
    (he : e ∈ ((readPacket k pkt).run (c.server a)).out) :
    Bears c₀ (is ++ [.act (.client a (.packet k pkt))]) c.seq e.packet := by
  intro hchat
  by_cases hk : (c.server a).connManager.Live k
  · rw [run_readPacket_of_live hk] at he
    obtain ⟨hauth, htells⟩ := says_handleClientPacket ((h.ok a).nulFree_username k) pkt he hchat
    exact ⟨_, ⟨is, a, k, pkt, [], c, rfl, hrun, rfl, hfar, hk, hauth, rfl⟩, htells⟩
  · obtain ⟨p, hp, hl, -⟩ := readPacket_out_of_not_live hk he
    exact absurd hfar (h.linked a p hp k hl)

/-- What is sent while a frame is handled bears the name the frame bears. -/
theorem Authentic.relays (h : Authentic c₀ is c) {pkt : RawPacket} (hfar : c.far b k ≠ none)
    (hf : Bears c₀ is cause pkt) {e : Effect}
    (he : e ∈ ((readPacket k pkt).run (c.server b)).out) : Bears c₀ is cause e.packet := by
  intro hchat
  by_cases hk : (c.server b).connManager.Live k
  · rw [run_readPacket_of_live hk] at he
    obtain ⟨hauth, -⟩ := says_handleClientPacket ((h.ok b).nulFree_username k) pkt he hchat
    exact absurd hauth (h.anonymous b k hfar)
  · obtain ⟨p, -, -, he⟩ := readPacket_out_of_not_live hk he
    obtain ⟨hpkt, htells⟩ := says_handleServerPacket pkt he hchat
    rw [htells]
    exact hf hpkt

theorem Authentic.undergo (h : Authentic c₀ is c) (hrun : exec undergo c₀ is = some c)
    (hno : c.NoClaim i) (hi : c.undergo i = some c') : Authentic c₀ (is ++ [i]) c' := by
  have hafter := h.append [i]
  cases i with
  | cutOff a k =>
      obtain ⟨-, he⟩ := Option.ite_none_right_eq_some.mp hi
      cases he
      exact hafter.become_quiet (m := .cutOff k) rfl (by simp) (by simp)
  | beat a now =>
      obtain ⟨-, he⟩ := Option.ite_none_right_eq_some.mp hi
      cases he
      exact (hafter.beat a now c.seq).tick
  | act act =>
      cases act with
      | client a act =>
          obtain ⟨-, he⟩ := Option.ite_none_right_eq_some.mp hi
          cases act with
          | connect handle =>
              obtain ⟨hf, he⟩ := Option.ite_none_right_eq_some.mp he
              cases he
              exact (hafter.perform_plain (m := .accept handle) (if_pos hf) (by simp) (by simp)
                fun _ _ he => absurd he List.not_mem_nil).tick
          | packet k pkt =>
              obtain ⟨⟨hr, hfar, hfits⟩, he⟩ := Option.ite_none_right_eq_some.mp he
              cases he
              refine Authentic.tick (.perform ?_ (forPeers_readPacket k pkt)
                fun e he => h.submits hrun hfar he)
              refine hafter.become (m := .packet k pkt) (if_pos ⟨hr, hfits⟩) ?_ ?_ (by simp)
              · rintro j q he -
                cases he
                exact hfar
              · rintro j q he ht p hp hq
                cases he
                exact absurd hq (hno ht p hp)
          | disconnect k =>
              obtain ⟨⟨hr, -⟩, he⟩ := Option.ite_none_right_eq_some.mp he
              cases he
              exact (hafter.perform_plain (m := .failure k) (if_pos hr) (by simp) (by simp)
                (plain_readFailure k)).tick
      | heartbeat a now =>
          obtain ⟨-, he⟩ := Option.ite_none_right_eq_some.mp hi
          cases he
          exact (hafter.beat a now c.seq).tick
      | deliver b k =>
          rw [Cluster.undergo, step] at hi
          split at hi
          next x y q pkt rest hfar hin =>
            obtain ⟨hif, he⟩ := Option.ite_none_right_eq_some.mp hi
            cases he
            have hfar' : c.far b k ≠ none := hfar ▸ Option.some_ne_none _
            have hf : (q, pkt) ∈ c.inbox b k := hin ▸ List.mem_cons_self
            have hafter' := (hafter.setInbox (b := b) (k := k) (q := rest)
              fun f hf => hin ▸ List.mem_cons_of_mem _ hf).noteReceived x b q pkt
            refine hafter'.become (m := .packet k pkt) (if_pos hif) ?_ ?_ (by simp) |>.perform
              (forPeers_readPacket k pkt) fun e he =>
                hafter.relays hfar' (hafter.frames b k _ hf).2 he
            · rintro j r he ht
              cases he
              have hs2s := (h.frames b k _ hf).1
              rw [ht] at hs2s
              exact absurd hs2s id
            · rintro j r he - p - -
              cases he
              exact hfar'
          next => cases hi
      | dial a b handle handle' =>
          obtain ⟨⟨-, -, hne, -, -, hf, hf'⟩, he⟩ := Option.ite_none_right_eq_some.mp hi
          cases he
          have hjoin : Authentic c₀ _ ((c.join a (c.server a).connManager.nextConn b
              (c.server b).connManager.nextConn).perform b c.seq (acceptConnection handle')) :=
            (hafter.join hne).perform_plain (m := .accept handle') (if_pos hf') (by simp) (by simp)
              fun _ _ he => absurd he List.not_mem_nil
          -- the server that accepts is another one than the server that connects
          have hserver : ((c.join a (c.server a).connManager.nextConn b
              (c.server b).connManager.nextConn).perform b c.seq
                (acceptConnection handle')).server a = c.server a :=
            (server_perform _ b _ _ a).trans (if_neg hne)
          refine (hjoin.perform_plain (m := .dial b handle) ?_ (by simp) ?_
            (plain_connectPeer b handle)).tick
          · rw [hserver]
            exact if_pos hf
          · rintro - - -
            rw [hserver]
            change (c.join _ _ _ _).far a _ ≠ none
            rw [far_join hne, if_neg fun he => hne he.1, if_pos ⟨rfl, rfl⟩]
            exact Option.some_ne_none _
      | hang a k =>
          obtain ⟨⟨hr, -⟩, he⟩ := Option.ite_none_right_eq_some.mp hi
          cases he
          exact ((hafter.setInbox fun _ hf => absurd hf List.not_mem_nil).perform_plain
            (m := .failure k) (if_pos hr) (by simp) (by simp) (plain_readFailure k)).tick

theorem authentic_start (ids : List Int) : Authentic (start ids) [] (start ids) := by
  have hunlinked : ∀ a p, ((start ids).server a).connManager.linkSocket p = none := by
    intro a p
    change (serverOf ids a).connManager.linkSocket p = none
    rw [ConnectionManager.linkSocket, (serverOf_connManager ids a).2.1 p]
    rfl
  have hnobody : ∀ a k, ¬ ((start ids).server a).Authenticated k := by
    intro a k hk
    change ((serverOf ids a).connManager.sessions k).isAuthenticated = true at hk
    rw [(serverOf_connManager ids a).2.2.1 k] at hk
    cases hk
  exact {
    ok := ok_start ids
    made := fun a k hk => absurd hk (hnobody a k)
    anonymous := fun a k _ => hnobody a k
    linked := fun a p _ k hl => by
      rw [hunlinked] at hl
      cases hl
    frames := fun _ _ _ hf => absurd hf List.not_mem_nil
    events := fun _ _ _ _ he => absurd he List.not_mem_nil }

/-- Without a claim to be a peer, a client's packet takes down the links of peers that cannot be
sent to at most. -/
theorem Authentic.linksKept (h : Authentic c₀ is c) (hno : c.NoClaim i) : c.LinksKept i := by
  rw [LinksKept.eq_def]
  split
  next a k pkt =>
    intro c' hi p _
    obtain ⟨-, he⟩ := Option.ite_none_right_eq_some.mp hi
    obtain ⟨⟨hr, hfar, -⟩, he⟩ := Option.ite_none_right_eq_some.mp he
    cases he
    -- what is read from a client is read by the read loop of its session
    have hlive : (c.server a).connManager.Live k := by
      rcases reads_eq_true.mp hr with hlive | ⟨q, hq, hl⟩
      · exact hlive
      · exact absurd hfar (h.linked a q hq k hl)
    rw [Cluster.tick, server_perform, if_pos rfl]
    exact linkSocket_readPacket hlive hno p
  next => trivial

end

/-- As long as no client claims to be a configured peer, chat messages bear the names of those who
submitted them, and a packet of a client takes down at most the links of peers whose sockets take
no frames. -/
theorem sender_authentic (ids : List Int) (is : List Occurrence) (c : Cluster)
    (hrun : exec undergo (start ids) is = some c) (hno : Along undergo NoClaim (start ids) is) :
    SendersTrue (start ids) is c ∧ Along undergo LinksKept (start ids) is := by
  refine ⟨?_, ?_⟩
  · have hall : Authentic (start ids) is c :=
      exec_induct_trace (I := Authentic (start ids)) (fun hpre h hi hc => h.undergo hpre hi hc)
        (authentic_start ids) hno hrun
    exact fun a k cause pkt he hmsg => hall.events a k cause pkt he hmsg.isChat
  · refine hno.of_invariant
      (I := fun c => ∃ is, exec undergo (start ids) is = some c ∧ Authentic (start ids) is c)
      (fun hI hi hc => ?_) (fun hI hi => ?_) ⟨[], rfl, authentic_start ids⟩
    · obtain ⟨js, hjs, h⟩ := hI
      exact ⟨_, exec_append_eq_some.mpr ⟨_, hjs, exec_cons_eq_some.mpr ⟨_, hc, rfl⟩⟩,
        h.undergo hjs hi hc⟩
    · obtain ⟨js, -, h⟩ := hI
      exact h.linksKept hi

/-- Ann is on server 1 and Bob on server 2.  Bob writes to Ann and to everybody; then
server 1 can no longer send to server 2, and Ann's next message takes the link down. -/
def chat : List Occurrence :=
  [.act (.dial 1 2 4 4), .act (.deliver 2 0), .act (.client 1 (.connect 5)),
    .act (.client 1 (.packet 1 ⟨.login, ascii "ann"⟩)), .act (.deliver 2 0),
    .act (.client 2 (.connect 5)), .act (.client 2 (.packet 1 ⟨.login, ascii "bob"⟩)),
    .act (.client 2 (.packet 1 ⟨.msgPrivate, pack [ascii "ann", ascii "hi"]⟩)),
    .act (.client 2 (.packet 1 ⟨.msgBroadcast, ascii "all"⟩)), .act (.deliver 1 0),
    .act (.deliver 1 0), .act (.deliver 1 0), .cutOff 1 0,
    .act (.client 1 (.packet 1 ⟨.msgBroadcast, ascii "hello"⟩))]

theorem sender_authentic_chat :
    SendersTrue (start [1, 2]) chat ((exec undergo (start [1, 2]) chat).get (by decide +kernel)) ∧
      Along undergo LinksKept (start [1, 2]) chat :=
  sender_authentic [1, 2] chat _ (Option.some_get _).symm (by decide +kernel)

/-- A connection nobody has logged in on claims to be server 2, which is linked,
and routes a message of Bob to Ann. -/
def hijack : List Action :=
  [.dial 1 2 4 4, .deliver 2 0, .client 1 (.connect 5), .client 1 (.packet 1 ⟨.login, ascii "ann"⟩),
    .client 1 (.connect 6), .client 1 (.packet 2 ⟨.s2sConnect, ascii "2"⟩),
    .client 1 (.packet 2 ⟨.s2sRouteMsg, pack [ascii "bob", ascii "ann", ascii "hi"]⟩)]

/-- The occurrence is not a packet of a client logged in under the name. -/
def NotFrom (name : Bytes) (c : Cluster) : Occurrence → Prop
  | .act (.client a (.packet k _)) => ¬ (c.server a).Holds k name
  | _ => True

instance (name : Bytes) (c : Cluster) (i : Occurrence) : Decidable (c.NotFrom name i) :=
  match i with
  | .act (.client a (.packet k _)) => inferInstanceAs (Decidable (¬ (c.server a).Holds k name))
  | .act (.client _ (.connect _)) | .act (.client _ (.disconnect _)) | .act (.heartbeat _ _)
  | .act (.deliver _ _) | .act (.hang _ _) | .act (.dial _ _ _ _) | .cutOff _ _ | .beat _ _ =>
      instDecidableTrue

theorem not_submitted {c₀ : Cluster} {is : List Occurrence} {name : Bytes}
    (h : Along undergo (NotFrom name) c₀ is) (cause : Cause) : ¬ Submitted c₀ is cause name := by
  intro hsub
  obtain ⟨pre, a, k, pkt, post, c, rfl, hpre, -, -, hholds⟩ := hsub
  exact ((along_append hpre).mp h).2.1 hholds

/-- Ann is sent a message of Bob, who never logged in, and the link of server 1
to server 2 is the intruder's connection. -/
theorem hijack_forges_sender :
    ∃ c, exec step (start [1, 2]) hijack = some c ∧
      ¬ SendersTrue (start [1, 2]) (hijack.map .act) c ∧
      ¬ Along undergo LinksKept (start [1, 2]) (hijack.map .act) := by
  have hsent : (exec step (start [1, 2]) hijack).any fun c =>
      .sent 1 1 5 ⟨.msgPrivate, pack [ascii "bob", ascii "hi"]⟩ ∈ c.log := by decide +kernel
  have hnobody : Along undergo (NotFrom (ascii "bob")) (start [1, 2]) (hijack.map .act) := by
    decide +kernel
  have hlink : (exec step (start [1, 2]) (hijack.take 5)).any fun c =>
      (c.step (.client 1 (.packet 2 ⟨.s2sConnect, ascii "2"⟩))).any fun c' =>
        2 ∈ (c.server 1).connManager.getAllPeerNodes ∧
          (c'.server 1).connManager.linkSocket 2 ≠ (c.server 1).connManager.linkSocket 2 ∧
          (c'.server 1).connManager.linkSocket 2 ≠ none := by
    decide +kernel
  obtain ⟨c, hrun, hmem⟩ := (Option.any_eq_true ..).mp hsent
  obtain ⟨d, hd, hstep⟩ := (Option.any_eq_true ..).mp hlink
  obtain ⟨d', hd', hne⟩ := (Option.any_eq_true ..).mp hstep
  refine ⟨c, hrun, fun htrue => ?_, fun hkept => ?_⟩
  · obtain ⟨name, hname, htells⟩ := htrue 1 1 5 _ (of_decide_eq_true hmem) trivial
    have hbob : RawPacket.sender? ⟨.msgPrivate, pack [ascii "bob", ascii "hi"]⟩ =
        some (ascii "bob") := sender?_pack (by decide) _ _
    rw [hbob] at htells
    cases htells
    exact not_submitted hnobody 5 hname
  · obtain ⟨hpeer, hne, hsome⟩ := of_decide_eq_true hne
    have hsplit : hijack.map Occurrence.act =
        (hijack.take 5).map .act ++ (hijack.drop 5).map .act := by
      rw [← List.map_append, List.take_append_drop]
    rw [hsplit] at hkept
    rw [← exec_undergo_act] at hd
    rcases ((along_append hd).mp hkept).2.1 d' hd' 2 hpeer with he | he
    · exact hne he
    · exact hsome he.2

end Cluster

end DistributedChat
