import DistributedChat.Concurrency.Frames
import DistributedChat.Logic.Buffer
import DistributedChat.Logic.Runs
import DistributedChat.Server.ChatServer

/-!
# Two listeners and the link between them

Two servers and the two directions of their link, each with a buffer of bounded
size.  On each server the listener reads packets off the link and handles the
ends of client connections, and the other threads send frames.  A `Send` puts a
part of the bytes left into the buffer as far as there is room, and would block
otherwise.

The listener replicates a logout itself, in the send loop of `BroadcastS2S`, and
does not read while it is in that loop.  If the buffers of both directions are
full while both listeners are in their loops, nobody reads any more and neither
leaves its loop (`BothBlocked.next`).  A packet, in contrast, is handled by a
worker of the pool.

The threads of a server besides its listener are `ι`: the workers and the
heartbeat thread.  A length outside the limits ends a link and is not followed
here.
-/

namespace DistributedChat

/-- The two ends of a link. -/
inductive Side where
  | near
  | far
deriving DecidableEq, Repr

/-- The opposite end. -/
def Side.other : Side → Side
  | near => far
  | far => near

@[simp] theorem Side.other_other (s : Side) : s.other.other = s := by cases s <;> rfl

theorem Side.eq_other_of_ne {s t : Side} (h : s ≠ t) : s = t.other := by
  cases s <;> cases t <;> first | rfl | exact absurd rfl h

@[simp] theorem Side.other_ne (s : Side) : s.other ≠ s := by cases s <;> nofun

/-- Where the listener is. -/
inductive Listener where
  /-- In its loop, between two events. -/
  | looping
  /-- In `ReadPacket`, with the bytes it has read of the frame. -/
  | reading (got : Bytes)
  /-- In `BroadcastS2S`, with the bytes it has still to send. -/
  | broadcasting (left : Bytes)
deriving DecidableEq, Repr

/-- The bytes the current `RecvAll` of `ReadPacket` has still to read. -/
def wanted (got : Bytes) : Nat :=
  if got.length < 4 then 4 - got.length
  else if got.length = 4 then 1
  else 4 + ntohl (got.take 4) - got.length

/-- Where `ReadPacket` is after some bytes, unless it has failed. -/
def readOn (got : Bytes) : Option Listener :=
  let totalLen := ntohl (got.take 4)
  if 4 ≤ got.length ∧ (totalLen < 1 ∨ totalLen > maxPayloadSize) then none
  else if got.length = 4 + totalLen then some .looping
  else some (.reading got)

theorem readOn_ne_broadcasting {got left : Bytes} :
    readOn got ≠ some (.broadcasting left) := by
  rw [readOn]
  split
  · nofun
  · split <;> nofun

/-- The bytes `ReadPacket` has read, if the listener can go on reading. -/
def Listener.got : Listener → Option Bytes
  | looping => some []
  | reading got => some got
  | broadcasting _ => none

/-- A server at one end of the link. -/
structure Party (ι : Type) (capacity : Nat) where
  serverId : Int
  /-- The names of its sessions; a session that has not logged in has the empty name. -/
  usernames : List Bytes
  listener : Listener := .looping
  /-- What the send loops of the other threads have still to send. -/
  left : ι → Bytes := fun _ => []
  /-- What it has sent and the other end has not read. -/
  buffer : Buffer UInt8 capacity := {}

/-- What happens at the ends of the link. -/
inductive PartyAction (ι : Type) where
  /-- The listener handles the end of a client's connection. -/
  | disconnect (s : Side) (username : Bytes)
  /-- A thread enters a send loop. -/
  | enter (s : Side) (i : ι) (x : PeerSender)
  /-- A `Send` of the listener takes `n` bytes. -/
  | listenerSend (s : Side) (n : Nat)
  /-- A `Send` of another thread takes `n` bytes. -/
  | threadSend (s : Side) (i : ι) (n : Nat)
  /-- A `Send` of the listener would block. -/
  | listenerWaits (s : Side)
  /-- A `Send` of another thread would block. -/
  | threadWaits (s : Side) (i : ι)
  /-- A `Recv` of the listener gives `n` bytes. -/
  | recv (s : Side) (n : Nat)
deriving DecidableEq, Repr

/-- Two servers joined by a link with a buffer in each direction. -/
abbrev Parties (ι : Type) (capacity : Side → Nat) := (s : Side) → Party ι (capacity s)

namespace Parties

variable {ι : Type} {capacity : Side → Nat}

/-- Two servers with sessions, a link, and nothing under way. -/
def start (serverId : Side → Int) (usernames : Side → List Bytes) : Parties ι capacity :=
  fun s => { serverId := serverId s, usernames := usernames s }

/-- The frame `ReplicateUserLogout` broadcasts. -/
def logoutFrame (serverId : Int) (username : Bytes) : Bytes :=
  (PeerSender.broadcastS2S .s2sReplicateUser
    (ChatServer.replicationPayload username serverId false)).frame

/-- One party changes. -/
def set (c : Parties ι capacity) (s : Side) (p : Party ι (capacity s)) : Parties ι capacity :=
  Function.update c s p

section

variable [DecidableEq ι]

/-- One action. -/
def next (c : Parties ι capacity) : PartyAction ι → Option (Parties ι capacity)
  | .disconnect s username =>
      if (c s).listener = .looping ∧ username ∈ (c s).usernames then
        some (c.set s { c s with
          usernames := (c s).usernames.erase username
          listener := if username = [] then .looping
            else .broadcasting (logoutFrame (c s).serverId username) })
      else none
  | .enter s i x =>
      if (c s).left i = [] then
        some (c.set s { c s with left := Function.update (c s).left i x.frame })
      else none
  | .listenerSend s n =>
      match (c s).listener with
      | .broadcasting left =>
          if 0 < n ∧ n ≤ left.length then
            ((c s).buffer.put? (left.take n)).map fun buffer =>
              c.set s { c s with
                buffer := buffer
                listener := if left.drop n = [] then .looping else .broadcasting (left.drop n) }
          else none
      | _ => none
  | .threadSend s i n =>
      if 0 < n ∧ n ≤ ((c s).left i).length then
        ((c s).buffer.put? (((c s).left i).take n)).map fun buffer =>
          c.set s { c s with
            buffer := buffer
            left := Function.update (c s).left i (((c s).left i).drop n) }
      else none
  | .listenerWaits s =>
      match (c s).listener with
      | .broadcasting _ => some c
      | _ => none
  | .threadWaits s i => if (c s).left i = [] then none else some c
  | .recv s n =>
      match (c s).listener.got with
      | none => none
      | some got =>
          if 0 < n ∧ n ≤ (c s.other).buffer.content.length ∧ n ≤ wanted got then
            (readOn (got ++ (c s.other).buffer.content.take n)).map fun listener =>
              (c.set s { c s with listener := listener }).set s.other
                { c s.other with buffer := (c s.other).buffer.drop n }
          else none

end

/-- The listener is in `BroadcastS2S` and its buffer is full. -/
def Blocked (c : Parties ι capacity) (s : Side) : Prop :=
  (∃ left, (c s).listener = .broadcasting left) ∧ (c s).buffer.Full

/-- Both listeners are blocked. -/
def BothBlocked (c : Parties ι capacity) : Prop := ∀ s, c.Blocked s

/-- The action makes the listener of `s` wait for room: it enters its loop while the
buffer is full, or the buffer becomes full while it is in its loop. -/
def BeginsToWait (c : Parties ι capacity) (s : Side) : PartyAction ι → Prop
  | .disconnect t username => t = s ∧ username ≠ [] ∧ (c s).buffer.Full
  | .listenerSend t n => t = s ∧ (c s).buffer.content.length + n = capacity s ∧
      ∃ left, (c s).listener = .broadcasting left ∧ n < left.length
  | .threadSend t _ n => t = s ∧ (c s).buffer.content.length + n = capacity s ∧
      ∃ left, (c s).listener = .broadcasting left
  | _ => False

/-- A listener begins to wait only while the other one is not waiting. -/
def TakesTurns (c : Parties ι capacity) (a : PartyAction ι) : Prop :=
  ∀ s, c.BeginsToWait s a → ¬ c.Blocked s.other

/-! ## When a listener is blocked -/

section

variable {c c' : Parties ι capacity} {s t : Side}

theorem set_self (p : Party ι (capacity s)) : c.set s p s = p := Function.update_self ..

theorem set_of_ne (h : s ≠ t) (p : Party ι (capacity t)) : c.set t p s = c s :=
  Function.update_of_ne h ..

theorem blocked_congr (hl : (c' s).listener = (c s).listener)
    (hb : (c' s).buffer = (c s).buffer) : c'.Blocked s ↔ c.Blocked s := by
  rw [Blocked, Blocked, hl, hb]

theorem blocked_set_of_ne (h : s ≠ t) (p : Party ι (capacity t)) :
    (c.set t p).Blocked s ↔ c.Blocked s :=
  blocked_congr (by rw [set_of_ne h]) (by rw [set_of_ne h])

theorem blocked_set_self (p : Party ι (capacity s)) :
    (c.set s p).Blocked s ↔ (∃ left, p.listener = .broadcasting left) ∧ p.buffer.Full := by
  rw [Blocked, set_self]

/-- A listener that can read is not blocked. -/
theorem not_blocked_of_got {got : Bytes} (h : (c s).listener.got = some got) : ¬ c.Blocked s := by
  rintro ⟨⟨left, hl⟩, -⟩
  rw [hl] at h
  cases h

theorem not_blocked_of_looping (h : (c s).listener = .looping) : ¬ c.Blocked s :=
  not_blocked_of_got (show (c s).listener.got = some [] by rw [h]; rfl)

end

variable [DecidableEq ι] {c c' : Parties ι capacity} {a : PartyAction ι}

/-- A listener is blocked after a step if it begins to wait in it, or was blocked and
the other one has not read. -/
theorem blocked_next (h : c.next a = some c') (s : Side) :
    c'.Blocked s ↔ c.BeginsToWait s a ∨ (c.Blocked s ∧ ∀ n, a ≠ .recv s.other n) := by
  cases a with
  | disconnect t username =>
      obtain ⟨⟨hl, -⟩, rfl⟩ : _ ∧ _ = c' := by simpa only [next, Option.ite_none_right_eq_some,
        Option.some.injEq] using h
      by_cases hs : s = t
      · subst hs
        rw [blocked_set_self]
        have hnot := not_blocked_of_looping hl
        split
        next hu => simp [BeginsToWait, hu, hnot]
        next hu => simp [BeginsToWait, hu, hnot]
      · rw [blocked_set_of_ne hs]
        simp [BeginsToWait, Ne.symm hs]
  | enter t i x =>
      obtain ⟨-, rfl⟩ : _ ∧ _ = c' := by simpa only [next, Option.ite_none_right_eq_some,
        Option.some.injEq] using h
      have hsame : (c.set t { c t with left := Function.update (c t).left i x.frame }).Blocked s ↔
          c.Blocked s := by
        by_cases hs : s = t
        · subst hs
          rw [blocked_set_self]
          rfl
        · exact blocked_set_of_ne hs _
      rw [hsame]
      simp [BeginsToWait]
  | listenerSend t n =>
      rw [next] at h
      split at h
      next left hl =>
        obtain ⟨⟨hpos, hle⟩, h⟩ := Option.ite_none_right_eq_some.mp h
        obtain ⟨buffer, hput, rfl⟩ := Option.map_eq_some_iff.mp h
        have htake : (left.take n).length = n := List.length_take_of_le hle
        by_cases hs : s = t
        · subst hs
          have hfull : ¬ (c s).buffer.Full := Buffer.not_full_of_put? (by omega) hput
          have hnot : ¬ c.Blocked s := fun hb => hfull hb.2
          rw [blocked_set_self, Buffer.full_put? hput, htake]
          simp only [BeginsToWait, hnot, hl, true_and, false_and, or_false,
            Listener.broadcasting.injEq, exists_eq_left']
          split
          next hnil =>
            have hlen := List.drop_eq_nil_iff.mp hnil
            simp [Nat.not_lt.mpr hlen]
          next hne =>
            have hlen : n < left.length := by
              rw [List.drop_eq_nil_iff] at hne
              omega
            simp [hlen]
        · rw [blocked_set_of_ne hs]
          simp [BeginsToWait, Ne.symm hs]
      next => cases h
  | threadSend t i n =>
      obtain ⟨⟨hpos, hle⟩, h⟩ := Option.ite_none_right_eq_some.mp h
      obtain ⟨buffer, hput, rfl⟩ := Option.map_eq_some_iff.mp h
      have htake : (((c t).left i).take n).length = n := List.length_take_of_le hle
      by_cases hs : s = t
      · subst hs
        have hfull : ¬ (c s).buffer.Full := Buffer.not_full_of_put? (by omega) hput
        have hnot : ¬ c.Blocked s := fun hb => hfull hb.2
        rw [blocked_set_self, Buffer.full_put? hput, htake]
        simp [BeginsToWait, hnot, and_comm]
      · rw [blocked_set_of_ne hs]
        simp [BeginsToWait, Ne.symm hs]
  | listenerWaits t =>
      rw [next] at h
      split at h
      next left hl =>
        cases h
        simp [BeginsToWait]
      next => cases h
  | threadWaits t i =>
      obtain ⟨-, h⟩ := Option.ite_none_left_eq_some.mp h
      cases h
      simp [BeginsToWait]
  | recv t n =>
      rw [next] at h
      split at h
      next => cases h
      next got hgot =>
        obtain ⟨⟨hpos, hle, -⟩, h⟩ := Option.ite_none_right_eq_some.mp h
        obtain ⟨listener, hread, rfl⟩ := Option.map_eq_some_iff.mp h
        by_cases hs : s = t.other
        · subst hs
          rw [blocked_set_self]
          simp [BeginsToWait, Buffer.not_full_drop hpos hle]
        · have hst : s = t := by
            rw [Side.eq_other_of_ne hs, Side.other_other]
          subst hst
          rw [blocked_set_of_ne hs, blocked_set_self]
          have hnot := not_blocked_of_got hgot
          have hl : ∀ left, listener ≠ .broadcasting left := by
            rintro left rfl
            exact readOn_ne_broadcasting hread
          simp [BeginsToWait, hnot, hl]

/-- Two blocked listeners stay blocked, whatever happens. -/
theorem BothBlocked.next (hb : c.BothBlocked) (h : c.next a = some c') : c'.BothBlocked := by
  intro s
  refine (blocked_next h s).mpr (Or.inr ⟨hb s, ?_⟩)
  rintro n rfl
  rw [Parties.next] at h
  split at h
  next => cases h
  next got hgot => exact not_blocked_of_got hgot (hb s.other)

/-- Two blocked listeners stay blocked for ever. -/
theorem BothBlocked.for_ever {as : List (PartyAction ι)} (hb : c.BothBlocked)
    (h : exec Parties.next c as = some c') : c'.BothBlocked :=
  exec_invariant (fun hb hn => hb.next hn) hb h

omit [DecidableEq ι] in
theorem beginsToWait_side {s t : Side} (hs : c.BeginsToWait s a) (ht : c.BeginsToWait t a) :
    s = t := by
  cases a with
  | disconnect | listenerSend | threadSend => exact hs.1.symm.trans ht.1
  | enter | listenerWaits | threadWaits | recv => exact hs.elim

omit [DecidableEq ι] in
theorem BeginsToWait.ne_recv {s t : Side} {n : Nat} (hs : c.BeginsToWait s a) :
    a ≠ .recv t n := by
  rintro rfl
  exact hs

/-- A step leads to two blocked listeners exactly if a listener begins to wait while
the other one is waiting. -/
theorem bothBlocked_next (hb : ¬ c.BothBlocked) (h : c.next a = some c') :
    c'.BothBlocked ↔ ¬ c.TakesTurns a := by
  constructor
  · intro hb' hturns
    have hwas : ∀ s, ¬ c.BeginsToWait s a := by
      intro s hs
      rcases (blocked_next h s.other).mp (hb' s.other) with ho | ⟨ho, -⟩
      · exact Side.other_ne s (beginsToWait_side ho hs)
      · exact hturns s hs ho
    exact hb fun s => ((blocked_next h s).mp (hb' s)).elim (fun hs => absurd hs (hwas s)) And.left
  · intro hnot s
    rw [TakesTurns] at hnot
    push Not at hnot
    obtain ⟨t, ht, ho⟩ := hnot
    refine (blocked_next h s).mpr ?_
    by_cases hs : s = t
    · exact Or.inl (hs ▸ ht)
    · rw [Side.eq_other_of_ne hs]
      exact Or.inr ⟨ho, fun n => ht.ne_recv⟩

omit [DecidableEq ι] in
theorem not_bothBlocked_start (serverId : Side → Int) (usernames : Side → List Bytes) :
    ¬ (start serverId usernames : Parties ι capacity).BothBlocked :=
  fun hb => not_blocked_of_looping rfl (hb .near)

/-- **Listeners.**  Two listeners are never blocked at once exactly in the runs in
which a listener begins to wait for room only while the other one is not waiting. -/
theorem never_bothBlocked_iff (serverId : Side → Int) (usernames : Side → List Bytes)
    {as : List (PartyAction ι)} {c : Parties ι capacity}
    (h : exec Parties.next (start serverId usernames) as = some c) :
    (∀ d : Parties ι capacity, Visits Parties.next (start serverId usernames) as d →
      ¬ d.BothBlocked) ↔
      Along Parties.next TakesTurns (start serverId usernames : Parties ι capacity) as :=
  always_iff_along (I := fun d => ¬ d.BothBlocked) (A := fun _ _ => True) id
    (fun hb _ hP hn => fun hb' => (bothBlocked_next hb hn).mp hb' hP)
    (fun hb _ hP hn => not_not_intro ((bothBlocked_next hb hn).mpr hP))
    (not_bothBlocked_start serverId usernames) (along_of_forall fun _ _ => trivial) h

/-- One client of a server leaves while the link is idle. -/
theorem never_bothBlocked_logout :
    ∃ c : Parties (Fin 4) fun _ => 6,
      exec Parties.next (start (fun _ => 1) fun _ => [ascii "ann"])
        [.disconnect .near (ascii "ann"), .listenerSend .near 6] = some c ∧
      ((∀ d : Parties (Fin 4) fun _ => 6,
        Visits Parties.next (start (fun _ => 1) fun _ => [ascii "ann"])
          [.disconnect .near (ascii "ann"), .listenerSend .near 6] d → ¬ d.BothBlocked) ↔
        Along Parties.next TakesTurns
          (start (fun _ => 1) fun _ => [ascii "ann"] : Parties (Fin 4) fun _ => 6)
          [.disconnect .near (ascii "ann"), .listenerSend .near 6]) :=
  ⟨_, rfl, never_bothBlocked_iff (fun _ => 1) (fun _ => [ascii "ann"]) rfl⟩

/-- The workers have filled both buffers when a client leaves each of the servers. -/
theorem not_never_bothBlocked :
    ¬ ∀ (capacity : Side → Nat) (serverId : Side → Int) (usernames : Side → List Bytes)
      (as : List (PartyAction (Fin 4))) (c : Parties (Fin 4) capacity),
      exec Parties.next (start serverId usernames) as = some c → ¬ c.BothBlocked := by
  intro h
  refine h (fun _ => 6) (fun s => if s = .near then 1 else 2) (fun _ => [ascii "ann"])
    [.enter .near 0 (.heartbeatLoop 1), .threadSend .near 0 6,
      .enter .far 0 (.heartbeatLoop 2), .threadSend .far 0 6,
      .disconnect .near (ascii "ann"), .disconnect .far (ascii "ann")] _ rfl ?_
  intro s
  cases s with
  | near => exact ⟨⟨_, rfl⟩, rfl⟩
  | far => exact ⟨⟨_, rfl⟩, rfl⟩

end Parties

end DistributedChat
