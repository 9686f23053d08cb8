import DistributedChat.Client.ChatClient
import DistributedChat.Logic.Runs

/-!
# The life of a client

A client has two threads.  One calls `Connect`, `Disconnect` and at the end the
destructor, and the other one is the `ReceiveLoop` that `Connect` starts.  They share
`m_connected` and `m_running`.  Every statement is a step here, and the steps of the two
come in any order.

`Disconnect` closes the socket and joins the thread, and a thread that is not joined
when its object is destroyed ends the process.  `Disconnect` does nothing if
`m_connected` is false, and the loop sets it to false itself when the connection is
lost.  So a client whose connection is lost before it is disconnected does not survive
its destructor, and every other one does (`terminates_iff`).  Once `Disconnect` waits
for the thread, the loop comes to its end in three steps (`disconnect_returns`).
-/

namespace DistributedChat

namespace ChatClient

/-- The statement of `ReceiveLoop` that comes next. -/
inductive Receiver where
  /-- `m_receiveThread` is no thread. -/
  | absent
  | whileRunning
  | readPacket
  | handlePacket (packet : RawPacket)
  | ifRunning
  | printLost
  | clearConnected
  | clearRunning
  /-- The loop is over and the thread can be joined. -/
  | ended
deriving DecidableEq, Repr

/-- The statement that comes next in the thread that uses the client. -/
inductive Caller where
  /-- No call is under way. -/
  | outside
  /-- The rest of `Connect`. -/
  | setConnected
  | setRunning
  | startThread
  /-- The rest of `Disconnect`. -/
  | clearRunning
  | close
  | join
  | clearConnected
  /-- The client is destroyed. -/
  | destroyed
  /-- `std::terminate` was called. -/
  | terminated
deriving DecidableEq, Repr

/-- What `Connect` of the socket depends on. -/
inductive Connection where
  | unconnected
  | connected
  | closed
deriving DecidableEq, Repr

/-- A client and its threads. -/
structure Lifecycle where
  socket : Connection := .unconnected
  connected : Bool := false
  running : Bool := false
  receiver : Receiver := .absent
  caller : Caller := .outside
  /-- The call is the destructor's. -/
  destroying : Bool := false
  screen : List Bytes := []
deriving DecidableEq, Repr

/-- A step of one of the threads. -/
inductive Turn where
  /-- `Connect` is called, and the socket connects or does not. -/
  | connect (succeeds : Bool)
  /-- `Disconnect` or `Logout` is called and tests `m_connected`. -/
  | disconnect
  /-- The destructor calls `Disconnect`, which tests `m_connected`. -/
  | destroy
  /-- The next statement of the call under way. -/
  | caller
  /-- `ReadPacket` returns a packet or fails. -/
  | read (packet : Option RawPacket)
  /-- The next statement of the receive loop. -/
  | receiver
deriving DecidableEq, Repr

/-- What is printed when the connection is lost. -/
def lostMessage : Bytes := message "91" (ascii "[SYSTEM] Connection to server lost.")

namespace Lifecycle

/-- After the destructor's body the members are destroyed, `m_receiveThread` among them. -/
def destroyMembers (s : Lifecycle) : Lifecycle :=
  { s with caller := if s.receiver = .absent then .destroyed else .terminated }

/-- The statements of the calls. -/
def callerNext (s : Lifecycle) : Option Lifecycle :=
  match s.caller with
  | .setConnected => some { s with connected := true, caller := .setRunning }
  | .setRunning => some { s with running := true, caller := .startThread }
  | .startThread =>
      -- a `std::thread` that is joinable is not assigned to
      if s.receiver = .absent then some { s with receiver := .whileRunning, caller := .outside }
      else some { s with caller := .terminated }
  | .clearRunning => some { s with running := false, caller := .close }
  | .close => some { s with socket := .closed, caller := .join }
  | .join =>
      if s.receiver = .absent ∨ s.receiver = .ended then
        some { s with receiver := .absent, caller := .clearConnected }
      else none
  | .clearConnected =>
      if s.destroying = true then some (destroyMembers { s with connected := false })
      else some { s with connected := false, caller := .outside }
  | .outside | .destroyed | .terminated => none

/-- The statements of `ReceiveLoop`. -/
def receiverNext (s : Lifecycle) : Option Lifecycle :=
  match s.receiver with
  | .whileRunning =>
      some { s with receiver := if s.running = true then .readPacket else .ended }
  | .handlePacket packet =>
      (ChatClient.handlePacket packet).map fun pieces =>
        { s with screen := s.screen ++ pieces, receiver := .whileRunning }
  | .ifRunning =>
      some { s with receiver := if s.running = true then .printLost else .ended }
  | .printLost =>
      some { s with screen := s.screen ++ [lostMessage], receiver := .clearConnected }
  | .clearConnected => some { s with connected := false, receiver := .clearRunning }
  | .clearRunning => some { s with running := false, receiver := .ended }
  | .absent | .readPacket | .ended => none

def next (s : Lifecycle) : Turn → Option Lifecycle
  | .connect succeeds =>
      if s.caller = .outside then
        if s.connected = true ∨ succeeds = false then some s
        -- a socket connects once
        else if s.socket = .unconnected then
          some { s with socket := .connected, caller := .setConnected }
        else none
      else none
  | .disconnect =>
      if s.caller = .outside then
        if s.connected = true then some { s with caller := .clearRunning } else some s
      else none
  | .destroy =>
      if s.caller = .outside then
        if s.connected = true then some { s with destroying := true, caller := .clearRunning }
        else some (destroyMembers { s with destroying := true })
      else none
  | .caller => s.callerNext
  | .read packet =>
      if s.receiver = .readPacket then
        match packet with
        | none => some { s with receiver := .ifRunning }
        | some packet =>
            -- the handling of the others is undefined
            if (ChatClient.handlePacket packet).isSome = true then
              some { s with receiver := .handlePacket packet }
            else none
      else none
  | .receiver => s.receiverNext

/-- `Disconnect` has passed its test. -/
def Disconnecting (s : Lifecycle) : Prop :=
  s.caller = .clearRunning ∨ s.caller = .close ∨ s.caller = .join ∨ s.caller = .clearConnected

instance : DecidablePred Disconnecting :=
  fun s => inferInstanceAs (Decidable (s.caller = _ ∨ s.caller = _ ∨ s.caller = _ ∨ s.caller = _))

/-- The receive loop gives the connection up while nobody is disconnecting the client. -/
def GivesUp (s : Lifecycle) (l : Turn) : Prop :=
  l = .receiver ∧ s.receiver = .clearConnected ∧ ¬ s.Disconnecting

instance (s : Lifecycle) (l : Turn) : Decidable (s.GivesUp l) :=
  inferInstanceAs (Decidable (_ ∧ _ ∧ _))

/-! ## Who is where -/

/-- The loop goes on as long as the client runs. -/
def InLoop (r : Receiver) : Prop :=
  r ≠ .absent ∧ r ≠ .clearRunning ∧ r ≠ .ended

/-- Where the threads are as long as the connection was not given up. -/
def Held (s : Lifecycle) : Prop :=
  match s.caller with
  | .outside => s.receiver = .absent ∧ s.connected = false ∨
      InLoop s.receiver ∧ s.connected = true ∧ s.running = true ∧ s.socket ≠ .unconnected
  | .setConnected => s.receiver = .absent ∧ s.socket ≠ .unconnected
  | .setRunning => s.receiver = .absent ∧ s.socket ≠ .unconnected ∧ s.connected = true
  | .startThread => s.receiver = .absent ∧ s.socket ≠ .unconnected ∧ s.connected = true ∧
      s.running = true
  | .clearRunning => s.receiver ≠ .absent
  | .close | .join => s.receiver ≠ .absent ∧ s.running = false
  | .clearConnected | .destroyed => s.receiver = .absent
  | .terminated => False

/-- Where they are after it was. -/
structure GivenUp (s : Lifecycle) : Prop where
  receiver : s.receiver = .clearRunning ∨ s.receiver = .ended
  connected : s.connected = false
  socket : s.socket ≠ .unconnected
  caller : s.caller = .outside ∨ s.caller = .terminated

section

variable {s s' : Lifecycle} {l : Turn}

theorem GivenUp.not_held (h : s.GivenUp) : ¬ s.Held := by
  intro hheld
  rcases h.caller with hc | hc
  · simp only [Held, hc, InLoop] at hheld
    rcases h.receiver with hr | hr <;> simp [hr] at hheld
  · simp only [Held, hc] at hheld

/-- A call goes on. -/
theorem Held.callerNext (h : s.Held) (hn : s.callerNext = some s') : s'.Held := by
  obtain ⟨socket, connected, running, receiver, caller, destroying, screen⟩ := s
  cases caller with
  | outside | destroyed | terminated => cases hn
  | setConnected | setRunning | clearRunning | close =>
      cases hn
      simp_all [Held]
  | startThread =>
      simp only [Held] at h
      simp only [Lifecycle.callerNext, h.1, if_true] at hn
      cases hn
      exact Or.inr ⟨⟨nofun, nofun, nofun⟩, h.2.2.1, h.2.2.2, h.2.1⟩
  | join =>
      simp only [Lifecycle.callerNext] at hn
      obtain ⟨-, hs⟩ := Option.ite_none_right_eq_some.mp hn
      cases hs
      rfl
  | clearConnected =>
      simp only [Held] at h
      subst h
      simp only [Lifecycle.callerNext, destroyMembers, if_true] at hn
      split at hn
      · cases hn
        rfl
      · cases hn
        exact Or.inl ⟨rfl, rfl⟩

/-- The loop goes on without giving up. -/
theorem Held.receiverNext (h : s.Held) (hn : s.receiverNext = some s')
    (hl : s.receiver = .clearConnected → s.Disconnecting) : s'.Held := by
  obtain ⟨socket, connected, running, receiver, caller, destroying, screen⟩ := s
  cases receiver with
  | absent | readPacket | ended => cases hn
  | whileRunning | ifRunning | printLost =>
      cases hn
      cases caller <;> cases running <;> simp_all [Held, InLoop]
  | handlePacket packet =>
      obtain ⟨pieces, -, rfl⟩ := Option.map_eq_some_iff.mp hn
      cases caller <;> simp_all [Held, InLoop]
  | clearConnected =>
      cases hn
      cases caller <;> simp_all [Held, InLoop, Disconnecting]
  | clearRunning =>
      cases hn
      cases caller <;> simp_all [Held, InLoop]

theorem Held.next (h : s.Held) (hl : ¬ s.GivesUp l) (hn : s.next l = some s') : s'.Held := by
  cases l with
  | connect succeeds =>
      obtain ⟨hc, hn⟩ := Option.ite_none_right_eq_some.mp hn
      split at hn
      · cases hn
        exact h
      next hfree =>
        obtain ⟨hsock, hs⟩ := Option.ite_none_right_eq_some.mp hn
        cases hs
        simp only [Held, hc] at h
        -- the thread is started after the socket has connected, so it is not there yet
        have habsent : s.receiver = .absent := by
          rcases h with h | h
          · exact h.1
          · exact absurd hsock h.2.2.2
        exact ⟨habsent, nofun⟩
  | disconnect | destroy =>
      obtain ⟨hc, hn⟩ := Option.ite_none_right_eq_some.mp hn
      simp only [Held, hc] at h
      split at hn
      next hcon =>
        cases hn
        rcases h with h | h
        · rw [h.2] at hcon
          cases hcon
        · exact h.1.1
      next hcon =>
        cases hn
        rcases h with h | h
        · simp [Held, hc, destroyMembers, h]
        · exact absurd h.2.1 hcon
  | caller => exact h.callerNext hn
  | read packet =>
      obtain ⟨hr, hn⟩ := Option.ite_none_right_eq_some.mp hn
      cases packet with
      | none =>
          cases hn
          cases hc : s.caller <;> simp_all [Held, InLoop]
      | some packet =>
          obtain ⟨-, hs⟩ := Option.ite_none_right_eq_some.mp hn
          cases hs
          cases hc : s.caller <;> simp_all [Held, InLoop]
  | receiver =>
      refine h.receiverNext hn fun hr => ?_
      by_contra hnot
      exact hl ⟨rfl, hr, hnot⟩

/-- Giving the connection up, while the loop is running and nobody disconnects the client. -/
theorem Held.givesUp (h : s.Held) (hl : s.GivesUp l) (hn : s.next l = some s') : s'.GivenUp := by
  obtain ⟨rfl, hr, hnot⟩ := hl
  have hs : s' = { s with connected := false, receiver := .clearRunning } := by
    simp only [Lifecycle.next, Lifecycle.receiverNext, hr] at hn
    exact (Option.some.inj hn).symm
  have hout : s.caller = .outside := by
    cases hc : s.caller <;> simp_all [Held, Disconnecting]
  simp only [Held, hout, hr] at h
  subst hs
  exact ⟨Or.inl rfl, rfl, (h.resolve_left fun h => nomatch h.1).2.2.2, Or.inl hout⟩

theorem GivenUp.next (h : s.GivenUp) (hn : s.next l = some s') : s'.GivenUp := by
  have hnot := h.connected
  cases l with
  | connect succeeds =>
      obtain ⟨-, hn⟩ := Option.ite_none_right_eq_some.mp hn
      split at hn
      · cases hn
        exact h
      · rw [if_neg h.socket] at hn
        cases hn
  | disconnect =>
      obtain ⟨-, hn⟩ := Option.ite_none_right_eq_some.mp hn
      rw [hnot, if_neg Bool.false_ne_true] at hn
      cases hn
      exact h
  | destroy =>
      obtain ⟨-, hn⟩ := Option.ite_none_right_eq_some.mp hn
      rw [hnot, if_neg Bool.false_ne_true] at hn
      cases hn
      have hthere : s.receiver ≠ .absent := by rcases h.receiver with hr | hr <;> simp [hr]
      exact ⟨h.receiver, rfl, h.socket, Or.inr (if_neg hthere)⟩
  | caller =>
      rcases h.caller with hc | hc <;> simp [Lifecycle.next, callerNext, hc] at hn
  | read packet =>
      obtain ⟨hr', -⟩ := Option.ite_none_right_eq_some.mp hn
      rcases h.receiver with hr | hr <;> simp [hr] at hr'
  | receiver =>
      rcases h.receiver with hr | hr
      · simp only [Lifecycle.next, receiverNext, hr] at hn
        cases hn
        exact ⟨Or.inr rfl, hnot, h.socket, h.caller⟩
      · simp [Lifecycle.next, receiverNext, hr] at hn

/-- A step keeps that the connection is held or given up. -/
theorem held_or_givenUp_next (h : s.Held ∨ s.GivenUp) (hn : s.next l = some s') :
    s'.Held ∨ s'.GivenUp := by
  rcases h with h | h
  · by_cases hl : s.GivesUp l
    · exact Or.inr (h.givesUp hl hn)
    · exact Or.inl (h.next hl hn)
  · exact Or.inr (h.next hn)

theorem held_start : Held {} := Or.inl ⟨rfl, rfl⟩

theorem held_or_givenUp {ls : List Turn} (hrun : exec next {} ls = some s) :
    s.Held ∨ s.GivenUp :=
  exec_invariant (I := fun s => s.Held ∨ s.GivenUp) held_or_givenUp_next (Or.inl held_start) hrun

theorem held_iff_along {ls : List Turn} (hrun : exec next {} ls = some s) :
    s.Held ↔ Along next (fun s l => ¬ s.GivesUp l) {} ls := by
  refine (iff_and_along (I := fun s => s.Held ∨ s.GivenUp) (A := fun _ _ => True)
    (fun h _ hn => held_or_givenUp_next h hn) ?_ (Or.inl held_start)
    (along_of_forall fun _ _ => trivial) hrun).trans (and_iff_right held_start)
  rintro s l s' (h | h) - hn
  · rw [and_iff_right h]
    exact ⟨fun h' hl => (h.givesUp hl hn).not_held h', fun hl => h.next hl hn⟩
  · exact iff_of_false (h.next hn).not_held fun h' => h.not_held h'.1

end

/-- **The end of a client.**  However the two threads take turns, a client that has been destroyed
has ended the process if and only if its receive loop gave the connection up at a time when nobody
was disconnecting the client. -/
theorem terminates_iff {ls : List Turn} {s : Lifecycle} (hrun : exec next {} ls = some s)
    (hend : s.caller = .destroyed ∨ s.caller = .terminated) :
    s.caller = .terminated ↔ ¬ Along next (fun s l => ¬ s.GivesUp l) {} ls := by
  rw [← held_iff_along hrun]
  constructor
  · intro hc h
    simp only [Held, hc] at h
  · intro hnot
    refine hend.resolve_left fun hc => hnot ?_
    refine (held_or_givenUp hrun).resolve_right fun h => ?_
    rcases h.caller with h | h <;> simp [hc] at h

/-- The server goes away, and the program leaves its loop, disconnects and returns. -/
def serverGone : List Turn :=
  [.connect true, .caller, .caller, .caller, .receiver, .read none, .receiver, .receiver, .receiver,
    .receiver, .disconnect, .destroy]

theorem terminates_iff_serverGone : ∃ s, exec next {} serverGone = some s ∧
    (s.caller = .terminated ↔ ¬ Along next (fun s l => ¬ s.GivesUp l) {} serverGone) ∧
      s.caller = .terminated := by
  have hrun : (exec next {} serverGone).any fun s => decide (s.caller = .terminated) := by decide
  obtain ⟨s, hs, hc⟩ := (Option.any_eq_true ..).mp hrun
  have hend := of_decide_eq_true hc
  exact ⟨s, hs, terminates_iff hs (Or.inr hend), hend⟩

/-! ## `Disconnect` returns -/

/-- The turns of the receive loop. -/
def OfReceiver : Turn → Prop
  | .read _ | .receiver => True
  | _ => False

instance : DecidablePred OfReceiver := fun
  | .read _ | .receiver => instDecidableTrue
  | .connect _ | .disconnect | .destroy | .caller => instDecidableFalse

/-- The turns the loop still takes when the client is no longer running. -/
def turnsLeft : Receiver → Nat
  | .readPacket | .printLost => 3
  | .handlePacket _ | .clearConnected => 2
  | .whileRunning | .ifRunning | .clearRunning => 1
  | .absent | .ended => 0

section

variable {s s' : Lifecycle} {l : Turn}

/-- The packet being handled is one whose fields exist. -/
def Handles (s : Lifecycle) : Prop :=
  ∀ packet, s.receiver = .handlePacket packet → (ChatClient.handlePacket packet).isSome = true

/-- A call leaves the loop where it is, starts it or has it joined. -/
theorem receiver_callerNext (hn : s.callerNext = some s') :
    s'.receiver = s.receiver ∨ s'.receiver = .whileRunning ∨ s'.receiver = .absent := by
  obtain ⟨socket, connected, running, receiver, caller, destroying, screen⟩ := s
  cases caller with
  | outside | destroyed | terminated => cases hn
  | setConnected | setRunning | clearRunning | close =>
      cases hn
      exact Or.inl rfl
  | startThread =>
      simp only [callerNext] at hn
      split at hn
      · cases hn
        exact Or.inr (Or.inl rfl)
      · cases hn
        exact Or.inl rfl
  | join =>
      obtain ⟨-, hs⟩ := Option.ite_none_right_eq_some.mp hn
      cases hs
      exact Or.inr (Or.inr rfl)
  | clearConnected =>
      simp only [callerNext] at hn
      split at hn <;>
        · cases hn
          exact Or.inl rfl

/-- What is left of the loop when it does not wait for a packet. -/
theorem receiver_receiverNext (hn : s.receiverNext = some s') (packet : RawPacket) :
    s'.receiver ≠ .handlePacket packet := by
  obtain ⟨socket, connected, running, receiver, caller, destroying, screen⟩ := s
  cases receiver with
  | absent | readPacket | ended => cases hn
  | whileRunning | ifRunning =>
      cases hn
      cases running <;> exact nofun
  | printLost | clearConnected | clearRunning =>
      cases hn
      exact nofun
  | handlePacket packet =>
      obtain ⟨pieces, -, rfl⟩ := Option.map_eq_some_iff.mp hn
      exact nofun

theorem Handles.next (h : s.Handles) (hn : s.next l = some s') : s'.Handles := by
  cases l with
  | connect succeeds =>
      obtain ⟨-, hn⟩ := Option.ite_none_right_eq_some.mp hn
      split at hn
      · cases hn
        exact h
      · obtain ⟨-, hs⟩ := Option.ite_none_right_eq_some.mp hn
        cases hs
        exact h
  | disconnect | destroy =>
      obtain ⟨-, hn⟩ := Option.ite_none_right_eq_some.mp hn
      split at hn <;>
        · cases hn
          exact h
  | caller =>
      intro packet hp
      rcases receiver_callerNext hn with hr | hr | hr
      · exact h packet (hr ▸ hp)
      · rw [hr] at hp
        cases hp
      · rw [hr] at hp
        cases hp
  | read packet =>
      obtain ⟨-, hn⟩ := Option.ite_none_right_eq_some.mp hn
      cases packet with
      | none =>
          cases hn
          exact nofun
      | some packet =>
          obtain ⟨hsome, hs⟩ := Option.ite_none_right_eq_some.mp hn
          cases hs
          rintro _ ⟨⟩
          exact hsome
  | receiver => exact fun packet hp => absurd hp (receiver_receiverNext hn packet)

/-- `Disconnect` waits for the thread. -/
structure Waiting (s : Lifecycle) : Prop where
  caller : s.caller = .join
  running : s.running = false
  handles : s.Handles

theorem Waiting.next (h : s.Waiting) (hl : OfReceiver l) (hn : s.next l = some s') :
    s'.Waiting ∧ turnsLeft s'.receiver < turnsLeft s.receiver := by
  have hhandles := h.handles.next hn
  obtain ⟨hcaller, hrunning, -⟩ := h
  obtain ⟨socket, connected, running, receiver, caller, destroying, screen⟩ := s
  obtain rfl : caller = .join := hcaller
  obtain rfl : running = false := hrunning
  cases l with
  | connect | disconnect | destroy | caller => exact hl.elim
  | read packet =>
      obtain ⟨rfl, hn⟩ := Option.ite_none_right_eq_some.mp hn
      cases packet with
      | none =>
          cases hn
          exact ⟨⟨rfl, rfl, hhandles⟩, by simp [turnsLeft]⟩
      | some packet =>
          obtain ⟨-, hs⟩ := Option.ite_none_right_eq_some.mp hn
          cases hs
          exact ⟨⟨rfl, rfl, hhandles⟩, Nat.lt_succ_self 2⟩
  | receiver =>
      cases receiver with
      | absent | readPacket | ended => cases hn
      | whileRunning | ifRunning | printLost | clearConnected | clearRunning =>
          cases hn
          exact ⟨⟨rfl, rfl, hhandles⟩, by simp [turnsLeft]⟩
      | handlePacket packet =>
          obtain ⟨pieces, -, rfl⟩ := Option.map_eq_some_iff.mp hn
          exact ⟨⟨rfl, rfl, hhandles⟩, Nat.lt_succ_self 1⟩

/-- As long as the thread cannot be joined the loop can take a turn. -/
theorem Waiting.goes_on (h : s.Waiting) :
    (s.next .caller).isSome = true ∨ ∃ l, OfReceiver l ∧ (s.next l).isSome = true := by
  cases hr : s.receiver with
  | absent | ended =>
      left
      simp [Lifecycle.next, callerNext, h.caller, hr]
  | readPacket => exact Or.inr ⟨.read none, trivial, by simp [Lifecycle.next, hr]⟩
  | handlePacket packet =>
      exact Or.inr ⟨.receiver, trivial, by simp [Lifecycle.next, receiverNext, hr,
        h.handles packet hr]⟩
  | whileRunning | ifRunning | printLost | clearConnected | clearRunning =>
      exact Or.inr ⟨.receiver, trivial, by simp [Lifecycle.next, receiverNext, hr]⟩

theorem turnsLeft_le (r : Receiver) : turnsLeft r ≤ 3 := by
  cases r <;> simp [turnsLeft]

/-- While `Disconnect` waits, every turn of the loop brings it nearer to its end. -/
theorem Waiting.along {rs : List Turn} (h : s.Waiting) (hrs : ∀ l ∈ rs, OfReceiver l)
    (hrun : exec Lifecycle.next s rs = some s') :
    s'.Waiting ∧ rs.length + turnsLeft s'.receiver ≤ turnsLeft s.receiver := by
  induction rs generalizing s with
  | nil =>
      cases hrun
      exact ⟨h, by simp⟩
  | cons l rs ih =>
      obtain ⟨t, ht, hrest⟩ := exec_cons_eq_some.mp hrun
      obtain ⟨hwait, hless⟩ := h.next (hrs l (List.mem_cons_self ..)) ht
      obtain ⟨hwait', hlen⟩ := ih hwait (fun l hl => hrs l (List.mem_cons_of_mem _ hl)) hrest
      rw [List.length_cons]
      exact ⟨hwait', by omega⟩

theorem handles_start : Handles {} := fun _ hr => nomatch hr

theorem waiting_of_join {ls : List Turn} (hrun : exec next {} ls = some s)
    (hjoin : s.caller = .join) : s.Waiting := by
  refine ⟨hjoin, ?_, exec_invariant (I := Handles) Handles.next handles_start hrun⟩
  rcases held_or_givenUp hrun with h | h
  · simp only [Held, hjoin] at h
    exact h.2
  · rcases h.caller with hc | hc <;> simp [hjoin] at hc

end

/-- **`Disconnect` returns.**  Whenever it waits for the receive loop, the loop takes at most three
more turns, and at any time the loop can take one or the thread can be joined. -/
theorem disconnect_returns {ls rs : List Turn} {s u : Lifecycle} (hrun : exec next {} ls = some s)
    (hjoin : s.caller = .join) (hrs : ∀ l ∈ rs, OfReceiver l) (hrest : exec next s rs = some u) :
    rs.length ≤ 3 ∧
      ((u.next .caller).isSome = true ∨ ∃ l, OfReceiver l ∧ (u.next l).isSome = true) := by
  obtain ⟨hwait, hlen⟩ := (waiting_of_join hrun hjoin).along hrs hrest
  have hmost := turnsLeft_le s.receiver
  exact ⟨by omega, hwait.goes_on⟩

/-- The client is disconnected while a packet is on its way to it. -/
theorem disconnect_returns_late : ∃ s u,
    exec next {} [.connect true, .caller, .caller, .caller, .receiver, .disconnect, .caller,
      .caller] = some s ∧
    exec next s [.read (some ⟨.login, []⟩), .receiver, .receiver] = some u ∧
      [Turn.read (some ⟨.login, []⟩), .receiver, .receiver].length ≤ 3 := by
  have hrun : (exec next {} [.connect true, .caller, .caller, .caller, .receiver, .disconnect,
      .caller, .caller]).any fun s => decide (s.caller = .join) &&
        (exec next s [.read (some ⟨.login, []⟩), .receiver, .receiver]).isSome := by decide
  obtain ⟨s, hs, h⟩ := (Option.any_eq_true ..).mp hrun
  obtain ⟨hjoin, hrest⟩ := Bool.and_eq_true_iff.mp h
  obtain ⟨u, hu⟩ := Option.isSome_iff_exists.mp hrest
  exact ⟨s, u, hs, hu, (disconnect_returns hs (of_decide_eq_true hjoin) (by decide) hu).1⟩

end Lifecycle

end ChatClient

end DistributedChat
