import DistributedChat.Cluster.Start
import DistributedChat.Server.Heartbeats

/-!
# A cluster whose network fails

The actions of `Cluster.step` end a link only where reading on it fails, and a
frame that is sent over a link is taken by its socket.  Here the network may also
stop to take frames on a socket, at any time, and a heartbeat loop may go round at
any time, so that it finds peers silent.  A send on such a socket fails, and
whatever handler the send is part of disconnects the peer: the link is closed and
the users and rooms of the peer are forgotten.

`undergo` adds these two occurrences to the actions (`exec_undergo_act`).  To a
server every occurrence is one of its moments (`undergo_server`), so what the
moments keep holds in these runs too.
-/

namespace DistributedChat

open ChatServer

/-- What happens in a cluster whose network fails. -/
inductive Occurrence where
  | act (act : Action)
  /-- The network takes no more frames on the socket `k` of server `a`. -/
  | cutOff (a : Int) (k : ConnRef)
  /-- A round of the heartbeat loop of server `a`, whatever it has heard of its peers. -/
  | beat (a : Int) (now : Nat)
deriving DecidableEq, Repr

namespace Cluster

/-- A server changes by itself. -/
def become (c : Cluster) (a : Int) (s : ChatServer) : Cluster :=
  { c with server := Function.update c.server a s }

/-- One occurrence, if it can take place. -/
def undergo (c : Cluster) : Occurrence → Option Cluster
  | .act act => c.step act
  | .cutOff a k => if a ∈ c.ids then some (c.become a ((c.server a).cutOff k)) else none
  | .beat a now =>
      if a ∈ c.ids then
        some ((c.become a { c.server a with now := now }).perform a c.seq heartbeatRound).tick
      else none

/-- The runs of `step` are the runs in which no send fails and no heartbeat loop is late. -/
theorem exec_undergo_act (c : Cluster) (as : List Action) :
    exec undergo c (as.map .act) = exec step c as :=
  exec_embed (fun _ _ => rfl) c as

section

variable {c c' : Cluster} {i : Occurrence} {a b : Int} {s s' : ChatServer} {k : ConnRef}

theorem server_become : (c.become a s).server b = if b = a then s else c.server b :=
  Function.update_apply ..

theorem server_perform (c : Cluster) (a : Int) (cause : Cause) (prog : ServerProg Unit) (b : Int) :
    (c.perform a cause prog).server b =
      if b = a then (prog.run (c.server a)).state else c.server b :=
  Function.update_apply ..

/-- To a server an occurrence is nothing, or one of its moments. -/
theorem undergo_server (h : c.undergo i = some c') (x : Int) : c'.server x = c.server x ∨
    ∃ now m, ChatServer.timedNext { c.server x with now := now } m = some (c'.server x) := by
  -- what is left to show when one server runs a program
  have hone : ∀ {a : Int} {s : ChatServer} {t : Nat} {m : Moment},
      c'.server x = (if x = a then s else c.server x) →
        ChatServer.timedNext { c.server a with now := t } m = some s →
          c'.server x = c.server x ∨ ∃ now m,
            ChatServer.timedNext { c.server x with now := now } m = some (c'.server x) := by
    intro a s t m hs hm
    rw [hs]
    split
    next he => exact Or.inr ⟨t, m, he ▸ hm⟩
    next => exact Or.inl rfl
  cases i with
  | cutOff a k =>
      obtain ⟨-, he⟩ := Option.ite_none_right_eq_some.mp h
      cases he
      exact hone (t := (c.server a).now) (m := .cutOff k) server_become rfl
  | beat a now =>
      obtain ⟨-, he⟩ := Option.ite_none_right_eq_some.mp h
      cases he
      refine hone (a := a) (t := now) (m := .beat) ?_ rfl
      rw [tick, server_perform, server_become, server_become, if_pos rfl]
      split <;> rfl
  | act act =>
      cases act with
      | client a act =>
          obtain ⟨-, he⟩ := Option.ite_none_right_eq_some.mp h
          cases act with
          | connect handle =>
              obtain ⟨hf, he⟩ := Option.ite_none_right_eq_some.mp he
              cases he
              exact hone (t := (c.server a).now) (m := .accept handle)
                (server_perform c a c.seq _ x) (if_pos hf)
          | packet k pkt =>
              obtain ⟨hif, he⟩ := Option.ite_none_right_eq_some.mp he
              cases he
              exact hone (t := (c.server a).now) (m := .packet k pkt)
                (server_perform c a c.seq _ x) (if_pos ⟨hif.1, hif.2.2⟩)
          | disconnect k =>
              obtain ⟨hif, he⟩ := Option.ite_none_right_eq_some.mp he
              cases he
              exact hone (t := (c.server a).now) (m := .failure k)
                (server_perform c a c.seq _ x) (if_pos hif.1)
      | heartbeat a now =>
          obtain ⟨-, he⟩ := Option.ite_none_right_eq_some.mp h
          cases he
          refine hone (a := a) (t := now) (m := .beat) ?_ rfl
          have hserver := server_perform (c.become a { c.server a with now := now }) a c.seq
            heartbeatRound x
          rw [server_become, server_become, if_pos rfl] at hserver
          refine hserver.trans ?_
          split <;> rfl
      | deliver b k =>
          rw [undergo, step] at h
          split at h
          next pkt rest hfar hin =>
            obtain ⟨hif, he⟩ := Option.ite_none_right_eq_some.mp h
            cases he
            exact hone (t := (c.server b).now) (m := .packet k pkt)
              (server_perform ((c.setInbox b k rest).note _) b _ _ x) (if_pos hif)
          next => cases h
      | dial a b handle handle' =>
          obtain ⟨hif, he⟩ := Option.ite_none_right_eq_some.mp h
          obtain ⟨-, -, hne, -, -, hf, hf'⟩ := hif
          cases he
          rw [tick, server_perform, server_perform, server_perform, if_neg hne]
          split
          next he =>
            subst he
            exact Or.inr ⟨(c.server x).now, .dial b handle, if_pos hf⟩
          next =>
            split
            next he =>
              subst he
              exact Or.inr ⟨(c.server x).now, .accept handle', if_pos hf'⟩
            next => exact Or.inl rfl
      | hang a k =>
          obtain ⟨hif, he⟩ := Option.ite_none_right_eq_some.mp h
          cases he
          exact hone (t := (c.server a).now) (m := .failure k)
            (server_perform (c.setInbox a k []) a c.seq _ x) (if_pos hif.1)

/-- Whatever happens, the objects of all servers stay in order. -/
theorem ok_undergo (hok : ∀ a, (c.server a).connManager.Ok) (h : c.undergo i = some c') (a : Int) :
    (c'.server a).connManager.Ok := by
  rcases undergo_server h a with he | ⟨now, m, hm⟩
  · rw [he]
    exact hok a
  · exact (timedNext_keeping (s := { c.server a with now := now }) (hok a) hm).ok

theorem ok_start (ids : List Int) (a : Int) : ((start ids).server a).connManager.Ok :=
  ok_configured _ _

end

end Cluster

end DistributedChat
