import DistributedChat.Server.Links

/-!
# Private messages on a server

A server passes a private message on at most once, either to a session filed
under the receiver's name or to a peer, and whatever else it sends does not
depend on the text.  `Dispatch` is what is fixed before the text is looked at:
the next state, where the message goes and the packets that go along with it.
The submission of a message (`dispatch_msgPrivate`) and the reading of a routed
one (`dispatch_routeMsg`) both are dispatches.
-/

namespace DistributedChat

/-- Where a private message goes next. -/
inductive Aim where
  | nobody
  | session (t : ConnRef)
  | peer (p : Int)

namespace ChatServer

open Prog (observe update each)

/-- The private message on its way to where it goes next. -/
def copyTo (s : ChatServer) (sender receiver text : Bytes) : Aim → List Effect
  | .nobody => []
  | .session t => [.toSession t ⟨.msgPrivate, pack [sender, text]⟩]
  | .peer p => s.frames [p] ⟨.s2sRouteMsg, pack [sender, receiver, text]⟩

/-- A packet to a session that carries no chat message. -/
def Aside : Effect → Prop
  | .toSession _ pkt => ¬ pkt.type.IsChat
  | .toPeer _ _ _ => False

/-- What a server does with a private message, whatever its text. -/
structure Dispatch (s : ChatServer) (receiver : Bytes) where
  /-- The next state. -/
  state : ChatServer
  aim : Aim
  /-- The packets sent besides the message. -/
  notes : List Effect
  filed : ∀ t, aim = .session t → s.connManager.getSessionByUsername receiver = some t
  aside : ∀ e ∈ notes, Aside e

/-- What a program leaves behind that does this with a message. -/
def Dispatch.outcome {s : ChatServer} {receiver : Bytes} (d : s.Dispatch receiver)
    (sender text : Bytes) : Outcome ChatServer Effect Unit :=
  ⟨(), d.state, d.state.copyTo sender receiver text d.aim ++ d.notes⟩

section

variable {s : ChatServer} {k : ConnRef} {receiver : Bytes}

/-- Nothing is passed on, and one packet goes back. -/
def Dispatch.reply (s : ChatServer) (receiver : Bytes) (k : ConnRef) (pkt : RawPacket)
    (h : ¬ pkt.type.IsChat) : s.Dispatch receiver where
  state := s
  aim := .nobody
  notes := [.toSession k pkt]
  filed := fun _ ht => nomatch ht
  aside := fun _ he => List.mem_singleton.mp he ▸ h

/-- Nothing is passed on, and no packet goes back. -/
def Dispatch.drop (s : ChatServer) (receiver : Bytes) : s.Dispatch receiver where
  state := s
  aim := .nobody
  notes := []
  filed := fun _ ht => nomatch ht
  aside := fun _ he => absurd he List.not_mem_nil

theorem run_routePrivateMessage (hg : s.LinksGood) {p : Int} (hp : p ∈ s.connManager.peerNodes)
    (sender text : Bytes) : (routePrivateMessage sender receiver text p).run s =
      ⟨(), s, s.frames [p] ⟨.s2sRouteMsg, pack [sender, receiver, text]⟩⟩ := by
  simp [routePrivateMessage, ConnectionManager.hasPeerNode, hp, run_sendToPeer hg hp]

/-- `HandlePrivateMsg` looks up the receiver and passes the text on as it is. -/
theorem dispatch_handlePrivateMsg (hg : s.LinksGood) (k : ConnRef) (receiver : Bytes) :
    ∃ d : s.Dispatch receiver, ∀ {payload text fields}, unpack payload = receiver :: text :: fields →
      (handlePrivateMsg k payload).run s = d.outcome (s.nameOf k) text := by
  have hnote : ∀ pl, ∀ e ∈ [Effect.toSession k ⟨.statusUpdate, pl⟩], Aside e := by
    intro pl e he
    rw [List.mem_singleton.mp he]
    exact id
  have hreply : ∀ pl, ¬ (RawPacket.type ⟨.statusUpdate, pl⟩).IsChat := fun _ => id
  by_cases hl : s.userManager.getUserLocation receiver = s.serverId
  · cases hr : s.connManager.getSessionByUsername receiver with
    | none =>
        refine ⟨.drop s receiver, fun hu => ?_⟩
        simp [handlePrivateMsg, hu, hl, hr, Dispatch.outcome, Dispatch.drop, copyTo]
    | some t =>
        refine ⟨⟨s, .session t, _, fun t' ht => ?_,
          hnote (pack [ascii "SUCCESS", ascii "Message delivered to " ++ receiver])⟩, fun hu => ?_⟩
        · cases ht
          exact hr
        · simp [handlePrivateMsg, hu, hl, hr, Dispatch.outcome, copyTo, nameOf]
  · by_cases h0 : s.userManager.getUserLocation receiver > 0
    · by_cases hp : s.userManager.getUserLocation receiver ∈ s.connManager.peerNodes
      · refine ⟨⟨s, .peer (s.userManager.getUserLocation receiver), _,
          (fun _ ht => Aim.noConfusion ht),
          hnote (pack [ascii "SUCCESS", ascii "Message routed to remote server"])⟩, fun hu => ?_⟩
        simp [handlePrivateMsg, hu, hl, h0, run_routePrivateMessage hg hp, Dispatch.outcome, copyTo,
          nameOf]
      · refine ⟨.reply s receiver k _
          (hreply (pack [ascii "SUCCESS", ascii "Message routed to remote server"])), fun hu => ?_⟩
        simp [handlePrivateMsg, hu, hl, h0, hp, routePrivateMessage, ConnectionManager.hasPeerNode,
          Dispatch.outcome, Dispatch.reply, copyTo]
    · refine ⟨.reply s receiver k _ (hreply (pack [ascii "ERROR", ascii "User offline"])),
        fun hu => ?_⟩
      simp [handlePrivateMsg, hu, hl, h0, Dispatch.outcome, Dispatch.reply, copyTo]

/-- The answer to a session that has to log in first. -/
def refusal : RawPacket := ⟨.loginResp, pack [ascii "0", ascii "Authentication required"]⟩

theorem not_isChat_refusal : ¬ refusal.type.IsChat := id

/-- A session that has not logged in is refused. -/
theorem run_readPacket_of_anonymous (hk : s.connManager.Live k) (ha : ¬ s.Authenticated k)
    {pkt : RawPacket} (hl : pkt.type ≠ .login) (hc : pkt.type ≠ .s2sConnect) :
    (readPacket k pkt).run s = ⟨(), s, [.toSession k refusal]⟩ := by
  rw [run_readPacket_of_live hk]
  have hgate : (s.connManager.sessions k).isAuthenticated = false := Bool.eq_false_iff.mpr ha
  simp [handleClientPacket, hgate, hl, hc, refusal]

/-- A `MSG_PRIVATE` of a session. -/
theorem dispatch_msgPrivate (hg : s.LinksGood) (hk : s.connManager.Live k) (receiver : Bytes) :
    ∃ d : s.Dispatch receiver, ∀ {payload text fields}, unpack payload = receiver :: text :: fields →
      (readPacket k ⟨.msgPrivate, payload⟩).run s = d.outcome (s.nameOf k) text := by
  by_cases ha : s.Authenticated k
  · obtain ⟨d, hd⟩ := dispatch_handlePrivateMsg hg k receiver
    refine ⟨d, fun hu => ?_⟩
    rw [run_readPacket_of_live hk, ← hd hu]
    have hgate : (s.connManager.sessions k).isAuthenticated = true := ha
    simp [handleClientPacket, hgate]
  · refine ⟨.reply s receiver k refusal not_isChat_refusal, fun _ => ?_⟩
    rw [run_readPacket_of_anonymous hk ha PacketType.noConfusion PacketType.noConfusion]
    rfl

/-- `HandleS2SRouteMsg` on three fields. -/
theorem run_handleServerPacket_routeMsg {p : Int} {sender text payload : Bytes}
    (hu : unpack payload = [sender, receiver, text]) :
    (handleServerPacket p ⟨.s2sRouteMsg, payload⟩).run s =
      ⟨(), s.onConn (·.updateHeartbeat p s.now),
        match s.connManager.getSessionByUsername receiver with
        | none => []
        | some t => [.toSession t ⟨.msgPrivate, pack [sender, text]⟩]⟩ := by
  have hname : (s.connManager.updateHeartbeat p s.now).getSessionByUsername receiver =
      s.connManager.getSessionByUsername receiver := rfl
  cases hr : s.connManager.getSessionByUsername receiver with
  | none => simp [handleServerPacket, handleS2SRouteMsg, hu, hname, hr]
  | some t => simp [handleServerPacket, handleS2SRouteMsg, hu, hname, hr]

/-- A routed message read on a connection nobody has logged in on. -/
theorem dispatch_routeMsg (ha : ¬ s.Authenticated k) {sender receiver : Bytes}
    (hs : NulFree sender) (hr : NulFree receiver) :
    ∃ d : s.Dispatch receiver, (∀ p, d.aim ≠ .peer p) ∧ ∀ {text}, NulFree text →
      (readPacket k ⟨.s2sRouteMsg, pack [sender, receiver, text]⟩).run s = d.outcome sender text := by
  have hfields : ∀ {text}, NulFree text →
      unpack (pack [sender, receiver, text]) = [sender, receiver, text] := by
    intro text ht
    refine unpack_pack fun f hf => ?_
    simp only [List.mem_cons, List.not_mem_nil, or_false] at hf
    rcases hf with rfl | rfl | rfl
    · exact hs
    · exact hr
    · exact ht
  by_cases hk : s.connManager.Live k
  · refine ⟨.reply s receiver k refusal not_isChat_refusal, (fun _ hp => Aim.noConfusion hp),
      fun _ => ?_⟩
    rw [run_readPacket_of_anonymous hk ha PacketType.noConfusion PacketType.noConfusion]
    rfl
  · cases hp : s.connManager.peerOn k with
    | none =>
        refine ⟨.drop s receiver, (fun _ hp => Aim.noConfusion hp), fun _ => ?_⟩
        simp [readPacket, hk, hp, Dispatch.outcome, Dispatch.drop, copyTo]
    | some p =>
        cases ht : s.connManager.getSessionByUsername receiver with
        | none =>
            refine ⟨⟨s.onConn (·.updateHeartbeat p s.now), .nobody, [],
              (fun _ ht => Aim.noConfusion ht), fun _ he => absurd he List.not_mem_nil⟩,
              (fun _ hp => Aim.noConfusion hp), fun htext => ?_⟩
            have hrun := run_handleServerPacket_routeMsg (s := s) (p := p) (hfields htext)
            rw [ht] at hrun
            simp [readPacket, hk, hp, hrun, Dispatch.outcome, copyTo]
        | some t =>
            refine ⟨⟨s.onConn (·.updateHeartbeat p s.now), .session t, [], fun t' ht' => ?_,
              fun _ he => absurd he List.not_mem_nil⟩, (fun _ hp => Aim.noConfusion hp),
              fun htext => ?_⟩
            · cases ht'
              exact ht
            · have hrun := run_handleServerPacket_routeMsg (s := s) (p := p) (hfields htext)
              rw [ht] at hrun
              simp [readPacket, hk, hp, hrun, Dispatch.outcome, copyTo]

end

end ChatServer

end DistributedChat
