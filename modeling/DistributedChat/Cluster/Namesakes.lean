import DistributedChat.Cluster.Outages
import DistributedChat.Cluster.Replication

/-!
# Sessions with the same name

When a session ends, its name is erased from the user table and from the table
of sessions, whoever the entries belong to by then.  This is harmless as long as
no other session of the server has the name.  The gate of `HandleLogin` looks at
the user table alone, and a logout replicated by another server empties the entry
while the session it belonged to is still there.  So a second session may log in
under the name, and is unhooked when the first one ends (`not_leaves_others`).

The end of a session is told to the peers, and a peer that does not take the frame
is disconnected, which erases the names that are located there.  That may be the
name of a session of this server, which has logged in on the peer as well.

`leaves_others_iff` says that these are the only ways: in every run, whatever the
network does, the ends of sessions leave the other sessions of the server as they
were if and only if no session ends while another one has its name and there is an
entry to lose, or has a name that is located at a peer which does not take frames.
-/

namespace DistributedChat

open ChatServer

namespace ChatServer

/-- Another authenticated session is not looked up under its name, or not located, as before. -/
def Unhooked (s s' : ChatServer) (k : ConnRef) : Prop :=
  ∃ j, j ≠ k ∧ s.connManager.Live j ∧ s.Authenticated j ∧
    ¬ (s'.connManager.getSessionByUsername (s.nameOf j) =
        s.connManager.getSessionByUsername (s.nameOf j) ∧
      s'.userManager.getUserLocation (s.nameOf j) = s.userManager.getUserLocation (s.nameOf j))

/-- Another session of the server has the session's name, and there is an entry for it. -/
def Shares (s : ChatServer) (k : ConnRef) : Prop :=
  (∃ j, j ≠ k ∧ s.connManager.Live j ∧ s.Authenticated j ∧ s.nameOf j = s.nameOf k) ∧
    ¬ (s.connManager.getSessionByUsername (s.nameOf k) = none ∧
      s.userManager.getUserLocation (s.nameOf k) = -1)

/-- The session has a name, so that its end is told to the peers, and the name of another one is
located at a peer that does not take the frame. -/
def Strands (s : ChatServer) (k : ConnRef) : Prop :=
  s.nameOf k ≠ [] ∧ ∃ j, j ≠ k ∧ s.connManager.Live j ∧ s.Authenticated j ∧
    ∃ p ∈ s.connManager.peerNodes, s.Unreachable p ∧ p ≠ -1 ∧
      s.userManager.getUserLocation (s.nameOf j) = p

section

variable {s : ChatServer} {k : ConnRef}

/-- The end of a session erases the session of its name. -/
theorem getSessionByUsername_readFailure (hok : s.connManager.Ok) (hk : s.connManager.Live k)
    (v : Bytes) : ((readFailure k).run s).state.connManager.getSessionByUsername v =
      if s.nameOf k ≠ [] ∧ v = s.nameOf k then none else s.connManager.getSessionByUsername v := by
  rw [run_readFailure_of_live hk, state_clientDisconnect_of_live hok hk]
  split
  next => exact hok.getSessionByUsername_removeSession hk v
  next =>
    have hsame := sameSessions_dropBroken (s.loggedOut k) s.connManager.getAllPeerNodes
    have hok' := ok_dropBroken (s := s.loggedOut k) hok s.connManager.getAllPeerNodes
    have hname : (((s.loggedOut k).dropBroken s.connManager.getAllPeerNodes).connManager.sessions
        k).username = s.nameOf k := by
      rw [hsame.objects]
      rfl
    refine (hok'.getSessionByUsername_removeSession ((hsame.live k).mpr hk) v).trans ?_
    rw [hname, ConnectionManager.getSessionByUsername, hsame.byUsername]
    rfl

/-- The end of a session erases the entry of its name in the user table, and with it those of the
peers that do not take the frame that says so. -/
theorem getUserLocation_readFailure (hok : s.connManager.Ok) (hk : s.connManager.Live k)
    (v : Bytes) : ((readFailure k).run s).state.userManager.getUserLocation v =
      if s.nameOf k ≠ [] ∧ (v = s.nameOf k ∨ ∃ p ∈ s.connManager.peerNodes, s.Unreachable p ∧
        p ≠ -1 ∧ s.userManager.getUserLocation v = p) then -1
      else s.userManager.getUserLocation v := by
  rw [run_readFailure_of_live hk, state_clientDisconnect_of_live hok hk]
  by_cases hn : s.nameOf k = []
  · rw [if_pos hn, if_neg fun h => h.1 hn]
    rfl
  · rw [if_neg hn]
    -- the peers that do not take the frame are purged
    have hpurged := purged_dropBroken (s := s.loggedOut k) hok s.connManager.peerNodes.nodup
      fun _ hp => hp
    change UserManager.getUserLocation ((s.loggedOut k).dropBroken
      s.connManager.peerNodes.elems).userManager v = _
    generalize (s.loggedOut k).dropBroken s.connManager.peerNodes.elems = t at hpurged
    have hloc : t.userManager.location? v = (if v = s.nameOf k then none
        else s.userManager.location? v).filter
          fun i => ¬ (i ∈ s.connManager.peerNodes ∧ s.Unreachable i) := by
      refine Option.ext fun i => ?_
      rw [hpurged.users, loggedOut, onUsers, UserManager.location?_unregisterUser,
        Option.filter_eq_some_iff, decide_eq_true_iff]
      exact Iff.rfl
    rw [UserManager.getUserLocation, hloc]
    by_cases hv : v = s.nameOf k
    · rw [if_pos hv, if_pos ⟨hn, Or.inl hv⟩]
      rfl
    · rw [if_neg hv, UserManager.getUserLocation]
      cases hs : s.userManager.location? v with
      | none => exact (ite_self _).symm
      | some i =>
          by_cases hi : i ∈ s.connManager.peerNodes ∧ s.Unreachable i
          · rw [Option.filter_some, if_neg fun h => absurd hi (of_decide_eq_true h)]
            split
            next => rfl
            next hnot =>
              by_contra hne
              exact hnot ⟨hn, Or.inr ⟨i, hi.1, hi.2, fun he => hne (congrArg _ he).symm, rfl⟩⟩
          · rw [Option.filter_some, if_pos (decide_eq_true hi), if_neg]
            rintro ⟨-, he | ⟨p, hp, hu, -, rfl⟩⟩
            · exact hv he
            · exact hi ⟨hp, hu⟩

/-- The end of a session unhooks another one exactly if they share the name and an entry, or the
name of the other one is located at a peer that does not take the frame. -/
theorem unhooked_readFailure_iff (hok : s.connManager.Ok) (hk : s.connManager.Live k) :
    s.Unhooked ((readFailure k).run s).state k ↔ s.Shares k ∨ s.Strands k := by
  have hsess := getSessionByUsername_readFailure hok hk
  have hloc := getUserLocation_readFailure hok hk
  constructor
  · rintro ⟨j, hj, hlive, hauth, hdiff⟩
    rw [hsess, hloc] at hdiff
    by_cases hname : s.nameOf k ≠ [] ∧ s.nameOf j = s.nameOf k
    · left
      rw [if_pos hname, if_pos ⟨hname.1, Or.inl hname.2⟩, hname.2] at hdiff
      exact ⟨⟨j, hj, hlive, hauth, hname.2⟩, fun h => hdiff ⟨h.1.symm, h.2.symm⟩⟩
    · right
      rw [if_neg hname] at hdiff
      split at hdiff
      next h => exact ⟨h.1, j, hj, hlive, hauth, h.2.resolve_left fun he => hname ⟨h.1, he⟩⟩
      next => exact absurd ⟨rfl, rfl⟩ hdiff
  · rintro (⟨⟨j, hj, hlive, hauth, hname⟩, hentry⟩ |
      ⟨hn, j, hj, hlive, hauth, p, hp, hu, hne, hat⟩)
    · have hne : s.nameOf j ≠ [] := Holds.ne_nil (k := j) ⟨hlive, hauth, rfl⟩ hok
      rw [hname] at hne
      refine ⟨j, hj, hlive, hauth, fun h => hentry ?_⟩
      rw [hsess, hloc, hname, if_pos ⟨hne, rfl⟩, if_pos ⟨hne, Or.inl rfl⟩] at h
      exact ⟨h.1.symm, h.2.symm⟩
    · refine ⟨j, hj, hlive, hauth, fun h => hne ?_⟩
      have hgone := (hloc (s.nameOf j)).trans (if_pos ⟨hn, Or.inr ⟨p, hp, hu, hne, hat⟩⟩)
      rw [← hat, ← h.2, hgone]

end

end ChatServer

namespace Cluster

/-- The connection whose end the occurrence is. -/
def Ends (i : Occurrence) (a : Int) (k : ConnRef) : Prop :=
  i = .act (.client a (.disconnect k)) ∨ i = .act (.hang a k)

/-- The end of a session leaves every other authenticated session of the server as it was. -/
def LeavesOthers (c : Cluster) (i : Occurrence) : Prop :=
  ∀ a k c', Ends i a k → (c.server a).connManager.Live k → c.undergo i = some c' →
    ¬ (c.server a).Unhooked (c'.server a) k

/-- No session ends that shares its name and an entry with another one, or whose end is told to a
peer that does not take it while the name of another one is located there. -/
def Unshared (c : Cluster) (i : Occurrence) : Prop :=
  ∀ a k, Ends i a k → (c.server a).connManager.Live k →
    ¬ ((c.server a).Shares k ∨ (c.server a).Strands k)

section

variable {c c' : Cluster} {i : Occurrence} {a : Int} {k : ConnRef}

/-- The listener handles the end of a session. -/
theorem server_ends (hend : Ends i a k) (h : c.undergo i = some c') :
    c'.server a = ((readFailure k).run (c.server a)).state := by
  rcases hend with rfl | rfl
  · obtain ⟨-, he⟩ := Option.ite_none_right_eq_some.mp h
    obtain ⟨-, he⟩ := Option.ite_none_right_eq_some.mp he
    cases he
    exact (server_perform c a c.seq _ a).trans (if_pos rfl)
  · obtain ⟨-, he⟩ := Option.ite_none_right_eq_some.mp h
    cases he
    exact (server_perform (c.setInbox a k []) a c.seq _ a).trans (if_pos rfl)

/-- One end of a session. -/
theorem leavesOthers_iff_unshared (hok : ∀ a, (c.server a).connManager.Ok)
    (h : c.undergo i = some c') : c.LeavesOthers i ↔ c.Unshared i := by
  constructor
  · intro hleaves a k hend hk hshare
    refine hleaves a k c' hend hk h ?_
    rw [server_ends hend h]
    exact (unhooked_readFailure_iff (hok a) hk).mpr hshare
  · intro hun a k d hend hk hd hhook
    rw [server_ends hend hd] at hhook
    exact hun a k hend hk ((unhooked_readFailure_iff (hok a) hk).mp hhook)

end

/-- In every run from the start of the cluster, the ends of sessions leave the other sessions
of the server as they were exactly if no session ends that shares its name with another one
while the name has an entry in the user table or in that of the sessions, or whose end is told
to a peer that does not take it while the name of another one is located there. -/
theorem leaves_others_iff (ids : List Int) (is : List Occurrence) (c : Cluster)
    (hrun : exec undergo (start ids) is = some c) :
    Along undergo LeavesOthers (start ids) is ↔ Along undergo Unshared (start ids) is := by
  have hkeep : ∀ {d : Cluster} {i d'}, (∀ a, (d.server a).connManager.Ok) →
      d.undergo i = some d' → ∀ a, (d'.server a).connManager.Ok := ok_undergo
  constructor
  · exact Along.of_taken hkeep (fun hd h => (leavesOthers_iff_unshared hd h).mp) (ok_start ids)
      hrun
  · exact Along.of_taken hkeep (fun hd h => (leavesOthers_iff_unshared hd h).mpr) (ok_start ids)
      hrun

/-- A client of server 1 logs in as `ann`, and the link breaks. -/
def annAlone : List Occurrence :=
  [.act (.dial 1 2 4 4), .act (.deliver 2 0), .act (.client 1 (.connect 5)),
    .act (.client 1 (.packet 1 ⟨.login, ascii "ann"⟩)), .cutOff 1 0]

/-- Nobody is hurt when `ann`, who is alone, leaves. -/
theorem leaves_others_iff_alone :
    Along undergo LeavesOthers (start [1, 2])
      (annAlone ++ [.act (.client 1 (.disconnect 1))]) := by
  have hrun : (exec undergo (start [1, 2]) annAlone).any fun c =>
      decide (∀ j ∈ (c.server 1).connManager.getAllSessions, j = 1) &&
        (c.undergo (.act (.client 1 (.disconnect 1)))).isSome := by decide +kernel
  obtain ⟨c, hc, hrun⟩ := (Option.any_eq_true ..).mp hrun
  obtain ⟨hone, hnext⟩ := Bool.and_eq_true_iff.mp hrun
  obtain ⟨c', hc'⟩ := Option.isSome_iff_exists.mp hnext
  have hfirst : ∀ i ∈ annAlone, ∀ a k, ¬ Ends i a k := by
    simp [annAlone, Ends]
  have hexec : exec undergo (start [1, 2]) (annAlone ++ [.act (.client 1 (.disconnect 1))]) =
      some c' :=
    exec_append_eq_some.mpr ⟨c, hc, exec_cons_eq_some.mpr ⟨c', hc', rfl⟩⟩
  refine (leaves_others_iff [1, 2] _ c' hexec).mpr ((along_append hc).mpr ⟨?_, ?_⟩)
  · exact (along_of_forall hfirst).mono fun d i hend a k h => absurd h (hend a k)
  · refine (along_cons hc').mpr ⟨?_, trivial⟩
    rintro a k (he | he) hk (⟨⟨j, hj, hlive, -⟩, -⟩ | ⟨-, j, hj, hlive, -⟩)
    · cases he
      exact hj (of_decide_eq_true hone j hlive)
    · cases he
      exact hj (of_decide_eq_true hone j hlive)
    · cases he
    · cases he

/-- A client of each server logs in as `ann` before the servers have told each other.  The
one on server 2 leaves, which frees the name on server 1, and a third client takes it there. -/
def contested : List Action :=
  handshake ++ [.client 1 (.connect 5), .client 2 (.connect 5),
    .client 1 (.packet 1 ⟨.login, ascii "ann"⟩), .client 2 (.packet 1 ⟨.login, ascii "ann"⟩),
    .deliver 1 0, .deliver 2 0, .client 2 (.disconnect 1), .deliver 1 0,
    .client 1 (.connect 6), .client 1 (.packet 2 ⟨.login, ascii "ann"⟩)]

/-- When the first of the two leaves server 1, the other is no longer located. -/
theorem not_leaves_others : ¬ ∀ (ids : List Int) (as : List Action) (c : Cluster),
    (∀ a ∈ ids, IsInt a) → exec step (start ids) as = some c →
      Along step FirstLogins (start ids) as → Along step NoHijack (start ids) as →
        Along undergo LeavesOthers (start ids) (as.map .act) := by
  intro h
  have hrun : (exec step (start [1, 2]) contested).any fun c =>
      decide ((c.server 1).connManager.Live 1 ∧ (c.server 1).connManager.Live 2 ∧
        (c.server 1).Authenticated 2 ∧ (c.server 1).nameOf 2 = ascii "ann" ∧
        (c.server 1).userManager.getUserLocation (ascii "ann") = 1) &&
      (c.step (.client 1 (.disconnect 1))).any fun c' =>
        decide ((c'.server 1).userManager.getUserLocation (ascii "ann") = -1) := by decide +kernel
  obtain ⟨c, hc, hrun⟩ := (Option.any_eq_true ..).mp hrun
  obtain ⟨hbefore, hafter⟩ := Bool.and_eq_true_iff.mp hrun
  obtain ⟨hx, hy, hauth, hname, hloc⟩ := of_decide_eq_true hbefore
  obtain ⟨c', hc', hafter⟩ := (Option.any_eq_true ..).mp hafter
  have hall := h [1, 2] (contested ++ [.client 1 (.disconnect 1)]) c' (by decide)
    (exec_append_eq_some.mpr ⟨c, hc, exec_cons_eq_some.mpr ⟨c', hc', rfl⟩⟩) (by decide +kernel)
    (by decide +kernel)
  rw [List.map_append] at hall
  have hlast := ((along_append ((exec_undergo_act ..).trans hc)).mp hall).2.1
  refine hlast 1 1 c' (.inl rfl) hx hc' ⟨2, by decide, hy, hauth, fun hsame => ?_⟩
  rw [hname, hloc, of_decide_eq_true hafter] at hsame
  exact absurd hsame.2 (by decide)

end Cluster

end DistributedChat
