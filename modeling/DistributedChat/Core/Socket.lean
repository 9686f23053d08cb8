import DistributedChat.Core.Text
import DistributedChat.Logic.Reader

/-!
# The receiving side of a socket

What a socket will give is a list of arrivals: the bytes of one segment, a
`WSAEWOULDBLOCK` where nothing has come yet, or a failure.  The end of the list
is the end of the connection.  `Recv` gives at most what was asked for and
leaves the rest of a segment for the next call, so the segments are any
fragmentation of the bytes.

`recvAll_reads` and `recvAll_eq_some` say that the fragmentation does not
matter to `RecvAll`.
-/

namespace DistributedChat

/-- What a call of `recv` meets. -/
inductive Arrival where
  /-- The bytes of a segment. -/
  | segment (bytes : Bytes) (ne : bytes ≠ [])
  /-- `WSAEWOULDBLOCK`. -/
  | wouldBlock
  /-- The connection was closed or broken. -/
  | failure

/-- The result of `Recv`. -/
inductive Received where
  | bytes (bs : Bytes)
  | wouldBlock
  | failed

/-- `TcpSocket::Recv`. -/
def recv (len : Nat) : List Arrival → Received × List Arrival
  | [] => (.failed, [])
  | .segment bs _ :: s =>
      (.bytes (bs.take len), if ne : bs.drop len = [] then s else .segment (bs.drop len) ne :: s)
  | .wouldBlock :: s => (.wouldBlock, s)
  | .failure :: s => (.failed, s)

/-- The bytes that arrive. -/
def Arrival.content : List Arrival → Bytes
  | [] => []
  | .segment bs _ :: s => bs ++ content s
  | _ :: s => content s

/-- The bytes of a socket, in whatever segments they arrive. -/
def received : Source (List Arrival) UInt8 where
  content := Arrival.content
  Fluent s := Arrival.failure ∉ s

theorem recv_bytes {len : Nat} {s s' : List Arrival} {bs : Bytes} (hlen : 0 < len)
    (h : recv len s = (.bytes bs, s')) :
    0 < bs.length ∧ bs.length ≤ len ∧ s'.length ≤ s.length ∧
      Arrival.content s = bs ++ Arrival.content s' ∧ (.failure ∉ s → .failure ∉ s') := by
  rcases s with - | ⟨⟨seg, ne⟩ | - | -, s⟩
  · cases h
  · obtain ⟨rfl, rfl⟩ : seg.take len = bs ∧ _ = s' := by simpa [recv] using h
    have hpos := List.length_pos_iff.mpr ne
    refine ⟨by rw [List.length_take]; omega, List.length_take_le .., ?_⟩
    split
    next hdrop =>
      have htake : seg.take len = seg := List.take_of_length_le hdrop
      exact ⟨Nat.le_succ _, by rw [htake]; rfl, fun hs hm => hs (List.mem_cons_of_mem _ hm)⟩
    next hdrop =>
      refine ⟨Nat.le_refl _, ?_, ?_⟩
      · show seg ++ _ = seg.take len ++ (seg.drop len ++ _)
        rw [← List.append_assoc, List.take_append_drop]
      · rintro hs (_ | hm)
        exact hs (List.mem_cons_of_mem _ ‹_›)
  · cases h
  · cases h

theorem recv_wouldBlock {len : Nat} {s s' : List Arrival}
    (h : recv len s = (.wouldBlock, s')) : s = .wouldBlock :: s' := by
  rcases s with - | ⟨⟨seg, ne⟩ | - | -, s⟩ <;> cases h
  rfl

theorem recv_failed {len : Nat} {s s' : List Arrival} (h : recv len s = (.failed, s')) :
    s = [] ∨ .failure ∈ s := by
  rcases s with - | ⟨⟨seg, ne⟩ | - | -, s⟩
  · exact Or.inl rfl
  · cases h
  · cases h
  · exact Or.inr (List.mem_cons_self ..)

/-- The loop of `RecvAll`, in the number of bytes left to read. -/
def recvLoop (bytesLeft : Nat) (s : List Arrival) : Option (Bytes × List Arrival) :=
  if _left : bytesLeft = 0 then some ([], s)
  else match _received : recv bytesLeft s with
    | (.bytes bs, s') => (recvLoop (bytesLeft - bs.length) s').map fun r => (bs ++ r.1, r.2)
    | (.wouldBlock, s') => recvLoop bytesLeft s'
    | (.failed, _) => none
termination_by (s.length, bytesLeft)
decreasing_by
  · have hr := recv_bytes (Nat.pos_of_ne_zero _left) _received
    simp only [Prod.lex_def]
    omega
  · rw [recv_wouldBlock _received]
    simp only [Prod.lex_def, List.length_cons]
    omega

/-- `TcpSocket::RecvAll`. -/
def recvAll (len : Nat) : StateT (List Arrival) Option Bytes := recvLoop len

section

variable {len : Nat} {s t : List Arrival} {bs : Bytes}

theorem recvLoop_zero (s : List Arrival) : recvLoop 0 s = some ([], s) := by
  rw [recvLoop, dif_pos rfl]

theorem recvLoop_bytes (hlen : len ≠ 0) (h : recv len s = (.bytes bs, t)) :
    recvLoop len s = (recvLoop (len - bs.length) t).map fun r => (bs ++ r.1, r.2) := by
  rw [recvLoop, dif_neg hlen]
  split
  all_goals cases h.symm.trans ‹_›
  rfl

theorem recvLoop_wouldBlock (hlen : len ≠ 0) (h : recv len s = (.wouldBlock, t)) :
    recvLoop len s = recvLoop len t := by
  rw [recvLoop, dif_neg hlen]
  split
  all_goals cases h.symm.trans ‹_›
  rfl

theorem recvLoop_failed (hlen : len ≠ 0) (h : recv len s = (.failed, t)) :
    recvLoop len s = none := by
  rw [recvLoop, dif_neg hlen]
  split
  all_goals cases h.symm.trans ‹_›
  rfl

end

/-- `RecvAll` consumes the bytes it returns, and as many as it was asked for. -/
theorem recvAll_eq_some {len : Nat} {s s' : List Arrival} {bs : Bytes}
    (h : (recvAll len).run s = some (bs, s')) :
    bs.length = len ∧ received.content s = bs ++ received.content s' := by
  change recvLoop len s = some (bs, s') at h
  show _ ∧ Arrival.content s = bs ++ Arrival.content s'
  induction len, s using recvLoop.induct generalizing bs with
  | case1 s =>
      rw [recvLoop_zero] at h
      cases h
      exact ⟨rfl, rfl⟩
  | case2 len s hlen seg t hrecv ih =>
      obtain ⟨-, hle, -, hc, -⟩ := recv_bytes (Nat.pos_of_ne_zero hlen) hrecv
      rw [recvLoop_bytes hlen hrecv] at h
      obtain ⟨⟨rest, t'⟩, hrest, h⟩ := Option.map_eq_some_iff.mp h
      cases h
      obtain ⟨hn, hcr⟩ := ih hrest
      refine ⟨?_, ?_⟩
      · rw [List.length_append, hn]
        omega
      · rw [hc, hcr, List.append_assoc]
  | case3 len s hlen t hrecv ih =>
      rw [recvLoop_wouldBlock hlen hrecv] at h
      rw [recv_wouldBlock hrecv]
      exact ih h
  | case4 len s hlen t hrecv =>
      rw [recvLoop_failed hlen hrecv] at h
      cases h

/-- However the bytes arrive, `RecvAll` takes as many as it was asked for. -/
theorem recvAll_reads (bs : Bytes) : received.Reads (recvAll bs.length) bs bs := by
  intro s rest hs hc
  show ∃ s', recvLoop bs.length s = some (bs, s') ∧ Arrival.content s' = rest ∧ .failure ∉ s'
  change .failure ∉ s at hs
  change Arrival.content s = bs ++ rest at hc
  generalize hlen : bs.length = len
  induction len, s using recvLoop.induct generalizing bs with
  | case1 s =>
      rw [List.length_eq_zero_iff] at hlen
      subst hlen
      exact ⟨s, recvLoop_zero s, hc, hs⟩
  | case2 len s hne seg t hrecv ih =>
      obtain ⟨-, hle, -, hseg, hfluent⟩ := recv_bytes (Nat.pos_of_ne_zero hne) hrecv
      -- the segment is the beginning of what was asked for
      obtain ⟨more, rfl⟩ : seg <+: bs :=
        List.prefix_of_prefix_length_le ⟨_, hseg.symm⟩ ⟨_, hc.symm⟩ (hlen ▸ hle)
      have hmore : Arrival.content t = more ++ rest := by
        rw [hseg, List.append_assoc] at hc
        exact List.append_cancel_left hc
      have hlen' : more.length = len - seg.length := by
        rw [← hlen, List.length_append]
        omega
      obtain ⟨s', hrun, hs'⟩ := ih more (hfluent hs) hmore hlen'
      refine ⟨s', ?_, hs'⟩
      rw [recvLoop_bytes hne hrecv, hrun]
      rfl
  | case3 len s hne t hrecv ih =>
      rw [recv_wouldBlock hrecv] at hs hc
      rw [recvLoop_wouldBlock hne hrecv]
      exact ih bs (fun hm => hs (List.mem_cons_of_mem _ hm)) hc hlen
  | case4 len s hne t hrecv =>
      -- a socket that does not break off fails only when it has nothing left
      rcases recv_failed hrecv with rfl | hfail
      · have hbs : bs = [] := (List.append_eq_nil_iff.mp hc.symm).1
        subst hbs
        exact absurd hlen.symm hne
      · exact absurd hfail hs

end DistributedChat
