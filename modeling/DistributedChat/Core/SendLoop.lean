import DistributedChat.Core.Text
import Mathlib.Data.PNat.Basic

/-!
# The sending side of a socket

What a socket will take is a list of departures: `Send` takes a number of bytes, or
reports `WSAEWOULDBLOCK`.  The end of the list is the end of the connection, and
every `Send` behind it fails.

The loop around `Send` stands five times in the source, once as
`TcpSocket::SendAll`.  It counts the bytes left in an `int`, to which the size of the
buffer is narrowed.  As long as the buffer has less than `2 ^ 31` bytes the count is
exact, and the loop reports success exactly when all bytes are taken
(`sendLoop_exact`).
-/

namespace DistributedChat

/-! ## Narrowing -/

/-- `static_cast<int>(size)`. -/
def narrow (size : Nat) : Int :=
  let n : Nat := size % 2 ^ 32
  if n < 2 ^ 31 then n else n - 2 ^ 32

theorem narrow_of_lt {size : Nat} (h : size < 2 ^ 31) : narrow size = size := by
  rw [narrow, Nat.mod_eq_of_lt (by omega)]
  exact if_pos h

theorem narrow_neg {size : Nat} (h : 2 ^ 31 ≤ size) (h' : size < 2 ^ 32) : narrow size < 0 := by
  rw [narrow, Nat.mod_eq_of_lt h']
  show (if size < 2 ^ 31 then (size : Int) else size - 2 ^ 32) < 0
  rw [if_neg (by omega)]
  omega

/-! ## The loop -/

/-- What a call of `Send` meets. -/
inductive Departure where
  /-- Up to so many bytes are taken. -/
  | taken (n : ℕ+)
  /-- `WSAEWOULDBLOCK`. -/
  | wouldBlock
deriving DecidableEq

/-- The variables of the loop around `Send`. -/
structure SendVars where
  /-- `bytesLeft`. -/
  bytesLeft : Int
  /-- The bytes from `ptr` on. -/
  ptr : Bytes
deriving DecidableEq, Repr

namespace SendVars

/-- The variables before the first round. -/
def start (buffer : Bytes) : SendVars := ⟨narrow buffer.length, buffer⟩

/-- How many bytes a `Send` takes that could take `n`. -/
def count (x : SendVars) (n : ℕ+) : Nat := min n x.bytesLeft.toNat

/-- The bytes it takes. -/
def taken (x : SendVars) (n : ℕ+) : Bytes := x.ptr.take (x.count n)

/-- The variables after it. -/
def advance (x : SendVars) (n : ℕ+) : SendVars :=
  ⟨x.bytesLeft - x.count n, x.ptr.drop (x.count n)⟩

/-- The count of bytes left is right. -/
def Exact (x : SendVars) : Prop := x.bytesLeft = x.ptr.length

end SendVars

/-- The loop around `Send`: what it returns, the bytes it sends and what the socket takes
after it. -/
def sendLoop (x : SendVars) : List Departure → Bool × Bytes × List Departure
  | [] => (x.bytesLeft ≤ 0, [], [])
  | d :: s =>
      if 0 < x.bytesLeft then
        match d with
        | .wouldBlock => sendLoop x s
        | .taken n =>
            let r := sendLoop (x.advance n) s
            (r.1, x.taken n ++ r.2.1, r.2.2)
      else (true, [], d :: s)

/-- `TcpSocket::SendAll` of a whole buffer. -/
def sendAll (buffer : Bytes) (s : List Departure) : Bool × Bytes × List Departure :=
  sendLoop (.start buffer) s

/-! ## What the loop sends -/

section

variable {x : SendVars} {n : ℕ+} {s : List Departure} {buffer : Bytes}

theorem SendVars.exact_start (h : buffer.length < 2 ^ 31) : (SendVars.start buffer).Exact :=
  narrow_of_lt h

/-- The count stays right. -/
theorem SendVars.Exact.advance (hx : x.Exact) (hpos : 0 < x.bytesLeft) : (x.advance n).Exact := by
  rw [SendVars.Exact] at hx
  show x.bytesLeft - x.count n = ((x.ptr.drop (x.count n)).length : Int)
  have hle : x.count n ≤ x.bytesLeft.toNat := Nat.min_le_right ..
  rw [List.length_drop]
  omega

@[simp] theorem SendVars.taken_append_advance (x : SendVars) (n : ℕ+) :
    x.taken n ++ (x.advance n).ptr = x.ptr := List.take_append_drop ..

/-- A loop that has nothing to send succeeds. -/
theorem sendLoop_of_nonpos (h : x.bytesLeft ≤ 0) (s : List Departure) :
    sendLoop x s = (true, [], s) := by
  cases s with
  | nil => simp [sendLoop, h]
  | cons d s => cases d <;> rw [sendLoop, if_neg (not_lt.mpr h)]

theorem sendLoop_nil (h : 0 < x.bytesLeft) : sendLoop x [] = (false, [], []) := by
  simp [sendLoop, h]

theorem sendLoop_wouldBlock (h : 0 < x.bytesLeft) :
    sendLoop x (.wouldBlock :: s) = sendLoop x s := by
  rw [sendLoop, if_pos h]

theorem sendLoop_taken (h : 0 < x.bytesLeft) :
    sendLoop x (.taken n :: s) = ((sendLoop (x.advance n) s).1,
      x.taken n ++ (sendLoop (x.advance n) s).2.1, (sendLoop (x.advance n) s).2.2) := by
  rw [sendLoop, if_pos h]

/-- What is sent when the loop ends: everything on success, less on failure, and then the
connection is at its end. -/
structure Sent (buffer : Bytes) (r : Bool × Bytes × List Departure) : Prop where
  whole : r.1 = true → r.2.1 = buffer
  part : r.1 = false → r.2.1 ≠ buffer ∧ r.2.1 <+: buffer
  ended : r.1 = false → r.2.2 = []

theorem sendLoop_exact_of_nonpos (hx : x.Exact) (h : x.bytesLeft ≤ 0) (s : List Departure) :
    Sent x.ptr (sendLoop x s) := by
  rw [sendLoop_of_nonpos h]
  rw [SendVars.Exact] at hx
  have hnil : x.ptr = [] := List.length_eq_zero_iff.mp (by omega)
  exact ⟨fun _ => hnil.symm, nofun, nofun⟩

/-- **The send loop.**  If the count is right, the loop sends everything and succeeds, or sends
less and fails at the end of the connection. -/
theorem sendLoop_exact (hx : x.Exact) (s : List Departure) : Sent x.ptr (sendLoop x s) := by
  by_cases hpos : 0 < x.bytesLeft
  · induction s generalizing x with
    | nil =>
        rw [sendLoop_nil hpos]
        refine ⟨nofun, fun _ => ⟨fun hnil => ?_, List.nil_prefix⟩, fun _ => rfl⟩
        rw [SendVars.Exact, ← hnil, List.length_nil] at hx
        omega
    | cons d s ih =>
        cases d with
        | wouldBlock =>
            rw [sendLoop_wouldBlock hpos]
            exact ih hx hpos
        | taken n =>
            have hrest : Sent (x.advance n).ptr (sendLoop (x.advance n) s) := by
              by_cases hmore : 0 < (x.advance n).bytesLeft
              · exact ih (hx.advance hpos) hmore
              · exact sendLoop_exact_of_nonpos (hx.advance hpos) (not_lt.mp hmore) s
            rw [sendLoop_taken hpos]
            refine ⟨fun h => ?_, fun h => ⟨fun heq => ?_, ?_⟩, hrest.ended⟩
            · exact (congrArg (x.taken n ++ ·) (hrest.whole h)).trans (x.taken_append_advance n)
            · rw [← x.taken_append_advance n] at heq
              exact (hrest.part h).1 (List.append_cancel_left heq)
            · rw [← x.taken_append_advance n]
              exact (List.prefix_append_right_inj _).mpr (hrest.part h).2
  · exact sendLoop_exact_of_nonpos hx (not_lt.mp hpos) s

theorem sendAll_sent (h : buffer.length < 2 ^ 31) (s : List Departure) :
    Sent buffer (sendAll buffer s) :=
  sendLoop_exact (SendVars.exact_start h) s

/-- A socket that takes the whole buffer at once. -/
theorem exists_sendAll_succeeds (h : buffer.length < 2 ^ 31) :
    ∃ s, (sendAll buffer s).1 = true := by
  have hexact : (SendVars.start buffer).bytesLeft = buffer.length := narrow_of_lt h
  rcases Nat.eq_zero_or_pos buffer.length with hzero | hpos
  · refine ⟨[], congrArg Prod.fst (sendLoop_of_nonpos (x := .start buffer) ?_ [])⟩
    omega
  · obtain ⟨n, hn⟩ : ∃ n : ℕ+, (n : Nat) = buffer.length := ⟨⟨_, hpos⟩, rfl⟩
    have hcount : (SendVars.start buffer).count n = buffer.length := by
      rw [SendVars.count, hexact, Int.toNat_natCast, hn, Nat.min_self]
    have hleft : ((SendVars.start buffer).advance n).bytesLeft ≤ 0 := by
      show (SendVars.start buffer).bytesLeft - (SendVars.start buffer).count n ≤ 0
      omega
    refine ⟨[.taken n], ?_⟩
    rw [sendAll, sendLoop_taken (by omega), sendLoop_of_nonpos hleft]

end

end DistributedChat
