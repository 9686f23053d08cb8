import DistributedChat.Client.CommandLine
import DistributedChat.Logic.Looping

/-!
# The input loops of the client

`main` asks for host and port, then for a username until a line is not blank, and
then runs a command for every line until one of them is `/exit` or `/logout`.  No
loop asks whether the input is at its end.

`std::getline` at the end of the input leaves its string as it was.  So behind the
end the username loop reads a blank line for ever, and the command loop handles the
last line for ever.  The loops end exactly if a line behind the username quits
(`clientMain_ends_iff`).
-/

namespace DistributedChat

/-- Standard input and the client. -/
structure Console where
  /-- The input that is not read yet. -/
  rest : Bytes
  /-- `eofbit`. -/
  eof : Bool := false
  /-- The client. -/
  client : ChatClient := {}

/-- `std::getline(std::cin, str)`: the string afterwards.  The end of the input is noticed
when a line is not terminated; from then on the string stays what it is. -/
def Console.getline (c : Console) (str : Bytes) : Bytes × Console :=
  if c.eof then (str, c)
  else
    (c.rest.takeWhile (· != newline),
      { c with rest := (c.rest.dropWhile (· != newline)).drop 1, eof := newline ∉ c.rest })

/-- A round of the loop that asks for the username. -/
def usernameTurn (username : Bytes) (c : Console) : Looping.Turn Bytes Console Bytes :=
  let (line, c) := c.getline username
  let username := trim line
  if username ≠ [] then .leave (some username) c else .again username c

/-- A round of the command loop. -/
def commandTurn (input : Bytes) (c : Console) : Looping.Turn Bytes Console Unit :=
  if c.client.connected then
    let (line, c) := c.getline input
    let input := trim line
    let handled := handleInput c.client input
    if handled.leaves then .leave (some ()) { c with client := handled.client }
    else .again input { c with client := handled.client }
  else .leave (some ()) c

/-- `main` of the client on a connection that is made and stays up. -/
def clientMain : Looping Console Unit := do
  let _host ← .act fun c => c.getline []
  let _portStr ← .act fun c => c.getline []
  .act fun c => ((), { c with client := { c.client with connected := true } })
  let username ← .loop usernameTurn []
  .act fun c => ((), { c with client := c.client.login username })
  .loop commandTurn []
  .act fun c => ((), { c with client := c.client.logout })

/-! ## Lines -/

/-- What `getline` still has to read, piece by piece.  Behind the last newline there is
one more piece, also when it is empty. -/
def Console.pieces (c : Console) : List Bytes := if c.eof then [] else c.rest.splitOn newline

theorem Console.getline_of_nil {c : Console} (h : c.pieces = []) (str : Bytes) :
    c.getline str = (str, c) := by
  rw [pieces] at h
  split at h
  · next heof => rw [getline, if_pos heof]
  · exact absurd h (List.splitOn_ne_nil _ _)

theorem Console.getline_of_cons {c : Console} {line : Bytes} {pieces : List Bytes}
    (h : c.pieces = line :: pieces) (str : Bytes) :
    (c.getline str).1 = line ∧ (c.getline str).2.pieces = pieces := by
  rw [Console.pieces] at h
  split at h
  · cases h
  · next heof =>
      rw [getline, if_neg heof]
      by_cases hmem : newline ∈ c.rest
      · obtain ⟨a, b, hrest, ha⟩ := List.eq_append_cons_of_mem hmem
        rw [hrest, List.splitOn_append_cons_self_of_not_mem ha, List.cons.injEq] at h
        obtain ⟨rfl, rfl⟩ := h
        have hline : ∀ x ∈ a, (x != newline) = true := fun x hx =>
          bne_iff_ne.mpr fun he => ha (he ▸ hx)
        have htake : (a ++ newline :: b).takeWhile (· != newline) = a := by
          rw [List.takeWhile_append_of_pos hline]
          simp
        have hdrop : (a ++ newline :: b).dropWhile (· != newline) = newline :: b := by
          rw [List.dropWhile_append_of_pos hline]
          simp
        simp [Console.pieces, hrest, htake, hdrop]
      · rw [List.splitOn_eq_singleton hmem, List.cons.injEq] at h
        obtain ⟨rfl, rfl⟩ := h
        have hline : ∀ x ∈ c.rest, (x != newline) = true := fun x hx =>
          bne_iff_ne.mpr fun he => hmem (he ▸ hx)
        refine ⟨List.takeWhile_eq_self_iff.mpr hline, ?_⟩
        simp [Console.pieces, hmem]

theorem Console.pieces_getline (c : Console) (str : Bytes) :
    (c.getline str).2.pieces = c.pieces.drop 1 := by
  cases hp : c.pieces with
  | nil =>
      rw [c.getline_of_nil hp]
      exact hp
  | cons line pieces => exact (c.getline_of_cons hp str).2

@[simp] theorem Console.client_getline (c : Console) (str : Bytes) :
    (c.getline str).2.client = c.client := by
  rw [getline]
  split <;> rfl

/-! ## Lines that quit -/

/-- The line is `/exit` or `/logout`, whatever its arguments. -/
def Quits (line : Bytes) : Prop :=
  substrTo (trim line) (findSpace (trim line)) ∈ [ascii "/exit", ascii "/logout"]

instance (line : Bytes) : Decidable (Quits line) := inferInstanceAs (Decidable (_ ∈ _))

@[simp] theorem quits_trim (line : Bytes) : Quits (trim line) ↔ Quits line := by
  rw [Quits, trim_trim, Quits]

theorem ChatClient.send_spec (client : ChatClient) (pkt : RawPacket) :
    (client.send pkt).connected = client.connected ∧
      (client.send pkt).sent.length ≤ client.sent.length + 1 := by
  rw [send]
  split
  · exact ⟨rfl, List.length_append.le⟩
  · exact ⟨rfl, Nat.le_succ _⟩

/-- A command that does not quit leaves the connection up and sends one packet at most;
one that does sends none. -/
structure Handled.Spec (h : Handled) (client : ChatClient) (quits : Prop) : Prop where
  leaves : h.leaves ↔ quits
  connected : ¬ quits → h.client.connected = client.connected
  sent : ¬ quits → h.client.sent.length ≤ client.sent.length + 1
  silent : quits → h.client.sent = client.sent

section

variable {h : Handled} {client : ChatClient} {quits : Prop}

theorem Handled.Spec.of_stays (hq : ¬ quits) (hl : h.leaves = false)
    (hc : h.client.connected = client.connected)
    (hs : h.client.sent.length ≤ client.sent.length + 1) : h.Spec client quits :=
  ⟨by simp [hl, hq], fun _ => hc, fun _ => hs, fun h => absurd h hq⟩

theorem Handled.Spec.of_leaves (hq : quits) (hl : h.leaves = true)
    (hs : h.client.sent = client.sent) : h.Spec client quits :=
  ⟨by simp [hl, hq], fun h => absurd hq h, fun h => absurd hq h, fun _ => hs⟩

/-- A command that only prints. -/
theorem print_spec (hq : ¬ quits) (printed : Bytes) :
    ({ client, printed } : Handled).Spec client quits :=
  .of_stays hq rfl rfl (Nat.le_succ _)

/-- A command that sends. -/
theorem send_spec (hq : ¬ quits) (pkt : RawPacket) :
    ({ client := client.send pkt } : Handled).Spec client quits :=
  .of_stays hq rfl (client.send_spec pkt).1 (client.send_spec pkt).2

theorem wholeArgs_spec (hq : ¬ quits) (usage : String) (type : PacketType) (args : Bytes) :
    (wholeArgs client usage (fun c room => c.send ⟨type, room⟩) args).Spec client quits := by
  rw [wholeArgs]
  split
  · exact print_spec hq _
  · exact send_spec hq _

theorem cutArgs_spec (hq : ¬ quits) (usage : String) (type : PacketType) (args : Bytes) :
    (cutArgs client usage (fun c x y => c.send ⟨type, pack [x, y]⟩) args).Spec client quits := by
  rw [cutArgs]
  split
  · exact print_spec hq _
  · exact send_spec hq _

end

theorem runCommand_spec (client : ChatClient) (cmd args : Bytes) :
    (runCommand client cmd args).Spec client (cmd ∈ [ascii "/exit", ascii "/logout"]) := by
  by_cases hq : cmd ∈ [ascii "/exit", ascii "/logout"]
  · rcases List.mem_pair.mp hq with rfl | rfl
    · exact .of_leaves hq rfl rfl
    · exact .of_leaves hq rfl rfl
  · obtain ⟨hexit, hlogout⟩ : cmd ≠ ascii "/exit" ∧ cmd ≠ ascii "/logout" := by simpa using hq
    rw [runCommand, if_neg hexit, if_neg hlogout]
    split_ifs
    · exact print_spec hq _
    · exact cutArgs_spec hq _ .msgPrivate args
    · exact wholeArgs_spec hq _ .roomCreate args
    · exact wholeArgs_spec hq _ .roomJoin args
    · exact wholeArgs_spec hq _ .roomLeave args
    · exact cutArgs_spec hq _ .msgRoom args
    · exact wholeArgs_spec hq _ .msgBroadcast args
    · exact print_spec hq _

/-- The first word of a string starts as the string does. -/
theorem head?_of_substrTo {str : Bytes} {pos : Option Nat} {c : UInt8}
    (h : (substrTo str pos).head? = some c) : str.head? = some c := by
  cases pos with
  | none => exact h
  | some pos =>
      change (str.take pos).head? = some c at h
      rw [← List.take_append_drop pos str, List.head?_append, h]
      rfl

theorem handleInput_spec (client : ChatClient) (line : Bytes) :
    (handleInput client (trim line)).Spec client (Quits line) := by
  rw [Quits]
  generalize trim line = input
  rw [handleInput]
  split_ifs with hnil hslash
  · subst hnil
    exact print_spec (by decide) _
  · exact runCommand_spec client _ _
  · refine send_spec (fun hmem => hslash ?_) _
    rcases List.mem_pair.mp hmem with h | h
    · exact head?_of_substrTo (by rw [h]; rfl)
    · exact head?_of_substrTo (by rw [h]; rfl)

/-! ## The loops -/

section

variable {c : Console} {username input : Bytes}

/-- The username loop hangs on blank lines. -/
theorem usernameLoop_hangs (hu : trim username = []) (h : ∀ line ∈ c.pieces, trim line = []) :
    ¬ (Looping.loop usernameTurn username).Ends c := by
  refine Looping.not_ends_loop
    (I := fun username c => trim username = [] ∧ ∀ line ∈ c.pieces, trim line = []) ?_ ⟨hu, h⟩
  rintro username c ⟨hu, h⟩
  cases hp : c.pieces with
  | nil =>
      refine ⟨trim username, c, ?_, by rw [trim_trim, hu], h⟩
      simp [usernameTurn, c.getline_of_nil hp, hu]
  | cons line pieces =>
      obtain ⟨hline, hrest⟩ := c.getline_of_cons hp username
      have hblank : trim line = [] := h line (by simp [hp])
      refine ⟨trim line, (c.getline username).2, ?_, by rw [trim_trim, hblank], ?_⟩
      · simp [usernameTurn, hline, hblank]
      · rw [hrest]
        exact fun l hl => h l (by simp [hp, hl])

variable (username) in
/-- The username loop ends at the first line that is not blank. -/
theorem usernameLoop_returns {blank pieces : List Bytes} {line : Bytes}
    (hp : c.pieces = blank ++ line :: pieces) (hb : ∀ l ∈ blank, trim l = [])
    (hl : trim line ≠ []) :
    ∃ c', (Looping.loop usernameTurn username).Returns c (some (trim line), c') ∧
      c'.pieces = pieces ∧ c'.client = c.client := by
  induction blank generalizing c username with
  | nil =>
      obtain ⟨hline, hrest⟩ := c.getline_of_cons hp username
      refine ⟨(c.getline username).2, Looping.returns_loop_of_leave ?_, hrest, by simp⟩
      simp [usernameTurn, hline, hl]
  | cons b blank ih =>
      obtain ⟨hline, hrest⟩ := c.getline_of_cons hp username
      have hturn : usernameTurn username c = .again [] (c.getline username).2 := by
        simp [usernameTurn, hline, hb b (List.mem_cons_self ..)]
      obtain ⟨c', hret, hpieces, hclient⟩ := ih [] hrest
        fun l hl => hb l (List.mem_cons_of_mem _ hl)
      exact ⟨c', (Looping.returns_loop_iff_of_again hturn).mpr hret, hpieces, by simpa using hclient⟩

/-- The command loop hangs on lines that do not quit. -/
theorem commandLoop_hangs (hup : c.client.connected = true) (hi : ¬ Quits input)
    (h : ∀ line ∈ c.pieces, ¬ Quits line) : ¬ (Looping.loop commandTurn input).Ends c := by
  refine Looping.not_ends_loop
    (I := fun input c => c.client.connected = true ∧ ¬ Quits input ∧
      ∀ line ∈ c.pieces, ¬ Quits line) ?_ ⟨hup, hi, h⟩
  rintro input c ⟨hup, hi, h⟩
  have hagain (line : Bytes) (hline : (c.getline input).1 = line) (hq : ¬ Quits line) :
      ∃ c', commandTurn input c = .again (trim line) c' ∧ c'.client.connected = true ∧
        c'.pieces = (c.getline input).2.pieces := by
    have hspec := handleInput_spec c.client line
    have hstay : (handleInput c.client (trim line)).leaves = false := by
      simpa using fun hl => hq (hspec.leaves.mp hl)
    refine ⟨{ (c.getline input).2 with client := (handleInput c.client (trim line)).client },
      ?_, (hspec.connected hq).trans hup, rfl⟩
    simp [commandTurn, hup, hline, hstay]
  cases hp : c.pieces with
  | nil =>
      have heof := c.getline_of_nil hp input
      obtain ⟨c', hturn, hup', hpieces⟩ := hagain input (by rw [heof]) hi
      rw [heof, hp] at hpieces
      exact ⟨trim input, c', hturn, hup', by simpa using hi, by simp [hpieces]⟩
  | cons line pieces =>
      obtain ⟨hline, hrest⟩ := c.getline_of_cons hp input
      have hq : ¬ Quits line := h line (by simp [hp])
      obtain ⟨c', hturn, hup', hpieces⟩ := hagain line hline hq
      refine ⟨trim line, c', hturn, hup', by simpa using hq, fun l hl => h l ?_⟩
      rw [hpieces, hrest] at hl
      simp [hp, hl]

variable (input) in
/-- The command loop ends at the first line that quits, with one packet at most for each line
before. -/
theorem commandLoop_returns {before pieces : List Bytes} {line : Bytes}
    (hup : c.client.connected = true) (hp : c.pieces = before ++ line :: pieces)
    (hb : ∀ l ∈ before, ¬ Quits l) (hq : Quits line) :
    ∃ c', (Looping.loop commandTurn input).Returns c (some (), c') ∧
      c'.client.sent.length ≤ c.client.sent.length + before.length := by
  induction before generalizing c input with
  | nil =>
      obtain ⟨hline, -⟩ := c.getline_of_cons hp input
      have hspec := handleInput_spec c.client line
      refine ⟨{ (c.getline input).2 with client := (handleInput c.client (trim line)).client },
        Looping.returns_loop_of_leave ?_, (congrArg List.length (hspec.silent hq)).le⟩
      simp [commandTurn, hup, hline, hspec.leaves.mpr hq]
  | cons b before ih =>
      obtain ⟨hline, hrest⟩ := c.getline_of_cons hp input
      have hspec := handleInput_spec c.client b
      have hqb : ¬ Quits b := hb b (List.mem_cons_self ..)
      have hstay : (handleInput c.client (trim b)).leaves = false := by
        simpa using fun hl => hqb (hspec.leaves.mp hl)
      let next : Console :=
        { (c.getline input).2 with client := (handleInput c.client (trim b)).client }
      have hturn : commandTurn input c = .again (trim b) next := by
        simp [commandTurn, hup, hline, hstay, next]
      obtain ⟨c', hret, hsent⟩ := ih (trim b) (c := next)
        ((hspec.connected hqb).trans hup) hrest fun l hl => hb l (List.mem_cons_of_mem _ hl)
      refine ⟨c', (Looping.returns_loop_iff_of_again hturn).mpr hret, ?_⟩
      have hone : next.client.sent.length ≤ c.client.sent.length + 1 := hspec.sent hqb
      rw [List.length_cons]
      omega

end

/-! ## The whole input -/

/-- The lines of the input.  The last one need not be terminated. -/
def inputLines (input : Bytes) : List Bytes :=
  let pieces := input.splitOn newline
  if pieces.getLast? = some [] then pieces.dropLast else pieces

/-- The lines behind the username: behind the two for host and port, the first one that is
not blank. -/
def commandLines (input : Bytes) : List Bytes :=
  (((input.splitOn newline).drop 2).dropWhile fun line => trim line = []).drop 1

/-- The client ends on the input, with one packet at most for each line. -/
def EndsWithInput (input : Bytes) : Prop :=
  ∃ c, clientMain.Returns { rest := input } (some (), c) ∧
    c.client.sent.length ≤ (inputLines input).length

theorem length_inputLines (input : Bytes) :
    (input.splitOn newline).length ≤ (inputLines input).length + 1 := by
  rw [inputLines]
  split
  · rw [List.length_dropLast]
    omega
  · exact Nat.le_succ _

/-- The part of `main` behind the connection. -/
def session : Looping Console Unit := do
  let username ← .loop usernameTurn []
  .act fun c => ((), { c with client := c.client.login username })
  .loop commandTurn []
  .act fun c => ((), { c with client := c.client.logout })

/-- The console when the connection is made. -/
def connectedConsole (input : Bytes) : Console :=
  let c := ((({ rest := input } : Console).getline []).2.getline []).2
  { c with client := { c.client with connected := true } }

theorem connectedConsole_spec (input : Bytes) :
    (connectedConsole input).pieces = (input.splitOn newline).drop 2 ∧
      (connectedConsole input).client = { connected := true } := by
  constructor
  · show ((({ rest := input } : Console).getline []).2.getline []).2.pieces = _
    rw [Console.pieces_getline, Console.pieces_getline, List.drop_drop]
    rfl
  · simp [connectedConsole]

/-- What `main` does on the input is what it does behind the connection. -/
theorem clientMain_returns_iff {input : Bytes} {r : Option Unit × Console} :
    clientMain.Returns { rest := input } r ↔ session.Returns (connectedConsole input) r := by
  constructor
  · rintro ⟨n, h⟩
    exact ⟨n, h⟩
  · rintro ⟨n, h⟩
    exact ⟨n, h⟩

section

variable {c : Console} {blank lines : List Bytes} {name : Bytes}

/-- Once there is a username, the session is the command loop. -/
theorem session_named (hup : c.client.connected = true) (hp : c.pieces = blank ++ name :: lines)
    (hb : ∀ l ∈ blank, trim l = []) (hname : trim name ≠ []) :
    ∃ c', c'.pieces = lines ∧ c'.client.connected = true ∧
      c'.client.sent.length ≤ c.client.sent.length + 1 ∧
      ∀ r, session.Returns c r ↔
        (Looping.loop commandTurn [] >>= fun _ =>
          .act fun c => ((), { c with client := c.client.logout })).Returns c' r := by
  obtain ⟨d, hret, hpieces, hclient⟩ := usernameLoop_returns [] hp hb hname
  have hlogin := d.client.send_spec ⟨.login, trim name⟩
  rw [hclient] at hlogin
  refine ⟨{ d with client := d.client.login (trim name) }, hpieces, ?_, ?_, fun r => ?_⟩
  · rw [hclient]
    exact hlogin.1.trans hup
  · rw [hclient]
    exact hlogin.2
  · rw [session, hret.bind_iff, (Looping.returns_act _ d).bind_iff]

/-- A session in which no line behind the username quits hangs. -/
theorem session_hangs (hup : c.client.connected = true) (hp : c.pieces = blank ++ name :: lines)
    (hb : ∀ l ∈ blank, trim l = []) (hname : trim name ≠ []) (hq : ∀ l ∈ lines, ¬ Quits l) :
    ¬ session.Ends c := by
  obtain ⟨c', hpieces, hup', -, hiff⟩ := session_named hup hp hb hname
  rintro ⟨r, hret⟩
  refine Looping.not_ends_bind (commandLoop_hangs hup' (by decide) ?_) ⟨r, (hiff r).mp hret⟩
  rwa [hpieces]

/-- A session ends at the first line behind the username that quits. -/
theorem session_returns {before after : List Bytes} {quit : Bytes}
    (hup : c.client.connected = true) (hp : c.pieces = blank ++ name :: lines)
    (hb : ∀ l ∈ blank, trim l = []) (hname : trim name ≠ [])
    (hlines : lines = before ++ quit :: after) (hq : Quits quit)
    (hbefore : ∀ l ∈ before, ¬ Quits l) :
    ∃ c', session.Returns c (some (), c') ∧
      c'.client.sent.length ≤ c.client.sent.length + 1 + before.length := by
  obtain ⟨d, hpieces, hup', hone, hiff⟩ := session_named hup hp hb hname
  obtain ⟨e, hret, hsent⟩ := commandLoop_returns [] hup' (hpieces.trans hlines) hbefore hq
  refine ⟨_, (hiff _).mpr (hret.bind (Looping.returns_act _ e)), ?_⟩
  show e.client.sent.length ≤ _
  omega

end

/-- **Input loops.**  On every input, with a final newline or without, the client ends, with one
packet at most for each line, if and only if a line behind the username quits. -/
theorem clientMain_ends_iff (input : Bytes) :
    EndsWithInput input ↔ ∃ line ∈ commandLines input, Quits line := by
  obtain ⟨hpieces, hclient⟩ := connectedConsole_spec input
  have hup : (connectedConsole input).client.connected = true := by rw [hclient]
  have hcut := List.takeWhile_append_dropWhile (p := fun line => decide (trim line = []))
    (l := (input.splitOn newline).drop 2)
  have hblank : ∀ line ∈ ((input.splitOn newline).drop 2).takeWhile fun line => trim line = [],
      trim line = [] := fun line hline => by simpa using List.mem_takeWhile_imp hline
  have hhead := List.head?_dropWhile_not (fun line => decide (trim line = []))
    ((input.splitOn newline).drop 2)
  rw [commandLines]
  rcases hdrop : ((input.splitOn newline).drop 2).dropWhile fun line => trim line = [] with
    - | ⟨name, lines⟩
  · -- no username
    refine iff_of_false ?_ (by simp)
    rintro ⟨c, hret, -⟩
    rw [hdrop, List.append_nil] at hcut
    rw [hcut, ← hpieces] at hblank
    exact Looping.not_ends_bind (usernameLoop_hangs rfl hblank) ⟨_, clientMain_returns_iff.mp hret⟩
  · rw [hdrop] at hcut hhead
    have hname : trim name ≠ [] := by simpa using hhead
    have hp := hpieces.trans hcut.symm
    show _ ↔ ∃ line ∈ lines, Quits line
    constructor
    · rintro ⟨c, hret, -⟩
      by_contra hnone
      push Not at hnone
      exact session_hangs hup hp hblank hname hnone ⟨_, clientMain_returns_iff.mp hret⟩
    · rintro hquit
      have hfound : (lines.find? fun line => decide (Quits line)).isSome := by simpa using hquit
      obtain ⟨quit, hfind⟩ := Option.isSome_iff_exists.mp hfound
      obtain ⟨hq, before, after, hlines, hbefore⟩ := List.find?_eq_some_iff_append.mp hfind
      obtain ⟨c, hret, hsent⟩ := session_returns hup hp hblank hname hlines (by simpa using hq)
        (by simpa using hbefore)
      refine ⟨c, clientMain_returns_iff.mpr hret, hsent.trans ?_⟩
      have hcount := congrArg List.length hcut
      have hlines' := length_inputLines input
      rw [hclient]
      simp only [List.length_append, List.length_cons, List.length_drop, hlines] at hcount
      show 0 + 1 + before.length ≤ _
      omega

/-- Host, port, username and a text, and no newline behind the text. -/
def unfinishedInput : Bytes := ascii "\n\nann\nhello"

/-- The client handles the text for ever. -/
theorem clientMain_hangs_on_unfinished : ¬ ∀ input, EndsWithInput input := by
  intro h
  obtain ⟨c, hret, -⟩ := h unfinishedInput
  obtain ⟨hpieces, hclient⟩ := connectedConsole_spec unfinishedInput
  have hcut : (connectedConsole unfinishedInput).pieces =
      [] ++ ascii "ann" :: [ascii "hello"] := by
    rw [hpieces]
    decide
  exact session_hangs (by rw [hclient]) hcut (by simp) (by decide) (by decide)
    ⟨_, clientMain_returns_iff.mp hret⟩

end DistributedChat
