import DistributedChat.Client.CommandLine
import DistributedChat.Client.Service
import DistributedChat.Concurrency.Screens

/-!
# What is typed and what is seen

A user types a name and then lines.  The client makes packets of them, the server handles
the packets, and the clients print what it sends.  All that anybody sees of this is a chat
service (`typed_is_seen`), as long as nobody goes while in a room.

Not every request can be typed.  A text has no blanks at its end, and in front of a text
stands a name without a space, so nothing can be said in a room that has one
(`typable_iff`).  A text may begin with blanks, as only the first space ends the name.
-/

namespace DistributedChat

open ChatService (Act Line Request)

/-- The string can be a part of a line of text. -/
def Plain (str : Bytes) : Prop := NulFree str ∧ newline ∉ str

instance : DecidablePred Plain := fun str => inferInstanceAs (Decidable (NulFree str ∧ _))

section

variable {x y : Bytes}

theorem Plain.of_subset (h : Plain y) (hxy : x ⊆ y) : Plain x :=
  ⟨fun hx => h.1 (hxy hx), fun hx => h.2 (hxy hx)⟩

theorem plain_append : Plain (x ++ y) ↔ Plain x ∧ Plain y := by
  simp only [Plain, NulFree, List.mem_append]
  tauto

theorem plain_space : Plain (32 :: y) ↔ Plain y := by
  have hnul : nul ≠ 32 := by decide
  have hnewline : newline ≠ 32 := by decide
  simp [Plain, NulFree, hnul, hnewline]

theorem trim_subset (str : Bytes) : trim str ⊆ str :=
  List.Subset.trans (List.rdropWhile_prefix isBlank _).subset
    (List.dropWhile_sublist isBlank).subset

end

/-! ## What lines send -/

/-- What a line can make the client send. -/
inductive SentFor (line : Bytes) : RawPacket → Prop where
  | whole {type : PacketType} {args : Bytes}
      (ht : type ∈ [PacketType.msgBroadcast, .roomCreate, .roomJoin, .roomLeave]) (hne : args ≠ [])
      (htrim : trim args = args) (hin : args ⊆ line) : SentFor line ⟨type, args⟩
  | cut {type : PacketType} {a text : Bytes} (ht : type ∈ [PacketType.msgPrivate, .msgRoom])
      (hne : a ≠ []) (hspace : 32 ∉ a) (htrim : trim (a ++ 32 :: text) = a ++ 32 :: text)
      (hin : a ++ 32 :: text ⊆ line) : SentFor line ⟨type, pack [a, text]⟩

section

variable {client : ChatClient} {usage : String} {type : PacketType} {cmd args line : Bytes}
  {pkt : RawPacket}

theorem wholeArgs_sent
    (h : (wholeArgs client usage (fun c room => c.send ⟨type, room⟩) args).client.sent =
      client.sent ++ [pkt])
    (ht : type ∈ [PacketType.msgBroadcast, .roomCreate, .roomJoin, .roomLeave])
    (htrim : trim args = args) (hin : args ⊆ line) : SentFor line pkt := by
  obtain ⟨rfl, hne⟩ := wholeArgs_sends h
  exact .whole ht hne htrim hin

theorem findSpace_eq_none (h : 32 ∉ args) : findSpace args = none :=
  List.findIdx?_eq_none_iff.mpr fun _ hc => beq_eq_false_iff_ne.mpr fun he => h (he ▸ hc)

theorem cutArgs_sent
    (h : (cutArgs client usage (fun c x y => c.send ⟨type, pack [x, y]⟩) args).client.sent =
      client.sent ++ [pkt])
    (ht : type ∈ [PacketType.msgPrivate, .msgRoom]) (htrim : trim args = args)
    (hin : args ⊆ line) : SentFor line pkt := by
  by_cases hspace : 32 ∈ args
  · obtain ⟨a, text, rfl, ha⟩ := List.eq_append_cons_of_mem hspace
    rw [cutArgs, findSpace_append ha, substrTo_append, substrBehind_append] at h
    split at h
    · simp at h
    · next hcut =>
        obtain rfl := ChatClient.sent_send_eq h
        exact .cut ht (fun hnil => hcut (.inr hnil)) ha htrim hin
  · rw [cutArgs, if_pos (.inl (findSpace_eq_none hspace))] at h
    simp at h

theorem runCommand_sent (h : (runCommand client cmd args).client.sent = client.sent ++ [pkt])
    (htrim : trim args = args) (hin : args ⊆ line) : SentFor line pkt := by
  rw [runCommand] at h
  split_ifs at h
  · simp at h
  · simp [ChatClient.logout] at h
  · simp at h
  · exact cutArgs_sent h (by decide) htrim hin
  · exact wholeArgs_sent h (by decide) htrim hin
  · exact wholeArgs_sent h (by decide) htrim hin
  · exact wholeArgs_sent h (by decide) htrim hin
  · exact cutArgs_sent h (by decide) htrim hin
  · exact wholeArgs_sent h (by decide) htrim hin
  · simp at h

theorem substrBehind_subset (str : Bytes) (pos : Option Nat) : substrBehind str pos ⊆ str := by
  cases pos with
  | none => exact List.nil_subset _
  | some pos => exact List.drop_subset ..

theorem sent_of_sends (h : Sends client line pkt) : SentFor line pkt := by
  rw [Sends, handleInput] at h
  split_ifs at h with hnil hslash
  · simp at h
  · refine runCommand_sent h (trim_trim _) ?_
    exact List.Subset.trans (trim_subset _)
      (List.Subset.trans (substrBehind_subset ..) (trim_subset line))
  · obtain rfl := ChatClient.sent_send_eq h
    exact .whole (by decide) hnil (trim_trim line) (trim_subset line)

end

/-! ## What can be asked for -/

/-- The user has typed what the client sends, as a name or in a line of the command loop. -/
def RawPacket.Typed (pkt : RawPacket) : Prop :=
  ∃ line, Plain line ∧
    (trim line ≠ [] ∧ pkt = ⟨.login, trim line⟩ ∨ ∃ client, Sends client line pkt)

/-- A line can ask for it. -/
def Typable : Request Bytes Bytes Bytes → Prop
  | .enter u => Plain u ∧ u ≠ [] ∧ 32 ∉ u ∧ trim u = u
  | .misname => True
  | .whisper a text | .say a text => Plain a ∧ Plain text ∧ a ≠ [] ∧ 32 ∉ a ∧
      trim (a ++ 32 :: text) = a ++ 32 :: text
  | .shout x | .join x | .leave x | .create x => Plain x ∧ x ≠ [] ∧ trim x = x
  | .nothing => False

section

variable {cmd args line x y : Bytes} {pkt : RawPacket}

theorem unpack_pack_pair (hx : NulFree x) (hy : NulFree y) : unpack (pack [x, y]) = [x, y] :=
  unpack_pack (List.forall_mem_cons.mpr ⟨hx, List.forall_mem_singleton.mpr hy⟩)

theorem SentFor.typable (h : SentFor line pkt) (hline : Plain line) : Typable pkt.request := by
  cases h with
  | @whole type args ht hne htrim hin =>
      have hargs : Plain args ∧ args ≠ [] ∧ trim args = args := ⟨hline.of_subset hin, hne, htrim⟩
      simp only [List.mem_cons, List.not_mem_nil, or_false] at ht
      rcases ht with rfl | rfl | rfl | rfl <;>
        simpa [RawPacket.request, Typable, htrim, hne] using hargs
  | @cut type a text ht hne hspace htrim hin =>
      obtain ⟨ha, hrest⟩ := plain_append.mp (hline.of_subset hin)
      have htext := plain_space.mp hrest
      have hargs : Plain a ∧ Plain text ∧ a ≠ [] ∧ 32 ∉ a ∧
          trim (a ++ 32 :: text) = a ++ 32 :: text := ⟨ha, htext, hne, hspace, htrim⟩
      have hfields := unpack_pack_pair ha.1 htext.1
      simp only [List.mem_cons, List.not_mem_nil, or_false] at ht
      rcases ht with rfl | rfl <;> simpa [RawPacket.request, Typable, hfields] using hargs

theorem RawPacket.Typed.typable (h : pkt.Typed) : Typable pkt.request := by
  obtain ⟨line, hline, ⟨hne, rfl⟩ | ⟨client, hsends⟩⟩ := h
  · have hplain : Plain (trim line) := hline.of_subset (trim_subset line)
    rw [request, trim_trim]
    dsimp only
    split
    · exact trivial
    · next hname =>
        push Not at hname
        exact ⟨hplain, hname.1, hname.2.2, trim_trim line⟩
  · exact (sent_of_sends hsends).typable hline

/-- The client is not one that asks to be a server. -/
theorem RawPacket.Typed.ne_s2sConnect (h : pkt.Typed) : pkt.type ≠ .s2sConnect := by
  obtain ⟨line, -, ⟨-, rfl⟩ | ⟨client, hsends⟩⟩ := h
  · exact fun he => by cases he
  · cases sent_of_sends hsends with
    | whole ht =>
        rintro rfl
        exact absurd ht (by decide)
    | cut ht =>
        rintro rfl
        exact absurd ht (by decide)

/-- Nothing can be cut off a command and its arguments. -/
theorem trim_command {c : UInt8} (hc : isBlank c = false) (htrim : trim args = args)
    (hne : args ≠ []) : trim (c :: cmd ++ 32 :: args) = c :: cmd ++ 32 :: args := by
  refine trim_eq_self_iff.mpr ⟨by simp [hc], ?_⟩
  have hlast := rdropWhile_append_of_trimmed htrim hne (c :: cmd ++ [32])
  rwa [List.append_assoc] at hlast

/-- What a command sends has been typed. -/
theorem typed_of_command (cmd : Bytes) (hcmd : 32 ∉ cmd ∧ Plain cmd) (hargs : Plain args)
    (htrim : trim args = args) (hne : args ≠ [])
    (hrun : (runCommand freshClient (47 :: cmd) args).client.sent = [pkt]) : pkt.Typed := by
  have hslash : (32 : UInt8) ∉ (47 :: cmd : Bytes) := by simpa using hcmd.1
  refine ⟨47 :: cmd ++ 32 :: args, ?_, .inr ⟨freshClient, ?_⟩⟩
  · have hnul : nul ≠ 47 := by decide
    have hnewline : newline ≠ 47 := by decide
    refine plain_append.mpr ⟨?_, plain_space.mpr hargs⟩
    exact ⟨fun h => hcmd.2.1 ((List.mem_cons.mp h).resolve_left hnul),
      fun h => hcmd.2.2 ((List.mem_cons.mp h).resolve_left hnewline)⟩
  · rw [Sends, trim_command rfl htrim hne, handleInput_command _ hslash rfl htrim, hrun]
    rfl

theorem typed_of_wholeArgs (cmd : Bytes) {usage : String} {type : PacketType}
    (hcmd : 32 ∉ cmd ∧ Plain cmd) (hx : Plain x) (htrim : trim x = x) (hne : x ≠ [])
    (hrun : runCommand freshClient (47 :: cmd) x =
      wholeArgs freshClient usage (fun c room => c.send ⟨type, room⟩) x) :
    RawPacket.Typed ⟨type, x⟩ := by
  refine typed_of_command cmd hcmd hx htrim hne ?_
  rw [hrun, wholeArgs, if_neg hne]
  exact ChatClient.sent_send rfl _

theorem typed_of_cutArgs (cmd : Bytes) {usage : String} {type : PacketType}
    (hcmd : 32 ∉ cmd ∧ Plain cmd) (hx : Plain x) (hy : Plain y) (hspace : 32 ∉ x) (hne : x ≠ [])
    (htrim : trim (x ++ 32 :: y) = x ++ 32 :: y)
    (hrun : runCommand freshClient (47 :: cmd) (x ++ 32 :: y) =
      cutArgs freshClient usage (fun c x y => c.send ⟨type, pack [x, y]⟩) (x ++ 32 :: y)) :
    RawPacket.Typed ⟨type, pack [x, y]⟩ := by
  have hargs : Plain (x ++ 32 :: y) := plain_append.mpr ⟨hx, plain_space.mpr hy⟩
  refine typed_of_command cmd hcmd hargs htrim (by simp) ?_
  rw [hrun, cutArgs_append _ _ _ hspace hne]
  exact ChatClient.sent_send rfl _

end

/-- **What can be asked for.**  A request can be made with what a user types, as a name or in a
line, if and only if it is `Typable`.  What is typed on its own is trimmed and not empty, and a
name to log in with has no space.  In front of a text stands a name that is not empty and has no
space, and the two with the space between them are trimmed as a whole. -/
theorem typable_iff (q : Request Bytes Bytes Bytes) :
    Typable q ↔ ∃ pkt : RawPacket, pkt.Typed ∧ pkt.request = q := by
  constructor
  · intro h
    cases q with
    | enter u =>
        obtain ⟨hplain, hne, hspace, htrim⟩ := h
        refine ⟨⟨.login, trim u⟩, ⟨u, hplain, .inl ⟨htrim.symm ▸ hne, rfl⟩⟩, ?_⟩
        have hnul : nul ∉ u := hplain.1
        simp [RawPacket.request, htrim, hne, hspace, hnul]
    | misname =>
        exact ⟨⟨.login, ascii "a b"⟩, ⟨ascii "a b", by decide, .inl (by decide)⟩, rfl⟩
    | whisper a text =>
        obtain ⟨ha, htext, hne, hspace, htrim⟩ := h
        refine ⟨⟨.msgPrivate, pack [a, text]⟩, ?_, ?_⟩
        · exact typed_of_cutArgs (ascii "msg") (by decide) ha htext hspace hne htrim rfl
        · simp [RawPacket.request, unpack_pack_pair ha.1 htext.1]
    | say r text =>
        obtain ⟨hr, htext, hne, hspace, htrim⟩ := h
        refine ⟨⟨.msgRoom, pack [r, text]⟩, ?_, ?_⟩
        · exact typed_of_cutArgs (ascii "roommsg") (by decide) hr htext hspace hne htrim rfl
        · simp [RawPacket.request, unpack_pack_pair hr.1 htext.1]
    | shout x =>
        obtain ⟨hx, hne, htrim⟩ := h
        exact ⟨⟨.msgBroadcast, x⟩,
          typed_of_wholeArgs (ascii "broadcast") (by decide) hx htrim hne rfl, rfl⟩
    | join x =>
        obtain ⟨hx, hne, htrim⟩ := h
        exact ⟨⟨.roomJoin, x⟩, typed_of_wholeArgs (ascii "join") (by decide) hx htrim hne rfl,
          by simp [RawPacket.request, htrim, hne]⟩
    | leave x =>
        obtain ⟨hx, hne, htrim⟩ := h
        exact ⟨⟨.roomLeave, x⟩, typed_of_wholeArgs (ascii "leave") (by decide) hx htrim hne rfl,
          by simp [RawPacket.request, htrim, hne]⟩
    | create x =>
        obtain ⟨hx, hne, htrim⟩ := h
        exact ⟨⟨.roomCreate, x⟩, typed_of_wholeArgs (ascii "create") (by decide) hx htrim hne rfl,
          by simp [RawPacket.request, htrim, hne]⟩
    | nothing => exact h.elim
  · rintro ⟨pkt, hpkt, rfl⟩
    exact hpkt.typable

/-! ## What is seen -/

namespace ChatClient

/-- What is printed when somebody is told the line.  The order of the names is left open, and
behind them there is a line without a name. -/
def Seen (pieces : List Bytes) : Line Bytes Bytes Bytes → Prop
  | .welcome => pieces = [message "92"
      (ascii "[LOGIN SUCCESS] " ++ ascii "Welcome to Distributed Chat!")]
  | .badName => pieces = [message "91" (ascii "[LOGIN FAILED] " ++ ascii "Invalid username")]
  | .nameTaken => pieces = [message "91"
      (ascii "[LOGIN FAILED] " ++ ascii "Username already online")]
  | .nameFirst => pieces = [message "91"
      (ascii "[LOGIN FAILED] " ++ ascii "Authentication required")]
  | .users names => ∃ us : List Bytes, us.Nodup ∧ (∀ u, u ∈ us ↔ u ∈ names) ∧
      pieces = usersAbove :: us.map userLine ++ [userLine [], usersBelow]
  | .whispered u text => pieces = [message "96"
      (ascii "[Private Message] " ++ u ++ ascii " -> " ++ text)]
  | .delivered u => pieces = [message "92"
      (ascii "[SUCCESS] " ++ (ascii "Message delivered to " ++ u))]
  | .offline => pieces = [message "91" (ascii "[ERROR] " ++ ascii "User offline")]
  | .said u r text => pieces = [message "94"
      (ascii "[" ++ r ++ ascii "] " ++ u ++ ascii ": " ++ text)]
  | .joinFirst => pieces = [message "91" (ascii "[ERROR] " ++ ascii "Join room first")]
  | .shouted u text => pieces = [message "95"
      (ascii "[Global Broadcast] " ++ u ++ ascii ": " ++ text)]
  | .joined r => pieces = [message "92" (ascii "[SUCCESS] " ++ (ascii "Joined room " ++ r))]
  | .entered u r => pieces = [message "93"
      (ascii "[INFO] " ++ (ascii "User " ++ u ++ ascii " entered " ++ r))]
  | .left r => pieces = [message "92" (ascii "[SUCCESS] " ++ (ascii "Left room " ++ r))]
  | .departed u r => pieces = [message "93"
      (ascii "[INFO] " ++ (ascii "User " ++ u ++ ascii " left " ++ r))]
  | .created r => pieces = [message "92" (ascii "[SUCCESS] " ++
      (ascii "Room " ++ r ++ ascii " created. Type /join " ++ r ++ ascii " to enter."))]

section

variable {x y z : Bytes} {pkt : RawPacket} {line : Line Bytes Bytes Bytes}

theorem handlePacket_loginFailed (hx : NulFree x) :
    handlePacket ⟨.loginResp, pack [ascii "0", x]⟩ =
      some [message "91" (ascii "[LOGIN FAILED] " ++ x)] := by
  have hfields : unpack (pack [ascii "0", x]) = [ascii "0", x] := unpack_pack_pair (by decide) hx
  have hno : ascii "0" ≠ ascii "1" := by decide
  simp [handlePacket, hfields, hno]

theorem handlePacket_success (hx : NulFree x) :
    handlePacket ⟨.statusUpdate, pack [ascii "SUCCESS", x]⟩ =
      some [message "92" (ascii "[SUCCESS] " ++ x)] := by
  rw [handlePacket, unpack_pack_pair (by decide) hx]
  rfl

theorem handlePacket_info (hx : NulFree x) :
    handlePacket ⟨.statusUpdate, pack [ascii "INFO", x]⟩ =
      some [message "93" (ascii "[INFO] " ++ x)] := by
  rw [handlePacket, unpack_pack_pair (by decide) hx]
  rfl

theorem handlePacket_error (hx : NulFree x) :
    handlePacket ⟨.statusUpdate, pack [ascii "ERROR", x]⟩ =
      some [message "91" (ascii "[ERROR] " ++ x)] := by
  rw [handlePacket, unpack_pack_pair (by decide) hx]
  rfl

theorem nulFree_append : NulFree (x ++ y) ↔ NulFree x ∧ NulFree y := by
  simp [NulFree]

/-- A packet that tells the line makes the client print it. -/
theorem seen_of_tells (h : pkt.Tells line) (hline : line.Of Plain Plain Plain) :
    ∃ pieces, handlePacket pkt = some pieces ∧ Seen pieces line := by
  cases line with
  | welcome =>
      subst h
      exact ⟨_, rfl, rfl⟩
  | badName | nameTaken | nameFirst =>
      subst h
      exact ⟨_, handlePacket_loginFailed (by decide), rfl⟩
  | offline | joinFirst =>
      subst h
      exact ⟨_, handlePacket_error (by decide), rfl⟩
  | users names =>
      obtain ⟨us, hnodup, hmem, rfl⟩ := h
      have hfree : ∀ u ∈ us, NulFree u := fun u hu => (hline u ((hmem u).mp hu)).1
      refine ⟨_, ?_, us, hnodup, hmem, rfl⟩
      rw [handlePacket, unpack_pack_nested (by decide) hfree]
      simp [printStatus]
  | whispered u text =>
      subst h
      refine ⟨_, ?_, rfl⟩
      rw [handlePacket, unpack_pack_pair hline.1.1 hline.2.1]
      rfl
  | shouted u text =>
      subst h
      refine ⟨_, ?_, rfl⟩
      rw [handlePacket, unpack_pack_pair hline.1.1 hline.2.1]
      rfl
  | said u r text =>
      subst h
      refine ⟨_, ?_, rfl⟩
      rw [handlePacket, unpack_three hline.1.1 hline.2.1.1 hline.2.2.1]
      rfl
  | delivered u | joined r | left r =>
      subst h
      exact ⟨_, handlePacket_success (nulFree_append.mpr ⟨by decide, hline.1⟩), rfl⟩
  | entered u r | departed u r =>
      subst h
      refine ⟨_, handlePacket_info ?_, rfl⟩
      simp only [nulFree_append]
      exact ⟨⟨⟨by decide, hline.1.1⟩, by decide⟩, hline.2.1⟩
  | created r =>
      subst h
      refine ⟨_, handlePacket_success ?_, rfl⟩
      simp only [nulFree_append]
      exact ⟨⟨⟨⟨by decide, hline.1⟩, by decide⟩, hline.1⟩, by decide⟩

theorem Seen.ne_nil {pieces : List Bytes} (h : Seen pieces line) : pieces ≠ [] := by
  cases line with
  | users names =>
      obtain ⟨us, -, -, rfl⟩ := h
      exact List.cons_ne_nil _ _
  | _ => exact h ▸ List.cons_ne_nil _ _

theorem seen_of_told {pkts : List RawPacket} {lines : List (Line Bytes Bytes Bytes)}
    (h : List.Forall₂ RawPacket.Tells pkts lines)
    (hlines : ∀ line ∈ lines, line.Of Plain Plain Plain) :
    List.Forall₂ Seen (pkts.map shown) lines ∧ ∀ pkt ∈ pkts, Shows pkt := by
  induction h with
  | nil => exact ⟨.nil, fun pkt hpkt => absurd hpkt List.not_mem_nil⟩
  | cons htells _ ih =>
      obtain ⟨hline, hlines⟩ := List.forall_mem_cons.mp hlines
      obtain ⟨pieces, hpieces, hseen⟩ := seen_of_tells htells hline
      obtain ⟨hmore, hshows⟩ := ih hlines
      refine ⟨.cons ?_ hmore, List.forall_mem_cons.mpr ⟨⟨pieces, hpieces, hseen.ne_nil⟩, hshows⟩⟩
      rw [shown, hpieces]
      exact hseen

end

end ChatClient

/-! ## What is typed is what is seen -/

namespace ChatServer

open ChatClient (Seen handlePacket lostMessage receiveLoop receiveLoop_stream seen_of_told shown)
open Threads (packetsTo)

/-- The connection that logs in. -/
def loginOf : ClientAction → Option ConnRef
  | .packet k pkt => if pkt.type = .login then some k else none
  | _ => none

/-- The connections that log in, each as often as it does. -/
def logins (as : List ClientAction) : List ConnRef := as.filterMap loginOf

section

variable {s t : ChatServer} {v : ChatService ConnRef Bytes Bytes} {as : List ClientAction}

/-- Whoever gets a name has logged in. -/
theorem loginOf_of_enter {n k : ConnRef} {u : Bytes} {a : ClientAction}
    (h : act n a = .asks k (.enter u)) : loginOf a = some k := by
  cases a with
  | connect | disconnect => cases h
  | packet k' pkt =>
      injection h with hk hq
      have ht : pkt.type = .login := by
        by_contra hne
        exact not_forName_request hne (hq ▸ trivial)
      rw [loginOf, if_pos ht, hk]

/-- Clients that log in once have no name when they do. -/
theorem along_firstLogin (hs : s.Serving) (h : s.Provides v)
    (hrun : exec clientNext s as = some t) (hno : ∀ a ∈ as, NoConnect a)
    (hend : Along clientNext EndsOutside s as) (hguest : ∀ k ∈ logins as, ¬ v.Known k)
    (honce : (logins as).Nodup) : Along clientNext FirstLogin s as := by
  induction as generalizing s v with
  | nil => exact trivial
  | cons a as ih =>
      obtain ⟨s', hnext, hrun⟩ := exec_cons_eq_some.mp hrun
      obtain ⟨he, hend⟩ := (along_cons hnext).mp hend
      have hn := hno a (List.mem_cons_self ..)
      have hhead {k : ConnRef} (hk : loginOf a = some k) : logins (a :: as) = k :: logins as :=
        List.filterMap_cons_some hk
      have hsub : logins as <:+ logins (a :: as) := (List.suffix_cons a as).filterMap loginOf
      have hf : s.FirstLogin a := by
        cases a with
        | connect | disconnect => exact trivial
        | packet k pkt =>
            intro ht u _
            obtain ⟨⟨hk, -⟩, -⟩ := Option.ite_none_right_eq_some.mp hnext
            have hlogin : k ∈ logins (.packet k pkt :: as) := by
              rw [hhead (if_pos ht)]
              exact List.mem_cons_self ..
            by_contra hauth
            refine hguest k hlogin (h.known.mpr ⟨hk, ?_⟩)
            exact (Bool.not_eq_false _).mp hauth
      obtain ⟨hp, -⟩ := provides_clientNext hs h hf hn hnext
      have hs' := hs.move hf hn he (clientNext_move hs.inStep.ok hnext)
      refine (along_cons hnext).mpr ⟨hf, ih hs' hp hrun
        (fun b hb => hno b (List.mem_cons_of_mem _ hb)) hend (fun k hk hknown => ?_)
        (hsub.sublist.nodup honce)⟩
      rcases ChatService.known_next hknown with hold | ⟨u, hu⟩
      · exact hguest k (hsub.subset hk) hold
      · rw [hhead (loginOf_of_enter hu)] at honce
        exact (List.nodup_cons.mp honce).1 hk

theorem of_typable {q : Request Bytes Bytes Bytes} (h : Typable q) : q.Of Plain Plain Plain := by
  cases q with
  | enter | shout | join | leave | create => exact h.1
  | whisper | say => exact ⟨h.1, h.2.1⟩
  | misname | nothing => exact trivial

theorem acts_of_typed (htyped : ∀ k pkt, .packet k pkt ∈ as → pkt.Typed) (n : ConnRef) :
    ∀ x ∈ acts n as, x.Of Plain Plain Plain := by
  induction as generalizing n with
  | nil => exact fun x hx => absurd hx List.not_mem_nil
  | cons a as ih =>
      refine List.forall_mem_cons.mpr ⟨?_, ih (fun k pkt h => htyped k pkt (.tail _ h)) _⟩
      cases a with
      | connect | disconnect => exact trivial
      | packet k pkt => exact of_typable (htyped k pkt (List.mem_cons_self ..)).typable

end

/-- **What is typed is what is seen.**  Take any run of a server without peers and with an id other
than -1 in which all packets come from names and lines that users type, every client logs in once at
most and none goes while in a room.  Let every packet that the server sends on a connection have a
size that `ReadPacket` accepts, and let the first part of the bytes reach its client, in any
segments.  The client prints, line by line, the first of what the chat service tells it, and then
that the connection is lost.  If all bytes arrive, it prints all that it is told. -/
theorem typed_is_seen (id : Int) (hid : id ≠ -1) {as : List ClientAction} {t : ChatServer}
    (hrun : exec clientNext (fresh id) as = some t)
    (htyped : ∀ k pkt, .packet k pkt ∈ as → pkt.Typed) (honce : (logins as).Nodup)
    (hend : Along clientNext EndsOutside (fresh id) as) (j : ConnRef)
    (hsize : ∀ pkt ∈ packetsTo j ((fresh id).transcript as),
      pkt.payload.length ≤ maxPayloadSize - 1)
    {bytes : List Arrival} {turns : Nat}
    (hbytes : Arrival.content bytes <+:
      (packetsTo j ((fresh id).transcript as)).flatMap RawPacket.frame)
    (hturns : (packetsTo j ((fresh id).transcript as)).length < turns) :
    ∃ screens n,
      List.Forall₂ Seen screens (ChatService.conversation j ChatService.nobody (acts 0 as)) ∧
      receiveLoop turns bytes = some ((screens.take n).flatten ++ [lostMessage]) ∧
      (.failure ∉ bytes → Arrival.content bytes =
        (packetsTo j ((fresh id).transcript as)).flatMap RawPacket.frame → n = screens.length) := by
  have hno : ∀ a ∈ as, NoConnect a := fun a ha => by
    cases a with
    | connect | disconnect => exact trivial
    | packet k pkt => exact (htyped k pkt ha).ne_s2sConnect
  have hlog := along_firstLogin (serving_fresh hid) (provides_fresh id) hrun hno hend
    (fun k _ hk => hk rfl) honce
  obtain ⟨-, htold⟩ := serves_clients id hid hrun hno hlog hend
  have hplain := ChatService.of_conversation (j := j) (s := ChatService.nobody)
    (fun a h => absurd h ChatService.not_mem_online_nobody) (acts_of_typed htyped 0)
  obtain ⟨hseen, hshows⟩ := seen_of_told (htold j) hplain
  generalize packetsTo j ((fresh id).transcript as) = pkts at *
  have hpkts : ∀ pkt ∈ pkts, pkt.Readable ∧ (handlePacket pkt).isSome := fun pkt hpkt => by
    refine ⟨⟨(hshows pkt hpkt).type, hsize pkt hpkt⟩, ?_⟩
    obtain ⟨pieces, hpieces, -⟩ := hshows pkt hpkt
    rw [hpieces]
    rfl
  obtain ⟨read, hread, hloop, hall⟩ := receiveLoop_stream hpkts (.inl rfl) hturns
    (by rwa [List.append_nil])
  refine ⟨pkts.map shown, read.length, hseen, ?_, fun hfluent hwhole => ?_⟩
  · rw [hloop, ← List.map_take, ← List.prefix_iff_eq_take.mp hread, List.flatMap_def]
  · rw [hall hfluent (by rwa [List.append_nil]), List.length_map]

/-- Every packet of the meeting has been typed. -/
theorem typed_of_meeting (k : ConnRef) (pkt : RawPacket) (h : .packet k pkt ∈ meeting) :
    pkt.Typed := by
  simp only [meeting, List.mem_cons, List.not_mem_nil, reduceCtorEq, ClientAction.packet.injEq,
    false_or, or_false] at h
  rcases h with ⟨-, rfl⟩ | ⟨-, rfl⟩ | ⟨-, rfl⟩ | ⟨-, rfl⟩ | ⟨-, rfl⟩ | ⟨-, rfl⟩ | ⟨-, rfl⟩
  · exact ⟨ascii "ann", by decide, .inl (by decide)⟩
  · exact ⟨ascii "bob", by decide, .inl (by decide)⟩
  · exact ⟨ascii "/join den", by decide, .inr ⟨freshClient, by decide⟩⟩
  · exact ⟨ascii "/join den", by decide, .inr ⟨freshClient, by decide⟩⟩
  · exact ⟨ascii "/roommsg den hi", by decide, .inr ⟨freshClient, by decide⟩⟩
  · exact ⟨ascii "/msg ann hello", by decide, .inr ⟨freshClient, by decide⟩⟩
  · exact ⟨ascii "/leave den", by decide, .inr ⟨freshClient, by decide⟩⟩

theorem typed_is_seen_meeting : ∃ bytes screens n,
    Arrival.content bytes = (packetsTo 1 ((fresh 1).transcript meeting)).flatMap RawPacket.frame ∧
      List.Forall₂ Seen screens (ChatService.conversation 1 ChatService.nobody (acts 0 meeting)) ∧
      receiveLoop 20 bytes = some ((screens.take n).flatten ++ [lostMessage]) ∧
      n = screens.length := by
  have hrun : (exec clientNext (fresh 1) meeting).isSome = true := by decide
  obtain ⟨t, ht⟩ := Option.isSome_iff_exists.mp hrun
  have hne : (packetsTo 1 ((fresh 1).transcript meeting)).flatMap RawPacket.frame ≠ [] := by
    decide +kernel
  have hcontent : Arrival.content [.segment _ hne] =
      (packetsTo 1 ((fresh 1).transcript meeting)).flatMap RawPacket.frame := List.append_nil _
  have hpre : Arrival.content [.segment _ hne] <+:
      (packetsTo 1 ((fresh 1).transcript meeting)).flatMap RawPacket.frame :=
    hcontent.symm ▸ List.prefix_rfl
  have hturns : (packetsTo 1 ((fresh 1).transcript meeting)).length < 20 := by decide +kernel
  obtain ⟨screens, n, hscreens, hloop, hall⟩ := typed_is_seen 1 (by decide) ht typed_of_meeting
    (by decide) (by decide) 1 (by decide +kernel) hpre hturns
  exact ⟨_, screens, n, hcontent, hscreens, hloop, hall (by simp) hcontent⟩

end ChatServer

end DistributedChat
