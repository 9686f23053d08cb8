import DistributedChat.Protocol.Framing
import DistributedChat.Server.Sending

/-!
# What the client prints

`ChatClient::HandlePacket` unpacks a packet and prints some of its fields.  A
field is taken by its position, and a position the packet does not have is no
output (`none`): the source indexes the vector without a check.  The other cases
ask for the number of fields they read.  A status update with a category that is
printed with a text is only asked not to be empty, so the category alone is enough
to read past the fields (`handlePacket_isSome_iff`).

The server packs the list of online users and packs it once more behind the
word `STATUS`.  The inner list ends in a delimiter of its own, so the client
finds one empty field more than there are users (`unpack_onlinePacket`) and
prints a line for it (`online_list_has_extra_line`).
-/

namespace DistributedChat

namespace ChatClient

/-- The escape sequence that selects a colour. -/
def colour (code : String) : Bytes := 27 :: ascii "[" ++ ascii code ++ ascii "m"

/-- The end of every message: the colour is reset and the prompt shown. -/
def prompt : Bytes := colour "0" ++ ascii "\n>>> "

/-- A coloured message on a line of its own. -/
def message (code : String) (text : Bytes) : Bytes :=
  ascii "\n" ++ colour code ++ text ++ prompt

/-- The line above the online users. -/
def usersAbove : Bytes :=
  ascii "\n" ++ colour "90" ++ ascii "================ ONLINE USERS =================" ++
    colour "0" ++ ascii "\n"

/-- The line of an online user; the bullet is the UTF-8 sequence of the source. -/
def userLine (name : Bytes) : Bytes :=
  ascii " " ++ colour "92" ++ [226, 151, 143] ++ colour "0" ++ ascii " " ++ name ++ ascii "\n"

/-- The line below the online users. -/
def usersBelow : Bytes :=
  colour "90" ++ ascii "===============================================" ++ prompt

/-- The `STATUS_UPDATE` case of `HandlePacket`. -/
def printStatus (fields : List Bytes) : Option (List Bytes) :=
  if fields = [] then some []
  else do
    let cat ← fields[0]?
    if cat = ascii "STATUS" then
      return usersAbove :: (fields.drop 1).map userLine ++ [usersBelow]
    else if cat = ascii "SUCCESS" then
      let text ← fields[1]?
      return [message "92" (ascii "[SUCCESS] " ++ text)]
    else if cat = ascii "INFO" then
      let text ← fields[1]?
      return [message "93" (ascii "[INFO] " ++ text)]
    else if cat = ascii "ERROR" then
      let text ← fields[1]?
      return [message "91" (ascii "[ERROR] " ++ text)]
    else return []

/-- `ChatClient::HandlePacket`: what is printed, piece by piece. -/
def handlePacket (packet : RawPacket) : Option (List Bytes) :=
  let fields := unpack packet.payload
  match packet.type with
  | .loginResp =>
      if fields.length ≥ 2 then do
        let success ← fields[0]?
        let msg ← fields[1]?
        if success = ascii "1" then return [message "92" (ascii "[LOGIN SUCCESS] " ++ msg)]
        else return [message "91" (ascii "[LOGIN FAILED] " ++ msg)]
      else some []
  | .msgPrivate =>
      if fields.length ≥ 2 then do
        let sender ← fields[0]?
        let text ← fields[1]?
        return [message "96" (ascii "[Private Message] " ++ sender ++ ascii " -> " ++ text)]
      else some []
  | .msgRoom =>
      if fields.length ≥ 3 then do
        let sender ← fields[0]?
        let room ← fields[1]?
        let text ← fields[2]?
        return [message "94" (ascii "[" ++ room ++ ascii "] " ++ sender ++ ascii ": " ++ text)]
      else some []
  | .msgBroadcast =>
      if fields.length ≥ 2 then do
        let sender ← fields[0]?
        let text ← fields[1]?
        return [message "95" (ascii "[Global Broadcast] " ++ sender ++ ascii ": " ++ text)]
      else some [message "95" (ascii "[Global Broadcast]: " ++ packet.payload)]
  | .statusUpdate => printStatus fields
  | _ => some []

/-! ## Positions that exist -/

/-- The categories of a status update that are printed with a text. -/
def textCategories : List Bytes := [ascii "SUCCESS", ascii "INFO", ascii "ERROR"]

/-- The packet is a status update that consists of such a category alone, with the
delimiter behind it or without. -/
def LacksText (pkt : RawPacket) : Prop :=
  pkt.type = .statusUpdate ∧ ∃ cat ∈ textCategories, pkt.payload = cat ∨ pkt.payload = cat ++ [nul]

/-- The status case reads past the fields when they are such a category alone. -/
theorem printStatus_isSome_iff (fields : List Bytes) :
    (printStatus fields).isSome ↔ ∀ cat ∈ textCategories, fields ≠ [cat] := by
  cases fields with
  | nil => simp [printStatus]
  | cons cat rest =>
      cases rest with
      | nil =>
          have hstatus : ∀ cat ∈ textCategories, ascii "STATUS" ≠ cat := by decide
          by_cases h : cat = ascii "STATUS"
          · subst h
            simpa [printStatus] using hstatus
          · simp only [printStatus, textCategories]
            grind
      | cons text more =>
          simp only [printStatus]
          grind

/-- **Field positions.**  Handling a packet only reads fields that exist if and only if
the packet is not a status update with a category alone. -/
theorem handlePacket_isSome_iff (pkt : RawPacket) :
    (handlePacket pkt).isSome ↔ ¬ LacksText pkt := by
  by_cases hstatus : pkt.type = .statusUpdate
  · have hfields : LacksText pkt ↔ ∃ cat ∈ textCategories, unpack pkt.payload = [cat] := by
      refine (and_iff_right hstatus).trans (exists_congr fun cat => and_congr_right fun hcat => ?_)
      have hcat : NulFree cat ∧ cat ≠ [] := by
        revert cat
        decide
      exact (unpack_eq_singleton_iff hcat.1 hcat.2).symm
    rw [hfields, handlePacket, hstatus]
    simpa using printStatus_isSome_iff (unpack pkt.payload)
  · have hfree : ¬ LacksText pkt := fun h => hstatus h.1
    refine iff_of_true ?_ hfree
    rw [handlePacket]
    generalize unpack pkt.payload = fields
    -- the other cases count the fields before they read them
    split
    next =>
      rcases fields with _ | ⟨success, _ | ⟨msg, rest⟩⟩
      · rfl
      · rfl
      · by_cases h : success = ascii "1" <;> simp [h]
    next => rcases fields with _ | ⟨sender, _ | ⟨text, rest⟩⟩ <;> simp
    next => rcases fields with _ | ⟨sender, _ | ⟨room, _ | ⟨text, rest⟩⟩⟩ <;> simp
    next => rcases fields with _ | ⟨sender, _ | ⟨text, rest⟩⟩ <;> simp
    next heq => exact absurd heq hstatus
    next => rfl

/-- The frame of a status update that is the word `SUCCESS` is read and handled past the
end of its fields. -/
theorem handlePacket_past_end : ¬ ∀ (s s' : List Arrival) (pkt : RawPacket),
    MessageSerializer.readPacket.run s = some (pkt, s') → (handlePacket pkt).isSome := by
  intro h
  have hreads : received.Reads MessageSerializer.readPacket
      (serialize .statusUpdate (ascii "SUCCESS")) ⟨.statusUpdate, ascii "SUCCESS"⟩ :=
    MessageSerializer.readPacket_reads 9 (by decide)
  have hne : serialize .statusUpdate (ascii "SUCCESS") ≠ [] := by decide
  have hwhole : Arrival.failure ∉ [Arrival.segment _ hne] := fun hmem =>
    nomatch List.mem_singleton.mp hmem
  obtain ⟨s', hrun, -⟩ := hreads [.segment _ hne] [] hwhole rfl
  exact absurd (h _ _ _ hrun) (by decide)

end ChatClient

/-! ## The list of online users -/

/-- A list of fields without NUL that is packed twice ends in an empty field. -/
theorem unpack_pack_nested {tag : Bytes} {fields : List Bytes} (ht : NulFree tag)
    (h : ∀ f ∈ fields, NulFree f) : unpack (pack [tag, pack fields]) = tag :: (fields ++ [[]]) := by
  rw [unpack_pack_cons ht]
  refine congrArg (tag :: ·) ?_
  induction fields with
  | nil => rfl
  | cons f fs ih =>
      show unpack ((f ++ nul :: pack fs) ++ [nul]) = f :: (fs ++ [[]])
      rw [List.append_assoc, List.cons_append, unpack_append_nul (h f (List.mem_cons_self ..))]
      exact congrArg (f :: ·) (ih fun g hg => h g (List.mem_cons_of_mem _ hg))

namespace ChatServer

/-- The fields after the first are the online users, each once. -/
def ListsOnline (s : ChatServer) (pkt : RawPacket) : Prop :=
  ((unpack pkt.payload).drop 1).Perm s.userManager.getOnlineUsers

/-- What a client makes of the list of online users. -/
theorem unpack_onlinePacket (s : ChatServer) (h : ∀ u ∈ s.userManager.getOnlineUsers, NulFree u) :
    unpack s.onlinePacket.payload = ascii "STATUS" :: (s.userManager.getOnlineUsers ++ [[]]) :=
  unpack_pack_nested (by decide) h

/-- Whoever is online: the client finds an empty field behind the names, and so it
prints one line more than there are users. -/
theorem online_list_has_extra_line (s : ChatServer)
    (h : ∀ u ∈ s.userManager.getOnlineUsers, u ≠ [] ∧ NulFree u) :
    ¬ s.ListsOnline s.onlinePacket ∧
      ChatClient.handlePacket s.onlinePacket = some (ChatClient.usersAbove ::
        s.userManager.getOnlineUsers.map ChatClient.userLine ++
          [ChatClient.userLine [], ChatClient.usersBelow]) := by
  have hfields := unpack_onlinePacket s fun u hu => (h u hu).2
  constructor
  · intro hlists
    rw [ListsOnline, hfields] at hlists
    have hlen := hlists.length_eq
    rw [List.drop_one, List.tail_cons, List.length_append, List.length_singleton] at hlen
    omega
  · have hstatus : s.onlinePacket.type = .statusUpdate := rfl
    simp [ChatClient.handlePacket, hstatus, ChatClient.printStatus, hfields]

/-- Only Ann is online. -/
def annOnline : ChatServer :=
  { serverId := 1, userManager := ({} : UserManager).registerUser (ascii "ann") 1 }

theorem online_list_has_extra_line_ann : ¬ annOnline.ListsOnline annOnline.onlinePacket ∧
    ChatClient.handlePacket annOnline.onlinePacket = some (ChatClient.usersAbove ::
      annOnline.userManager.getOnlineUsers.map ChatClient.userLine ++
        [ChatClient.userLine [], ChatClient.usersBelow]) :=
  online_list_has_extra_line annOnline (by decide)

/-- Her name is followed by an empty one. -/
theorem online_list_of_ann : unpack annOnline.onlinePacket.payload =
    [ascii "STATUS", ascii "ann", []] ∧ ¬ annOnline.ListsOnline annOnline.onlinePacket := by
  have hfields : unpack annOnline.onlinePacket.payload = [ascii "STATUS", ascii "ann", []] := by
    decide +kernel
  refine ⟨hfields, fun h => ?_⟩
  rw [ListsOnline, hfields] at h
  exact absurd h.length_eq (by decide)

end ChatServer

end DistributedChat
