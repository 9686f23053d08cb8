import DistributedChat.Cluster.Start
import DistributedChat.Core.ConfigFile

/-!
# How a server is configured

`main` of the server reads its configuration into the id, the port and the peers of the
server it starts.  The peers are numbered, and every field of a peer is a key of its own,
so the keys of different peers must not be confused: `peerKey_inj` says that they are not,
whatever the numbers.  A peer without a positive id or port is left out, and the others
come as they are in the file (`launch_render`).
-/

namespace DistributedChat

open ConfigManager

/-- A peer in a configuration. -/
structure PeerConfig where
  id : Int
  host : Bytes
  port : Int
deriving DecidableEq, Repr

/-- What a server is started with. -/
structure Launch where
  serverId : Int
  port : Int
  peers : List PeerConfig
deriving DecidableEq, Repr

/-- The key of a field of the peer with the number. -/
def peerKey (i : Nat) (field : Bytes) : Bytes :=
  ascii "peer_" ++ toString i ++ ascii "_" ++ field

/-- The peer with the number. -/
def readPeer (config : ConfigManager) (i : Nat) : PeerConfig :=
  { id := config.getInt (peerKey i (ascii "id")) 0
    host := config.getString (peerKey i (ascii "host")) (ascii "127.0.0.1")
    port := config.getInt (peerKey i (ascii "port")) 0 }

/-- `main`, up to the start of the server. -/
def launch (config : ConfigManager) : Launch :=
  let serverId := config.getInt (ascii "server_id") 1
  let port := config.getInt (ascii "port") (9000 + serverId)
  let peerCount := config.getInt (ascii "peer_count") 0
  { serverId := serverId
    port := port
    peers := ((List.range peerCount.toNat).map fun i => readPeer config (i + 1)).filter fun peer =>
      peer.id > 0 ∧ peer.port > 0 }

namespace Launch

/-- The server as it is before it runs. -/
def server (l : Launch) : ChatServer :=
  ChatServer.configured l.serverId (l.peers.map PeerConfig.id)

/-- The entries of a peer. -/
def peerEntries (i : Nat) (peer : PeerConfig) : List (Bytes × Bytes) :=
  [(peerKey i (ascii "id"), toString peer.id), (peerKey i (ascii "host"), peer.host),
    (peerKey i (ascii "port"), toString peer.port)]

/-- The entries for the server itself. -/
def ownEntries (l : Launch) : List (Bytes × Bytes) :=
  [(ascii "server_id", toString l.serverId), (ascii "port", toString l.port),
    (ascii "peer_count", toString l.peers.length)]

/-- The entries of a configuration. -/
def entries (l : Launch) : List (Bytes × Bytes) :=
  l.ownEntries ++ l.peers.zipIdx.flatMap fun peer => peerEntries (peer.2 + 1) peer.1

/-- The peer can be configured. -/
structure ValidPeer (peer : PeerConfig) : Prop where
  id : 0 < peer.id ∧ IsInt peer.id
  port : 0 < peer.port ∧ IsInt peer.port
  host : trim peer.host = peer.host ∧ newline ∉ peer.host

/-- The numbers are of type `int`, also the default of the port and the counter of the peers, and
the peers are valid. -/
structure Valid (l : Launch) : Prop where
  serverId : IsInt l.serverId ∧ IsInt (9000 + l.serverId)
  port : IsInt l.port
  count : IsInt (l.peers.length + 1)
  peers : ∀ peer ∈ l.peers, ValidPeer peer

section

variable {l : Launch} {i j : Nat} {f g k v : Bytes} {peer : PeerConfig}

/-! ## Keys -/

theorem toString_natCast (i : Nat) : toString (i : Int) = decimal i := by
  rw [toString, if_neg (by omega)]
  rfl

theorem digits_decimal (i : Nat) : Digits (decimal i) :=
  ⟨decimal_ne_nil i, fun _ hc => isDigit_of_mem_decimal hc⟩

/-- A key tells the number of the peer and the field. -/
theorem peerKey_inj (h : peerKey i f = peerKey j g) : i = j ∧ f = g := by
  simp only [peerKey, toString_natCast, List.append_assoc, List.append_cancel_left_eq] at h
  have htail (f : Bytes) : NoDigitHead (ascii "_" ++ f) := by
    rintro c hc
    cases hc
    decide
  have hdigits : decimal i = decimal j := by
    rw [← takeWhile_isDigit_append (digits_decimal i) (htail f), h,
      takeWhile_isDigit_append (digits_decimal j) (htail g)]
  have hi : i = j := by rw [← readDigits_decimal i, hdigits, readDigits_decimal]
  rw [hdigits, List.append_cancel_left_eq, List.append_cancel_left_eq] at h
  exact ⟨hi, h⟩

/-- No key of a peer is one of the other keys. -/
theorem peerKey_ne (i : Nat) (f : Bytes) :
    peerKey i f ≠ ascii "server_id" ∧ peerKey i f ≠ ascii "port" ∧
      peerKey i f ≠ ascii "peer_count" := by
  obtain ⟨c, cs, hcs, hc⟩ := (digits_decimal i).head
  have hpeer : ascii "peer_" = [112, 101, 101, 114, 95] := by decide
  have hserver : ascii "server_id" = [115, 101, 114, 118, 101, 114, 95, 105, 100] := by decide
  have hport : ascii "port" = [112, 111, 114, 116] := by decide
  have hcount : ascii "peer_count" = [112, 101, 101, 114, 95, 99, 111, 117, 110, 116] := by decide
  rw [peerKey, toString_natCast, hcs, hpeer, hserver, hport, hcount]
  refine ⟨by simp, by simp, fun h => ?_⟩
  -- behind `peer_` there is a digit
  simp only [List.cons_append, List.cons.injEq, List.nil_append] at h
  rw [h.2.2.2.2.2.1] at hc
  exact absurd hc (by decide)

/-! ## What is written -/

/-- The character is neither a blank nor the sign between key and value. -/
def PlainChar (c : UInt8) : Prop := isBlank c = false ∧ c ≠ 61

instance : DecidablePred PlainChar := fun c =>
  inferInstanceAs (Decidable (isBlank c = false ∧ c ≠ 61))

/-- The check of a literal. -/
theorem plain_of_all {str : Bytes} (h : str.all (fun c => !isBlank c && c != 61) = true) :
    ∀ c ∈ str, PlainChar c := by
  simpa [List.all_eq_true, PlainChar] using h

theorem trim_of_plain {str : Bytes} (h : ∀ c ∈ str, PlainChar c) :
    trim str = str ∧ newline ∉ str := by
  refine ⟨trim_eq_self_iff.mpr ⟨List.dropWhile_eq_self_iff.mpr fun hl => ?_,
    List.rdropWhile_eq_self_iff.mpr fun hne => ?_⟩, fun hn => absurd (h _ hn) (by decide)⟩
  · rw [(h _ (List.getElem_mem hl)).1]
    exact Bool.false_ne_true
  · rw [(h _ (List.getLast_mem hne)).1]
    exact Bool.false_ne_true

theorem plain_of_mem_decimal {c : UInt8} (h : c ∈ decimal i) : PlainChar c := by
  have hd := isDigit_of_mem_decimal h
  refine ⟨Bool.eq_false_iff.mpr fun hb => ?_, ?_⟩
  · simp only [isBlank, Bool.or_eq_true, beq_iff_eq] at hb
    rcases hb with ((rfl | rfl) | rfl) | rfl <;> exact absurd hd (by decide)
  · rintro rfl
    exact absurd hd (by decide)

theorem plain_of_mem_toString {n : Int} {c : UInt8} (h : c ∈ toString n) : PlainChar c := by
  rw [toString] at h
  split at h
  · rcases List.mem_cons.mp h with rfl | h
    · decide
    · exact plain_of_mem_decimal h
  · exact plain_of_mem_decimal h

theorem plain_of_mem_peerKey (hf : ∀ c ∈ f, PlainChar c) : ∀ c ∈ peerKey i f, PlainChar c := by
  have hpeer : ∀ c ∈ ascii "peer_", PlainChar c := plain_of_all rfl
  have hbar : ∀ c ∈ ascii "_", PlainChar c := plain_of_all rfl
  intro c hc
  simp only [peerKey, List.mem_append] at hc
  rcases hc with ((hc | hc) | hc) | hc
  · exact hpeer c hc
  · exact plain_of_mem_toString hc
  · exact hbar c hc
  · exact hf c hc

theorem writable_of_plain {key val : Bytes} (hkey : ∀ c ∈ key, PlainChar c)
    (hhead : ∃ c ∈ key.head?, c ≠ 35 ∧ c ≠ 59) (hval : trim val = val ∧ newline ∉ val) :
    Writable (key, val) := by
  obtain ⟨c, hc, hno⟩ := hhead
  refine ⟨?_, (trim_of_plain hkey).1, ⟨fun h => (hkey _ h).2 rfl, (trim_of_plain hkey).2⟩, ?_,
    hval.1, hval.2⟩
  · rintro rfl
    cases hc
  · rw [Option.mem_def] at hc
    simpa [hc] using hno

theorem writable_toString {key : Bytes} (hkey : ∀ c ∈ key, PlainChar c)
    (hhead : ∃ c ∈ key.head?, c ≠ 35 ∧ c ≠ 59) (n : Int) : Writable (key, toString n) :=
  writable_of_plain hkey hhead (trim_of_plain fun _ => plain_of_mem_toString)

theorem mem_entries : (k, v) ∈ l.entries ↔ (k, v) ∈ l.ownEntries ∨
    ∃ i peer, l.peers[i]? = some peer ∧ (k, v) ∈ peerEntries (i + 1) peer := by
  rw [entries, List.mem_append, List.mem_flatMap]
  refine or_congr_right ⟨?_, ?_⟩
  · rintro ⟨⟨peer, i⟩, hmem, hkv⟩
    exact ⟨i, peer, List.mk_mem_zipIdx_iff_getElem?.mp hmem, hkv⟩
  · rintro ⟨i, peer, hi, hkv⟩
    exact ⟨(peer, i), List.mk_mem_zipIdx_iff_getElem?.mpr hi, hkv⟩

theorem mem_ownEntries : (k, v) ∈ l.ownEntries ↔
    k = ascii "server_id" ∧ v = toString l.serverId ∨ k = ascii "port" ∧ v = toString l.port ∨
      k = ascii "peer_count" ∧ v = toString l.peers.length := by
  simp [ownEntries]

theorem mem_peerEntries : (k, v) ∈ peerEntries i peer ↔
    k = peerKey i (ascii "id") ∧ v = toString peer.id ∨
      k = peerKey i (ascii "host") ∧ v = peer.host ∨
      k = peerKey i (ascii "port") ∧ v = toString peer.port := by
  simp [peerEntries]

theorem key_of_mem_peerEntries (h : (k, v) ∈ peerEntries i peer) : ∃ f, k = peerKey i f := by
  rcases mem_peerEntries.mp h with ⟨rfl, -⟩ | ⟨rfl, -⟩ | ⟨rfl, -⟩ <;> exact ⟨_, rfl⟩

/-- The server and its peers have no key in common. -/
theorem disjoint_ownEntries {w : Bytes} (h : (k, v) ∈ l.ownEntries)
    (h' : (k, w) ∈ peerEntries i peer) : False := by
  obtain ⟨f, rfl⟩ := key_of_mem_peerEntries h'
  obtain ⟨hserver, hport, hcount⟩ := peerKey_ne i f
  rcases mem_ownEntries.mp h with ⟨hk, -⟩ | ⟨hk, -⟩ | ⟨hk, -⟩
  · exact hserver hk
  · exact hport hk
  · exact hcount hk

theorem writable_entries (hl : l.Valid) : ∀ e ∈ l.entries, Writable e := by
  rintro ⟨k, v⟩ hmem
  rcases mem_entries.mp hmem with hown | ⟨i, peer, hi, hkv⟩
  · rcases mem_ownEntries.mp hown with ⟨rfl, rfl⟩ | ⟨rfl, rfl⟩ | ⟨rfl, rfl⟩ <;>
      exact writable_toString (plain_of_all rfl) (by decide) _
  · have hpeer := hl.peers peer (List.mem_of_getElem? hi)
    have hhead (f : Bytes) : ∃ c ∈ (peerKey (i + 1) f).head?, c ≠ 35 ∧ c ≠ 59 :=
      ⟨112, rfl, by decide, by decide⟩
    rcases mem_peerEntries.mp hkv with ⟨rfl, rfl⟩ | ⟨rfl, rfl⟩ | ⟨rfl, rfl⟩
    · exact writable_toString (plain_of_mem_peerKey (plain_of_all rfl)) (hhead _) _
    · exact writable_of_plain (plain_of_mem_peerKey (plain_of_all rfl)) (hhead _) hpeer.host
    · exact writable_toString (plain_of_mem_peerKey (plain_of_all rfl)) (hhead _) _

theorem ownEntries_functional (h : (k, v) ∈ l.ownEntries) {w : Bytes}
    (h' : (k, w) ∈ l.ownEntries) : v = w := by
  have hkeys : ascii "server_id" ≠ ascii "port" ∧ ascii "server_id" ≠ ascii "peer_count" ∧
      ascii "port" ≠ ascii "peer_count" := by decide
  rw [mem_ownEntries] at h h'
  rcases h with ⟨rfl, rfl⟩ | ⟨rfl, rfl⟩ | ⟨rfl, rfl⟩ <;>
    rcases h' with ⟨hk, rfl⟩ | ⟨hk, rfl⟩ | ⟨hk, rfl⟩ <;> simp_all

theorem peerEntries_functional (h : (k, v) ∈ peerEntries i peer) {w : Bytes}
    (h' : (k, w) ∈ peerEntries i peer) : v = w := by
  have hfields : ascii "id" ≠ ascii "host" ∧ ascii "id" ≠ ascii "port" ∧
      ascii "host" ≠ ascii "port" := by decide
  rw [mem_peerEntries] at h h'
  rcases h with ⟨rfl, rfl⟩ | ⟨rfl, rfl⟩ | ⟨rfl, rfl⟩ <;>
    rcases h' with ⟨hk, rfl⟩ | ⟨hk, rfl⟩ | ⟨hk, rfl⟩ <;>
    have hf := (peerKey_inj hk).2 <;> simp_all

/-- No key of the configuration has two values. -/
theorem entries_functional (h : (k, v) ∈ l.entries) {w : Bytes} (h' : (k, w) ∈ l.entries) :
    v = w := by
  rcases mem_entries.mp h with hown | ⟨i, peer, hi, hkv⟩ <;>
    rcases mem_entries.mp h' with hown' | ⟨j, peer', hj, hkw⟩
  · exact ownEntries_functional hown hown'
  · exact (disjoint_ownEntries hown hkw).elim
  · exact (disjoint_ownEntries hown' hkv).elim
  · obtain ⟨f, hf⟩ := key_of_mem_peerEntries hkv
    obtain ⟨g, hg⟩ := key_of_mem_peerEntries hkw
    obtain rfl : i = j := Nat.succ_injective (peerKey_inj (hf.symm.trans hg)).1
    obtain rfl : peer = peer' := Option.some.inj (hi.symm.trans hj)
    exact peerEntries_functional hkv hkw

theorem lookup_entries (hl : l.Valid) (h : (k, v) ∈ l.entries) :
    (loaded (render l.entries)).configs.lookup k = some v :=
  lookup_loaded_render (writable_entries hl) h fun _ hw => entries_functional hw h

/-! ## What is started -/

theorem getInt_entries (hl : l.Valid) {n : Int} (h : (k, toString n) ∈ l.entries) (hn : IsInt n)
    (d : Int) : (loaded (render l.entries)).getInt k d = n := by
  rw [getInt_of_lookup (lookup_entries hl h), stoi_toString hn]
  rfl

theorem readPeer_entries (hl : l.Valid) (hi : l.peers[i]? = some peer) :
    readPeer (loaded (render l.entries)) (i + 1) = peer := by
  have hv := hl.peers peer (List.mem_of_getElem? hi)
  have hmem {k v : Bytes} (h : (k, v) ∈ peerEntries (i + 1) peer) : (k, v) ∈ l.entries :=
    mem_entries.mpr (Or.inr ⟨i, peer, hi, h⟩)
  have hid := hmem (mem_peerEntries.mpr (Or.inl ⟨rfl, rfl⟩))
  have hhost := hmem (mem_peerEntries.mpr (Or.inr (Or.inl ⟨rfl, rfl⟩)))
  have hport := hmem (mem_peerEntries.mpr (Or.inr (Or.inr ⟨rfl, rfl⟩)))
  rw [readPeer, getInt_entries hl hid hv.id.2, getInt_entries hl hport hv.port.2, getString,
    lookup_entries hl hhost]
  rfl

/-- **Starting from a written configuration.**  The server is started with the id, the port and
the peers that were written, the peers in the order of the file. -/
theorem launch_render (l : Launch) (hl : l.Valid) : launch (loaded (render l.entries)) = l := by
  have hown {k v : Bytes} (h : (k, v) ∈ l.ownEntries) : (k, v) ∈ l.entries :=
    mem_entries.mpr (Or.inl h)
  have hid := getInt_entries hl (hown (mem_ownEntries.mpr (Or.inl ⟨rfl, rfl⟩))) hl.serverId.1
  have hport := getInt_entries hl (hown (mem_ownEntries.mpr (Or.inr (Or.inl ⟨rfl, rfl⟩)))) hl.port
  have hsize : IsInt l.peers.length := by
    have := hl.count
    simp only [IsInt, intMin, intMax] at this ⊢
    omega
  have hcount := getInt_entries hl (hown (mem_ownEntries.mpr (Or.inr (Or.inr ⟨rfl, rfl⟩)))) hsize
  have hread : (List.range l.peers.length).map
      (fun i => readPeer (loaded (render l.entries)) (i + 1)) = l.peers := by
    refine List.ext_getElem (by simp) fun i _ hi => ?_
    rw [List.getElem_map, List.getElem_range]
    exact readPeer_entries hl (List.getElem?_eq_getElem hi)
  have hkept : (l.peers.filter fun peer => peer.id > 0 ∧ peer.port > 0) = l.peers := by
    refine List.filter_eq_self.mpr fun peer hpeer => decide_eq_true ?_
    exact ⟨(hl.peers peer hpeer).id.1, (hl.peers peer hpeer).port.1⟩
  rw [launch, hid, hcount, hport, Int.toNat_natCast, hread, hkept]

/-- The first of two servers, as it is configured for a cluster on one machine. -/
theorem launch_render_twoServers : Launch.Valid ⟨1, 9001, [⟨2, ascii "127.0.0.1", 9002⟩]⟩ ∧
    launch (loaded (render (Launch.entries ⟨1, 9001, [⟨2, ascii "127.0.0.1", 9002⟩]⟩))) =
      ⟨1, 9001, [⟨2, ascii "127.0.0.1", 9002⟩]⟩ := by
  have hl : Launch.Valid ⟨1, 9001, [⟨2, ascii "127.0.0.1", 9002⟩]⟩ := by
    refine ⟨by decide, by decide, by decide, fun peer hpeer => ?_⟩
    obtain rfl := List.mem_singleton.mp hpeer
    exact ⟨by decide, by decide, by decide⟩
  exact ⟨hl, launch_render _ hl⟩

/-- Servers with written configurations that name all the others start a cluster. -/
theorem server_launch_render (hl : l.Valid) {ids : List Int}
    (hpeers : l.peers.map PeerConfig.id = ids.filter (· ≠ l.serverId)) :
    (launch (loaded (render l.entries))).server = Cluster.serverOf ids l.serverId := by
  rw [launch_render l hl, server, hpeers]
  rfl

end

end Launch

end DistributedChat
