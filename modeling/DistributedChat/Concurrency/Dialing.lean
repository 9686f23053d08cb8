import DistributedChat.Concurrency.Backpressure
import DistributedChat.Logic.Phases
import DistributedChat.Server.Failures
import DistributedChat.Server.Threads

/-!
# Two servers that dial each other

Two servers that have each other as a peer.  Each has a connector, which checks
the peer, connects, registers its own end of the connection and sends a
handshake on it, and each accepts the connections of the other and registers the
end it has accepted when it handles the handshake.

`RegisterPeerSocket` replaces the socket that is there.  The comment in
`PeerConnectorLoop` says that a server dials a peer only if the peer has the
smaller id, "OR if we are not connected and no socket is bound", and the loop
dials every peer that is not connected.  So both connections may be made, and
then each server ends on the connection the other one has made
(`crossed_connections`).  It takes a connector that registers its socket while
the other server is already connected; without that the two sockets are the ends
of one connection (`same_connection`).

`Dialing.follows_peerConnected` and `Greeting.follows_promote` say that the steps
here are the sections of the programs.
-/

namespace DistributedChat

open ChatServer

/-! ## Steps -/

/-- How far a connector has come with a peer. -/
inductive Dialing where
  | idle
  /-- The peer is not connected. -/
  | down
  /-- `Connect` has succeeded on the socket. -/
  | dialed (k : ConnRef)
  /-- `RegisterPeerSocket` is done. -/
  | registered (k : ConnRef)
  /-- `SetConnected` is done. -/
  | connected (k : ConnRef)
  /-- `UpdateHeartbeat` is done. -/
  | refreshed (k : ConnRef)
  /-- The handshake is about to be sent, with the id of the server. -/
  | introducing (k : ConnRef) (id : Int)
deriving DecidableEq, Repr

/-- The socket the connector has registered and not yet sent its handshake on. -/
def Dialing.socket : Dialing → Option ConnRef
  | idle | down | dialed _ => none
  | registered k | connected k | refreshed k | introducing k _ => some k

/-- The next section of the connector once it has connected, and the handshake it sends: the socket
and the payload. -/
def Dialing.proceed (s : ChatServer) (p : Int) :
    Dialing → Option (Dialing × ChatServer × List (ConnRef × Bytes))
  | idle | down => none
  | dialed k => some (.registered k, s.onConn (·.registerPeerSocket p k s.now), [])
  | registered k => some (.connected k, s.onConn (·.setConnected p true), [])
  | connected k => some (.refreshed k, s.onConn (·.updateHeartbeat p s.now), [])
  | refreshed k => some (.introducing k s.serverId, s, [])
  | introducing k id =>
      some (.idle, s, if s.connManager.canSend k = true then [(k, toString id)] else [])

/-- How far the `S2S_CONNECT` case has come with a handshake from peer `p`. -/
inductive Greeting where
  | received (p : Int)
  /-- The session is about to be removed from the handle. -/
  | leaving (p : Int) (handle : SOCKET)
  | removed (p : Int)
  /-- `RegisterPeerSocket` is done. -/
  | registered (p : Int)
  /-- There is such a peer. -/
  | found (p : Int)
  /-- `SetConnected` is done. -/
  | connected (p : Int)
deriving DecidableEq, Repr

/-- The handling of a handshake; `std::stoi` throws if it names no server. -/
def Greeting.start (payload : Bytes) : Option Greeting := (stoi payload).map received

/-- The next section of the `S2S_CONNECT` case on the session `k`. -/
def Greeting.proceed (s : ChatServer) (k : ConnRef) : Greeting → Option Greeting × ChatServer
  | received p => (some (.leaving p (s.connManager.getHandle k)), s)
  | leaving p handle => (some (.removed p), s.onConn (·.removeSession handle))
  | removed p => (some (.registered p), s.onConn (·.registerPeerSocket p k s.now))
  | registered p => (if s.connManager.hasPeerNode p = true then some (.found p) else none, s)
  | found p => (some (.connected p), s.onConn (·.setConnected p true))
  | connected p => (none, s.onConn (·.updateHeartbeat p s.now))

/-- The server is the same, and so is its link to peer `p`. -/
structure SameLink (p : Int) (s s' : ChatServer) : Prop where
  serverId : s'.serverId = s.serverId
  peerNodes : s'.connManager.peerNodes = s.connManager.peerNodes
  socket : (s'.connManager.nodes p).socket = (s.connManager.nodes p).socket
  isConnected : (s'.connManager.nodes p).isConnected = (s.connManager.nodes p).isConnected

section

variable (s : ChatServer) (p q : Int) (handle : SOCKET)

theorem sameLink_removeSession : SameLink p s (s.onConn (·.removeSession handle)) where
  serverId := rfl
  peerNodes := s.connManager.peerNodes_removeSession handle
  socket := socket_removeSession handle s p
  isConnected := s.connManager.isConnected_removeSession p handle

theorem sameLink_updateHeartbeat : SameLink p s (s.onConn (·.updateHeartbeat q s.now)) where
  serverId := rfl
  peerNodes := rfl
  socket := s.connManager.socket_updateHeartbeat q p s.now
  isConnected := s.connManager.isConnected_updateHeartbeat q p s.now

/-- The socket of another peer. -/
theorem sameLink_registerPeerSocket {q : Int} (hq : q ≠ p) (k : ConnRef) :
    SameLink p s (s.onConn (·.registerPeerSocket q k s.now)) := by
  have hnode : (s.onConn (·.registerPeerSocket q k s.now)).connManager.nodes p =
      s.connManager.nodes p := by
    rw [onConn_connManager, ConnectionManager.nodes_registerPeerSocket, if_neg fun h => hq h.2.symm]
  exact ⟨rfl, s.connManager.peerNodes_registerPeerSocket k q s.now, by rw [hnode], by rw [hnode]⟩

end

/-- A section that leaves the link to peer `p` as it is. -/
structure Elsewhere (p : Int) where
  apply : ChatServer → ChatServer
  sameLink : ∀ s, SameLink p s (apply s)

/-- The connector or a handshake registers the socket of another peer. -/
def Elsewhere.registerPeerSocket {p : Int} (q : Int) (hq : q ≠ p) (k : ConnRef) : Elsewhere p where
  apply s := s.onConn (·.registerPeerSocket q k s.now)
  sameLink s := sameLink_registerPeerSocket s p hq k

/-- A server at its end of the link to a peer. -/
structure LinkEnd where
  server : ChatServer
  dialing : Dialing := .idle
  /-- The sockets on which its connector has connected to the peer. -/
  dialed : List ConnRef := []
  /-- The handshakes its connector has sent: the socket and the payload. -/
  introduced : List (ConnRef × Bytes) := []
  /-- The connections of the peer it has accepted: the end of the peer and its own end. -/
  accepted : List (ConnRef × ConnRef) := []
  /-- The ends of the peer whose handshake it has read. -/
  read : List ConnRef := []
  /-- The handshakes it is handling: its own end, and how far it has come. -/
  greetings : List (ConnRef × Greeting) := []

/-- What happens at a server that has the peer `p`. -/
inductive DialAction (p : Int) where
  /-- Something that has nothing to do with the peer. -/
  | aside (a : Elsewhere p)
  /-- The connector finds that the peer is not connected. -/
  | check
  /-- `Connect` fails. -/
  | refused
  /-- `Connect` succeeds, on the handle `h`. -/
  | connect (h : SOCKET)
  /-- The next section of the connector. -/
  | proceed
  /-- The listener accepts the connection with the far end `k`, on the handle `h`. -/
  | accept (k : ConnRef) (h : SOCKET)
  /-- The listener reads the handshake sent on `k`; its own end is `stop`. -/
  | read (k stop : ConnRef) (payload : Bytes)
  /-- The next section of the handling of a handshake. -/
  | greet (i : Nat)

namespace LinkEnd

/-- The handling at a position has come further, or has ended. -/
def replaceAt (l : List (ConnRef × Greeting)) (i : Nat) :
    Option (ConnRef × Greeting) → List (ConnRef × Greeting)
  | none => l.eraseIdx i
  | some x => l.set i x

/-- The link to the peer. -/
def link (n : LinkEnd) (p : Int) : ServerNode := n.server.connManager.nodes p

/-- One action, at a server that has the peer `p`; `peer` is the other server. -/
def next {p : Int} (n peer : LinkEnd) : DialAction p → Option LinkEnd
  | .aside a => some { n with server := a.apply n.server }
  | .check =>
      if n.dialing = .idle ∧ n.server.connManager.hasPeerNode p = true ∧
          (n.link p).isConnected = false then
        some { n with dialing := .down }
      else none
  | .refused => if n.dialing = .down then some { n with dialing := .idle } else none
  | .connect h =>
      if n.dialing = .down ∧ n.server.connManager.FreeHandle h then
        some { n with
          server := n.server.onConn (·.newSocket h)
          dialing := .dialed n.server.connManager.nextConn
          dialed := n.dialed ++ [n.server.connManager.nextConn] }
      else none
  | .proceed =>
      (n.dialing.proceed n.server p).map fun r =>
        { n with dialing := r.1, server := r.2.1, introduced := n.introduced ++ r.2.2 }
  | .accept k h =>
      if k ∈ peer.dialed ∧ (∀ e ∈ n.accepted, e.1 ≠ k) ∧ n.server.connManager.FreeHandle h then
        some { n with
          server := n.server.onConn (·.accepted h)
          accepted := n.accepted ++ [(k, n.server.connManager.nextConn)] }
      else none
  | .read k stop payload =>
      if (k, payload) ∈ peer.introduced ∧ k ∉ n.read ∧ (k, stop) ∈ n.accepted ∧
          n.server.connManager.isLive stop = true then
        some { n with
          read := n.read ++ [k]
          greetings := n.greetings ++ ((Greeting.start payload).map (stop, ·)).toList }
      else none
  | .greet i =>
      match n.greetings[i]? with
      | none => none
      | some (stop, g) =>
          some { n with
            server := (g.proceed n.server stop).2
            greetings := replaceAt n.greetings i ((g.proceed n.server stop).1.map (stop, ·)) }

end LinkEnd

/-- The two servers. -/
abbrev LinkEnds := Side → LinkEnd

namespace LinkEnds

variable {id : Side → Int}

/-- Two servers with the given ids and peers as they start. -/
def start (id : Side → Int) (peers : Side → List Int) : LinkEnds :=
  fun s => { server := configured (id s) (peers s) }

/-- One action of one of the servers. -/
def next (c : LinkEnds) (a : (s : Side) × DialAction (id s.other)) : Option LinkEnds :=
  ((c a.1).next (c a.1.other) a.2).map fun n => Function.update c a.1 n

/-- All handshakes sent so far have been handled. -/
def Quiet (c : LinkEnds) : Prop :=
  ∀ s, (∀ e ∈ (c s).introduced, e.1 ∈ (c s.other).read) ∧ (c s).greetings = []

/-- Both servers consider the other connected. -/
def BothConnected (id : Side → Int) (c : LinkEnds) : Prop :=
  ∀ s, ((c s).link (id s.other)).isConnected = true

/-- The two registered sockets are the ends of one connection. -/
def Joined (id : Side → Int) (c : LinkEnds) : Prop :=
  ∃ s, ∃ e ∈ (c s.other).accepted, ((c s).link (id s.other)).socket = some e.1 ∧
    ((c s.other).link (id s)).socket = some e.2

/-- A connector registers its socket while the other server does not consider it connected. -/
def Orderly (c : LinkEnds) : (s : Side) × DialAction (id s.other) → Prop
  | ⟨s, .proceed⟩ => ∀ k, (c s).dialing = .dialed k →
      ((c s.other).link (id s)).isConnected = false
  | _ => True

end LinkEnds

/-! ## The invariant -/

/-- Server `i` has the peer `p`, with the given socket. -/
structure Peered (s : ChatServer) (i p : Int) (sock : Option ConnRef) : Prop where
  serverId : s.serverId = i
  mem : p ∈ s.connManager.peerNodes
  socket : (s.connManager.nodes p).socket = sock
  connected : (s.connManager.nodes p).isConnected = sock.isSome

section

variable {s : ChatServer} {i p : Int} {k : ConnRef} {sock : Option ConnRef}

theorem Peered.same {s' : ChatServer} (h : Peered s i p sock) (hs : SameLink p s s') :
    Peered s' i p sock where
  serverId := hs.serverId.trans h.serverId
  mem := hs.peerNodes ▸ h.mem
  socket := hs.socket.trans h.socket
  connected := hs.isConnected.trans h.connected

theorem Peered.registerPeerSocket (h : Peered s i p sock) (k : ConnRef) :
    Peered (s.onConn (·.registerPeerSocket p k s.now)) i p (some k) := by
  have hnode : (s.onConn (·.registerPeerSocket p k s.now)).connManager.nodes p =
      (s.connManager.nodes p).setSocket (some k) s.now := by
    rw [onConn_connManager, ConnectionManager.nodes_registerPeerSocket, if_pos ⟨h.mem, rfl⟩]
  refine ⟨h.serverId, ?_, ?_, ?_⟩
  · rw [onConn_connManager, ConnectionManager.peerNodes_registerPeerSocket]
    exact h.mem
  · rw [hnode]
    rfl
  · rw [hnode]
    rfl

/-- A peer with a socket is connected already. -/
theorem Peered.setConnected (h : Peered s i p (some k)) :
    Peered (s.onConn (·.setConnected p true)) i p (some k) := by
  have hnode : (s.onConn (·.setConnected p true)).connManager.nodes p =
      { s.connManager.nodes p with isConnected := true } := by
    rw [onConn_connManager, ConnectionManager.nodes_setConnected, if_pos rfl]
  refine ⟨h.serverId, h.mem, ?_, ?_⟩
  · rw [hnode]
    exact h.socket
  · rw [hnode]
    rfl

theorem peered_configured {i p : Int} {peers : List Int} (hp : p ∈ peers) :
    Peered (configured i peers) i p none := by
  obtain ⟨hpeers, hnodes, -⟩ := configured_connManager i peers
  refine ⟨rfl, (hpeers p).mpr hp, ?_, ?_⟩
  · rw [hnodes]
  · rw [hnodes]
    rfl

end

/-- How far the connector of server `i` has come with the link it makes on its socket `k`: its stage
and the handshakes it has sent. -/
inductive Dialing.Makes (i : Int) (k : ConnRef) : Dialing → List (ConnRef × Bytes) → Prop where
  | registered : Makes i k (.registered k) []
  | connected : Makes i k (.connected k) []
  | refreshed : Makes i k (.refreshed k) []
  | introducing : Makes i k (.introducing k i) []
  /-- The socket has not taken the handshake. -/
  | lost : Makes i k .idle []
  | introduced : Makes i k .idle [(k, toString i)]

theorem Dialing.Makes.sent {i : Int} {k : ConnRef} {d : Dialing} {sent : List (ConnRef × Bytes)}
    (h : d.Makes i k sent) : ∀ e ∈ sent, e = (k, toString i) := by
  cases h with
  | registered | connected | refreshed | introducing | lost =>
      exact fun _ he => absurd he List.not_mem_nil
  | introduced => exact fun _ he => List.mem_singleton.mp he

/-- The connector goes on making the link. -/
theorem Dialing.Makes.proceed {s : ChatServer} {i p : Int} {k : ConnRef} {d : Dialing}
    {sent : List (ConnRef × Bytes)} {r : Dialing × ChatServer × List (ConnRef × Bytes)}
    (h : d.Makes i k sent) (hp : Peered s i p (some k)) (hr : d.proceed s p = some r) :
    Peered r.2.1 i p (some k) ∧ r.1.Makes i k (sent ++ r.2.2) := by
  cases h with
  | registered =>
      cases hr
      exact ⟨hp.setConnected, .connected⟩
  | connected =>
      cases hr
      exact ⟨hp.same (sameLink_updateHeartbeat ..), .refreshed⟩
  | refreshed =>
      cases hr
      exact ⟨hp, hp.serverId ▸ .introducing⟩
  | introducing =>
      cases hr
      refine ⟨hp, ?_⟩
      rw [List.nil_append]
      dsimp only
      split
      · exact .introduced
      · exact .lost
  | lost | introduced => cases hr

/-- The handshake of peer `p` is being handled and its socket is not registered yet. -/
inductive Greeting.Early (p : Int) : Greeting → Prop where
  | received : Early p (.received p)
  | leaving (handle : SOCKET) : Early p (.leaving p handle)
  | removed : Early p (.removed p)

/-- The socket of peer `p` is registered. -/
inductive Greeting.Late (p : Int) : Greeting → Prop where
  | registered : Late p (.registered p)
  | found : Late p (.found p)
  | connected : Late p (.connected p)

namespace LinkEnd

/-- Server `i` has registered no socket for peer `p`, and has not exchanged a handshake with it. -/
structure Fresh (n : LinkEnd) (i p : Int) : Prop where
  peered : Peered n.server i p none
  dialing : n.dialing.socket = none
  introduced : n.introduced = []
  greetings : n.greetings = []
  read : n.read = []

/-- Server `i` makes the link to peer `p`, on its socket `k`. -/
structure Makes (n : LinkEnd) (i p : Int) (k : ConnRef) : Prop where
  peered : Peered n.server i p (some k)
  makes : n.dialing.Makes i k n.introduced
  greetings : n.greetings = []

/-- What server `i` knows of the link peer `p` makes on its socket `k`. -/
inductive Learns (n : LinkEnd) (i p : Int) (k : ConnRef) : Prop where
  | waiting (peered : Peered n.server i p none) (greetings : n.greetings = []) (read : n.read = [])
  | handling (stop : ConnRef) (g : Greeting) (early : g.Early p)
      (peered : Peered n.server i p none) (greetings : n.greetings = [(stop, g)])
      (read : k ∈ n.read) (accepted : (k, stop) ∈ n.accepted)
  | linked (stop : ConnRef) (peered : Peered n.server i p (some stop))
      (greetings : n.greetings = [] ∨ ∃ g : Greeting, g.Late p ∧ n.greetings = [(stop, g)])
      (read : k ∈ n.read) (accepted : (k, stop) ∈ n.accepted)

/-- Server `i` accepts the link peer `p` makes on its socket `k`. -/
structure Accepts (n : LinkEnd) (i p : Int) (k : ConnRef) : Prop where
  dialing : n.dialing.socket = none
  introduced : n.introduced = []
  learns : n.Learns i p k

section

variable {n n' peer : LinkEnd} {i p : Int} {k : ConnRef} {a : DialAction p}

theorem Fresh.accepts (h : n.Fresh i p) (k : ConnRef) : n.Accepts i p k :=
  ⟨h.dialing, h.introduced, .waiting h.peered h.greetings h.read⟩

theorem not_mem_introduced (h : n.introduced = []) (e : ConnRef × Bytes) : e ∉ n.introduced := by
  rw [h]
  exact List.not_mem_nil

/-- The server that makes the link goes on making it. -/
theorem Makes.next (h : n.Makes i p k) (hpeer : peer.introduced = [])
    (hn : n.next peer a = some n') : n'.Makes i p k := by
  obtain ⟨hp, hm, hg⟩ := h
  cases a with
  | aside a =>
      cases hn
      exact ⟨hp.same (a.sameLink _), hm, hg⟩
  | check =>
      obtain ⟨⟨-, -, hdown⟩, -⟩ := Option.ite_none_right_eq_some.mp hn
      rw [link, hp.connected] at hdown
      cases hdown
  | refused =>
      obtain ⟨hdown, -⟩ := Option.ite_none_right_eq_some.mp hn
      rw [hdown] at hm
      cases hm
  | connect handle =>
      obtain ⟨⟨hdown, -⟩, -⟩ := Option.ite_none_right_eq_some.mp hn
      rw [hdown] at hm
      cases hm
  | proceed =>
      obtain ⟨r, hr, rfl⟩ := Option.map_eq_some_iff.mp hn
      obtain ⟨hp', hm'⟩ := hm.proceed hp hr
      exact ⟨hp', hm', hg⟩
  | accept j handle =>
      obtain ⟨-, ha⟩ := Option.ite_none_right_eq_some.mp hn
      cases ha
      exact ⟨hp.same ⟨rfl, rfl, rfl, rfl⟩, hm, hg⟩
  | read j stop payload =>
      obtain ⟨⟨hin, -⟩, -⟩ := Option.ite_none_right_eq_some.mp hn
      exact absurd hin (not_mem_introduced hpeer _)
  | greet j =>
      rw [LinkEnd.next, hg] at hn
      cases hn

/-- A handshake that is being handled. -/
theorem Learns.greet {stop : ConnRef} {g : Greeting} (h : n.Learns i p k)
    (hg : n.greetings = [(stop, g)]) :
    { n with
      server := (g.proceed n.server stop).2
      greetings := replaceAt [(stop, g)] 0 ((g.proceed n.server stop).1.map (stop, ·)) }.Learns
        i p k := by
  cases h with
  | waiting hp hnone =>
      rw [hnone] at hg
      cases hg
  | handling stop' g' early hp hg' hread hacc =>
      rw [hg'] at hg
      cases hg
      cases early with
      | received => exact .handling stop _ (.leaving _) hp rfl hread hacc
      | leaving handle =>
          exact .handling stop _ .removed (hp.same (sameLink_removeSession ..)) rfl hread hacc
      | removed =>
          exact .linked stop (hp.registerPeerSocket stop) (.inr ⟨_, .registered, rfl⟩) hread hacc
  | linked stop' hp hg' hread hacc =>
      obtain hg' | ⟨g', late, hg'⟩ := hg'
      · rw [hg'] at hg
        cases hg
      · rw [hg'] at hg
        cases hg
        cases late with
        | registered =>
            have hpeer : n.server.connManager.hasPeerNode p = true := decide_eq_true hp.mem
            refine .linked stop hp (.inr ⟨.found p, .found, ?_⟩) hread hacc
            simp only [Greeting.proceed, hpeer, if_true]
            rfl
        | found => exact .linked stop hp.setConnected (.inr ⟨_, .connected, rfl⟩) hread hacc
        | connected =>
            exact .linked stop (hp.same (sameLink_updateHeartbeat ..)) (.inl rfl) hread hacc

theorem Learns.of_same (h : n.Learns i p k)
    (hp : ∀ sock, Peered n.server i p sock → Peered n'.server i p sock)
    (hg : n'.greetings = n.greetings) (hr : n'.read = n.read) (ha : n.accepted ⊆ n'.accepted) :
    n'.Learns i p k := by
  cases h with
  | waiting peered greetings read => exact .waiting (hp _ peered) (hg.trans greetings) (hr.trans read)
  | handling stop g early peered greetings read accepted =>
      exact .handling stop g early (hp _ peered) (hg.trans greetings) (hr ▸ read) (ha accepted)
  | linked stop peered greetings read accepted =>
      exact .linked stop (hp _ peered) (hg ▸ greetings) (hr ▸ read) (ha accepted)

/-- The server that accepts the link goes on accepting it, if its own connector does not register a
socket. -/
theorem Accepts.next (h : n.Accepts i p k) (hint : IsInt p)
    (hpeer : ∀ e ∈ peer.introduced, e = (k, toString p))
    (ho : ∀ j, n.dialing = .dialed j → a ≠ .proceed) (hn : n.next peer a = some n') :
    n'.Accepts i p k := by
  obtain ⟨hd, hs, hl⟩ := h
  have hsame {m : LinkEnd} (hm : SameLink p n.server m.server)
      (hg : m.greetings = n.greetings) (hr : m.read = n.read) (ha : n.accepted ⊆ m.accepted) :
      m.Learns i p k :=
    hl.of_same (fun _ hp => hp.same hm) hg hr ha
  cases a with
  | aside b =>
      cases hn
      exact ⟨hd, hs, hsame (b.sameLink _) rfl rfl (List.Subset.refl _)⟩
  | check =>
      obtain ⟨-, hn'⟩ := Option.ite_none_right_eq_some.mp hn
      cases hn'
      exact ⟨rfl, hs, hl.of_same (fun _ hp => hp) rfl rfl (List.Subset.refl _)⟩
  | refused =>
      obtain ⟨-, hn'⟩ := Option.ite_none_right_eq_some.mp hn
      cases hn'
      exact ⟨rfl, hs, hl.of_same (fun _ hp => hp) rfl rfl (List.Subset.refl _)⟩
  | connect handle =>
      obtain ⟨-, hn'⟩ := Option.ite_none_right_eq_some.mp hn
      cases hn'
      exact ⟨rfl, hs, hsame ⟨rfl, rfl, rfl, rfl⟩ rfl rfl (List.Subset.refl _)⟩
  | proceed =>
      obtain ⟨r, hr, -⟩ := Option.map_eq_some_iff.mp hn
      cases hdial : n.dialing with
      | idle | down =>
          rw [hdial] at hr
          cases hr
      | dialed j => exact absurd rfl (ho j hdial)
      | registered | connected | refreshed | introducing =>
          rw [hdial] at hd
          cases hd
  | accept j handle =>
      obtain ⟨-, hn'⟩ := Option.ite_none_right_eq_some.mp hn
      cases hn'
      exact ⟨hd, hs, hsame ⟨rfl, rfl, rfl, rfl⟩ rfl rfl (List.subset_append_left ..)⟩
  | read j stop payload =>
      obtain ⟨⟨hin, hnew, hacc, -⟩, hn'⟩ := Option.ite_none_right_eq_some.mp hn
      cases hn'
      cases hpeer _ hin
      refine ⟨hd, hs, ?_⟩
      cases hl with
      | waiting hp hg hr =>
          refine .handling stop _ .received hp ?_ (List.mem_append_right _ (List.mem_singleton_self k))
            hacc
          simp only [hg, Greeting.start, stoi_toString hint]
          rfl
      | handling _ _ _ _ _ hread | linked _ _ _ hread => exact absurd hread hnew
  | greet j =>
      rw [LinkEnd.next] at hn
      cases hl' : hl with
      | waiting hp hg hr =>
          rw [hg] at hn
          cases hn
      | handling stop g early hp hg =>
          rw [hg] at hn
          cases j with
          | zero =>
              cases hn
              exact ⟨hd, hs, hl.greet hg⟩
          | succ j => cases hn
      | linked stop hp hg =>
          obtain hg | ⟨g, late, hg⟩ := hg
          · rw [hg] at hn
            cases hn
          · rw [hg] at hn
            cases j with
            | zero =>
                cases hn
                exact ⟨hd, hs, hl.greet hg⟩
            | succ j => cases hn

/-- A server that has registered no socket still has none, or its connector has registered one. -/
theorem Fresh.next (h : n.Fresh i p) (hpeer : peer.introduced = [])
    (hn : n.next peer a = some n') : n'.Fresh i p ∨ ∃ k, n'.Makes i p k := by
  obtain ⟨hp, hd, hs, hg, hr⟩ := h
  cases a with
  | aside b =>
      cases hn
      exact .inl ⟨hp.same (b.sameLink _), hd, hs, hg, hr⟩
  | check =>
      obtain ⟨-, hn'⟩ := Option.ite_none_right_eq_some.mp hn
      cases hn'
      exact .inl ⟨hp, rfl, hs, hg, hr⟩
  | refused =>
      obtain ⟨-, hn'⟩ := Option.ite_none_right_eq_some.mp hn
      cases hn'
      exact .inl ⟨hp, rfl, hs, hg, hr⟩
  | connect handle =>
      obtain ⟨-, hn'⟩ := Option.ite_none_right_eq_some.mp hn
      cases hn'
      exact .inl ⟨hp.same ⟨rfl, rfl, rfl, rfl⟩, rfl, hs, hg, hr⟩
  | proceed =>
      obtain ⟨r, hr', hn'⟩ := Option.map_eq_some_iff.mp hn
      cases hdial : n.dialing with
      | idle | down =>
          rw [hdial] at hr'
          cases hr'
      | dialed k =>
          rw [hdial] at hr'
          cases hr'
          cases hn'
          refine .inr ⟨k, hp.registerPeerSocket k, ?_, hg⟩
          rw [hs]
          exact .registered
      | registered | connected | refreshed | introducing =>
          rw [hdial] at hd
          cases hd
  | accept j handle =>
      obtain ⟨-, hn'⟩ := Option.ite_none_right_eq_some.mp hn
      cases hn'
      exact .inl ⟨hp.same ⟨rfl, rfl, rfl, rfl⟩, hd, hs, hg, hr⟩
  | read j stop payload =>
      obtain ⟨⟨hin, -⟩, -⟩ := Option.ite_none_right_eq_some.mp hn
      exact absurd hin (not_mem_introduced hpeer _)
  | greet j =>
      rw [LinkEnd.next, hg] at hn
      cases hn

end

end LinkEnd

namespace LinkEnds

section

variable {id : Side → Int} {c c' : LinkEnds} {a : (s : Side) × DialAction (id s.other)}

/-- Nobody has registered a socket for the other, or one of them makes the link and the other
accepts it. -/
def OneLink (id : Side → Int) (c : LinkEnds) : Prop :=
  (∀ s, (c s).Fresh (id s) (id s.other)) ∨
    ∃ s k, (c s).Makes (id s) (id s.other) k ∧ (c s.other).Accepts (id s.other) (id s) k

theorem oneLink_start {peers : Side → List Int} (hpeers : ∀ s, id s.other ∈ peers s) :
    OneLink id (start id peers) :=
  .inl fun s => ⟨peered_configured (hpeers s), rfl, rfl, rfl, rfl⟩

theorem update_other (c : LinkEnds) (s : Side) (n : LinkEnd) :
    Function.update c s n s.other = c s.other :=
  Function.update_of_ne (Side.other_ne s) ..

theorem OneLink.next (h : OneLink id c) (hint : ∀ s, IsInt (id s)) (ho : c.Orderly a)
    (hn : next c a = some c') : OneLink id c' := by
  obtain ⟨t, a⟩ := a
  obtain ⟨n, hstep, hn'⟩ := Option.map_eq_some_iff.mp hn
  subst hn'
  rcases h with hfresh | ⟨s, k, hmakes, haccepts⟩
  · rcases (hfresh t).next (hfresh t.other).introduced hstep with hf | ⟨k, hm⟩
    · left
      intro s
      by_cases hs : s = t
      · subst hs
        rw [Function.update_self]
        exact hf
      · rw [Function.update_of_ne hs]
        exact hfresh s
    · right
      refine ⟨t, k, ?_, ?_⟩
      · rw [Function.update_self]
        exact hm
      · rw [update_other]
        have hother := (hfresh t.other).accepts k
        rw [Side.other_other] at hother
        exact hother
  · right
    refine ⟨s, k, ?_⟩
    by_cases hs : s = t
    · subst hs
      rw [Function.update_self, update_other]
      exact ⟨hmakes.next haccepts.introduced hstep, haccepts⟩
    · obtain rfl := Side.eq_other_of_ne (Ne.symm hs)
      have hself : s.other.other = s := s.other_other
      have hother : (c s.other).Accepts (id s.other) (id s.other.other) k := by
        rw [hself]
        exact haccepts
      have hsent : ∀ e ∈ (c s.other.other).introduced, e = (k, toString (id s.other.other)) := by
        rw [hself]
        exact hmakes.makes.sent
      -- the other server is connected, so the connector does not register
      have hquiet : ∀ j, (c s.other).dialing = .dialed j → a ≠ .proceed := by
        rintro j hj rfl
        have hno := ho j hj
        rw [hself, LinkEnd.link, hmakes.peered.connected] at hno
        cases hno
      have hnext := hother.next (hint s.other.other) hsent hquiet hstep
      rw [Function.update_of_ne hs, Function.update_self]
      rw [hself] at hnext
      exact ⟨hmakes, hnext⟩

theorem OneLink.joined (h : OneLink id c) (hq : c.Quiet) (hb : BothConnected id c) :
    Joined id c := by
  rcases h with hfresh | ⟨s, k, hmakes, haccepts⟩
  · have hup := hb .near
    rw [LinkEnd.link, (hfresh .near).peered.connected] at hup
    cases hup
  · cases haccepts.learns with
    | waiting hp =>
        have hup := hb s.other
        rw [Side.other_other, LinkEnd.link, hp.connected] at hup
        cases hup
    | handling stop g _ _ hg =>
        rw [(hq s.other).2] at hg
        cases hg
    | linked stop hp _ _ hacc => exact ⟨s, (k, stop), hacc, hmakes.peered.socket, hp.socket⟩

/-- **One connection.**  In every run of two servers that have each other as a peer in which a
connector registers its socket only while the other server does not consider it connected, the
sockets the two servers have registered for each other are the ends of one connection whenever all
handshakes have been handled and both servers consider the other connected. -/
theorem same_connection {peers : Side → List Int}
    {as : List ((s : Side) × DialAction (id s.other))} (hint : ∀ s, IsInt (id s))
    (hpeers : ∀ s, id s.other ∈ peers s) (hrun : exec next (start id peers) as = some c)
    (ho : Along next Orderly (start id peers) as) (hq : c.Quiet) (hb : BothConnected id c) :
    Joined id c :=
  (exec_induct (fun h ho hn => OneLink.next h hint ho hn) (oneLink_start hpeers) ho hrun).joined hq hb

end

/-! ## Two runs -/

instance (P : Side → Prop) [DecidablePred P] : Decidable (∀ s, P s) :=
  decidable_of_iff (P .near ∧ P .far) ⟨fun h s => by cases s; exacts [h.1, h.2], fun h => ⟨h _, h _⟩⟩

instance (P : Side → Prop) [DecidablePred P] : Decidable (∃ s, P s) :=
  decidable_of_iff (P .near ∨ P .far)
    ⟨fun h => h.elim (fun h => ⟨_, h⟩) fun h => ⟨_, h⟩,
      fun ⟨s, h⟩ => by cases s; exacts [.inl h, .inr h]⟩

instance : DecidablePred Quiet := fun c =>
  inferInstanceAs (Decidable (∀ s, (∀ e ∈ (c s).introduced, e.1 ∈ (c s.other).read) ∧
    (c s).greetings = []))

instance (id : Side → Int) : DecidablePred (BothConnected id) := fun c =>
  inferInstanceAs (Decidable (∀ s, ((c s).link (id s.other)).isConnected = true))

instance (id : Side → Int) : DecidablePred (Joined id) := fun c =>
  inferInstanceAs (Decidable (∃ s, ∃ e ∈ (c s.other).accepted,
    ((c s).link (id s.other)).socket = some e.1 ∧ ((c s.other).link (id s)).socket = some e.2))

instance (id : Side → Int) (c : LinkEnds) : DecidablePred (@Orderly id c) := fun
  | ⟨s, .proceed⟩ =>
      match h : (c s).dialing with
      | .dialed k => decidable_of_iff (((c s.other).link (id s)).isConnected = false)
          ⟨fun hd _ _ => hd, fun hall => hall k h⟩
      | .idle | .down | .registered _ | .connected _ | .refreshed _ | .introducing _ _ =>
          isTrue fun k hk => by rw [h] at hk; cases hk
  | ⟨_, .aside _⟩ | ⟨_, .check⟩ | ⟨_, .refused⟩ | ⟨_, .connect _⟩ | ⟨_, .accept _ _⟩
  | ⟨_, .read _ _ _⟩ | ⟨_, .greet _⟩ => instDecidableTrue

/-- The ids of two servers. -/
def oneAndTwo : Side → Int
  | .near => 1
  | .far => 2

/-- The connector of `s` checks its peer and connects to it. -/
def dials (s : Side) : List ((s : Side) × DialAction (oneAndTwo s.other)) :=
  [⟨s, .check⟩, ⟨s, .connect 4⟩]

/-- It registers its socket and introduces itself. -/
def introduces (s : Side) : List ((s : Side) × DialAction (oneAndTwo s.other)) :=
  List.replicate 5 ⟨s, .proceed⟩

/-- The server accepts the connection of the other, on its socket `k`. -/
def accepts (s : Side) : List ((s : Side) × DialAction (oneAndTwo s.other)) :=
  [⟨s, .accept 0 5⟩]

/-- It handles the handshake of the other, on its socket `k`. -/
def greets (s : Side) (k : ConnRef) : List ((s : Side) × DialAction (oneAndTwo s.other)) :=
  ⟨s, .read 0 k (toString (oneAndTwo s.other))⟩ :: List.replicate 6 ⟨s, .greet 0⟩

/-- One server dials while the connector of the other registers a socket for a third server. -/
def inTurn : List ((s : Side) × DialAction (oneAndTwo s.other)) :=
  ⟨.near, .aside (.registerPeerSocket 3 (by decide) 7)⟩ :: dials .far ++ introduces .far ++
    accepts .near ++ greets .near 0

/-- Both servers dial at once. -/
def atOnce : List ((s : Side) × DialAction (oneAndTwo s.other)) :=
  dials .near ++ dials .far ++ accepts .near ++ accepts .far ++ introduces .near ++
    introduces .far ++ greets .near 1 ++ greets .far 1

theorem same_connection_inTurn :
    ∃ c, exec next (start oneAndTwo fun s => [oneAndTwo s.other]) inTurn = some c ∧
      Joined oneAndTwo c := by
  have hrun : (exec next (start oneAndTwo fun s => [oneAndTwo s.other]) inTurn).any fun c =>
      decide (c.Quiet ∧ BothConnected oneAndTwo c) := by decide +kernel
  obtain ⟨c, hc, h⟩ := (Option.any_eq_true ..).mp hrun
  obtain ⟨hq, hb⟩ := of_decide_eq_true h
  refine ⟨c, hc, same_connection ?_ ?_ hc (by decide +kernel) hq hb⟩
  · intro s
    cases s <;> decide
  · exact fun s => List.mem_singleton_self _

/-- Each server ends on the connection the other one has made. -/
theorem crossed_connections :
    ¬ ∀ (id : Side → Int) (peers : Side → List Int)
      (as : List ((s : Side) × DialAction (id s.other))) (c : LinkEnds),
      (∀ s, IsInt (id s)) → (∀ s, id s.other ∈ peers s) →
        exec next (start id peers) as = some c → c.Quiet → BothConnected id c → Joined id c := by
  intro hall
  have hrun : (exec next (start oneAndTwo fun s => [oneAndTwo s.other]) atOnce).any fun c =>
      decide (c.Quiet ∧ BothConnected oneAndTwo c ∧ ¬ Joined oneAndTwo c) := by decide +kernel
  obtain ⟨c, hc, h⟩ := (Option.any_eq_true ..).mp hrun
  obtain ⟨hq, hb, hno⟩ := of_decide_eq_true h
  refine hno (hall oneAndTwo _ atOnce c ?_ ?_ hc hq hb)
  · intro s
    cases s <;> decide
  · exact fun s => List.mem_singleton_self _

end LinkEnds

/-! ## The programs -/

section

open Prog (follows_observe_bind follows_update_bind follows_update Follows)

/-- A section of the connector of a server with the peer `p`: the stage and the state before it, its
outputs, the state and the stage after it. -/
inductive Dialing.Moves (p : Int) :
    Dialing → ChatServer → List Effect → ChatServer → Dialing → Prop where
  | proceed {d d' : Dialing} {s s' : ChatServer} (sent : List (ConnRef × Bytes))
      (h : d.proceed s p = some (d', s', sent)) :
      Moves p d s (sent.map fun e => .toPeer p e.1 ⟨.s2sConnect, e.2⟩) s' d'

/-- A section of the handling of a handshake on the session `k`. -/
inductive Greeting.Moves (k : ConnRef) :
    Option Greeting → ChatServer → List Effect → ChatServer → Option Greeting → Prop where
  | proceed (g : Greeting) (s : ChatServer) :
      Moves k (some g) s [] (g.proceed s k).2 (g.proceed s k).1

/-- The connector, after `Connect` has succeeded. -/
theorem Dialing.follows_peerConnected (p : Int) (k : ConnRef) :
    (peerConnected p k).Follows (Dialing.Moves p) (fun _ d => d = .idle) (.dialed k) := by
  refine follows_update_bind fun s => ⟨.registered k, .proceed [] rfl, ?_⟩
  refine follows_update_bind fun s => ⟨.connected k, .proceed [] rfl, ?_⟩
  refine follows_update_bind fun s => ⟨.refreshed k, .proceed [] rfl, ?_⟩
  refine follows_observe_bind fun s => ⟨.introducing k s.serverId, .proceed [] rfl, ?_⟩
  intro t
  refine ⟨.idle, ?_, rfl⟩
  dsimp only
  by_cases hsend : t.connManager.canSend k = true
  · rw [if_pos hsend]
    exact .proceed [(k, toString s.serverId)] (by simp [proceed, hsend])
  · rw [if_neg hsend]
    exact .proceed [] (by simp [proceed, hsend])

/-- The `S2S_CONNECT` case. -/
theorem Greeting.follows_promote (k : ConnRef) (payload : Bytes) :
    (promote k payload).Follows (Greeting.Moves k) (fun _ g => g = none) (Greeting.start payload) := by
  rw [promote, Greeting.start]
  cases stoi payload with
  | none => exact rfl
  | some p =>
      refine follows_observe_bind fun s => ⟨_, .proceed (.received p) s, ?_⟩
      refine follows_update_bind fun s' => ⟨_, .proceed (.leaving p _) s', ?_⟩
      refine follows_update_bind fun s => ⟨_, .proceed (.removed p) s, ?_⟩
      refine follows_observe_bind fun s => ⟨_, .proceed (.registered p) s, ?_⟩
      cases hpeer : s.connManager.hasPeerNode p with
      | false =>
          simp only [Greeting.proceed, hpeer]
          exact rfl
      | true =>
          simp only [Greeting.proceed, hpeer, if_true]
          refine follows_update_bind fun s => ⟨_, .proceed (.found p) s, ?_⟩
          exact follows_update fun s => ⟨_, .proceed (.connected p) s, rfl⟩

end

end DistributedChat
