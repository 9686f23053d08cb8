import DistributedChat.Server.RoomTasks

/-!
# Room syncs of concurrent joins and leaves

`HandleRoomJoin` reads the members of the room, adds its user and sends a sync
with flag 1 if it found none; `HandleRoomLeave` takes its user off, reads the
members and sends flag 0 if there are none.  Between these steps other tasks go
on, and a sync may be sent when it is no longer true of the room
(`late_join_sync`).

A wrong sync does no harm while somebody is about to put it right.  If every
sync is true of the room or will be put right, then after all tasks the last sync
of a room tells whether it has local members (`room_syncs_settle`).

`RoomTasks` is a server whose threads are known by how far their tasks have
come.  Whatever the threads that handle joins and leaves do, these do, and the
syncs are the frames that the link of a peer takes (`tasks_of_threads`).
-/

namespace DistributedChat

open ChatServer

namespace RoomTask

/-- The task is going to send flag 1, and its user will be in the room by then. -/
def Brings (r : Bytes) : RoomTask → Prop
  | owing r' true | found r' _ true => r' = r
  | _ => False

/-- The task is going to add its user to the room and will not send a sync. -/
def Joins (r : Bytes) : RoomTask → Prop
  | found r' _ false => r' = r
  | _ => False

/-- The task is going to send flag 0 if the room stays empty. -/
def Clears (r : Bytes) : RoomTask → Prop
  | leaving r' _ | left r' | owing r' false => r' = r
  | _ => False

instance (r : Bytes) : DecidablePred (Brings r) := fun
  | owing r' true | found r' _ true => inferInstanceAs (Decidable (r' = r))
  | idle | joining _ _ | found _ _ false | leaving _ _ | left _ | owing _ false =>
      instDecidableFalse

instance (r : Bytes) : DecidablePred (Joins r) := fun
  | found r' _ false => inferInstanceAs (Decidable (r' = r))
  | idle | joining _ _ | found _ _ true | leaving _ _ | left _ | owing _ _ => instDecidableFalse

instance (r : Bytes) : DecidablePred (Clears r) := fun
  | leaving r' _ | left r' | owing r' false => inferInstanceAs (Decidable (r' = r))
  | idle | joining _ _ | found _ _ _ | owing _ true => instDecidableFalse

end RoomTask

/-- The flag of the last sync of a room. -/
def lastSync (sent : List (Bytes × Bool)) (r : Bytes) : Option Bool :=
  (sent.reverse.find? fun e => e.1 = r).map (·.2)

theorem lastSync_append (sent : List (Bytes × Bool)) (r' r : Bytes) (b : Bool) :
    lastSync (sent ++ [(r', b)]) r = if r' = r then some b else lastSync sent r := by
  rw [lastSync, List.reverse_append, List.reverse_singleton, List.singleton_append, List.find?_cons]
  by_cases h : r' = r <;> simp [h, lastSync]

/-- The rooms of a server, the syncs it has sent (oldest first), and how far the
task of each of its threads has come. -/
structure RoomTasks (ι : Type) where
  rooms : ChatRoomManager := {}
  sent : List (Bytes × Bool) := []
  hand : ι → RoomTask := fun _ => .idle

/-- What happens to the rooms. -/
inductive RoomAction (ι : Type) where
  | aside (a : RoomAside)
  /-- A thread takes up the join of a user. -/
  | join (t : ι) (r u : Bytes)
  /-- A thread takes up the leave of a user. -/
  | leave (t : ι) (r u : Bytes)
  /-- A thread goes on with its task. -/
  | step (t : ι)

namespace RoomTasks

open RoomTask

variable {ι : Type}

/-- Some thread's task is of a kind. -/
def Has (c : RoomTasks ι) (K : RoomTask → Prop) : Prop := ∃ t, K (c.hand t)

/-- All tasks are done. -/
def Idle (c : RoomTasks ι) : Prop := ∀ t, c.hand t = .idle

/-- Thread `t` goes on to the task `g`. -/
def assign [DecidableEq ι] (c : RoomTasks ι) (t : ι) (g : RoomTask) : RoomTasks ι :=
  { c with hand := Function.update c.hand t g }

/-- Thread `t` has gone on to the task `g`, left the rooms `m` and sent `out`. -/
def perform [DecidableEq ι] (c : RoomTasks ι) (t : ι) (g : RoomTask) (m : ChatRoomManager)
    (out : List (Bytes × Bool)) : RoomTasks ι :=
  { rooms := m, sent := c.sent ++ out, hand := Function.update c.hand t g }

/-- One action. -/
def next [DecidableEq ι] (c : RoomTasks ι) : RoomAction ι → Option (RoomTasks ι)
  | .aside a => some { c with rooms := a.apply c.rooms }
  | .join t r u => if c.hand t = .idle then some (c.assign t (.joining r u)) else none
  | .leave t r u => if c.hand t = .idle then some (c.assign t (.leaving r u)) else none
  | .step t =>
      let (g, m, out) := (c.hand t).proceed c.rooms
      some (c.perform t g m out)

/-- A sync of the room is true of it, or some task will put it right. -/
def Apt (c : RoomTasks ι) (r : Bytes) : Bool → Prop
  | true => c.rooms.getLocalMembers r ≠ [] ∨ c.Has (Clears r)
  | false => (c.rooms.getLocalMembers r = [] ∧ ¬ c.Has (Joins r)) ∨ c.Has (Brings r)

/-- The sync that the task is about to send, if it is, is apt. -/
def Sends (c : RoomTasks ι) : RoomTask → Prop
  | .owing r online => c.Apt r online
  | _ => True

/-- Only apt syncs are sent. -/
def Orderly (c : RoomTasks ι) : RoomAction ι → Prop
  | .step t => c.Sends (c.hand t)
  | _ => True

/-- The last sync of the room had flag 1, or flag 1 is going to be sent. -/
def Online (c : RoomTasks ι) (r : Bytes) : Prop :=
  lastSync c.sent r = some true ∨ c.Has (Brings r)

/-- The last sync of the room did not have flag 1, or the room is going to be cleared. -/
def Offline (c : RoomTasks ι) (r : Bytes) : Prop :=
  lastSync c.sent r ≠ some true ∨ c.Has (Clears r)

/-- There has been a sync of the room, or flag 1 is going to be sent. -/
def Told (c : RoomTasks ι) (r : Bytes) : Prop := lastSync c.sent r ≠ none ∨ c.Has (Brings r)

/-- What is wrong with the last sync of the room will be put right. -/
structure Settling (c : RoomTasks ι) (r : Bytes) : Prop where
  held : c.rooms.getLocalMembers r ≠ [] → c.Online r
  joined : c.Has (Joins r) → c.Online r
  empty : c.rooms.getLocalMembers r = [] → c.Offline r

/-! ## What one step of a task does -/

section

variable {m m' : ChatRoomManager} {g g' : RoomTask} {out : List (Bytes × Bool)} {r : Bytes}

/-- A sync is all there is to its step. -/
theorem out_of_proceed (h : g.proceed m = (g', m', out)) :
    out = [] ∨ ∃ r b, g = .owing r b ∧ out = [(r, b)] ∧ m' = m ∧ g' = .idle := by
  cases g with
  | owing r b =>
      cases h
      exact Or.inr ⟨r, b, rfl, rfl, rfl, rfl⟩
  | idle | joining | found | leaving | left =>
      cases h
      exact Or.inl rfl

/-- Whoever is going to send flag 1 does. -/
theorem brings_of_proceed (h : g.proceed m = (g', m', out)) (hg : g.Brings r) :
    g'.Brings r ∨ out = [(r, true)] := by
  cases g with
  | found r' u empty =>
      cases h
      cases empty with
      | true => exact Or.inl hg
      | false => cases hg
  | owing r' b =>
      cases h
      cases b with
      | true =>
          cases hg
          exact Or.inr rfl
      | false => cases hg
  | idle | joining | leaving | left => cases hg

/-- Whoever is going to clear a room does, if it is empty then. -/
theorem clears_of_proceed (h : g.proceed m = (g', m', out)) (hg : g.Clears r)
    (hm : m'.getLocalMembers r = []) : g'.Clears r ∨ out = [(r, false)] := by
  cases g with
  | leaving r' u =>
      cases h
      exact Or.inl hg
  | left r' =>
      cases h
      cases hg
      rw [if_pos hm]
      exact Or.inl rfl
  | owing r' b =>
      cases h
      cases b with
      | true => cases hg
      | false =>
          cases hg
          exact Or.inr rfl
  | idle | joining | found => cases hg

/-- Who adds a user to an empty room found members in it or is going to send flag 1. -/
theorem members_of_proceed (h : g.proceed m = (g', m', out)) (hm : m'.getLocalMembers r ≠ []) :
    m.getLocalMembers r ≠ [] ∨ g.Joins r ∨ g.Brings r := by
  cases g with
  | found r' u empty =>
      cases h
      by_cases hr : r' = r
      · cases empty with
        | true => exact Or.inr (Or.inr hr)
        | false => exact Or.inr (Or.inl hr)
      · left
        intro hnil
        obtain ⟨v, hv⟩ := List.exists_mem_of_ne_nil _ hm
        rcases (ChatRoomManager.mem_getLocalMembers_joinRoomLocal ..).mp hv with ⟨he, -⟩ | hv
        · exact hr he.symm
        · rw [hnil] at hv
          cases hv
  | leaving r' u =>
      cases h
      left
      intro hnil
      obtain ⟨v, hv⟩ := List.exists_mem_of_ne_nil _ hm
      have hold := ((ChatRoomManager.mem_getLocalMembers_leaveRoomLocal ..).mp hv).2
      rw [hnil] at hold
      cases hold
  | idle | joining | left | owing =>
      cases h
      exact Or.inl hm

/-- Who takes the last user off a room is going to clear it. -/
theorem empty_of_proceed (h : g.proceed m = (g', m', out)) (hm : m'.getLocalMembers r = []) :
    m.getLocalMembers r = [] ∨ g'.Clears r := by
  cases g with
  | found r' u empty =>
      cases h
      left
      refine List.eq_nil_iff_forall_not_mem.mpr fun v hv => ?_
      have hnew := (ChatRoomManager.mem_getLocalMembers_joinRoomLocal m r' r u v).mpr (Or.inr hv)
      rw [hm] at hnew
      cases hnew
  | leaving r' u =>
      cases h
      by_cases hr : r' = r
      · exact Or.inr hr
      · left
        refine List.eq_nil_iff_forall_not_mem.mpr fun v hv => ?_
        have hnew := (ChatRoomManager.mem_getLocalMembers_leaveRoomLocal m r' r u v).mpr
          ⟨fun he => hr he.1.symm, hv⟩
        rw [hm] at hnew
        cases hnew
  | idle | joining | left | owing =>
      cases h
      exact Or.inl hm

/-- Who has found members in a room saw them. -/
theorem joins_of_proceed (h : g.proceed m = (g', m', out)) (hg : g'.Joins r) :
    m.getLocalMembers r ≠ [] := by
  cases g with
  | joining r' u =>
      cases h
      intro hnil
      by_cases hr : r' = r
      · subst hr
        rw [hnil] at hg
        cases hg
      · cases hempty : decide (m.getLocalMembers r' = []) <;> rw [hempty] at hg
        · exact hr hg
        · cases hg
  | found r' u empty =>
      cases h
      split at hg <;> cases hg
  | left r' =>
      cases h
      split at hg <;> cases hg
  | idle | leaving | owing =>
      cases h
      cases hg

end

/-! ## The invariant -/

section

variable [DecidableEq ι] {c c' : RoomTasks ι} {act : RoomAction ι} {K : RoomTask → Prop} {t : ι}
  {g : RoomTask} {m : ChatRoomManager} {out : List (Bytes × Bool)} {r : Bytes}

/-- The task of a thread that goes on, or that of another thread. -/
theorem has_perform : (c.perform t g m out).Has K ↔ K g ∨ ∃ t', t' ≠ t ∧ K (c.hand t') := by
  constructor
  · rintro ⟨t', ht⟩
    change K (Function.update c.hand t g t') at ht
    rw [Function.update_apply] at ht
    split at ht
    · exact Or.inl ht
    next hne => exact Or.inr ⟨t', hne, ht⟩
  · rintro (hg | ⟨t', hne, ht⟩)
    · exact ⟨t, show K (Function.update c.hand t g t) by rwa [Function.update_self]⟩
    · exact ⟨t', show K (Function.update c.hand t g t') by rwa [Function.update_of_ne hne]⟩

/-- A thread that takes up a task has had none. -/
theorem has_assign (hidle : c.hand t = .idle) (hK : ¬ K .idle) :
    (c.assign t g).Has K ↔ K g ∨ c.Has K := by
  rw [show (c.assign t g).Has K ↔ (c.perform t g c.rooms []).Has K from Iff.rfl, has_perform]
  refine or_congr Iff.rfl ⟨fun ⟨t', _, ht⟩ => ⟨t', ht⟩, fun ⟨t', ht⟩ => ⟨t', ?_, ht⟩⟩
  rintro rfl
  rw [hidle] at ht
  exact hK ht

/-- The last sync of a room after a step is the one it was, or the one of the step. -/
theorem lastSync_perform (h : (c.hand t).proceed c.rooms = (g, m, out)) (r : Bytes) :
    (lastSync (c.perform t g m out).sent r = lastSync c.sent r ∧ ∀ b, out ≠ [(r, b)]) ∨
      ∃ b, c.hand t = .owing r b ∧ out = [(r, b)] ∧
        lastSync (c.perform t g m out).sent r = some b := by
  change (lastSync (c.sent ++ out) r = _ ∧ _) ∨ ∃ b, _ ∧ _ ∧ lastSync (c.sent ++ out) r = _
  rcases out_of_proceed h with rfl | ⟨r', b, ht, rfl, -, -⟩
  · rw [List.append_nil]
    exact Or.inl ⟨rfl, fun _ he => nomatch he⟩
  · rw [lastSync_append]
    by_cases hr : r' = r
    · subst hr
      exact Or.inr ⟨b, ht, rfl, if_pos rfl⟩
    · rw [if_neg hr]
      refine Or.inl ⟨rfl, fun b' he => hr ?_⟩
      cases he
      rfl

/-- Who is going to send flag 1 is still going to, or has sent it. -/
theorem brings_perform (h : (c.hand t).proceed c.rooms = (g, m, out)) (hc : c.Has (Brings r)) :
    (c.perform t g m out).Has (Brings r) ∨ out = [(r, true)] := by
  obtain ⟨t', ht⟩ := hc
  by_cases hne : t' = t
  · subst hne
    rcases brings_of_proceed h ht with hg | ho
    · exact Or.inl (has_perform.mpr (Or.inl hg))
    · exact Or.inr ho
  · exact Or.inl (has_perform.mpr (Or.inr ⟨t', hne, ht⟩))

theorem Online.perform (hc : c.Online r) (h : (c.hand t).proceed c.rooms = (g, m, out))
    (hfalse : out = [(r, false)] → c.Has (Brings r)) : (c.perform t g m out).Online r := by
  have hbrings : c.Has (Brings r) → (c.perform t g m out).Online r := by
    intro hb
    rcases brings_perform h hb with hb | rfl
    · exact Or.inr hb
    · exact Or.inl ((lastSync_append ..).trans (if_pos rfl))
  rcases hc with hc | hc
  · rcases lastSync_perform h r with ⟨hlast, -⟩ | ⟨b, -, rfl, hlast⟩
    · exact Or.inl (hlast.trans hc)
    · cases b with
      | true => exact Or.inl hlast
      | false => exact hbrings (hfalse rfl)
  · exact hbrings hc

theorem Offline.perform (hc : c.Offline r) (h : (c.hand t).proceed c.rooms = (g, m, out))
    (hm : m.getLocalMembers r = []) (htrue : out = [(r, true)] → c.Has (Clears r)) :
    (c.perform t g m out).Offline r := by
  have hclears : c.Has (Clears r) → (c.perform t g m out).Offline r := by
    rintro ⟨t', ht⟩
    by_cases hne : t' = t
    · subst hne
      rcases clears_of_proceed h ht hm with hg | rfl
      · exact Or.inr (has_perform.mpr (Or.inl hg))
      · left
        rw [show lastSync (c.perform t' g m [(r, false)]).sent r = some false from
          (lastSync_append ..).trans (if_pos rfl)]
        exact fun he => nomatch he
    · exact Or.inr (has_perform.mpr (Or.inr ⟨t', hne, ht⟩))
  rcases hc with hc | hc
  · rcases lastSync_perform h r with ⟨hlast, -⟩ | ⟨b, -, rfl, hlast⟩
    · exact Or.inl (hlast ▸ hc)
    · cases b with
      | true => exact hclears (htrue rfl)
      | false => exact Or.inl (hlast ▸ fun he => nomatch he)
  · exact hclears hc

/-- A room that has been told of stays so. -/
theorem Told.next (hc : c.Told r) (hn : c.next act = some c') : c'.Told r := by
  cases act with
  | aside a =>
      cases hn
      exact hc
  | join t r' u | leave t r' u =>
      obtain ⟨hidle, he⟩ := Option.ite_none_right_eq_some.mp hn
      cases he
      rcases hc with hc | hc
      · exact Or.inl hc
      · exact Or.inr ((has_assign hidle id).mpr (Or.inr hc))
  | step t =>
      generalize hp : (c.hand t).proceed c.rooms = res at hn
      obtain ⟨g, m, out⟩ := res
      rw [RoomTasks.next, hp] at hn
      cases hn
      rcases hc with hc | hc
      · rcases lastSync_perform hp r with ⟨hlast, -⟩ | ⟨b, -, -, hlast⟩
        · exact Or.inl (hlast ▸ hc)
        · exact Or.inl (hlast ▸ fun he => nomatch he)
      · rcases brings_perform hp hc with hb | rfl
        · exact Or.inr hb
        · left
          rw [show lastSync (c.perform t g m [(r, true)]).sent r = some true from
            (lastSync_append ..).trans (if_pos rfl)]
          exact fun he => nomatch he

theorem Settling.perform (hc : c.Settling r) (ho : c.Orderly (.step t))
    (h : (c.hand t).proceed c.rooms = (g, m, out)) : (c.perform t g m out).Settling r := by
  have hapt : ∀ b, out = [(r, b)] → c.hand t = .owing r b ∧ m = c.rooms ∧ c.Apt r b := by
    rintro b rfl
    rcases out_of_proceed h with he | ⟨r', b', ht, he, hm, -⟩
    · cases he
    · cases he
      rw [Orderly, ht] at ho
      exact ⟨ht, hm, ho⟩
  constructor
  · intro hm
    refine Online.perform ?_ h fun hout => ?_
    · rcases members_of_proceed h hm with hold | hg | hg
      · exact hc.held hold
      · exact hc.joined ⟨t, hg⟩
      · exact Or.inr ⟨t, hg⟩
    · obtain ⟨-, rfl, hfalse⟩ := hapt false hout
      rcases hfalse with ⟨hnil, -⟩ | hb
      · exact absurd hnil hm
      · exact hb
  · intro hj
    have hold : c.Online r ∧ (out = [(r, false)] → c.Has (Joins r)) := by
      rcases has_perform.mp hj with hg | ⟨t', hne, ht⟩
      · refine ⟨hc.held (joins_of_proceed h hg), ?_⟩
        rintro rfl
        obtain ⟨ht, -, -⟩ := hapt false rfl
        rw [ht] at h
        cases h
        cases hg
      · exact ⟨hc.joined ⟨t', ht⟩, fun _ => ⟨t', ht⟩⟩
    refine hold.1.perform h fun hout => ?_
    obtain ⟨-, -, hfalse⟩ := hapt false hout
    rcases hfalse with ⟨-, hnone⟩ | hb
    · exact absurd (hold.2 hout) hnone
    · exact hb
  · intro hm
    rcases empty_of_proceed h hm with hold | hg
    · refine (hc.empty hold).perform h hm fun hout => ?_
      obtain ⟨-, rfl, htrue⟩ := hapt true hout
      rcases htrue with hne | hcl
      · exact absurd hold hne
      · exact hcl
    · exact Or.inr (has_perform.mpr (Or.inl hg))

theorem Settling.assign (hc : c.Settling r) (hidle : c.hand t = .idle) (hg : ¬ g.Joins r) :
    (c.assign t g).Settling r := by
  have honline : c.Online r → (c.assign t g).Online r :=
    Or.imp_right fun h => (has_assign hidle id).mpr (Or.inr h)
  refine ⟨fun hm => honline (hc.held hm), fun hj => honline (hc.joined ?_), fun hm => ?_⟩
  · exact ((has_assign hidle id).mp hj).resolve_left hg
  · exact (hc.empty hm).imp_right fun h => (has_assign hidle id).mpr (Or.inr h)

theorem Settling.next (hc : c.Settling r) (ho : c.Orderly act) (hn : c.next act = some c') :
    c'.Settling r := by
  cases act with
  | aside a =>
      cases hn
      refine ⟨fun hm => hc.held ?_, hc.joined, fun hm => hc.empty ?_⟩
      · exact fun he => hm ((a.members_apply ..).trans he)
      · exact (a.members_apply ..).symm.trans hm
  | join t r' u | leave t r' u =>
      obtain ⟨hidle, he⟩ := Option.ite_none_right_eq_some.mp hn
      cases he
      exact hc.assign hidle id
  | step t =>
      generalize hp : (c.hand t).proceed c.rooms = res at hn
      obtain ⟨g, m, out⟩ := res
      rw [RoomTasks.next, hp] at hn
      cases hn
      exact hc.perform ho hp

omit [DecidableEq ι] in
theorem settling_start (r : Bytes) : ({} : RoomTasks ι).Settling r where
  held := fun hm => absurd rfl hm
  joined := fun ⟨_, ht⟩ => ht.elim
  empty := fun _ => Or.inl fun he => nomatch he

/-- **Room syncs settle.**  If every sync is sent when it is true of its room, or some task is
going to put it right, then once all tasks are done the last sync of a room has flag 1 exactly
when the room has local members, and a room without a sync never had one. -/
theorem room_syncs_settle {as : List (RoomAction ι)} {c : RoomTasks ι}
    (hrun : exec next {} as = some c) (ho : Along next Orderly {} as) (hidle : c.Idle) (r : Bytes) :
    (∀ b, lastSync c.sent r = some b → (b = true ↔ c.rooms.getLocalMembers r ≠ [])) ∧
      (lastSync c.sent r = none → ∀ d, Visits next {} as d → d.rooms.getLocalMembers r = []) := by
  have hnone : ∀ {K : RoomTask → Prop}, ¬ K .idle → ¬ c.Has K := by
    rintro K hK ⟨t, ht⟩
    rw [hidle t] at ht
    exact hK ht
  have hc : c.Settling r :=
    exec_induct (I := fun c => c.Settling r) (fun hI ho hn => hI.next ho hn) (settling_start r)
      ho hrun
  refine ⟨fun b hb => ⟨?_, fun hm => ?_⟩, fun hlast d hd => ?_⟩
  · rintro rfl hm
    rcases hc.empty hm with h | h
    · exact h hb
    · exact hnone id h
  · rcases hc.held hm with h | h
    · exact Option.some.inj (hb.symm.trans h)
    · exact absurd h (hnone id)
  · by_contra hm
    have hd' : d.Settling r :=
      visits_induct (I := fun c => c.Settling r) (fun hI ho hn => hI.next ho hn)
        (settling_start r) ho hrun hd
    have htold : d.Told r := (hd'.held hm).imp_left fun h he => nomatch h.symm.trans he
    obtain ⟨pre, post, rfl, hpre⟩ := hd
    obtain ⟨d', hd₁, hpost⟩ := exec_append_eq_some.mp hrun
    rw [hpre] at hd₁
    cases hd₁
    rcases exec_invariant (I := fun c => c.Told r) (fun hI hn => hI.next hn) htold hpost with h | h
    · exact h hlast
    · exact hnone id h

end

/-! ## Two runs -/

section

variable [Fintype ι] (c : RoomTasks ι)

instance (K : RoomTask → Prop) [DecidablePred K] : Decidable (c.Has K) :=
  inferInstanceAs (Decidable (∃ t, K (c.hand t)))

instance (r : Bytes) (b : Bool) : Decidable (c.Apt r b) :=
  match b with
  | true => inferInstanceAs (Decidable (c.rooms.getLocalMembers r ≠ [] ∨ c.Has (Clears r)))
  | false => inferInstanceAs (Decidable
      ((c.rooms.getLocalMembers r = [] ∧ ¬ c.Has (Joins r)) ∨ c.Has (Brings r)))

instance : DecidablePred c.Sends := fun
  | .owing r online => inferInstanceAs (Decidable (c.Apt r online))
  | .idle | .joining _ _ | .found _ _ _ | .leaving _ _ | .left _ => instDecidableTrue

instance : DecidablePred c.Orderly := fun
  | .step t => inferInstanceAs (Decidable (c.Sends (c.hand t)))
  | .aside _ | .join _ _ _ | .leave _ _ _ => instDecidableTrue

end

/-- One thread is about to send flag 1 when another one has taken the only member off the room. -/
def crossing : List (RoomAction Bool) :=
  [.join false (ascii "r") (ascii "ann"), .step false, .step false,
    .leave true (ascii "r") (ascii "ann"), .step true, .step true]

theorem room_syncs_settle_crossing :
    ∃ c, exec next ({} : RoomTasks Bool) (crossing ++ [.step false, .step true]) = some c ∧
      c.Idle ∧ lastSync c.sent (ascii "r") = some false ∧
      (∀ b, lastSync c.sent (ascii "r") = some b →
        (b = true ↔ c.rooms.getLocalMembers (ascii "r") ≠ [])) := by
  have hrun : (exec next ({} : RoomTasks Bool) (crossing ++ [.step false, .step true])).any fun c =>
      decide ((∀ t, c.hand t = .idle) ∧ lastSync c.sent (ascii "r") = some false) := by
    decide +kernel
  obtain ⟨c, hc, h⟩ := (Option.any_eq_true ..).mp hrun
  obtain ⟨hidle, hlast⟩ := of_decide_eq_true h
  exact ⟨c, hc, hidle, hlast, (room_syncs_settle hc (by decide +kernel) hidle (ascii "r")).1⟩

/-- The flags are sent in the other order, and flag 1 is the last sync of an empty room. -/
theorem late_join_sync :
    ¬ ∀ (as : List (RoomAction Bool)) (c : RoomTasks Bool), exec next {} as = some c → c.Idle →
      ∀ r b, lastSync c.sent r = some b → (b = true ↔ c.rooms.getLocalMembers r ≠ []) := by
  intro hall
  have hrun : (exec next ({} : RoomTasks Bool) (crossing ++ [.step true, .step false])).any fun c =>
      decide ((∀ t, c.hand t = .idle) ∧ lastSync c.sent (ascii "r") = some true ∧
        c.rooms.getLocalMembers (ascii "r") = []) := by decide +kernel
  obtain ⟨c, hc, h⟩ := (Option.any_eq_true ..).mp hrun
  obtain ⟨hidle, hlast, hm⟩ := of_decide_eq_true h
  exact (hall _ c hc hidle (ascii "r") true hlast).mp rfl hm

end RoomTasks

/-! ## The threads that handle joins and leaves -/

/-- The packet of a client that a thread is to handle. -/
inductive RoomRequest where
  | join (k : ConnRef) (payload : Bytes)
  | leave (k : ConnRef) (payload : Bytes)

def RoomRequest.prog : RoomRequest → ServerProg Unit
  | join k payload => handleRoomJoin k payload
  | leave k payload => handleRoomLeave k payload

theorem RoomRequest.completes (w : RoomRequest) (id p : Int) (x : ConnRef) :
    RoomTask.Completes id p x w.prog (some .idle) := by
  cases w with
  | join k payload => exact RoomTask.completes_handleRoomJoin k payload
  | leave k payload => exact RoomTask.completes_handleRoomLeave k payload

/-- The threads of a server, each with a join or a leave to handle. -/
abbrev RoomThreads (ι : Type) := Pool ι ChatServer Effect RoomRequest

/-- What a thread does. -/
inductive RoomThreadAction (ι : Type) where
  | launch (t : ι) (w : RoomRequest)
  | run (t : ι)
  | finish (t : ι)

def RoomThreads.next {ι : Type} [DecidableEq ι] (P : RoomThreads ι) :
    RoomThreadAction ι → Option (RoomThreads ι)
  | .launch t w => P.launch t w w.prog
  | .run t => P.advance t
  | .finish t => P.finish t

namespace RoomTasks

/-- The tasks are as far as the threads, and the syncs are the frames to peer `p`. -/
structure Mirrors {ι : Type} (id p : Int) (x : ConnRef) (c : RoomTasks ι) (P : RoomThreads ι) :
    Prop where
  rooms : c.rooms = P.state.roomManager
  sent : sentTo p P.out = c.sent.map (syncPacket id)
  free : ∀ {t}, P.running t = none → c.hand t = .idle
  busy : ∀ {t j}, P.running t = some j → RoomTask.Completes id p x j.rest (some (c.hand t))

section

variable {ι : Type} [DecidableEq ι] {id p : Int} {x : ConnRef} {c c' : RoomTasks ι}
  {P P' : RoomThreads ι} {t : ι}

/-- A section of a thread, as an action. -/
theorem exec_of_moves {s s' : ChatServer} {out : List Effect} {g' : Option RoomTask}
    (hlink : s.Linked id p x) (hs : c.rooms = s.roomManager)
    (h : RoomTask.Moves id p x (some (c.hand t)) s out s' g') :
    ∃ act c' sent, c.next act = some c' ∧ c'.rooms = s'.roomManager ∧ c'.sent = c.sent ++ sent ∧
      sentTo p out = sent.map (syncPacket id) ∧ some (c'.hand t) = g' ∧
      ∀ t', t' ≠ t → c'.hand t' = c.hand t' := by
  generalize hg : c.hand t = g at h
  cases h with
  | aside a g s hs' hout =>
      exact ⟨.aside a, _, [], rfl, hs ▸ hs'.symm, (List.append_nil _).symm, hout, congrArg some hg,
        fun _ _ => rfl⟩
  | join r u s =>
      refine ⟨.join t r u, _, [], if_pos hg, hs, (List.append_nil _).symm, rfl, ?_, fun t' ht => ?_⟩
      · exact congrArg some (Function.update_self ..)
      · exact Function.update_of_ne ht ..
  | leave r u s =>
      refine ⟨.leave t r u, _, [], if_pos hg, hs, (List.append_nil _).symm, rfl, ?_, fun t' ht => ?_⟩
      · exact congrArg some (Function.update_self ..)
      · exact Function.update_of_ne ht ..
  | @step _ g' _ _ _ sent hp hout =>
      rw [← hg, ← hs] at hp
      refine ⟨.step t, c.perform t g' s'.roomManager sent, sent, ?_, rfl, rfl, hout, ?_, ?_⟩
      · rw [RoomTasks.next, hp]
      · exact congrArg some (Function.update_self ..)
      · exact fun t' ht => Function.update_of_ne ht ..
  | cut g out s' hcut => exact absurd hlink hcut

theorem Mirrors.launch {w : RoomRequest} (h : c.Mirrors id p x P)
    (hP : P.launch t w w.prog = some P') : c.Mirrors id p x P' := by
  obtain ⟨hfree, rfl⟩ := Pool.launch_eq_some.mp hP
  refine ⟨h.rooms, h.sent, fun {t'} ht => ?_, fun {t' j} ht => ?_⟩ <;>
    change (P.assign t _).running t' = _ at ht <;> rw [Pool.running_assign] at ht <;> split at ht
  · cases ht
  · exact h.free ht
  next he =>
    cases ht
    rw [he, h.free hfree]
    exact w.completes id p x
  · exact h.busy ht

theorem Mirrors.finish (h : c.Mirrors id p x P) (hP : P.finish t = some P') :
    c.Mirrors id p x P' := by
  obtain ⟨j, hj, hend, rfl⟩ := Pool.finish_eq_some.mp hP
  have hidle : c.hand t = .idle := by
    obtain ⟨-, hg | hg⟩ := (h.busy hj).ended hend
    · exact Option.some.inj hg
    · cases hg
  refine ⟨h.rooms, h.sent, fun {t'} ht => ?_, fun {t' j} ht => ?_⟩ <;>
    rw [Pool.running_assign] at ht <;> split at ht
  next he => exact he ▸ hidle
  · exact h.free ht
  · cases ht
  · exact h.busy ht

theorem Mirrors.advance (h : c.Mirrors id p x P) (hlink : P.state.Linked id p x)
    (hP : P.advance t = some P') :
    ∃ act c', c.next act = some c' ∧ c'.Mirrors id p x P' := by
  obtain ⟨j, sec, hj, hsec, rfl⟩ := Pool.advance_eq_some.mp hP
  obtain ⟨g', hmove, hrest⟩ := (h.busy hj).section hsec
  obtain ⟨act, c', sent, hn, hrooms, hsent, hout, hhand, hother⟩ :=
    exec_of_moves hlink h.rooms hmove
  refine ⟨act, c', hn, hrooms, ?_, fun {t'} ht => ?_, fun {t' j'} ht => ?_⟩
  · rw [hsent, List.map_append, ← h.sent, ← hout]
    exact List.filterMap_append ..
  · rw [Pool.running_perform] at ht
    split at ht
    · cases ht
    next hne => exact (hother t' hne).trans (h.free ht)
  · rw [Pool.running_perform] at ht
    split at ht
    next he =>
      cases ht
      rw [he, hhand]
      exact hrest
    next hne => exact (hother t' hne).symm ▸ h.busy ht

/-- While the link of a peer is up, a run of threads that handle joins and leaves is a run of
tasks: the rooms are the same, and the syncs are the frames that the peer is sent. -/
theorem tasks_of_threads {s : ChatServer} (hs : s.roomManager = {})
    {as : List (RoomThreadAction ι)} {P : RoomThreads ι}
    (hlink : Along RoomThreads.next (fun Q _ => Q.state.Linked id p x) { state := s } as)
    (hrun : exec RoomThreads.next { state := s } as = some P) :
    ∃ bs c, exec next ({} : RoomTasks ι) bs = some c ∧ c.rooms = P.state.roomManager ∧
      sentTo p P.out = c.sent.map (syncPacket id) ∧ (P.Idle → c.Idle) := by
  have hstart : ({} : RoomTasks ι).Mirrors id p x ({ state := s } : RoomThreads ι) :=
    ⟨hs.symm, rfl, fun _ => rfl, (fun h => nomatch h)⟩
  have hkeep := exec_induct (I := fun P : RoomThreads ι => ∃ bs c,
    exec next ({} : RoomTasks ι) bs = some c ∧ c.Mirrors id p x P) ?_ ⟨[], {}, rfl, hstart⟩ hlink hrun
  · obtain ⟨bs, c, hbs, hc⟩ := hkeep
    exact ⟨bs, c, hbs, hc.rooms, hc.sent, fun hidle t => hc.free (hidle.2 t)⟩
  · rintro P act P' ⟨bs, c, hbs, hc⟩ hup hn
    cases act with
    | launch t w => exact ⟨bs, c, hbs, hc.launch hn⟩
    | run t =>
        obtain ⟨act, c', hn', hc'⟩ := hc.advance hup hn
        refine ⟨bs ++ [act], c', exec_append_eq_some.mpr ⟨c, hbs, ?_⟩, hc'⟩
        exact exec_cons_eq_some.mpr ⟨c', hn', rfl⟩
    | finish t => exact ⟨bs, c, hbs, hc.finish hn⟩

end

end RoomTasks

end DistributedChat
