import Mathlib.Data.List.Forall2
import Mathlib.Data.Set.Insert
import Mathlib.Logic.Function.Basic

/-!
# A chat service

What a chat service is for, with people, names, rooms and texts of any kind.  Somebody
who is there may take a name that nobody has, and then send texts to the one with a
name, to the people in a room, or to everybody with a name, and go into rooms and out
of them.  `told` says what each of the others, and the one who acts, is told about it.

The state is a structure in which names are unique and only people with a name are in
rooms, so there is nothing to be said about states that are not so.
-/

universe u v w x

/-- Who is there, under which names and in which rooms. -/
@[ext]
structure ChatService (ι : Type u) (ν : Type v) (ρ : Type w) where
  here : Set ι
  name : ι → Option ν
  rooms : ι → Set ρ
  name_here : ∀ {i a}, name i = some a → i ∈ here
  name_inj : ∀ {i j a}, name i = some a → name j = some a → i = j
  rooms_named : ∀ {i r}, r ∈ rooms i → name i ≠ none

namespace ChatService

/-- What people ask for. -/
inductive Request (ν : Type v) (ρ : Type w) (τ : Type x) where
  /-- To have a name. -/
  | enter (a : ν)
  /-- To have a name that cannot be one. -/
  | misname
  | whisper (a : ν) (text : τ)
  | say (r : ρ) (text : τ)
  | shout (text : τ)
  | join (r : ρ)
  | leave (r : ρ)
  | create (r : ρ)
  | nothing

/-- It is a request for a name. -/
def Request.ForName {ν : Type v} {ρ : Type w} {τ : Type x} : Request ν ρ τ → Prop
  | enter _ | misname => True
  | _ => False

/-- What people do. -/
inductive Act (ι : Type u) (ν : Type v) (ρ : Type w) (τ : Type x) where
  | comes (i : ι)
  | asks (i : ι) (q : Request ν ρ τ)
  | goes (i : ι)

/-- What people are told. -/
inductive Line (ν : Type v) (ρ : Type w) (τ : Type x) where
  | welcome
  | badName
  | nameTaken
  | nameFirst
  /-- Who has a name. -/
  | users (names : Set ν)
  | whispered (a : ν) (text : τ)
  | delivered (a : ν)
  | offline
  | said (a : ν) (r : ρ) (text : τ)
  | joinFirst
  | shouted (a : ν) (text : τ)
  | joined (r : ρ)
  | entered (a : ν) (r : ρ)
  | left (r : ρ)
  | departed (a : ν) (r : ρ)
  | created (r : ρ)

variable {ι : Type u} {ν : Type v} {ρ : Type w} {τ : Type x}

/-- Nobody is there. -/
def nobody : ChatService ι ν ρ where
  here := ∅
  name _ := none
  rooms _ := ∅
  name_here h := Option.noConfusion rfl (heq_of_eq h)
  name_inj h := Option.noConfusion rfl (heq_of_eq h)
  rooms_named h := h.elim

variable (s : ChatService ι ν ρ)

/-- The names that people have. -/
def online : Set ν := {a | ∃ i, s.name i = some a}

/-- They have a name. -/
def Known (i : ι) : Prop := s.name i ≠ none

/-! ## What happens -/

def come (i : ι) : ChatService ι ν ρ where
  here := insert i s.here
  name := s.name
  rooms := s.rooms
  name_here h := Set.mem_insert_of_mem _ (s.name_here h)
  name_inj := s.name_inj
  rooms_named := s.rooms_named

section

open Classical

noncomputable def enter (i : ι) (a : ν) (hi : i ∈ s.here) (ha : a ∉ s.online) :
    ChatService ι ν ρ where
  here := s.here
  name := Function.update s.name i (some a)
  rooms := s.rooms
  name_here {j b} h := by
    rw [Function.update_apply] at h
    split at h
    next hj => exact hj ▸ hi
    next => exact s.name_here h
  name_inj {j k b} hj hk := by
    have hold {j : ι} (h : Function.update s.name i (some a) j = some b) :
        j = i ∧ b = a ∨ j ≠ i ∧ s.name j = some b := by
      rw [Function.update_apply] at h
      split at h
      next hj => exact Or.inl ⟨hj, (Option.some.inj h).symm⟩
      next hj => exact Or.inr ⟨hj, h⟩
    rcases hold hj with ⟨hij, hab⟩ | ⟨-, hj'⟩
    · rcases hold hk with ⟨hik, -⟩ | ⟨-, hk'⟩
      · exact hij.trans hik.symm
      · exact absurd ⟨k, hab ▸ hk'⟩ ha
    · rcases hold hk with ⟨-, hab⟩ | ⟨-, hk'⟩
      · exact absurd ⟨j, hab ▸ hj'⟩ ha
      · exact s.name_inj hj' hk'
  rooms_named {j r} h := by
    rw [Function.update_apply]
    split
    · exact Option.some_ne_none a
    · exact s.rooms_named h

noncomputable def join (i : ι) (r : ρ) (hi : s.Known i) : ChatService ι ν ρ where
  here := s.here
  name := s.name
  rooms := Function.update s.rooms i (insert r (s.rooms i))
  name_here := s.name_here
  name_inj := s.name_inj
  rooms_named {j r'} h := by
    rw [Function.update_apply] at h
    split at h
    next hj => exact hj ▸ hi
    next => exact s.rooms_named h

noncomputable def leave (i : ι) (r : ρ) : ChatService ι ν ρ where
  here := s.here
  name := s.name
  rooms := Function.update s.rooms i (s.rooms i \ {r})
  name_here := s.name_here
  name_inj := s.name_inj
  rooms_named {j r'} h := by
    rw [Function.update_apply] at h
    split at h
    next hj => exact hj ▸ s.rooms_named h.1
    next => exact s.rooms_named h

noncomputable def go (i : ι) : ChatService ι ν ρ where
  here := s.here \ {i}
  name := Function.update s.name i none
  rooms := Function.update s.rooms i ∅
  name_here {j a} h := by
    rw [Function.update_apply] at h
    split at h
    next => cases h
    next hj => exact ⟨s.name_here h, hj⟩
  name_inj {j k a} hj hk := by
    rw [Function.update_apply] at hj hk
    split at hj
    next => cases hj
    next =>
      split at hk
      next => cases hk
      next => exact s.name_inj hj hk
  rooms_named {j r} h := by
    rw [Function.update_apply] at h ⊢
    split at h
    next => exact h.elim
    next hj => exact (if_neg hj).symm ▸ s.rooms_named h

section

variable {s} {i j : ι} {a b : ν} {r r' : ρ}

@[simp] theorem mem_here_come : j ∈ (s.come i).here ↔ j = i ∨ j ∈ s.here := Iff.rfl

@[simp] theorem name_come : (s.come i).name = s.name := rfl

@[simp] theorem rooms_come : (s.come i).rooms = s.rooms := rfl

theorem name_enter {hi : i ∈ s.here} {ha : a ∉ s.online} :
    (s.enter i a hi ha).name j = some b ↔ j = i ∧ b = a ∨ j ≠ i ∧ s.name j = some b := by
  change Function.update s.name i (some a) j = some b ↔ _
  rw [Function.update_apply]
  split
  next hj => simp [hj, eq_comm]
  next hj => simp [hj]

theorem not_mem_online_nobody : a ∉ (nobody : ChatService ι ν ρ).online := by
  rintro ⟨i, hi⟩
  cases hi

theorem known_iff : s.Known i ↔ ∃ a, s.name i = some a := Option.ne_none_iff_exists'

theorem known_enter {hi : i ∈ s.here} {ha : a ∉ s.online} :
    (s.enter i a hi ha).Known j ↔ j = i ∨ s.Known j := by
  simp only [known_iff, name_enter]
  by_cases hj : j = i <;> simp [hj]

theorem online_enter (hi : i ∈ s.here) (ha : a ∉ s.online) (hn : s.name i = none) :
    (s.enter i a hi ha).online = insert a s.online := by
  ext b
  simp only [online, Set.mem_ofPred_eq, name_enter, Set.mem_insert_iff]
  constructor
  · rintro ⟨j, ⟨-, hb⟩ | ⟨-, hj⟩⟩
    · exact Or.inl hb
    · exact Or.inr ⟨j, hj⟩
  · rintro (hb | ⟨j, hj⟩)
    · exact ⟨i, Or.inl ⟨rfl, hb⟩⟩
    · refine ⟨j, Or.inr ⟨fun he => ?_, hj⟩⟩
      rw [he, hn] at hj
      cases hj

theorem mem_rooms_join {hi : s.Known i} :
    r' ∈ (s.join i r hi).rooms j ↔ j = i ∧ r' = r ∨ r' ∈ s.rooms j := by
  change r' ∈ Function.update s.rooms i (insert r (s.rooms i)) j ↔ _
  rw [Function.update_apply]
  split
  next hj => simp [hj]
  next hj => simp [hj]

theorem mem_rooms_leave :
    r' ∈ (s.leave i r).rooms j ↔ ¬ (j = i ∧ r' = r) ∧ r' ∈ s.rooms j := by
  change r' ∈ Function.update s.rooms i (s.rooms i \ {r}) j ↔ _
  rw [Function.update_apply]
  split
  next hj => simp [hj, and_comm]
  next hj => simp [hj]

/-- Who is not in a room cannot leave it. -/
theorem leave_of_not_mem (h : r ∉ s.rooms i) : s.leave i r = s := by
  have hsame : s.rooms i \ {r} = s.rooms i := by
    ext r'
    exact ⟨And.left, fun hr' => ⟨hr', fun he => h (he ▸ hr')⟩⟩
  refine ChatService.ext rfl rfl ?_
  change Function.update s.rooms i (s.rooms i \ {r}) = s.rooms
  rw [hsame, Function.update_eq_self]

theorem mem_here_go : j ∈ (s.go i).here ↔ j ∈ s.here ∧ j ≠ i := Iff.rfl

theorem name_go : (s.go i).name j = some a ↔ s.name j = some a ∧ j ≠ i := by
  change Function.update s.name i none j = some a ↔ _
  rw [Function.update_apply]
  split
  next hj => simp [hj]
  next hj => simp [hj]

theorem known_go : (s.go i).Known j ↔ j ≠ i ∧ s.Known j := by
  simp only [known_iff, name_go]
  exact ⟨fun ⟨a, hj, hne⟩ => ⟨hne, a, hj⟩, fun ⟨hne, a, hj⟩ => ⟨a, hj, hne⟩⟩

theorem mem_rooms_go : r ∈ (s.go i).rooms j ↔ r ∈ s.rooms j ∧ j ≠ i := by
  change r ∈ Function.update s.rooms i ∅ j ↔ _
  rw [Function.update_apply]
  split
  next hj => simp [hj]
  next hj => simp [hj]

end

/-- The service after somebody has done something. -/
noncomputable def next : Act ι ν ρ τ → ChatService ι ν ρ
  | .comes i => s.come i
  | .asks i (.enter a) => if h : i ∈ s.here ∧ a ∉ s.online then s.enter i a h.1 h.2 else s
  | .asks i (.join r) => if h : s.Known i then s.join i r h else s
  | .asks i (.leave r) => s.leave i r
  | .asks _ _ => s
  | .goes i => s.go i

/-! ## What people are told -/

/-- The one thing, in one case. -/
noncomputable def given {α : Type x} (p : Prop) (a : α) : List α := if p then [a] else []

/-- What `j` is told when `i`, who has the name `a`, asks for something. -/
noncomputable def answer (i : ι) (a : ν) (j : ι) : Request ν ρ τ → List (Line ν ρ τ)
  | .whisper b text =>
      if b ∈ s.online then
        given (s.name j = some b) (.whispered a text) ++ given (j = i) (.delivered b)
      else given (j = i) .offline
  | .say r text =>
      if r ∈ s.rooms i then given (r ∈ s.rooms j) (.said a r text) else given (j = i) .joinFirst
  | .shout text => given (s.Known j) (.shouted a text)
  | .join r => given (j = i) (.joined r) ++ given (j = i ∨ r ∈ s.rooms j) (.entered a r)
  | .leave r =>
      if r ∈ s.rooms i then
        given (j = i) (.left r) ++ given (j ≠ i ∧ r ∈ s.rooms j) (.departed a r)
      else []
  | .create r => given (j = i) (.created r)
  | .enter _ | .misname | .nothing => []

/-- What `j` is told about it. -/
noncomputable def told (j : ι) : Act ι ν ρ τ → List (Line ν ρ τ)
  | .comes _ => []
  | .asks i .misname => given (j = i) .badName
  | .asks i (.enter a) =>
      if a ∈ s.online then given (j = i) .nameTaken
      else given (j = i) .welcome ++
        given (j = i ∨ s.Known j) (.users (insert a s.online))
  | .asks i q =>
      match s.name i with
      | none => given (j = i) .nameFirst
      | some a => s.answer i a j q
  | .goes i =>
      match s.name i with
      | none => []
      | some a => given (j ≠ i ∧ s.Known j) (.users (s.online \ {a}))

end

/-- The service after all that. -/
noncomputable def after : List (Act ι ν ρ τ) → ChatService ι ν ρ
  | acts => acts.foldl next s

/-! ## What is told in one case -/

section

variable {s} {i j : ι} {a : ν} {q : Request ν ρ τ}

theorem given_of {α : Type x} {p : Prop} (h : p) (a : α) : given p a = [a] := if_pos h

theorem given_of_not {α : Type x} {p : Prop} (h : ¬ p) (a : α) : given p a = [] := if_neg h

theorem forall₂_given {α : Type*} {β : Type*} {R : α → β → Prop} {p q : Prop} {a : α} {b : β}
    (hpq : p ↔ q) (hab : p → R a b) : List.Forall₂ R (given p a) (given q b) := by
  by_cases hp : p
  · rw [given_of hp, given_of (hpq.mp hp)]
    exact .cons (hab hp) .nil
  · rw [given_of_not hp, given_of_not (mt hpq.mpr hp)]
    exact .nil

/-- Somebody without a name gets nothing but one. -/
theorem told_asks_of_guest (hi : s.name i = none) (hq : ¬ q.ForName) :
    s.told j (.asks i q) = given (j = i) .nameFirst := by
  cases q with
  | enter | misname => exact absurd trivial hq
  | whisper | say | shout | join | leave | create | nothing => rw [told, hi] <;> simp

theorem told_asks_of_known (hi : s.name i = some a) (hq : ¬ q.ForName) :
    s.told j (.asks i q) = s.answer i a j q := by
  cases q with
  | enter | misname => exact absurd trivial hq
  | whisper | say | shout | join | leave | create | nothing => rw [told, hi] <;> simp

theorem next_asks_of_guest (hi : s.name i = none) (hq : ¬ q.ForName) :
    s.next (.asks i q) = s := by
  cases q with
  | enter | misname => exact absurd trivial hq
  | join r => exact dif_neg fun h => h hi
  | leave r => exact leave_of_not_mem fun h => s.rooms_named h hi
  | whisper | say | shout | create | nothing => rfl

/-- Whoever has a name has taken it. -/
theorem known_next {act : Act ι ν ρ τ} (h : (s.next act).Known j) :
    s.Known j ∨ ∃ a, act = .asks j (.enter a) := by
  cases act with
  | comes i => exact Or.inl h
  | goes i => exact Or.inl (known_go.mp h).2
  | asks i q =>
      cases q with
      | enter a =>
          rw [next] at h
          split at h
          next =>
            rcases known_enter.mp h with rfl | h
            · exact Or.inr ⟨a, rfl⟩
            · exact Or.inl h
          next => exact Or.inl h
      | join r =>
          rw [next] at h
          split at h
          next => exact Or.inl h
          next => exact Or.inl h
      | misname | whisper | say | shout | leave | create | nothing => exact Or.inl h

end

/-- What `j` is told about all that. -/
noncomputable def conversation (j : ι) : ChatService ι ν ρ → List (Act ι ν ρ τ) → List (Line ν ρ τ)
  | _, [] => []
  | s, act :: acts => s.told j act ++ conversation j (s.next act) acts

/-! ## Nothing is made up -/

section

variable (N : ν → Prop) (R : ρ → Prop) (T : τ → Prop)

/-- The names, rooms and texts in a request are of a kind. -/
def Request.Of : Request ν ρ τ → Prop
  | enter a => N a
  | whisper a text => N a ∧ T text
  | say r text => R r ∧ T text
  | shout text => T text
  | join r | leave r | create r => R r
  | misname | nothing => True

def Act.Of : Act ι ν ρ τ → Prop
  | asks _ q => q.Of N R T
  | comes _ | goes _ => True

/-- The names, rooms and texts people are told are of a kind. -/
def Line.Of : Line ν ρ τ → Prop
  | users names => ∀ a ∈ names, N a
  | whispered a text | shouted a text => N a ∧ T text
  | delivered a => N a
  | said a r text => N a ∧ R r ∧ T text
  | joined r | left r | created r => R r
  | entered a r | departed a r => N a ∧ R r
  | welcome | badName | nameTaken | nameFirst | offline | joinFirst => True

variable {N R T} {s} {i j : ι} {a : ν} {q : Request ν ρ τ} {act : Act ι ν ρ τ}

theorem mem_given {α : Type x} {p : Prop} {b c : α} : b ∈ given p c ↔ p ∧ b = c := by
  by_cases hp : p
  · rw [given_of hp, List.mem_singleton, and_iff_right hp]
  · rw [given_of_not hp]
    exact iff_of_false List.not_mem_nil fun h => hp h.1

theorem of_answer (ha : N a) (hq : q.Of N R T) : ∀ line ∈ s.answer i a j q, line.Of N R T := by
  intro line hline
  cases q with
  | whisper b text =>
      rw [answer] at hline
      split at hline
      · rcases List.mem_append.mp hline with h | h
        · exact (mem_given.mp h).2 ▸ ⟨ha, hq.2⟩
        · exact (mem_given.mp h).2 ▸ hq.1
      · exact (mem_given.mp hline).2 ▸ trivial
  | say r text =>
      rw [answer] at hline
      split at hline
      · exact (mem_given.mp hline).2 ▸ ⟨ha, hq.1, hq.2⟩
      · exact (mem_given.mp hline).2 ▸ trivial
  | shout text => exact (mem_given.mp hline).2 ▸ ⟨ha, hq⟩
  | join r =>
      rcases List.mem_append.mp hline with h | h
      · exact (mem_given.mp h).2 ▸ hq
      · exact (mem_given.mp h).2 ▸ ⟨ha, hq⟩
  | leave r =>
      rw [answer] at hline
      split at hline
      · rcases List.mem_append.mp hline with h | h
        · exact (mem_given.mp h).2 ▸ hq
        · exact (mem_given.mp h).2 ▸ ⟨ha, hq⟩
      · cases hline
  | create r => exact (mem_given.mp hline).2 ▸ hq
  | enter | misname | nothing => cases hline

/-- One more thing that people do, and the names are of the kind they were of. -/
theorem of_next (hs : ∀ a ∈ s.online, N a) (hact : act.Of N R T) :
    ∀ a ∈ (s.next act).online, N a := by
  intro b hb
  cases act with
  | comes i => exact hs b hb
  | goes i =>
      obtain ⟨j, hj⟩ := hb
      exact hs b ⟨j, (name_go.mp hj).1⟩
  | asks i q =>
      cases q with
      | enter a =>
          rw [next] at hb
          split at hb
          next =>
            obtain ⟨j, hj⟩ := hb
            rcases name_enter.mp hj with ⟨-, rfl⟩ | ⟨-, hj⟩
            · exact hact
            · exact hs b ⟨j, hj⟩
          next => exact hs b hb
      | join r =>
          rw [next] at hb
          split at hb
          next => exact hs b hb
          next => exact hs b hb
      | misname | whisper | say | shout | leave | create | nothing => exact hs b hb

theorem of_told (hs : ∀ a ∈ s.online, N a) (hact : act.Of N R T) :
    ∀ line ∈ s.told j act, line.Of N R T := by
  intro line hline
  cases act with
  | comes i => cases hline
  | goes i =>
      rw [told] at hline
      split at hline
      · cases hline
      · exact (mem_given.mp hline).2 ▸ fun b hb => hs b hb.1
  | asks i q =>
      by_cases hq : q.ForName
      · cases q with
        | misname => exact (mem_given.mp hline).2 ▸ trivial
        | enter a =>
            rw [told] at hline
            split at hline
            · exact (mem_given.mp hline).2 ▸ trivial
            · rcases List.mem_append.mp hline with h | h
              · exact (mem_given.mp h).2 ▸ trivial
              · refine (mem_given.mp h).2 ▸ fun b hb => ?_
                rcases hb with rfl | hb
                · exact hact
                · exact hs b hb
        | whisper | say | shout | join | leave | create | nothing => exact hq.elim
      · cases hi : s.name i with
        | none =>
            rw [told_asks_of_guest hi hq] at hline
            exact (mem_given.mp hline).2 ▸ trivial
        | some a =>
            rw [told_asks_of_known hi hq] at hline
            exact of_answer (hs a ⟨i, hi⟩) hact line hline

/-- Whatever anybody is told of was in what somebody did. -/
theorem of_conversation {acts : List (Act ι ν ρ τ)} (hs : ∀ a ∈ s.online, N a)
    (hacts : ∀ act ∈ acts, act.Of N R T) : ∀ line ∈ conversation j s acts, line.Of N R T := by
  induction acts generalizing s with
  | nil => exact fun line hline => absurd hline List.not_mem_nil
  | cons act acts ih =>
      intro line hline
      have hact := hacts act (List.mem_cons_self ..)
      rcases List.mem_append.mp hline with h | h
      · exact of_told hs hact line h
      · exact ih (of_next hs hact) (fun b hb => hacts b (List.mem_cons_of_mem _ hb)) line h

end

end ChatService
