import WorkBroker.Proofs.Queue.Messages
/-!
A queue keeps the whereabouts of a message several times over: in the message, in a lane or in the
list of appointments, and in the counters.  `Coherent` says that they agree.  Every operation takes
a message out of the structures, changes it and puts it back, so coherence is proved for these two
halves: `Joins b m q` says that `q` is `b` with `m` in its place.
-/

set_option autoImplicit false
set_option relaxedAutoImplicit false

namespace WorkBroker

def MessageState.token? : MessageState → Option Nat
  | .running token _ _ => some token
  | _ => none

namespace Message

def waitsIn (lane : Nat) (id : String) (m : Message) : Bool :=
  m.state == .queued && m.lane == lane && m.id == id

def isParkedAs (id : String) (m : Message) : Bool := m.state == .delayed && m.id == id

end Message

namespace Queue

/-- The ids in a lane, front first; a lane that does not exist is empty. -/
def lane (q : Queue) (i : Nat) : List String := q.lanes.getD i []

def tokens (q : Queue) : List Nat := q.messages.filterMap (·.state.token?)

/-- The lanes, the appointments, the counters and the messages agree with one another. -/
structure Coherent (q : Queue) : Prop where
  nodup_ids : q.ids.Nodup
  count_lane : ∀ i id, (q.lane i).count id = q.messages.countP (·.waitsIn i id)
  count_delayed : ∀ id, (q.delayed.map (·.id)).count id = q.messages.countP (·.isParkedAs id)
  sorted_delayed : q.delayed.Pairwise fun a b => a.before b
  nodup_numbers : (q.delayed.map (·.number)).Nodup
  number_lt : ∀ a ∈ q.delayed, a.number < q.nextNumber
  queued_eq : q.queued = q.messages.countP (·.state == .queued)
  failed_eq : q.failed = q.messages.countP (·.state == .failed)
  nodup_tokens : q.tokens.Nodup
  token_lt : ∀ t ∈ q.tokens, t < q.nextToken
  lane_home : ∀ m ∈ q.messages, m.lane = 0 ∨ m.lane = m.priority
  priority_lt : ∀ m ∈ q.messages, m.priority < q.lanes.length

/-- One queue is another one with a message in its place. -/
structure Joins (b : Queue) (m : Message) (q : Queue) : Prop where
  messages : q.messages.Perm (m :: b.messages)
  lanes_length : q.lanes.length = b.lanes.length
  count_lane : ∀ i id, (q.lane i).count id = (b.lane i).count id + if m.waitsIn i id then 1 else 0
  count_delayed : ∀ id, (q.delayed.map (·.id)).count id =
    (b.delayed.map (·.id)).count id + if m.isParkedAs id then 1 else 0
  queued : q.queued = b.queued + if m.state == .queued then 1 else 0
  failed : q.failed = b.failed + if m.state == .failed then 1 else 0

namespace Joins

variable {b q : Queue} {m : Message}

private theorem ids_perm (j : Joins b m q) : q.ids.Perm (m.id :: b.ids) := j.messages.map _

private theorem tokens_perm (j : Joins b m q) :
    q.tokens.Perm (m.state.token?.toList ++ b.tokens) := by
  have h := j.messages.filterMap (·.state.token?)
  rw [List.filterMap_cons] at h
  cases ht : m.state.token? with
  | none => simpa [tokens, ht] using h
  | some t => simpa [tokens, ht] using h

private theorem countP (j : Joins b m q) (p : Message → Bool) :
    q.messages.countP p = b.messages.countP p + if p m then 1 else 0 := by
  rw [j.messages.countP_eq, List.countP_cons]

private theorem mem_iff (j : Joins b m q) {n : Message} :
    n ∈ q.messages ↔ n = m ∨ n ∈ b.messages := by
  rw [j.messages.mem_iff, List.mem_cons]

theorem of_away (messages : q.messages.Perm (m :: b.messages)) (away : m.state ≠ .queued)
    (away' : m.state ≠ .delayed) (lanes : q.lanes = b.lanes) (delayed : q.delayed = b.delayed)
    (queued : q.queued = b.queued)
    (failed : q.failed = b.failed + if m.state == .failed then 1 else 0) : Joins b m q where
  messages := messages
  lanes_length := congrArg List.length lanes
  count_lane i id := by simp [lane, lanes, Message.waitsIn, away]
  count_delayed id := by simp [delayed, Message.isParkedAs, away']
  queued := by simp [queued, away]
  failed := failed

theorem coherent_left (j : Joins b m q) (hq : q.Coherent) (delayed : b.delayed.Sublist q.delayed)
    (number : b.nextNumber = q.nextNumber) (token : b.nextToken = q.nextToken) :
    b.Coherent where
  nodup_ids := (List.nodup_cons.mp (j.ids_perm.nodup_iff.mp hq.nodup_ids)).2
  count_lane i id := by
    have h := hq.count_lane i id
    rw [j.count_lane, j.countP] at h
    omega
  count_delayed id := by
    have h := hq.count_delayed id
    rw [j.count_delayed, j.countP] at h
    omega
  sorted_delayed := hq.sorted_delayed.sublist delayed
  nodup_numbers := hq.nodup_numbers.sublist (delayed.map _)
  number_lt a ha := number ▸ hq.number_lt a (delayed.subset ha)
  queued_eq := by
    have h := hq.queued_eq
    rw [j.queued, j.countP] at h
    omega
  failed_eq := by
    have h := hq.failed_eq
    rw [j.failed, j.countP] at h
    omega
  nodup_tokens := (List.nodup_append.mp (j.tokens_perm.nodup_iff.mp hq.nodup_tokens)).2.1
  token_lt t ht :=
    token ▸ hq.token_lt t (j.tokens_perm.mem_iff.mpr (List.mem_append_right _ ht))
  lane_home n hn := hq.lane_home n (j.mem_iff.mpr (.inr hn))
  priority_lt n hn := j.lanes_length ▸ hq.priority_lt n (j.mem_iff.mpr (.inr hn))

theorem coherent (j : Joins b m q) (hb : b.Coherent) (fresh : m.id ∉ b.ids)
    (home : m.lane = 0 ∨ m.lane = m.priority) (priority : m.priority < b.lanes.length)
    (sorted : q.delayed.Pairwise fun a b => a.before b)
    (numbers : (q.delayed.map (·.number)).Nodup)
    (number_lt : ∀ a ∈ q.delayed, a.number < q.nextNumber)
    (next : b.nextToken ≤ q.nextToken)
    (token : ∀ t, m.state.token? = some t → b.nextToken ≤ t ∧ t < q.nextToken) :
    q.Coherent where
  nodup_ids := j.ids_perm.nodup_iff.mpr (List.nodup_cons.mpr ⟨fresh, hb.nodup_ids⟩)
  count_lane i id := by rw [j.count_lane, j.countP, hb.count_lane]
  count_delayed id := by rw [j.count_delayed, j.countP, hb.count_delayed]
  sorted_delayed := sorted
  nodup_numbers := numbers
  number_lt := number_lt
  queued_eq := by rw [j.queued, j.countP, hb.queued_eq]
  failed_eq := by rw [j.failed, j.countP, hb.failed_eq]
  nodup_tokens := by
    refine j.tokens_perm.nodup_iff.mpr (List.nodup_append.mpr ⟨?_, hb.nodup_tokens, ?_⟩)
    · cases m.state.token? <;> simp
    · rintro t ht s hs rfl
      have new := (token t (Option.mem_toList.mp ht)).1
      have old := hb.token_lt t hs
      omega
  token_lt t ht := by
    rcases List.mem_append.mp (j.tokens_perm.mem_iff.mp ht) with new | old
    · exact (token t (Option.mem_toList.mp new)).2
    · exact Nat.lt_of_lt_of_le (hb.token_lt t old) next
  lane_home n hn := by
    rcases j.mem_iff.mp hn with rfl | old
    · exact home
    · exact hb.lane_home n old
  priority_lt n hn := by
    rw [j.lanes_length]
    rcases j.mem_iff.mp hn with rfl | old
    · exact priority
    · exact hb.priority_lt n old

end Joins

section Lanes

variable {lanes : List (List String)} {l i : Nat} {id other : String}

private theorem getD_modify (f : List String → List String) (hl : l < lanes.length) :
    (lanes.modify l f).getD i [] = if l = i then f (lanes.getD i []) else lanes.getD i [] := by
  simp only [List.getD_eq_getElem?_getD, List.getElem?_modify]
  split_ifs with h
  · subst h
    simp [hl]
  · simp

theorem count_modify_append (hl : l < lanes.length) :
    ((lanes.modify l (· ++ [id])).getD i []).count other =
      (lanes.getD i []).count other + if l = i ∧ id = other then 1 else 0 := by
  rw [getD_modify _ hl]
  split_ifs with h hb hb
  · simp [List.count_append, hb.2]
  · have : id ≠ other := fun e => hb ⟨h, e⟩
    simp [List.count_append, this]
  · exact absurd hb.1 h
  · rfl

theorem count_modify_cons (hl : l < lanes.length) :
    ((lanes.modify l (id :: ·)).getD i []).count other =
      (lanes.getD i []).count other + if l = i ∧ id = other then 1 else 0 := by
  rw [getD_modify _ hl]
  split_ifs with h hb hb
  · simp [hb.2]
  · have : id ≠ other := fun e => hb ⟨h, e⟩
    simp [this]
  · exact absurd hb.1 h
  · rfl

theorem count_modify_erase (hl : l < lanes.length) (hid : id ∈ lanes.getD l []) :
    (lanes.getD i []).count other =
      ((lanes.modify l (·.erase id)).getD i []).count other +
        if l = i ∧ id = other then 1 else 0 := by
  rw [getD_modify _ hl]
  split_ifs with h hb hb
  · obtain ⟨rfl, rfl⟩ := hb
    have pos := List.count_pos_iff.mpr hid
    rw [List.count_erase_self]
    omega
  · have : other ≠ id := fun e => hb ⟨h, e.symm⟩
    rw [List.count_erase_of_ne this, Nat.add_zero]
  · exact absurd hb.1 h
  · rfl

end Lanes

namespace Coherent

variable {q : Queue} {id : String} {m : Message}

theorem lane_lt (hq : q.Coherent) (hm : m ∈ q.messages) : m.lane < q.lanes.length := by
  have home := hq.lane_home m hm
  have lt := hq.priority_lt m hm
  omega

private theorem count_lane_eq (hq : q.Coherent) (i : Nat) (id : String) :
    (q.lane i).count id =
      if (q.find? id).any (fun m => m.state == .queued && m.lane == i) then 1 else 0 := by
  rw [hq.count_lane, ← countP_and_id hq.nodup_ids]
  rfl

private theorem count_delayed_eq (hq : q.Coherent) (id : String) :
    (q.delayed.map (·.id)).count id =
      if (q.find? id).any (·.state == .delayed) then 1 else 0 := by
  rw [hq.count_delayed, ← countP_and_id hq.nodup_ids]
  rfl

theorem mem_lane_iff (hq : q.Coherent) (i : Nat) (id : String) :
    id ∈ q.lane i ↔ ∃ m, q.find? id = some m ∧ m.state = .queued ∧ m.lane = i := by
  rw [← List.count_pos_iff, hq.count_lane_eq]
  cases q.find? id with
  | none => simp
  | some m => by_cases h : m.state = .queued ∧ m.lane = i <;> simp [h]

theorem mem_delayed_iff (hq : q.Coherent) (id : String) :
    id ∈ q.delayed.map (·.id) ↔ ∃ m, q.find? id = some m ∧ m.state = .delayed := by
  rw [← List.count_pos_iff, hq.count_delayed_eq]
  cases q.find? id with
  | none => simp
  | some m => by_cases h : m.state = .delayed <;> simp [h]

theorem nodup_lane (hq : q.Coherent) (i : Nat) : (q.lane i).Nodup := by
  refine List.nodup_iff_count_le_one.mpr fun id => ?_
  rw [hq.count_lane_eq]
  split_ifs <;> simp

theorem nodup_delayed (hq : q.Coherent) : (q.delayed.map (·.id)).Nodup := by
  refine List.nodup_iff_count_le_one.mpr fun id => ?_
  rw [hq.count_delayed_eq]
  split_ifs <;> simp

end Coherent

end Queue
end WorkBroker
