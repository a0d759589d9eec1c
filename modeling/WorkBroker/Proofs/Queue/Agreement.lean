import WorkBroker.Proofs.Queue.Accounting
import Mathlib.Algebra.GroupWithZero.Nat
/-!
What the agreement of the structures of a queue means for all lanes together.  An id stands in one
lane only and there once, so the ready messages, the ids in the lanes and the counter of ready
messages are three ways to the same number.
-/

set_option autoImplicit false
set_option relaxedAutoImplicit false

namespace WorkBroker.Queue

namespace Coherent

variable {q : Queue} {id : String} {m : Message}

theorem mem_flatten_iff (hq : q.Coherent) (id : String) :
    id ∈ q.lanes.flatten ↔ ∃ m, q.find? id = some m ∧ m.state = .queued := by
  rw [List.mem_flatten]
  constructor
  · rintro ⟨l, hl, hid⟩
    obtain ⟨i, hi, rfl⟩ := List.getElem_of_mem hl
    have stands : id ∈ q.lane i := by simpa [lane, hi] using hid
    obtain ⟨m, hm, state, -⟩ := (hq.mem_lane_iff i id).mp stands
    exact ⟨m, hm, state⟩
  · rintro ⟨m, hm, state⟩
    have hl := hq.lane_lt (mem_of_find? hm)
    have stands : id ∈ q.lane m.lane := (hq.mem_lane_iff _ _).mpr ⟨m, hm, state, rfl⟩
    exact ⟨q.lanes[m.lane], List.getElem_mem hl, by simpa [lane, hl] using stands⟩

theorem nodup_flatten (hq : q.Coherent) : q.lanes.flatten.Nodup := by
  refine List.nodup_flatten.mpr ⟨?_, ?_⟩
  · intro l hl
    obtain ⟨i, hi, rfl⟩ := List.getElem_of_mem hl
    simpa [lane, hi] using hq.nodup_lane i
  · refine List.pairwise_iff_getElem.mpr fun i j hi hj hij id hidi hidj => ?_
    have ini : id ∈ q.lane i := by simpa [lane, hi] using hidi
    have inj : id ∈ q.lane j := by simpa [lane, hj] using hidj
    obtain ⟨m, hm, -, rfl⟩ := (hq.mem_lane_iff i id).mp ini
    obtain ⟨n, hn, -, rfl⟩ := (hq.mem_lane_iff j id).mp inj
    obtain rfl : m = n := Option.some.inj (hm.symm.trans hn)
    exact Nat.lt_irrefl _ hij

theorem length_flatten (hq : q.Coherent) : q.lanes.flatten.length = q.queued := by
  have perm : q.lanes.flatten.Perm ((q.messages.filter (·.state == .queued)).map (·.id)) := by
    refine (List.perm_ext_iff_of_nodup hq.nodup_flatten (nodup_map_filter hq.nodup_ids _)).mpr ?_
    intro id
    rw [hq.mem_flatten_iff, mem_map_filter_iff hq.nodup_ids]
    simp
  rw [perm.length_eq, List.length_map, hq.queued_eq, List.countP_eq_length_filter]

end Coherent

/-- In every state that a queue can reach, its lanes, its appointments, its messages and its
counters agree with one another. -/
theorem structures_agree (settings : QueueSettings) (ops : List Operation) :
    let q := (ofSettings settings).after ops
    q.ids.Nodup ∧
      (∀ id, id ∈ q.lanes.flatten ↔ ∃ m, q.find? id = some m ∧ m.state = .queued) ∧
      (∀ id m, q.find? id = some m → m.state = .queued →
        q.lanes.flatten.count id = 1 ∧ id ∈ q.lane m.lane) ∧
      (∀ id, id ∈ q.delayed.map (·.id) ↔ ∃ m, q.find? id = some m ∧ m.state = .delayed) ∧
      (q.delayed.map (·.id)).Nodup ∧
      (∀ m ∈ q.messages, (m.lane = 0 ∨ m.lane = m.priority) ∧ m.lane < q.lanes.length) ∧
      (q.queued = q.countState (· == .queued) ∧ q.queued = (q.lanes.map List.length).sum ∧
        q.failed = q.countState (· == .failed)) ∧
      (q.tokens.Nodup ∧ ∀ t ∈ q.tokens, t < q.nextToken) ∧
      ((q.delayed.map (·.number)).Nodup ∧ ∀ a ∈ q.delayed, a.number < q.nextNumber) ∧
      q.size ≤ settings.capacity := by
  intro q
  have hq : q.Coherent := coherent_after settings ops
  have room := (balanced_after settings ops).room
  rw [settings_after] at room
  refine ⟨hq.nodup_ids, hq.mem_flatten_iff, ?_, hq.mem_delayed_iff, hq.nodup_delayed, ?_,
    ⟨hq.queued_eq, ?_, hq.failed_eq⟩, ⟨hq.nodup_tokens, hq.token_lt⟩,
    ⟨hq.nodup_numbers, hq.number_lt⟩, room⟩
  · intro id m hm state
    have stands := (hq.mem_flatten_iff id).mpr ⟨m, hm, state⟩
    exact ⟨List.count_eq_one_of_mem hq.nodup_flatten stands,
      (hq.mem_lane_iff _ _).mpr ⟨m, hm, state, rfl⟩⟩
  · exact fun m hm => ⟨hq.lane_home m hm, hq.lane_lt hm⟩
  · rw [← List.length_flatten, hq.length_flatten]

end WorkBroker.Queue
