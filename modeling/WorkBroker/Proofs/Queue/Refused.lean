import WorkBroker.Proofs.Queue.Erasure
import WorkBroker.Proofs.Queue.PutBack
import WorkBroker.Proofs.Queue.Tokens
/-!
Refusals.  A push is refused for its priority, or else for its id, or else for want of room; a
settlement or a put-back is refused when no such delivery is out.  A refused operation leaves the
whole queue as it was.  An erasure refuses id by id: it tells those that it took, in the order in
which the list names them first, and takes nothing else.
-/

set_option autoImplicit false
set_option relaxedAutoImplicit false

namespace WorkBroker

namespace QueueOutcome

def IsRefusal : QueueOutcome → Prop
  | .pushed result => result ≠ .ok ()
  | .putBack done => done = false
  | .acked result => result ≠ .ok ()
  | .ackPopped result => ∃ e, result = .error e
  | _ => False

end QueueOutcome

namespace Queue

variable {q : Queue} {id : String} {priority token : Nat}

/-- Whether a push with this id and priority finds its lane, a free id and room. -/
structure Admits (q : Queue) (id : String) (priority : Nat) : Prop where
  priority_lt : priority < q.lanes.length
  fresh : id ∉ q.ids
  room : q.size < q.settings.capacity

/-- Why a push is refused: it has no lane; or it has one, and its id is held; or its id is free, and
the queue is full. -/
def PushRefusal (q : Queue) (id : String) (priority : Nat) (e : QueueError) : Prop :=
  e = .invalidPriority priority q.lanes.length ∧ q.lanes.length ≤ priority ∨
    e = .duplicateMessage id ∧ priority < q.lanes.length ∧ id ∈ q.ids ∨
    e = .queueFull q.settings.capacity ∧ priority < q.lanes.length ∧ id ∉ q.ids ∧
      q.settings.capacity ≤ q.size

section Push

private theorem find?_isSome_iff : (q.find? id).isSome ↔ id ∈ q.ids := by
  rw [Option.isSome_iff_ne_none, ne_eq, find?_eq_none_iff, not_not]

private theorem admits_or_refusal (q : Queue) (id : String) (priority : Nat) :
    q.Admits id priority ∨ ∃ e, q.PushRefusal id priority e := by
  by_cases lane : priority < q.lanes.length
  · by_cases held : id ∈ q.ids
    · exact .inr ⟨_, .inr (.inl ⟨rfl, lane, held⟩)⟩
    · by_cases room : q.size < q.settings.capacity
      · exact .inl ⟨lane, held, room⟩
      · exact .inr ⟨_, .inr (.inr ⟨rfl, lane, held, Nat.le_of_not_lt room⟩)⟩
  · exact .inr ⟨_, .inl ⟨rfl, Nat.le_of_not_lt lane⟩⟩

private theorem push_fst_of_admits (admits : q.Admits id priority) (payload : Bytes)
    (delay : Duration) (now : Instant) : (q.push id payload priority delay now).1 = .ok () := by
  have lane : ¬priority ≥ q.lanes.length := Nat.not_le_of_lt admits.priority_lt
  have fresh : ¬(q.find? id).isSome := find?_isSome_iff.not.mpr admits.fresh
  have room : ¬q.size ≥ q.settings.capacity := Nat.not_le_of_lt admits.room
  rw [push, if_neg lane, if_neg fresh, if_neg room]

private theorem push_of_refusal {e : QueueError} (refusal : q.PushRefusal id priority e)
    (payload : Bytes) (delay : Duration) (now : Instant) :
    q.push id payload priority delay now = (.error e, q) := by
  rcases refusal with ⟨rfl, lane⟩ | ⟨rfl, lane, held⟩ | ⟨rfl, lane, fresh, full⟩
  · rw [push, if_pos lane]
  · rw [push, if_neg (Nat.not_le_of_lt lane), if_pos (find?_isSome_iff.mpr held)]
  · rw [push, if_neg (Nat.not_le_of_lt lane), if_neg (find?_isSome_iff.not.mpr fresh), if_pos full]

private theorem push_ok_iff (q : Queue) (id : String) (payload : Bytes) (priority : Nat)
    (delay : Duration) (now : Instant) :
    (q.push id payload priority delay now).1 = .ok () ↔ q.Admits id priority := by
  refine ⟨fun ok => ?_, fun admits => push_fst_of_admits admits payload delay now⟩
  rcases q.admits_or_refusal id priority with admits | ⟨e, refusal⟩
  · exact admits
  · rw [push_of_refusal refusal] at ok
    cases ok

private theorem push_error_iff (q : Queue) (id : String) (payload : Bytes) (priority : Nat)
    (delay : Duration) (now : Instant) (e : QueueError) :
    (q.push id payload priority delay now).1 = .error e ↔ q.PushRefusal id priority e := by
  refine ⟨fun error => ?_, fun refusal => congrArg Prod.fst (push_of_refusal refusal ..)⟩
  rcases q.admits_or_refusal id priority with admits | ⟨e', refusal⟩
  · rw [push_fst_of_admits admits] at error
    cases error
  · rw [push_of_refusal refusal] at error
    cases error
    exact refusal

end Push

section Unchanged

/-- A refused operation leaves the queue as it was. -/
theorem apply_of_refused (q : Queue) (op : Operation) (refused : (q.apply op).1.IsRefusal) :
    (q.apply op).2 = q := by
  cases op with
  | push id payload priority delay now =>
    rcases q.admits_or_refusal id priority with admits | ⟨e, refusal⟩
    · exact absurd (push_fst_of_admits admits payload delay now) refused
    · exact congrArg Prod.snd (push_of_refusal refusal payload delay now)
  | unpop id token =>
    rcases q.unpop_cases id token with same | ⟨m, owner, since, -, -, done⟩
    · exact congrArg Prod.snd same
    · have refused : (q.unpop id token).1 = false := refused
      rw [done] at refused
      cases refused
  | ack id token requeue delay now =>
    rcases q.ack_cases id token requeue delay now with ⟨e, same⟩ | ⟨m, owner, since, -, -, done⟩
    · exact congrArg Prod.snd same
    · exact absurd (congrArg Prod.fst done) refused
  | ackPop id token requeue delay owner now =>
    rcases q.ackPop_cases id token requeue delay owner now with ⟨e, -, same⟩ | ⟨r, -, done⟩
    · exact congrArg Prod.snd same
    · obtain ⟨e, refused⟩ : ∃ e, (q.ackPop id token requeue delay owner now).1 = .error e := refused
      rw [done] at refused
      cases refused
  | pop | sweep | release | eraseFailed => exact refused.elim

end Unchanged

section Erased

private theorem pairwise_idxOf_eraseDups (ids : List String) (keeps : String → Bool) :
    (ids.filter keeps).eraseDups.Pairwise fun a b => ids.idxOf a < ids.idxOf b := by
  induction ids generalizing keeps with
  | nil => exact .nil
  | cons id rest ih =>
    -- What is not at the head stands in the rest, one place further on.
    have behind : ∀ keeps : String → Bool, keeps id = false →
        (rest.filter keeps).eraseDups.Pairwise fun a b =>
          (id :: rest).idxOf a < (id :: rest).idxOf b := by
      intro keeps drops
      have other : ∀ a ∈ (rest.filter keeps).eraseDups, id ≠ a := by
        rintro a kept rfl
        have := (List.mem_filter.mp (List.mem_eraseDups.mp kept)).2
        rw [drops] at this
        cases this
      refine (ih keeps).imp_of_mem fun {a b} ha hb before => ?_
      rw [List.idxOf_cons_ne rest (other a ha), List.idxOf_cons_ne rest (other b hb)]
      exact Nat.succ_lt_succ before
    cases kept : keeps id with
    | false =>
      rw [List.filter_cons_of_neg (by simp [kept])]
      exact behind keeps kept
    | true =>
      rw [List.filter_cons_of_pos kept, List.eraseDups_cons, List.filter_filter]
      refine List.pairwise_cons.mpr ⟨fun a ha => ?_, behind _ (by simp)⟩
      have other : id ≠ a := by
        rintro rfl
        simpa using (List.mem_filter.mp (List.mem_eraseDups.mp ha)).2
      rw [List.idxOf_cons_self, List.idxOf_cons_ne rest other]
      exact Nat.succ_pos _

private theorem isFailed_iff : q.isFailed id ↔ ∃ m, q.find? id = some m ∧ m.state = .failed := by
  rw [isFailed]
  cases q.find? id <;> simp

private theorem mem_eraseFailed_iff (q : Queue) (ids : List String) (id : String) :
    id ∈ (q.eraseFailed ids).1 ↔
      id ∈ ids ∧ ∃ m, q.find? id = some m ∧ m.state = .failed := by
  rw [eraseFailed_fst, List.mem_eraseDups, List.mem_filter, isFailed_iff]

private theorem Coherent.eraseFailed_snd_eq (hq : q.Coherent) (ids : List String) :
    (q.eraseFailed ids).2 =
      { q with
        messages := q.messages.filter fun m => m.id ∉ (q.eraseFailed ids).1
        failed := q.failed - (q.eraseFailed ids).1.length
        stats := { q.stats with
          erased := q.stats.erased + (q.eraseFailed ids).1.length } } := by
  have effect := hq.eraseFailed_snd ids
  have books := hq.failed_eraseFailed ids
  have gone : (q.eraseFailed ids).1.length =
      q.messages.countP fun m => m.state == .failed && ids.contains m.id := by
    have le : q.messages.countP (fun m => m.state == .failed && ids.contains m.id) ≤ q.failed := by
      rw [hq.failed_eq]
      refine List.countP_mono_left fun m _ both => ?_
      exact (Bool.and_eq_true_iff.mp both).1
    rw [effect] at books
    have books : q.failed - q.messages.countP (fun m => m.state == .failed && ids.contains m.id) +
      (q.eraseFailed ids).1.length = q.failed := books
    omega
  have left : q.messages.filter (fun m => m.id ∉ (q.eraseFailed ids).1) =
      q.messages.filter fun m => !(m.state == .failed && ids.contains m.id) := by
    refine List.filter_congr fun m hm => ?_
    have failed : q.isFailed m.id = (m.state == .failed) := by
      rw [isFailed, find?_id hq.nodup_ids hm]
    have told : m.id ∈ (q.eraseFailed ids).1 ↔
        (m.state == .failed && ids.contains m.id) = true := by
      rw [eraseFailed_fst, List.mem_eraseDups, List.mem_filter, failed, Bool.and_eq_true,
        List.contains_iff_mem, and_comm]
    simp only [told, Bool.decide_eq_true, decide_not]
  rw [effect, gone, left]
  rfl

end Erased

/-- In every state that a queue can reach, an operation is refused exactly for its reasons, and a
refused one leaves everything as it was; an erasure takes the listed messages that have failed,
tells each once in the order of the list, and leaves the others. -/
theorem refused_exactly_and_unchanged (settings : QueueSettings) (ops : List Operation) :
    let q := (ofSettings settings).after ops
    (∀ id payload priority delay now,
      ((q.push id payload priority delay now).1 = .ok () ↔
        priority < q.lanes.length ∧ id ∉ q.ids ∧ q.size < settings.capacity) ∧
      ∀ e, (q.push id payload priority delay now).1 = .error e ↔ q.PushRefusal id priority e) ∧
    (∀ id token requeue delay now e,
      (q.ack id token requeue delay now).1 = .error e ↔ q.Refusal id token e) ∧
    (∀ id token requeue delay owner now e,
      (q.ackPop id token requeue delay owner now).1 = .error e ↔ q.Refusal id token e) ∧
    (∀ id token, (q.unpop id token).1 = false ↔
      ∀ owner since, ¬q.Runs ⟨id, token, owner, since⟩) ∧
    (∀ op, (q.apply op).1.IsRefusal → (q.apply op).2 = q) ∧
    ∀ ids, let erased := (q.eraseFailed ids).1
      (∀ id, id ∈ erased ↔ id ∈ ids ∧ ∃ m, q.find? id = some m ∧ m.state = .failed) ∧
      (erased.Pairwise fun a b => ids.idxOf a < ids.idxOf b) ∧
      erased.length ≤ q.failed ∧
      (q.eraseFailed ids).2 =
        { q with
          messages := q.messages.filter fun m => m.id ∉ erased
          failed := q.failed - erased.length
          stats := { q.stats with erased := q.stats.erased + erased.length } } := by
  intro q
  have hq : q.Coherent := coherent_after settings ops
  have same : q.settings = settings := settings_after settings ops
  refine ⟨fun id payload priority delay now => ⟨?_, q.push_error_iff id payload priority delay now⟩,
    q.ack_error_iff, ?_, fun id token => ?_, q.apply_of_refused,
    fun ids => ⟨q.mem_eraseFailed_iff ids, ?_, ?_, hq.eraseFailed_snd_eq ids⟩⟩
  · rw [push_ok_iff, ← same]
    exact ⟨fun ⟨lane, fresh, room⟩ => ⟨lane, fresh, room⟩,
      fun ⟨lane, fresh, room⟩ => ⟨lane, fresh, room⟩⟩
  · intro id token requeue delay owner now e
    exact (ackPop_error_iff ..).trans (ack_error_iff ..)
  · rw [← Bool.not_eq_true, unpop_fst_iff]
    simp only [not_exists]
  · rw [eraseFailed_fst]
    exact pairwise_idxOf_eraseDups ids q.isFailed
  · exact (hq.failed_eraseFailed ids).symm ▸ Nat.le_add_left _ _

end Queue
end WorkBroker
