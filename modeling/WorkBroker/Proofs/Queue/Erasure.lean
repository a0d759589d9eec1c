import WorkBroker.Proofs.Queue.Accounting
import WorkBroker.Proofs.Queue.Order
/-!
Cleaning up failed messages.  What an erasure removes is said in closed form, so that erasing one
list after another is erasing them joined, and what it tells depends on nothing but which messages
have failed.  A listing of failed messages is a page: the first of them in the order of their bytes,
and a flag that is set when there are more.
-/

set_option autoImplicit false
set_option relaxedAutoImplicit false

namespace WorkBroker

namespace Bytes

private theorem ofText_injective : Function.Injective ofText := by
  intro a b same
  have texts := congrArg toText? same
  rw [toText?_ofText, toText?_ofText] at texts
  exact Option.some.inj texts

private theorem ofText_lt_of_textLe {a b : String} (le : textLe a b) (ne : a ≠ b) :
    ofText a < ofText b := by
  have le : ofText a ≤ ofText b := by simpa [textLe] using le
  exact Std.lt_of_le_of_ne le fun same => ne (ofText_injective same)

end Bytes

namespace Queue

variable {q q' : Queue} {id : String} {ids : List String}

section Erased

private theorem isFailed_eraseOne (q : Queue) (id other : String) :
    (q.eraseOne id).2.isFailed other = (q.isFailed other && other != id) := by
  rw [isFailed_eq, standing?_eraseOne]
  split_ifs with erased
  · simp [erased.1]
  · rw [← isFailed_eq]
    by_cases same : other = id
    · have alive : q.isFailed other = false := by simpa [same] using erased
      simp [alive]
    · simp [same]

theorem isFailed_eraseFailed (q : Queue) (ids : List String) (other : String) :
    (q.eraseFailed ids).2.isFailed other = (q.isFailed other && !ids.contains other) := by
  rw [isFailed_eq, standing?_eraseFailed]
  split_ifs with erased
  · simp [erased.1]
  · rw [← isFailed_eq]
    cases failed : q.isFailed other with
    | false => rfl
    | true => simpa [failed] using erased

theorem eraseFailed_fst (q : Queue) (ids : List String) :
    (q.eraseFailed ids).1 = (ids.filter q.isFailed).eraseDups := by
  induction ids generalizing q with
  | nil => rfl
  | cons id rest ih =>
    rw [eraseFailed_cons]
    cases failed : q.isFailed id with
    | false =>
      have kept : q.eraseOne id = (false, q) := by simp [eraseOne, failed]
      rw [kept, List.filter_cons_of_neg (by simp [failed])]
      exact ih q
    | true =>
      have yes : (q.eraseOne id).1 = true := by simp [eraseOne, failed]
      rw [yes, if_pos rfl, ih, List.filter_cons_of_pos failed, List.eraseDups_cons,
        List.filter_filter]
      have left : (q.eraseOne id).2.isFailed = fun other => !(other == id) && q.isFailed other := by
        funext other
        rw [isFailed_eraseOne, Bool.and_comm]
        rfl
      rw [left]

/-- Erasing two lists in turn is erasing both at once. -/
theorem eraseFailed_append (q : Queue) (ids more : List String) :
    q.eraseFailed (ids ++ more) =
      ((q.eraseFailed ids).1 ++ ((q.eraseFailed ids).2.eraseFailed more).1,
        ((q.eraseFailed ids).2.eraseFailed more).2) := by
  induction ids generalizing q with
  | nil => rfl
  | cons id rest ih =>
    rw [List.cons_append, eraseFailed_cons, eraseFailed_cons, ih]
    split_ifs <;> rfl

theorem eraseFailed_fst_congr (same : ∀ id, q.isFailed id = q'.isFailed id) (ids : List String) :
    (q.eraseFailed ids).1 = (q'.eraseFailed ids).1 := by
  rw [eraseFailed_fst, eraseFailed_fst, funext same]

private theorem eraseDups_eq_self {xs : List String} (nodup : xs.Nodup) : xs.eraseDups = xs := by
  induction xs with
  | nil => rfl
  | cons x xs ih =>
    obtain ⟨fresh, nodup⟩ := List.nodup_cons.mp nodup
    have others : xs.filter (fun y => !(y == x)) = xs := by
      refine List.filter_eq_self.mpr fun y hy => ?_
      have ne : y ≠ x := fun same => fresh (same ▸ hy)
      simp [ne]
    rw [List.eraseDups_cons, others, ih nodup]

private theorem eraseFailed_fst_of_failed (nodup : ids.Nodup) (failed : ∀ id ∈ ids, q.isFailed id) :
    (q.eraseFailed ids).1 = ids := by
  rw [eraseFailed_fst, List.filter_eq_self.mpr failed, eraseDups_eq_self nodup]

end Erased

section Effect

/-- The queue without those of its failed messages whose ids are to go. -/
def dropFailed (q : Queue) (goes : String → Bool) : Queue :=
  let gone : Message → Bool := fun m => m.state == .failed && goes m.id
  { q with
    messages := q.messages.filter fun m => !gone m
    failed := q.failed - q.messages.countP gone
    stats := { q.stats with erased := q.stats.erased + q.messages.countP gone } }

/-- The queue without any of its failed messages. -/
def purged (q : Queue) : Queue := q.dropFailed fun _ => true

private theorem dropFailed_none (q : Queue) : q.dropFailed (fun _ => false) = q := by
  simp [dropFailed]

private theorem countP_or {α : Type} (p r : α → Bool) (xs : List α) :
    xs.countP (fun x => p x || r x) = xs.countP p + (xs.filter fun x => !p x).countP r := by
  induction xs with
  | nil => rfl
  | cons x xs ih =>
    rw [List.countP_cons, List.countP_cons, List.filter_cons, ih]
    cases p x with
    | true => simp [Nat.add_right_comm]
    | false => simp [List.countP_cons, Nat.add_assoc]

private theorem dropFailed_dropFailed (q : Queue) (first later : String → Bool) :
    (q.dropFailed first).dropFailed later = q.dropFailed fun id => first id || later id := by
  simp only [dropFailed, Bool.and_or_distrib_left, countP_or, Nat.sub_sub, Nat.add_assoc,
    List.filter_filter, Bool.not_or, Bool.and_comm]

private theorem Coherent.eraseOne_eq_dropFailed (hq : q.Coherent) (id : String) :
    (q.eraseOne id).2 = q.dropFailed (· == id) := by
  rcases eraseOne_cases q id with kept | ⟨m, hm, state⟩
  · have alive : ∀ n ∈ q.messages, ¬(n.state == .failed && n.id == id) = true := by
      intro n hn gone
      obtain ⟨failed, rfl⟩ : n.state = .failed ∧ n.id = id := by simpa using gone
      have yes : (q.eraseOne n.id).1 = true := by
        rw [eraseOne_eq (find?_id hq.nodup_ids hn) failed]
      rw [kept] at yes
      cases yes
    have none_goes : q.messages.countP (fun m => m.state == .failed && m.id == id) = 0 :=
      List.countP_eq_zero.mpr alive
    have all_stay : q.messages.filter (fun m => !(m.state == .failed && m.id == id)) =
        q.messages := by
      refine List.filter_eq_self.mpr fun n hn => ?_
      rw [Bool.not_eq_true', ← Bool.not_eq_true]
      exact alive n hn
    rw [kept]
    simp only [dropFailed, none_goes, all_stay, Nat.sub_zero, Nat.add_zero]
  · -- The message with that id is the only one, and has failed.
    obtain rfl := id_of_find? hm
    have only : ∀ n ∈ q.messages, (n.state == .failed && n.id == m.id) = (n.id == m.id) := by
      intro n hn
      by_cases same : n.id = m.id
      · obtain rfl := List.inj_on_of_nodup_map hq.nodup_ids hn (mem_of_find? hm) same
        simp [state]
      · simp [same]
    have one_goes : q.messages.countP (fun n => n.state == .failed && n.id == m.id) = 1 := by
      rw [List.countP_congr fun n hn => by rw [only n hn]]
      have counted := List.count_eq_one_of_mem hq.nodup_ids
        (List.mem_map_of_mem (f := (·.id)) (mem_of_find? hm))
      rwa [List.count, ids, List.countP_map] at counted
    have others_stay : q.messages.filter (fun n => !(n.state == .failed && n.id == m.id)) =
        q.messages.filter (·.id != m.id) :=
      List.filter_congr fun n hn => by rw [only n hn]; rfl
    rw [eraseOne_eq hm state]
    simp only [dropFailed, one_goes, others_stay]
    rfl

theorem Coherent.eraseFailed_snd (hq : q.Coherent) (ids : List String) :
    (q.eraseFailed ids).2 = q.dropFailed ids.contains := by
  induction ids generalizing q with
  | nil => exact (dropFailed_none q).symm
  | cons id rest ih =>
    rw [eraseFailed_cons]
    have first := ih ((moves_eraseOne q id).coherent hq)
    rw [first, hq.eraseOne_eq_dropFailed, dropFailed_dropFailed]
    rfl

theorem Coherent.purged_eraseFailed (hq : q.Coherent) (ids : List String) :
    (q.eraseFailed ids).2.purged = q.purged := by
  rw [hq.eraseFailed_snd, purged, purged, dropFailed_dropFailed]
  simp only [Bool.or_true]

theorem Coherent.purged_eq_self (hq : q.Coherent) (none_failed : q.failed = 0) : q.purged = q := by
  have nothing := hq.failed_eq.symm.trans none_failed
  have all_stay : q.messages.filter (fun m => !(m.state == .failed)) = q.messages := by
    refine List.filter_eq_self.mpr fun m hm => ?_
    rw [Bool.not_eq_true', ← Bool.not_eq_true]
    exact List.countP_eq_zero.mp nothing m hm
  simp only [purged, dropFailed, Bool.and_true, nothing, all_stay, Nat.sub_zero, Nat.add_zero]

end Effect

section Listing

private def failedList (q : Queue) : List String :=
  (q.messages.filter (·.state == .failed)).map (·.id)

private theorem Coherent.mem_failedList_iff (hq : q.Coherent) (id : String) :
    id ∈ q.failedList ↔ q.isFailed id := by
  rw [failedList, mem_map_filter_iff hq.nodup_ids, isFailed]
  cases q.find? id <;> simp

private theorem Coherent.nodup_failedList (hq : q.Coherent) : q.failedList.Nodup :=
  nodup_map_filter hq.nodup_ids _

private theorem Coherent.length_failedList (hq : q.Coherent) : q.failedList.length = q.failed := by
  rw [failedList, List.length_map, ← List.countP_eq_length_filter, hq.failed_eq]

theorem Coherent.failed_congr (hq : q.Coherent) (hq' : q'.Coherent)
    (same : ∀ id, q.isFailed id = q'.isFailed id) : q.failed = q'.failed := by
  rw [← hq.length_failedList, ← hq'.length_failedList]
  refine List.Perm.length_eq ?_
  refine (List.perm_ext_iff_of_nodup hq.nodup_failedList hq'.nodup_failedList).mpr fun id => ?_
  rw [hq.mem_failedList_iff, hq'.mem_failedList_iff, same]

/-- A listing of the failed messages of a queue, at most so many: the first of them in the order of
their bytes, none of them twice, and a flag that is set when there are more. -/
structure IsPage (q : Queue) (limit : Nat) (ids : List String) (truncated : Bool) : Prop where
  length_eq : ids.length = min limit q.failed
  increasing : ids.Pairwise fun a b => Bytes.ofText a < Bytes.ofText b
  failed : ∀ id ∈ ids, q.isFailed id
  least : ∀ id ∈ ids, ∀ other, q.isFailed other → other ∉ ids →
    Bytes.ofText id < Bytes.ofText other
  truncated_iff : truncated = true ↔ limit < q.failed

theorem Coherent.isPage_failedIds (hq : q.Coherent) (limit : Nat) :
    q.IsPage limit (q.failedIds limit).1 (q.failedIds limit).2 := by
  set sorted := q.failedList.mergeSort Bytes.textLe with hsorted
  have perm : sorted.Perm q.failedList := List.mergeSort_perm _ _
  have nodup : sorted.Nodup := perm.nodup_iff.mpr hq.nodup_failedList
  have length : sorted.length = q.failed := perm.length_eq.trans hq.length_failedList
  have mem : ∀ id, id ∈ sorted ↔ q.isFailed id := fun id =>
    perm.mem_iff.trans (hq.mem_failedList_iff id)
  have increasing : sorted.Pairwise fun a b => Bytes.ofText a < Bytes.ofText b := by
    have ordered : sorted.Pairwise fun a b => Bytes.textLe a b := by
      rw [hsorted]
      exact @List.pairwise_mergeSort _ Bytes.textLe (fun _ _ _ => Bytes.textLe_trans)
        Bytes.textLe_total _
    exact ordered.imp₂ (fun _ _ => Bytes.ofText_lt_of_textLe) nodup
  have cut : sorted.take limit ++ sorted.drop limit = sorted := List.take_append_drop _ _
  constructor
  · show (sorted.take limit).length = _
    rw [List.length_take, length]
  · exact increasing.sublist (List.take_sublist _ _)
  · exact fun id listed => (mem id).mp (List.mem_of_mem_take listed)
  · intro id listed other failed unlisted
    rw [← cut] at increasing
    have behind : other ∈ sorted.drop limit := by
      have held := (mem other).mpr failed
      rw [← cut] at held
      exact (List.mem_append.mp held).resolve_left unlisted
    exact (List.pairwise_append.mp increasing).2.2 id listed other behind
  · show decide (sorted.length > limit) = true ↔ _
    rw [decide_eq_true_iff, length]

namespace IsPage

variable {limit : Nat} {truncated : Bool}

private theorem nodup (page : q.IsPage limit ids truncated) : ids.Nodup :=
  page.increasing.imp fun lt same => by
    rw [same] at lt
    exact Std.lt_irrefl lt

theorem erased (page : q.IsPage limit ids truncated) : (q.eraseFailed ids).1 = ids :=
  eraseFailed_fst_of_failed page.nodup page.failed

theorem failed_left (hq : q.Coherent) (page : q.IsPage limit ids truncated) :
    (q.eraseFailed ids).2.failed = q.failed - limit := by
  have books := hq.failed_eraseFailed ids
  rw [page.erased, page.length_eq] at books
  omega

theorem failed_eq_zero (page : q.IsPage limit [] truncated) (room : 0 < limit) : q.failed = 0 := by
  have length := page.length_eq
  rw [List.length_nil] at length
  omega

end IsPage

end Listing

section Sparing

theorem isFailed_after (hq : q.Coherent) {ops : List Operation}
    (spare : ∀ ids, .eraseFailed ids ∉ ops) (failed : q.isFailed id) :
    (q.after ops).isFailed id := by
  induction ops generalizing q with
  | nil => exact failed
  | cons op ops ih =>
    have still : (q.apply op).2.isFailed id := by
      rcases isFailed_apply hq failed op with still | ⟨ids, rfl, -, -⟩
      · exact still
      · exact absurd List.mem_cons_self (spare ids)
    have rest : ∀ ids, .eraseFailed ids ∉ ops := fun ids erases =>
      spare ids (List.mem_cons_of_mem _ erases)
    exact ih ((moves_apply hq op).coherent hq) rest still

end Sparing

end Queue
end WorkBroker
