import WorkBroker.Queue.Operations
import Mathlib.Data.List.Basic
import Mathlib.Data.List.Nodup
import Mathlib.Data.List.Perm.Basic
/-!
The messages of a queue as a collection in which an id names at most one message.  Changing or
removing the message of an id leaves all others as they are; what is left is `(q.remove
id).messages`, and every count over the messages follows from that.
-/

set_option autoImplicit false
set_option relaxedAutoImplicit false

namespace WorkBroker.Queue

variable {q : Queue} {id : String} {m : Message}

def ids (q : Queue) : List String := q.messages.map (·.id)

theorem mem_of_find? (h : q.find? id = some m) : m ∈ q.messages :=
  List.mem_of_find?_eq_some h

theorem id_of_find? (h : q.find? id = some m) : m.id = id := by
  simpa using List.find?_some h

theorem find?_eq_none_iff : q.find? id = none ↔ id ∉ q.ids := by
  simp only [find?, ids, List.find?_eq_none, beq_iff_eq, List.mem_map, not_exists, not_and]

theorem find?_id (hq : q.ids.Nodup) (hm : m ∈ q.messages) : q.find? m.id = some m := by
  cases h : q.find? m.id with
  | none => exact absurd (List.mem_map_of_mem hm) (find?_eq_none_iff.mp h)
  | some n => rw [List.inj_on_of_nodup_map hq (mem_of_find? h) hm (id_of_find? h)]

theorem mem_map_filter_iff (hq : q.ids.Nodup) (p : Message → Bool) :
    id ∈ (q.messages.filter p).map (·.id) ↔ ∃ m, q.find? id = some m ∧ p m := by
  simp only [List.mem_map, List.mem_filter]
  constructor
  · rintro ⟨m, ⟨hm, hp⟩, rfl⟩
    exact ⟨m, find?_id hq hm, hp⟩
  · rintro ⟨m, hm, hp⟩
    exact ⟨m, ⟨mem_of_find? hm, hp⟩, id_of_find? hm⟩

theorem nodup_map_filter (hq : q.ids.Nodup) (p : Message → Bool) :
    ((q.messages.filter p).map (·.id)).Nodup :=
  hq.sublist (List.filter_sublist.map _)

@[simp] theorem find?_remove (q : Queue) (id other : String) :
    (q.remove id).find? other = if other = id then none else q.find? other := by
  simp only [find?, remove, List.find?_filter]
  split_ifs with h
  · subst h
    simp
  · congr 1
    ext n
    by_cases hn : n.id = other <;> simp_all

theorem find?_modify {f : Message → Message} (hf : ∀ n, (f n).id = n.id) (other : String) :
    (q.modify id f).find? other = if other = id then (q.find? other).map f else q.find? other := by
  have comp : ((fun n : Message => n.id == other) ∘ fun n => if n.id == id then f n else n) =
      fun n => n.id == other := by
    funext n
    by_cases hn : n.id = id <;> simp [hn, hf]
  simp only [find?, modify, List.find?_map, comp]
  split_ifs with h
  · subst h
    cases hn : List.find? (fun n : Message => n.id == other) q.messages with
    | none => rfl
    | some n => simpa using fun hne => absurd (by simpa using List.find?_some hn) hne
  · cases hn : List.find? (fun n : Message => n.id == other) q.messages with
    | none => rfl
    | some n =>
      have hid : n.id = other := by simpa using List.find?_some hn
      simp [hid, h]

theorem find?_of_modified {q' : Queue} {f : Message → Message} (hm : q.find? id = some m)
    (h : q'.messages = (q.modify id f).messages) (hf : ∀ n, (f n).id = n.id) (other : String) :
    q'.find? other = if other = id then some (f m) else q.find? other := by
  have same : q'.find? other = (q.modify id f).find? other := by rw [find?, h, find?]
  rw [same, find?_modify hf]
  split_ifs with e
  · rw [e, hm, Option.map_some]
  · rfl

theorem find?_append {q' : Queue} (fresh : q.find? m.id = none)
    (h : q'.messages = q.messages ++ [m]) (other : String) :
    q'.find? other = if other = m.id then some m else q.find? other := by
  rw [find?, h, List.find?_append, List.find?_singleton, ← find?]
  split_ifs with hm e e
  · rw [e, fresh, Option.none_or]
  · exact absurd (by simpa using hm) (Ne.symm e)
  · simp [e] at hm
  · rw [Option.or_none]

theorem ids_modify {f : Message → Message} (hf : ∀ n, (f n).id = n.id) :
    (q.modify id f).ids = q.ids := by
  simp only [ids, modify, List.map_map]
  refine List.map_congr_left fun n _ => ?_
  by_cases hn : n.id = id <;> simp [hn, hf]

@[simp] theorem remove_modify {f : Message → Message} (hf : ∀ n, (f n).id = n.id) :
    (q.modify id f).remove id = q.remove id := by
  simp only [remove, modify, List.filter_map]
  congr 1
  rw [List.filter_congr (q := fun n : Message => n.id != id)]
  · refine (List.map_congr_left fun n hn => ?_).trans (List.map_id _)
    have : n.id ≠ id := by simpa using (List.mem_filter.mp hn).2
    simp [this]
  · intro n _
    by_cases hn : n.id = id <;> simp [hn, hf]

theorem id_notMem_ids_remove (q : Queue) (id : String) : id ∉ (q.remove id).ids := by
  simp [ids, remove]

theorem remove_of_fresh (h : q.find? id = none) : (q.remove id).messages = q.messages := by
  refine List.filter_eq_self.mpr fun n hn => ?_
  have : n.id ≠ id := fun e => find?_eq_none_iff.mp h (e ▸ List.mem_map_of_mem hn)
  simpa using this

theorem messages_perm (hq : q.ids.Nodup) (hm : q.find? id = some m) :
    q.messages.Perm (m :: (q.remove id).messages) := by
  have hid := id_of_find? hm
  have hsame : q.messages.filter (·.id == id) = [m] := by
    refine List.perm_singleton.mp ?_
    refine (List.perm_ext_iff_of_nodup (hq.of_map _ |>.filter _) (List.nodup_singleton m)).mpr ?_
    intro n
    simp only [List.mem_filter, beq_iff_eq, List.mem_singleton]
    constructor
    · rintro ⟨hn, hnid⟩
      exact List.inj_on_of_nodup_map hq hn (mem_of_find? hm) (hnid.trans hid.symm)
    · rintro rfl
      exact ⟨mem_of_find? hm, hid⟩
  have hsplit := (List.filter_append_perm (fun n : Message => n.id == id) q.messages).symm
  rw [hsame] at hsplit
  exact hsplit

theorem messages_modify_perm (hq : q.ids.Nodup) (hm : q.find? id = some m)
    {f : Message → Message} (hf : ∀ n, (f n).id = n.id) :
    (q.modify id f).messages.Perm (f m :: (q.remove id).messages) := by
  have hfound : (q.modify id f).find? id = some (f m) := by simp [find?_modify hf, hm]
  have h := messages_perm ((ids_modify hf).symm ▸ hq) hfound
  rwa [remove_modify hf] at h

theorem countP_remove (hq : q.ids.Nodup) (hm : q.find? id = some m) (p : Message → Bool) :
    q.messages.countP p = (q.remove id).messages.countP p + if p m then 1 else 0 := by
  rw [(messages_perm hq hm).countP_eq, List.countP_cons]

theorem countP_modify (hq : q.ids.Nodup) (hm : q.find? id = some m) {f : Message → Message}
    (hf : ∀ n, (f n).id = n.id) (p : Message → Bool) :
    (q.modify id f).messages.countP p =
      (q.remove id).messages.countP p + if p (f m) then 1 else 0 := by
  rw [(messages_modify_perm hq hm hf).countP_eq, List.countP_cons]

theorem countP_and_id (hq : q.ids.Nodup) (p : Message → Bool) (id : String) :
    q.messages.countP (fun m => p m && m.id == id) = if (q.find? id).any p then 1 else 0 := by
  cases h : q.find? id with
  | none =>
    refine List.countP_eq_zero.mpr fun n hn => ?_
    have : n.id ≠ id := fun e => find?_eq_none_iff.mp h (e ▸ List.mem_map_of_mem hn)
    simp [this]
  | some m =>
    have others : (q.remove id).messages.countP (fun m => p m && m.id == id) = 0 := by
      refine List.countP_eq_zero.mpr fun n hn => ?_
      have : n.id ≠ id := by simpa using (List.mem_filter.mp hn).2
      simp [this]
    rw [countP_remove hq h, others]
    simp [id_of_find? h]

theorem length_remove (hq : q.ids.Nodup) (hm : q.find? id = some m) :
    q.messages.length = (q.remove id).messages.length + 1 :=
  (messages_perm hq hm).length_eq

end WorkBroker.Queue
