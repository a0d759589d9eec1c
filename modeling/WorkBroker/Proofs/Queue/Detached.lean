import WorkBroker.Proofs.Queue.Coherence
/-!
A message on its way between two structures.  `Detached id m q` says that `m` stands in no lane and
in no appointment of `q`, is in no counter, and that the rest of `q` is coherent.  A message leaves
its place when it is taken, settled, due or boosted; it finds one when it becomes ready, is parked,
fails or goes out.
-/

set_option autoImplicit false
set_option relaxedAutoImplicit false

namespace WorkBroker.Queue

/-- A queue is coherent but for one message, which has no place. -/
structure Detached (id : String) (m : Message) (q : Queue) : Prop where
  found : q.find? id = some m
  nodup_ids : q.ids.Nodup
  rest : (q.remove id).Coherent
  home : m.lane = 0 ∨ m.lane = m.priority
  priority_lt : m.priority < q.lanes.length

private theorem insertAppointment_perm (a : Appointment) (delayed : List Appointment) :
    (insertAppointment a delayed).Perm (a :: delayed) := by
  induction delayed with
  | nil => exact List.Perm.refl _
  | cons b rest ih =>
    rw [insertAppointment]
    split_ifs
    · exact List.Perm.refl _
    · exact (ih.cons b).trans (List.Perm.swap a b rest)

private theorem before_of_not_before {a b : Appointment} (h : ¬a.before b)
    (hn : b.number < a.number) : b.before a := by
  simp only [Appointment.before, Bool.or_eq_true, decide_eq_true_eq, Bool.and_eq_true,
    beq_iff_eq] at h ⊢
  omega

private theorem before_trans {a b c : Appointment} (hab : a.before b) (hbc : b.before c) :
    a.before c := by
  simp only [Appointment.before, Bool.or_eq_true, decide_eq_true_eq, Bool.and_eq_true,
    beq_iff_eq] at *
  omega

private theorem pairwise_insertAppointment {a : Appointment} {delayed : List Appointment}
    (sorted : delayed.Pairwise fun a b => a.before b) (hn : ∀ b ∈ delayed, b.number < a.number) :
    (insertAppointment a delayed).Pairwise fun a b => a.before b := by
  induction delayed with
  | nil => simp [insertAppointment]
  | cons b rest ih =>
    obtain ⟨hb, hrest⟩ := List.pairwise_cons.mp sorted
    rw [insertAppointment]
    split_ifs with h
    · refine List.pairwise_cons.mpr ⟨?_, sorted⟩
      intro c hc
      rcases List.mem_cons.mp hc with rfl | hc
      · exact h
      · exact before_trans h (hb c hc)
    · refine List.pairwise_cons.mpr ⟨?_, ih hrest fun c hc => hn c (List.mem_cons_of_mem b hc)⟩
      intro c hc
      rcases List.mem_cons.mp ((insertAppointment_perm a rest).mem_iff.mp hc) with rfl | hc
      · exact before_of_not_before h (hn b List.mem_cons_self)
      · exact hb c hc

namespace Coherent

variable {q : Queue} {id : String} {m : Message}

theorem queued_pos (hq : q.Coherent) (hm : q.find? id = some m) (state : m.state = .queued) :
    0 < q.queued := by
  rw [hq.queued_eq]
  exact List.countP_pos_iff.mpr ⟨m, mem_of_find? hm, by simp [state]⟩

theorem failed_pos (hq : q.Coherent) (hm : q.find? id = some m) (state : m.state = .failed) :
    0 < q.failed := by
  rw [hq.failed_eq]
  exact List.countP_pos_iff.mpr ⟨m, mem_of_find? hm, by simp [state]⟩

/-- Coherence does not depend on the counters over the life of a queue. -/
theorem count (hq : q.Coherent) (f : QueueStats → QueueStats) : (q.count f).Coherent :=
  ⟨hq.1, hq.2, hq.3, hq.4, hq.5, hq.6, hq.7, hq.8, hq.9, hq.10, hq.11, hq.12⟩

theorem detached (hq : q.Coherent) (hm : q.find? id = some m) {token owner : Nat}
    {since : Instant} (state : m.state = .running token owner since) : Detached id m q where
  found := hm
  nodup_ids := hq.nodup_ids
  rest := by
    have j : Joins (q.remove id) m q :=
      .of_away (messages_perm hq.nodup_ids hm) (by simp [state]) (by simp [state]) rfl rfl rfl
        (by simp [state, remove])
    exact j.coherent_left hq (List.Sublist.refl _) rfl rfl
  home := hq.lane_home m (mem_of_find? hm)
  priority_lt := hq.priority_lt m (mem_of_find? hm)

theorem remove_failed (hq : q.Coherent) (hm : q.find? id = some m) (state : m.state = .failed) :
    ({ q.remove id with failed := q.failed - 1 } : Queue).Coherent := by
  have pos := hq.failed_pos hm state
  have count : q.failed = q.failed - 1 + if m.state == .failed then 1 else 0 := by
    simp only [state, beq_self_eq_true, if_true]
    omega
  have j : Joins { q.remove id with failed := q.failed - 1 } m q :=
    .of_away (messages_perm hq.nodup_ids hm) (by simp [state]) (by simp [state]) rfl rfl rfl count
  exact j.coherent_left hq (List.Sublist.refl _) rfl rfl

theorem detached_of_lane (hq : q.Coherent) (hm : q.find? id = some m)
    (state : m.state = .queued) :
    Detached id m
      { q with lanes := q.lanes.modify m.lane (·.erase id), queued := q.queued - 1 } where
  found := hm
  nodup_ids := hq.nodup_ids
  rest := by
    have pos := hq.queued_pos hm state
    have hl := hq.lane_lt (mem_of_find? hm)
    have hid : id ∈ q.lane m.lane := (hq.mem_lane_iff _ _).mpr ⟨m, hm, state, rfl⟩
    have j : Joins
        (remove { q with lanes := q.lanes.modify m.lane (·.erase id), queued := q.queued - 1 } id)
        m q :=
      { messages := messages_perm hq.nodup_ids hm
        lanes_length := by simp [remove]
        count_lane := fun i other => by
          have hc : (q.lane i).count other =
              ((q.lanes.modify m.lane (·.erase id)).getD i []).count other +
                if m.lane = i ∧ id = other then 1 else 0 := count_modify_erase hl hid
          simpa [lane, remove, Message.waitsIn, state, id_of_find? hm] using hc
        count_delayed := fun id => by simp [Message.isParkedAs, state, remove]
        queued := by simp [state, remove]; omega
        failed := by simp [state, remove] }
    exact j.coherent_left hq (List.Sublist.refl _) rfl rfl
  home := hq.lane_home m (mem_of_find? hm)
  priority_lt := by simpa using hq.priority_lt m (mem_of_find? hm)

theorem detached_of_due (hq : q.Coherent) {a : Appointment} {later : List Appointment}
    (hd : q.delayed = a :: later) :
    ∃ m, m.state = .delayed ∧ Detached a.id m { q with delayed := later } := by
  have hid : a.id ∈ q.delayed.map (·.id) := by simp [hd]
  obtain ⟨m, hm, state⟩ := (hq.mem_delayed_iff a.id).mp hid
  have j : Joins (remove { q with delayed := later } a.id) m q :=
    { messages := messages_perm hq.nodup_ids hm
      lanes_length := rfl
      count_lane := fun i id => by simp [Message.waitsIn, state, lane, remove]
      count_delayed := fun other => by
        simp [Message.isParkedAs, state, remove, hd, id_of_find? hm, List.count_cons]
      queued := by simp [state, remove]
      failed := by simp [state, remove] }
  refine ⟨m, state, hm, hq.nodup_ids, ?_, ?_, ?_⟩
  · exact j.coherent_left hq (hd ▸ List.sublist_cons_self a later) rfl rfl
  · exact hq.lane_home m (mem_of_find? hm)
  · exact hq.priority_lt m (mem_of_find? hm)

theorem detached_append (hq : q.Coherent) (fresh : q.find? m.id = none) (home : m.lane = m.priority)
    (priority : m.priority < q.lanes.length) :
    Detached m.id m { q with messages := q.messages ++ [m] } where
  found := by
    have hn := List.find?_eq_none.mp fresh
    simp [find?, List.find?_append, List.find?_eq_none.mpr hn]
  nodup_ids := by
    have h := find?_eq_none_iff.mp fresh
    have hids : ids { q with messages := q.messages ++ [m] } = q.ids ++ [m.id] := by simp [ids]
    rw [hids, List.nodup_append]
    refine ⟨hq.nodup_ids, List.nodup_singleton _, ?_⟩
    rintro other ho _ hm rfl
    exact h (List.mem_singleton.mp hm ▸ ho)
  rest := by
    have same : remove { q with messages := q.messages ++ [m] } m.id = q := by
      have hr : q.messages.filter (·.id != m.id) = q.messages := remove_of_fresh fresh
      simp [remove, List.filter_append, hr]
    rw [same]
    exact hq
  home := .inr home
  priority_lt := priority

end Coherent

namespace Detached

variable {q q' : Queue} {id : String} {m n : Message}

private theorem id_eq (d : Detached id m q) : m.id = id := id_of_find? d.found

private theorem perm_modify (d : Detached id m q) {f : Message → Message}
    (hf : ∀ n, (f n).id = n.id) :
    (q.modify id f).messages.Perm (f m :: (q.remove id).messages) :=
  messages_modify_perm d.nodup_ids d.found hf

theorem modify (d : Detached id m q) (f : Message → Message) (hf : ∀ n, (f n).id = n.id)
    (home : (f m).lane = 0 ∨ (f m).lane = (f m).priority)
    (priority : (f m).priority < q.lanes.length) : Detached id (f m) (q.modify id f) where
  found := by simp [find?_modify hf, d.found]
  nodup_ids := (ids_modify hf).symm ▸ d.nodup_ids
  rest := by simpa [remove_modify hf] using d.rest
  home := home
  priority_lt := priority

theorem count (d : Detached id m q) (f : QueueStats → QueueStats) : Detached id m (q.count f) where
  found := d.found
  nodup_ids := d.nodup_ids
  rest := d.rest.count f
  home := d.home
  priority_lt := d.priority_lt

section Places

variable (f : Message → Message) (hf : ∀ n, (f n).id = n.id)
  (home : (f m).lane = 0 ∨ (f m).lane = (f m).priority) (priority : (f m).priority < q.lanes.length)

include hf home priority

theorem coherent_queued (d : Detached id m q) (state : (f m).state = .queued)
    {place : List String → List String} (hp : place = (· ++ [id]) ∨ place = (id :: ·)) :
    Coherent { q.modify id f with
      lanes := q.lanes.modify (f m).lane place, queued := q.queued + 1 } := by
  have hl : (f m).lane < q.lanes.length := by omega
  have hid : (f m).id = id := (hf m).trans d.id_eq
  have j : Joins (q.remove id) (f m) { q.modify id f with
      lanes := q.lanes.modify (f m).lane place, queued := q.queued + 1 } :=
    { messages := d.perm_modify hf
      lanes_length := by simp [remove]
      count_lane := fun i other => by
        have hc : ((q.lanes.modify (f m).lane place).getD i []).count other =
            (q.lane i).count other + if (f m).lane = i ∧ id = other then 1 else 0 := by
          rcases hp with rfl | rfl
          · exact count_modify_append hl
          · exact count_modify_cons hl
        simpa [lane, remove, Message.waitsIn, state, hid] using hc
      count_delayed := fun other => by simp [Message.isParkedAs, state, Queue.modify, remove]
      queued := by simp [state, remove]
      failed := by simp [state, Queue.modify, remove] }
  have fresh : (f m).id ∉ (q.remove id).ids := hid ▸ id_notMem_ids_remove q id
  exact j.coherent d.rest fresh home priority d.rest.sorted_delayed d.rest.nodup_numbers
    d.rest.number_lt (Nat.le_refl _) (by simp [state, MessageState.token?])

theorem coherent_failed (d : Detached id m q) (state : (f m).state = .failed) :
    Coherent { q.modify id f with failed := q.failed + 1 } := by
  have hid : (f m).id = id := (hf m).trans d.id_eq
  have j : Joins (q.remove id) (f m) { q.modify id f with failed := q.failed + 1 } :=
    .of_away (d.perm_modify hf) (by simp [state]) (by simp [state]) rfl rfl rfl
      (by simp [state, remove])
  have fresh : (f m).id ∉ (q.remove id).ids := hid ▸ id_notMem_ids_remove q id
  exact j.coherent d.rest fresh home priority d.rest.sorted_delayed d.rest.nodup_numbers
    d.rest.number_lt (Nat.le_refl _) (by simp [state, MessageState.token?])

theorem coherent_running (d : Detached id m q) {owner : Nat} {since : Instant}
    (state : (f m).state = .running q.nextToken owner since) :
    Coherent { q.modify id f with nextToken := q.nextToken + 1 } := by
  have hid : (f m).id = id := (hf m).trans d.id_eq
  have j : Joins (q.remove id) (f m) { q.modify id f with nextToken := q.nextToken + 1 } :=
    .of_away (d.perm_modify hf) (by simp [state]) (by simp [state]) rfl rfl rfl
      (by simp [state, Queue.modify, remove])
  have fresh : (f m).id ∉ (q.remove id).ids := hid ▸ id_notMem_ids_remove q id
  exact j.coherent d.rest fresh home priority d.rest.sorted_delayed d.rest.nodup_numbers
    d.rest.number_lt (Nat.le_succ _) (by simp [state, MessageState.token?, remove])

theorem coherent_delayed (d : Detached id m q) (state : (f m).state = .delayed) (due : Instant) :
    Coherent { q.modify id f with
      delayed := insertAppointment ⟨due, q.nextNumber, id⟩ q.delayed
      nextNumber := q.nextNumber + 1 } := by
  have hid : (f m).id = id := (hf m).trans d.id_eq
  have hperm := insertAppointment_perm ⟨due, q.nextNumber, id⟩ q.delayed
  have hlt : ∀ b ∈ q.delayed, b.number < q.nextNumber := d.rest.number_lt
  have j : Joins (q.remove id) (f m) { q.modify id f with
      delayed := insertAppointment ⟨due, q.nextNumber, id⟩ q.delayed
      nextNumber := q.nextNumber + 1 } :=
    { messages := d.perm_modify hf
      lanes_length := rfl
      count_lane := fun i other => by simp [Message.waitsIn, state, lane, Queue.modify, remove]
      count_delayed := fun other => by
        rw [(hperm.map _).count_eq]
        simp [Message.isParkedAs, state, remove, hid, List.count_cons]
      queued := by simp [state, Queue.modify, remove]
      failed := by simp [state, Queue.modify, remove] }
  have fresh : (f m).id ∉ (q.remove id).ids := hid ▸ id_notMem_ids_remove q id
  refine j.coherent d.rest fresh home priority ?_ ?_ ?_ (Nat.le_refl _)
    (by simp [state, MessageState.token?])
  · exact pairwise_insertAppointment d.rest.sorted_delayed fun b hb => hlt b hb
  · refine (hperm.map _).nodup_iff.mpr (List.nodup_cons.mpr ⟨?_, d.rest.nodup_numbers⟩)
    intro h
    obtain ⟨b, hb, e⟩ := List.mem_map.mp h
    exact Nat.ne_of_lt (hlt b hb) e
  · intro b hb
    rcases List.mem_cons.mp (hperm.mem_iff.mp hb) with rfl | hb
    · exact Nat.lt_succ_self _
    · exact Nat.lt_succ_of_lt (hlt b hb)

end Places

end Detached

end WorkBroker.Queue
