import WorkBroker.Proofs.Queue.Rest
import WorkBroker.Proofs.Queue.Serving
/-!
The order in which delayed messages of one lane go out once a sweep has made them ready.  A sweep
takes them in the order in which they fell due, and puts each in front of its lane; so the last one
taken is in front of all others, and goes out first.  Only where a message starves as soon as it is
ready, the same sweep moves it on to the first lane, and there bytes of ids decide.
-/

set_option autoImplicit false
set_option relaxedAutoImplicit false

namespace WorkBroker.Queue

variable {q q₁ q₂ : Queue} {r : SweepReport × Queue} {s : Nat × Queue} {id : String}
  {now : Instant} {i : Nat} {a b : Appointment} {due late hungry : List String}

def dueIn (q : Queue) (now : Instant) (i : Nat) : List Appointment :=
  q.delayed.filter fun a => decide (a.due ≤ now) && (q.find? a.id).any (·.lane == i)

/-- Whether the messages of every lane that a sweep makes ready stand there in the order in which
they fell due, and whether pops with nothing in between take them in this order. -/
def KeepsDueOrder (q : Queue) (order : VisitOrder) (now : Instant) : Prop :=
  let after := (q.sweepIn order now).2
  ∀ i, ((q.dueIn now i).map (·.id)).Sublist (after.lane i) ∧
    ∀ a ∈ q.dueIn now i, ∀ b ∈ q.dueIn now i, a.before b →
      ∀ pops, b.id ∈ after.takenBy pops → [a.id, b.id].Sublist (after.takenBy pops)

private theorem not_before_of_before (before : a.before b) : ¬b.before a := by
  simp only [Appointment.before, Bool.or_eq_true, decide_eq_true_eq, Bool.and_eq_true,
    beq_iff_eq] at before ⊢
  omega

private theorem sublist_of_pairwise {α : Type} {R : α → α → Prop} {l : List α} {x y : α}
    (sorted : l.Pairwise R) (hx : x ∈ l) (hy : y ∈ l) (ne : x ≠ y) (not : ¬R y x) :
    [x, y].Sublist l := by
  induction l with
  | nil => exact absurd hx List.not_mem_nil
  | cons z l ih =>
    obtain ⟨first, sorted⟩ := List.pairwise_cons.mp sorted
    rcases List.mem_cons.mp hx with rfl | x_rest
    · have behind : y ∈ l := (List.mem_cons.mp hy).resolve_left ne.symm
      exact (List.singleton_sublist.mpr behind).cons_cons x
    · rcases List.mem_cons.mp hy with rfl | y_rest
      · exact absurd (first x x_rest) not
      · exact (ih sorted x_rest y_rest).cons z

section Lane

private theorem Coherent.pairwise_dueIn (hq : q.Coherent) (now : Instant) (i : Nat) :
    (q.dueIn now i).Pairwise fun a b => a.before b :=
  hq.sorted_delayed.sublist List.filter_sublist

private theorem Coherent.sublist_dueIn (hq : q.Coherent) (ha : a ∈ q.dueIn now i)
    (hb : b ∈ q.dueIn now i) (before : a.before b) :
    [a.id, b.id].Sublist ((q.dueIn now i).map (·.id)) := by
  have not := not_before_of_before before
  have ne : a ≠ b := by
    rintro rfl
    exact not before
  exact (sublist_of_pairwise (hq.pairwise_dueIn now i) ha hb ne not).map _

private theorem mem_dueIds_of_mem_dueIn (ha : a ∈ q.dueIn now i) : a.id ∈ q.dueIds now := by
  obtain ⟨held, early⟩ := List.mem_filter.mp ha
  rw [Bool.and_eq_true] at early
  exact List.mem_map_of_mem (List.mem_filter.mpr ⟨held, early.1⟩)

/-- A promotion puts the due messages of a lane in front of it, the last one to fall due first. -/
theorem Promotes.lane_dueIn (promotes : Promotes now (q.dueIds now) q s) (i : Nat) :
    s.2.lane i = ((q.dueIn now i).map (·.id)).reverse ++ q.lane i := by
  have same : (q.dueIds now).filter (s.2.standsIn i) = (q.dueIn now i).map (·.id) := by
    rw [dueIds, List.filter_map, List.filter_filter, dueIn]
    refine congrArg _ (List.filter_congr fun a ha => ?_)
    by_cases early : a.due ≤ now
    · have due : a.id ∈ q.dueIds now :=
        List.mem_map_of_mem (List.mem_filter.mpr ⟨ha, decide_eq_true early⟩)
      simp [early, standsIn, promotes.found, due, Option.any_map]
    · simp [early]
  rw [promotes.lane, same]

end Lane

namespace Phases

private theorem settings_struck (h : Phases now due late hungry q q₁ q₂ r) :
    q₂.settings = q.settings :=
  h.takesBack.settings.trans h.promotes.settings

private theorem readied (h : Phases now due late hungry q q₁ q₂ r) (hid : id ∈ due) :
    ∃ m, q.find? id = some m ∧
      q₂.find? id = some { m with state := .queued, queuedAt := now } := by
  obtain ⟨m, -, hm, -⟩ := (h.lists_due.2 id).mp hid
  have promoted : q₁.find? id = some { m with state := .queued, queuedAt := now } := by
    rw [h.promotes.found, if_pos hid, hm]
    rfl
  have spared : id ∉ late := by
    intro hlate
    obtain ⟨-, n, token, owner, since, -, hn, out, -⟩ := (h.lists_late.2 id).mp hlate
    obtain rfl := Option.some.inj (promoted.symm.trans hn)
    exact MessageState.noConfusion out
  exact ⟨m, hm, by rw [h.takesBack.found, if_neg spared, promoted]⟩

private theorem notMem_hungry (h : Phases now due late hungry q q₁ q₂ r) (hid : id ∈ due)
    (calm : q.settings.boostTimeout ≠ some .zero) : id ∉ hungry := by
  intro starves
  obtain ⟨m, -, readied⟩ := h.readied hid
  obtain ⟨timeout, n, set, hn, -, -, waited⟩ := (h.lists_hungry.2 id).mp starves
  obtain rfl := Option.some.inj (readied.symm.trans hn)
  have none : timeout.nanos ≤ now.nanos - now.nanos := waited
  have zero : timeout = .zero := congrArg Duration.mk (by omega : timeout.nanos = 0)
  exact calm (h.settings_struck ▸ zero ▸ set)

private theorem mem_hungry (h : Phases now due late hungry q q₁ q₂ r) (hid : id ∈ due)
    (hasty : q.settings.boostTimeout = some .zero) {m : Message} (hm : q.find? id = some m)
    (outside : 0 < m.lane) : id ∈ hungry := by
  obtain ⟨n, hn, readied⟩ := h.readied hid
  obtain rfl := Option.some.inj (hm.symm.trans hn)
  have set : q₂.settings.boostTimeout = some .zero := h.settings_struck.symm ▸ hasty
  exact (h.lists_hungry.2 id).mpr ⟨.zero, _, set, readied, rfl, outside, Nat.zero_le _⟩

end Phases

/-- After a sweep the due messages of a lane stand in front of it, the last one to fall due first,
unless the same sweep boosts them. -/
theorem Coherent.prefix_dueIn (hq : q.Coherent) (order : VisitOrder) (now : Instant) (i : Nat)
    (calm : i = 0 ∨ q.settings.boostTimeout ≠ some .zero) :
    ((q.dueIn now i).map (·.id)).reverse <+: (q.sweepIn order now).2.lane i := by
  have phases := hq.phases_sweepIn order now
  have kept : ((q.dueIn now i).map (·.id)).reverse <+: (q.struckLate order now).lane i := by
    rw [phases.takesBack.lane, phases.promotes.lane_dueIn, List.append_assoc]
    exact List.prefix_append _ _
  rcases Nat.eq_zero_or_pos i with rfl | outside
  · rw [phases.boosts.first]
    exact kept.trans (List.prefix_append _ _)
  · have stay : ∀ id ∈ ((q.dueIn now i).map (·.id)).reverse,
        id ∉ (q.struckLate order now).starving now := by
      intro id hid
      obtain ⟨a, ha, rfl⟩ := List.mem_map.mp (List.mem_reverse.mp hid)
      have not_first := calm.resolve_left (Nat.ne_of_gt outside)
      exact phases.notMem_hungry (mem_dueIds_of_mem_dueIn ha) not_first
    have all := List.filter_eq_self.mpr fun id hid => decide_eq_true (stay id hid)
    rw [phases.boosts.others i outside, ← all]
    exact kept.filter _

/-- If the same sweep boosts what falls due, it stands in the first lane by the bytes of its id. -/
theorem Coherent.sublist_boosted (hq : q.Coherent) (order : VisitOrder)
    (hasty : q.settings.boostTimeout = some .zero) (outside : 0 < i) (ha : a ∈ q.dueIn now i)
    (hb : b ∈ q.dueIn now i) (lt : ¬Bytes.textLe b.id a.id) :
    [a.id, b.id].Sublist ((q.sweepIn order now).2.lane 0) := by
  have phases := hq.phases_sweepIn order now
  have moved : ∀ c ∈ q.dueIn now i, c.id ∈ (q.struckLate order now).starving now ∧
      ∃ m, (q.struckLate order now).find? c.id = some m ∧ m.queuedAt = now := by
    intro c hc
    have due := mem_dueIds_of_mem_dueIn hc
    obtain ⟨m, hm, readied⟩ := phases.readied due
    have level : m.lane = i := by
      have held := (List.mem_filter.mp hc).2
      simpa [hm] using (Bool.and_eq_true_iff.mp held).2
    exact ⟨phases.mem_hungry due hasty hm (level ▸ outside), _, readied, rfl⟩
  obtain ⟨a_moved, m, hm, m_now⟩ := moved a ha
  obtain ⟨b_moved, n, hn, n_now⟩ := moved b hb
  have ne : a.id ≠ b.id := by
    intro same
    have total := Bytes.textLe_total a.id b.id
    rw [same, Bool.or_self] at total
    exact lt (same ▸ total)
  have behind : ¬∀ k l, (q.struckLate order now).find? b.id = some k →
      (q.struckLate order now).find? a.id = some l →
        k.queuedAt < l.queuedAt ∨ k.queuedAt = l.queuedAt ∧ Bytes.textLe b.id a.id := by
    intro inTurn
    rcases inTurn n m hn hm with early | ⟨-, le⟩
    · rw [m_now, n_now] at early
      exact Nat.lt_irrefl now.nanos early
    · exact lt le
  rw [phases.boosts.first]
  exact (sublist_of_pairwise phases.inTurn a_moved b_moved ne behind).trans
    (List.sublist_append_right _ _)

/-- A sweep of a queue in any state that it can reach puts the messages of a lane that have fallen
due in front of the lane, the last one to fall due first, and pops with nothing in between take them
in this order.  Only if a boost takes no time, those of another lane than the first go on to the
first lane, and pops take them in the order of the bytes of their ids. -/
theorem later_due_goes_out_first (settings : QueueSettings) (ops : List Operation)
    (order : VisitOrder) (now : Instant) (i : Nat) :
    let q := (ofSettings settings).after ops
    let after := (q.sweepIn order now).2
    ((q.dueIn now i).Pairwise fun a b => a.before b) ∧
      (i = 0 ∨ settings.boostTimeout ≠ some .zero →
        ((q.dueIn now i).map (·.id)).reverse <+: after.lane i ∧
        ∀ a ∈ q.dueIn now i, ∀ b ∈ q.dueIn now i, a.before b →
          ∀ pops, a.id ∈ after.takenBy pops → [b.id, a.id].Sublist (after.takenBy pops)) ∧
      (0 < i → settings.boostTimeout = some .zero →
        ∀ a ∈ q.dueIn now i, ∀ b ∈ q.dueIn now i, ¬Bytes.textLe b.id a.id →
          [a.id, b.id].Sublist (after.lane 0) ∧
          ∀ pops, b.id ∈ after.takenBy pops → [a.id, b.id].Sublist (after.takenBy pops)) := by
  intro q after
  have hq : q.Coherent := coherent_after settings ops
  have coherent : after.Coherent := hq.coherent_sweepIn order now
  have same : q.settings = settings := settings_after settings ops
  refine ⟨hq.pairwise_dueIn now i, fun calm => ?_, fun outside hasty a ha b hb lt => ?_⟩
  · have front := hq.prefix_dueIn order now i (same ▸ calm)
    refine ⟨front, fun a ha b hb before pops out => ?_⟩
    have reversed : [b.id, a.id].Sublist ((q.dueIn now i).map (·.id)).reverse :=
      (hq.sublist_dueIn ha hb before).reverse
    exact coherent.takenBy_sublist (reversed.trans front.sublist) out
  · have stand := hq.sublist_boosted order (same ▸ hasty) outside ha hb lt
    exact ⟨stand, fun pops out => coherent.takenBy_sublist stand out⟩

def twoDelayed : List Operation :=
  [.push "first" [] 0 (.ofMillis 1) .start, .push "second" [] 0 (.ofMillis 2) .start]

private theorem lanes_twoDelayed :
    (((ofSettings .standard).after twoDelayed).sweepIn .arrival (.ofMillis 5)).2.lanes =
      [["second", "first"], [], []] := by
  have calm : (((ofSettings .standard).after twoDelayed).struckLate .arrival
      (.ofMillis 5)).starving (.ofMillis 5) = [] := congrArg (List.map _) List.mergeSort_nil
  rw [sweepIn_eq, calm]
  rfl

private theorem dueIn_twoDelayed :
    ((ofSettings .standard).after twoDelayed).dueIn (.ofMillis 5) 0 =
      [⟨.ofMillis 1, 0, "first"⟩, ⟨.ofMillis 2, 1, "second"⟩] := rfl

private theorem takenBy_twoDelayed :
    (((ofSettings .standard).after twoDelayed).sweepIn .arrival (.ofMillis 5)).2.takenBy
      [(1, .ofMillis 5), (1, .ofMillis 5)] = ["second", "first"] := by
  have hq := (coherent_after .standard twoDelayed).coherent_sweepIn .arrival (.ofMillis 5)
  rw [hq.takenBy_eq, lanes_twoDelayed]
  rfl

/-- The message that falls due first goes out last. -/
theorem second_goes_out_before_first :
    let q := (ofSettings .standard).after twoDelayed
    let after := (q.sweepIn .arrival (.ofMillis 5)).2
    (q.dueIn (.ofMillis 5) 0).map (·.id) = ["first", "second"] ∧
      after.takenBy [(1, .ofMillis 5), (1, .ofMillis 5)] = ["second", "first"] ∧
      ¬q.KeepsDueOrder .arrival (.ofMillis 5) := by
  intro q after
  have due : (q.dueIn (.ofMillis 5) 0).map (·.id) = ["first", "second"] := by
    rw [dueIn_twoDelayed]
    rfl
  have lane : after.lane 0 = ["second", "first"] := by
    rw [Queue.lane, lanes_twoDelayed]
    rfl
  refine ⟨due, takenBy_twoDelayed, fun keeps => ?_⟩
  have stand : ((q.dueIn (.ofMillis 5) 0).map (·.id)).Sublist (after.lane 0) := (keeps 0).1
  rw [due, lane] at stand
  exact absurd stand (by decide)

theorem second_of_two_delayed_is_popped_first :
    let q := (ofSettings .standard).after twoDelayed
    let after := (q.sweepIn .arrival (.ofMillis 5)).2
    ["second", "first"] <+: after.lane 0 ∧
      ["second", "first"].Sublist (after.takenBy [(1, .ofMillis 5), (1, .ofMillis 5)]) := by
  intro q after
  obtain ⟨-, calm, -⟩ := later_due_goes_out_first .standard twoDelayed .arrival (.ofMillis 5) 0
  have first_lane := calm (.inl rfl)
  rw [dueIn_twoDelayed] at first_lane
  obtain ⟨front, swapped⟩ := first_lane
  have out : "first" ∈ after.takenBy [(1, .ofMillis 5), (1, .ofMillis 5)] := by
    rw [takenBy_twoDelayed]
    decide
  have behind : (⟨.ofMillis 2, 1, "second"⟩ : Appointment) ∈
      [⟨.ofMillis 1, 0, "first"⟩, ⟨.ofMillis 2, 1, "second"⟩] := by decide
  exact ⟨front, swapped _ List.mem_cons_self _ behind (by decide) _ out⟩

end WorkBroker.Queue
