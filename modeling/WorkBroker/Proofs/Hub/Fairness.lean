import WorkBroker.Proofs.Hub.Line
import WorkBroker.Proofs.Queue.History
import Mathlib.Data.List.Induction
/-!
The hub over a whole run.  Calls are numbered by the turns in which they are made, so the line is
always sorted by the numbers of the calls, and whoever stands further back has a higher number.
That, together with the idleness of either the queue or the line, is the invariant of a run; from
it follow who may leave the line in a turn and in which order those who wait are served.
-/

set_option autoImplicit false
set_option relaxedAutoImplicit false

namespace WorkBroker.Hub

variable {h : Hub} {n : Nat} {t : Turn} {w : Waiter}

/-- One turn of the hub, in which the call of that number may be made. -/
def step (h : Hub) (call : Nat) : Turn → List Reply × Hub
  | .request m request => h.turn m call request
  | .timer m => h.tick m

theorem step_eq (h : Hub) (call : Nat) (t : Turn) :
    h.step call t =
      ((h.act call t).1 ++ ((h.act call t).2.dispatch t.moment).1,
        ((h.act call t).2.dispatch t.moment).2) := by
  cases t <;> rfl

/-- What holds of a hub between two turns, `n` turns having passed. -/
structure Orderly (n : Nat) (h : Hub) : Prop where
  coherent : h.queue.Coherent
  idle : h.queue.hasReady → h.line = []
  sorted : h.line.Pairwise (·.call < ·.call)
  numbered : ∀ w ∈ h.line, w.call < n

/-- Both halves of a turn, seen from an orderly hub: the line between them is sorted, and whoever
has joined it stands at its end. -/
theorem Orderly.halves (o : Orderly n h) (t : Turn) :
    ∃ first others middle, (h.step n t).1 = first ++ others ∧ Carried h n t first middle ∧
      middle.line.Pairwise (·.call < ·.call) ∧ (∀ w ∈ middle.line, w.call ≤ n) ∧
      Served t.moment.later middle.line others (h.step n t).2 := by
  have c := carried_act o.coherent n t
  have s := served_serveLine t.moment.later t.moment.servedAt (h.act n t).2.line
    (c.moves.coherent o.coherent)
  refine ⟨_, _, _, by rw [step_eq], c, ?_⟩
  rw [← and_assoc]
  refine ⟨?_, by rw [step_eq]; exact s⟩
  obtain ⟨kept, sub, line⟩ := c.line
  have sorted := o.sorted.sublist sub
  have numbered : ∀ w ∈ kept, w.call < n := fun w hw => o.numbered w (sub.subset hw)
  rcases line with same | ⟨⟨owner, joined⟩, -⟩
  · rw [same]
    exact ⟨sorted, fun w hw => Nat.le_of_lt (numbered w hw)⟩
  · rw [joined]
    constructor
    · refine List.pairwise_append.mpr ⟨sorted, List.pairwise_singleton _ _, fun w hw v hv => ?_⟩
      rw [List.mem_singleton.mp hv]
      exact numbered w hw
    · intro w hw
      rcases List.mem_append.mp hw with hw | hw
      · exact Nat.le_of_lt (numbered w hw)
      · exact Nat.le_of_eq (congrArg Waiter.call (List.mem_singleton.mp hw))

/-- Every turn leaves the hub orderly. -/
theorem Orderly.step (o : Orderly n h) (t : Turn) : Orderly (n + 1) (h.step n t).2 := by
  obtain ⟨first, others, middle, -, -, sorted, numbered, s⟩ := o.halves t
  obtain ⟨gone, split, -⟩ := s.split
  have rest : (h.step n t).2.line.Sublist middle.line := by
    rw [split]
    exact List.sublist_append_right _ _
  exact ⟨s.coherent, s.idle, sorted.sublist rest,
    fun w hw => Nat.lt_succ_of_le (numbered w (rest.subset hw))⟩

section Order

/-- Whether, in a list of replies, every delivery to the second call comes after one to the first.
-/
def ServedFirst (replies : List Reply) (first second : Nat) : Prop :=
  ∀ before d after, replies = before ++ (second, .delivery (some d)) :: after →
    ∃ d', (first, .delivery (some d')) ∈ before

variable {first second : Nat} {replies more : List Reply}

private theorem split_of_append {α : Type} {xs ys before after : List α} {a : α}
    (h : xs ++ ys = before ++ a :: after) :
    (∃ rest, xs = before ++ a :: rest) ∨ ∃ rest, before = xs ++ rest ∧ ys = rest ++ a :: after := by
  rcases List.append_eq_append_iff.mp h with ⟨rest, hbefore, hys⟩ | ⟨rest, hxs, hafter⟩
  · exact .inr ⟨rest, hbefore, hys⟩
  · cases rest with
    | nil => exact .inr ⟨[], by simpa using hxs.symm, hafter.symm⟩
    | cons b rest =>
      obtain ⟨rfl, -⟩ := List.cons.inj hafter
      exact .inl ⟨rest, hxs⟩

private theorem servedFirst_of_unserved (unserved : ∀ d, (second, .delivery (some d)) ∉ replies) :
    ServedFirst replies first second := by
  intro before d after split
  have hd : (second, .delivery (some d)) ∈ replies := by
    rw [split]
    simp
  exact absurd hd (unserved d)

private theorem ServedFirst.append (h : ServedFirst replies first second)
    (h' : ServedFirst more first second) : ServedFirst (replies ++ more) first second := by
  intro before d after split
  rcases split_of_append split with ⟨rest, hreplies⟩ | ⟨rest, rfl, hmore⟩
  · exact h before d rest hreplies
  · obtain ⟨d', handed⟩ := h' rest d after hmore
    exact ⟨d', List.mem_append_right _ handed⟩

private theorem ServedFirst.append_of_handed (h : ServedFirst replies first second) {d : Delivery}
    (handed : (first, .delivery (some d)) ∈ replies) (more : List Reply) :
    ServedFirst (replies ++ more) first second := by
  intro before d' after split
  rcases split_of_append split with ⟨rest, hreplies⟩ | ⟨rest, rfl, -⟩
  · exact h before d' rest hreplies
  · exact ⟨d, List.mem_append_left _ handed⟩

end Order

section Served

variable {r : Receivers} {line : List Waiter} {replies : List Reply}

private theorem Served.handed (s : Served r line replies h) (hw : w ∈ line) (there : r.takes w)
    (left : w ∉ h.line) : ∃ d, (w.call, .delivery (some d)) ∈ replies := by
  obtain ⟨gone, split, calls⟩ := s.split
  have hgone : w ∈ gone := by
    rw [split] at hw
    exact (List.mem_append.mp hw).resolve_right left
  have reached : w.call ∈ replies.map Prod.fst := by
    rw [calls]
    exact List.mem_map_of_mem (List.mem_filter.mpr ⟨hgone, there⟩)
  obtain ⟨⟨call, answer⟩, hreply, rfl⟩ := List.mem_map.mp reached
  obtain ⟨d, rfl⟩ := s.deliveries _ hreply
  exact ⟨d, hreply⟩

private theorem Served.ahead (s : Served r line replies h)
    (sorted : line.Pairwise (·.call < ·.call)) {reply : Reply} (hreply : reply ∈ replies) :
    (∃ v ∈ line, v.call = reply.1) ∧ ∀ w ∈ h.line, reply.1 < w.call := by
  obtain ⟨gone, split, calls⟩ := s.split
  have reached : reply.1 ∈ (gone.filter r.takes).map (·.call) := calls ▸ List.mem_map_of_mem hreply
  obtain ⟨v, hv, call⟩ := List.mem_map.mp reached
  have hgone := (List.mem_filter.mp hv).1
  refine ⟨⟨v, split ▸ List.mem_append_left _ hgone, call⟩, fun w hw => ?_⟩
  rw [split] at sorted
  exact call ▸ (List.pairwise_append.mp sorted).2.2 v hgone w hw

private theorem Served.sorted (s : Served r line replies h)
    (sorted : line.Pairwise (·.call < ·.call)) :
    (replies.map Prod.fst).Pairwise (· < ·) := by
  obtain ⟨gone, split, calls⟩ := s.split
  rw [split] at sorted
  rw [calls]
  exact ((List.pairwise_append.mp sorted).1.sublist List.filter_sublist).map _ fun _ _ => id

/-- Nobody who stands further back is served before a consumer that can be reached. -/
theorem Served.servedFirst (s : Served r line replies h)
    (sorted : line.Pairwise (·.call < ·.call)) (hw : w ∈ line) (there : r.takes w) {call : Nat}
    (later : w.call < call) : ServedFirst replies w.call call := by
  intro before d after split
  have hd : (call, .delivery (some d)) ∈ replies := by
    rw [split]
    simp
  have left : w ∉ h.line := fun still => Nat.lt_asymm later ((s.ahead sorted hd).2 w still)
  obtain ⟨d', handed⟩ := s.handed hw there left
  have increasing := s.sorted sorted
  rw [split, List.map_append, List.map_cons] at increasing
  have behind := (List.pairwise_cons.mp (List.pairwise_append.mp increasing).2.1).1
  rw [split] at handed
  refine ⟨d', (List.mem_append.mp handed).resolve_right fun after' => ?_⟩
  rcases List.mem_cons.mp after' with same | after'
  · exact absurd (congrArg Prod.fst same) (Nat.ne_of_lt later)
  · exact absurd (behind _ (List.mem_map_of_mem after')) (Nat.lt_asymm later)

end Served

section Turns

private theorem Orderly.call_le (o : Orderly n h) (t : Turn) {reply : Reply}
    (hreply : reply ∈ (h.step n t).1) : reply.1 ≤ n := by
  obtain ⟨first, others, middle, eq, c, sorted, numbered, s⟩ := o.halves t
  rw [eq] at hreply
  rcases List.mem_append.mp hreply with hreply | hreply
  · rcases c.answers reply hreply with ⟨same, -⟩ | ⟨-, owner, -, stood⟩
    · exact Nat.le_of_eq same
    · exact Nat.le_of_lt (o.numbered _ stood)
  · obtain ⟨⟨v, hv, call⟩, -⟩ := s.ahead sorted hreply
    exact call ▸ numbered v hv

private theorem Orderly.leaves (o : Orderly n h) (t : Turn) (hw : w ∈ h.line)
    (left : w ∉ (h.step n t).2.line) :
    (∃ d, (w.call, .delivery (some d)) ∈ (h.step n t).1) ∨ ¬t.FindsOpen w ∨
      t.Releases w.owner := by
  by_cases released : t.Releases w.owner
  · exact .inr (.inr released)
  by_cases found : t.FindsOpen w
  · obtain ⟨first, others, middle, eq, c, -, -, s⟩ := o.halves t
    have stays := c.stays w hw found.1 released
    have there : t.moment.later.takes w := by simp [Receivers.takes, found.2.1, found.2.2]
    obtain ⟨d, hd⟩ := s.handed stays there left
    exact .inl ⟨d, eq ▸ List.mem_append_right _ hd⟩
  · exact .inr (.inl found)

private theorem Orderly.dropped (o : Orderly n h) (t : Turn) {call : Nat}
    (hreply : (call, .dropped) ∈ (h.step n t).1) :
    ∃ owner, t.Releases owner ∧ ⟨owner, call⟩ ∈ h.line := by
  obtain ⟨first, others, middle, eq, c, -, -, s⟩ := o.halves t
  rw [eq] at hreply
  rcases List.mem_append.mp hreply with hreply | hreply
  · rcases c.answers _ hreply with ⟨-, answered⟩ | ⟨-, released⟩
    · exact absurd rfl answered
    · exact released
  · obtain ⟨d, hd⟩ := s.deliveries _ hreply
    simp at hd

private theorem Orderly.joins (o : Orderly n h) (t : Turn) (new : w ∉ h.line)
    (hw : w ∈ (h.step n t).2.line) :
    w.call = n ∧ ∀ d, (w.call, .delivery (some d)) ∉ (h.step n t).1 := by
  obtain ⟨first, others, middle, eq, c, sorted, -, s⟩ := o.halves t
  obtain ⟨gone, split, -⟩ := s.split
  have hmiddle : w ∈ middle.line := split ▸ List.mem_append_right _ hw
  obtain ⟨kept, sub, same | ⟨⟨owner, joined⟩, unanswered⟩⟩ := c.line
  · exact absurd (sub.subset (same ▸ hmiddle)) new
  · rw [joined] at hmiddle
    rcases List.mem_append.mp hmiddle with hkept | hlast
    · exact absurd (sub.subset hkept) new
    · have call : w.call = n := congrArg Waiter.call (List.mem_singleton.mp hlast)
      refine ⟨call, fun d hd => ?_⟩
      rw [eq] at hd
      rcases List.mem_append.mp hd with hd | hd
      · exact unanswered d (call ▸ hd)
      · exact Nat.lt_irrefl _ ((s.ahead sorted hd).2 w hw)

private theorem Orderly.servedFirst (o : Orderly n h) (t : Turn) (hw : w ∈ h.line)
    (found : t.FindsOpen w)
    (spared : ¬t.Releases w.owner) {call : Nat} (later : w.call < call) (earlier : call < n) :
    ServedFirst (h.step n t).1 w.call call := by
  obtain ⟨first, others, middle, eq, c, sorted, -, s⟩ := o.halves t
  have stays := c.stays w hw found.1 spared
  have there : t.moment.later.takes w := by simp [Receivers.takes, found.2.1, found.2.2]
  -- The first half hands a delivery to the call of the turn only.
  have unserved : ∀ d, (call, .delivery (some d)) ∉ first := by
    intro d hd
    rcases c.answers _ hd with ⟨same, -⟩ | ⟨dropped, -⟩
    · exact absurd same (Nat.ne_of_lt earlier)
    · simp at dropped
  rw [eq]
  exact (servedFirst_of_unserved unserved).append (s.servedFirst sorted stays there later)

end Turns

section Runs

variable {settings : QueueSettings} {turns : List Turn}

/-- What the hub has replied in the course of some turns, and what has become of it; the call of a
turn has the number of the turn. -/
def life (settings : QueueSettings) (turns : List Turn) : List Reply × Hub :=
  turns.zipIdx.foldl
    (fun (log, h) (t, call) =>
      let (replies, h) := h.step call t
      (log ++ replies, h))
    ([], ofSettings settings)

private theorem life_concat (settings : QueueSettings) (turns : List Turn) (t : Turn) :
    life settings (turns ++ [t]) =
      ((life settings turns).1 ++ ((life settings turns).2.step turns.length t).1,
        ((life settings turns).2.step turns.length t).2) := by
  simp only [life, List.zipIdx_append, List.foldl_append, List.zipIdx_singleton, List.foldl_cons,
    List.foldl_nil, Nat.zero_add]

/-- Between any two turns the hub is orderly. -/
theorem orderly_life (settings : QueueSettings) (turns : List Turn) :
    Orderly turns.length (life settings turns).2 := by
  induction turns using List.reverseRecOn with
  | nil =>
    exact ⟨Queue.coherent_ofSettings settings, fun _ => rfl, List.Pairwise.nil,
      fun w hw => absurd hw List.not_mem_nil⟩
  | append_singleton turns t ih =>
    rw [life_concat, List.length_append]
    exact ih.step t

private theorem call_lt_length {reply : Reply} (hreply : reply ∈ (life settings turns).1) :
    reply.1 < turns.length := by
  induction turns using List.reverseRecOn with
  | nil => exact absurd hreply List.not_mem_nil
  | append_singleton turns t ih =>
    rw [life_concat] at hreply
    rw [List.length_append, List.length_singleton]
    rcases List.mem_append.mp hreply with hreply | hreply
    · exact Nat.lt_succ_of_lt (ih hreply)
    · exact Nat.lt_succ_of_le ((orderly_life settings turns).call_le t hreply)

/-- Whether a consumer comes into the line in the turn of that number. -/
def Parks (settings : QueueSettings) (turns : List Turn) (n : Nat) (w : Waiter) : Prop :=
  w ∉ (life settings (turns.take n)).2.line ∧ w ∈ (life settings (turns.take (n + 1))).2.line

private theorem Parks.lt_length {n : Nat} (p : Parks settings turns n w) : n < turns.length := by
  by_contra short
  have same : turns.take (n + 1) = turns.take n := by
    rw [List.take_of_length_le (by omega), List.take_of_length_le (by omega)]
  exact p.1 (same ▸ p.2)

private theorem Parks.of_concat {n : Nat} (p : Parks settings (turns ++ [t]) n w)
    (past : n < turns.length) : Parks settings turns n w := by
  rwa [Parks, List.take_append_of_le_length (by omega), List.take_append_of_le_length past] at p

private theorem Parks.last (p : Parks settings (turns ++ [t]) turns.length w) :
    w ∉ (life settings turns).2.line ∧
      w ∈ ((life settings turns).2.step turns.length t).2.line := by
  rw [Parks, List.take_append_of_le_length (Nat.le_refl _), List.take_length,
    List.take_of_length_le (by simp), life_concat] at p
  exact p

private theorem Parks.call_eq {n : Nat} (p : Parks settings turns n w) : w.call = n := by
  induction turns using List.reverseRecOn with
  | nil => exact absurd p.lt_length (Nat.not_lt_zero n)
  | append_singleton turns t ih =>
    rcases Nat.lt_or_eq_of_le (Nat.le_of_lt_succ (by simpa using p.lt_length)) with past | rfl
    · exact ih (p.of_concat past)
    · exact ((orderly_life settings turns).joins t p.last.1 p.last.2).1

/-- Whether a consumer is found open and is not released in the turns after the one of that number.
-/
def Persists (turns : List Turn) (n : Nat) (w : Waiter) : Prop :=
  ∀ t ∈ turns.drop (n + 1), t.FindsOpen w ∧ ¬t.Releases w.owner

private theorem persists_concat {n : Nat} (past : n < turns.length) :
    Persists (turns ++ [t]) n w ↔ Persists turns n w ∧ t.FindsOpen w ∧ ¬t.Releases w.owner := by
  simp only [Persists, List.drop_append_of_le_length past, List.mem_append, List.mem_singleton]
  constructor
  · intro all
    exact ⟨fun u hu => all u (.inl hu), all t (.inr rfl)⟩
  · rintro ⟨before, last⟩ u (hu | rfl)
    · exact before u hu
    · exact last

private theorem Parks.waits_or_handed {n : Nat} (p : Parks settings turns n w)
    (stays : Persists turns n w) :
    w ∈ (life settings turns).2.line ∨
      ∃ d, (w.call, .delivery (some d)) ∈ (life settings turns).1 := by
  induction turns using List.reverseRecOn with
  | nil => exact absurd p.lt_length (Nat.not_lt_zero n)
  | append_singleton turns t ih =>
    rw [life_concat]
    rcases Nat.lt_or_eq_of_le (Nat.le_of_lt_succ (by simpa using p.lt_length)) with past | rfl
    · obtain ⟨before, found, spared⟩ := (persists_concat past).mp stays
      rcases ih (p.of_concat past) before with waits | ⟨d, handed⟩
      · by_cases still : w ∈ ((life settings turns).2.step turns.length t).2.line
        · exact .inl still
        · obtain ⟨d, handed⟩ | gone | released :=
            (orderly_life settings turns).leaves t waits still
          · exact .inr ⟨d, List.mem_append_right _ handed⟩
          · exact absurd found gone
          · exact absurd released spared
      · exact .inr ⟨d, List.mem_append_left _ handed⟩
    · exact .inl p.last.2

/-- Of two consumers in line, the one that was parked first is served first. -/
theorem Parks.servedFirst {v : Waiter} {n k : Nat} (p : Parks settings turns n v)
    (p' : Parks settings turns k w) (first : n < k) (stays : Persists turns n v) :
    ServedFirst (life settings turns).1 v.call w.call := by
  induction turns using List.reverseRecOn with
  | nil => exact absurd p.lt_length (Nat.not_lt_zero n)
  | append_singleton turns t ih =>
    have o := orderly_life settings turns
    have hk : k ≤ turns.length := Nat.le_of_lt_succ (by simpa using p'.lt_length)
    have past : n < turns.length := Nat.lt_of_lt_of_le first hk
    obtain ⟨before, found, spared⟩ := (persists_concat past).mp stays
    have pv := p.of_concat past
    rw [life_concat]
    dsimp only
    rcases Nat.lt_or_eq_of_le hk with hk | rfl
    · -- Both were parked before this turn, and the first one waits or has got its delivery.
      have pw := p'.of_concat hk
      have log := ih pv pw before
      rcases pv.waits_or_handed before with waits | ⟨d, handed⟩
      · have later : v.call < w.call := by rwa [pv.call_eq, pw.call_eq]
        exact log.append (o.servedFirst t waits found spared later (pw.call_eq ▸ hk))
      · exact log.append_of_handed handed _
    · -- The later one has only just been parked: it has got no delivery yet.
      obtain ⟨call, unanswered⟩ := o.joins t p'.last.1 p'.last.2
      refine servedFirst_of_unserved fun d hd => ?_
      rcases List.mem_append.mp hd with hd | hd
      · exact absurd call (Nat.ne_of_lt (call_lt_length hd))
      · exact unanswered d hd

/-- Between two turns nobody waits while a message is ready, and a pop gives one whenever the
counter says so.  As long as the hub runs, a consumer leaves the line with a delivery, because it
has gone, or by a release, and nobody is sent away without an answer otherwise; and of two consumers
in line, the one that was parked first is served first as long as it stays. -/
theorem line_is_served (settings : QueueSettings) (turns : List Turn) :
    ((∃ m ∈ (life settings turns).2.queue.messages, m.state = .queued) →
      (life settings turns).2.line = []) ∧
    ((life settings turns).2.queue.hasReady → ∀ owner now,
      ∃ d, ((life settings turns).2.queue.pop owner now).1 = some d) ∧
    (∀ t, ∀ w ∈ (life settings turns).2.line,
      w ∉ ((life settings turns).2.step turns.length t).2.line →
        (∃ d, (w.call, .delivery (some d)) ∈ ((life settings turns).2.step turns.length t).1) ∨
          ¬t.FindsOpen w ∨ t.Releases w.owner) ∧
    (∀ t call, (call, .dropped) ∈ ((life settings turns).2.step turns.length t).1 →
      ∃ owner, t.Releases owner ∧ ⟨owner, call⟩ ∈ (life settings turns).2.line) ∧
    ∀ v w n k, Parks settings turns n v → Parks settings turns k w → n < k →
      Persists turns n v → ServedFirst (life settings turns).1 v.call w.call := by
  have o := orderly_life settings turns
  refine ⟨fun ready => o.idle (o.coherent.hasReady_iff.mpr ready), ?_, ?_, ?_, ?_⟩
  · intro ready owner now
    obtain ⟨d, _, h⟩ := o.coherent.pop_of_hasReady ready owner now
    exact ⟨d, by rw [h]⟩
  · intro t w hw left
    exact o.leaves t hw left
  · intro t call hreply
    exact o.dropped t hreply
  · intro v w n k parked parked' first stays
    exact parked.servedFirst parked' first stays

/-- Two consumers wait on an empty queue, and two messages come. -/
def twoWaiting : List Turn :=
  let m : Moment := .steady (fun _ => true) .start
  [.request m (.pop 1 true), .request m (.pop 2 true), .request m (.push 3 "a" [] 0 .zero),
    .request m (.push 3 "b" [] 0 .zero)]

theorem two_waiting_served_in_turn :
    Parks .standard twoWaiting 0 ⟨1, 0⟩ ∧ Parks .standard twoWaiting 1 ⟨2, 1⟩ ∧
      (1, .delivery (some ⟨"b", 2, 1, []⟩)) ∈ (life .standard twoWaiting).1 ∧
      ServedFirst (life .standard twoWaiting).1 0 1 := by
  have first : Parks .standard twoWaiting 0 ⟨1, 0⟩ := by constructor <;> decide
  have second : Parks .standard twoWaiting 1 ⟨2, 1⟩ := by constructor <;> decide
  refine ⟨first, second, by decide, ?_⟩
  refine (line_is_served .standard twoWaiting).2.2.2.2 _ _ _ _ first second (by decide) ?_
  intro t ht
  simp only [twoWaiting, List.drop_succ_cons, List.drop_zero, List.mem_cons, List.not_mem_nil,
    or_false] at ht
  rcases ht with rfl | rfl | rfl <;> exact ⟨⟨rfl, rfl, rfl⟩, by rintro ⟨m, h⟩; simp at h⟩

end Runs

end WorkBroker.Hub
