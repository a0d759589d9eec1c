import WorkBroker.Proofs.Hub.Fairness
/-!
Settling one delivery and taking the next in one request.  It comes to the same as a settlement and
then a pop at the same moment, but for the line being served in between.  Nobody is served there
unless the settlement itself makes a message ready: a message that was ready before would have gone
to the line already.
-/

set_option autoImplicit false
set_option relaxedAutoImplicit false

namespace WorkBroker

namespace Queue

private theorem hasReady_settle (q : Queue) (id : String) {requeue : Bool} {delay : Duration}
    (now : Instant) (waits : requeue = false ∨ 0 < delay.nanos) :
    (q.settle id requeue delay now).hasReady = q.hasReady := by
  cases requeue with
  | false => rfl
  | true =>
    have long : 0 < delay.nanos := waits.resolve_left Bool.noConfusion
    have not_zero : delay.isZero = false := by simp [Duration.isZero, Nat.ne_of_gt long]
    rw [settle_requeue, enqueueAfter, not_zero, if_neg Bool.false_ne_true, park]
    split <;> rfl

end Queue

namespace Hub

variable {h : Hub} {m : Moment} {call owner token : Nat} {id : String} {requeue wait : Bool}
  {delay : Duration} {queue : Queue} {line line' : List Waiter} {r : Receivers}
  {servedAt : Nat → Instant}

section Line

private theorem serveLine_of_not_ready (line : List Waiter) (nothing : queue.hasReady = false) :
    serveLine r servedAt line queue = ([], ⟨queue, line⟩) := by
  cases line with
  | nil => rfl
  | cons w rest => simp [serveLine, nothing]

private theorem serveLine_of_closed (servedAt : Nat → Instant) (queue : Queue)
    (closed : ∀ w ∈ line, r.isOpen w.call = false) :
    ∃ kept, kept.Sublist line ∧ serveLine r servedAt line queue = ([], ⟨queue, kept⟩) := by
  induction line with
  | nil => exact ⟨[], .refl _, rfl⟩
  | cons w rest ih =>
    cases ready : queue.hasReady with
    | false => exact ⟨w :: rest, .refl _, serveLine_of_not_ready _ ready⟩
    | true =>
      have gone : r.isOpen w.call = false := closed w List.mem_cons_self
      obtain ⟨kept, sub, served⟩ := ih fun v hv => closed v (List.mem_cons_of_mem w hv)
      refine ⟨kept, sub.cons w, ?_⟩
      simpa [serveLine, ready, gone] using served

private theorem turn_pop_congr (queue : Queue) (m : Moment) (call owner : Nat) (wait : Bool)
    (same : line.filter (fun w => m.first.isOpen w.call) =
      line'.filter fun w => m.first.isOpen w.call) :
    (Hub.mk queue line).turn m call (.pop owner wait) =
      (Hub.mk queue line').turn m call (.pop owner wait) := by
  simp only [turn, handle, serve, same]

theorem dispatch_of_idle (m : Moment) (idle : h.queue.hasReady → h.line = []) :
    h.dispatch m = ([], h) := by
  cases ready : h.queue.hasReady with
  | false => exact serveLine_of_not_ready h.line ready
  | true =>
    have empty : h.line = [] := idle ready
    simp only [dispatch, empty, serveLine]
    rw [← empty]

end Line

private theorem turn_ackPop_of_accepted
    (accepted : h.queue.ack id token requeue delay m.now = (.ok (), queue)) :
    h.turn m call (.ackPop owner id token requeue delay wait) =
      ((call, .settled) :: ((Hub.mk queue h.line).turn m call (.pop owner wait)).1,
        ((Hub.mk queue h.line).turn m call (.pop owner wait)).2) := by
  simp only [turn, handle, Queue.ackPop, accepted, List.cons_append]

private theorem turn_ack_of_accepted
    (accepted : h.queue.ack id token requeue delay m.now = (.ok (), queue)) :
    h.turn m call (.ack id token requeue delay) =
      ((call, .accepted) :: ((Hub.mk queue h.line).dispatch m).1,
        ((Hub.mk queue h.line).dispatch m).2) := by
  simp only [turn, handle, accepted, List.singleton_append]

section Settled

variable {m' : Moment} (idle : h.queue.hasReady → h.line = [])
  (yields : requeue = false ∨ 0 < delay.nanos ∨
    ∀ w ∈ h.line, m'.later.isOpen w.call = false ∧ m.first.isOpen w.call = false)

include idle yields

/-- When a settlement has been accepted, nobody in line is served unless it makes a message ready
and someone is there to take it. -/
theorem dispatch_settled (id : String) :
    ∃ kept, (Hub.mk (h.queue.settle id requeue delay m.now) h.line).dispatch m' =
        ([], ⟨h.queue.settle id requeue delay m.now, kept⟩) ∧
      h.line.filter (fun w => m.first.isOpen w.call) =
        kept.filter fun w => m.first.isOpen w.call := by
  rcases or_assoc.mpr yields with waits | closed
  · have same := h.queue.hasReady_settle id m.now waits
    exact ⟨h.line, dispatch_of_idle m' (same.symm ▸ idle), rfl⟩
  · obtain ⟨kept, sub, served⟩ := serveLine_of_closed m'.servedAt
      (h.queue.settle id requeue delay m.now) fun w hw => (closed w hw).1
    have gone : ∀ w ∈ h.line, ¬m.first.isOpen w.call := by
      intro w hw
      simp [(closed w hw).2]
    refine ⟨kept, served, ?_⟩
    rw [List.filter_eq_nil_iff.mpr gone,
      List.filter_eq_nil_iff.mpr fun w hw => gone w (sub.subset hw)]

private theorem turn_ack_settled (call : Nat) (same : m'.now = m.now)
    (accepted : h.queue.ack id token requeue delay m.now =
      (.ok (), h.queue.settle id requeue delay m.now)) :
    ∃ kept, h.turn m' call (.ack id token requeue delay) =
        ([(call, .accepted)], ⟨h.queue.settle id requeue delay m.now, kept⟩) ∧
      h.line.filter (fun w => m.first.isOpen w.call) =
        kept.filter fun w => m.first.isOpen w.call := by
  obtain ⟨kept, served, open_same⟩ := dispatch_settled idle yields id
  have accepted' : h.queue.ack id token requeue delay m'.now =
      (.ok (), h.queue.settle id requeue delay m.now) := same ▸ accepted
  exact ⟨kept, by rw [turn_ack_of_accepted accepted', served], open_same⟩

end Settled

private theorem turn_ackPop_of_refused (idle : h.queue.hasReady → h.line = []) {e : QueueError}
    (refused : h.queue.ack id token requeue delay m.now = (.error e, h.queue)) :
    h.turn m call (.ackPop owner id token requeue delay wait) = ([(call, .refused e)], h) := by
  have stays : (Hub.mk h.queue h.line).dispatch m = ([], h) := dispatch_of_idle m idle
  simp only [turn, handle, Queue.ackPop, refused, stays, List.append_nil]

/-- In every state that a hub can reach between two turns, a request that settles one delivery and
takes the next does the same as a settlement and then a pop at the same moment, and is answered the
same, provided that the settlement is accepted and either makes no message ready or nobody in line
is there to take it.  If the settlement is refused, the hub stays as it is, and the refusal is the
only answer. -/
theorem settling_and_taking_in_one (settings : QueueSettings) (turns : List Turn)
    (call call' owner : Nat) (id : String) (token : Nat) (requeue : Bool) (delay : Duration)
    (wait : Bool) (m m' : Moment) (same : m'.now = m.now) :
    let h := (life settings turns).2
    let acked := h.turn m' call' (.ack id token requeue delay)
    let popped := acked.2.turn m call (.pop owner wait)
    let both := h.turn m call (.ackPop owner id token requeue delay wait)
    ((h.queue.ack id token requeue delay m.now).1 = .ok () →
      (requeue = false ∨ 0 < delay.nanos ∨
        ∀ w ∈ h.line, m'.later.isOpen w.call = false ∧ m.first.isOpen w.call = false) →
      acked.1 = [(call', .accepted)] ∧ both = ((call, .settled) :: popped.1, popped.2)) ∧
    ∀ e, (h.queue.ack id token requeue delay m.now).1 = .error e →
      both = ([(call, .refused e)], h) := by
  intro h acked popped both
  have idle : h.queue.hasReady → h.line = [] := (orderly_life settings turns).idle
  rcases h.queue.ack_cases id token requeue delay m.now with ⟨e, refused⟩ | ⟨-, -, -, -, -, ok⟩
  · refine ⟨fun accepted => ?_, fun e' is_error => ?_⟩
    · simp [refused] at accepted
    · obtain rfl : e = e' := Except.error.inj (congrArg Prod.fst refused ▸ is_error)
      exact turn_ackPop_of_refused idle refused
  · refine ⟨fun _ yields => ?_, fun e is_error => ?_⟩
    · obtain ⟨kept, first, open_same⟩ := turn_ack_settled idle yields call' same ok
      have acked_eq : acked = _ := first
      have taken := turn_pop_congr (h.queue.settle id requeue delay m.now) m call owner wait
        open_same
      have both_eq : both = _ := turn_ackPop_of_accepted ok
      refine ⟨by rw [acked_eq], ?_⟩
      rw [both_eq, taken]
      simp only [popped, acked_eq]
    · simp [ok] at is_error

def oneOut : List Turn :=
  let m : Moment := .steady (fun _ => true) .start
  [.request m (.push 3 "a" [] 0 .zero), .request m (.pop 1 false), .request m (.pop 2 true)]

def secondGone : Moment := .steady (fun call => call != 2) .start

theorem settled_and_taken_again :
    let h := (life .standard oneOut).2
    let acked := h.turn secondGone 3 (.ack "a" 1 true .zero)
    let popped := acked.2.turn secondGone 4 (.pop 1 true)
    let both := h.turn secondGone 4 (.ackPop 1 "a" 1 true .zero true)
    h.line = [⟨2, 2⟩] ∧ both = ((4, .settled) :: popped.1, popped.2) ∧
      popped.1 = [(4, .delivery (some ⟨"a", 2, 1, []⟩))] := by
  intro h acked popped both
  have line : h.line = [⟨2, 2⟩] := by decide
  have accepted : (h.queue.ack "a" 1 true .zero secondGone.now).1 = .ok () := by rfl
  have gone : ∀ w ∈ h.line, secondGone.later.isOpen w.call = false ∧
      secondGone.first.isOpen w.call = false := by
    rw [line]
    decide
  have same := (settling_and_taking_in_one .standard oneOut 4 3 1 "a" 1 true .zero true secondGone
    secondGone rfl).1 accepted (.inr (.inr gone))
  exact ⟨line, same.2, by decide⟩

end Hub
end WorkBroker
