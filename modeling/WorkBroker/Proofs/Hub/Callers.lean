import WorkBroker.Hub.Desk
import WorkBroker.Proofs.Hub.Deeds
/-!
What becomes of a call.  A caller acts on its own: it fetches its answer, gives up when its time is
over, is cancelled, or goes away; and it hears what the hub tells it.  Whatever happens in whatever
order, a call that has turned away takes nothing any more, and one that was given a delivery keeps
it until the caller abandons it.
-/

set_option autoImplicit false
set_option relaxedAutoImplicit false

namespace WorkBroker

/-- What makes a caller turn away from its call: its time may be over, it is cancelled, or it goes.
-/
inductive Departure
  | expire (call : Nat) (now : Instant)
  | cancel (call : Nat)
  | leave (call : Nat)
  deriving DecidableEq, Repr

def Departure.call : Departure → Nat
  | .expire call _ | .cancel call | .leave call => call

namespace Call

variable {c c' : Call} {xs ys : List Departure} {looks more : List Look} {d : Delivery}
  {replies : List Reply} {now : Instant}

/-- The call when its caller has a reason to turn away; a caller with a result has nothing left to
leave. -/
def depart (c : Call) : Departure → Call
  | .expire _ now => c.expire now
  | .cancel _ => c.cancel
  | .leave _ => if c.isWaiting then c.leave else c

def departs (c : Call) (xs : List Departure) : Call :=
  xs.foldl (fun c x => if c.number == x.call then c.depart x else c) c

/-- The call after some replies, of which it hears its own. -/
def hear (c : Call) (now : Instant) (replies : List Reply) : Call :=
  replies.foldl (fun c reply => if c.number == reply.1 then c.receive reply.2 now else c) c

section States

/-- Whether the caller gave up when its time was over. -/
def TimedOut (xs : List Departure) (c : Call) : Prop :=
  ∃ wait since now, c.wait = some wait ∧ c.since = some since ∧ since.afterWait wait ≤ now ∧
    .expire c.number now ∈ xs

/-- Whether the caller was cancelled while it waited, or has gone. -/
def Abandoned (xs : List Departure) (c : Call) : Prop :=
  c.state = .finished (.error .shuttingDown) ∧ .cancel c.number ∈ xs ∨
    c.state = .gone ∧ .leave c.number ∈ xs

/-- Whether the caller has turned away without an answer of the hub. -/
def Away (xs : List Departure) (c : Call) : Prop :=
  c.state = .finished (.ok (.delivery none)) ∧ c.TimedOut xs ∨ c.Abandoned xs

def Asks (xs : List Departure) (c : Call) : Prop := c.state = .pending ∨ c.Away xs

def Got (c : Call) (d : Delivery) : Prop :=
  c.state = .offered (.delivery (some d)) ∨ c.state = .finished (.ok (.delivery (some d)))

def Holds (xs : List Departure) (c : Call) (d : Delivery) : Prop := c.Got d ∨ c.Abandoned xs

/-- Whether the call is one that does not wait, and a look for it found nothing. -/
def FoundNothing (looks : List Look) (c : Call) : Prop :=
  c.wait = none ∧ ∃ x ∈ looks, x.waiter.call = c.number ∧ x.found = none

/-- Whether whatever the caller knows of deliveries is true. -/
structure Justified (xs : List Departure) (looks : List Look) (c : Call) : Prop where
  got : ∀ d, c.Got d → ∃ x ∈ looks, x.waiter.call = c.number ∧ x.found = some d ∧ x.taken
  offered : c.state = .offered (.delivery none) → c.FoundNothing looks
  finished : c.state = .finished (.ok (.delivery none)) → c.TimedOut xs ∨ c.FoundNothing looks

private theorem TimedOut.mono (h : c.TimedOut xs) (sub : xs ⊆ ys) : c.TimedOut ys := by
  obtain ⟨wait, since, now, hwait, hsince, late, hx⟩ := h
  exact ⟨wait, since, now, hwait, hsince, late, sub hx⟩

private theorem Abandoned.mono (h : c.Abandoned xs) (sub : xs ⊆ ys) : c.Abandoned ys :=
  h.imp (And.imp_right fun hx => sub hx) (And.imp_right fun hx => sub hx)

private theorem Away.mono (h : c.Away xs) (sub : xs ⊆ ys) : c.Away ys :=
  h.imp (And.imp_right fun late => late.mono sub) fun gone => gone.mono sub

private theorem Asks.mono (h : c.Asks xs) (sub : xs ⊆ ys) : c.Asks ys :=
  h.imp_right fun away => away.mono sub

private theorem Holds.mono (h : c.Holds xs d) (sub : xs ⊆ ys) : c.Holds ys d :=
  h.imp_right fun gone => gone.mono sub

private theorem FoundNothing.mono (h : c.FoundNothing looks) (sub : looks ⊆ more) :
    c.FoundNothing more := by
  obtain ⟨wait, x, hx, nothing⟩ := h
  exact ⟨wait, x, sub hx, nothing⟩

private theorem Justified.mono (h : c.Justified xs looks) (departed : xs ⊆ ys)
    (sub : looks ⊆ more) :
    c.Justified ys more where
  got d got := by
    obtain ⟨x, hx, found⟩ := h.got d got
    exact ⟨x, sub hx, found⟩
  offered state := (h.offered state).mono sub
  finished state :=
    (h.finished state).imp (fun late => late.mono departed) fun none => none.mono sub

theorem justified_of_unserved (unserved : ∀ a, c.state ≠ .offered (.delivery a) ∧
    c.state ≠ .finished (.ok (.delivery a))) : c.Justified xs looks where
  got _ got := got.elim (fun h => absurd h (unserved _).1) fun h => absurd h (unserved _).2
  offered state := absurd state (unserved _).1
  finished state := absurd state (unserved _).2

private theorem Abandoned.not_waiting (h : c.Abandoned xs) : ¬c.isWaiting := by
  rcases h with ⟨state, -⟩ | ⟨state, -⟩ <;> simp [isWaiting, state]

private theorem Away.not_waiting (h : c.Away xs) : ¬c.isWaiting := by
  rcases h with ⟨state, -⟩ | gone
  · simp [isWaiting, state]
  · exact gone.not_waiting

private theorem Away.state_ne (h : c.Away xs) : c.state ≠ .pending := by
  intro pending
  exact h.not_waiting (by simp [isWaiting, pending])

private theorem Holds.state_ne (h : c.Holds xs d) : c.state ≠ .pending := by
  rcases h with (state | state) | gone
  · simp [state]
  · simp [state]
  · intro pending
    exact gone.not_waiting (by simp [isWaiting, pending])

private theorem Away.not_got (h : c.Away xs) (d : Delivery) : ¬c.Got d := by
  rintro (state | state)
  · exact h.not_waiting (by simp [isWaiting, state])
  · rcases h with ⟨none, -⟩ | ⟨error, -⟩ | ⟨gone, -⟩ <;> simp_all

theorem Abandoned.not_got (h : c.Abandoned xs) (d : Delivery) : ¬c.Got d :=
  Away.not_got (.inr h) d

theorem isOpen_iff : c.isOpen ↔ c.state = .pending := by
  rw [isOpen]
  cases c.state <;> simp

theorem Asks.away (h : c.Asks xs) (closed : c.isOpen = false) : c.Away xs :=
  h.resolve_left fun pending => by simp [isOpen_iff.mpr pending] at closed

end States

section Acts

/-- What a caller may do on its own, given the departures so far. -/
inductive Acts (xs : List Departure) : Call → Call → Prop
  | stay (c : Call) : Acts xs c c
  | fetch {c : Call} {a : Answer} (offered : c.state = .offered a) :
      Acts xs c { c with state := .finished (resultOf a) }
  | timeOut {c : Call} (unanswered : c.state = .pending ∨ c.state = .offered .dropped)
      (late : c.TimedOut xs) : Acts xs c { c with state := .finished (.ok (.delivery none)) }
  | abandon {c : Call} {state : CallState} (waiting : c.isWaiting)
      (abandoned : Abandoned xs { c with state }) : Acts xs c { c with state }

theorem acts_collect (xs : List Departure) (c : Call) : Acts xs c c.collect := by
  cases state : c.state with
  | offered a =>
    rw [collect, state]
    exact .fetch state
  | _ =>
    rw [collect, state]
    exact .stay c

theorem acts_depart {x : Departure} (here : c.number = x.call) (hx : x ∈ xs) :
    Acts xs c (c.depart x) := by
  cases x with
  | expire call now =>
    rw [depart, expire]
    cases deadline : c.deadline? with
    | none => exact .stay c
    | some deadline' =>
      dsimp only
      split_ifs with past
      · have late : c.TimedOut xs := by
          rw [deadline?] at deadline
          split at deadline
          · rename_i wait since _ hwait hsince
            obtain rfl := Option.some.inj deadline
            exact ⟨wait, since, now, hwait, hsince, past, here ▸ hx⟩
          · cases deadline
        -- Whoever gives up takes what is there; only an unanswered call ends with nothing.
        rw [giveUp]
        split
        · exact .timeOut (.inl ‹_›) late
        · exact .timeOut (.inr ‹_›) late
        · exact acts_collect xs c
      · exact .stay c
  | cancel call =>
    rw [depart, cancel]
    split_ifs with waits
    · have waiting : c.isWaiting := by
        rw [deadline?] at waits
        split at waits
        · assumption
        · simp at waits
      exact .abandon waiting (.inl ⟨rfl, here ▸ hx⟩)
    · exact .stay c
  | leave call =>
    rw [depart]
    split_ifs with waiting
    · exact .abandon waiting (.inr ⟨rfl, here ▸ hx⟩)
    · exact .stay c

theorem Acts.same (h : Acts xs c c') :
    c'.number = c.number ∧ c'.request = c.request ∧ c'.wait = c.wait := by
  cases h <;> exact ⟨rfl, rfl, rfl⟩

private theorem Acts.eq_of_not_waiting (h : Acts xs c c') (done : ¬c.isWaiting) : c' = c := by
  cases h with
  | stay => rfl
  | fetch offered => exact absurd (by simp [isWaiting, offered]) done
  | timeOut unanswered late =>
    rcases unanswered with state | state <;> exact absurd (by simp [isWaiting, state]) done
  | abandon waiting abandoned => exact absurd waiting done

private theorem Away.act (h : c.Away xs) (act : Acts xs c c') : c'.Away xs :=
  act.eq_of_not_waiting h.not_waiting ▸ h

theorem Asks.act (h : c.Asks xs) (act : Acts xs c c') : c'.Asks xs := by
  rcases h with pending | away
  · cases act with
    | stay => exact .inl pending
    | fetch offered => simp [pending] at offered
    | timeOut _ late => exact .inr (.inl ⟨rfl, late⟩)
    | abandon _ abandoned => exact .inr (.inr abandoned)
  · exact .inr (away.act act)

private theorem Holds.act (h : c.Holds xs d) (act : Acts xs c c') : c'.Holds xs d := by
  cases act with
  | stay => exact h
  | fetch offered =>
    rcases h with (state | state) | gone
    · obtain rfl := CallState.offered.inj (offered.symm.trans state)
      exact .inl (.inr rfl)
    · simp [state] at offered
    · exact absurd (by simp [isWaiting, offered]) gone.not_waiting
  | timeOut unanswered _ =>
    rcases h with (state | state) | gone
    · simp [state] at unanswered
    · simp [state] at unanswered
    · rcases unanswered with state | state <;>
        exact absurd (by simp [isWaiting, state]) gone.not_waiting
  | abandon _ abandoned =>
    -- A caller that is cancelled drops what it was offered.
    exact .inr abandoned

private theorem Justified.act (h : c.Justified xs looks) (act : Acts xs c c') :
    c'.Justified xs looks := by
  cases act with
  | stay => exact h
  | @fetch a offered =>
    constructor
    · rintro d (state | state)
      · cases state
      · have same : a = .delivery (some d) := by
          cases a <;> simp_all [resultOf]
        exact h.got d (.inl (same ▸ offered))
    · exact fun state => nomatch state
    · intro state
      have same : a = .delivery none := by
        cases a <;> simp_all [resultOf]
      exact .inr (h.offered (same ▸ offered))
  | timeOut _ late =>
    refine ⟨?_, (fun state => nomatch state), fun _ => .inl late⟩
    rintro d (state | state) <;> simp at state
  | abandon _ abandoned =>
    refine ⟨fun d got => absurd got (abandoned.not_got d), fun state => ?_, fun state => ?_⟩
    · exact absurd (by rw [isWaiting, state]) abandoned.not_waiting
    · rcases abandoned with ⟨error, -⟩ | ⟨gone, -⟩ <;> simp_all

end Acts

section Hear

theorem receive_of_answered (answered : c.state ≠ .pending) (a : Answer) (now : Instant) :
    c.receive a now = c := by
  unfold receive
  split <;> simp_all

theorem receive_settled (pending : c.state = .pending) (now : Instant) :
    c.receive .settled now = { c with since := some now } := by
  simp only [receive, pending]

theorem receive_answer (pending : c.state = .pending) {a : Answer} (answer : a ≠ .settled)
    (now : Instant) : c.receive a now = { c with state := .offered a } := by
  cases a <;> first | exact absurd rfl answer | simp only [receive, pending]

theorem receive_same (c : Call) (a : Answer) (now : Instant) :
    (c.receive a now).number = c.number ∧ (c.receive a now).request = c.request ∧
      (c.receive a now).wait = c.wait := by
  unfold receive
  split <;> exact ⟨rfl, rfl, rfl⟩

theorem hear_cons (c : Call) (now : Instant) (reply : Reply) (replies : List Reply) :
    c.hear now (reply :: replies) =
      (if c.number == reply.1 then c.receive reply.2 now else c).hear now replies := rfl

theorem hear_same (c : Call) (now : Instant) (replies : List Reply) :
    (c.hear now replies).number = c.number ∧ (c.hear now replies).request = c.request ∧
      (c.hear now replies).wait = c.wait := by
  induction replies generalizing c with
  | nil => exact ⟨rfl, rfl, rfl⟩
  | cons reply replies ih =>
    obtain ⟨number, request, wait⟩ := ih (if c.number == reply.1 then c.receive reply.2 now else c)
    obtain ⟨number', request', wait'⟩ := c.receive_same reply.2 now
    rw [hear_cons, number, request, wait]
    split_ifs
    · exact ⟨number', request', wait'⟩
    · exact ⟨rfl, rfl, rfl⟩

private theorem hear_of_answered (answered : c.state ≠ .pending) (now : Instant)
    (replies : List Reply) :
    c.hear now replies = c := by
  induction replies with
  | nil => rfl
  | cons reply replies ih =>
    rw [hear_cons, receive_of_answered answered, ite_self, ih]

theorem state_hear (pending : c.state = .pending) (now : Instant) (replies : List Reply) :
    (c.hear now replies).state =
      match answersTo replies c.number with
      | [] => .pending
      | reply :: _ => .offered reply.2 := by
  induction replies generalizing c with
  | nil => exact pending
  | cons reply replies ih =>
    rw [hear_cons, answersTo, List.filter_cons, ← answersTo]
    by_cases here : reply.1 = c.number
    · by_cases settled : reply.2 = .settled
      · have later := ih (show ({ c with since := some now } : Call).state = .pending from pending)
        simpa [here, settled, receive_settled pending] using later
      · have answered : ({ c with state := .offered reply.2 } : Call).state ≠ .pending := by simp
        have deaf := hear_of_answered answered now replies
        simp [here, settled, receive_answer pending settled, deaf]
    · simpa [here, Ne.symm here] using ih pending

theorem hear_append (c : Call) (now : Instant) (replies more : List Reply) :
    c.hear now (replies ++ more) = (c.hear now replies).hear now more :=
  List.foldl_append

theorem hear_settled_twice (c : Call) (now : Instant) (call : Nat) :
    (c.hear now [(call, .settled)]).hear now [(call, .settled)] =
      c.hear now [(call, .settled)] := by
  by_cases pending : c.state = .pending
  · by_cases here : c.number = call
    · subst here
      simp [hear, receive, pending]
    · simp [hear, here]
  · rw [hear_of_answered pending, hear_of_answered pending]

theorem isOpen_hear (c : Call) (now : Instant) (silent : answersTo replies c.number = []) :
    (c.hear now replies).isOpen = c.isOpen := by
  by_cases pending : c.state = .pending
  · have still := state_hear pending now replies
    rw [silent] at still
    rw [isOpen, still, isOpen, pending]
  · rw [hear_of_answered pending]

theorem Away.hear (h : c.Away xs) (now : Instant) (replies : List Reply) :
    (c.hear now replies).Away xs := by
  rwa [hear_of_answered h.state_ne]

private theorem Holds.hear (h : c.Holds xs d) (now : Instant) (replies : List Reply) :
    (c.hear now replies).Holds xs d := by
  rwa [hear_of_answered h.state_ne]

theorem Asks.hear (h : c.Asks xs) (now : Instant) (silent : answersTo replies c.number = []) :
    (c.hear now replies).Asks xs := by
  rcases h with pending | away
  · refine .inl ?_
    rw [state_hear pending, silent]
  · exact .inr (away.hear now replies)

/-- Whatever a call hears, it believes rightly, if the deliveries that it hears of are those of its
looks. -/
theorem Justified.hear (h : c.Justified xs looks) (now : Instant)
    (true' : ∀ a, (c.number, .delivery a) ∈ replies → c.state = .pending →
      ∃ x ∈ looks, x.waiter.call = c.number ∧ x.found = a ∧ (a.isSome → x.taken) ∧
        (a = none → c.wait = none)) : (c.hear now replies).Justified xs looks := by
  by_cases pending : c.state = .pending
  · obtain ⟨number, -, wait⟩ := c.hear_same now replies
    have state := state_hear pending now replies
    cases answers : answersTo replies c.number with
    | nil =>
      rw [answers] at state
      exact justified_of_unserved fun a => by simp [state]
    | cons reply rest =>
      have heard : (c.number, reply.2) ∈ replies := by
        have first : reply ∈ answersTo replies c.number := answers ▸ List.mem_cons_self
        obtain ⟨told, here⟩ := List.mem_filter.mp first
        have call : reply.1 = c.number := by simp_all
        exact call ▸ told
      rw [answers] at state
      -- Of what it hears only the first answer counts, and this one is true.
      refine ⟨?_, fun other => ?_, fun other => by simp [state] at other⟩
      · rintro d (other | other)
        · have same := CallState.offered.inj (state.symm.trans other)
          obtain ⟨x, hx, call, found, taken, -⟩ := true' _ (same ▸ heard) pending
          exact ⟨x, hx, number ▸ call, found, taken rfl⟩
        · simp [state] at other
      · have same := CallState.offered.inj (state.symm.trans other)
        obtain ⟨x, hx, call, found, -, waits⟩ := true' _ (same ▸ heard) pending
        exact ⟨wait ▸ waits rfl, x, hx, number ▸ call, found⟩
  · rwa [hear_of_answered pending]

end Hear

section Keeps

/-- What a call keeps when something happens to it: what it asks for, and what was given to it. -/
structure Keeps (xs : List Departure) (looks : List Look) (ys : List Departure) (more : List Look)
    (c c' : Call) : Prop where
  request : c'.request = c.request
  wait : c'.wait = c.wait
  away : c.Away xs → c'.Away ys
  holds : ∀ d, c.Holds xs d → c'.Holds ys d
  justified : c.Justified xs looks → c'.Justified ys more

theorem keeps_act (act : Acts xs c c') (looks : List Look) : Keeps xs looks xs looks c c' where
  request := act.same.2.1
  wait := act.same.2.2
  away h := h.act act
  holds _ h := h.act act
  justified h := h.act act

private theorem departs_cons (c : Call) (x : Departure) (xs : List Departure) :
    c.departs (x :: xs) = (if c.number == x.call then c.depart x else c).departs xs := rfl

/-- What every act of the caller leaves true is true after departures. -/
theorem departs_induction {p : Call → Prop} (step : ∀ {c c'}, p c → Acts ys c c' → p c')
    (h : p c) (sub : xs ⊆ ys) : p (c.departs xs) := by
  induction xs generalizing c with
  | nil => exact h
  | cons x xs ih =>
    obtain ⟨hx, sub⟩ := List.cons_subset.mp sub
    rw [departs_cons]
    refine ih ?_ sub
    split_ifs with here
    · exact step h (acts_depart (by simpa using here) hx)
    · exact h

theorem departs_same (c : Call) (xs : List Departure) :
    (c.departs xs).number = c.number ∧ (c.departs xs).request = c.request ∧
      (c.departs xs).wait = c.wait := by
  refine departs_induction (p := fun c' => c'.number = c.number ∧ c'.request = c.request ∧
    c'.wait = c.wait) ?_ ⟨rfl, rfl, rfl⟩ (List.Subset.refl xs)
  rintro b b' ⟨number, request, wait⟩ act
  obtain ⟨number', request', wait'⟩ := act.same
  exact ⟨number'.trans number, request'.trans request, wait'.trans wait⟩

theorem Asks.departs (h : c.Asks xs) (ys : List Departure) : (c.departs ys).Asks (xs ++ ys) :=
  departs_induction (fun h act => h.act act) (h.mono (List.subset_append_left xs ys))
    (List.subset_append_right xs ys)

theorem keeps_departs (c : Call) (xs ys : List Departure) (looks : List Look) :
    Keeps xs looks (xs ++ ys) looks c (c.departs ys) where
  request := (c.departs_same ys).2.1
  wait := (c.departs_same ys).2.2
  away h := departs_induction (fun h act => h.act act) (h.mono (List.subset_append_left xs ys))
    (List.subset_append_right xs ys)
  holds d h := departs_induction (p := (Holds (xs ++ ys) · d)) (fun h act => h.act act)
    (h.mono (List.subset_append_left xs ys)) (List.subset_append_right xs ys)
  justified h := departs_induction (fun h act => h.act act)
    (h.mono (List.subset_append_left xs ys) (List.Subset.refl looks))
    (List.subset_append_right xs ys)

theorem keeps_stop (c : Call) (xs : List Departure) (looks : List Look) :
    Keeps xs looks xs looks c c.stop := by
  by_cases pending : c.state = .pending
  · have stopped : c.stop = { c with state := .offered .dropped } := by
      simp only [stop, pending]
    rw [stopped]
    exact ⟨rfl, rfl, fun h => absurd pending h.state_ne, fun d h => absurd pending h.state_ne,
      fun _ => justified_of_unserved fun a => by simp⟩
  · have same : c.stop = c := by
      rw [stop]
      split <;> simp_all
    rw [same]
    exact keeps_act (.stay c) looks

theorem keeps_hear (c : Call) (xs : List Departure) (sub : looks ⊆ more) (now : Instant)
    (true' : ∀ a, (c.number, .delivery a) ∈ replies → c.state = .pending →
      ∃ x ∈ more, x.waiter.call = c.number ∧ x.found = a ∧ (a.isSome → x.taken) ∧
        (a = none → c.wait = none)) : Keeps xs looks xs more c (c.hear now replies) where
  request := (c.hear_same now replies).2.1
  wait := (c.hear_same now replies).2.2
  away h := h.hear now replies
  holds _ h := h.hear now replies
  justified h := (h.mono (List.Subset.refl xs) sub).hear now true'

end Keeps

end Call
end WorkBroker
