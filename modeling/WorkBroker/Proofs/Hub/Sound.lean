import WorkBroker.Proofs.Hub.Race
/-!
What holds of calls that race with the hub, in every run.  The record of the hub's deeds tells what
has become of the queue; nobody is looked for once more after something was found; a delivery that
was taken is with its call, and one that was not taken was found for a call that had turned away.
Where nobody turns away, all of this is what happens at a desk.
-/

set_option autoImplicit false
set_option relaxedAutoImplicit false

namespace WorkBroker.Race

variable {s s' : Race} {settings : QueueSettings}

/-- Whether a consumer in line is the caller of an open call, or one that has turned away. -/
def Waits (s : Race) (w : Waiter) : Prop :=
  ∃ c, s.desk.find? w.call = some c ∧ c.Asks s.departures ∧
    c.request.asker? = some (w.owner, true)

/-- Whether a delivery that was found for a call is with it, or the call had turned away when it was
not taken. -/
def Fated (s : Race) (x : Look) (d : Delivery) : Prop :=
  ∃ c, s.desk.find? x.waiter.call = some c ∧
    (∃ stays, c.request.asker? = some (x.waiter.owner, stays)) ∧
    if x.taken then c.Holds s.departures d else c.Away s.departures

/-- What holds between any two events. -/
structure Sound (settings : QueueSettings) (s : Race) : Prop where
  queue_eq : s.desk.hub.queue = (Queue.ofSettings settings).after (operationsOf s.deeds)
  faithful : (Queue.ofSettings settings).Faithful s.deeds
  numbers : (s.desk.calls.map (·.number)).Nodup
  numbered : ∀ c ∈ s.desk.calls, c.number < s.desk.nextCall
  patient : ∀ c ∈ s.desk.calls, ∀ owner stays, c.request.asker? = some (owner, stays) →
    stays = c.wait.isSome
  justified : ∀ c ∈ s.desk.calls, c.Justified s.departures (looksOf s.deeds)
  once : (foundFor s.deeds ++ (s.desk.hub.line.map (·.call) ++ s.desk.inbox)).Nodup
  asks : ∀ n ∈ s.desk.inbox, ∃ c, s.desk.find? n = some c ∧ c.Asks s.departures
  waits : ∀ w ∈ s.desk.hub.line, s.Waits w
  fates : ∀ x ∈ looksOf s.deeds, ∀ d, x.found = some d → s.Fated x d

theorem Sound.coherent (o : Sound settings s) : s.desk.hub.queue.Coherent :=
  o.queue_eq ▸ Queue.coherent_after settings _

private theorem Sound.known (o : Sound settings s) {n : Nat}
    (hn : n ∈ foundFor s.deeds ++ (s.desk.hub.line.map (·.call) ++ s.desk.inbox)) :
    ∃ c, s.desk.find? n = some c := by
  rcases List.mem_append.mp hn with hn | hn
  · obtain ⟨x, hx, rfl⟩ := List.mem_map.mp hn
    obtain ⟨hx, some⟩ := List.mem_filter.mp hx
    obtain ⟨d, found⟩ := Option.isSome_iff_exists.mp some
    obtain ⟨c, hc, -⟩ := o.fates x hx d found
    exact ⟨c, hc⟩
  · rcases List.mem_append.mp hn with hn | hn
    · obtain ⟨w, hw, rfl⟩ := List.mem_map.mp hn
      obtain ⟨c, hc, -⟩ := o.waits w hw
      exact ⟨c, hc⟩
    · obtain ⟨c, hc, -⟩ := o.asks n hn
      exact ⟨c, hc⟩

private theorem Sound.next (o : Sound settings s) {number : Nat} {inbox : List Nat}
    (present : s.desk.inbox = number :: inbox) :
    (s.desk.hub.line.map (·.call) ++ [number]).Nodup ∧ number ∉ inbox := by
  have once := (List.nodup_append.mp o.once).2.1
  rw [present] at once
  exact ⟨once.sublist ((List.sublist_append_left [number] inbox).append_left _),
    (List.nodup_cons.mp (List.nodup_append.mp once).2.1).1⟩

/-- How a state follows another one in which the calls were changed one by one. -/
structure Follows (s s' : Race) (f : Call → Call) (more : List Deed) : Prop where
  number : ∀ c, (f c).number = c.number
  calls : s'.desk.calls = s.desk.calls.map f
  nextCall : s'.desk.nextCall = s.desk.nextCall
  deeds : s'.deeds = s.deeds ++ more
  keeps : ∀ c ∈ s.desk.calls,
    Call.Keeps s.departures (looksOf s.deeds) s'.departures (looksOf s'.deeds) c (f c)
  queue_eq : s'.desk.hub.queue = s.desk.hub.queue.after (operationsOf more)
  faithful : s.desk.hub.queue.Faithful more
  places : (foundFor more ++ (s'.desk.hub.line.map (·.call) ++ s'.desk.inbox)).Subperm
    (s.desk.hub.line.map (·.call) ++ s.desk.inbox)
  asks : ∀ n ∈ s'.desk.inbox, ∃ c, s.desk.find? n = some c ∧ (f c).Asks s'.departures
  waits : ∀ w ∈ s'.desk.hub.line, ∃ c, s.desk.find? w.call = some c ∧ (f c).Asks s'.departures ∧
    c.request.asker? = some (w.owner, true)
  fates : ∀ x ∈ looksOf more, ∀ d, x.found = some d → ∃ c, s.desk.find? x.waiter.call = some c ∧
    (∃ stays, c.request.asker? = some (x.waiter.owner, stays)) ∧
    if x.taken then (f c).Holds s'.departures d else (f c).Away s'.departures

private theorem foundFor_append (deeds more : List Deed) :
    foundFor (deeds ++ more) = foundFor deeds ++ foundFor more := by
  rw [foundFor, looksOf_append, List.filter_append, List.map_append, foundFor, foundFor]

/-- Whatever follows a sound state is sound. -/
theorem Follows.sound {f : Call → Call} {more : List Deed} (h : Follows s s' f more)
    (o : Sound settings s) : Sound settings s' := by
  have found : ∀ {n c}, s.desk.find? n = some c → s'.desk.find? n = some (f c) := by
    intro n c hc
    have same : s'.desk.find? n = (s.desk.mapCalls f).find? n := by
      rw [Desk.find?, h.calls, Desk.mapCalls, Desk.find?]
    rw [same, Desk.find?_mapCalls h.number, hc, Option.map_some]
  have changed : ∀ c ∈ s'.desk.calls, ∃ b ∈ s.desk.calls, f b = c := by
    intro c hc
    rw [h.calls] at hc
    exact List.mem_map.mp hc
  constructor
  case queue_eq => rw [h.queue_eq, o.queue_eq, h.deeds, operationsOf_append, Queue.after_append]
  case faithful =>
    rw [h.deeds]
    exact Queue.faithful_append.mpr ⟨o.faithful, o.queue_eq ▸ h.faithful⟩
  case numbers =>
    have same : (s.desk.calls.map f).map (·.number) = s.desk.calls.map (·.number) := by
      rw [List.map_map]
      exact List.map_congr_left fun c _ => h.number c
    rw [h.calls, same]
    exact o.numbers
  case numbered =>
    intro c hc
    obtain ⟨b, hb, rfl⟩ := changed c hc
    rw [h.number, h.nextCall]
    exact o.numbered b hb
  case patient =>
    intro c hc owner stays asker
    obtain ⟨b, hb, rfl⟩ := changed c hc
    rw [(h.keeps b hb).request] at asker
    rw [(h.keeps b hb).wait]
    exact o.patient b hb owner stays asker
  case justified =>
    intro c hc
    obtain ⟨b, hb, rfl⟩ := changed c hc
    exact (h.keeps b hb).justified (o.justified b hb)
  case once =>
    -- Whoever is looked for now stood in line or in the inbox, so nothing was found for it before.
    obtain ⟨past, present, apart⟩ := List.nodup_append.mp o.once
    obtain ⟨l, perm, sub⟩ := h.places
    have new := perm.nodup_iff.mp (present.sublist sub)
    rw [h.deeds, foundFor_append, List.append_assoc]
    exact List.nodup_append.mpr ⟨past, new, fun a ha b hb =>
      apart a ha b (sub.subset (perm.mem_iff.mpr hb))⟩
  case asks =>
    intro n hn
    obtain ⟨c, hc, asks⟩ := h.asks n hn
    exact ⟨f c, found hc, asks⟩
  case waits =>
    intro w hw
    obtain ⟨c, hc, asks, asker⟩ := h.waits w hw
    exact ⟨f c, found hc, asks, (h.keeps c (Desk.find?_mem hc).1).request ▸ asker⟩
  case fates =>
    intro x hx d hd
    rw [h.deeds, looksOf_append] at hx
    rcases List.mem_append.mp hx with hx | hx
    · obtain ⟨c, hc, ⟨stays, asker⟩, fate⟩ := o.fates x hx d hd
      have keeps := h.keeps c (Desk.find?_mem hc).1
      refine ⟨f c, found hc, ⟨stays, keeps.request ▸ asker⟩, ?_⟩
      split_ifs at fate ⊢
      · exact keeps.holds d fate
      · exact keeps.away fate
    · obtain ⟨c, hc, ⟨stays, asker⟩, fate⟩ := h.fates x hx d hd
      have keeps := h.keeps c (Desk.find?_mem hc).1
      exact ⟨f c, found hc, ⟨stays, keeps.request ▸ asker⟩, fate⟩

private theorem Sound.mapCalls (o : Sound settings s) {f : Call → Call} {ys : List Departure}
    (number : ∀ c, (f c).number = c.number)
    (keeps : ∀ c, Call.Keeps s.departures (looksOf s.deeds) ys (looksOf s.deeds) c (f c))
    (asks : ∀ c, c.Asks s.departures → (f c).Asks ys) :
    Sound settings { s with desk := s.desk.mapCalls f, departures := ys } := by
  have h : Follows s { s with desk := s.desk.mapCalls f, departures := ys } f [] := by
    refine ⟨number, rfl, rfl, (List.append_nil _).symm, fun c _ => keeps c, rfl, trivial, .refl _,
      ?_, ?_, fun x hx => absurd hx List.not_mem_nil⟩
    · intro n hn
      obtain ⟨c, hc, waiting⟩ := o.asks n hn
      exact ⟨c, hc, asks c waiting⟩
    · intro w hw
      obtain ⟨c, hc, waiting, asker⟩ := o.waits w hw
      exact ⟨c, hc, asks c waiting, asker⟩
  exact h.sound o

private theorem Sound.depart (o : Sound settings s) (xs : List Departure) :
    Sound settings (s.depart xs) :=
  o.mapCalls (fun c => (c.departs_same xs).1)
    (fun c => Call.keeps_departs c s.departures xs (looksOf s.deeds)) fun _ asks => asks.departs xs

private theorem Sound.collect (o : Sound settings s) (call : Nat) :
    Sound settings (s.step (.collect call)) := by
  have acts : ∀ c : Call, Call.Acts s.departures c (if c.number == call then c.collect else c) := by
    intro c
    split_ifs
    · exact Call.acts_collect s.departures c
    · exact .stay c
  exact o.mapCalls (fun c => (acts c).same.1) (fun c => Call.keeps_act (acts c) _)
    fun c asks => asks.act (acts c)

private theorem Sound.stop (o : Sound settings s) : Sound settings (s.step .stop) := by
  have h : Follows s (s.step .stop) Call.stop [] := by
    refine ⟨?_, rfl, rfl, (List.append_nil _).symm, fun c _ => Call.keeps_stop c _ _, rfl, trivial,
      List.nil_subperm, fun n hn => absurd hn List.not_mem_nil,
      fun w hw => absurd hw List.not_mem_nil, fun x hx => absurd hx List.not_mem_nil⟩
    intro c
    rw [Call.stop]
    split <;> rfl
  exact h.sound o

section Hand

variable {asked : List (Nat × Request)} {deeds : List Deed} {replies : List Reply} {hub : Hub}
  {inbox : List Nat}

section Contract

variable (o : Sound settings s) (t : s.desk.hub.Handed asked s.desk.isOpen deeds replies hub)
  (present : s.desk.inbox = asked.map Prod.fst ++ inbox)
  (requests : ∀ p ∈ asked, ∃ c, s.desk.find? p.1 = some c ∧ c.request = p.2)

include o present requests in
private theorem Sound.cameFor {w : Waiter} {stays : Bool}
    (came : s.desk.hub.CameFor asked w stays) :
    ∃ c, s.desk.find? w.call = some c ∧ c.Asks s.departures ∧
      c.request.asker? = some (w.owner, stays) := by
  rcases came with ⟨stood, rfl⟩ | ⟨request, hp, asker⟩
  · exact o.waits w stood
  · obtain ⟨c, hc, rfl⟩ := requests _ hp
    obtain ⟨c', hc', asks⟩ := o.asks w.call (by
      rw [present]
      exact List.mem_append_left _ (List.mem_map_of_mem hp))
    obtain rfl := Option.some.inj (hc.symm.trans hc')
    exact ⟨c, hc, asks, asker⟩

include o t present requests

/-- A call is told of nothing but what a look for it found, and that nothing is ready only if it
does not wait. -/
theorem Sound.told {c : Call} (hc : c ∈ s.desk.calls) {a : Option Delivery}
    (heard : (c.number, .delivery a) ∈ replies) :
    ∃ x ∈ looksOf deeds, x.waiter.call = c.number ∧ x.found = a ∧ (a.isSome → x.taken) ∧
      (a = none → c.wait = none) := by
  obtain ⟨x, hx, told⟩ := t.deliveries _ _ heard
  obtain ⟨call, found, taken, stays⟩ := Look.of_mem_replies told
  refine ⟨x, hx, call, found, taken, fun nothing => ?_⟩
  obtain ⟨b, hb, -, asker⟩ := o.cameFor present requests (t.cameFor x hx)
  obtain rfl := Option.some.inj ((call ▸ hb).symm.trans (Desk.find?_number o.numbers hc))
  have patient := o.patient b hc _ _ asker
  rw [stays nothing] at patient
  simpa using patient.symm

private theorem Sound.fated {x : Look} (hx : x ∈ looksOf deeds) {d : Delivery}
    (found : x.found = some d) (now : Instant) :
    ∃ c, s.desk.find? x.waiter.call = some c ∧
      (∃ stays, c.request.asker? = some (x.waiter.owner, stays)) ∧
      if x.taken then (c.hear now replies).Holds s.departures d
      else (c.hear now replies).Away s.departures := by
  obtain ⟨c, hc, asks, asker⟩ := o.cameFor present requests (t.cameFor x hx)
  refine ⟨c, hc, ⟨_, asker⟩, ?_⟩
  have taken := (t.taken x hx).trans (Desk.isOpen_of_find? hc)
  -- The hub saw the call open when it handed over, or it saw that the call had turned away.
  split_ifs with accepted
  · have pending := Call.isOpen_iff.mp (taken.symm.trans accepted)
    have told := t.told x hx
    rw [Look.replies_of_taken found accepted] at told
    refine .inl (.inl ?_)
    rw [Call.state_hear pending, (Desk.find?_mem hc).2, told]
  · have closed : c.isOpen = false := by simpa [taken] using accepted
    exact (asks.away closed).hear now replies

/-- A hub that keeps to its contract leaves a sound state: what a call takes is there for it, and
what it does not take is taken by nobody. -/
theorem Sound.hand (now : Instant) : Sound settings (s.hand hub inbox deeds now replies) := by
  have desk := s.desk_hand hub inbox deeds now replies
  have looks : looksOf (s.hand hub inbox deeds now replies).deeds =
      looksOf s.deeds ++ looksOf deeds := looksOf_append s.deeds deeds
  have h : Follows s (s.hand hub inbox deeds now replies) (·.hear now replies) deeds := by
    constructor
    case number => exact fun c => (c.hear_same now replies).1
    case calls =>
      rw [desk]
      rfl
    case nextCall =>
      rw [desk]
      rfl
    case deeds => rfl
    case keeps =>
      intro c hc
      rw [looks]
      refine Call.keeps_hear c s.departures (List.subset_append_left _ _) now fun a heard _ => ?_
      obtain ⟨x, hx, rest⟩ := o.told t present requests hc heard
      exact ⟨x, List.mem_append_right _ hx, rest⟩
    case queue_eq =>
      rw [desk]
      exact t.queue_eq
    case faithful => exact t.faithful
    case places =>
      rw [desk, present]
      show (foundFor deeds ++ (hub.line.map (·.call) ++ inbox)).Subperm _
      rw [← List.append_assoc, ← List.append_assoc]
      exact (List.subperm_append_right inbox).mpr t.places
    case asks =>
      -- The hub tells nothing to a call that is still in the inbox.
      rw [desk]
      intro n hn
      have stays : n ∈ s.desk.inbox := present ▸ List.mem_append_right _ hn
      obtain ⟨c, hc, asks⟩ := o.asks n stays
      refine ⟨c, hc, asks.hear now (answersTo_eq_nil fun reply told here => ?_)⟩
      have once := (List.nodup_append.mp o.once).2.1
      rw [present, ← List.append_assoc] at once
      have apart := (List.nodup_append.mp once).2.2 _ (t.addressed reply told) n hn
      exact absurd (here.trans (Desk.find?_mem hc).2) apart
    case waits =>
      rw [desk]
      intro w hw
      obtain ⟨c, hc, asks, asker⟩ := o.cameFor present requests (t.line w hw)
      refine ⟨c, hc, asks.hear now ?_, asker⟩
      rw [(Desk.find?_mem hc).2]
      exact t.untold w hw
    case fates => exact fun x hx d found => o.fated t present requests hx found now
  exact h.sound o

end Contract

private theorem Sound.settle (o : Sound settings s) (now : Instant) (number : Nat)
    (request : Request) :
    Sound settings
      (s.hand s.desk.hub s.desk.inbox [] now (s.desk.hub.settlements now number request)) := by
  have news : ∀ reply ∈ s.desk.hub.settlements now number request, reply.2 = .settled :=
    fun reply told => congrArg Prod.snd (Hub.of_mem_settlements told)
  rw [Race.hand, Desk.deliver_eq, List.append_nil]
  refine o.mapCalls (fun c => (c.hear_same now _).1) (fun c => ?_) (fun c asks => ?_)
  · exact Call.keeps_hear c s.departures (List.Subset.refl _) now fun a told _ =>
      absurd (news _ told) (by simp)
  · exact asks.hear now (answersTo_eq_nil fun reply told _ => news reply told)

private theorem Sound.carry (o : Sound settings s) {number : Nat} {call : Call}
    (present : s.desk.inbox = number :: inbox) (found : s.desk.find? number = some call)
    (now : Instant) (order : VisitOrder) (between : List Departure) :
    Sound settings (s.carry now order number call.request inbox between) := by
  let f : Call → Call := fun c =>
    (c.hear now (s.desk.hub.settlements now number call.request)).departs between
  have same : ∀ c, (f c).number = c.number ∧ (f c).request = c.request := fun c =>
    ⟨(Call.departs_same _ between).1.trans (c.hear_same now _).1,
      (Call.departs_same _ between).2.1.trans (c.hear_same now _).2.1⟩
  have met := (o.settle now number call.request).depart between
  have desk : ((s.hand s.desk.hub s.desk.inbox [] now
      (s.desk.hub.settlements now number call.request)).depart between).desk =
        s.desk.mapCalls f := by
    rw [Race.depart, Race.hand, Desk.deliver_eq]
    exact Desk.mapCalls_mapCalls s.desk _ _
  have request : ∀ p ∈ [(number, call.request)], ∃ c, (s.desk.mapCalls f).find? p.1 = some c ∧
      c.request = p.2 := by
    intro p hp
    rw [List.mem_singleton.mp hp, Desk.find?_mapCalls fun c => (same c).1]
    exact ⟨f call, by rw [found, Option.map_some], (same call).2⟩
  rw [← desk] at request
  refine met.hand ?_ ?_ request now
  · rw [desk]
    exact Hub.handed_handle (o.next present).1
      ⟨now, ⟨_, (s.desk.mapCalls f).isOpen⟩, _, _, order⟩ call.request
  · rw [desk]
    exact present

private theorem Sound.sweep (o : Sound settings s) (now : Instant) (order : VisitOrder) :
    Sound settings (s.sweep now order) :=
  have t := Hub.handed_sweep s.desk.hub _ s.desk.isOpen
  o.hand t rfl (fun _ hp => absurd hp List.not_mem_nil) now

private theorem Sound.attend (o : Sound settings s) (now : Instant) (servedAt : Nat → Instant)
    (before between : List Departure) : Sound settings (s.attend now servedAt before between) := by
  have met := (o.depart before).depart between
  have unique := (List.nodup_append.mp (List.nodup_append.mp o.once).2.1).1
  have t := Hub.handed_serveLine o.coherent unique
    ⟨(s.depart before).desk.isOpen, ((s.depart before).depart between).desk.isOpen⟩ servedAt
  exact met.hand t rfl (fun _ hp => absurd hp List.not_mem_nil) now

end Hand

section Events

private theorem stays_of_timed (wait : Option Duration) (request : Request) {owner : Nat}
    {stays : Bool} (asker : (request.timed wait).1.asker? = some (owner, stays)) :
    stays = (request.timed wait).2.isSome := by
  cases request <;> simp_all [Request.timed, Request.asker?]

private theorem Sound.admit (o : Sound settings s) {call : Call}
    (number : call.number = s.desk.nextCall)
    (patient : ∀ owner stays, call.request.asker? = some (owner, stays) → stays = call.wait.isSome)
    (justified : call.Justified s.departures (looksOf s.deeds)) :
    Sound settings { s with desk := { s.desk with
      calls := s.desk.calls ++ [call], nextCall := s.desk.nextCall + 1 } } := by
  have unique : ((s.desk.calls ++ [call]).map (·.number)).Nodup := by
    rw [List.map_append, List.map_singleton, number]
    refine List.nodup_append.mpr ⟨o.numbers, List.nodup_singleton _, ?_⟩
    intro a ha b hb
    obtain ⟨c, hc, rfl⟩ := List.mem_map.mp ha
    rw [List.mem_singleton.mp hb]
    exact Nat.ne_of_lt (o.numbered c hc)
  have found : ∀ {n c}, s.desk.find? n = some c → Desk.find? { s.desk with
      calls := s.desk.calls ++ [call], nextCall := s.desk.nextCall + 1 } n = some c := by
    intro n c hc
    rw [Desk.find?, List.find?_append, ← Desk.find?, hc, Option.some_or]
  have both : ∀ {p : Call → Prop}, (∀ c ∈ s.desk.calls, p c) → p call →
      ∀ c ∈ s.desk.calls ++ [call], p c := by
    intro p old new c hc
    rcases List.mem_append.mp hc with hc | hc
    · exact old c hc
    · exact List.mem_singleton.mp hc ▸ new
  refine ⟨o.queue_eq, o.faithful, unique, both ?_ ?_, both o.patient patient,
    both o.justified justified, o.once, ?_, ?_, ?_⟩
  · exact fun c hc => Nat.lt_succ_of_lt (o.numbered c hc)
  · exact number ▸ Nat.lt_succ_self _
  · intro n hn
    obtain ⟨c, hc, asks⟩ := o.asks n hn
    exact ⟨c, found hc, asks⟩
  · intro w hw
    obtain ⟨c, hc, rest⟩ := o.waits w hw
    exact ⟨c, found hc, rest⟩
  · intro x hx d hd
    obtain ⟨c, hc, rest⟩ := o.fates x hx d hd
    exact ⟨c, found hc, rest⟩

private theorem Sound.enqueue (o : Sound settings s) {n : Nat} {c : Call}
    (hc : s.desk.find? n = some c) (asks : c.Asks s.departures)
    (new : n ∉ foundFor s.deeds ++ (s.desk.hub.line.map (·.call) ++ s.desk.inbox)) :
    Sound settings { s with desk := { s.desk with inbox := s.desk.inbox ++ [n] } } := by
  refine { o with once := ?_, asks := ?_, waits := o.waits, fates := o.fates }
  · rw [← List.append_assoc (s.desk.hub.line.map (·.call)), ← List.append_assoc]
    refine List.nodup_append.mpr ⟨o.once, List.nodup_singleton n, fun a ha b hb e => new ?_⟩
    exact List.mem_singleton.mp hb ▸ e ▸ ha
  · intro k hk
    rcases List.mem_append.mp hk with hk | hk
    · exact o.asks k hk
    · obtain rfl := List.mem_singleton.mp hk
      exact ⟨c, hc, asks⟩

private theorem Sound.submit (o : Sound settings s) (request : Request) (wait : Option Duration)
    (now : Instant) : Sound settings (s.step (.submit request wait now)) := by
  obtain ⟨call, number, request_eq, wait_eq, state, desk⟩ : ∃ call : Call,
      call.number = s.desk.nextCall ∧ call.request = (request.timed wait).1 ∧
        call.wait = (request.timed wait).2 ∧
        call.state = (if s.desk.stopped then .finished (.error .shuttingDown) else .pending) ∧
        (s.step (.submit request wait now)).desk =
          { s.desk with
            inbox := if s.desk.stopped then s.desk.inbox else s.desk.inbox ++ [s.desk.nextCall]
            calls := s.desk.calls ++ [call]
            nextCall := s.desk.nextCall + 1 } := ⟨_, rfl, rfl, rfl, rfl, rfl⟩
  have step : s.step (.submit request wait now) =
      { s with desk := (s.step (.submit request wait now)).desk } := rfl
  have patient : ∀ owner stays, call.request.asker? = some (owner, stays) →
      stays = call.wait.isSome :=
    fun owner stays asker => wait_eq ▸ stays_of_timed wait request (request_eq ▸ asker)
  have admitted := o.admit number patient (Call.justified_of_unserved fun a => by
    rw [state]
    split_ifs <;> simp)
  rw [step, desk]
  cases stopped : s.desk.stopped with
  | true => simpa using admitted
  | false =>
    have here := Desk.find?_number admitted.numbers (List.mem_append_right _ List.mem_cons_self)
    rw [number] at here
    refine admitted.enqueue here (.inl (by simp [state, stopped])) fun known => ?_
    obtain ⟨c, hc⟩ := o.known known
    obtain ⟨mem, same⟩ := Desk.find?_mem hc
    exact absurd same (Nat.ne_of_lt (o.numbered c mem))

private theorem Sound.forget (o : Sound settings s) {number : Nat}
    (other : ∀ c, s.desk.find? number = some c → c.request.asker? = none)
    (absent : number ∉ s.desk.inbox) :
    Sound settings { s with desk := s.desk.forget number } := by
  have sub : (s.desk.forget number).calls.Sublist s.desk.calls := List.filter_sublist
  have unique := o.numbers.sublist (sub.map (·.number))
  have found : ∀ {n c}, s.desk.find? n = some c → n ≠ number →
      (s.desk.forget number).find? n = some c := by
    intro n c hc ne
    obtain ⟨mem, rfl⟩ := Desk.find?_mem hc
    exact Desk.find?_number unique (List.mem_filter.mpr ⟨mem, by simpa using ne⟩)
  constructor
  case queue_eq => exact o.queue_eq
  case faithful => exact o.faithful
  case numbers => exact unique
  case numbered => exact fun c hc => o.numbered c (sub.subset hc)
  case patient => exact fun c hc => o.patient c (sub.subset hc)
  case justified => exact fun c hc => o.justified c (sub.subset hc)
  case once => exact o.once
  case asks =>
    intro n hn
    obtain ⟨c, hc, asks⟩ := o.asks n hn
    exact ⟨c, found hc (fun e => absent (e ▸ hn)), asks⟩
  case waits =>
    intro w hw
    obtain ⟨c, hc, asks, asker⟩ := o.waits w hw
    exact ⟨c, found hc (fun e => by simp [other c (e ▸ hc)] at asker), asks, asker⟩
  case fates =>
    intro x hx d hd
    obtain ⟨c, hc, ⟨stays, asker⟩, fate⟩ := o.fates x hx d hd
    exact ⟨c, found hc (fun e => by simp [other c (e ▸ hc)] at asker), ⟨stays, asker⟩, fate⟩

private theorem Sound.step (o : Sound settings s) (e : Event) : Sound settings (s.step e) := by
  cases e with
  | submit request wait now => exact o.submit request wait now
  | work now servedAt order asked before between =>
    cases present : s.desk.inbox with
    | nil =>
      simp only [Race.step, present]
      exact o
    | cons number inbox =>
      obtain ⟨call, found, -⟩ := o.asks number (present ▸ List.mem_cons_self)
      have done := (o.carry present found now order asked).attend now servedAt before between
      simp only [Race.step, present, found]
      split_ifs with answered
      · exact done
      · refine done.forget (fun c hc => ?_) ?_
        · -- Only a release is forgotten.
          have same := (request_attend _ now servedAt before between number).trans
            (request_carry s now order number call.request inbox asked number)
          rw [request?, hc, request?, found] at same
          have asked_for : c.request = call.request := Option.some.inj same
          rw [asked_for]
          cases request : call.request <;> simp_all [Desk.wantsAnswer, Request.asker?]
        · rw [inbox_attend, inbox_carry]
          exact (o.next present).2
  | tick now servedAt order before between =>
    rw [Race.step]
    split_ifs
    · exact o
    · exact (o.sweep now order).attend now servedAt before between
  | depart x => exact o.depart [x]
  | collect call => exact o.collect call
  | stop => exact o.stop

private theorem sound_ofSettings (settings : QueueSettings) : Sound settings
    (ofSettings settings) where
  queue_eq := rfl
  faithful := trivial
  numbers := List.nodup_nil
  numbered _ hc := absurd hc List.not_mem_nil
  patient _ hc := absurd hc List.not_mem_nil
  justified _ hc := absurd hc List.not_mem_nil
  once := List.nodup_nil
  asks _ hn := absurd hn List.not_mem_nil
  waits _ hw := absurd hw List.not_mem_nil
  fates _ hx := absurd hx List.not_mem_nil

/-- Between any two events of a run, its state is sound. -/
theorem sound_life (settings : QueueSettings) (events : List Event) :
    Sound settings (life settings events) := by
  induction events using List.reverseRecOn with
  | nil => exact sound_ofSettings settings
  | append_singleton events e ih =>
    rw [life_concat]
    exact ih.step e

end Events

section Undisturbed

private theorem mapCalls_departs_nil (d : Desk) : d.depart [] = d := by
  show { d with calls := d.calls.map fun c => c } = d
  rw [List.map_id']

private theorem carry_undisturbed (s : Race) (now : Instant) (number : Nat) (request : Request)
    (inbox : List Nat) :
    (s.carry now .arrival number request inbox []).desk =
      { s.desk with
        hub := (s.desk.hub.handle (s.desk.moment now) number request).2
        inbox }.deliver now (s.desk.hub.handle (s.desk.moment now) number request).1 := by
  have met : ((s.hand s.desk.hub s.desk.inbox [] now
      (s.desk.hub.settlements now number request)).depart []).desk =
        s.desk.mapCalls (·.hear now (s.desk.hub.settlements now number request)) :=
    (mapCalls_departs_nil _).trans (s.desk_hand _ _ _ now _)
  have isOpen : (s.desk.mapCalls
      (·.hear now (s.desk.hub.settlements now number request))).isOpen = s.desk.isOpen := by
    funext n
    exact s.desk.isOpen_hear now (answersTo_eq_nil fun reply told _ =>
      congrArg Prod.snd (Hub.of_mem_settlements told))
  have moment : s.desk.moment now =
      ⟨now, ⟨s.desk.isOpen, s.desk.isOpen⟩, ⟨s.desk.isOpen, s.desk.isOpen⟩, fun _ => now,
        .arrival⟩ := rfl
  -- The news of the settlement is heard ahead of the other replies, and then with them.
  have once : ∀ c : Call, (c.hear now (s.desk.hub.settlements now number request)).hear now
      (s.desk.hub.handle (s.desk.moment now) number request).1 =
        c.hear now (s.desk.hub.handle (s.desk.moment now) number request).1 := by
    intro c
    obtain ⟨rest, told⟩ := s.desk.hub.handle_settlements (s.desk.moment now) number request
    have news : s.desk.hub.settlements (s.desk.moment now).now number request =
      s.desk.hub.settlements now number request := rfl
    rw [told, news, Call.hear_append, Call.hear_append]
    rcases s.desk.hub.settlements_cases now number request with none | one
    · rw [none]
      rfl
    · rw [one, Call.hear_settled_twice]
  rw [carry, desk_hand, met, isOpen, ← moment, Desk.deliver_eq]
  refine (Desk.mapCalls_mapCalls { s.desk with
    hub := (s.desk.hub.handle (s.desk.moment now) number request).2, inbox } _ _).trans ?_
  exact congrArg (Desk.mapCalls _) (funext once)

private theorem attend_undisturbed (s : Race) (now : Instant) (servedAt : Nat → Instant) :
    (s.attend now servedAt [] []).desk =
      { s.desk with
        hub := (Hub.serveLine ⟨s.desk.isOpen, s.desk.isOpen⟩ servedAt s.desk.hub.line
          s.desk.hub.queue).2 }.deliver now
        (Hub.serveLine ⟨s.desk.isOpen, s.desk.isOpen⟩ servedAt s.desk.hub.line
          s.desk.hub.queue).1 := by
  have met : (s.depart []).desk = s.desk := mapCalls_departs_nil s.desk
  have later : ((s.depart []).depart []).desk = s.desk := (mapCalls_departs_nil _).trans met
  simp only [attend, hand, met, later]

/-- When nobody turns away, the hub works as at any desk. -/
theorem work_undisturbed (o : Sound settings s) (now : Instant) :
    (s.step (.work now (fun _ => now) .arrival [] [] [])).desk = (s.desk.work now).2 := by
  cases present : s.desk.inbox with
  | nil => simp only [step, Desk.work, present]
  | cons number inbox =>
    obtain ⟨call, found, -⟩ := o.asks number (present ▸ List.mem_cons_self)
    have t := Hub.handed_handle (o.next present).1 (s.desk.moment now) call.request
    have carried := carry_undisturbed s now number call.request inbox
    rw [Desk.deliver_eq] at carried
    -- Those who are left in line have been told nothing, so they are seen as before.
    have seen : ∀ w ∈ (s.desk.hub.handle (s.desk.moment now) number call.request).2.line,
        (s.carry now .arrival number call.request inbox []).desk.isOpen w.call =
          s.desk.isOpen w.call := by
      intro w hw
      rw [carried]
      exact Desk.isOpen_hear _ now (t.untold w hw)
    have done := attend_undisturbed (s.carry now .arrival number call.request inbox []) now
      fun _ => now
    have hub : (s.carry now .arrival number call.request inbox []).desk.hub =
        (s.desk.hub.handle (s.desk.moment now) number call.request).2 := by
      rw [carried]
      rfl
    rw [hub, Hub.serveLine_congr _ ⟨s.desk.isOpen, s.desk.isOpen⟩ _ seen seen, carried] at done
    have whole : ((s.carry now .arrival number call.request inbox []).attend now
        (fun _ => now) [] []).desk =
          { s.desk with
            hub := (s.desk.hub.turn (s.desk.moment now) number call.request).2
            inbox }.deliver now (s.desk.hub.turn (s.desk.moment now) number call.request).1 := by
      have told : Desk.deliver { s.desk with
          hub := (s.desk.hub.turn (s.desk.moment now) number call.request).2, inbox } now
            (s.desk.hub.handle (s.desk.moment now) number call.request).1 = _ :=
        Desk.deliver_eq _ now _
      exact (done.trans (congrArg (Desk.deliver · now _) told.symm)).trans
        (Desk.deliver_append ..).symm
    simp only [step, Desk.work, present, found]
    split_ifs
    · exact whole
    · exact congrArg (Desk.forget · number) whole

/-- When nobody turns away, a timer fires as at any desk. -/
theorem tick_undisturbed (s : Race) (now : Instant) :
    (s.step (.tick now (fun _ => now) .arrival [] [])).desk = (s.desk.tick now).2 := by
  rw [step, Desk.tick]
  split_ifs
  · rfl
  · exact attend_undisturbed (s.sweep now .arrival) now fun _ => now

end Undisturbed

end WorkBroker.Race
