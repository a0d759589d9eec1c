import WorkBroker.Proofs.Hub.Looks
import Mathlib.Data.List.Basic
/-!
The deeds of a turn.  Both halves of a turn keep to one contract: what becomes of the queue can be
read off the deeds, whoever is looked for has come for a message, and the call is told what the look
says.  Those who are left in line are told nothing, and nobody is served who is not looked for.
-/

set_option autoImplicit false
set_option relaxedAutoImplicit false

namespace WorkBroker

/-- Who asks for a message, and whether the consumer would rather stand in line than be told that
nothing is ready. -/
def Request.asker? : Request → Option (Nat × Bool)
  | .pop owner wait => some (owner, wait)
  | .ackPop owner _ _ _ _ wait => some (owner, wait)
  | _ => none

/-- What a call is told, other than that its settlement was accepted. -/
def answersTo (replies : List Reply) (call : Nat) : List Reply :=
  replies.filter fun reply => reply.1 == call && reply.2 != .settled

def foundFor (deeds : List Deed) : List Nat :=
  ((looksOf deeds).filter (·.found.isSome)).map (·.waiter.call)

section Answers

variable {replies : List Reply} {call : Nat} {x : Look}

private theorem answersTo_append (replies more : List Reply) (call : Nat) :
    answersTo (replies ++ more) call = answersTo replies call ++ answersTo more call :=
  List.filter_append ..

theorem answersTo_eq_nil (h : ∀ reply ∈ replies, reply.1 = call → reply.2 = .settled) :
    answersTo replies call = [] := by
  refine List.filter_eq_nil_iff.mpr fun reply hreply => ?_
  by_cases here : reply.1 = call
  · simp [h reply hreply here]
  · simp [here]

private theorem answersTo_look (x : Look) (call : Nat) :
    answersTo x.replies call = if x.waiter.call = call then x.replies else [] := by
  have others : ∀ reply ∈ x.replies, reply.1 = x.waiter.call ∧ reply.2 ≠ .settled := by
    intro reply h
    refine ⟨Look.call_of_mem_replies h, ?_⟩
    rw [Look.replies] at h
    split at h <;> split_ifs at h <;> simp_all
  split_ifs with here
  · refine List.filter_eq_self.mpr fun reply h => ?_
    simp [others reply h, here]
  · exact answersTo_eq_nil fun reply h same => absurd ((others reply h).1.symm.trans same) here

private theorem answersTo_looks_of_notMem {looks : List Look}
    (absent : call ∉ looks.map (·.waiter.call)) :
    answersTo (looks.flatMap (·.replies)) call = [] := by
  refine answersTo_eq_nil fun reply h same => ?_
  obtain ⟨x, hx, h⟩ := List.mem_flatMap.mp h
  have here := (Look.call_of_mem_replies h).symm.trans same
  exact absurd (here ▸ List.mem_map_of_mem hx) absent

private theorem answersTo_looks {looks : List Look} (unique : (looks.map (·.waiter.call)).Nodup)
    (hx : x ∈ looks) : answersTo (looks.flatMap (·.replies)) x.waiter.call = x.replies := by
  obtain ⟨before, later, rfl⟩ := List.append_of_mem hx
  rw [List.map_append, List.map_cons] at unique
  obtain ⟨-, unique, apart⟩ := List.nodup_append.mp unique
  have first := answersTo_looks_of_notMem fun h => apart _ h _ List.mem_cons_self rfl
  have last := answersTo_looks_of_notMem (List.nodup_cons.mp unique).1
  rw [List.flatMap_append, List.flatMap_cons, answersTo_append, answersTo_append, first, last,
    answersTo_look, if_pos rfl, List.nil_append, List.append_nil]

end Answers

namespace Hub

/-- Whether a consumer has come for a message: it stands in line, or asks for one just now. -/
def CameFor (h : Hub) (asked : List (Nat × Request)) (w : Waiter) (stays : Bool) : Prop :=
  w ∈ h.line ∧ stays = true ∨
    ∃ request, (w.call, request) ∈ asked ∧ request.asker? = some (w.owner, stays)

/-- A hub that meets some requests and some line hands out messages by some deeds: the contract
between the deeds, the replies, and what is left. -/
structure Handed (h : Hub) (asked : List (Nat × Request)) (accepts : Nat → Bool)
    (deeds : List Deed) (replies : List Reply) (h' : Hub) : Prop where
  queue_eq : h'.queue = h.queue.after (operationsOf deeds)
  faithful : h.queue.Faithful deeds
  places : (foundFor deeds ++ h'.line.map (·.call)).Subperm
    (h.line.map (·.call) ++ asked.map Prod.fst)
  cameFor : ∀ x ∈ looksOf deeds, h.CameFor asked x.waiter x.stays
  taken : ∀ x ∈ looksOf deeds, x.taken = accepts x.waiter.call
  told : ∀ x ∈ looksOf deeds, answersTo replies x.waiter.call = x.replies
  line : ∀ w ∈ h'.line, h.CameFor asked w true
  untold : ∀ w ∈ h'.line, answersTo replies w.call = []
  addressed : ∀ reply ∈ replies, reply.1 ∈ h.line.map (·.call) ++ asked.map Prod.fst
  deliveries : ∀ call a, (call, .delivery a) ∈ replies →
    ∃ x ∈ looksOf deeds, (call, .delivery a) ∈ x.replies

private theorem handOver_look {queue : Queue} {r : Receivers} {w : Waiter} {now : Instant}
    {d : Delivery}
    (found : (queue.pop w.owner now).1 = some d) (stays : Bool) (line : List Waiter) :
    (Hub.mk (queue.pop w.owner now).2 line).handOver r w.call d =
      ((Look.into queue r w now stays).replies,
        ⟨queue.after (Look.into queue r w now stays).operations, line⟩) := by
  have found : (Look.into queue r w now stays).found = some d := found
  by_cases accepts : r.accepts w.call
  · rw [Look.operations_of_taken found accepts, Look.replies, found]
    simp only [handOver, accepts, if_true, Look.into]
    rfl
  · have taken : (Look.into queue r w now stays).taken = false := by simpa [Look.into] using accepts
    rw [Look.operations_of_untaken found taken, Look.replies, found]
    simp only [handOver, accepts, Bool.false_eq_true, if_false, Look.into]
    rfl

section Line

variable {r : Receivers} {servedAt : Nat → Instant} {w : Waiter} {rest : List Waiter}
  {queue : Queue} {looks : List Look} {replies : List Reply} {h : Hub}

def lineLooks (r : Receivers) (servedAt : Nat → Instant) : List Waiter → Queue → List Look
  | [], _ => []
  | w :: rest, queue =>
    if !queue.hasReady then []
    else if !r.isOpen w.call then lineLooks r servedAt rest queue
    else
      let x := Look.into queue r w (servedAt w.call) true
      x :: lineLooks r servedAt rest (queue.after x.operations)

/-- A line was served by some looks, each of which found a message. -/
structure Reached (r : Receivers) (line : List Waiter) (queue : Queue) (looks : List Look)
    (replies : List Reply) (h : Hub) : Prop where
  replies_eq : replies = looks.flatMap (·.replies)
  queue_eq : h.queue = queue.after (looks.flatMap (·.operations))
  faithful : queue.Faithful (looks.map .look)
  places : (looks.map (·.waiter) ++ h.line).Sublist line
  seen : ∀ x ∈ looks, x.found.isSome ∧ x.stays ∧ x.taken = r.accepts x.waiter.call

private theorem Reached.skip (s : Reached r rest queue looks replies h) (w : Waiter) :
    Reached r (w :: rest) queue looks replies h :=
  { s with places := s.places.cons w }

private theorem Reached.look {x : Look} (found : x.found = (queue.pop x.waiter.owner x.now).1)
    (seen : x.found.isSome ∧ x.stays ∧ x.taken = r.accepts x.waiter.call)
    (s : Reached r rest (queue.after x.operations) looks replies h) :
    Reached r (x.waiter :: rest) queue (x :: looks) (x.replies ++ replies) h where
  replies_eq := by rw [s.replies_eq, List.flatMap_cons]
  queue_eq := by rw [s.queue_eq, List.flatMap_cons, Queue.after_append]
  faithful := ⟨found, s.faithful⟩
  places := s.places.cons_cons _
  seen y hy := by
    rcases List.mem_cons.mp hy with rfl | hy
    · exact seen
    · exact s.seen y hy

theorem reached_serveLine (r : Receivers) (servedAt : Nat → Instant) (line : List Waiter)
    {queue : Queue} (hq : queue.Coherent) :
    Reached r line queue (lineLooks r servedAt line queue) (serveLine r servedAt line queue).1
      (serveLine r servedAt line queue).2 := by
  have nobody : ∀ line queue, Reached r line queue [] [] ⟨queue, line⟩ := fun line queue =>
    ⟨rfl, rfl, trivial, .refl _, fun _ h => absurd h List.not_mem_nil⟩
  induction line generalizing queue with
  | nil => exact nobody [] queue
  | cons w rest ih =>
    rw [serveLine, lineLooks]
    by_cases ready : queue.hasReady
    · simp only [ready, Bool.not_true, Bool.false_eq_true, if_false]
      by_cases there : r.isOpen w.call
      · simp only [there, Bool.not_true, Bool.false_eq_true, if_false]
        obtain ⟨d, popped, h⟩ := hq.pop_of_hasReady ready w.owner (servedAt w.call)
        have found : (queue.pop w.owner (servedAt w.call)).1 = some d := congrArg Prod.fst h
        have after := Queue.moves_after hq
          (Look.into queue r w (servedAt w.call) true).operations
        have handed := handOver_look (r := r) found true rest
        rw [h] at handed ⊢
        simp only [handed]
        exact (ih (after.coherent hq)).look rfl ⟨by rw [Look.into, found]; rfl, rfl, rfl⟩
      · simp only [there, Bool.not_false, if_true]
        exact (ih hq).skip w
    · simp only [ready, Bool.not_false, if_true]
      exact nobody (w :: rest) queue

theorem serveLine_congr (r r' : Receivers) (servedAt : Nat → Instant) {line : List Waiter}
    (isOpen : ∀ w ∈ line, r.isOpen w.call = r'.isOpen w.call)
    (accepts : ∀ w ∈ line, r.accepts w.call = r'.accepts w.call) (queue : Queue) :
    serveLine r servedAt line queue = serveLine r' servedAt line queue := by
  induction line generalizing queue with
  | nil => rfl
  | cons w rest ih =>
    have others := ih (fun v hv => isOpen v (List.mem_cons_of_mem w hv))
      (fun v hv => accepts v (List.mem_cons_of_mem w hv))
    have here := List.mem_cons_self (a := w) (l := rest)
    simp only [serveLine, handOver, isOpen w here, accepts w here, others]

private theorem foundFor_looks (found : ∀ x ∈ looks, x.found.isSome) :
    foundFor (looks.map .look) = looks.map (·.waiter.call) := by
  rw [foundFor, looksOf_looks, List.filter_eq_self.mpr found]

theorem handed_serveLine (hq : h.queue.Coherent) (unique : (h.line.map (·.call)).Nodup)
    (r : Receivers) (servedAt : Nat → Instant) :
    Handed h [] r.accepts ((lineLooks r servedAt h.line h.queue).map .look)
      (serveLine r servedAt h.line h.queue).1 (serveLine r servedAt h.line h.queue).2 := by
  have s := reached_serveLine r servedAt h.line hq
  have places : ((lineLooks r servedAt h.line h.queue).map (·.waiter.call) ++
      (serveLine r servedAt h.line h.queue).2.line.map (·.call)).Sublist (h.line.map (·.call)) := by
    simpa [List.map_append, Function.comp_def] using s.places.map (·.call)
  obtain ⟨once, -, apart⟩ := List.nodup_append.mp (unique.sublist places)
  constructor
  case queue_eq =>
    rw [operationsOf_looks]
    exact s.queue_eq
  case faithful => exact s.faithful
  case places =>
    rw [foundFor_looks fun x hx => (s.seen x hx).1, List.map_nil, List.append_nil]
    exact places.subperm
  case cameFor =>
    intro x hx
    rw [looksOf_looks] at hx
    have stood := s.places.subset (List.mem_append_left _ (List.mem_map_of_mem hx))
    exact .inl ⟨stood, (s.seen x hx).2.1⟩
  case taken =>
    intro x hx
    rw [looksOf_looks] at hx
    exact (s.seen x hx).2.2
  case told =>
    intro x hx
    rw [looksOf_looks] at hx
    rw [s.replies_eq]
    exact answersTo_looks once hx
  case line =>
    intro w hw
    exact .inl ⟨s.places.subset (List.mem_append_right _ hw), rfl⟩
  case untold =>
    -- Nobody stands in line twice, so whoever is left there was not looked for.
    intro w hw
    rw [s.replies_eq]
    exact answersTo_looks_of_notMem fun h => apart _ h _ (List.mem_map_of_mem hw) rfl
  case addressed =>
    intro reply told
    rw [s.replies_eq] at told
    obtain ⟨x, hx, told⟩ := List.mem_flatMap.mp told
    rw [Look.call_of_mem_replies told]
    exact List.mem_append_left _ (places.subset (List.mem_append_left _ (List.mem_map_of_mem hx)))
  case deliveries =>
    intro call a told
    rw [s.replies_eq] at told
    rw [looksOf_looks]
    exact List.mem_flatMap.mp told

end Line

section Requests

variable {h : Hub} {m : Moment} {call : Nat} {request : Request}

/-- The deeds by which a request is carried out. -/
def requestDeeds (h : Hub) (m : Moment) (call : Nat) : Request → List Deed
  | .push _ id payload priority delay => [.other (.push id payload priority delay m.now)]
  | .pop owner wait => [.look (.into h.queue m.first ⟨owner, call⟩ m.now wait)]
  | .ack id token requeue delay => [.other (.ack id token requeue delay m.now)]
  | .ackPop owner id token requeue delay wait =>
    .other (.ack id token requeue delay m.now) ::
      match h.queue.ack id token requeue delay m.now with
      | (.ok (), queue) => [.look (.into queue m.first ⟨owner, call⟩ m.now wait)]
      | (.error _, _) => []
  | .eraseFailed ids => [.other (.eraseFailed ids)]
  | .release owner => [.other (.release m.order owner m.now)]
  | .counts | .stats | .listFailed _ => []

/-- What a request is told before the hub looks for a message. -/
def settlements (h : Hub) (now : Instant) (call : Nat) : Request → List Reply
  | .ackPop _ id token requeue delay _ =>
    match (h.queue.ack id token requeue delay now).1 with
    | .ok _ => [(call, .settled)]
    | .error _ => []
  | _ => []

theorem settlements_cases (h : Hub) (now : Instant) (call : Nat) (request : Request) :
    h.settlements now call request = [] ∨ h.settlements now call request = [(call, .settled)] := by
  cases request with
  | ackPop owner id token requeue delay wait =>
    rw [settlements]
    split
    · exact .inr rfl
    · exact .inl rfl
  | _ => exact .inl rfl

theorem of_mem_settlements {now : Instant} {reply : Reply}
    (told : reply ∈ h.settlements now call request) : reply = (call, .settled) := by
  rcases settlements_cases h now call request with none | one
  · exact absurd (none ▸ told) List.not_mem_nil
  · exact List.mem_singleton.mp (one ▸ told)

private theorem handed_answer (unique : (h.line.map (·.call) ++ [call]).Nodup)
    (accepts : Nat → Bool)
    (deeds : List Deed) {queue : Queue} (queue_eq : queue = h.queue.after (operationsOf deeds))
    (faithful : h.queue.Faithful deeds) (blind : looksOf deeds = []) {a : Answer}
    (plain : ∀ d, a ≠ .delivery d) :
    Handed h [(call, request)] accepts deeds [(call, a)] { h with queue } where
  queue_eq := queue_eq
  faithful := faithful
  places := by
    rw [foundFor, blind]
    exact (List.sublist_append_left _ _).subperm
  cameFor x hx := by simp [blind] at hx
  taken x hx := by simp [blind] at hx
  told x hx := by simp [blind] at hx
  line w hw := .inl ⟨hw, rfl⟩
  untold w hw := by
    refine answersTo_eq_nil fun reply hreply same => ?_
    rw [List.mem_singleton.mp hreply] at same
    have apart := (List.nodup_append.mp unique).2.2
    exact absurd same.symm (apart _ (List.mem_map_of_mem hw) _ (List.mem_singleton.mpr rfl))
  addressed reply hreply := by
    rw [List.mem_singleton.mp hreply]
    exact List.mem_append_right _ List.mem_cons_self
  deliveries call' d told := by
    have same := congrArg Prod.snd (List.mem_singleton.mp told)
    exact absurd same.symm (plain d)

private theorem serve_look (h : Hub) (queue : Queue) (r : Receivers) (owner : Nat) (wait : Bool)
    (now : Instant) :
    serve { h with queue := (queue.pop owner now).2 } r owner wait call (queue.pop owner now).1 =
      ((Look.into queue r ⟨owner, call⟩ now wait).replies,
        ⟨queue.after (Look.into queue r ⟨owner, call⟩ now wait).operations,
          (h.line.filter fun w => r.isOpen w.call) ++
            if (queue.pop owner now).1.isNone && wait then [⟨owner, call⟩] else []⟩) := by
  cases found : (queue.pop owner now).1 with
  | some d =>
    have handed := handOver_look (w := ⟨owner, call⟩) (r := r) found wait
      (h.line.filter fun w => r.isOpen w.call)
    simpa [serve] using handed
  | none =>
    have nothing : (Look.into queue r ⟨owner, call⟩ now wait).found = none := found
    rw [Look.operations_of_nothing nothing, Look.replies, nothing]
    cases wait <;> simp [serve, Look.into] <;> rfl

section Looks

variable {x : Look} {before : List Deed} {settled : List Reply}

private theorem looksOf_concat_look (blind : looksOf before = []) (x : Look) :
    looksOf (before ++ [.look x]) = [x] := by
  rw [looksOf_append, blind]
  rfl

private theorem answersTo_settled_look (hsettled : ∀ reply ∈ settled, reply.2 = .settled) (x : Look)
    (n : Nat) :
    answersTo (settled ++ x.replies) n = if x.waiter.call = n then x.replies else [] := by
  rw [answersTo_append, answersTo_eq_nil fun reply told _ => hsettled reply told, answersTo_look]
  rfl

private theorem places_look {line line' : List Waiter} (kept : line'.Sublist line)
    (blind : looksOf before = []) (x : Look) :
    (foundFor (before ++ [.look x]) ++
      (line' ++ if x.found.isNone && x.stays then [x.waiter] else []).map (·.call)).Subperm
        (line.map (·.call) ++ [x.waiter.call]) := by
  have shorter := kept.map (·.call)
  have grown := (shorter.append (.refl [x.waiter.call])).subperm
  rw [foundFor, looksOf_concat_look blind]
  cases found : x.found with
  | some d => simpa [found] using List.perm_append_comm.subperm.trans grown
  | none =>
    cases stays : x.stays with
    | true => simpa [found] using grown
    | false =>
      simpa [found] using (shorter.trans (List.sublist_append_left _ [x.waiter.call])).subperm

private theorem handed_of_look (unique : (h.line.map (·.call) ++ [x.waiter.call]).Nodup)
    (asker : request.asker? = some (x.waiter.owner, x.stays)) {accepts : Nat → Bool}
    (taken : x.taken = accepts x.waiter.call) (faithful : h.queue.Faithful (before ++ [.look x]))
    (blind : looksOf before = []) (hsettled : ∀ reply ∈ settled, reply = (x.waiter.call, .settled))
    {line : List Waiter} (kept : line.Sublist h.line) :
    Handed h [(x.waiter.call, request)] accepts (before ++ [.look x]) (settled ++ x.replies)
      ⟨h.queue.after (operationsOf (before ++ [.look x])),
        line ++ if x.found.isNone && x.stays then [x.waiter] else []⟩ := by
  have looks := looksOf_concat_look blind x
  have answers := answersTo_settled_look (fun reply told => by rw [hsettled reply told]) x
  have only : ∀ {y}, y ∈ looksOf (before ++ [.look x]) → y = x := by
    intro y hy
    rwa [looks, List.mem_singleton] at hy
  have last : ∀ {w}, w ∈ (line ++ if x.found.isNone && x.stays then [x.waiter] else []) →
      w ∈ h.line ∨ w = x.waiter ∧ x.found = none ∧ x.stays = true := by
    intro w hw
    rcases List.mem_append.mp hw with hw | hw
    · exact .inl (kept.subset hw)
    · split_ifs at hw with parked
      · exact .inr ⟨List.mem_singleton.mp hw, by simpa using parked⟩
      · exact absurd hw List.not_mem_nil
  constructor
  case queue_eq => rfl
  case faithful => exact faithful
  case places => exact places_look kept blind x
  case cameFor =>
    intro y hy
    rw [only hy]
    exact .inr ⟨request, List.mem_cons_self, asker⟩
  case taken =>
    intro y hy
    rw [only hy, taken]
  case told =>
    intro y hy
    rw [only hy, answers, if_pos rfl]
  case line =>
    intro w hw
    rcases last hw with stood | ⟨rfl, -, stays⟩
    · exact .inl ⟨stood, rfl⟩
    · exact .inr ⟨request, List.mem_cons_self, stays ▸ asker⟩
  case untold =>
    intro w hw
    rw [answers]
    rcases last hw with stood | ⟨rfl, nothing, stays⟩
    · have apart := (List.nodup_append.mp unique).2.2 _ (List.mem_map_of_mem stood)
      exact if_neg fun same => apart _ List.mem_cons_self same.symm
    · rw [Look.replies_of_nothing nothing, if_pos stays, ite_self]
  case addressed =>
    intro reply told
    refine List.mem_append_right _ (List.mem_singleton.mpr ?_)
    rcases List.mem_append.mp told with told | told
    · rw [hsettled reply told]
    · exact Look.call_of_mem_replies told
  case deliveries =>
    intro n d told
    rw [looks]
    rcases List.mem_append.mp told with told | told
    · exact absurd (hsettled _ told) (by simp)
    · exact ⟨x, List.mem_cons_self, told⟩

end Looks

private theorem handed_look (unique : (h.line.map (·.call) ++ [call]).Nodup) {owner : Nat}
    {wait : Bool} (asker : request.asker? = some (owner, wait)) (r : Receivers) (now : Instant)
    (before : List Deed) (faithful : h.queue.Faithful before) (blind : looksOf before = [])
    {queue : Queue} (queue_eq : queue = h.queue.after (operationsOf before)) (settled : List Reply)
    (hsettled : ∀ reply ∈ settled, reply = (call, .settled)) :
    Handed h [(call, request)] r.accepts
      (before ++ [.look (.into queue r ⟨owner, call⟩ now wait)])
      (settled ++ (serve { h with queue := (queue.pop owner now).2 } r owner wait call
        (queue.pop owner now).1).1)
      (serve { h with queue := (queue.pop owner now).2 } r owner wait call
        (queue.pop owner now).1).2 := by
  have whole : h.queue.Faithful (before ++ [.look (.into queue r ⟨owner, call⟩ now wait)]) :=
    Queue.faithful_append.mpr ⟨faithful, queue_eq ▸ rfl, trivial⟩
  have after : queue.after (Look.into queue r ⟨owner, call⟩ now wait).operations =
      h.queue.after (operationsOf (before ++ [.look (.into queue r ⟨owner, call⟩ now wait)])) := by
    rw [operationsOf_append, Queue.after_append, ← queue_eq]
    simp [operationsOf, Deed.operations]
  rw [serve_look, after]
  exact handed_of_look (x := .into queue r ⟨owner, call⟩ now wait) unique asker rfl whole blind
    hsettled List.filter_sublist

private theorem handed_release (unique : (h.line.map (·.call) ++ [call]).Nodup)
    (accepts : Nat → Bool) (m : Moment) (owner : Nat) :
    Handed h [(call, request)] accepts [.other (.release m.order owner m.now)]
      (h.handle m call (.release owner)).1 (h.handle m call (.release owner)).2 where
  queue_eq := rfl
  faithful := ⟨rfl, trivial⟩
  places := by
    have kept : ((h.line.filter (·.owner != owner)).map (·.call)).Sublist (h.line.map (·.call)) :=
      List.filter_sublist.map _
    exact (kept.trans (List.sublist_append_left _ [call])).subperm
  cameFor x hx := absurd hx List.not_mem_nil
  taken x hx := absurd hx List.not_mem_nil
  told x hx := absurd hx List.not_mem_nil
  line w hw := .inl ⟨(List.mem_filter.mp hw).1, rfl⟩
  untold w hw := by
    obtain ⟨stood, spared⟩ := List.mem_filter.mp hw
    refine answersTo_eq_nil fun reply hreply same => ?_
    obtain ⟨v, hv, rfl⟩ := List.mem_map.mp hreply
    obtain ⟨hv, released⟩ := List.mem_filter.mp hv
    -- Nobody else in line made the same call.
    obtain rfl := List.inj_on_of_nodup_map (List.nodup_append.mp unique).1 hv stood same
    simp_all
  addressed reply hreply := by
    obtain ⟨v, hv, rfl⟩ := List.mem_map.mp hreply
    exact List.mem_append_left _ (List.mem_map_of_mem (List.mem_filter.mp hv).1)
  deliveries call' d told := by
    obtain ⟨v, -, same⟩ := List.mem_map.mp told
    exact absurd (congrArg Prod.snd same) (by simp)

/-- A request that is carried out keeps to the contract. -/
theorem handed_handle (unique : (h.line.map (·.call) ++ [call]).Nodup) (m : Moment)
    (request : Request) :
    Handed h [(call, request)] m.first.accepts (h.requestDeeds m call request)
      (h.handle m call request).1 (h.handle m call request).2 := by
  have nothing : ∀ {a}, (∀ d, a ≠ .delivery d) →
      Handed h [(call, request)] m.first.accepts [] [(call, a)] h :=
    fun plain => handed_answer unique _ [] rfl trivial rfl plain
  cases request with
  | push owner id payload priority delay =>
    rw [handle]
    cases pushed : h.queue.push id payload priority delay m.now with
    | mk result queue =>
      have after : queue = h.queue.after [.push id payload priority delay m.now] :=
        (congrArg Prod.snd pushed).symm
      cases result <;> exact handed_answer unique _ [.other _] after ⟨rfl, trivial⟩ rfl (by simp)
  | pop owner wait =>
    exact handed_look unique rfl m.first m.now [] trivial rfl rfl [] fun _ h =>
      absurd h List.not_mem_nil
  | ack id token requeue delay =>
    rw [handle]
    cases acked : h.queue.ack id token requeue delay m.now with
    | mk result queue =>
      have after : queue = h.queue.after [.ack id token requeue delay m.now] :=
        (congrArg Prod.snd acked).symm
      cases result <;> exact handed_answer unique _ [.other _] after ⟨rfl, trivial⟩ rfl (by simp)
  | ackPop owner id token requeue delay wait =>
    rw [handle, requestDeeds]
    cases acked : h.queue.ack id token requeue delay m.now with
    | mk result queue =>
      have after : queue = h.queue.after [.ack id token requeue delay m.now] :=
        (congrArg Prod.snd acked).symm
      cases result with
      | error e =>
        simp only [Queue.ackPop, acked]
        exact handed_answer unique _ [.other _] after ⟨rfl, trivial⟩ rfl (by simp)
      | ok _ =>
        simp only [Queue.ackPop, acked]
        exact handed_look unique rfl m.first m.now [.other _] ⟨rfl, trivial⟩ rfl after
          [(call, .settled)] fun reply h => List.mem_singleton.mp h
  | counts => exact nothing (by simp)
  | stats => exact nothing (by simp)
  | listFailed limit => exact nothing (by simp)
  | eraseFailed ids => exact handed_answer unique _ [.other _] rfl ⟨rfl, trivial⟩ rfl (by simp)
  | release owner => exact handed_release unique m.first.accepts m owner

theorem handle_settlements (h : Hub) (m : Moment) (call : Nat) (request : Request) :
    ∃ rest, (h.handle m call request).1 = h.settlements m.now call request ++ rest := by
  cases request with
  | ackPop owner id token requeue delay wait =>
    rw [handle, settlements, Queue.ackPop]
    cases acked : h.queue.ack id token requeue delay m.now with
    | mk result queue =>
      cases result with
      | error e => exact ⟨_, rfl⟩
      | ok _ => exact ⟨_, rfl⟩
  | _ => exact ⟨_, rfl⟩

theorem handed_sweep (h : Hub) (m : Moment) (accepts : Nat → Bool) :
    Handed h [] accepts [.other (.sweep m.order m.now)] [] (h.sweep m) where
  queue_eq := rfl
  faithful := ⟨rfl, trivial⟩
  places := by
    rw [List.map_nil, List.append_nil]
    exact List.Subperm.refl _
  cameFor x hx := absurd hx List.not_mem_nil
  taken x hx := absurd hx List.not_mem_nil
  told x hx := absurd hx List.not_mem_nil
  line w hw := .inl ⟨hw, rfl⟩
  untold w hw := rfl
  addressed reply told := absurd told List.not_mem_nil
  deliveries call d told := absurd told List.not_mem_nil

end Requests

end Hub
end WorkBroker
