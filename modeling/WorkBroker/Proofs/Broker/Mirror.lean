import WorkBroker.Broker.Basic
import WorkBroker.Proofs.Broker.Concourse
import WorkBroker.Proofs.Hub.Race
/-!
A running broker is a concourse.  Its desk numbers the commands in the order in which they are
sent and has those that the hub has not looked at in its inbox; its conversations stand where those
of the concourse stand.  So what holds of every concourse holds of the broker, and in the end only
who is still being talked to has anything of the hub.
-/

set_option autoImplicit false
set_option relaxedAutoImplicit false

namespace WorkBroker

variable {s : Settings}

namespace Desk

open Concourse (run)

variable {d : Desk} {c : Concourse} {f : Call → Call} {number : Nat}

/-- Whether a desk has done and has still to do what a concourse says. -/
structure Carries (d : Desk) (c : Concourse) : Prop where
  hub_eq : d.hub = c.hub
  stopped_eq : d.stopped = c.stopped
  nextCall_eq : d.nextCall = c.sent.length
  inbox_eq : d.inbox = if c.stopped then [] else List.range' c.done (c.sent.length - c.done)
  fresh : ∀ call ∈ d.calls, call.number < d.nextCall
  asked : ∀ n ∈ d.inbox, ∃ call x, d.find? n = some call ∧ c.sent[n]? = some x ∧
    call.request = x.request

private theorem Carries.lt_of_mem_inbox (k : d.Carries c) {n : Nat} (hn : n ∈ d.inbox) :
    c.done ≤ n ∧ n < c.sent.length := by
  rw [k.inbox_eq] at hn
  split_ifs at hn with stopped
  · cases hn
  · have bounds := List.mem_range'_1.mp hn
    omega

private theorem Carries.mapCalls (k : d.Carries c)
    (same : ∀ call, (f call).number = call.number ∧ (f call).request = call.request) :
    (d.mapCalls f).Carries c where
  hub_eq := k.hub_eq
  stopped_eq := k.stopped_eq
  nextCall_eq := k.nextCall_eq
  inbox_eq := k.inbox_eq
  fresh call hcall := by
    obtain ⟨before, hbefore, rfl⟩ := List.mem_map.mp hcall
    rw [(same before).1]
    exact k.fresh before hbefore
  asked n hn := by
    obtain ⟨call, x, found, sent, request⟩ := k.asked n hn
    refine ⟨f call, x, ?_, sent, (same call).2.trans request⟩
    rw [find?_mapCalls fun call => (same call).1, found, Option.map_some]

private theorem find?_forget (d : Desk) {n : Nat} (other : n ≠ number) :
    (d.forget number).find? n = d.find? n := by
  simp only [find?, forget, List.find?_filter]
  congr 1
  funext call
  by_cases here : call.number = n
  · simp [here, other]
  · simp [here]

private theorem Carries.forget (k : d.Carries c) (looked : number ∉ d.inbox) :
    (d.forget number).Carries c where
  hub_eq := k.hub_eq
  stopped_eq := k.stopped_eq
  nextCall_eq := k.nextCall_eq
  inbox_eq := k.inbox_eq
  fresh call hcall := k.fresh call (List.mem_filter.mp hcall).1
  asked n hn := by
    have other : n ≠ number := fun same => looked (same ▸ hn)
    rw [find?_forget d other]
    exact k.asked n hn

private theorem find?_submit {n : Nat} {call : Call} (found : d.find? n = some call)
    (request : Request) (wait : Option Duration) (now : Instant) :
    (d.submit request wait now).2.find? n = some call := by
  rw [find?, submit, List.find?_append, ← find?, found, Option.some_or]

private theorem find?_submit_self (fresh : ∀ call ∈ d.calls, call.number < d.nextCall)
    (request : Request) (wait : Option Duration) (now : Instant) :
    ∃ call, (d.submit request wait now).2.find? d.nextCall = some call ∧
      call.request = request := by
  have unknown : d.find? d.nextCall = none := by
    refine List.find?_eq_none.mpr fun other hother same => ?_
    have lt := fresh other hother
    rw [eq_of_beq same] at lt
    exact Nat.lt_irrefl _ lt
  rw [find?, submit, List.find?_append, ← find?, unknown, Option.none_or, List.find?_singleton]
  simp

private theorem Carries.submit (k : d.Carries c) (le : c.done ≤ c.sent.length) (sender : Nat)
    (request : Request) (wait : Option Duration) (now : Instant) :
    (d.submit request wait now).2.Carries
      { c with sent := c.sent ++ [⟨sender, request⟩] } := by
  have old : ∀ n ∈ d.inbox, ∃ call x, (d.submit request wait now).2.find? n = some call ∧
      (c.sent ++ [Command.mk sender request])[n]? = some x ∧ call.request = x.request := by
    intro n hn
    obtain ⟨call, x, found, there, same⟩ := k.asked n hn
    refine ⟨call, x, find?_submit found request wait now, ?_, same⟩
    rw [List.getElem?_append_left (k.lt_of_mem_inbox hn).2, there]
  constructor
  case hub_eq => exact k.hub_eq
  case stopped_eq => exact k.stopped_eq
  case nextCall_eq =>
    rw [List.length_append, List.length_singleton]
    exact congrArg (· + 1) k.nextCall_eq
  case inbox_eq =>
    have count : (c.sent ++ [Command.mk sender request]).length - c.done =
        c.sent.length - c.done + 1 := by
      rw [List.length_append, List.length_singleton]
      omega
    have last : c.done + (c.sent.length - c.done) = d.nextCall := by
      rw [k.nextCall_eq]
      omega
    have before := k.inbox_eq
    rw [Desk.submit, k.stopped_eq, count, List.range'_1_concat, last]
    dsimp only
    split_ifs at before ⊢ with stopped
    · exact before
    · rw [before]
  case fresh =>
    intro call hcall
    rcases List.mem_append.mp hcall with hcall | hcall
    · exact Nat.lt_succ_of_lt (k.fresh call hcall)
    · rw [List.mem_singleton.mp hcall]
      exact Nat.lt_succ_self d.nextCall
  case asked =>
    intro n hn
    rw [Desk.submit] at hn
    dsimp only at hn
    split_ifs at hn with stopped
    · exact old n hn
    · rcases List.mem_append.mp hn with hn | hn
      · exact old n hn
      · rw [List.mem_singleton.mp hn]
        obtain ⟨call, found, asks⟩ := find?_submit_self k.fresh request wait now
        refine ⟨call, ⟨sender, request⟩, found, ?_, asks⟩
        rw [k.nextCall_eq]
        exact List.getElem?_concat_length

private theorem Carries.done_eq (k : d.Carries c) (le : c.done ≤ c.sent.length)
    (running : d.stopped = false) (empty : d.inbox = []) : c.done = c.sent.length := by
  have left := k.inbox_eq
  rw [empty, ← k.stopped_eq, running, if_neg Bool.false_ne_true] at left
  have none : c.sent.length - c.done = 0 := by
    simpa using (congrArg List.length left).symm
  omega

/-- Whether a desk is that of a concourse after some run, with these conversations and commands. -/
def Mirrored (s : Settings) (stage : Nat → Stage) (sent : List Command) (d : Desk) : Prop :=
  ∃ events, (run s events).stage = stage ∧ (run s events).sent = sent ∧ d.Carries (run s events)

variable {stage : Nat → Stage} {sent : List Command}

private theorem Mirrored.mapCalls (h : d.Mirrored s stage sent)
    (same : ∀ call, (f call).number = call.number ∧ (f call).request = call.request) :
    (d.mapCalls f).Mirrored s stage sent := by
  obtain ⟨events, hstage, hsent, k⟩ := h
  exact ⟨events, hstage, hsent, k.mapCalls same⟩

private theorem Carries.deliver (k : d.Carries c) (now : Instant) (replies : List Reply) :
    (d.deliver now replies).Carries c := by
  rw [deliver_eq]
  refine k.mapCalls fun call => ?_
  obtain ⟨number, request, -⟩ := call.hear_same now replies
  exact ⟨number, request⟩

private theorem Carries.next (k : d.Carries c) {inbox : List Nat}
    (present : d.inbox = number :: inbox) :
    c.stopped = false ∧ number = c.done ∧
      inbox = List.range' (c.done + 1) (c.sent.length - (c.done + 1)) := by
  have running : c.stopped = false := by
    by_contra stopped
    have none := k.inbox_eq
    rw [if_pos (by simpa using stopped), present] at none
    cases none
  have bounds := k.lt_of_mem_inbox (present ▸ List.mem_cons_self)
  have count : c.sent.length - c.done = c.sent.length - (c.done + 1) + 1 := by omega
  have all := k.inbox_eq
  rw [running, present, count, List.range'_succ] at all
  simpa [running] using all

private theorem Mirrored.work (h : d.Mirrored s stage sent) (now : Instant) :
    (d.work now).2.Mirrored s stage sent := by
  obtain ⟨events, hstage, hsent, k⟩ := h
  cases present : d.inbox with
  | nil =>
    rw [Desk.work, present]
    exact ⟨events, hstage, hsent, k⟩
  | cons number inbox =>
    have first : number ∈ d.inbox := present ▸ List.mem_cons_self
    obtain ⟨call, x, found, there, request⟩ := k.asked number first
    obtain ⟨running, rfl, rest⟩ := k.next present
    have step := Concourse.step_work running s (d.moment now) there
    have taken : Carries { d with
        hub := (d.hub.turn (d.moment now) (run s events).done call.request).2, inbox }
        (run s (events ++ [.work (d.moment now)])) := by
      rw [Concourse.run_concat, step]
      exact
        { hub_eq := by rw [k.hub_eq, request]
          stopped_eq := k.stopped_eq
          nextCall_eq := k.nextCall_eq
          inbox_eq := by
            rw [if_neg (by simp [running])]
            exact rest
          fresh := k.fresh
          asked := fun n hn => k.asked n (present ▸ List.mem_cons_of_mem _ hn) }
    have told := taken.deliver now
      (d.hub.turn (d.moment now) (run s events).done call.request).1
    -- A release is forgotten at once; it is not among the requests that are still to come.
    have looked : (run s events).done ∉ inbox := by
      rw [rest]
      intro again
      have bounds := List.mem_range'_1.mp again
      omega
    refine ⟨events ++ [.work (d.moment now)], ?_, ?_, ?_⟩
    · rw [Concourse.run_concat, step]
      exact hstage
    · rw [Concourse.run_concat, step]
      exact hsent
    · simp only [Desk.work, present, found]
      split_ifs
      · exact told
      · refine told.forget ?_
        rw [deliver_eq]
        exact looked

private theorem Mirrored.tick (h : d.Mirrored s stage sent) (now : Instant) :
    (d.tick now).2.Mirrored s stage sent := by
  obtain ⟨events, hstage, hsent, k⟩ := h
  rw [Desk.tick]
  split_ifs with stopped
  · exact ⟨events, hstage, hsent, k⟩
  · have running : (run s events).stopped = false := by
      rw [← k.stopped_eq]
      simpa using stopped
    have step : run s (events ++ [.tick (d.moment now)]) =
        { run s events with hub := ((run s events).hub.tick (d.moment now)).2 } := by
      rw [Concourse.run_concat, Concourse.step, if_neg (by simp [running])]
    refine ⟨events ++ [.tick (d.moment now)], ?_, ?_, ?_⟩
    · rw [step]
      exact hstage
    · rw [step]
      exact hsent
    · refine Carries.deliver ?_ now _
      rw [step]
      exact { k with hub_eq := by rw [k.hub_eq] }

private theorem Mirrored.stop (h : d.Mirrored s stage sent) : d.stop.Mirrored s stage sent := by
  obtain ⟨events, hstage, hsent, k⟩ := h
  refine ⟨events ++ [.stop], ?_, ?_, ?_⟩
  · rw [Concourse.run_concat]
    exact hstage
  · rw [Concourse.run_concat]
    exact hsent
  · rw [Concourse.run_concat]
    constructor
    case hub_eq => exact congrArg (fun hub => hub.stop.2) k.hub_eq
    case stopped_eq => rfl
    case nextCall_eq => exact k.nextCall_eq
    case inbox_eq => rfl
    case fresh =>
      intro call hcall
      obtain ⟨before, hbefore, rfl⟩ := List.mem_map.mp hcall
      have same : before.stop.number = before.number := by
        rw [Call.stop]
        split <;> rfl
      rw [same]
      exact k.fresh before hbefore
    case asked => exact fun n hn => absurd hn List.not_mem_nil

end Desk

namespace Timeline

variable {stage : Nat → Stage} {sent : List Command}

private theorem andThen_induction {p : Desk → Prop} {r : List Nat × Timeline} (h : p r.2.desk)
    {f : Desk → List Nat × Desk} (keeps : ∀ d, p d → p (f d).2) : p (andThen r f).2.desk :=
  keeps r.2.desk h

theorem turn_induction {p : Desk → Prop} (t : Timeline) (work : ∀ d, p d → p (d.work t.now).2)
    (tick : ∀ d, p d → p (d.tick t.now).2) (h : p t.desk) : p t.turn.2.desk := by
  have workAll : ∀ d, p d → p (d.workAll t.now).2 := by
    intro d hd
    exact List.foldlRecOn (motive := fun r : List Nat × Desk => p r.2) _ _ hd
      fun r hr _ _ => work r.2 hr
  have sweepDelayed : ∀ d, p d → p (sweepDelayed t.now d).2 := by
    intro d hd
    rw [Timeline.sweepDelayed]
    split
    · split_ifs
      · exact tick d hd
      · exact hd
    · exact hd
  have asked := andThen_induction (r := ([], t)) h workAll
  have swept := andThen_induction asked sweepDelayed
  exact List.foldlRecOn (motive := fun r : List Nat × Timeline => p r.2.desk) _ _ swept
    fun r hr _ _ => andThen_induction hr tick

private theorem mirrored_turn {t : Timeline} (h : t.desk.Mirrored s stage sent) :
    t.turn.2.desk.Mirrored s stage sent :=
  turn_induction t (fun _ h => h.work t.now) (fun _ h => h.tick t.now) h

private theorem mirrored_settle {t : Timeline} (h : t.desk.Mirrored s stage sent) :
    t.settle.desk.Mirrored s stage sent := by
  have collects : ∀ call : Call,
      call.collect.number = call.number ∧ call.collect.request = call.request := by
    intro call
    obtain ⟨number, request, -⟩ := (Call.acts_collect [] call).same
    exact ⟨number, request⟩
  have expires : ∀ call : Call, (call.expire t.turn.2.now).number = call.number ∧
      (call.expire t.turn.2.now).request = call.request := by
    intro call
    have late : Call.Acts [.expire call.number t.turn.2.now] call (call.expire t.turn.2.now) :=
      Call.acts_depart rfl (List.mem_singleton_self _)
    obtain ⟨number, request, -⟩ := late.same
    exact ⟨number, request⟩
  exact ((mirrored_turn h).mapCalls collects |>.mapCalls expires).mapCalls collects

end Timeline

namespace Broker

open Conversation (command? commands)
open Concourse (run)

variable {b b' : Broker} {c : Concourse} {stage : Nat → Stage} {sent : List Command} {id : Nat}

section Perform

def roll (b : Broker) : List (Nat × Stage) := b.talks.map fun t => (t.id, t.stage)

private theorem carries_perform (k : b.hub.desk.Carries c) (le : c.done ≤ c.sent.length) (id : Nat)
    (effect : Conversation.Effect) :
    (b.perform id effect).2.hub.desk.Carries
      { c with sent := c.sent ++ [effect].filterMap (command? id) } := by
  cases effect with
  | consult request wait => exact k.submit le id request wait b.hub.now
  | release => exact k.submit le id (.release id) none b.hub.now
  | note | introduce | send | refuse =>
    show b.hub.desk.Carries { c with sent := c.sent ++ [] }
    rw [List.append_nil]
    exact k

private theorem perform_same (b : Broker) (id : Nat) (effect : Conversation.Effect) :
    (b.perform id effect).2.roll = b.roll ∧
      (b.perform id effect).2.floor.nextId = b.floor.nextId ∧
      (b.perform id effect).2.settings = b.settings := by
  cases effect with
  | consult request wait =>
    refine ⟨?_, rfl, rfl⟩
    rw [roll, roll, perform, List.map_map]
    refine List.map_congr_left fun t _ => ?_
    rw [Function.comp_apply]
    split_ifs <;> rfl
  | note | introduce | send | refuse | release => exact ⟨rfl, rfl, rfl⟩

private theorem carries_performAll (k : b.hub.desk.Carries c) (le : c.done ≤ c.sent.length)
    (id : Nat) (effects : List Conversation.Effect) :
    (b.performAll id effects).2.hub.desk.Carries
      { c with sent := c.sent ++ effects.filterMap (command? id) } := by
  induction effects generalizing b c with
  | nil =>
    rw [List.filterMap_nil, List.append_nil]
    exact k
  | cons effect rest ih =>
    have first := carries_perform k le id effect
    have rest := ih first (Nat.le_trans le (by simp))
    rw [← List.singleton_append, List.filterMap_append, ← List.append_assoc]
    exact rest

theorem performAll_same (b : Broker) (id : Nat) (effects : List Conversation.Effect) :
    (b.performAll id effects).2.roll = b.roll ∧
      (b.performAll id effects).2.floor.nextId = b.floor.nextId ∧
      (b.performAll id effects).2.settings = b.settings := by
  induction effects generalizing b with
  | nil => exact ⟨rfl, rfl, rfl⟩
  | cons effect rest ih =>
    obtain ⟨roll, nextId, settings⟩ := perform_same b id effect
    obtain ⟨roll', nextId', settings'⟩ := ih (b.perform id effect).2
    exact ⟨roll'.trans roll, nextId'.trans nextId, settings'.trans settings⟩

end Perform

section Records

variable {roll : List (Nat × Stage)} {next : Nat}

/-- Whether the conversations on a roll stand where those of a concourse stand.  Whoever is not on
it has parted or has never said anything; `next` is the number of the next connection. -/
structure Records (roll : List (Nat × Stage)) (next : Nat) (stage : Nat → Stage)
    (sent : List Command) : Prop where
  stage_eq : ∀ x ∈ roll, stage x.1 = x.2
  old : ∀ x ∈ roll, x.1 < next
  new : ∀ id, next ≤ id → stage id = .greeting
  away : ∀ id, (∀ x ∈ roll, x.1 ≠ id) → (stage id).isOver ∨ ∀ x ∈ sent, x.sender ≠ id

private theorem Records.goOn (r : Records roll next stage sent) {before : Stage}
    (known : (id, before) ∈ roll) (after : Stage) {more : List Command}
    (own : ∀ x ∈ more, x.sender = id) :
    Records (roll.map fun x => if x.1 = id then (id, after) else x) next
      (Function.update stage id after) (sent ++ more) := by
  have young : id < next := r.old _ known
  constructor
  case stage_eq =>
    intro y hy
    obtain ⟨x, hx, rfl⟩ := List.mem_map.mp hy
    split_ifs with here
    · exact Function.update_self ..
    · rw [Function.update_of_ne here]
      exact r.stage_eq x hx
  case old =>
    intro y hy
    obtain ⟨x, hx, rfl⟩ := List.mem_map.mp hy
    split_ifs
    · exact young
    · exact r.old x hx
  case new =>
    intro i hi
    have other : i ≠ id := Nat.ne_of_gt (Nat.lt_of_lt_of_le young hi)
    rw [Function.update_of_ne other]
    exact r.new i hi
  case away =>
    intro i gone
    have absent : ∀ x ∈ roll, x.1 ≠ i := by
      intro x hx same
      refine gone _ (List.mem_map_of_mem hx) ?_
      split_ifs with here
      · exact here.symm.trans same
      · exact same
    have other : i ≠ id := fun same => absent _ known same.symm
    rw [Function.update_of_ne other]
    refine (r.away i absent).imp_right fun silent x hx => ?_
    rcases List.mem_append.mp hx with hx | hx
    · exact silent x hx
    · rw [own x hx]
      exact other.symm

private theorem Records.turnAway (r : Records roll next stage sent) :
    Records roll (next + 1) stage sent where
  stage_eq := r.stage_eq
  old x hx := Nat.lt_succ_of_lt (r.old x hx)
  new i hi := r.new i (Nat.le_of_succ_le hi)
  away := r.away

private theorem Records.admit (r : Records roll next stage sent) :
    Records (roll ++ [(next, .greeting)]) (next + 1) stage sent where
  stage_eq x hx := by
    rcases List.mem_append.mp hx with hx | hx
    · exact r.stage_eq x hx
    · rw [List.mem_singleton.mp hx]
      exact r.new next (Nat.le_refl next)
  old x hx := by
    rcases List.mem_append.mp hx with hx | hx
    · exact Nat.lt_succ_of_lt (r.old x hx)
    · rw [List.mem_singleton.mp hx]
      exact Nat.lt_succ_self next
  new i hi := r.new i (Nat.le_of_succ_le hi)
  away i gone := r.away i fun x hx => gone x (List.mem_append_left _ hx)

private theorem Records.leave (r : Records roll next stage sent)
    (parted : ∀ x ∈ roll, x.1 = id → x.2.isOver) :
    Records (roll.filter (·.1 != id)) next stage sent where
  stage_eq x hx := r.stage_eq x (List.mem_filter.mp hx).1
  old x hx := r.old x (List.mem_filter.mp hx).1
  new := r.new
  away i gone := by
    by_cases known : ∃ x ∈ roll, x.1 = i
    · obtain ⟨x, hx, rfl⟩ := known
      have here : x.1 = id := by
        by_contra other
        exact gone x (List.mem_filter.mpr ⟨hx, by simpa using other⟩) rfl
      rw [r.stage_eq x hx]
      exact .inl (parted x hx here)
    · exact r.away i fun x hx same => known ⟨x, hx, same⟩

private theorem Records.known (r : Records roll next stage sent)
    (said : ∃ x ∈ sent, x.sender = id) : (id, stage id) ∈ roll ∨ (stage id).isOver := by
  by_cases present : ∃ x ∈ roll, x.1 = id
  · obtain ⟨x, hx, rfl⟩ := present
    rw [r.stage_eq x hx]
    exact .inl hx
  · have absent : ∀ x ∈ roll, x.1 ≠ id := fun x hx same => present ⟨x, hx, same⟩
    rcases r.away id absent with ended | silent
    · exact .inr ended
    · obtain ⟨x, hx, sender⟩ := said
      exact absurd sender (silent x hx)

theorem find?_talk {t : Talk} (found : b.talk? id = some t) :
    t.id = id ∧ (id, t.stage) ∈ b.roll := by
  have here : t.id = id := by simpa using List.find?_some found
  refine ⟨here, List.mem_map.mpr ⟨t, List.mem_of_find?_eq_some found, ?_⟩⟩
  rw [here]

private theorem roll_setTalk (b : Broker) (t : Talk) :
    (b.setTalk t).roll = b.roll.map fun x => if x.1 = t.id then (t.id, t.stage) else x := by
  rw [Broker.roll, Broker.roll, setTalk, List.map_map, List.map_map]
  refine List.map_congr_left fun u _ => ?_
  by_cases same : u.id = t.id
  · simp [same]
  · simp [same]

theorem arrive_cases (b : Broker) :
    b.arrive.2.settings = b.settings ∧ b.arrive.2.hub = b.hub ∧
      b.arrive.2.floor.nextId = b.floor.nextId + 1 ∧
      (b.arrive.2.roll = b.roll ∨ b.arrive.2.roll = b.roll ++ [(b.floor.nextId, .greeting)]) := by
  rw [Broker.arrive, Floor.arrive]
  cases b.floor.limiter.enter with
  | mk result limiter =>
    cases result with
    | ok => exact ⟨rfl, rfl, rfl, .inr (by simp [Broker.roll])⟩
    | error => exact ⟨rfl, rfl, rfl, .inl rfl⟩

theorem depart_same (b : Broker) (id : Nat) :
    (b.depart id).settings = b.settings ∧ (b.depart id).floor.nextId = b.floor.nextId ∧
      (b.depart id).roll = b.roll.filter (·.1 != id) := by
  have roll (b : Broker) : (b.talks.filter (·.id != id)).map (fun t => (t.id, t.stage)) =
      b.roll.filter (·.1 != id) := by
    rw [Broker.roll, List.filter_map]
    rfl
  rw [Broker.depart]
  split
  · exact ⟨rfl, rfl, roll b⟩
  · exact ⟨rfl, rfl, roll b⟩

end Records

section Moves

def Looked (b : Broker) (id : Nat) : Prop :=
  ∀ t ∈ b.talks, t.id = id → ∀ number, t.call = some number → number ∉ b.hub.desk.inbox

/-- What can happen to a broker.  Nobody gives up waiting before the hub has looked at the request,
and nobody goes away in the middle of a conversation. -/
inductive Moves (b : Broker) : Broker → Prop
  | arrive : Moves b b.arrive.2
  | occur (id : Nat) (event : Conversation.Event) : Moves b (b.occur id event).2
  | fetch (id : Nat) (result : Except BrokerError Answer) (b' : Broker)
      (fetched : b.fetch id = some (result, b')) (looked : b.Looked id) : Moves b b'
  | depart (id : Nat) (parted : ∀ x ∈ b.roll, x.1 = id → x.2.isOver) (looked : b.Looked id) :
      Moves b (b.depart id)
  | turn : Moves b b.turn.2
  | elapse (now : Instant) : Moves b (b.elapse now)
  | cancel : Moves b b.cancel

/-- Whether a broker is a concourse after some run. -/
def Mirrored (s : Settings) (b : Broker) : Prop :=
  b.settings = s ∧ ∃ stage sent, b.hub.desk.Mirrored s stage sent ∧
    Records b.roll b.floor.nextId stage sent

private theorem mirrored_start (s : Settings) : (start s).Mirrored s := by
  refine ⟨rfl, fun _ => .greeting, [], ?_, ?_⟩
  · refine Timeline.mirrored_settle ⟨[], rfl, rfl, ?_⟩
    exact ⟨rfl, rfl, rfl, rfl, fun _ h => absurd h List.not_mem_nil,
      fun _ h => absurd h List.not_mem_nil⟩
  · exact ⟨fun _ h => absurd h List.not_mem_nil, fun _ h => absurd h List.not_mem_nil,
      fun _ _ => rfl, fun _ _ => .inr fun _ h => absurd h List.not_mem_nil⟩

private theorem sender_of_mem_commands {event : Conversation.Event} {before : Stage} {x : Command}
    (hx : x ∈ commands s id before event) : x.sender = id := by
  obtain ⟨effect, -, sends⟩ := List.mem_filterMap.mp hx
  cases effect with
  | consult | release => exact (Option.some.inj sends) ▸ rfl
  | note | introduce | send | refuse => cases sends

private theorem Mirrored.occur (h : b.Mirrored s) (id : Nat) (event : Conversation.Event) :
    (b.occur id event).2.Mirrored s := by
  obtain ⟨settings, stage, sent, ⟨events, hstage, hsent, k⟩, r⟩ := h
  cases found : b.talk? id with
  | none =>
    rw [Broker.occur, found]
    exact ⟨settings, stage, sent, ⟨events, hstage, hsent, k⟩, r⟩
  | some t =>
    obtain ⟨rfl, known⟩ := find?_talk found
    have here : stage t.id = t.stage := r.stage_eq _ known
    have o := Concourse.sound_run s events
    let after := (Conversation.step s t.id t.stage event).2
    let effects := (Conversation.step s t.id t.stage event).1
    let b' := b.setTalk { t with stage := after }
    have turned : (b.occur t.id event).2 = (b'.performAll t.id effects).2 := by
      rw [Broker.occur, found, settings]
    obtain ⟨roll, nextId, same⟩ := performAll_same b' t.id effects
    have desk : (b'.performAll t.id effects).2.hub.desk.Carries { run s events with
        sent := (run s events).sent ++ commands s t.id t.stage event } :=
      carries_performAll (b := b') k o.done_le t.id effects
    have step : run s (events ++ [.occur t.id event]) = { run s events with
        stage := Function.update stage t.id after
        sent := (run s events).sent ++ commands s t.id t.stage event } := by
      rw [Concourse.run_concat, Concourse.step, hstage, here]
    rw [turned]
    refine ⟨same.trans settings, Function.update stage t.id after,
      sent ++ commands s t.id t.stage event, ⟨events ++ [.occur t.id event], ?_, ?_, ?_⟩, ?_⟩
    · rw [step]
    · rw [step, hsent]
    · rw [step]
      exact { desk with }
    · rw [roll, nextId, roll_setTalk]
      exact r.goOn known after fun x hx => sender_of_mem_commands hx

private theorem Mirrored.fetch (h : b.Mirrored s) {result : Except BrokerError Answer}
    (fetched : b.fetch id = some (result, b')) (looked : b.Looked id) : b'.Mirrored s := by
  obtain ⟨settings, stage, sent, ⟨events, hstage, hsent, k⟩, r⟩ := h
  rw [Broker.fetch] at fetched
  split at fetched
  · rename_i here before number found
    obtain ⟨there, known⟩ := find?_talk found
    obtain ⟨_, -, same⟩ := Option.map_eq_some_iff.mp fetched
    obtain ⟨-, rfl⟩ := Prod.mk.inj same
    have absent : number ∉ b.hub.desk.inbox :=
      looked _ (List.mem_of_find?_eq_some found) there number rfl
    refine ⟨settings, stage, sent, ⟨events, hstage, hsent, k.forget absent⟩, ?_⟩
    -- Taking the answer changes nothing on the roll.
    have standing : stage id = before := r.stage_eq _ known
    have nothing : ∀ x ∈ ([] : List Command), x.sender = id := fun _ h =>
      absurd h List.not_mem_nil
    have same := r.goOn known before nothing
    rw [← standing, Function.update_eq_self, standing, List.append_nil] at same
    rw [← roll_setTalk b ⟨id, before, none⟩] at same
    exact same
  · cases fetched

private theorem Mirrored.depart (h : b.Mirrored s) (parted : ∀ x ∈ b.roll, x.1 = id → x.2.isOver)
    (looked : b.Looked id) : (b.depart id).Mirrored s := by
  obtain ⟨settings, stage, sent, ⟨events, hstage, hsent, k⟩, r⟩ := h
  obtain ⟨same, nextId, roll⟩ := depart_same b id
  refine ⟨same.trans settings, stage, sent, ⟨events, hstage, hsent, ?_⟩, ?_⟩
  · rw [Broker.depart]
    split
    · rename_i here before number found
      have there := (find?_talk found).1
      exact k.forget (looked _ (List.mem_of_find?_eq_some found) there number rfl)
    · exact k
  · rw [roll, nextId]
    exact r.leave parted

/-- Whatever happens to a broker happens to a concourse. -/
theorem Mirrored.moves (h : b.Mirrored s) (move : Moves b b') : b'.Mirrored s := by
  obtain ⟨settings, stage, sent, desk, r⟩ := id h
  cases move with
  | arrive =>
    obtain ⟨same, hub, nextId, roll⟩ := arrive_cases b
    refine ⟨same.trans settings, stage, sent, hub ▸ desk, ?_⟩
    rcases roll with turnedAway | admitted
    · rw [turnedAway, nextId]
      exact r.turnAway
    · rw [admitted, nextId]
      exact r.admit
  | occur id event => exact h.occur id event
  | fetch id result b' fetched looked => exact h.fetch fetched looked
  | depart id parted looked => exact h.depart parted looked
  | turn => exact ⟨settings, stage, sent, Timeline.mirrored_turn desk, r⟩
  | elapse now => exact ⟨settings, stage, sent, desk, r⟩
  | cancel =>
    have stopped : b.hub.stop.desk.Mirrored s stage sent := Timeline.mirrored_settle desk.stop
    exact ⟨settings, stage, sent, stopped, r⟩

def Reaches (s : Settings) (b : Broker) : Prop := Relation.ReflTransGen Moves (start s) b

theorem mirrored_of_reaches (reaches : Reaches s b) : b.Mirrored s := by
  induction reaches with
  | refl => exact mirrored_start s
  | tail _ move ih => exact ih.moves move

/-- Once the hub has looked at every request, only those who are being talked to stand in line or
have a delivery out. -/
theorem belongsTo_roll (reaches : Reaches s b) (running : b.hub.desk.stopped = false)
    (idle : b.isAsked = false) :
    b.hub.desk.hub.BelongsTo fun id => ∃ stage, (id, stage) ∈ b.roll ∧ stage.isOver = false := by
  obtain ⟨-, stage, sent, ⟨events, rfl, rfl, k⟩, r⟩ := mirrored_of_reaches reaches
  have o := Concourse.sound_run s events
  have all := k.done_eq o.done_le running (by simpa [isAsked] using idle)
  have known : ∀ id, (∃ x ∈ (run s events).sent, x.sender = id) → ¬(run s events).Released id →
      ∃ stage, (id, stage) ∈ b.roll ∧ stage.isOver = false := by
    intro id said held
    have going : ((run s events).stage id).isOver = false := by
      by_contra ended
      exact held (o.released all (by simpa using ended))
    rcases r.known said with present | ended
    · exact ⟨_, present, going⟩
    · simp [going] at ended
  rw [k.hub_eq]
  constructor
  case line =>
    intro w hw
    refine known w.owner (o.known.line w hw) fun gone => ?_
    exact (o.clean w.owner gone).line w hw rfl
  case loans =>
    intro l runs
    refine known l.owner (o.known.loans l runs) fun gone => ?_
    exact (o.clean l.owner gone).loans l runs rfl

end Moves

end Broker
end WorkBroker
