import WorkBroker.Broker.Conversation
import WorkBroker.Proofs.Hub.Deeds
import WorkBroker.Proofs.Hub.SettleAndTake
import WorkBroker.Proofs.Queue.Erasure
/-!
What the hub does between two requests of one client, and how it answers one.  The turns that it
takes for others leave every failed message where it is, unless one of them is an erasure; and a
turn that lists or erases failed messages serves nobody in line, so it does to the hub what it does
to the queue, and nothing else.
-/

set_option autoImplicit false
set_option relaxedAutoImplicit false

namespace WorkBroker

/-- Whether a turn is a request to erase failed messages. -/
def Turn.Erases (t : Turn) : Prop := ∃ m ids, t = .request m (.eraseFailed ids)

namespace Hub

variable {h : Hub} {n : Nat} {t : Turn} {id : String} {m : Moment}

section Others

/-- The hub after some turns, `n` turns having passed before. -/
def steps : Nat → Hub → List Turn → Hub
  | _, h, [] => h
  | n, h, t :: rest => steps (n + 1) (h.step n t).2 rest

theorem Orderly.steps (o : Orderly n h) (turns : List Turn) :
    Orderly (n + turns.length) (h.steps n turns) := by
  induction turns generalizing n h with
  | nil => exact o
  | cons t rest ih =>
    have later := ih (o.step t)
    rwa [Nat.add_assoc, Nat.add_comm 1] at later

private theorem Orderly.unique (o : Orderly n h) : (h.line.map (·.call) ++ [n]).Nodup := by
  refine List.nodup_append.mpr ⟨?_, List.nodup_singleton n, ?_⟩
  · exact List.pairwise_map.mpr (o.sorted.imp Nat.ne_of_lt)
  · intro call hcall last hlast
    obtain ⟨w, hw, rfl⟩ := List.mem_map.mp hcall
    rw [List.mem_singleton.mp hlast]
    exact Nat.ne_of_lt (o.numbered w hw)

private theorem eraseFailed_notMem_operations (x : Look) (ids : List String) :
    .eraseFailed ids ∉ x.operations := by
  rw [Look.operations]
  split
  · split_ifs <;> simp
  · simp

private theorem eraseFailed_notMem_requestDeeds (h : Hub) (m : Moment) (call : Nat)
    {request : Request} (spares : ∀ ids, request ≠ .eraseFailed ids) (ids : List String) :
    .eraseFailed ids ∉ operationsOf (h.requestDeeds m call request) := by
  have looks := eraseFailed_notMem_operations
  cases request with
  | eraseFailed listed => exact absurd rfl (spares listed)
  | pop owner wait => simpa [requestDeeds, operationsOf, Deed.operations] using looks _ ids
  | ackPop owner id token requeue delay wait =>
    rw [requestDeeds]
    split
    · simpa [operationsOf, Deed.operations] using looks _ ids
    · simp [operationsOf, Deed.operations]
  | _ => simp [requestDeeds, operationsOf, Deed.operations]

private theorem Orderly.operations_step (o : Orderly n h) (spares : ¬t.Erases) :
    ∃ ops, (h.step n t).2.queue = h.queue.after ops ∧ ∀ ids, .eraseFailed ids ∉ ops := by
  have coherent := (carried_act o.coherent n t).moves.coherent o.coherent
  have served := reached_serveLine t.moment.later t.moment.servedAt (h.act n t).2.line coherent
  have first : ∃ ops, (h.act n t).2.queue = h.queue.after ops ∧ ∀ ids, .eraseFailed ids ∉ ops := by
    cases t with
    | request m request =>
      refine ⟨_, (handed_handle o.unique m request).queue_eq, ?_⟩
      refine eraseFailed_notMem_requestDeeds h m n fun ids erases => spares ⟨m, ids, ?_⟩
      rw [erases]
    | timer m => exact ⟨[.sweep m.order m.now], rfl, by simp⟩
  obtain ⟨ops, queue, spare⟩ := first
  refine ⟨ops ++ (lineLooks t.moment.later t.moment.servedAt (h.act n t).2.line
    (h.act n t).2.queue).flatMap (·.operations), ?_, fun ids erases => ?_⟩
  · rw [Queue.after_append, ← queue, step_eq]
    exact served.queue_eq
  · rcases List.mem_append.mp erases with erases | erases
    · exact spare ids erases
    · obtain ⟨x, -, erases⟩ := List.mem_flatMap.mp erases
      exact eraseFailed_notMem_operations x ids erases

private theorem Orderly.isFailed_step (o : Orderly n h) (spares : ¬t.Erases)
    (failed : h.queue.isFailed id) : (h.step n t).2.queue.isFailed id := by
  obtain ⟨ops, queue, spared⟩ := o.operations_step spares
  rw [queue]
  exact Queue.isFailed_after o.coherent spared failed

/-- Whatever has failed is there still when others have had their turns. -/
theorem Orderly.isFailed_steps (o : Orderly n h) {turns : List Turn}
    (spare : ∀ t ∈ turns, ¬t.Erases) (failed : h.queue.isFailed id) :
    (h.steps n turns).queue.isFailed id := by
  induction turns generalizing n h with
  | nil => exact failed
  | cons t rest ih =>
    have still := o.isFailed_step (spare t List.mem_cons_self) failed
    exact ih (o.step t) (fun t ht => spare t (List.mem_cons_of_mem _ ht)) still

end Others

section Answers

/-- The reply of a broker to a packet that comes on a connection, and its hub after the turn that
this takes; a call that has to wait, and a packet that ends the conversation, get none. -/
def answer (settings : Settings) (owner : Nat) (role : Role) (h : Hub) (call : Nat) (m : Moment)
    (p : Packet) : Option Packet × Hub :=
  match Conversation.decide settings owner role p with
  | .part | .dismiss _ => (none, h)
  | .reply reply => (some reply, h)
  | .consult request _ =>
    let (replies, h) := h.turn m call request
    ((replies.find? (·.1 == call)).map fun reply =>
      (Conversation.conclude p (Call.resultOf reply.2)).1, h)

private theorem Orderly.turn_listFailed (o : Orderly n h) (m : Moment) (limit : Nat) :
    h.turn m n (.listFailed limit) =
      ([(n, .failed (h.queue.failedIds limit).1 (h.queue.failedIds limit).2)], h) := by
  have idle := dispatch_of_idle m o.idle
  simp only [turn, handle, idle, List.append_nil]

def erase (h : Hub) (ids : List String) : Hub := { h with queue := (h.queue.eraseFailed ids).2 }

private theorem Orderly.turn_eraseFailed (o : Orderly n h) (m : Moment) (ids : List String) :
    h.turn m n (.eraseFailed ids) = ([(n, .erased (h.queue.eraseFailed ids).1)], h.erase ids) := by
  have ready : (h.queue.eraseFailed ids).2.hasReady = h.queue.hasReady := by
    rw [o.coherent.eraseFailed_snd]
    rfl
  have idle : (h.erase ids).dispatch m = ([], h.erase ids) :=
    dispatch_of_idle m fun some_ready => o.idle (ready.symm.trans some_ready)
  rw [erase] at idle
  simp only [turn, handle, idle, List.append_nil, erase]

variable (settings : Settings) (owner : Nat)

theorem Orderly.answer_listFailed (o : Orderly n h) (m : Moment) (limit : UInt32) :
    h.answer settings owner .monitor n m (.listFailed limit) =
      (some (.failed (h.queue.failedIds (min limit.toNat maxIds)).1
        (h.queue.failedIds (min limit.toNat maxIds)).2), h) := by
  have turned := o.turn_listFailed m (min limit.toNat maxIds)
  simp only [answer, Conversation.decide, turned, List.find?_cons, beq_self_eq_true,
    Option.map_some]
  rfl

theorem Orderly.answer_eraseFailed (o : Orderly n h) (m : Moment) (ids : List String) :
    h.answer settings owner .monitor n m (.eraseFailed ids) =
      (some (.erased (h.queue.eraseFailed ids).1), h.erase ids) := by
  have turned := o.turn_eraseFailed m ids
  simp only [answer, Conversation.decide, turned, List.find?_cons, beq_self_eq_true,
    Option.map_some]
  rfl

theorem Orderly.after_listing (o : Orderly n h) : Orderly (n + 1) h :=
  ⟨o.coherent, o.idle, o.sorted, fun w hw => Nat.lt_succ_of_lt (o.numbered w hw)⟩

theorem Orderly.after_erasure (o : Orderly n h) (ids : List String) :
    Orderly (n + 1) (h.erase ids) := by
  have stepped := o.step (.request (.steady (fun _ => true) ⟨0⟩) (.eraseFailed ids))
  rw [Hub.step, o.turn_eraseFailed] at stepped
  exact stepped

end Answers

end Hub
end WorkBroker
