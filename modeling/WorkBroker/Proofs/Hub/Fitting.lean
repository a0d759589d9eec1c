import WorkBroker.Proofs.Hub.Upkeep
import WorkBroker.Proofs.Queue.Stock
import WorkBroker.Proofs.Wire.Writable
/-!
What the hub answers fits into packets.  If whatever is pushed has a valid id and a payload within
the limit, and whatever is asked for is as small as a packet may be, then so are the deliveries that
are handed out and the lists of ids, however requests, sweeps and departures of callers interleave.
-/

set_option autoImplicit false
set_option relaxedAutoImplicit false

namespace WorkBroker

open PacketCodec (checkIds)

variable {c : PacketCodec}

def Request.Fits (c : PacketCodec) : Request → Prop
  | .push _ id payload _ _ => c.Carries id payload
  | .listFailed limit => limit ≤ maxIds
  | .eraseFailed ids => checkIds ids = .ok ()
  | _ => True

def Answer.Fits (c : PacketCodec) : Answer → Prop
  | .delivery (some d) => c.Carries d.id d.payload
  | .failed ids _ | .erased ids => checkIds ids = .ok ()
  | _ => True

def CallState.Fits (c : PacketCodec) : CallState → Prop
  | .offered answer | .finished (.ok answer) => answer.Fits c
  | _ => True

namespace Hub

variable {h : Hub} {q : Queue} {r : Receivers}

private theorem fits_handOver (stock : q.Stocks c.Carries) {d : Delivery}
    (fits : c.Carries d.id d.payload) (r : Receivers) (line : List Waiter) (call : Nat) :
    ((Hub.mk q line).handOver r call d).2.queue.Stocks c.Carries ∧
      ∀ reply ∈ ((Hub.mk q line).handOver r call d).1, reply.2.Fits c := by
  rw [handOver]
  split_ifs
  · refine ⟨stock, fun reply hr => ?_⟩
    rw [List.mem_singleton.mp hr]
    exact fits
  · exact ⟨stock.unpop d.id d.token, fun _ none => absurd none List.not_mem_nil⟩

private theorem fits_serve (stock : q.Stocks c.Carries) {next : Option Delivery}
    (fits : ∀ d, next = some d → c.Carries d.id d.payload) (r : Receivers) (line : List Waiter)
    (owner : Nat) (wait : Bool) (call : Nat) :
    ((Hub.mk q line).serve r owner wait call next).2.queue.Stocks c.Carries ∧
      ∀ reply ∈ ((Hub.mk q line).serve r owner wait call next).1, reply.2.Fits c := by
  cases next with
  | some d => exact fits_handOver stock (fits d rfl) r _ call
  | none =>
    rw [serve]
    dsimp only
    split_ifs
    · exact ⟨stock, fun _ none => absurd none List.not_mem_nil⟩
    · refine ⟨stock, fun reply hr => ?_⟩
      rw [List.mem_singleton.mp hr]
      trivial

private theorem fits_handle (stock : h.queue.Stocks c.Carries) {request : Request}
    (fits : request.Fits c) (m : Moment) (call : Nat) :
    (h.handle m call request).2.queue.Stocks c.Carries ∧
      ∀ reply ∈ (h.handle m call request).1, reply.2.Fits c := by
  have one {a : Answer} (ha : a.Fits c) : ∀ reply ∈ [(call, a)], reply.2.Fits c := by
    intro reply hr
    rw [List.mem_singleton.mp hr]
    exact ha
  cases request with
  | push owner id payload priority delay =>
    have pushed := stock.push fits priority delay m.now
    simp only [handle]
    split <;> rename_i answered <;> rw [answered] at pushed <;> exact ⟨pushed, one trivial⟩
  | pop owner wait =>
    obtain ⟨rest, found⟩ := stock.pop owner m.now
    exact fits_serve rest found m.first h.line owner wait call
  | ack id token requeue delay =>
    have acked := stock.ack id token requeue delay m.now
    simp only [handle]
    split <;> rename_i answered <;> rw [answered] at acked <;> exact ⟨acked, one trivial⟩
  | ackPop owner id token requeue delay wait =>
    obtain ⟨rest, found⟩ := stock.ackPop id token requeue delay owner m.now
    simp only [handle]
    split
    · rename_i next queue answered
      rw [answered] at rest found
      have served := fits_serve rest (fun d hd => found d (congrArg _ hd)) m.first h.line owner
        wait call
      refine ⟨served.1, fun reply hr => ?_⟩
      rcases List.mem_cons.mp hr with rfl | hr
      · trivial
      · exact served.2 reply hr
    · rename_i e queue answered
      rw [answered] at rest
      exact ⟨rest, one trivial⟩
  | counts | stats => exact ⟨stock, one trivial⟩
  | listFailed limit =>
    obtain ⟨few, held⟩ := stock.failedIds limit
    refine ⟨stock, one (PacketCodec.checkIds_eq_ok (Nat.le_trans few fits) fun id hid => ?_)⟩
    obtain ⟨payload, carries⟩ := held id hid
    exact carries.1
  | eraseFailed ids =>
    obtain ⟨rest, sub⟩ := stock.eraseFailed ids
    exact ⟨rest, one (PacketCodec.checkIds_of_sublist sub fits)⟩
  | release owner =>
    refine ⟨stock.releaseIn m.order owner m.now, fun reply hr => ?_⟩
    obtain ⟨w, -, rfl⟩ := List.mem_map.mp hr
    trivial

private theorem fits_serveLine (stock : q.Stocks c.Carries) (r : Receivers)
    (servedAt : Nat → Instant) (line : List Waiter) :
    (serveLine r servedAt line q).2.queue.Stocks c.Carries ∧
      ∀ reply ∈ (serveLine r servedAt line q).1, reply.2.Fits c := by
  induction line generalizing q with
  | nil => exact ⟨stock, fun _ none => absurd none List.not_mem_nil⟩
  | cons w rest ih =>
    obtain ⟨left, found⟩ := stock.pop w.owner (servedAt w.call)
    rw [serveLine]
    split_ifs
    · exact ⟨stock, fun _ none => absurd none List.not_mem_nil⟩
    · exact ih stock
    · split
      · rename_i queue popped
        rw [popped] at left
        refine ⟨left, fun reply hr => ?_⟩
        rw [List.mem_singleton.mp hr]
        trivial
      · rename_i d queue popped
        rw [popped] at left found
        obtain ⟨kept, first⟩ := fits_handOver left (found d rfl) r rest w.call
        obtain ⟨after, others⟩ := ih kept
        exact ⟨after, fun reply hr =>
          (List.mem_append.mp hr).elim (first reply) (others reply)⟩

end Hub

def fitting (c : PacketCodec) : Rule where
  queue := Queue.Stocks c.Carries
  call call := call.request.Fits c ∧ call.state.Fits c
  answer := Answer.Fits c

private theorem fits_resultOf {a : Answer} (fits : a.Fits c) :
    (CallState.finished (Call.resultOf a)).Fits c := by
  cases a <;> exact fits

theorem lasts_fitting (c : PacketCodec) : (fitting c).Lasts where
  handle stock asks m number := Hub.fits_handle stock asks.1 m number
  serveLine stock r servedAt line := Hub.fits_serveLine stock r servedAt line
  sweep stock order now := Queue.Stocks.sweepIn stock order now
  settled := trivial
  dropped := trivial
  act {xs call call'} fits act := by
    obtain ⟨asks, has⟩ := fits
    cases act with
    | stay => exact ⟨asks, has⟩
    | fetch offered =>
      rw [offered] at has
      exact ⟨asks, fits_resultOf has⟩
    | timeOut => exact ⟨asks, trivial⟩
    | abandon waiting abandoned =>
      rcases abandoned with ⟨state, -⟩ | ⟨state, -⟩
      · exact ⟨asks, state ▸ trivial⟩
      · exact ⟨asks, state ▸ trivial⟩
  receive {call a} fits told now := by
    obtain ⟨asks, has⟩ := fits
    by_cases pending : call.state = .pending
    · by_cases settled : a = .settled
      · rw [settled, Call.receive_settled pending]
        exact ⟨asks, has⟩
      · rw [Call.receive_answer pending settled]
        exact ⟨asks, told⟩
    · rw [Call.receive_of_answered pending]
      exact ⟨asks, has⟩

end WorkBroker
