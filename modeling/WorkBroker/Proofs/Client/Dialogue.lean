import WorkBroker.Proofs.Client.Courses
import WorkBroker.Proofs.Hub.Interludes
/-!
What a client does, as a dialogue.  A dialogue is carried out over the network by the client's
session, and it may as well be held with a hub directly, with whatever others do between its
requests.  Where the network carries the requests and the replies, the client comes to what the
dialogue with the hub comes to.
-/

set_option autoImplicit false
set_option relaxedAutoImplicit false

namespace WorkBroker

open Net

/-- What a client does within its session: it sends a request and goes on as the reply says, or it
gives the connection up. -/
inductive Dialogue (α : Type)
  | done (value : α)
  | ask (p : Packet) (next : Except ClientError Packet → Dialogue α)
  | reset (rest : Dialogue α)

/-- What surrounds the requests of a client at a broker, by the number of turns that have passed
when one is sent: the connection on which it comes, what the hub meets in its turn, and the turns
that others have before. -/
structure Circumstances where
  settings : Settings
  owner : Nat → Nat
  moment : Nat → Moment
  others : Nat → List Turn

/-- A request at a hub: the hub when it is sent, the turns of others before it, the hub before its
own turn and after it, and the reply. -/
structure Visit where
  sent : Hub
  others : List Turn
  before : Hub
  request : Packet
  reply : Packet
  after : Hub

namespace Circumstances

variable (c : Circumstances) (n : Nat) (h : Hub)

def hubBefore : Hub := h.steps n (c.others n)

def turnsBefore : Nat := n + (c.others n).length

def visit (p reply : Packet) (after : Hub) : Visit :=
  ⟨h, c.others n, c.hubBefore n h, p, reply, after⟩

def answer (role : Role) (p : Packet) : Option Packet × Hub :=
  (c.hubBefore n h).answer c.settings (c.owner n) role (c.turnsBefore n) (c.moment n) p

end Circumstances

/-- How a dialogue with a hub has gone: the visits, what it has come to, and how many turns have
passed at the hub, and where it stands. -/
structure Dialogue.Run (α : Type) where
  visits : List Visit
  result : α
  turns : Nat
  hub : Hub

def Dialogue.Run.behind {α : Type} (r : Dialogue.Run α) (v : Visit) : Dialogue.Run α :=
  { r with visits := v :: r.visits }

namespace Dialogue

variable {α β : Type}

def bind : Dialogue α → (α → Dialogue β) → Dialogue β
  | .done value, f => f value
  | .ask p next, f => .ask p fun reply => (next reply).bind f
  | .reset rest, f => .reset (rest.bind f)

/-- Carries a dialogue out over the network. -/
def client : Dialogue α → Client α
  | .done value => pure value
  | .ask p next => Session.request p >>= fun reply => (next reply).client
  | .reset rest => Session.reset >>= fun _ => rest.client

theorem client_bind (d : Dialogue α) (f : α → Dialogue β) :
    (d.bind f).client = d.client >>= fun a => (f a).client := by
  induction d with
  | done value => rw [bind, client, pure_bind]
  | ask p next ih =>
    rw [bind, client, client, bind_assoc]
    exact congrArg _ (funext ih)
  | reset rest ih =>
    rw [bind, client, client, bind_assoc, ih]

def heard : Packet → Except ClientError Packet
  | .error code text => .error (.broker code text)
  | reply => .ok reply

/-- Holds a dialogue with a hub at which `n` turns have passed.  There is no outcome if a request
gets no reply, or if the connection is given up. -/
def run (role : Role) (c : Circumstances) : Dialogue α → Nat → Hub → Option (Run α)
  | .done value, n, h => some ⟨[], value, n, h⟩
  | .ask p next, n, h =>
    match c.answer n h role p with
    | (none, _) => none
    | (some reply, after) =>
      ((next (heard reply)).run role c (c.turnsBefore n + 1) after).map
        (·.behind (c.visit n h p reply after))
  | .reset _, _, _ => none

section Runs

variable {role : Role} {c : Circumstances} {n : Nat} {h : Hub}

theorem run_bind {d : Dialogue α} {f : α → Dialogue β} {r : Run α} {r' : Run β}
    (first : d.run role c n h = some r)
    (later : (f r.result).run role c r.turns r.hub = some r') :
    (d.bind f).run role c n h = some { r' with visits := r.visits ++ r'.visits } := by
  induction d generalizing n h r with
  | done value =>
    obtain rfl := Option.some.inj first
    exact later
  | ask p next ih =>
    rw [run] at first
    rw [bind, run]
    split at first
    · cases first
    · obtain ⟨r₁, rest, rfl⟩ := Option.map_eq_some_iff.mp first
      rw [ih _ rest later]
      rfl
  | reset rest ih => cases first

theorem run_bind_done {d : Dialogue α} {f : α → Dialogue β} {r : Run α} {b : β}
    (first : d.run role c n h = some r) (ended : f r.result = .done b) :
    (d.bind f).run role c n h = some { r with result := b } := by
  have later : (f r.result).run role c r.turns r.hub = some ⟨[], b, r.turns, r.hub⟩ := by
    rw [ended]
    rfl
  have whole := run_bind first later
  rwa [List.append_nil] at whole

theorem run_ask {p reply : Packet} {next : Except ClientError Packet → Dialogue α} {after : Hub}
    {r : Run α}
    (answered : c.answer n h role p = (some reply, after))
    (rest : (next (heard reply)).run role c (c.turnsBefore n + 1) after = some r) :
    (Dialogue.ask p next).run role c n h = some (r.behind (c.visit n h p reply after)) := by
  rw [run, answered]
  dsimp only
  rw [rest]
  rfl

end Runs

/-- The requests of some visits are sent over the network, and the replies come back. -/
inductive Carried : List Visit → Session → List Occurrence → Session → Prop
  | none (s : Session) : Carried [] s [] s
  | next {v : Visit} {rest : List Visit} {s s₁ s' : Session} {first later : List Occurrence}
      (request : (Session.request v.request s).Traces first (heard v.reply, s₁))
      (others : Carried rest s₁ later s') : Carried (v :: rest) s (first ++ later) s'

/-- Whether surroundings that answer every action carry some requests and their replies, none of
which is an error. -/
def carries {σ : Type} (perform : (action : Action) → σ → action.Outcome × σ) :
    List (Packet × Packet) → Session → σ → Bool
  | [], _, _ => true
  | (p, reply) :: rest, s, w =>
    let played := (Session.request p s).run perform w
    (match played.1.1, heard reply with
      | .ok got, .ok told => got == told
      | _, _ => false) &&
      carries perform rest played.1.2 played.2

theorem carried_of_carries {σ : Type} {perform : (action : Action) → σ → action.Outcome × σ}
    {visits : List Visit} {s : Session} {w : σ}
    (ok : carries perform (visits.map fun v => (v.request, v.reply)) s w = true) :
    ∃ trace s', Carried visits s trace s' := by
  induction visits generalizing s w with
  | nil => exact ⟨[], s, .none s⟩
  | cons v rest ih =>
    rw [List.map_cons, carries] at ok
    obtain ⟨same, ok⟩ := Bool.and_eq_true_iff.mp ok
    obtain ⟨later, s', others⟩ := ih ok
    have result : ((Session.request v.request s).run perform w).1.1 = heard v.reply := by
      split at same
      · rename_i got told
        rw [got, told, beq_iff_eq.mp same]
      · cases same
    have request : (Session.request v.request s).Traces
        ((Session.request v.request s).trace perform w)
        (heard v.reply, ((Session.request v.request s).run perform w).1.2) := by
      rw [← result]
      exact (Session.request v.request s).traces_trace perform w
    exact ⟨_, s', .next request others⟩

/-- Where the network carries the requests and the replies, the client comes to what the dialogue
with the hub has come to. -/
theorem traces_client {role : Role} {c : Circumstances} {d : Dialogue α} {n : Nat} {h : Hub}
    {r : Run α} (held : d.run role c n h = some r) {s s' : Session} {trace : List Occurrence}
    (carried : Carried r.visits s trace s') : (d.client s).Traces trace (r.result, s') := by
  induction d generalizing n h r s trace with
  | done value =>
    obtain rfl := Option.some.inj held
    cases carried
    exact .done _
  | ask p next ih =>
    rw [run] at held
    split at held
    · cases held
    · obtain ⟨r₁, rest, rfl⟩ := Option.map_eq_some_iff.mp held
      cases carried with
      | next request others => exact request.bind (ih _ rest others)
  | reset rest ih => cases held

end Dialogue

/-- Before a visit nobody else erases anything, and no message fails for good. -/
structure Visit.Calm (v : Visit) : Prop where
  spared : ∀ t ∈ v.others, ¬t.Erases
  unfailing : ∀ id, v.before.queue.isFailed id → v.sent.queue.isFailed id

/-- Nobody else erases anything between some visits, and no message fails for good. -/
def Calm (visits : List Visit) : Prop := ∀ v ∈ visits, v.Calm

theorem Calm.cons {v : Visit} {visits : List Visit} (calm : Calm (v :: visits)) :
    v.Calm ∧ Calm visits := List.forall_mem_cons.mp calm

theorem calm_of_alone {α : Type} {role : Role} {c : Circumstances} (alone : ∀ k, c.others k = [])
    {d : Dialogue α} {n : Nat} {h : Hub} {r : Dialogue.Run α} (held : d.run role c n h = some r) :
    Calm r.visits := by
  induction d generalizing n h r with
  | done value =>
    obtain rfl := Option.some.inj held
    exact fun v hv => absurd hv List.not_mem_nil
  | ask p next ih =>
    rw [Dialogue.run] at held
    split at held
    · cases held
    · obtain ⟨r₁, rest, rfl⟩ := Option.map_eq_some_iff.mp held
      refine List.forall_mem_cons.mpr ⟨⟨fun t ht => ?_, fun id failed => ?_⟩, ih _ rest⟩
      · rw [Circumstances.visit, alone] at ht
        exact absurd ht List.not_mem_nil
      · rw [Circumstances.visit, Circumstances.hubBefore, alone] at failed
        exact failed
  | reset rest ih => cases held

theorem Calm.append {visits more : List Visit} (calm : Calm (visits ++ more)) :
    Calm visits ∧ Calm more := List.forall_mem_append.mp calm

end WorkBroker
