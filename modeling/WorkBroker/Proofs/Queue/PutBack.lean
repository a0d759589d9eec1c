import WorkBroker.Proofs.Queue.Loans
import WorkBroker.Proofs.Queue.Serving
/-!
Deliveries that are put back.  A put-back is accepted for a delivery that is out, and for no other.
Right after the pop that it belongs to, it takes everything back but the token: the lane is built up
again from the message and not from where the id was found, and both are the same place because the
queue is coherent.
-/

set_option autoImplicit false
set_option relaxedAutoImplicit false

namespace WorkBroker.Queue

variable {q : Queue} {d : Delivery} {owner : Nat} {now : Instant}

theorem unpop_fst_iff (q : Queue) (id : String) (token : Nat) :
    (q.unpop id token).1 = true ↔ ∃ owner since, q.Runs ⟨id, token, owner, since⟩ := by
  constructor
  · intro accepted
    rcases q.unpop_cases id token with refused | ⟨m, owner, since, hm, state, -⟩
    · rw [refused] at accepted
      cases accepted
    · exact ⟨owner, since, runs_of_find? hm state⟩
  · rintro ⟨owner, since, out⟩
    obtain ⟨m, hm, state⟩ := runs_iff.mp out
    simp only [unpop, hm, state, if_true]

private theorem unpop_of_not_out {id : String} {token : Nat}
    (away : ∀ owner since, ¬q.Runs ⟨id, token, owner, since⟩) : q.unpop id token = (false, q) := by
  rcases q.unpop_cases id token with refused | ⟨m, owner, since, hm, state, -⟩
  · exact refused
  · exact absurd (runs_of_find? hm state) (away owner since)

def spend (q : Queue) : Queue := { q with nextToken := q.nextToken + 1 }

namespace Coherent

private theorem unpop_pop (hq : q.Coherent) (given : (q.pop owner now).1 = some d) :
    (q.pop owner now).2.unpop d.id d.token = (true, q.spend) := by
  rcases hq.pop_cases owner now with ⟨-, -, h⟩ | ⟨m, hm, state, front, -, h⟩
  · rw [h] at given
    cases given
  · rw [h] at given ⊢
    obtain rfl := Option.some.inj given
    exact hq.unpop_taken hm state front owner now

private theorem not_runs_spend (hq : q.Coherent) (given : (q.pop owner now).1 = some d)
    (holder : Nat) (since : Instant) : ¬q.spend.Runs ⟨d.id, d.token, holder, since⟩ := by
  rcases hq.serves_pop owner now with ⟨-, -, h⟩ | ⟨m, e, -, h, serves, -⟩
  · rw [h] at given
    cases given
  · obtain rfl := Option.some.inj (h.symm.trans given)
    intro out
    have state := out.state_eq (show q.spend.find? e.id = some m from serves.found)
    rw [serves.ready] at state
    cases state

private theorem spend (hq : q.Coherent) : q.spend.Coherent :=
  ⟨hq.1, hq.2, hq.3, hq.4, hq.5, hq.6, hq.7, hq.8, hq.9,
    fun t ht => Nat.lt_succ_of_lt (hq.token_lt t ht), hq.11, hq.12⟩

private theorem pop_spend (hq : q.Coherent) (given : (q.pop owner now).1 = some d) (other : Nat)
    (later : Instant) :
    (q.spend.pop other later).1 = some { d with token := d.token + 1 } := by
  rcases hq.serves_pop owner now with ⟨-, -, h⟩ | ⟨m, e, -, h, serves, split⟩
  · rw [h] at given
    cases given
  obtain rfl := Option.some.inj (h.symm.trans given)
  -- The lanes are the same, so the same id stands in front.
  rcases hq.spend.serves_pop other later with ⟨empty, -, -⟩ | ⟨n, e', -, h', serves', split'⟩
  · rw [show q.lanes.flatten = [] from empty] at split
    cases split
  have id : e'.id = e.id := (List.cons.inj (split'.symm.trans split)).1
  have found : q.find? e.id = some n := id ▸ serves'.found
  obtain rfl : m = n := Option.some.inj (serves.found.symm.trans found)
  rw [h', serves'.delivery, serves.delivery]
  rfl

end Coherent

/-- In every state that a queue can reach, a pop and the put-back of its delivery leave the queue as
it was but for one token.  The delivery cannot be put back once more, and the next pop gives the
same message, as the same attempt, under another token.  A put-back is accepted exactly for what is
out under the given token; any other one changes nothing. -/
theorem put_back_undoes_pop (settings : QueueSettings) (ops : List Operation) :
    let q := (ofSettings settings).after ops
    (∀ owner now d, (q.pop owner now).1 = some d →
      let spent : Queue := { q with nextToken := q.nextToken + 1 }
      (q.pop owner now).2.unpop d.id d.token = (true, spent) ∧
        spent.unpop d.id d.token = (false, spent) ∧
        ∀ other later, ∃ again, (spent.pop other later).1 = some again ∧ again.id = d.id ∧
          again.payload = d.payload ∧ again.attempt = d.attempt ∧ again.token ≠ d.token) ∧
      ∀ d : Delivery,
        ((q.unpop d.id d.token).1 = true ↔
          ∃ owner since, q.Runs ⟨d.id, d.token, owner, since⟩) ∧
        ((∀ owner since, ¬q.Runs ⟨d.id, d.token, owner, since⟩) →
          q.unpop d.id d.token = (false, q)) := by
  intro q
  have hq : q.Coherent := coherent_after settings ops
  refine ⟨fun owner now d given => ?_, fun d => ⟨q.unpop_fst_iff d.id d.token, unpop_of_not_out⟩⟩
  refine ⟨hq.unpop_pop given, unpop_of_not_out (hq.not_runs_spend given), ?_⟩
  exact fun other later => ⟨_, hq.pop_spend given other later, rfl, rfl, rfl, by simp⟩

end WorkBroker.Queue
