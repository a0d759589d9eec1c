import WorkBroker.Proofs.Client.Attempts
/-!
Reaching one of several brokers.  What a client goes through is cut into rounds and these into
attempts, and it is said of each round and of the whole run how it may end.  The error that ends a
round also decides whether there is another one.  Nothing happens on the network but the attempts,
and only one link is there at a time.
-/

set_option autoImplicit false
set_option relaxedAutoImplicit false

namespace WorkBroker

open Net

namespace BrokerConnection

variable {config : ClientConfig} {role : Role} {trace : List Occurrence}
  {result : Except ClientError BrokerConnection}

/-- What a round comes to: the result of its last attempt, or the error that stood before. -/
def lastResult (before : ClientError) (round : List Attempt) :
    Except ClientError BrokerConnection :=
  (round.getLast?.map (·.result)).getD (.error before)

/-- Whether a round is one over a list of brokers: they are tried in order, up to the first that
welcomes the client, and all of them if none does. -/
structure IsRound (config : ClientConfig) (role : Role) (brokers : List String)
    (round : List Attempt) : Prop where
  goes : ∀ a ∈ round, a.Goes config role
  inOrder : round.map (·.broker) <+: brokers
  failed : ∀ a ∈ round.dropLast, ∃ e, a.result = .error e
  exhaustive : (∀ a ∈ round, ∃ e, a.result = .error e) → round.map (·.broker) = brokers

section Round

variable {brokers : List String} {round : List Attempt} {a : Attempt} {before e : ClientError}

private theorem lastResult_cons (failed : a.result = .error e) (before : ClientError)
    (round : List Attempt) : lastResult before (a :: round) = lastResult e round := by
  cases round with
  | nil => exact failed
  | cons b rest => rw [lastResult, List.getLast?_cons_cons, lastResult, List.getLast?_cons]; rfl

private theorem IsRound.cons {broker : String} (h : IsRound config role brokers round)
    (goes : a.Goes config role) (failed : a.result = .error e) (here : a.broker = broker) :
    IsRound config role (broker :: brokers) (a :: round) where
  goes := List.forall_mem_cons.mpr ⟨goes, h.goes⟩
  inOrder := by
    rw [List.map_cons, here]
    exact (List.prefix_cons_inj broker).mpr h.inOrder
  failed := by
    cases round with
    | nil => exact nofun
    | cons b rest =>
      rw [List.dropLast_cons_cons]
      exact List.forall_mem_cons.mpr ⟨⟨e, failed⟩, h.failed⟩
  exhaustive all := by
    rw [List.map_cons, here, h.exhaustive (List.forall_mem_cons.mp all).2]

private theorem isRound_of_success {broker : String} {b : BrokerConnection}
    (goes : a.Goes config role) (success : a.result = .ok b) (here : a.broker = broker) :
    IsRound config role (broker :: brokers) [a] where
  goes := List.forall_mem_singleton.mpr goes
  inOrder := ⟨brokers, by rw [List.map_singleton, here]; rfl⟩
  failed := nofun
  exhaustive all := by
    obtain ⟨e, failed⟩ := all a List.mem_cons_self
    rw [success] at failed
    cases failed

private theorem isRound_of_traces
    (run : (connectTo config role before brokers).Traces trace result) :
    ∃ round, IsRound config role brokers round ∧ result = lastResult before round ∧
      onNetwork trace = onNetwork (round.flatMap (·.trace)) := by
  induction brokers generalizing before trace with
  | nil =>
    cases run
    exact ⟨[], ⟨nofun, List.prefix_rfl, nofun, fun _ => rfl⟩, rfl, rfl⟩
  | cons broker rest ih =>
    obtain ⟨first, later, opened, rfl, front, back⟩ := Plan.Traces.of_bind run
    have goes := Attempt.goes_of_traces front
    cases opened with
    | ok b =>
      cases back
      refine ⟨[_], isRound_of_success goes rfl rfl, rfl, ?_⟩
      rw [List.append_nil, List.flatMap_singleton]
    | error e =>
      obtain ⟨⟨⟩, _, rfl, others⟩ := Plan.Traces.of_ask back
      obtain ⟨round, isRound, ended, network⟩ := ih others
      refine ⟨_ :: round, isRound.cons goes rfl rfl, ?_, ?_⟩
      · rw [ended, lastResult_cons rfl]
      · rw [List.flatMap_cons, onNetwork_append, onNetwork_append, ← network]
        rfl

private theorem allow_of_round (goes : ∀ a ∈ round, a.Goes config role)
    (failed : ∀ a ∈ round.dropLast, ∃ e, a.result = .error e) (before : ClientError) :
    oneAtATime.Allow .free (round.flatMap (·.trace)) ∧
      oneAtATime.final .free (round.flatMap (·.trace)) =
        Attempt.leaves (lastResult before round) := by
  induction round generalizing before with
  | nil => exact ⟨trivial, rfl⟩
  | cons a rest ih =>
    obtain ⟨first, others⟩ := List.forall_mem_cons.mp goes
    obtain ⟨allowed, left⟩ := first.allow
    cases rest with
    | nil =>
      rw [List.flatMap_singleton]
      exact ⟨allowed, left⟩
    | cons b rest =>
      rw [List.dropLast_cons_cons] at failed
      obtain ⟨⟨e, ended⟩, failed⟩ := List.forall_mem_cons.mp failed
      obtain ⟨later, final⟩ := ih others failed e
      have nothing : oneAtATime.final .free a.trace = .free := by rw [left, ended]; rfl
      rw [List.flatMap_cons, Surroundings.allow_append, Surroundings.final_append, nothing,
        lastResult_cons ended]
      exact ⟨⟨allowed, later⟩, final⟩

private theorem dialled_of_round (goes : ∀ a ∈ round, a.Goes config role) :
    dialled (round.flatMap (·.trace)) = round.map (·.broker) := by
  induction round with
  | nil => rfl
  | cons a rest ih =>
    obtain ⟨first, others⟩ := List.forall_mem_cons.mp goes
    rw [List.flatMap_cons, dialled_append, first.dialled, ih others]
    rfl

end Round

section Run

variable {rounds : List (List Attempt)} {round last : List Attempt} {n remaining : Nat}

def roundResult (round : List Attempt) : Except ClientError BrokerConnection :=
  lastResult .noBrokers round

/-- Whether another round may end differently. -/
def MayPass (round : List Attempt) : Prop :=
  ∃ e, roundResult round = .error e ∧ e.isRetryable

/-- What a client makes of its last round, after so many as it may try. -/
def verdict (most : Nat) : Except ClientError BrokerConnection →
    Except ClientError BrokerConnection
  | .ok b => .ok b
  | .error e => .error (if e.isRetryable then .exhausted most e else e)

def outcomeOf (most : Nat) : Except ClientError BrokerConnection →
    Outcome ClientError BrokerConnection
  | .ok b => .delivered b
  | .error e => if e.isRetryable then .exhausted most e else .rejected e

/-- Whether a run may consist of these rounds when `n` are over already: each but the last may pass,
and if the last may pass too, it is the last one that the budget allows. -/
structure AreRounds (config : ClientConfig) (role : Role) (n : Nat)
    (rounds : List (List Attempt)) : Prop where
  isRound : ∀ round ∈ rounds, IsRound config role config.brokers round
  passing : ∀ round ∈ rounds.dropLast, MayPass round
  few : n + rounds.length ≤ config.retry.maxRetries + 1
  spent : ∀ last, rounds.getLast? = some last → MayPass last →
    n + rounds.length = config.retry.maxRetries + 1

private theorem areRounds_singleton (isRound : IsRound config role config.brokers round)
    (few : n ≤ config.retry.maxRetries) (spent : MayPass round → n = config.retry.maxRetries) :
    AreRounds config role n [round] where
  isRound := List.forall_mem_singleton.mpr isRound
  passing := nofun
  few := Nat.succ_le_succ few
  spent last here passing := by
    obtain rfl : round = last := Option.some.inj here
    exact congrArg Nat.succ (spent passing)

private theorem AreRounds.cons (h : AreRounds config role (n + 1) rounds) (some_there : rounds ≠ [])
    (isRound : IsRound config role config.brokers round) (passing : MayPass round) :
    AreRounds config role n (round :: rounds) := by
  obtain ⟨next, rest, rfl⟩ := List.exists_cons_of_ne_nil some_there
  have sum : n + (round :: next :: rest).length = n + 1 + (next :: rest).length := by
    rw [List.length_cons, Nat.add_assoc, Nat.add_comm 1]
  refine ⟨List.forall_mem_cons.mpr ⟨isRound, h.isRound⟩, ?_, sum ▸ h.few, ?_⟩
  · rw [List.dropLast_cons_cons]
    exact List.forall_mem_cons.mpr ⟨passing, h.passing⟩
  · intro last here passing
    rw [List.getLast?_cons_cons] at here
    exact sum ▸ h.spent last here passing

private theorem onNetwork_sleep {d : Duration} {value : Unit}
    (run : (Plan.sleep d).Traces trace value) :
    onNetwork trace = [] := by
  obtain ⟨now, _, rfl, afterClock⟩ := Plan.Traces.of_ask run
  obtain ⟨slept, _, rfl, afterSleep⟩ := Plan.Traces.of_ask afterClock
  cases afterSleep
  rfl

private theorem isRound_of_connectRound {number : Nat}
    (run : (connectRound config role number).Traces trace result) :
    ∃ round, IsRound config role config.brokers round ∧ result = roundResult round ∧
      onNetwork trace = onNetwork (round.flatMap (·.trace)) := by
  obtain ⟨first, later, ended, rfl, front, back⟩ := Plan.Traces.of_bind run
  obtain ⟨round, isRound, isLast, network⟩ := isRound_of_traces front
  have quiet : result = ended ∧ onNetwork later = [] := by
    cases ended with
    | ok b =>
      cases back
      exact ⟨rfl, rfl⟩
    | error e =>
      obtain ⟨noted, _, rfl, rest⟩ := Plan.Traces.of_ask back
      cases rest
      exact ⟨rfl, rfl⟩
  refine ⟨round, isRound, quiet.1.trans isLast, ?_⟩
  rw [onNetwork_append, quiet.2, List.append_nil, network]

private theorem round_of_traces {outcome : Outcome ClientError BrokerConnection}
    (run : (config.retry.policy.runFrom ClientError.isRetryable Plan.sleep
      (connectRound config role) (.attempting (n + 1) remaining)).Traces trace outcome) :
    ∃ round first later, trace = first ++ later ∧
      IsRound config role config.brokers round ∧
      onNetwork first = onNetwork (round.flatMap (·.trace)) ∧
      (onNetwork later = [] ∧ outcome = outcomeOf (n + 1) (roundResult round) ∧
          (MayPass round → remaining = 0) ∨
        MayPass round ∧ ∃ fewer rest, remaining = fewer + 1 ∧ onNetwork later = onNetwork rest ∧
          (config.retry.policy.runFrom ClientError.isRetryable Plan.sleep
            (connectRound config role) (.attempting (n + 2) fewer)).Traces rest outcome) := by
  rw [RetryPolicy.runFrom_eq] at run
  obtain ⟨first, later, ended, rfl, front, back⟩ := Plan.Traces.of_bind run
  obtain ⟨round, isRound, rfl, network⟩ := isRound_of_connectRound front
  refine ⟨round, first, later, rfl, isRound, network, ?_⟩
  cases ended : roundResult round with
  | ok b =>
    rw [ended] at back
    cases back
    refine .inl ⟨rfl, rfl, ?_⟩
    rintro ⟨e, failed, -⟩
    cases ended.symm.trans failed
  | error e =>
    rw [ended] at back
    cases passing : e.isRetryable with
    | false =>
      simp only [RetryState.advance, passing] at back
      cases back
      refine .inl ⟨rfl, by rw [outcomeOf, passing]; rfl, ?_⟩
      rintro ⟨e', failed, mayPass⟩
      obtain rfl : e = e' := Except.error.inj (ended.symm.trans failed)
      cases passing.symm.trans mayPass
    | true =>
      cases remaining with
      | zero =>
        simp only [RetryState.advance, passing] at back
        cases back
        exact .inl ⟨rfl, by rw [outcomeOf, passing]; rfl, fun _ => rfl⟩
      | succ fewer =>
        simp only [RetryState.advance, passing] at back
        obtain ⟨wait, rest, _, rfl, slept, again⟩ := Plan.Traces.of_bind back
        refine .inr ⟨⟨e, ended, passing⟩, fewer, rest, rfl, ?_, again⟩
        rw [onNetwork_append, onNetwork_sleep slept, List.nil_append]

/-- A run that has some retries left is a row of rounds, and does nothing on the network besides. -/
theorem areRounds_of_traces {outcome : Outcome ClientError BrokerConnection}
    (sum : n + remaining = config.retry.maxRetries)
    (run : (config.retry.policy.runFrom ClientError.isRetryable Plan.sleep
      (connectRound config role) (.attempting (n + 1) remaining)).Traces trace outcome) :
    ∃ rounds last, AreRounds config role n rounds ∧ rounds.getLast? = some last ∧
      outcome = outcomeOf (config.retry.maxRetries + 1) (roundResult last) ∧
      onNetwork trace = onNetwork (rounds.flatten.flatMap (·.trace)) := by
  induction remaining using Nat.strongRecOn generalizing n trace with
  | _ remaining ih =>
    obtain ⟨round, first, later, rfl, isRound, network, ⟨quiet, ended, spent⟩ |
      ⟨passing, fewer, rest, rfl, network', again⟩⟩ := round_of_traces run
    · have few : n ≤ config.retry.maxRetries := by omega
      have used : MayPass round → n = config.retry.maxRetries := fun passing => by
        have := spent passing
        omega
      refine ⟨[round], round, areRounds_singleton isRound few used, rfl, ?_, ?_⟩
      · rw [ended]
        cases result : roundResult round with
        | ok b => rfl
        | error e =>
          cases passing : e.isRetryable with
          | false => rw [outcomeOf, outcomeOf, passing]; rfl
          | true => rw [used ⟨e, result, passing⟩]
      · rw [onNetwork_append, quiet, List.append_nil, List.flatten_singleton, network]
    · obtain ⟨rounds, last, areRounds, isLast, ended, network''⟩ :=
        ih fewer (Nat.lt_succ_self fewer) (by omega) again
      have some_there : rounds ≠ [] := by
        rintro rfl
        cases isLast
      refine ⟨round :: rounds, last, areRounds.cons some_there isRound passing, ?_, ended, ?_⟩
      · obtain ⟨next, others, rfl⟩ := List.exists_cons_of_ne_nil some_there
        rw [List.getLast?_cons_cons, isLast]
      · rw [onNetwork_append, network, network', network'', List.flatten_cons, List.flatMap_append,
          onNetwork_append]

/-- A run starts without a link, has one at a time, and leaves one only if it succeeds. -/
theorem allow_of_rounds (isRound : ∀ round ∈ rounds, IsRound config role config.brokers round)
    (passing : ∀ round ∈ rounds.dropLast, MayPass round) (isLast : rounds.getLast? = some last) :
    oneAtATime.Allow .free (rounds.flatten.flatMap (·.trace)) ∧
      oneAtATime.final .free (rounds.flatten.flatMap (·.trace)) =
        Attempt.leaves (roundResult last) := by
  induction rounds with
  | nil => cases isLast
  | cons round rest ih =>
    obtain ⟨here, others⟩ := List.forall_mem_cons.mp isRound
    obtain ⟨allowed, left⟩ := allow_of_round here.goes here.failed .noBrokers
    cases rest with
    | nil =>
      obtain rfl : round = last := Option.some.inj isLast
      rw [List.flatten_singleton]
      exact ⟨allowed, left⟩
    | cons next rest =>
      rw [List.dropLast_cons_cons] at passing
      rw [List.getLast?_cons_cons] at isLast
      obtain ⟨⟨e, ended, -⟩, passing⟩ := List.forall_mem_cons.mp passing
      obtain ⟨later, final⟩ := ih others passing isLast
      have nothing : oneAtATime.final .free (round.flatMap (·.trace)) = .free := by
        rw [left, show lastResult .noBrokers round = .error e from ended]
        rfl
      rw [List.flatten_cons, List.flatMap_append, Surroundings.allow_append,
        Surroundings.final_append, nothing]
      exact ⟨⟨allowed, later⟩, final⟩

/-- Another round follows exactly if this one may pass and there is a retry left. -/
theorem AreRounds.goesOn_iff (h : AreRounds config role 0 rounds) {r : Nat}
    (here : rounds[r]? = some round) :
    r + 1 < rounds.length ↔ MayPass round ∧ r + 1 ≤ config.retry.maxRetries := by
  obtain ⟨within, same⟩ := List.getElem?_eq_some_iff.mp here
  have few := h.few
  constructor
  · intro more
    have early : round ∈ rounds.dropLast := by
      rw [← same, List.dropLast_eq_take]
      exact List.mem_take_iff_getElem.mpr ⟨r, by omega, rfl⟩
    exact ⟨h.passing round early, by omega⟩
  · rintro ⟨passing, left⟩
    by_contra final
    have isLast : rounds.getLast? = some round := by
      rw [List.getLast?_eq_getElem?, show rounds.length - 1 = r by omega, here]
    have spent := h.spent round isLast passing
    omega

private theorem verdict_of_outcome {most : Nat} {ended : Except ClientError BrokerConnection}
    (run : Plan.Traces (match outcomeOf most ended with
      | .delivered b => pure (.ok b)
      | .rejected e => pure (.error e)
      | .exhausted attempts last => pure (.error (.exhausted attempts last))) trace result) :
    trace = [] ∧ result = verdict most ended := by
  cases ended with
  | ok b =>
    cases run
    exact ⟨rfl, rfl⟩
  | error e =>
    rw [verdict]
    cases passing : e.isRetryable with
    | false | true =>
      rw [outcomeOf, passing] at run
      cases run
      exact ⟨rfl, rfl⟩

private theorem eq_ok_of_verdict {most : Nat} {b : BrokerConnection}
    (h : verdict most result = .ok b) :
    result = .ok b := by
  cases result with
  | ok b' => exact h
  | error e => cases h

private theorem leaves_verdict (most : Nat) (result : Except ClientError BrokerConnection) :
    Attempt.leaves (verdict most result) = Attempt.leaves result := by
  cases result <;> rfl

private theorem exists_attempt {b : BrokerConnection} (success : roundResult round = .ok b) :
    ∃ a, round.getLast? = some a ∧ a.result = .ok b := by
  rw [roundResult, lastResult] at success
  cases last : round.getLast? with
  | none =>
    rw [last] at success
    cases success
  | some a =>
    rw [last] at success
    exact ⟨a, rfl, success⟩

end Run

/-- A client that looks for a broker makes rounds over its list.  Each round tries the brokers in
order up to the first that welcomes the client, and comes to the result of its last attempt; another
round follows exactly if that is an error that may pass and there is a retry left, and otherwise the
result is the client's, with an error that may still pass wrapped as the last of all attempts.  A
connection that is returned is open and has the limit of its welcome.  Nothing else happens on the
network, no place of the list is tried more often than there are rounds, nobody is dialled while an
earlier link is not shut down and let go, and a failure leaves no link behind. -/
theorem brokers_are_tried_in_rounds (run : (connectWithRetry config role).Traces trace result) :
    ∃ rounds : List (List Attempt),
      rounds ≠ [] ∧ rounds.length ≤ config.retry.maxRetries + 1 ∧
      (∀ round ∈ rounds, IsRound config role config.brokers round) ∧
      (∀ (r : Nat) round, rounds[r]? = some round →
        (r + 1 < rounds.length ↔ MayPass round ∧ r + 1 ≤ config.retry.maxRetries)) ∧
      (∀ last, rounds.getLast? = some last →
        result = verdict (config.retry.maxRetries + 1) (roundResult last)) ∧
      (∀ b, result = .ok b →
        b.isOpen ∧ b.connection.maxMessageSize = b.welcome.maxMessageSize.toNat) ∧
      (config.brokers = [] →
        result = .error (.exhausted (config.retry.maxRetries + 1) .noBrokers)) ∧
      onNetwork trace = onNetwork (rounds.flatten.flatMap (·.trace)) ∧
      dialled trace = rounds.flatten.map (·.broker) ∧
      (∀ i, rounds.countP (i < ·.length) ≤ config.retry.maxRetries + 1) ∧
      oneAtATime.Allow .free trace ∧
      oneAtATime.final .free trace = Attempt.leaves result := by
  obtain ⟨first, later, outcome, rfl, front, back⟩ := Plan.Traces.of_bind run
  obtain ⟨rounds, last, areRounds, isLast, ended, network⟩ :=
    areRounds_of_traces (Nat.zero_add _) front
  obtain ⟨rfl, judged⟩ := verdict_of_outcome (ended ▸ back)
  have few : rounds.length ≤ config.retry.maxRetries + 1 :=
    Nat.zero_add rounds.length ▸ areRounds.few
  have goes : ∀ a ∈ rounds.flatten, a.Goes config role := fun a there => by
    obtain ⟨round, isThere, member⟩ := List.mem_flatten.mp there
    exact (areRounds.isRound round isThere).goes a member
  obtain ⟨allowed, left⟩ := allow_of_rounds areRounds.isRound areRounds.passing isLast
  rw [List.append_nil]
  refine ⟨rounds, ?_, few, areRounds.isRound, fun r round here => areRounds.goesOn_iff here, ?_,
    ?_, ?_, network, ?_, fun _ => List.countP_le_length.trans few, ?_, ?_⟩
  · rintro rfl
    cases isLast
  · intro round here
    obtain rfl : last = round := Option.some.inj (isLast.symm.trans here)
    exact judged
  · intro b success
    obtain ⟨a, final, brought⟩ := exists_attempt (eq_ok_of_verdict (judged.symm.trans success))
    have member : a ∈ rounds.flatten := List.mem_flatten.mpr
      ⟨last, List.mem_of_getLast? isLast, List.mem_of_getLast? final⟩
    exact (goes a member).opened brought
  · intro nobody
    have isRound := areRounds.isRound last (List.mem_of_getLast? isLast)
    obtain rfl : last = [] :=
      List.map_eq_nil_iff.mp (List.prefix_nil.mp (nobody ▸ isRound.inOrder))
    exact judged
  · rw [← dialled_onNetwork, network, dialled_onNetwork, dialled_of_round goes]
  · rw [← allow_onNetwork_iff.1, network, allow_onNetwork_iff.1]
    exact allowed
  · rw [← allow_onNetwork_iff.2, network, allow_onNetwork_iff.2, left, judged, leaves_verdict]

def twoBrokers : ClientConfig := { brokers := ["near", "far"] }

def greetings (_ : Nat) : List Packet := [.welcome ⟨7, 65536, 2⟩]

private theorem fair_greetings (link : Nat) : (greetings link).all Answers.isFair = true := by
  rw [greetings]
  decide +kernel

def nearIsDown (action : Action) (s : Wires × Nat) : action.Outcome × (Wires × Nat) :=
  match action with
  | .dial "near" _ => (DialOutcome.failed IoFailure.brokenPipe, s)
  | action => (Answers.script greetings fair_greetings).prompt (fun _ _ => false) action s

theorem far_broker_is_reached : ∃ trace b,
    (connectWithRetry twoBrokers .producer).Traces trace (.ok b) ∧ b.broker = "far" ∧ b.isOpen ∧
      b.connection.maxMessageSize = 65536 ∧ dialled trace = ["near", "far"] ∧
      oneAtATime.final .free trace = .only b.connection.link := by
  have ran := (connectWithRetry twoBrokers .producer).traces_trace nearIsDown (.blank, 0)
  have dialled : dialled ((connectWithRetry twoBrokers .producer).trace nearIsDown (.blank, 0)) =
      ["near", "far"] := by decide +kernel
  have reached : ((connectWithRetry twoBrokers .producer).run nearIsDown (.blank, 0)).1.toOption.map
      (fun b => (b.broker, b.welcome.maxMessageSize.toNat)) = some ("far", 65536) := by
    decide +kernel
  cases success : ((connectWithRetry twoBrokers .producer).run nearIsDown (.blank, 0)).1 with
  | error e =>
    rw [success] at reached
    cases reached
  | ok b =>
    rw [success] at ran reached
    obtain ⟨here, limit⟩ := Prod.mk.inj (Option.some.inj reached)
    obtain ⟨_, _, _, _, _, _, opened, _, _, _, _, _, left⟩ := brokers_are_tried_in_rounds ran
    obtain ⟨isOpen, adopted⟩ := opened b rfl
    exact ⟨_, b, ran, here, isOpen, adopted.trans limit, dialled, left⟩

end BrokerConnection
end WorkBroker
