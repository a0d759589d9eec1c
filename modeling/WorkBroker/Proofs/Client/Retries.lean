import WorkBroker.Client.Roles
import WorkBroker.Proofs.Client.Pairing
/-!
How often an operation is repeated.  A run under a policy is played against surroundings of any
kind, and compared with attempts in a row, each followed by its wait, that are made whatever comes
of them: up to the first result that is not a transient error, or up to the last attempt that the
policy allows, the two do the same.
-/

set_option autoImplicit false
set_option relaxedAutoImplicit false

namespace WorkBroker

open Net

/-- A way to play programs: what a program returns, and what it makes of a state. -/
structure Interpretation (m : Type → Type) [Monad m] (σ : Type) where
  play {α : Type} : m α → σ → α × σ
  play_pure {α : Type} (a : α) (s : σ) : play (pure a) s = (a, s)
  play_bind {α β : Type} (program : m α) (next : α → m β) (s : σ) :
    play (program >>= next) s = play (next (play program s).1) (play program s).2

namespace Interpretation

variable {σ : Type}

private def state (σ : Type) : Interpretation (StateM σ) σ where
  play program s := (StateT.run (m := Id) program s)
  play_pure _ _ := rfl
  play_bind _ _ _ := rfl

def client (perform : (action : Action) → σ → action.Outcome × σ) :
    Interpretation Client (Session × σ) where
  play program s :=
    let ((a, session), world) := (program s.1).run perform s.2
    (a, session, world)
  play_pure _ _ := rfl
  play_bind program next s := by
    have step : ((program >>= next) s.1).run perform s.2 =
        ((program s.1).bind fun p => next p.1 p.2).run perform s.2 := rfl
    dsimp only
    rw [step, Plan.run_bind]

end Interpretation

inductive Observation
  | call (attempt : Nat)
  | wait (d : Duration)

namespace Observation

def waited : List Observation → Nat
  | [] => 0
  | .call _ :: others => waited others
  | .wait d :: others => d.nanos + waited others

private theorem waited_append (os others : List Observation) :
    waited (os ++ others) = waited os + waited others := by
  induction os with
  | nil => exact (Nat.zero_add _).symm
  | cons o os ih =>
    cases o with
    | call attempt => exact ih
    | wait d =>
      rw [List.cons_append, waited, waited, ih, Nat.add_assoc]

def note (o : Observation) : StateM (List Observation) Unit := modify (· ++ [o])

def called {ε α : Type} (results : Nat → Except ε α) (attempt : Nat) :
    StateM (List Observation) (Except ε α) := do
  note (.call attempt)
  return results attempt

end Observation

namespace RetryState

variable {ε α : Type}

def afterResults (transient : ε → Bool) (p : RetryPolicy) (results : List (Except ε α)) :
    RetryState :=
  results.foldl (fun s result => (s.advance transient p result).2) (start p)

private theorem attempt_add_remaining (transient : ε → Bool) (p : RetryPolicy)
    (results : List (Except ε α)) :
    afterResults transient p results = .finished ∨
      ∃ remaining, afterResults transient p results = .attempting (results.length + 1) remaining ∧
        results.length + remaining = p.maxRetries := by
  induction results using List.reverseRecOn with
  | nil => exact .inr ⟨p.maxRetries, rfl, Nat.zero_add _⟩
  | append_singleton results result ih =>
    rw [afterResults, List.foldl_append, ← afterResults, List.foldl_cons, List.foldl_nil]
    obtain done | ⟨remaining, going, sum⟩ := ih
    · rw [done]
      cases result <;> exact .inl rfl
    · rw [going]
      cases result with
      | ok value => exact .inl rfl
      | error e =>
        rw [advance]
        split_ifs with final none
        · exact .inl rfl
        · exact .inl rfl
        · refine .inr ⟨remaining - 1, by rw [List.length_append]; rfl, ?_⟩
          rw [List.length_append, List.length_singleton]
          omega

end RetryState

namespace RetryPolicy

variable {ε α : Type}

/-- A result that may be another one the next time. -/
def MayPass (transient : ε → Bool) (result : Except ε α) : Prop :=
  ∃ e, result = .error e ∧ transient e = true

/-- How a run ends, given what an attempt would result in after each number of retries: with the
first result that is a success or a permanent error, after so many retries, or with the last of the
errors once the retries are used up. -/
inductive Ends (p : RetryPolicy) (transient : ε → Bool) (results : Nat → Except ε α) :
    Nat → Outcome ε α → Prop
  | delivered {n : Nat} {a : α} (within : n ≤ p.maxRetries)
      (before : ∀ i < n, MayPass transient (results i))
      (last : results n = .ok a) : Ends p transient results n (.delivered a)
  | rejected {n : Nat} {e : ε} (within : n ≤ p.maxRetries)
      (before : ∀ i < n, MayPass transient (results i))
      (last : results n = .error e) (permanent : transient e = false) :
      Ends p transient results n (.rejected e)
  | exhausted {e : ε}
      (before : ∀ i < p.maxRetries, MayPass transient (results i))
      (last : results p.maxRetries = .error e) (passing : transient e = true) :
      Ends p transient results p.maxRetries (.exhausted (p.maxRetries + 1) e)

private theorem ends_or_retries (p : RetryPolicy) (transient : ε → Bool)
    (results : Nat → Except ε α) {n remaining : Nat} (sum : n + remaining = p.maxRetries)
    (before : ∀ i < n, MayPass transient (results i)) :
    (∃ outcome, p.Ends transient results n outcome ∧
      RetryState.advance transient p (.attempting (n + 1) remaining) (results n) =
        (.done outcome, .finished)) ∨
    ∃ fewer, remaining = fewer + 1 ∧
      (∀ i < n + 1, MayPass transient (results i)) ∧
      RetryState.advance transient p (.attempting (n + 1) remaining) (results n) =
        (.retry (p.backoff.delayFor (n + 1)), .attempting (n + 2) fewer) := by
  have within : n ≤ p.maxRetries := by omega
  cases result : results n with
  | ok a => exact .inl ⟨_, .delivered within before result, rfl⟩
  | error e =>
    simp only [RetryState.advance]
    cases passing : transient e with
    | false => exact .inl ⟨_, .rejected within before result passing, rfl⟩
    | true =>
      cases remaining with
      | zero =>
        obtain rfl : n = p.maxRetries := sum
        exact .inl ⟨_, .exhausted before result passing, rfl⟩
      | succ fewer =>
        refine .inr ⟨fewer, rfl, fun i hi => ?_, rfl⟩
        obtain earlier | rfl := Nat.lt_succ_iff_lt_or_eq.mp hi
        · exact before i earlier
        · exact ⟨e, result, passing⟩

section Runs

variable {m : Type → Type} [Monad m] {σ : Type}

def rounds (p : RetryPolicy) (sleep : Duration → m Unit) (operation : Nat → m (Except ε α)) :
    Nat → m Unit
  | 0 => pure ()
  | n + 1 => do
    p.rounds sleep operation n
    let _ ← operation (n + 1)
    sleep (p.backoff.delayFor (n + 1))

def attemptAfter (p : RetryPolicy) (sleep : Duration → m Unit)
    (operation : Nat → m (Except ε α)) (n : Nat) : m (Except ε α) := do
  p.rounds sleep operation n
  operation (n + 1)

private theorem play_attemptAfter (p : RetryPolicy) (I : Interpretation m σ)
    (sleep : Duration → m Unit) (operation : Nat → m (Except ε α)) (s : σ) (n : Nat) :
    I.play (p.attemptAfter sleep operation n) s =
      I.play (operation (n + 1)) (I.play (p.rounds sleep operation n) s).2 := I.play_bind _ _ _

private theorem play_rounds_succ (p : RetryPolicy) (I : Interpretation m σ)
    (sleep : Duration → m Unit) (operation : Nat → m (Except ε α)) (s : σ) (n : Nat) :
    I.play (p.rounds sleep operation (n + 1)) s =
      I.play (sleep (p.backoff.delayFor (n + 1)))
        (I.play (p.attemptAfter sleep operation n) s).2 := by
  rw [rounds, I.play_bind, I.play_bind, play_attemptAfter]

private theorem play_runFrom (p : RetryPolicy) (transient : ε → Bool) (I : Interpretation m σ)
    (sleep : Duration → m Unit) (operation : Nat → m (Except ε α)) (s : σ) (n remaining : Nat) :
    I.play (p.runFrom transient sleep operation (.attempting (n + 1) remaining))
        (I.play (p.rounds sleep operation n) s).2 =
      match RetryState.advance transient p (.attempting (n + 1) remaining)
        (I.play (p.attemptAfter sleep operation n) s).1 with
      | (.done outcome, _) => (outcome, (I.play (p.attemptAfter sleep operation n) s).2)
      | (.retry delay, next) => I.play (p.runFrom transient sleep operation next)
          (I.play (sleep delay) (I.play (p.attemptAfter sleep operation n) s).2).2 := by
  rw [runFrom_eq, I.play_bind, play_attemptAfter]
  dsimp only [RetryState.attempt]
  cases RetryState.advance transient p (.attempting (n + 1) remaining)
      (I.play (operation (n + 1)) (I.play (p.rounds sleep operation n) s).2).1 with
  | mk step next =>
    cases step with
    | done outcome => exact I.play_pure _ _
    | retry delay => exact I.play_bind _ _ _

/-- A run that has used up some retries does what so many attempts in a row do, and goes on as more
of them do. -/
theorem runFrom_ends (p : RetryPolicy) (transient : ε → Bool) (I : Interpretation m σ)
    (sleep : Duration → m Unit) (operation : Nat → m (Except ε α)) (s : σ) {n remaining : Nat}
    (before : ∀ i < n, MayPass transient (I.play (p.attemptAfter sleep operation i) s).1)
    (sum : n + remaining = p.maxRetries) :
    ∃ retries outcome,
      p.Ends transient (fun i => (I.play (p.attemptAfter sleep operation i) s).1) retries outcome ∧
      I.play (p.runFrom transient sleep operation (.attempting (n + 1) remaining))
          (I.play (p.rounds sleep operation n) s).2 =
        (outcome, (I.play (p.attemptAfter sleep operation retries) s).2) := by
  induction remaining using Nat.strongRecOn generalizing n with
  | _ remaining ih =>
    rw [play_runFrom]
    obtain ⟨outcome, ends, step⟩ | ⟨fewer, rfl, more, step⟩ :=
      p.ends_or_retries transient (fun i => (I.play (p.attemptAfter sleep operation i) s).1) sum
        before
    · exact ⟨n, outcome, ends, by rw [step]⟩
    · obtain ⟨retries, outcome, ends, run⟩ := ih fewer (Nat.lt_succ_self _) more (by omega)
      refine ⟨retries, outcome, ends, ?_⟩
      rw [step, ← run, play_rounds_succ]

/-- A run does what the first attempts in a row do, up to the one that it ends with. -/
theorem run_ends (p : RetryPolicy) (transient : ε → Bool) (I : Interpretation m σ)
    (sleep : Duration → m Unit) (operation : Nat → m (Except ε α)) (s : σ) :
    ∃ retries outcome,
      p.Ends transient (fun i => (I.play (p.attemptAfter sleep operation i) s).1) retries outcome ∧
      I.play (p.run transient sleep operation) s =
        (outcome, (I.play (p.attemptAfter sleep operation retries) s).2) := by
  have nothing : (I.play (p.rounds sleep operation 0) s).2 = s := by
    rw [rounds, I.play_pure]
  have run := p.runFrom_ends transient I sleep operation s (n := 0) nofun (Nat.zero_add _)
  rwa [nothing] at run

end Runs

section Records

/-- What is on record of a run with some retries: every attempt in order, and a wait between any two
that follow each other. -/
def record (p : RetryPolicy) (retries : Nat) : List Observation :=
  ((List.range retries).flatMap fun i =>
    [.call (i + 1), .wait (p.backoff.delayFor (i + 1))]) ++ [.call (retries + 1)]

private theorem play_attemptAfter_called (p : RetryPolicy) (results : Nat → Except ε α) (n : Nat) :
    (Interpretation.state _).play
        (p.attemptAfter (fun d => Observation.note (.wait d)) (Observation.called results) n) [] =
      (results (n + 1), p.record n) := by
  have rounds : ((Interpretation.state _).play
      (p.rounds (fun d => Observation.note (.wait d)) (Observation.called results) n) []).2 =
        (List.range n).flatMap fun i =>
          [.call (i + 1), .wait (p.backoff.delayFor (i + 1))] := by
    induction n with
    | zero => rfl
    | succ n ih =>
      rw [play_rounds_succ, play_attemptAfter, ih, List.range_succ, List.flatMap_append]
      exact List.append_assoc _ _ _
  rw [play_attemptAfter, rounds]
  rfl

/-- The waits of a run with few enough retries are no longer than as many of the longest. -/
theorem waited_record_le (p : RetryPolicy) {longest : Nat}
    (bound : ∀ i, (p.backoff.delayFor i).nanos ≤ longest) (n : Nat) :
    Observation.waited (p.record n) ≤ n * longest := by
  have rounds : Observation.waited ((List.range n).flatMap fun i =>
      [.call (i + 1), .wait (p.backoff.delayFor (i + 1))]) ≤ n * longest := by
    induction n with
    | zero => exact Nat.zero_le _
    | succ n ih =>
      rw [List.range_succ, List.flatMap_append, Observation.waited_append, Nat.succ_mul]
      exact Nat.add_le_add ih (bound (n + 1))
  rw [record, Observation.waited_append]
  exact rounds

end Records

/-- A run ends with the first attempt, counted from one, that succeeds or fails for good, or with
the last that the policy allows.  Up to there it does what the same attempts in a row do, each but
the last followed by the wait that belongs to it, and nothing else; so does a push, whose attempts
are those of `Producer.tryPush`, wherever it is played.  With results given in advance, the record
of a run is every attempt in order with one wait between any two.  The waits are bounded where the
backoff is.  Before the end the attempt and the retries that are left always add up, so no attempt
has a larger number than the one that exhausts the policy. -/
theorem run_does_just_enough (p : RetryPolicy) :
    (∀ {m : Type → Type} [Monad m] {σ ε α : Type} (I : Interpretation m σ) (transient : ε → Bool)
      (sleep : Duration → m Unit) (operation : Nat → m (Except ε α)) (s : σ),
        let attemptAfter := p.attemptAfter sleep operation
        ∃ retries outcome,
          p.Ends transient (fun i => (I.play (attemptAfter i) s).1) retries outcome ∧
          I.play (p.run transient sleep operation) s =
            (outcome, (I.play (attemptAfter retries) s).2)) ∧
    (∀ {σ : Type} (perform : (action : Action) → σ → action.Outcome × σ) (r : PushRecord)
      (s : Session × σ), s.1.config.retry.policy = p →
        let I := Interpretation.client perform
        let attemptAfter := p.attemptAfter
          (fun d => ((Plan.sleep d : Plan Unit) : Client Unit)) (Producer.tryPush r)
        ∃ retries outcome,
          p.Ends ClientError.isRetryable (fun i => (I.play (attemptAfter i) s).1) retries outcome ∧
          I.play (Producer.push r) s = (outcome, (I.play (attemptAfter retries) s).2)) ∧
    (∀ {ε α : Type} (transient : ε → Bool) (results : Nat → Except ε α), ∃ retries outcome,
      p.Ends transient (fun i => results (i + 1)) retries outcome ∧
      StateT.run (m := Id)
          (p.run transient (fun d => Observation.note (.wait d)) (Observation.called results)) [] =
        (outcome, p.record retries)) ∧
    (∀ initial max multiplier, p.backoff = .exponential initial max multiplier →
      (∀ i, (p.backoff.delayFor i).nanos ≤ max.nanos) ∧
        ∀ retries ≤ p.maxRetries,
          Observation.waited (p.record retries) ≤ p.maxRetries * max.nanos) ∧
    ∀ {ε α : Type} (transient : ε → Bool) (results : List (Except ε α)),
      let state := RetryState.afterResults transient p results
      state.isFinished = false → state.attempt = results.length + 1 ∧
        state.attempt + state.remaining = p.maxRetries + 1 := by
  refine ⟨fun I transient sleep operation s => p.run_ends transient I sleep operation s, ?_, ?_, ?_,
    ?_⟩
  · rintro σ perform r s rfl
    exact run_ends _ _ (Interpretation.client perform) _ _ s
  · intro ε α transient results
    have run := p.run_ends transient (Interpretation.state (List Observation))
      (fun d => Observation.note (.wait d)) (Observation.called results) []
    simp only [play_attemptAfter_called] at run
    exact run
  · intro initial max multiplier same
    have bound : ∀ i, (p.backoff.delayFor i).nanos ≤ max.nanos := by
      intro i
      rw [same]
      exact Backoff.delayFor_exponential_le _ _ _ _
    refine ⟨bound, fun retries few => ?_⟩
    exact Nat.le_trans (p.waited_record_le bound retries) (Nat.mul_le_mul_right _ few)
  · intro ε α transient results state going
    obtain done | ⟨remaining, before, sum⟩ :=
      RetryState.attempt_add_remaining transient p results
    · rw [show state = .finished from done] at going
      cases going
    · rw [show state = .attempting (results.length + 1) remaining from before]
      refine ⟨rfl, ?_⟩
      simp only [RetryState.attempt, RetryState.remaining]
      omega

end RetryPolicy
end WorkBroker
