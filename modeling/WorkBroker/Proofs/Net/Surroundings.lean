import WorkBroker.Net.Plan
/-!
What a plan may go through.  A plan says which outcomes it is prepared for; its surroundings say
which of them may come.  A statement about the end of a plan is proved along the plan
(`Plan.Ensures`), and then holds of every trace that the surroundings allow.
-/

set_option autoImplicit false
set_option relaxedAutoImplicit false

namespace WorkBroker.Net

structure Occurrence where
  action : Action
  outcome : action.Outcome

/-- The surroundings of a plan: what may happen next, and what they remember of it. -/
structure Surroundings (σ : Type) where
  permits : σ → Occurrence → Prop
  after : σ → Occurrence → σ

namespace Surroundings

variable {σ : Type} (e : Surroundings σ)

def final (s : σ) (trace : List Occurrence) : σ := trace.foldl e.after s

/-- Whether everything in a trace may happen. -/
def Allow : σ → List Occurrence → Prop
  | _, [] => True
  | s, o :: rest => e.permits s o ∧ Allow (e.after s o) rest

instance decidableAllow [∀ s o, Decidable (e.permits s o)] :
    (s : σ) → (trace : List Occurrence) → Decidable (e.Allow s trace)
  | _, [] => isTrue trivial
  | s, o :: rest =>
    have := decidableAllow (e.after s o) rest
    inferInstanceAs (Decidable (e.permits s o ∧ e.Allow (e.after s o) rest))

theorem final_append (s : σ) (first later : List Occurrence) :
    e.final s (first ++ later) = e.final (e.final s first) later := List.foldl_append

theorem allow_append {s : σ} {first later : List Occurrence} :
    e.Allow s (first ++ later) ↔ e.Allow s first ∧ e.Allow (e.final s first) later := by
  induction first generalizing s with
  | nil => exact ⟨fun _ => ⟨trivial, ‹_›⟩, And.right⟩
  | cons o first ih => simp only [List.cons_append, Allow, ih, final, List.foldl_cons, and_assoc]

end Surroundings

namespace Plan

variable {α β σ : Type} {e : Surroundings σ} {p : Plan α} {f : α → Plan β} {s : σ}

/-- A trace that a plan may go through, and the value at its end. -/
inductive Traces : Plan α → List Occurrence → α → Prop
  | done (value : α) : Traces (.done value) [] value
  | ask {action : Action} {next : action.Outcome → Plan α} {outcome : action.Outcome}
      {trace : List Occurrence} {value : α} (rest : Traces (next outcome) trace value) :
      Traces (.ask action next) (⟨action, outcome⟩ :: trace) value

def trace (perform : (action : Action) → σ → action.Outcome × σ) : Plan α → σ → List Occurrence
  | .done _, _ => []
  | .ask action next, s =>
    let (outcome, s) := perform action s
    ⟨action, outcome⟩ :: trace perform (next outcome) s

theorem traces_trace (perform : (action : Action) → σ → action.Outcome × σ) (p : Plan α) (s : σ) :
    p.Traces (p.trace perform s) (p.run perform s).1 := by
  induction p generalizing s with
  | done value => exact .done value
  | ask action next ih => exact .ask (ih _ _)

theorem Traces.of_ask {action : Action} {next : action.Outcome → Plan α}
    {trace : List Occurrence} {value : α} (run : (Plan.ask action next).Traces trace value) :
    ∃ outcome rest, trace = ⟨action, outcome⟩ :: rest ∧ (next outcome).Traces rest value := by
  cases run with
  | ask rest => exact ⟨_, _, rfl, rest⟩

theorem Traces.of_bind {trace : List Occurrence} {b : β} (h : (p.bind f).Traces trace b) :
    ∃ first later a, trace = first ++ later ∧ p.Traces first a ∧ (f a).Traces later b := by
  induction p generalizing trace with
  | done value => exact ⟨[], trace, value, rfl, .done value, h⟩
  | ask action next ih =>
    cases h with
    | ask rest =>
      obtain ⟨first, later, a, rfl, front, back⟩ := ih _ rest
      exact ⟨_ :: first, later, a, rfl, .ask front, back⟩

theorem Traces.bind {first later : List Occurrence} {a : α} {b : β} (front : p.Traces first a)
    (back : (f a).Traces later b) : (p.bind f).Traces (first ++ later) b := by
  induction front with
  | done value => exact back
  | ask _ ih => exact .ask (ih back)

/-- Whatever the surroundings permit, the plan ends with a value and in a state that are as they
should be. -/
def Ensures (e : Surroundings σ) : Plan α → σ → (α → σ → Prop) → Prop
  | .done value, s, Q => Q value s
  | .ask action next, s, Q =>
    ∀ outcome, e.permits s ⟨action, outcome⟩ →
      (next outcome).Ensures e (e.after s ⟨action, outcome⟩) Q

theorem ensures_bind {Q : β → σ → Prop} :
    (p.bind f).Ensures e s Q ↔ p.Ensures e s fun a s => (f a).Ensures e s Q := by
  induction p generalizing s with
  | done value => rfl
  | ask action next ih => simp only [Plan.bind, Ensures, ih]

theorem Ensures.mono {Q R : α → σ → Prop} (h : p.Ensures e s Q) (weaker : ∀ a s, Q a s → R a s) :
    p.Ensures e s R := by
  induction p generalizing s with
  | done value => exact weaker value s h
  | ask action next ih => exact fun outcome may => ih outcome (h outcome may)

theorem Ensures.of_always {Q : α → σ → Prop} (h : ∀ a s, Q a s) : p.Ensures e s Q := by
  induction p generalizing s with
  | done value => exact h value s
  | ask action next ih => exact fun outcome _ => ih outcome

theorem Ensures.bind {Q : α → σ → Prop} {R : β → σ → Prop} (h : p.Ensures e s Q)
    (next : ∀ a s, Q a s → (f a).Ensures e s R) : (p.bind f).Ensures e s R :=
  ensures_bind.mpr (h.mono next)

theorem Ensures.keeping {Q : α → σ → Prop} {R : σ → σ → Prop} (h : p.Ensures e s Q)
    (refl : ∀ s, R s s) (trans : ∀ {s₁ s₂ s₃}, R s₁ s₂ → R s₂ s₃ → R s₁ s₃)
    (step : ∀ s o, R s (e.after s o)) : p.Ensures e s fun a s' => Q a s' ∧ R s s' := by
  induction p generalizing s with
  | done value => exact ⟨h, refl s⟩
  | ask action next ih =>
    exact fun outcome may => (ih outcome (h outcome may)).mono fun _ _ later =>
      ⟨later.1, trans (step s _) later.2⟩

/-- What a plan ensures holds at the end of every trace that its surroundings allow. -/
theorem Ensures.of_traces {Q : α → σ → Prop} {trace : List Occurrence} {value : α}
    (h : p.Ensures e s Q) (run : p.Traces trace value) (allowed : e.Allow s trace) :
    Q value (e.final s trace) := by
  induction run generalizing s with
  | done value => exact h
  | ask rest ih => exact ih (h _ allowed.1) allowed.2

/-- Whether a plan does only what it may, whatever comes of it, and ends with a value that is as it
should be. -/
def Does (P : Action → Prop) (Q : α → Prop) : Plan α → Prop
  | .done value => Q value
  | .ask action next => P action ∧ ∀ outcome, (next outcome).Does P Q

theorem Does.bind {P : Action → Prop} {Q : α → Prop} {R : β → Prop} (h : p.Does P Q)
    (next : ∀ a, Q a → (f a).Does P R) : (p.bind f).Does P R := by
  induction p with
  | done value => exact next value h
  | ask action rest ih => exact ⟨h.1, fun outcome => ih outcome (h.2 outcome)⟩

theorem Does.of_traces {P : Action → Prop} {Q : α → Prop} {trace : List Occurrence} {value : α}
    (h : p.Does P Q) (run : p.Traces trace value) : (∀ o ∈ trace, P o.action) ∧ Q value := by
  induction run with
  | done value => exact ⟨nofun, h⟩
  | ask rest ih =>
    obtain ⟨others, good⟩ := ih (h.2 _)
    exact ⟨List.forall_mem_cons.mpr ⟨h.1, others⟩, good⟩

end Plan
end WorkBroker.Net
