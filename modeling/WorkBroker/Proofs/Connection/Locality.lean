import WorkBroker.Proofs.Connection.Transport
/-!
A connection acts on its own link only.  So whatever its operations do over a single transport
(`Traffic`), they do in all surroundings that show this link as a transport, however many other
links there are.
-/

set_option autoImplicit false
set_option relaxedAutoImplicit false

namespace WorkBroker

namespace Net

def Action.link? : Action → Option Nat
  | .read link _ _ | .write link _ | .shutdown link | .discard link => some link
  | .clock | .dial _ _ | .sleepUntil _ | .log _ => none

/-- Whether an action belongs to a talk over a link: bytes that go or come, or a look at the
clock. -/
def Action.TalksOver (link : Nat) : Action → Prop
  | .clock => True
  | .read other _ _ | .write other _ => other = link
  | .dial _ _ | .shutdown _ | .discard _ | .sleepUntil _ | .log _ => False

namespace Plan

variable {α : Type} {link : Nat}

/-- Whether a plan acts on no other link. -/
def ActsOn (link : Nat) : Plan α → Prop
  | .done _ => True
  | .ask action next => (∀ other, action.link? = some other → other = link) ∧
      ∀ outcome, (next outcome).ActsOn link

private theorem Does.actsOn {Q : α → Prop} {p : Plan α} (h : p.Does (·.TalksOver link) Q) :
    p.ActsOn link := by
  induction p with
  | done value => trivial
  | ask action next ih =>
    refine ⟨fun other acts => ?_, fun outcome => ih outcome (h.2 outcome)⟩
    have talks := h.1
    cases action with
    | read | write =>
      obtain rfl := talks
      exact (Option.some.inj acts).symm
    | clock => cases acts
    | dial | shutdown | discard | sleepUntil | log => exact talks.elim

end Plan

section Showing

variable {α σ : Type} {e : Surroundings σ} {link : Nat} {traffic : σ → Traffic} {s : σ}

/-- Whether surroundings show a link as a transport, with the traffic that they remember of it. -/
structure Surroundings.Shows (e : Surroundings σ) (link : Nat) (traffic : σ → Traffic) : Prop where
  permits : ∀ s o, e.permits s o → Traffic.Permits o
  after : ∀ s o, (∀ other, o.action.link? = some other → other = link) →
    traffic (e.after s o) = (traffic s).after o

private theorem Plan.Ensures.over {p : Plan α} {Q : α → Traffic → Prop}
    (shown : e.Shows link traffic)
    (acts : p.ActsOn link) (h : p.Ensures Traffic.anyhow (traffic s) Q) :
    p.Ensures e s fun a s' => Q a (traffic s') := by
  induction p generalizing s with
  | done value => exact h
  | ask action next ih =>
    intro outcome may
    have later := h outcome (shown.permits s ⟨action, outcome⟩ may)
    exact ih outcome (acts.2 outcome) (shown.after s ⟨action, outcome⟩ acts.1 ▸ later)

/-- What everything that may happen keeps up is kept up by a plan. -/
theorem Plan.Ensures.within {p : Plan α} {Q : α → σ → Prop} {I : σ → Prop} (h : p.Ensures e s Q)
    (before : I s) (step : ∀ s o, I s → e.permits s o → I (e.after s o)) :
    p.Ensures e s fun a s' => Q a s' ∧ I s' := by
  induction p generalizing s with
  | done value => exact ⟨h, before⟩
  | ask action next ih =>
    exact fun outcome may => ih outcome (h outcome may) (step s ⟨action, outcome⟩ before may)

end Showing
end Net

open Net

namespace Connection

section Talking

variable (c : Connection)

private theorem does_writeAll (link : Nat) (bytes : Bytes) :
    (writeAll link bytes).Does (·.TalksOver link) fun _ => True := by
  induction bytes using writeAll.induct with
  | case1 =>
    rw [writeAll]
    trivial
  | case2 first rest ih =>
    rw [writeAll]
    refine ⟨rfl, fun outcome => ?_⟩
    cases outcome with
    | accepted more => exact ih more
    | failed failure => trivial

private theorem does_write (p : Packet) :
    (c.write p).Does (·.TalksOver c.link) fun result =>
      result.2.link = c.link ∧ (result.2.state = c.state ∨ result.2.state = .closing) := by
  rw [write]
  cases encoded : c.codec.encode p with
  | error e =>
    rw [encode, encoded]
    cases e with
    | oversize => exact ⟨rfl, .inl rfl⟩
    | malformed | io => exact ⟨rfl, .inr rfl⟩
  | ok bytes =>
    rw [encode, encoded]
    refine (does_writeAll c.link bytes).bind fun result _ => ?_
    cases result with
    | ok => exact ⟨rfl, .inl rfl⟩
    | error failure => exact ⟨rfl, .inr rfl⟩

variable {c} in
private theorem look_same {found : Received × Connection} (looked : c.look = some found) :
    found.2.link = c.link ∧ found.2.state = c.state := by
  rw [look] at looked
  split at looked <;> cases looked <;> exact ⟨rfl, rfl⟩

private theorem does_readPacket (deadline : Option Instant) :
    (c.readPacket deadline).Does (·.TalksOver c.link) fun result =>
      result.2.link = c.link ∧ result.2.state = c.state := by
  induction c using readPacket.induct with
  | case1 c ih =>
    rw [readPacket]
    refine ⟨rfl, fun outcome => ?_⟩
    cases outcome with
    | bytes first rest =>
      simp only
      split
      · rename_i found looked
        exact look_same (c := c.makeRoom.withBytes (first :: rest)) looked
      · rename_i nothing
        exact ih first rest nothing
    | ended =>
      cases looked : c.makeRoom.look with
      | none => exact ⟨rfl, rfl⟩
      | some found => exact look_same (c := c.makeRoom) looked
    | failed | elapsed => exact ⟨rfl, rfl⟩

private theorem does_awaitPacket (deadline : Option Instant) :
    (c.awaitPacket deadline).Does (·.TalksOver c.link) fun result =>
      result.2.link = c.link ∧ result.2.state = c.state := by
  rw [awaitPacket]
  split
  · split
    · rename_i found looked
      exact look_same looked
    · exact does_readPacket c.await deadline
  · exact does_readPacket c deadline

private theorem does_awaitPacketFor (limit : Duration) :
    (c.awaitPacketFor limit).Does (·.TalksOver c.link) fun result =>
      result.2.link = c.link ∧ result.2.state = c.state :=
  ⟨trivial, fun _ => does_awaitPacket c _⟩

private theorem concludeWelcome_cases (limit : Duration) (r : Received) :
    (c.concludeWelcome limit r).2.link = c.link ∧
      ((∃ terms, (c.concludeWelcome limit r).1 = .ok terms) ∧
          (c.concludeWelcome limit r).2.state = .open ∨
        (∃ e, (c.concludeWelcome limit r).1 = .error e) ∧
          (c.concludeWelcome limit r).2.state = .closing) := by
  cases r with
  | packet p =>
    cases p with
    | welcome terms => exact ⟨rfl, .inl ⟨⟨terms, rfl⟩, rfl⟩⟩
    | _ => exact ⟨rfl, .inr ⟨⟨_, rfl⟩, rfl⟩⟩
  | failed | ended | elapsed => exact ⟨rfl, .inr ⟨⟨_, rfl⟩, rfl⟩⟩

/-- A client's handshake is a talk over the link.  If it succeeds, the connection is open, and if it
fails, the connection is not closed yet. -/
theorem does_greet (connecting : c.state = .connecting) (role : Role) (clientId : String)
    (limit : Duration) :
    (c.greet role clientId limit).Does (·.TalksOver c.link) fun result =>
      result.2.link = c.link ∧ result.2.state ≠ .closed ∧
        ((∃ terms, result.1 = .ok terms) → result.2.state = .open) := by
  have expected : c.expect .connecting = .ok () := if_pos connecting
  rw [greet, expected]
  refine (does_write c (.hello role clientId)).bind ?_
  rintro ⟨result, c'⟩ ⟨link, state⟩
  have unclosed : c'.state ≠ .closed := by
    rcases state with same | closing
    · rw [same, connecting]
      exact nofun
    · rw [closing]
      exact nofun
  have here : c'.link = c.link := link
  cases result with
  | error e => exact ⟨link, unclosed, nofun⟩
  | ok =>
    refine Plan.Does.bind (here ▸ does_awaitPacketFor c' limit) ?_
    rintro ⟨received, c''⟩ ⟨link', -⟩
    obtain ⟨kept, ⟨-, opened⟩ | ⟨⟨e, failed⟩, closing⟩⟩ := concludeWelcome_cases c'' limit received
    · exact ⟨kept.trans link', by rw [opened]; exact nofun, fun _ => opened⟩
    · refine ⟨kept.trans link', by rw [closing]; exact nofun, ?_⟩
      rintro ⟨terms, welcomed⟩
      cases failed.symm.trans welcomed

end Talking

section Shown

variable {σ : Type} {e : Surroundings σ} {traffic : σ → Traffic} {c : Connection}
  (shown : e.Shows c.link traffic)

include shown

theorem posted_over (p : Packet) (s : σ) :
    (c.write p).Ensures e s fun result s' => Posted c p (traffic s) result (traffic s') :=
  .over shown (does_write c p).actsOn (posted_write c p (traffic s))

theorem hears_over (limit : Duration) (s : σ) :
    (c.awaitPacketFor limit).Ensures e s fun result s' =>
      ∃ moment, Hears c (some moment) (traffic s) result.1 result.2 (traffic s') :=
  .over shown (does_awaitPacketFor c limit).actsOn (hears_awaitPacketFor c limit (traffic s))

omit shown in
theorem Posted.kept {p : Packet} {t t' : Traffic} {r : Except ConnectionError Unit × Connection}
    (h : Posted c p t r t') :
    r.2.codec = c.codec ∧ t'.taken = t.taken ∧ (r.1 = .ok () → r.2 = c) := by
  cases h with
  | whole => exact ⟨rfl, rfl, fun _ => rfl⟩
  | tooLarge | refused | broken => exact ⟨rfl, rfl, nofun⟩

theorem ensures_request_codec (p : Packet) (limit : Duration) (s : σ) :
    (c.request p limit).Ensures e s fun result _ => result.2.codec = c.codec := by
  have sent : (c.send p).Ensures e s fun result _ =>
      result.2.codec = c.codec ∧ (result.1 = .ok () → result.2 = c) := by
    rw [send]
    cases c.expect .open with
    | error e => exact ⟨rfl, nofun⟩
    | ok => exact (posted_over shown p s).mono fun _ _ posted =>
        ⟨posted.kept.1, posted.kept.2.2⟩
  refine sent.bind ?_
  rintro ⟨result, c'⟩ s' ⟨codec, whole⟩
  cases result with
  | error e => exact codec
  | ok =>
    obtain rfl : c' = c := whole rfl
    simp only [receiveFor]
    cases c'.expect .open with
    | error e => exact codec
    | ok =>
      refine (hears_over shown limit s').bind ?_
      rintro ⟨received, c''⟩ s'' ⟨moment, hears⟩
      cases received <;> exact hears.codec

end Shown

end Connection
end WorkBroker
