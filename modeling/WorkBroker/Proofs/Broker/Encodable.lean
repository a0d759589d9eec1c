import WorkBroker.Proofs.Broker.Isolation
import WorkBroker.Proofs.Hub.Fitting
/-!
Whatever a broker says can be said.  As long as its clients' packets come through its own codec,
every reply passes that codec's checks and is encoded: a delivery is never too large, a list never
too long, an error never too wordy.
-/

set_option autoImplicit false
set_option relaxedAutoImplicit false

namespace WorkBroker

namespace Settings

def codec (s : Settings) : PacketCodec := PacketCodec.ofLimit s.maxMessageSize.toNat

variable {s : Settings}

private theorem maxMessageSize_le (valid : s.IsValid) :
    s.maxMessageSize.toNat ≤ maxPayloadLimit := by
  by_contra large
  simp only [IsValid, fault?] at valid
  split_ifs at valid
  omega

theorem limit_codec (valid : s.IsValid) : s.codec.frame.limit = s.maxMessageSize.toNat := by
  have le : s.maxMessageSize.toNat ≤ maxHeaderValue :=
    Nat.le_trans (maxMessageSize_le valid) (Nat.sub_le maxHeaderValue envelopeRoom)
  exact Nat.min_eq_left le

theorem maxFrameSize_codec (valid : s.IsValid) : s.codec.maxFrameSize ≤ maxHeaderValue := by
  have small := maxMessageSize_le valid
  rw [PacketCodec.maxFrameSize, limit_codec valid]
  simp only [maxPayloadLimit, maxHeaderValue, envelopeRoom] at small ⊢
  omega

end Settings

namespace Conversation

variable {s : Settings} {c : PacketCodec} {id : Nat} {role : Role} {p q : Packet} {stage : Stage}
  {event : Event}

private theorem fits_of_consult (valid : s.IsValid) (admits : s.codec.Admits p) {request : Request}
    {wait : Option Duration} (consult : decide s id role p = .consult request wait) :
    request.Fits s.codec := by
  have d := decided s id role p
  rw [consult] at d
  cases d with
  | consult wait client ne asked concerns =>
    cases concerns with
    | push x priority delay payload =>
      have small : payload.length ≤ s.maxMessageSize.toNat := by
        cases role with
        | producer => simpa [consults] using asked
        | consumer | monitor => simp [consults] at asked
      exact ⟨PacketCodec.checkId_of_admits_push admits, s.limit_codec valid ▸ small⟩
    | listFailed limit => exact Nat.min_le_right limit.toNat maxIds
    | eraseFailed ids => exact PacketCodec.validate_of_admits admits rfl (by simp)
    | pop | ack | ackPop | count => trivial

private theorem writes_confirm (admits : c.Admits p) : c.Writes (confirm p) := by
  cases p with
  | push id priority delay payload =>
    exact PacketCodec.writes_of_validate (PacketCodec.checkId_of_admits_push admits)
  | ack id token requeue delay =>
    have valid := PacketCodec.validate_of_admits admits rfl (by simp)
    exact PacketCodec.writes_of_validate valid
  | _ => exact PacketCodec.writes_of_validate rfl

private theorem writes_replyOf (admits : c.Admits p) {answer : Answer} (fits : answer.Fits c) :
    c.Writes (replyOf p answer) := by
  cases answer with
  | delivery found =>
    cases found with
    | none => exact PacketCodec.writes_of_validate rfl
    | some d => exact PacketCodec.writes_deliver fits _ _
  | failed ids truncated => exact PacketCodec.writes_of_validate fits
  | erased ids => exact PacketCodec.writes_of_validate fits
  | counts => exact PacketCodec.writes_of_validate rfl
  | accepted | settled | stats | dropped | refused => exact writes_confirm admits

private theorem writes_conclude (admits : c.Admits p) {result : Except BrokerError Answer}
    (fits : (CallState.finished result).Fits c) : c.Writes (conclude p result).1 := by
  cases result with
  | ok answer => exact writes_replyOf admits fits
  | error e => cases e <;> exact c.writes_ofError _ _

private theorem writes_of_decide (reply : decide s id role p = .reply q) : c.Writes q := by
  have d := decided s id role p
  rw [reply] at d
  cases d with
  | reply client ne unasked complaint =>
    obtain ⟨code, text, rfl, -⟩ := complaint
    exact c.writes_ofError code text

/-- What a conversation sends is written, if the packet it deals with was read and the answer that
it is told fits. -/
theorem writes_of_send (asked : ∀ role p, stage = .asking role p → c.Admits p)
    (told : ∀ result, event = .answered result → (CallState.finished result).Fits c)
    (sends : .send q ∈ (step s id stage event).1) : c.Writes q := by
  cases utters_of_mem rfl sends with
  | welcome => exact PacketCodec.writes_of_validate rfl
  | complaint decided => exact writes_of_decide decided
  | dismissal => exact c.writes_ofError _ _
  | answer role p result => exact writes_conclude (asked role p rfl) (told result rfl)

end Conversation

namespace Broker

open Conversation (commands)

variable {s : Settings} {b : Broker} {id : Nat} {event : Conversation.Event}

def packetOf : Order → Packet
  | .send p => p
  | .refuse reason => .rejected reason

/-- Whether packets come to a broker through its own codec. -/
def Reads (s : Settings) : Event → Prop
  | .tell _ (.received (.ok p)) => ∃ body, s.codec.decodeBody body = .ok p
  | _ => True

/-- What holds at any time as long as packets come through the codec. -/
structure Fitted (s : Settings) (b : Broker) : Prop where
  settings_eq : b.settings = s
  desk : ∃ n, (fitting s.codec).Holds n b.hub.desk
  asked : ∀ id role p, b.stage? id = some (.asking role p) → s.codec.Admits p

private theorem mem_orders {effects : List Conversation.Effect} {order : Order}
    (h : order ∈ (b.performAll id effects).1) :
    (∃ p, order = .send p ∧ .send p ∈ effects) ∨ ∃ reason, order = .refuse reason := by
  induction effects generalizing b with
  | nil => cases h
  | cons effect rest ih =>
    rcases List.mem_append.mp h with first | others
    · cases effect with
      | send p => exact .inl ⟨p, List.mem_singleton.mp first, List.mem_cons_self⟩
      | refuse reason => exact .inr ⟨reason, List.mem_singleton.mp first⟩
      | note | introduce | consult | release => cases first
    · refine (ih others).imp_left ?_
      rintro ⟨p, rfl, sends⟩
      exact ⟨p, rfl, List.mem_cons_of_mem effect sends⟩

private theorem Fitted.writes_converse (h : Fitted s b)
    (told : ∀ result, event = .answered result → (CallState.finished result).Fits s.codec)
    {other : Nat} {topic : Option Topic} {order : Order}
    (said : .said other topic order ∈ (b.converse id event).1) :
    s.codec.Writes (packetOf order) := by
  cases found : b.talk? id with
  | none =>
    rw [converse_of_absent found] at said
    cases said
  | some t =>
    have here : b.stage? id = some t.stage := by rw [stage?, found, Option.map_some]
    have ordered : order ∈ (b.occur id event).1 := by
      rw [converse_fst found, entries] at said
      rcases List.mem_append.mp said with heard | said
      · obtain ⟨topic, -, same⟩ := List.mem_map.mp heard
        cases same
      · obtain ⟨order', ordered, same⟩ := List.mem_map.mp said
        cases same
        exact ordered
    rw [occur_of_found found] at ordered
    rcases mem_orders ordered with ⟨p, rfl, sends⟩ | ⟨reason, rfl⟩
    · have asked : ∀ role p, t.stage = .asking role p → s.codec.Admits p := by
        intro role p asking
        exact h.asked id role p (asking ▸ here)
      rw [h.settings_eq] at sends
      exact Conversation.writes_of_send asked told sends
    · exact PacketCodec.writes_of_validate rfl

private theorem Fitted.fetch (h : Fitted s b) {result : Except BrokerError Answer} {b' : Broker}
    (fetched : b.fetch id = some (result, b')) :
    Fitted s b' ∧ (CallState.finished result).Fits s.codec := by
  obtain ⟨n, holds⟩ := h.desk
  refine ⟨⟨?_, ⟨n, holds_fetch holds fetched⟩, fun other role p asking => ?_⟩, ?_⟩
  · exact (fetch_same fetched).1.trans h.settings_eq
  · rw [stage?_fetch fetched] at asking
    exact h.asked other role p asking
  · rw [Broker.fetch] at fetched
    split at fetched
    · rename_i here stage number found
      obtain ⟨result', answered, same⟩ := Option.map_eq_some_iff.mp fetched
      obtain ⟨rfl, -⟩ := Prod.mk.inj same
      have looked := holds.look (lasts_fitting s.codec) number b.hub.now
      rw [Desk.result?] at answered
      split at answered
      · rename_i call found
        obtain rfl := Option.some.inj answered
        exact (looked.found found).2
      · cases answered
    · cases fetched

private theorem fits_command (valid : s.IsValid)
    (reads : Reads s (.tell id event)) {stage : Stage} {x : Command}
    (hx : x ∈ commands s id stage event) : x.request.Fits s.codec := by
  obtain ⟨effect, asks, sent⟩ := List.mem_filterMap.mp hx
  cases effect with
  | consult request wait =>
    cases sent
    obtain ⟨role, p, -, rfl, consult⟩ := Conversation.listening_of_consult asks
    obtain ⟨body, decoded⟩ := reads
    have admits := (PacketCodec.accepts_of_decodeBody decoded).1.admits
    exact Conversation.fits_of_consult valid admits consult
  | release =>
    cases sent
    trivial
  | note | introduce | send | refuse => cases sent

private theorem Fitted.step (h : Fitted s b) (valid : s.IsValid) {e : Event} (reads : Reads s e) :
    Fitted s (b.step e).2 := by
  constructor
  case settings_eq => exact (step_same b e).1.trans h.settings_eq
  case desk =>
    obtain ⟨n, holds⟩ := h.desk
    have kept : ∃ m, n ≤ m ∧ (fitting s.codec).Holds m (b.step e).2.hub.desk := by
      refine holds_step (lasts_fitting s.codec) holds e ?_
      rintro id event stage rfl there x hx call - - asks new
      rw [h.settings_eq] at hx
      refine ⟨asks ▸ fits_command valid reads hx, ?_⟩
      rcases new with state | state
      · exact state ▸ trivial
      · exact state ▸ trivial
    obtain ⟨m, -, after⟩ := kept
    exact ⟨m, after⟩
  case asked =>
    intro id role p asking
    rcases stage_step asking with ⟨before, -⟩ | ⟨-, greeting, -⟩ |
      ⟨event, stage, brings, there, now⟩
    · exact h.asked id role p before
    · cases greeting
    · rcases asking_of_step now.symm with rfl | ⟨rfl, -⟩
      · exact h.asked id role p there
      · -- The packet has just come, and this is where its decoding counts.
        obtain ⟨body, decoded⟩ : ∃ body, s.codec.decodeBody body = .ok p := by
          cases brings
          exact reads
        exact (PacketCodec.accepts_of_decodeBody decoded).1.admits

private theorem Fitted.writes_step (h : Fitted s b) (e : Event) {topic : Option Topic}
    {order : Order}
    (said : .said id topic order ∈ (b.step e).1) : s.codec.Writes (packetOf order) := by
  cases e with
  | arrive =>
    simp only [Broker.step] at said
    split at said
    · cases said
    · obtain ⟨-, -, rfl⟩ := Entry.said.inj (List.mem_singleton.mp said)
      exact PacketCodec.writes_of_validate rfl
  | tell id event =>
    rcases answered_or event with ⟨result, rfl⟩ | unanswered
    · cases said
    · rw [step_tell b id unanswered] at said
      exact h.writes_converse (fun result same => absurd same (unanswered result)) said
  | answer id =>
    simp only [Broker.step] at said
    split at said
    · rename_i result b' fetched
      obtain ⟨fitted, fits⟩ := h.fetch fetched
      refine fitted.writes_converse (fun result' same => ?_) said
      cases same
      exact fits
    · cases said
  | race event => cases event <;> cases said
  | depart | turn | elapse | cancel => cases said

private theorem fitted_start (s : Settings) : Fitted s (start s) where
  settings_eq := rfl
  desk := by
    have new : (fitting s.codec).Holds 0 (Desk.ofSettings s.queue) :=
      ⟨Queue.stocks_ofSettings s.queue, fun _ none => absurd none List.not_mem_nil, rfl⟩
    exact ⟨0, new.settle (lasts_fitting s.codec)
      (t := ⟨Desk.ofSettings s.queue, Instant.start, s.sweepPeriod, Instant.start⟩)⟩
  asked id role p asking := by cases asking

/-- Whatever is said in a run is written. -/
theorem Fitted.writes_run (h : Fitted s b) (valid : s.IsValid) {events : List Event}
    (reads : ∀ e ∈ events, Reads s e) {topic : Option Topic} {order : Order}
    (said : .said id topic order ∈ (b.run events).1) : s.codec.Writes (packetOf order) := by
  induction events generalizing b with
  | nil => cases said
  | cons e events ih =>
    have first := reads e List.mem_cons_self
    have others : ∀ e ∈ events, Reads s e := fun e he => reads e (List.mem_cons_of_mem _ he)
    rcases List.mem_append.mp said with said | said
    · exact h.writes_step e said
    · exact ih (h.step valid first) others said

/-- Whether a packet keeps to the limits of a broker and of its protocol. -/
def KeepsLimits (s : Settings) : Packet → Prop
  | .deliver id _ _ payload =>
    checkId "message id" id false = .ok () ∧ payload.length ≤ s.maxMessageSize.toNat
  | .failed ids _ | .erased ids =>
    ids.length ≤ 200 ∧ ∀ id ∈ ids, checkId "message id" id false = .ok ()
  | .error _ message => Bytes.sizeOfText message ≤ 1024
  | _ => True

private theorem keepsLimits_of_writes (valid : s.IsValid) {p : Packet} (writes : s.codec.Writes p) :
    KeepsLimits s p := by
  obtain ⟨ok, -⟩ := writes
  cases p with
  | deliver id token attempt payload =>
    obtain ⟨sound, small⟩ := PacketCodec.ok_of_validate_payload ok
    exact ⟨sound, s.limit_codec valid ▸ small⟩
  | failed ids truncated => exact PacketCodec.ok_of_checkIds ok
  | erased ids => exact PacketCodec.ok_of_checkIds ok
  | error code message => exact PacketCodec.size_le_of_validate_error ok
  | _ => trivial

/-- Every reply is encodable.  Whatever a broker says on a connection, to a welcome, a refusal or an
answer, passes the checks of its codec and is encoded, if its clients' packets came through this
codec; in particular it keeps all limits. -/
theorem replies_are_encodable (valid : s.IsValid) {events : List Event}
    (reads : ∀ e ∈ events, Reads s e) {topic : Option Topic} {order : Order}
    (said : .said id topic order ∈ ((start s).run events).1) :
    s.codec.validate (packetOf order) = .ok () ∧
      (∃ bytes, s.codec.encode (packetOf order) = .ok bytes) ∧ KeepsLimits s (packetOf order) := by
  have writes := (fitted_start s).writes_run valid reads said
  exact ⟨writes.1, writes.2, keepsLimits_of_writes valid writes⟩

def pushAndPop : List Event :=
  [.arrive, .tell 1 (.greeted (.ok (.producer, "p"))), .tell 1 (.sent (.ok ())),
    .tell 1 (.received (.ok (.push "a" 0 0 [7]))), .turn, .arrive,
    .tell 2 (.greeted (.ok (.consumer, "c"))), .tell 2 (.sent (.ok ())),
    .tell 2 (.received (.ok (.pop 0))), .turn, .answer 2]

/-- The message that the consumer is given is encodable. -/
theorem delivery_is_encodable :
    ((∀ e ∈ pushAndPop, Reads {} e) ∧
      .said 2 (some (some .consumer, .pop 0)) (.send (.deliver "a" 1 1 [7])) ∈
        ((start {}).run pushAndPop).1) ∧
      ∃ bytes, (Settings.codec {}).encode (.deliver "a" 1 1 [7]) = .ok bytes := by
  have reads : ∀ e ∈ pushAndPop, Reads {} e := by
    have push : Reads {} (.tell 1 (.received (.ok (.push "a" 0 0 [7])))) :=
      ⟨PacketCodec.body (.push "a" 0 0 [7]), by decide +kernel⟩
    have pop : Reads {} (.tell 2 (.received (.ok (.pop 0)))) :=
      ⟨PacketCodec.body (.pop 0), by decide +kernel⟩
    simp only [pushAndPop, List.forall_mem_cons]
    exact ⟨trivial, trivial, trivial, push, trivial, trivial, trivial, trivial, pop, trivial,
      trivial, fun _ none => absurd none List.not_mem_nil⟩
  have said : .said 2 (some (some .consumer, .pop 0)) (.send (.deliver "a" 1 1 [7])) ∈
      ((start {}).run pushAndPop).1 := by
    decide +kernel
  exact ⟨⟨reads, said⟩, (replies_are_encodable (by decide) reads said).2.1⟩

end Broker

end WorkBroker
