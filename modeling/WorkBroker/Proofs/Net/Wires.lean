import Mathlib.Data.List.Infix
import Mathlib.Logic.Function.Basic
import WorkBroker.Broker.Settings
import WorkBroker.Proofs.Net.Surroundings
import WorkBroker.Proofs.Wire.Framing
import WorkBroker.Proofs.Wire.Stream
/-!
The wires between clients and a broker that answers every packet with exactly one packet, in order,
at any later time.  What it answers is arbitrary, and so is everything else: links may fail or end
at any moment, waits may run out, and bytes arrive in pieces.
-/

set_option autoImplicit false
set_option relaxedAutoImplicit false

namespace WorkBroker

/-- What stands in the whole frames in front of some bytes. -/
def Bytes.unframe (bytes : Bytes) : List Bytes :=
  let declared := FrameCodec.declaredLength bytes
  if _whole : headerSize + declared ≤ bytes.length then
    (bytes.drop headerSize).take declared :: Bytes.unframe (bytes.drop (headerSize + declared))
  else []
termination_by bytes.length
decreasing_by
  rw [List.length_drop]
  simp only [headerSize] at _whole ⊢
  omega

section Framing

open Bytes (framed framedAll unframe)

variable {b : Bytes} {bs : List Bytes}

theorem Bytes.framedAll_concat (bs : List Bytes) (b : Bytes) :
    framedAll (bs ++ [b]) = framedAll bs ++ framed b := by
  rw [framedAll, List.map_append, List.flatten_append]
  exact congrArg _ (List.append_nil _)

private theorem Bytes.unframe_of_whole {x : Bytes}
    (whole : headerSize + FrameCodec.declaredLength x ≤ x.length) :
    unframe x = (x.drop headerSize).take (FrameCodec.declaredLength x) ::
      unframe (x.drop (headerSize + FrameCodec.declaredLength x)) := by
  rw [unframe]
  exact dif_pos whole

private theorem Bytes.unframe_framed (small : b.length ≤ maxHeaderValue) (rest : Bytes) :
    unframe (framed b ++ rest) = b :: unframe rest := by
  have header : (Bytes.ofNat headerSize b.length).length = headerSize := Bytes.length_ofNat _ _
  have whole : headerSize + b.length ≤ (framed b ++ rest).length := by
    rw [List.length_append, length_framed]
    omega
  have declared := declaredLength_framed small rest
  rw [unframe_of_whole (declared ▸ whole), declared, ← length_framed, List.drop_left, framed,
    List.append_assoc, List.drop_left' header, List.take_left]

theorem Bytes.unframe_framedAll (small : ∀ b ∈ bs, b.length ≤ maxHeaderValue) :
    unframe (framedAll bs) = bs := by
  induction bs with
  | nil => rw [framedAll, unframe]; rfl
  | cons b bs ih =>
    obtain ⟨first, others⟩ := List.forall_mem_cons.mp small
    have step := unframe_framed first (framedAll bs)
    rw [ih others] at step
    exact step

private theorem Bytes.unframe_append (bytes more : Bytes) :
    unframe bytes <+: unframe (bytes ++ more) := by
  induction bytes using unframe.induct with
  | case1 bytes declared whole ih =>
    have four : headerSize ≤ bytes.length := Nat.le_trans (Nat.le_add_right _ _) whole
    have same := FrameCodec.declaredLength_append_of_le four more
    have longer : headerSize + FrameCodec.declaredLength (bytes ++ more) ≤
        (bytes ++ more).length := by
      rw [same, List.length_append]
      exact Nat.le_trans whole (Nat.le_add_right _ _)
    have room : FrameCodec.declaredLength bytes ≤ (bytes.drop headerSize).length := by
      rw [List.length_drop]
      exact Nat.le_sub_of_add_le' whole
    rw [unframe_of_whole whole, unframe_of_whole longer, same]
    rw [List.drop_append_of_le_length four, List.take_append_of_le_length room,
      List.drop_append_of_le_length whole]
    exact (List.prefix_cons_inj _).mpr ih
  | case2 bytes declared lacking =>
    have none : unframe bytes = [] := by
      rw [unframe]
      exact dif_neg lacking
    rw [none]
    exact List.nil_prefix

/-- A codec finds nothing in a front part of a frame that lacks something, or it finds the header
too large; only in the whole frame does it find what the frame holds. -/
theorem PacketCodec.scan_of_prefix {c : PacketCodec} {x : Bytes}
    (small : b.length ≤ maxHeaderValue) (front : x <+: framed b) :
    c.scan x = .incomplete ∨ (∃ declared, c.scan x = .tooLong declared) ∨
      x = framed b ∧ c.scan x = .frame (c.decodeBody b) [] := by
  obtain ⟨more, whole⟩ := front
  rcases Nat.lt_or_ge x.length headerSize with short | four
  · exact .inl (by rw [scan, if_pos short])
  have declared : FrameCodec.declaredLength x = b.length := by
    rw [← FrameCodec.declaredLength_append_of_le four more, whole]
    simpa using Bytes.declaredLength_framed small []
  by_cases long : c.maxFrameSize < b.length
  · refine .inr (.inl ⟨b.length, ?_⟩)
    rw [scan, if_neg (Nat.not_lt_of_le four), declared]
    exact if_pos long
  by_cases lacking : (x.drop headerSize).length < b.length
  · left
    rw [scan, if_neg (Nat.not_lt_of_le four), declared]
    exact (if_neg long).trans (if_pos lacking)
  · have length := congrArg List.length whole
    rw [List.length_append, Bytes.length_framed] at length
    rw [List.length_drop] at lacking
    obtain rfl : more = [] := List.eq_nil_of_length_eq_zero (by omega)
    obtain rfl : x = framed b := (List.append_nil x).symm.trans whole
    refine .inr (.inr ⟨rfl, ?_⟩)
    simpa [framed] using scan_frame small (Nat.le_of_not_lt long) []

end Framing

namespace Net

open Bytes (framed framedAll unframe)

/-- What has gone over the links: the bytes that were written to each, and those that were taken
from each. -/
structure Wires where
  written : Nat → Bytes
  taken : Nat → Bytes

namespace Wires

def blank : Wires := ⟨fun _ => [], fun _ => []⟩

def add (bytes : Nat → Bytes) (link : Nat) (more : Bytes) : Nat → Bytes :=
  Function.update bytes link (bytes link ++ more)

@[simp] theorem add_same (bytes : Nat → Bytes) (link : Nat) (more : Bytes) :
    add bytes link more link = bytes link ++ more := Function.update_self _ _ _

def write (w : Wires) (link : Nat) (bytes : Bytes) : Wires :=
  { w with written := add w.written link bytes }

def take (w : Wires) (link : Nat) (bytes : Bytes) : Wires :=
  { w with taken := add w.taken link bytes }

@[simp] theorem written_write (w : Wires) (link : Nat) (bytes : Bytes) :
    (w.write link bytes).written link = w.written link ++ bytes := add_same _ _ _

@[simp] theorem taken_take (w : Wires) (link : Nat) (bytes : Bytes) :
    (w.take link bytes).taken link = w.taken link ++ bytes := add_same _ _ _

theorem write_nil (w : Wires) (link : Nat) : w.write link [] = w := by
  rw [write, add, List.append_nil, Function.update_eq_self]

theorem write_append (w : Wires) (link : Nat) (first more : Bytes) :
    (w.write link first).write link more = w.write link (first ++ more) := by
  simp only [write, add, Function.update_self, Function.update_idem, List.append_assoc]

def after (w : Wires) (o : Occurrence) : Wires :=
  match o with
  | ⟨.write link bytes, outcome⟩ =>
    match (outcome : WriteOutcome) with
    | .accepted more => w.write link (bytes.take (more + 1))
    | .failed _ => w
  | ⟨.read link _ _, outcome⟩ =>
    match (outcome : ReadOutcome) with
    | .bytes first rest => w.take link (first :: rest)
    | _ => w
  | _ => w

def packets (w : Wires) (link : Nat) : List Bytes := unframe (w.written link)

def Grows (w w' : Wires) : Prop := ∀ link, w.packets link <+: w'.packets link

private theorem grows_write (w : Wires) (link : Nat) (bytes : Bytes) :
    w.Grows (w.write link bytes) := by
  intro other
  rw [packets, packets]
  by_cases same : other = link
  · rw [same, written_write]
    exact Bytes.unframe_append _ _
  · have untouched : (w.write link bytes).written other = w.written other :=
      Function.update_of_ne same _ _
    rw [untouched]

private theorem grows_after (w : Wires) (o : Occurrence) : w.Grows (w.after o) := by
  have still : w.Grows w := fun _ => List.prefix_rfl
  obtain ⟨action, outcome⟩ := o
  cases action with
  | write link bytes =>
    cases outcome with
    | accepted more => exact w.grows_write link _
    | failed _ => exact still
  | read link deadline most =>
    cases outcome with
    | bytes first rest => exact fun _ => List.prefix_rfl
    | _ => exact still
  | _ => exact still

end Wires

/-- What a broker has to say: the body of its answer to each packet that it gets on a link.  A
welcome announces a limit that a broker can be set up with. -/
structure Answers where
  body : Nat → Nat → Bytes
  small : ∀ link n, (body link n).length ≤ maxHeaderValue
  terms : ∀ link n terms, body link n = PacketCodec.body (.welcome terms) →
    terms.maxMessageSize.toNat ≤ Settings.maxPayloadLimit

namespace Answers

def upTo (answers : Answers) (link n : Nat) : List Bytes :=
  (List.range n).map (answers.body link)

theorem framedAll_upTo_succ (answers : Answers) (link n : Nat) :
    framedAll (answers.upTo link (n + 1)) =
      framedAll (answers.upTo link n) ++ framed (answers.body link n) := by
  rw [upTo, List.range_succ, List.map_append]
  exact Bytes.framedAll_concat _ _

/-- Whether a broker can be set up so that it sends a packet. -/
def isFair (p : Packet) : Bool :=
  ((PacketCodec.ofLimit Settings.maxPayloadLimit).validate p).isOk &&
    match p with
    | .welcome terms => terms.maxMessageSize.toNat ≤ Settings.maxPayloadLimit
    | _ => true

private theorem valid_of_isFair {p : Packet} (fair : isFair p = true) :
    (PacketCodec.ofLimit Settings.maxPayloadLimit).validate p = .ok () := by
  have valid := (Bool.and_eq_true_iff.mp fair).1
  cases h : (PacketCodec.ofLimit Settings.maxPayloadLimit).validate p with
  | ok => rfl
  | error e =>
    rw [h] at valid
    cases valid

def script (replies : Nat → List Packet) (fair : ∀ link, (replies link).all isFair = true) :
    Answers where
  body link n := ((replies link)[n]?.map PacketCodec.body).getD []
  small link n := by
    cases found : (replies link)[n]? with
    | none => exact Nat.zero_le _
    | some p =>
      have valid := valid_of_isFair (List.all_eq_true.mp (fair link) p (List.mem_of_getElem? found))
      exact Nat.le_trans (PacketCodec.length_body_le valid) (by decide)
  terms link n terms same := by
    cases found : (replies link)[n]? with
    | none =>
      rw [found] at same
      cases same
    | some p =>
      have isFair := List.all_eq_true.mp (fair link) p (List.mem_of_getElem? found)
      have valid := valid_of_isFair isFair
      -- The body of a welcome is that of no other packet: it is read back as one.
      have reads : (PacketCodec.ofLimit Settings.maxPayloadLimit).decodeBody (PacketCodec.body p) =
          .ok p := PacketCodec.decodeBody_body valid fun x hx =>
        Nat.le_trans (PacketCodec.payload_le valid hx) (by decide)
      have again : (PacketCodec.ofLimit Settings.maxPayloadLimit).decodeBody
          (PacketCodec.body (.welcome terms)) = .ok (.welcome terms) :=
        PacketCodec.decodeBody_body (c := PacketCodec.ofLimit 0) rfl nofun
      rw [found] at same
      have same : PacketCodec.body p = PacketCodec.body (.welcome terms) := same
      rw [same] at reads
      obtain rfl := Except.ok.inj (reads.symm.trans again)
      exact of_decide_eq_true (Bool.and_eq_true_iff.mp isFair).2

/-- A link is new when it is reached.  The bytes that come from it are the answers, in order, to
packets that have been written to it as a whole; how many of them have come by now is open. -/
def Permits (answers : Answers) (w : Wires) (o : Occurrence) : Prop :=
  match o with
  | ⟨.read link _ _, outcome⟩ =>
    match (outcome : ReadOutcome) with
    | .bytes first rest =>
      w.taken link ++ first :: rest <+: framedAll (answers.upTo link (w.packets link).length)
    | _ => True
  | ⟨.dial _ _, outcome⟩ =>
    match (outcome : DialOutcome) with
    | .connected link => w.written link = [] ∧ w.taken link = []
    | _ => True
  | _ => True

instance (answers : Answers) (w : Wires) (o : Occurrence) : Decidable (answers.Permits w o) :=
  match o with
  | ⟨.read link _ _, outcome⟩ =>
    match (outcome : ReadOutcome) with
    | .bytes first rest => inferInstanceAs (Decidable (w.taken link ++ first :: rest <+:
        framedAll (answers.upTo link (w.packets link).length)))
    | .ended | .failed _ | .elapsed => isTrue trivial
  | ⟨.dial _ _, outcome⟩ =>
    match (outcome : DialOutcome) with
    | .connected link => inferInstanceAs (Decidable (w.written link = [] ∧ w.taken link = []))
    | .failed _ | .elapsed => isTrue trivial
  | ⟨.clock, _⟩ | ⟨.write _ _, _⟩ | ⟨.shutdown _, _⟩ | ⟨.discard _, _⟩ | ⟨.sleepUntil _, _⟩
  | ⟨.log _, _⟩ => isTrue trivial

/-- A broker that answers every packet with exactly one packet, in order. -/
def obliging (answers : Answers) : Surroundings Wires := ⟨answers.Permits, Wires.after⟩

/-- Surroundings without delay: links are numbered as they are reached, all that is written is
taken, and all that the broker owes is there when it is asked for.  A link may break once so many
packets have been written to it. -/
def prompt (answers : Answers) (breaks : Nat → Nat → Bool) (action : Action) :
    Wires × Nat → action.Outcome × (Wires × Nat) := fun (w, links) =>
  match action with
  | .clock => (Instant.start, w, links)
  | .dial _ _ => (DialOutcome.connected links, w, links + 1)
  | .read link _ _ =>
    let owed := framedAll (answers.upTo link (w.packets link).length)
    match owed.drop (w.taken link).length with
    | [] => (ReadOutcome.ended, w, links)
    | first :: rest => (ReadOutcome.bytes first rest, w.take link (first :: rest), links)
  | .write link bytes =>
    if breaks link (w.packets link).length then
      (WriteOutcome.failed IoFailure.brokenPipe, w, links)
    else (WriteOutcome.accepted (bytes.length - 1), w.write link bytes, links)
  | .shutdown _ | .discard _ | .sleepUntil _ | .log _ => ((), w, links)

instance (answers : Answers) (w : Wires) (o : Occurrence) :
    Decidable (answers.obliging.permits w o) := inferInstanceAs (Decidable (answers.Permits w o))

theorem grows_final (answers : Answers) (w : Wires) (trace : List Occurrence) :
    w.Grows (answers.obliging.final w trace) := by
  induction trace generalizing w with
  | nil => exact fun _ => List.prefix_rfl
  | cons o rest ih => exact fun link => (w.grows_after o link).trans (ih (w.after o) link)

theorem ensures_grows {answers : Answers} {α : Type} {p : Plan α} {w : Wires}
    {Q : α → Wires → Prop} (h : p.Ensures answers.obliging w Q) :
    p.Ensures answers.obliging w fun a w' => Q a w' ∧ w.Grows w' :=
  h.keeping (fun _ _ => List.prefix_rfl) (fun first later link => (first link).trans (later link))
    fun w o => w.grows_after o

end Answers
end Net
end WorkBroker
