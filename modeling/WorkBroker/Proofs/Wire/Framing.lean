import Mathlib.Data.List.ReduceOption
import WorkBroker.Proofs.Wire.Grammar
import WorkBroker.Wire.Buffer
/-!
The two readings of a frame.  One wants the whole frame and fails without it, the other waits for
it; on every buffer they come to the same, up to that difference.  What waits may be called at any
time while the bytes come in: it returns the payloads that were framed, in order, and no others.
-/

set_option autoImplicit false
set_option relaxedAutoImplicit false

namespace WorkBroker

def Bytes.framed (b : Bytes) : Bytes := Bytes.ofNat headerSize b.length ++ b

def Bytes.framedAll (bs : List Bytes) : Bytes := (bs.map Bytes.framed).flatten

private theorem Bytes.framedAll_cons (b : Bytes) (bs : List Bytes) :
    framedAll (b :: bs) = framed b ++ framedAll bs := rfl

theorem Bytes.length_framed (b : Bytes) : (framed b).length = headerSize + b.length := by
  rw [framed, List.length_append, Bytes.length_ofNat]

theorem Bytes.declaredLength_framed {b : Bytes} (small : b.length ≤ maxHeaderValue) (rest : Bytes) :
    FrameCodec.declaredLength (framed b ++ rest) = b.length := by
  rw [framed, List.append_assoc, FrameCodec.declaredLength_append small]

theorem PacketCodec.of_encode {c : PacketCodec} {p : Packet} {bytes : Bytes}
    (h : c.encode p = .ok bytes) : c.validate p = .ok () ∧ bytes = Bytes.framed (body p) := by
  have valid : c.validate p = .ok () := (ok_of_bind h).1
  refine ⟨valid, ?_⟩
  have written := encodeInto_eq valid []
  rw [encodeInto, h] at written
  exact Except.ok.inj written

namespace FrameCodec

open Bytes (framed framedAll framedAll_cons)

variable {c : FrameCodec} {buffer owed payload : Bytes} {payloads : List Bytes}

def overLimit (c : FrameCodec) (declared : Nat) : CodecError :=
  .malformed (.declaredTooLong declared c.limit)

section Readings

private theorem on_takeWhole (c : FrameCodec) (buffer : Bytes) :
    c.takeWhole.on buffer = ((c.decodeFrom buffer).map Prod.fst, c.leftAfter buffer) := by
  rw [leftAfter, decodeFrom_eq, declaredLength]
  simp only [takeWhole, checkDeclared, Buffered.on_bind, Buffered.on_size]
  by_cases short : buffer.length < headerSize
  · simp only [if_pos short, Except.map, Buffered.on_bind, Buffered.on_throw]
  by_cases long : c.limit < Bytes.toNat (buffer.take headerSize)
  · simp only [if_neg short, if_pos long, Except.map, Buffered.on_bind, Buffered.on_takeFront,
      Buffered.on_lift, gt_iff_lt]
  simp only [if_neg short, if_neg long, Buffered.on_bind, Buffered.on_takeFront, Buffered.on_lift,
    Buffered.on_size, gt_iff_lt]
  split_ifs <;> rfl

private theorem decodeStream_eq (c : FrameCodec) (buffer : Bytes) :
    c.decodeStream buffer =
      if buffer.length < headerSize then .ok none
      else if c.limit < declaredLength buffer then .error (c.overLimit (declaredLength buffer))
      else if buffer.length < headerSize + declaredLength buffer then .ok none
      else .ok (some ((buffer.drop headerSize).take (declaredLength buffer),
        (buffer.drop headerSize).drop (declaredLength buffer))) := by
  simp only [decodeStream, checkDeclared]
  split_ifs <;> rfl

private theorem on_takeNext (c : FrameCodec) (buffer : Bytes) :
    c.takeNext.on buffer =
      match c.decodeStream buffer with
      | .ok (some (payload, rest)) => (.ok (some payload), rest)
      | .ok none => (.ok none, buffer)
      | .error e => (.error e, buffer) := by
  rw [decodeStream_eq]
  simp only [takeNext, checkDeclared, Buffered.on_bind, Buffered.on_get]
  by_cases short : buffer.length < headerSize
  · simp only [if_pos short, Buffered.on_pure]
  by_cases long : c.limit < declaredLength buffer
  · simp only [if_neg short, if_pos long, Buffered.on_bind, Buffered.on_lift, gt_iff_lt, overLimit]
  simp only [if_neg short, if_neg long, Buffered.on_bind, Buffered.on_lift, gt_iff_lt]
  split_ifs <;> rfl

/-- Both readings find the frame, or both find it too long, or one fails for bytes that are missing
while the other waits for them. -/
theorem readings (c : FrameCodec) (buffer : Bytes) :
    (∃ payload rest, c.takeWhole.on buffer = (.ok payload, rest) ∧
      c.takeNext.on buffer = (.ok (some payload), rest)) ∨
    (∃ declared rest, c.limit < declared ∧
      c.takeWhole.on buffer = (.error (c.overLimit declared), rest) ∧
      c.takeNext.on buffer = (.error (c.overLimit declared), buffer)) ∨
    ∃ cause rest, c.takeWhole.on buffer = (.error (.malformed cause), rest) ∧
      cause.IsShortage buffer.length ∧ c.takeNext.on buffer = (.ok none, buffer) := by
  rw [on_takeWhole, on_takeNext, decodeStream_eq, leftAfter, decodeFrom_eq]
  have behind : (buffer.drop headerSize).length = buffer.length - headerSize := List.length_drop
  by_cases short : buffer.length < headerSize
  · simp only [if_pos short]
    exact .inr (.inr ⟨_, _, rfl, ⟨short, Nat.le_refl _⟩, trivial⟩)
  by_cases long : c.limit < declaredLength buffer
  · simp only [if_neg short, if_pos long]
    exact .inr (.inl ⟨_, _, long, rfl, rfl⟩)
  by_cases lacking : buffer.length < headerSize + declaredLength buffer
  · have missing : (buffer.drop headerSize).length < declaredLength buffer := by omega
    simp only [if_neg short, if_neg long, if_pos lacking, if_pos missing]
    exact .inr (.inr ⟨_, _, rfl, ⟨missing, by omega⟩, trivial⟩)
  · have there : ¬(buffer.drop headerSize).length < declaredLength buffer := by omega
    simp only [if_neg short, if_neg long, if_neg lacking, if_neg there]
    exact .inl ⟨_, _, rfl, rfl⟩

private theorem takeNext_eq_some_iff {rest : Bytes} :
    c.takeNext.on buffer = (.ok (some payload), rest) ↔
      c.takeWhole.on buffer = (.ok payload, rest) := by
  obtain ⟨p, left, whole, next⟩ | ⟨declared, left, above, whole, next⟩ |
    ⟨cause, left, whole, short, next⟩ := c.readings buffer
  all_goals
    rw [whole, next]
    simp

private theorem takeNext_eq_error_iff {e : CodecError} :
    c.takeNext.on buffer = (.error e, buffer) ↔
      (c.takeWhole.on buffer).1 = .error e ∧ ∃ declared > c.limit, e = c.overLimit declared := by
  obtain ⟨p, left, whole, next⟩ | ⟨declared, left, above, whole, next⟩ |
    ⟨cause, left, whole, short, next⟩ := c.readings buffer
  all_goals rw [whole, next]
  · simp
  · constructor
    · rintro ⟨⟩
      exact ⟨rfl, declared, above, rfl⟩
    · rintro ⟨⟨⟩, -⟩
      rfl
  · constructor
    · rintro ⟨⟩
    · rintro ⟨⟨⟩, _, _, ⟨⟩⟩
      cases short

private theorem takeNext_eq_none_iff :
    c.takeNext.on buffer = (.ok none, buffer) ↔
      ∃ cause, (c.takeWhole.on buffer).1 = .error (.malformed cause) ∧
        cause.IsShortage buffer.length := by
  obtain ⟨p, left, whole, next⟩ | ⟨declared, left, above, whole, next⟩ |
    ⟨cause, left, whole, short, next⟩ := c.readings buffer
  all_goals rw [whole, next]
  · simp
  · constructor
    · rintro ⟨⟩
    · rintro ⟨_, ⟨⟩, short⟩
      cases short
  · exact ⟨fun _ => ⟨cause, rfl, short⟩, fun _ => rfl⟩

private theorem takeNext_takes_or_keeps (c : FrameCodec) (buffer : Bytes) :
    (∃ payload, (c.takeNext.on buffer).1 = .ok (some payload)) ∨
      (c.takeNext.on buffer).2 = buffer := by
  obtain ⟨p, left, -, next⟩ | ⟨_, _, _, -, next⟩ | ⟨_, _, -, -, next⟩ := c.readings buffer
  all_goals rw [next]
  · exact .inl ⟨p, rfl⟩
  · exact .inr rfl
  · exact .inr rfl

end Readings

section Completion

private theorem takeNext_of_enough (header : headerSize ≤ buffer.length)
    (enough : headerSize + declaredLength buffer ≤ buffer.length) :
    (∃ payload rest, c.takeNext.on buffer = (.ok (some payload), rest)) ∨
      (c.takeNext.on buffer).1 = .error (c.overLimit (declaredLength buffer)) := by
  rw [on_takeNext, decodeStream_eq, if_neg (Nat.not_lt_of_le header)]
  by_cases long : c.limit < declaredLength buffer
  · rw [if_pos long]
    exact .inr rfl
  · rw [if_neg long, if_neg (Nat.not_lt_of_le enough)]
    exact .inl ⟨_, _, rfl⟩

/-- Whatever stands in a buffer can be continued to a frame or to a header that declares too much. -/
theorem exists_completion (c : FrameCodec) (buffer : Bytes) :
    ∃ more, (∃ payload rest, c.takeNext.on (buffer ++ more) = (.ok (some payload), rest)) ∨
      ∃ declared, (c.takeNext.on (buffer ++ more)).1 = .error (c.overLimit declared) := by
  let headed := buffer ++ List.replicate headerSize 0
  let whole := headed ++ List.replicate (declaredLength headed) 0
  have header : headerSize ≤ headed.length := by
    rw [List.length_append, List.length_replicate]
    exact Nat.le_add_left _ _
  have declared : declaredLength whole = declaredLength headed :=
    declaredLength_append_of_le header _
  have size : whole.length = headed.length + declaredLength headed := by
    rw [List.length_append, List.length_replicate]
  have long : headerSize ≤ whole.length := by omega
  have enough : headerSize + declaredLength whole ≤ whole.length := by omega
  refine ⟨List.replicate headerSize 0 ++ List.replicate (declaredLength headed) 0, ?_⟩
  rw [← List.append_assoc]
  exact (takeNext_of_enough long enough).imp_right fun above => ⟨_, above⟩

end Completion

section Turns

/-- What happens to a buffer: bytes are put at its end, or the next frame is asked for. -/
inductive Turn
  | arrival (bytes : Bytes)
  | call

def arrived : List Turn → Bytes
  | [] => []
  | .arrival bytes :: turns => bytes ++ arrived turns
  | .call :: turns => arrived turns

/-- What the calls answer, and what stands in the buffer in the end. -/
def afterTurns (c : FrameCodec) :
    List Turn → Bytes → List (Except CodecError (Option Bytes)) × Bytes
  | [], buffer => ([], buffer)
  | .arrival bytes :: turns, buffer => c.afterTurns turns (buffer ++ bytes)
  | .call :: turns, buffer =>
    let (answer, left) := c.takeNext.on buffer
    let (answers, last) := c.afterTurns turns left
    (answer :: answers, last)

private theorem afterTurns_call {answer : Except CodecError (Option Bytes)} {left : Bytes}
    {turns : List Turn} (h : c.takeNext.on buffer = (answer, left)) :
    c.afterTurns (.call :: turns) buffer =
      (answer :: (c.afterTurns turns left).1, (c.afterTurns turns left).2) := by
  rw [afterTurns, h]

private theorem afterTurns_append (c : FrameCodec) (turns more : List Turn) (buffer : Bytes) :
    c.afterTurns (turns ++ more) buffer =
      ((c.afterTurns turns buffer).1 ++ (c.afterTurns more (c.afterTurns turns buffer).2).1,
        (c.afterTurns more (c.afterTurns turns buffer).2).2) := by
  induction turns generalizing buffer with
  | nil => rfl
  | cons turn turns ih =>
    cases turn with
    | arrival bytes => exact ih (buffer ++ bytes)
    | call =>
      simp only [List.cons_append, afterTurns, ih]

private theorem takeNext_framed (fits : payload.length ≤ c.limit) (rest : Bytes) :
    c.takeNext.on (framed payload ++ rest) = (.ok (some payload), rest) := by
  rw [takeNext_eq_some_iff, on_takeWhole, leftAfter, framed, decodeFrom_append fits]
  rfl

private theorem takeNext_of_lacking {more : Bytes} (fits : payload.length ≤ c.limit)
    (front : buffer ++ more = framed payload ++ owed)
    (lacking : buffer.length < (framed payload).length) :
    c.takeNext.on buffer = (.ok none, buffer) := by
  rw [on_takeNext, decodeStream_eq]
  by_cases short : buffer.length < headerSize
  · rw [if_pos short]
  have declared : declaredLength buffer = payload.length := by
    rw [← declaredLength_append_of_le (Nat.le_of_not_lt short) more, front,
      Bytes.declaredLength_framed (Nat.le_trans fits c.limit_le)]
  rw [Bytes.length_framed] at lacking
  rw [if_neg short, declared, if_neg (Nat.not_lt_of_le fits), if_pos lacking]

private theorem takeNext_of_framedAll (fit : ∀ p ∈ payloads, p.length ≤ c.limit)
    (coming : buffer ++ owed = framedAll payloads) :
    (c.takeNext.on buffer = (.ok none, buffer) ∧ (owed = [] → payloads = [])) ∨
      ∃ p ps rest, payloads = p :: ps ∧ c.takeNext.on buffer = (.ok (some p), rest) ∧
        rest ++ owed = framedAll ps := by
  cases payloads with
  | nil =>
    obtain ⟨rfl, -⟩ := List.append_eq_nil_iff.mp coming
    exact .inl ⟨rfl, fun _ => rfl⟩
  | cons p ps =>
    have first : p.length ≤ c.limit := fit p List.mem_cons_self
    rw [framedAll_cons] at coming
    rcases Nat.lt_or_ge buffer.length (framed p).length with lacking | whole
    · refine .inl ⟨takeNext_of_lacking first coming lacking, ?_⟩
      rintro rfl
      have length := congrArg List.length coming
      rw [List.append_nil, List.length_append] at length
      omega
    · obtain ⟨rest, rfl⟩ : framed p <+: buffer :=
        List.prefix_of_prefix_length_le ⟨_, coming.symm⟩ ⟨_, rfl⟩ whole
      rw [List.append_assoc] at coming
      exact .inr ⟨p, ps, rest, rfl, takeNext_framed first rest, List.append_cancel_left coming⟩

/-- Whatever the turns are, the calls answer the first of the payloads, in order, and the frames of
the others stand in the buffer or are still to come. -/
theorem afterTurns_of_framedAll (fit : ∀ p ∈ payloads, p.length ≤ c.limit) {turns : List Turn}
    (coming : buffer ++ (arrived turns ++ owed) = framedAll payloads) :
    ∃ (answers : List (Option Bytes)) (waiting : List Bytes) (left : Bytes),
      c.afterTurns turns buffer = (answers.map .ok, left) ∧
        payloads = answers.reduceOption ++ waiting ∧ left ++ owed = framedAll waiting := by
  induction turns generalizing buffer payloads with
  | nil => exact ⟨[], payloads, buffer, rfl, rfl, coming⟩
  | cons turn turns ih =>
    cases turn with
    | arrival bytes =>
      refine ih fit ?_
      simpa only [arrived, List.append_assoc] using coming
    | call =>
      obtain ⟨nothing, -⟩ | ⟨p, ps, rest, rfl, found, rest_eq⟩ := takeNext_of_framedAll fit coming
      · obtain ⟨answers, waiting, left, run, split, last⟩ := ih fit coming
        refine ⟨none :: answers, waiting, left, ?_, split, last⟩
        rw [afterTurns_call nothing, run, List.map_cons]
      · obtain ⟨answers, waiting, left, run, rfl, last⟩ :=
          ih (fun q hq => fit q (List.mem_cons_of_mem p hq)) rest_eq
        refine ⟨some p :: answers, waiting, left, ?_, rfl, last⟩
        rw [afterTurns_call found, run, List.map_cons]

private theorem afterTurns_calls (fit : ∀ p ∈ payloads, p.length ≤ c.limit) {n : Nat}
    (enough : payloads.length ≤ n) :
    ∃ answers : List (Option Bytes), c.afterTurns (List.replicate n .call) (framedAll payloads) =
      (answers.map .ok, []) ∧ answers.reduceOption = payloads := by
  induction n generalizing payloads with
  | zero =>
    obtain rfl := List.eq_nil_of_length_eq_zero (Nat.le_zero.mp enough)
    exact ⟨[], rfl, rfl⟩
  | succ n ih =>
    cases payloads with
    | nil =>
      obtain ⟨answers, run, all⟩ := ih fit (Nat.zero_le n)
      refine ⟨none :: answers, ?_, all⟩
      have nothing : c.takeNext.on (framedAll []) = (.ok none, framedAll []) := rfl
      simp only [List.replicate_succ, afterTurns, nothing, run, List.map_cons]
    | cons p ps =>
      obtain ⟨first, others⟩ := List.forall_mem_cons.mp fit
      obtain ⟨answers, run, all⟩ := ih others (Nat.le_of_succ_le_succ enough)
      refine ⟨some p :: answers, ?_, congrArg (p :: ·) all⟩
      rw [framedAll_cons, List.replicate_succ, afterTurns_call (takeNext_framed first _), run,
        List.map_cons]

private theorem mapM_encode (fit : ∀ p ∈ payloads, p.length ≤ c.limit) :
    payloads.mapM c.encode = .ok (payloads.map framed) := by
  induction payloads with
  | nil => rfl
  | cons p ps ih =>
    obtain ⟨first, others⟩ := List.forall_mem_cons.mp fit
    have frame : c.encode p = .ok (framed p) := by
      rw [encode, checkSize, if_neg (Nat.not_lt_of_le first)]
      rfl
    rw [List.mapM_cons, frame, ih others]
    rfl

/-- However the bytes of some frames arrive and whenever calls are made, the calls answer the
payloads in order.  Once all has arrived each call answers the next one, until there is none. -/
theorem answers_of_frames (fit : ∀ p ∈ payloads, p.length ≤ c.limit) {turns : List Turn}
    (coming : arrived turns ++ owed = framedAll payloads) :
    ∃ (answers : List (Option Bytes)) (left : Bytes),
      c.afterTurns turns [] = (answers.map .ok, left) ∧ answers.reduceOption <+: payloads ∧
      (owed = [] → (c.takeNext.on left).1 = .ok payloads[answers.reduceOption.length]? ∧
        ∀ n ≥ payloads.length, ∃ more : List (Option Bytes),
          c.afterTurns (turns ++ List.replicate n .call) [] = ((answers ++ more).map .ok, []) ∧
            (answers ++ more).reduceOption = payloads) := by
  have coming : [] ++ (arrived turns ++ owed) = framedAll payloads := coming
  obtain ⟨answers, waiting, left, run, rfl, last⟩ := afterTurns_of_framedAll fit coming
  refine ⟨answers, left, run, List.prefix_append _ _, ?_⟩
  rintro rfl
  have others : ∀ p ∈ waiting, p.length ≤ c.limit := fun p hp =>
    fit p (List.mem_append_right _ hp)
  constructor
  · rw [List.getElem?_append_right (Nat.le_refl _), Nat.sub_self]
    obtain ⟨nothing, done⟩ | ⟨p, ps, rest, rfl, found, -⟩ := takeNext_of_framedAll others last
    · rw [nothing, done rfl]
      rfl
    · rw [found]
      rfl
  · intro n enough
    rw [List.append_nil] at last
    obtain rfl := last
    have few : waiting.length ≤ n := by
      rw [List.length_append] at enough
      omega
    obtain ⟨more, rest, all⟩ := afterTurns_calls others few
    refine ⟨more, ?_, by rw [List.reduceOption_append, all]⟩
    rw [afterTurns_append, run, rest, List.map_append]

end Turns

/-- The reading that waits takes a frame exactly where the other takes it, and leaves the same; it
fails exactly where the other finds the frame too long; it finds nothing yet exactly where the other
fails for bytes that are missing, and then some bytes can follow that end the waiting.  Whatever it
does not take stays where it is.  When frames arrive, cut anywhere, and calls are made at any time,
it takes their payloads, in order and nothing else. -/
theorem streaming_agrees_with_whole (c : FrameCodec) :
    (∀ buffer payload rest, c.takeNext.on buffer = (.ok (some payload), rest) ↔
      c.takeWhole.on buffer = (.ok payload, rest)) ∧
    (∀ buffer e, c.takeNext.on buffer = (.error e, buffer) ↔
      (c.takeWhole.on buffer).1 = .error e ∧ ∃ declared > c.limit, e = c.overLimit declared) ∧
    (∀ buffer, c.takeNext.on buffer = (.ok none, buffer) ↔
      ∃ cause, (c.takeWhole.on buffer).1 = .error (.malformed cause) ∧
        cause.IsShortage buffer.length) ∧
    (∀ buffer, (∃ payload, (c.takeNext.on buffer).1 = .ok (some payload)) ∨
      (c.takeNext.on buffer).2 = buffer) ∧
    (∀ buffer, (c.takeNext.on buffer).1 = .ok none → ∃ more,
      (∃ payload rest, c.takeNext.on (buffer ++ more) = (.ok (some payload), rest)) ∨
        ∃ declared, (c.takeNext.on (buffer ++ more)).1 = .error (c.overLimit declared)) ∧
    ∀ payloads : List Bytes, (∀ p ∈ payloads, p.length ≤ c.limit) →
      ∃ frames, payloads.mapM c.encode = .ok frames ∧
        ∀ turns owed, arrived turns ++ owed = frames.flatten →
          ∃ (answers : List (Option Bytes)) (left : Bytes),
            c.afterTurns turns [] = (answers.map .ok, left) ∧ answers.reduceOption <+: payloads ∧
            (owed = [] → (c.takeNext.on left).1 = .ok payloads[answers.reduceOption.length]? ∧
              ∀ n ≥ payloads.length, ∃ more : List (Option Bytes),
                c.afterTurns (turns ++ List.replicate n .call) [] =
                    ((answers ++ more).map .ok, []) ∧
                  (answers ++ more).reduceOption = payloads) := by
  refine ⟨fun _ _ _ => takeNext_eq_some_iff, fun _ _ => takeNext_eq_error_iff,
    fun _ => takeNext_eq_none_iff, c.takeNext_takes_or_keeps, fun buffer _ =>
    c.exists_completion buffer, fun payloads fit => ?_⟩
  exact ⟨_, mapM_encode fit, fun _ _ coming => answers_of_frames fit coming⟩

end FrameCodec
end WorkBroker
