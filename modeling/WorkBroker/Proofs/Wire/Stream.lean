import WorkBroker.Proofs.Wire.Grammar
/-!
Packets from a stream that comes in pieces.  A call of the decoder takes one whole frame from the
front of the buffer or nothing, and what it makes of a frame does not depend on what comes after it.
So it does not matter where the stream is cut, and after a malformed body the decoder goes on with
the next frame; only a frame above the limit stops it for good.
-/

set_option autoImplicit false
set_option relaxedAutoImplicit false

namespace WorkBroker.PacketCodec

variable {c : PacketCodec} {buffer rest : Bytes} {result : Except CodecError (Option Packet)}

section Calls

def isOverLimit : CodecError → Bool
  | .malformed cause => cause.isOverLimit
  | _ => false

def isLast : Except CodecError (Option Packet) → Bool
  | .ok found => found.isNone
  | .error e => isOverLimit e

private theorem isLast_decodeBody (c : PacketCodec) (b : Bytes) :
    isLast ((c.decodeBody b).map some) = false := by
  cases h : c.decodeBody b with
  | ok p => rfl
  | error e =>
    obtain ⟨cause, rfl, within, -⟩ := malformed_of_decodeBody h
    exact within

private theorem decode_cases (c : PacketCodec) (buffer : Bytes) :
    c.decode buffer = (.ok none, buffer) ∨
      (∃ n rest, buffer = Bytes.ofNat headerSize n ++ rest ∧ n ≤ maxHeaderValue ∧
        c.maxFrameSize < n) ∨
      ∃ body rest, buffer = Bytes.ofNat headerSize body.length ++ (body ++ rest) ∧
        body.length ≤ maxHeaderValue ∧ body.length ≤ c.maxFrameSize := by
  by_cases short : buffer.length < headerSize
  · left
    rw [decode, scan, if_pos short]
  have four := Nat.le_of_not_lt short
  have header := FrameCodec.header_eq four
  have small := FrameCodec.declaredLength_le four
  have whole := List.take_append_drop headerSize buffer
  by_cases long : c.maxFrameSize < FrameCodec.declaredLength buffer
  · exact .inr (.inl ⟨_, _, by rw [header, whole], small, long⟩)
  by_cases lacking : (buffer.drop headerSize).length < FrameCodec.declaredLength buffer
  · left
    have incomplete : c.scan buffer = .incomplete := by
      rw [scan, if_neg short]
      exact (if_neg long).trans (if_pos lacking)
    rw [decode, incomplete]
  · generalize FrameCodec.declaredLength buffer = n at *
    have length : ((buffer.drop headerSize).take n).length = n :=
      List.length_take_of_le (Nat.le_of_not_lt lacking)
    refine .inr (.inr ⟨(buffer.drop headerSize).take n, (buffer.drop headerSize).drop n, ?_, ?_⟩)
    · rw [length, header, List.take_append_drop, whole]
    · rw [length]
      exact ⟨small, Nat.le_of_not_lt long⟩

private theorem decode_frame {b : Bytes} (h : b.length ≤ maxHeaderValue)
    (fits : b.length ≤ c.maxFrameSize) (rest : Bytes) :
    c.decode (Bytes.ofNat headerSize b.length ++ (b ++ rest)) =
      ((c.decodeBody b).map some, rest) := by
  rw [decode, scan_frame h fits]

private theorem rest_of_last (h : c.decode buffer = (result, rest)) (last : isLast result) :
    rest = buffer := by
  rcases c.decode_cases buffer with same | ⟨n, more, rfl, small, long⟩ | ⟨b, more, rfl, small, fits⟩
  · exact (congrArg Prod.snd (h.symm.trans same))
  · exact congrArg Prod.snd (h.symm.trans (decode_tooLong small long more))
  · obtain ⟨rfl, -⟩ := Prod.mk.inj (h.symm.trans (decode_frame small fits more))
    rw [isLast_decodeBody] at last
    cases last

private theorem frame_of_not_last (h : c.decode buffer = (result, rest))
    (more : isLast result = false) :
    ∃ body, buffer = Bytes.ofNat headerSize body.length ++ (body ++ rest) ∧
      body.length ≤ maxHeaderValue ∧ body.length ≤ c.maxFrameSize ∧
      result = (c.decodeBody body).map some := by
  rcases c.decode_cases buffer with same | ⟨n, x, rfl, small, long⟩ | ⟨b, x, rfl, small, fits⟩
  · obtain ⟨rfl, -⟩ := Prod.mk.inj (h.symm.trans same)
    cases more
  · obtain ⟨rfl, -⟩ := Prod.mk.inj (h.symm.trans (decode_tooLong small long x))
    cases more
  · obtain ⟨rfl, rfl⟩ := Prod.mk.inj (h.symm.trans (decode_frame small fits x))
    exact ⟨b, rfl, small, fits, rfl⟩

private theorem length_of_not_last (h : c.decode buffer = (result, rest))
    (more : isLast result = false) :
    headerSize + rest.length ≤ buffer.length := by
  obtain ⟨body, rfl, -⟩ := frame_of_not_last h more
  simp only [List.length_append, Bytes.length_ofNat]
  omega

/-- What has been found in front of a buffer is found whatever comes after it. -/
theorem decode_append (h : c.decode buffer = (result, rest)) (found : result ≠ .ok none)
    (more : Bytes) : c.decode (buffer ++ more) = (result, rest ++ more) := by
  rcases c.decode_cases buffer with same | ⟨n, x, rfl, small, long⟩ | ⟨b, x, rfl, small, fits⟩
  · exact absurd (congrArg Prod.fst (h.symm.trans same)) found
  · obtain ⟨rfl, rfl⟩ := Prod.mk.inj (h.symm.trans (decode_tooLong small long x))
    rw [List.append_assoc]
    exact decode_tooLong small long _
  · obtain ⟨rfl, rfl⟩ := Prod.mk.inj (h.symm.trans (decode_frame small fits x))
    rw [List.append_assoc, List.append_assoc]
    exact decode_frame small fits _

end Calls

section Rows

def report? : Except CodecError (Option Packet) → Option (Except CodecError Packet)
  | .ok none => none
  | .ok (some p) => some (.ok p)
  | .error e => some (.error e)

/-- Calls the decoder until a call is the last one: what was reported, and the bytes that are left.
-/
def drain (c : PacketCodec) (buffer : Bytes) : List (Except CodecError Packet) × Bytes :=
  match h : c.decode buffer with
  | (result, rest) =>
    if last : isLast result then ((report? result).toList, rest)
    else
      have _shorter := length_of_not_last h (Bool.not_eq_true _ ▸ last)
      let (others, left) := c.drain rest
      ((report? result).toList ++ others, left)
termination_by buffer.length
decreasing_by
  simp only [headerSize] at _shorter
  omega

private theorem drain_of_last (h : c.decode buffer = (result, rest)) (last : isLast result) :
    c.drain buffer = ((report? result).toList, rest) := by
  rw [drain]
  simp only [h, last, dite_true]

private theorem drain_of_not_last (h : c.decode buffer = (result, rest))
    (more : isLast result = false) :
    c.drain buffer = ((report? result).toList ++ (c.drain rest).1, (c.drain rest).2) := by
  rw [drain]
  simp only [h, more, Bool.false_eq_true, dite_false]

private theorem drain_induction {motive : Bytes → Prop}
    (last : ∀ buffer result rest, c.decode buffer = (result, rest) → isLast result →
      motive buffer)
    (more : ∀ buffer result rest, c.decode buffer = (result, rest) → isLast result = false →
      motive rest → motive buffer) (buffer : Bytes) : motive buffer := by
  induction h : buffer.length using Nat.strongRecOn generalizing buffer with
  | _ n ih =>
    cases decoded : c.decode buffer with
    | mk result rest =>
      cases ends : isLast result with
      | true => exact last buffer result rest decoded ends
      | false =>
        have shorter := length_of_not_last decoded ends
        refine more buffer result rest decoded ends (ih rest.length ?_ rest rfl)
        simp only [headerSize] at shorter
        omega

/-- Reports up to and including the first frame above the limit. -/
def upToOverLimit : List (Except CodecError Packet) → List (Except CodecError Packet)
  | [] => []
  | .ok p :: rest => .ok p :: upToOverLimit rest
  | .error e :: rest => if isOverLimit e then [.error e] else .error e :: upToOverLimit rest

private theorem upToOverLimit_idem (xs : List (Except CodecError Packet)) :
    upToOverLimit (upToOverLimit xs) = upToOverLimit xs := by
  induction xs with
  | nil => rfl
  | cons x xs ih =>
    cases x with
    | ok p => rw [upToOverLimit, upToOverLimit, ih]
    | error e => by_cases above : isOverLimit e <;> simp [upToOverLimit, above, ih]

private theorem upToOverLimit_append (xs ys : List (Except CodecError Packet)) :
    upToOverLimit (xs ++ upToOverLimit ys) = upToOverLimit (xs ++ ys) := by
  induction xs with
  | nil => exact upToOverLimit_idem ys
  | cons x xs ih =>
    cases x with
    | ok p => simp only [List.cons_append, upToOverLimit, ih]
    | error e => simp only [List.cons_append, upToOverLimit, ih]

private theorem upToOverLimit_report (more : isLast result = false)
    (xs : List (Except CodecError Packet)) :
    upToOverLimit ((report? result).toList ++ xs) =
      (report? result).toList ++ upToOverLimit xs := by
  match result, more with
  | .ok (some p), _ => rfl
  | .error e, more => exact if_neg (Bool.eq_false_iff.mp more)

private theorem upToOverLimit_last (last : isLast result) (found : result ≠ .ok none)
    (xs : List (Except CodecError Packet)) :
    upToOverLimit ((report? result).toList ++ xs) = (report? result).toList := by
  match result, last, found with
  | .ok none, _, found => exact absurd rfl found
  | .error e, last, _ => exact if_pos last

private theorem upToOverLimit_drain (c : PacketCodec) (buffer : Bytes) :
    upToOverLimit (c.drain buffer).1 = (c.drain buffer).1 := by
  induction buffer using drain_induction (c := c) with
  | last buffer result rest h last =>
    rw [drain_of_last h last]
    match result, last with
    | .ok none, _ => rfl
    | .error e, last => exact if_pos last
  | more buffer result rest h more ih =>
    rw [drain_of_not_last h more]
    exact (upToOverLimit_report more _).trans (congrArg _ ih)

private theorem drain_append (c : PacketCodec) (buffer more : Bytes) :
    c.drain (buffer ++ more) =
      (upToOverLimit ((c.drain buffer).1 ++ (c.drain ((c.drain buffer).2 ++ more)).1),
        (c.drain ((c.drain buffer).2 ++ more)).2) := by
  induction buffer using drain_induction (c := c) with
  | last buffer result rest h last =>
    obtain rfl := rest_of_last h last
    -- Only where nothing was found can the new bytes make a difference.
    by_cases nothing : result = .ok none
    · subst nothing
      rw [drain_of_last h last]
      exact Prod.ext (upToOverLimit_drain c _).symm rfl
    · have same := drain_of_last (decode_append h nothing more) last
      rw [drain_of_last h last, same]
      exact Prod.ext (upToOverLimit_last last nothing _).symm rfl
  | more buffer result rest h goes ih =>
    have found : result ≠ .ok none := by
      rintro rfl
      cases goes
    rw [drain_of_not_last (decode_append h found more) goes, drain_of_not_last h goes, ih,
      List.append_assoc, upToOverLimit_report goes]

/-- Feeds chunks to the decoder, which is called after each of them until a call is the last one. -/
def feed (c : PacketCodec) : List Bytes → Bytes → List (Except CodecError Packet) × Bytes
  | [], buffer => ([], buffer)
  | chunk :: chunks, buffer =>
    let (first, buffer) := c.drain (buffer ++ chunk)
    let (others, buffer) := c.feed chunks buffer
    (first ++ others, buffer)

/-- Wherever the stream is cut, the reports and the bytes that are left are those of the whole. -/
theorem feed_eq (c : PacketCodec) (chunks : List Bytes) (buffer : Bytes) :
    (upToOverLimit ((c.drain buffer).1 ++ (c.feed chunks (c.drain buffer).2).1),
        (c.feed chunks (c.drain buffer).2).2) = c.drain (buffer ++ chunks.flatten) := by
  induction chunks generalizing buffer with
  | nil =>
    simp only [feed, List.append_nil, List.flatten_nil, upToOverLimit_drain]
  | cons chunk chunks ih =>
    have later := ih ((c.drain buffer).2 ++ chunk)
    obtain ⟨reports, left⟩ := Prod.mk.inj later
    rw [List.flatten_cons, drain_append, ← List.append_assoc, ← later]
    simp only [feed]
    rw [upToOverLimit_append]

def after (c : PacketCodec) (buffer : Bytes) : Nat → Bytes
  | 0 => buffer
  | n + 1 => c.after (c.decode buffer).2 n

def reports (c : PacketCodec) (buffer : Bytes) (n : Nat) : List (Except CodecError Packet) :=
  (List.range n).filterMap fun k => report? (c.decode (c.after buffer k)).1

private theorem reports_succ (c : PacketCodec) (buffer : Bytes) (n : Nat) :
    c.reports buffer (n + 1) =
      (report? (c.decode buffer).1).toList ++ c.reports (c.decode buffer).2 n := by
  rw [reports, List.range_succ_eq_map, List.filterMap_cons, List.filterMap_map, after]
  cases report? (c.decode buffer).1 <;> rfl

private theorem drain_eq_calls (c : PacketCodec) (buffer : Bytes) :
    ∃ n, headerSize * n ≤ buffer.length ∧ isLast (c.decode (c.after buffer n)).1 ∧
      (∀ k < n, isLast (c.decode (c.after buffer k)).1 = false) ∧
      c.drain buffer = (c.reports buffer (n + 1), c.after buffer n) := by
  induction buffer using drain_induction (c := c) with
  | last buffer result rest h last =>
    refine ⟨0, by omega, ?_, by omega, ?_⟩
    · rw [after, h]
      exact last
    · obtain rfl := rest_of_last h last
      rw [drain_of_last h last, reports_succ, after, h]
      simp [reports]
  | more buffer result rest h more ih =>
    obtain ⟨n, few, last, before, row⟩ := ih
    have step : ∀ k, c.after buffer (k + 1) = c.after rest k := fun k => by rw [after, h]
    have shorter := length_of_not_last h more
    refine ⟨n + 1, by rw [Nat.mul_succ]; omega, by rw [step]; exact last, fun k hk => ?_, ?_⟩
    · cases k with
      | zero =>
        rw [after, h]
        exact more
      | succ k =>
        rw [step]
        exact before k (Nat.lt_of_succ_lt_succ hk)
    · rw [drain_of_not_last h more, row, c.reports_succ buffer, step, h]

end Rows

/-- Wherever a stream is cut, the same packets and malformed bodies are reported as from all of it
at once, up to the first frame above the limit, and the same bytes are left.  A call takes one whole
frame and tells what its body is, or it takes nothing and is the last one; so every row of calls
ends. -/
theorem stream_may_be_cut (c : PacketCodec) :
    (∀ chunks, upToOverLimit (c.feed chunks []).1 = (c.drain chunks.flatten).1 ∧
      (c.feed chunks []).2 = (c.drain chunks.flatten).2) ∧
    (∀ buffer,
      if isLast (c.decode buffer).1 then (c.decode buffer).2 = buffer
      else ∃ body : Bytes,
        buffer = Bytes.ofNat headerSize body.length ++ (body ++ (c.decode buffer).2) ∧
          body.length ≤ maxHeaderValue ∧ body.length ≤ c.maxFrameSize ∧
          (c.decode buffer).1 = (c.decodeBody body).map some) ∧
    ∀ buffer, ∃ n, headerSize * n ≤ buffer.length ∧ isLast (c.decode (c.after buffer n)).1 ∧
      (∀ k < n, isLast (c.decode (c.after buffer k)).1 = false) ∧
      c.drain buffer = (c.reports buffer (n + 1), c.after buffer n) := by
  refine ⟨fun chunks => ?_, fun buffer => ?_, c.drain_eq_calls⟩
  · have nothing : c.decode [] = (.ok none, []) := rfl
    have empty : c.drain [] = ([], []) := drain_of_last nothing rfl
    have same := c.feed_eq chunks []
    simp only [empty, List.nil_append] at same
    exact Prod.mk.inj same
  · split_ifs with last
    · exact rest_of_last rfl last
    · exact frame_of_not_last rfl (Bool.eq_false_iff.mpr last)

end WorkBroker.PacketCodec
