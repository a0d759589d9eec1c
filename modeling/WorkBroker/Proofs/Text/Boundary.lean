import Mathlib.Data.Nat.Find
import WorkBroker.Bytes
import WorkBroker.Text.Boundary
/-!
What a cut at the last boundary leaves of a text.  The boundaries of a text are the sizes of its
beginnings.  Since a character takes at most four bytes, the boundary that is found by stepping back
is at most three bytes away, and what stands before it is the longest beginning that has room.
-/

set_option autoImplicit false
set_option relaxedAutoImplicit false

namespace WorkBroker.Text

variable {s front rest : String} {n cut : Nat}

private theorem isBoundary_iff :
    IsBoundary s n ↔ ∃ front rest, s = front ++ rest ∧ Bytes.sizeOfText front = n := by
  rw [IsBoundary, String.Pos.Raw.isValid_eq_true_iff, String.Pos.Raw.isValid_iff_exists_append]
  simp only [Bytes.sizeOfText, String.Pos.Raw.ext_iff, String.byteIdx_rawEndPos, eq_comm]

private theorem lastBoundary_eq_findGreatest (s : String) (cut : Nat) :
    lastBoundary s cut = Nat.findGreatest (IsBoundary s) cut := by
  induction cut with
  | zero => rfl
  | succ cut ih => rw [lastBoundary, Nat.findGreatest_succ, ih]

private theorem lastBoundary_le (s : String) (cut : Nat) : lastBoundary s cut ≤ cut := by
  rw [lastBoundary_eq_findGreatest]
  exact Nat.findGreatest_le cut

private theorem le_lastBoundary (whole : IsBoundary s n) (le : n ≤ cut) :
    n ≤ lastBoundary s cut := by
  rw [lastBoundary_eq_findGreatest]
  exact Nat.le_findGreatest le whole

/-- Fewer than four steps back there is a boundary, for the character behind the last one reaches
beyond the cut. -/
theorem le_lastBoundary_add_three (within : cut ≤ Bytes.sizeOfText s) :
    cut ≤ lastBoundary s cut + 3 := by
  obtain ⟨front, rest, whole, size⟩ := isBoundary_iff.mp (isBoundary_lastBoundary s cut)
  obtain ⟨text, rfl⟩ := rest.exists_eq_ofList
  cases text with
  | nil =>
    have all : Bytes.sizeOfText s = lastBoundary s cut := by
      rw [← size, whole, String.ofList_nil, String.append_empty]
    omega
  | cons c others =>
    have further : IsBoundary s (lastBoundary s cut + c.utf8Size) := by
      refine isBoundary_iff.mpr ⟨front.push c, String.ofList others, ?_, ?_⟩
      · rw [whole, String.ofList_cons, ← String.append_assoc, String.append_singleton]
      · rw [← size]
        exact String.utf8ByteSize_push
    have beyond : cut < lastBoundary s cut + c.utf8Size := by
      apply Nat.lt_of_not_le
      intro reached
      have no_further := le_lastBoundary further reached
      have some_byte := c.utf8Size_pos
      omega
    have four := c.utf8Size_le_four
    omega

/-- The search leaves a place only if a cut there would tear a character, and it ends after at most
three steps. -/
theorem exists_steps (within : cut ≤ Bytes.sizeOfText s) :
    ∃ steps ≤ 3, steps ≤ cut ∧ lastBoundary s cut = cut - steps ∧
      ∀ k < steps, ¬IsBoundary s (cut - k) := by
  have back := lastBoundary_le s cut
  have near := le_lastBoundary_add_three within
  refine ⟨cut - lastBoundary s cut, by omega, by omega, by omega, ?_⟩
  intro k left
  have passed : lastBoundary s cut < cut - k := by omega
  rw [lastBoundary_eq_findGreatest] at passed
  exact Nat.findGreatest_is_greatest passed (Nat.sub_le cut k)

-- Three steps are needed in front of the last byte of a character that takes four.
example : lastBoundary "é𝄞" 5 = 2 := by decide

private theorem splits_of_append (whole : s = front ++ rest) :
    ∃ p : s.Pos, p.Splits front rest ∧ p.offset.byteIdx = Bytes.sizeOfText front := by
  have valid : String.Pos.Raw.IsValid s front.rawEndPos :=
    String.Pos.Raw.isValid_iff_exists_append.mpr ⟨front, rest, whole, rfl⟩
  exact ⟨s.pos _ valid, ⟨whole, rfl⟩, rfl⟩

theorem cutAt_append_rest (s : String) (n : Nat) (whole : IsBoundary s n) :
    ∃ rest, s = cutAt s n whole ++ rest ∧ Bytes.sizeOfText (cutAt s n whole) = n := by
  obtain ⟨rest, split⟩ := String.copy_sliceTo_eq_iff_exists_splits.mp
    (rfl : _ = cutAt s n whole)
  have size : n = Bytes.sizeOfText (cutAt s n whole) :=
    congrArg String.Pos.Raw.byteIdx split.offset_eq_rawEndPos
  exact ⟨rest, split.eq_append, size.symm⟩

theorem toText?_take (s : String) (n : Nat) (whole : IsBoundary s n) :
    Bytes.toText? ((Bytes.ofText s).take n) = some (cutAt s n whole) := by
  obtain ⟨rest, parts, size⟩ := cutAt_append_rest s n whole
  have bytes : Bytes.ofText s = Bytes.ofText (cutAt s n whole) ++ Bytes.ofText rest := by
    rw [← Bytes.ofText_append, ← parts]
  have front : (Bytes.ofText s).take n = Bytes.ofText (cutAt s n whole) := by
    rw [bytes]
    apply List.take_left'
    rw [Bytes.length_ofText, size]
  rw [front, Bytes.toText?_ofText]

/-- The longest beginning of a text, in whole characters, that takes at most `room` bytes. -/
structure IsLongestWithin (room : Nat) (s front : String) : Prop where
  beginning : ∃ rest, s = front ++ rest
  size_le : Bytes.sizeOfText front ≤ room
  longest : ∀ other rest, s = other ++ rest → Bytes.sizeOfText other ≤ room →
    ∃ more, front = other ++ more

private theorem exists_append_of_size_le {other more : String} (whole : s = front ++ rest)
    (again : s = other ++ more) (le : Bytes.sizeOfText other ≤ Bytes.sizeOfText front) :
    ∃ between, front = other ++ between := by
  obtain ⟨p, split, at_front⟩ := splits_of_append whole
  obtain ⟨q, split', at_other⟩ := splits_of_append again
  have before : q ≤ p := by
    rw [String.Pos.le_iff, String.Pos.Raw.le_iff]
    omega
  obtain ⟨between, same, -⟩ := (split'.le_iff_exists_eq_append split).mp before
  exact ⟨between, same⟩

theorem isLongestWithin_self (short : Bytes.sizeOfText s ≤ n) : IsLongestWithin n s s where
  beginning := ⟨"", String.append_empty.symm⟩
  size_le := short
  longest := fun _ rest whole _ => ⟨rest, whole⟩

/-- A cut at the last boundary within some room takes no more away than it has to. -/
theorem isLongestWithin_cutAt (s : String) (room : Nat) :
    IsLongestWithin room s
      (cutAt s (lastBoundary s room) (isBoundary_lastBoundary s room)) := by
  obtain ⟨rest, whole, size⟩ :=
    cutAt_append_rest s (lastBoundary s room) (isBoundary_lastBoundary s room)
  refine ⟨⟨rest, whole⟩, ?_, ?_⟩
  · rw [size]
    exact lastBoundary_le s room
  · intro other more again fits
    have boundary := isBoundary_iff.mpr ⟨other, more, again, rfl⟩
    apply exists_append_of_size_le whole again
    rw [size]
    exact le_lastBoundary boundary fits

end WorkBroker.Text
