/-!
Places where a text may be cut.  A cut is given in bytes of the text's encoding, and it must not tear
a character.  So whoever wants at most so many bytes of a text steps back from there to the last
place between two characters.
-/

set_option autoImplicit false
set_option relaxedAutoImplicit false

namespace WorkBroker.Text

/-- Whether a text may be cut behind its first `n` bytes: these are all of it, or the next byte is
the first one of a character. -/
def IsBoundary (s : String) (n : Nat) : Prop := String.Pos.Raw.isValid s ⟨n⟩ = true

instance (s : String) : DecidablePred (IsBoundary s) :=
  fun n => inferInstanceAs (Decidable (String.Pos.Raw.isValid s ⟨n⟩ = true))

/-- The boundary that is reached from `cut` by steps of one byte back. -/
def lastBoundary (s : String) : Nat → Nat
  | 0 => 0
  | cut + 1 => if IsBoundary s (cut + 1) then cut + 1 else lastBoundary s cut

private theorem isBoundary_zero (s : String) : IsBoundary s 0 :=
  String.Pos.Raw.isValid_eq_true_iff.mpr String.Pos.Raw.isValid_zero

theorem isBoundary_lastBoundary (s : String) (cut : Nat) : IsBoundary s (lastBoundary s cut) := by
  induction cut with
  | zero => exact isBoundary_zero s
  | succ cut ih =>
    rw [lastBoundary]
    split
    · assumption
    · exact ih

/-- The first `n` bytes of a text, where no character is torn. -/
def cutAt (s : String) (n : Nat) (whole : IsBoundary s n) : String :=
  (s.sliceTo (s.pos ⟨n⟩ (String.Pos.Raw.isValid_eq_true_iff.mp whole))).copy

end WorkBroker.Text
