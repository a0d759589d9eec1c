/-!
Byte strings and the big-endian numbers and texts written in them.  The main statement is that a
number written in `width` bytes reads back modulo the number of values of so many bytes.
-/

set_option autoImplicit false
set_option relaxedAutoImplicit false

namespace WorkBroker

/-- A finite string of bytes, first byte first. -/
abbrev Bytes := List UInt8

namespace Bytes

def valueCount : Nat → Nat
  | 0 => 1
  | width + 1 => 256 * valueCount width

/-- The number `n` in exactly `width` bytes, most significant byte first, modulo the number of their
values. -/
def ofNat : Nat → Nat → Bytes
  | 0, _ => []
  | width + 1, n => UInt8.ofNat (n / valueCount width % 256) :: ofNat width n

/-- The number that the bytes write, most significant byte first. -/
def toNat : Bytes → Nat
  | [] => 0
  | b :: rest => b.toNat * valueCount rest.length + toNat rest

/-- The UTF-8 encoding of a text. -/
def ofText (s : String) : Bytes :=
  s.toUTF8.data.toList

/-- The text that the bytes encode, if they are well-formed UTF-8. -/
def toText? (b : Bytes) : Option String :=
  String.fromUTF8? ⟨b.toArray⟩

def sizeOfText (s : String) : Nat :=
  s.utf8ByteSize

/-- The order of texts by their encoded bytes. -/
def textLe (a b : String) : Bool :=
  !decide (ofText b < ofText a)

@[simp] theorem length_ofNat (width n : Nat) : (ofNat width n).length = width := by
  induction width with
  | zero => rfl
  | succ width ih => simp [ofNat, ih]

theorem toNat_ofNat (width n : Nat) : toNat (ofNat width n) = n % valueCount width := by
  induction width with
  | zero => exact (Nat.mod_one n).symm
  | succ width ih =>
    have hbyte : (UInt8.ofNat (n / valueCount width % 256)).toNat = n / valueCount width % 256 :=
      UInt8.toNat_ofNat_of_lt' (Nat.mod_lt _ (by decide))
    rw [ofNat, toNat, hbyte, length_ofNat, ih, valueCount, Nat.mul_comm 256, Nat.mod_mul]
    rw [Nat.add_comm, Nat.mul_comm]

theorem toText?_ofText (s : String) : toText? (ofText s) = some s := by
  simp [toText?, ofText, String.fromUTF8?, String.fromUTF8, s.isValidUTF8]

theorem length_ofText (s : String) : (ofText s).length = sizeOfText s := by
  rw [ofText, Array.length_toList]
  rfl

theorem ofText_append (s t : String) : ofText (s ++ t) = ofText s ++ ofText t := by
  simp [ofText]

theorem sizeOfText_append (s t : String) : sizeOfText (s ++ t) = sizeOfText s + sizeOfText t :=
  String.utf8ByteSize_append

end Bytes
end WorkBroker
