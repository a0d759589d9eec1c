import WorkBroker.Wire.PacketCodec
/-!
Codecs at work on a buffer that is kept from call to call.  What is written goes to the end of the
buffer, what is read is taken from its front.  A call that fails does not by itself undo what it has
done to the buffer: a codec checks before it writes, and takes back what it should not have written.
-/

set_option autoImplicit false
set_option relaxedAutoImplicit false

namespace WorkBroker

/-- Work on a buffer.  What has been done to the buffer outlives an error. -/
abbrev Buffered := ExceptT CodecError (StateM Bytes)

namespace Buffered

/-- What comes of some work on a buffer, and the buffer that it leaves. -/
def on {α : Type} (work : Buffered α) (buffer : Bytes) : Except CodecError α × Bytes :=
  StateT.run (m := Id) (ExceptT.run work) buffer

def write (bytes : Bytes) : Buffered Unit := modify (· ++ bytes)

def overwrite (start : Nat) (bytes : Bytes) : Buffered Unit :=
  modify fun buffer => buffer.take start ++ bytes ++ buffer.drop (start + bytes.length)

def takeFront (count : Nat) : Buffered Bytes := do
  let buffer ← get
  set (buffer.drop count)
  return buffer.take count

def size : Buffered Nat := return (← get).length

def truncate (size : Nat) : Buffered Unit := modify (·.take size)

section Steps

variable {α β : Type} {a : α} {e : CodecError} {work : Buffered α} {next : α → Buffered β}
  {buffer bytes : Bytes}

@[simp] theorem on_pure : (pure a : Buffered α).on buffer = (.ok a, buffer) := rfl

@[simp] theorem on_throw : (throw e : Buffered α).on buffer = (.error e, buffer) := rfl

@[simp] theorem on_bind : (work >>= next).on buffer =
    match work.on buffer with
    | (.ok a, rest) => (next a).on rest
    | (.error e, rest) => (.error e, rest) := by
  have step : (work >>= next).on buffer =
      Id.run ((ExceptT.bindCont next (work.on buffer).1).run (work.on buffer).2) := rfl
  rw [step]
  rcases work.on buffer with ⟨_ | _, _⟩ <;> rfl

@[simp] theorem on_get : (get : Buffered Bytes).on buffer = (.ok buffer, buffer) := rfl

@[simp] theorem on_lift (result : Except CodecError α) :
    (liftM result : Buffered α).on buffer = (result, buffer) := by
  cases result <;> rfl

@[simp] theorem on_tryCatch {work : Buffered α} {handle : CodecError → Buffered α} :
    (tryCatch work handle).on buffer =
      match work.on buffer with
      | (.ok a, rest) => (.ok a, rest)
      | (.error e, rest) => (handle e).on rest := by
  simp only [on, tryCatch, tryCatchThe, MonadExceptOf.tryCatch, ExceptT.tryCatch, ExceptT.run,
    StateT.run, ExceptT.mk, bind, StateT.bind]
  rcases work buffer with ⟨_ | _, _⟩ <;> rfl

@[simp] theorem on_write : (write bytes).on buffer = (.ok (), buffer ++ bytes) := rfl

@[simp] theorem on_overwrite {start : Nat} : (overwrite start bytes).on buffer =
    (.ok (), buffer.take start ++ bytes ++ buffer.drop (start + bytes.length)) := rfl

@[simp] theorem on_takeFront {count : Nat} :
    (takeFront count).on buffer = (.ok (buffer.take count), buffer.drop count) := rfl

@[simp] theorem on_size : size.on buffer = (.ok buffer.length, buffer) := rfl

@[simp] theorem on_truncate {size : Nat} : (truncate size).on buffer = (.ok (), buffer.take size) :=
  rfl

end Steps

end Buffered

namespace FrameCodec

open Buffered

/-- Appends the frame of a payload, which is checked before anything is written. -/
def append (c : FrameCodec) (payload : Bytes) : Buffered Unit := do
  c.checkSize payload.length
  write (Bytes.ofNat headerSize payload.length)
  write payload

/-- Takes a frame that has to be there as a whole.  A header that was read is gone, whatever becomes
of the rest. -/
def takeWhole (c : FrameCodec) : Buffered Bytes := do
  let available ← size
  if available < headerSize then throw (.malformed (.headerTooShort available))
  let declared := Bytes.toNat (← takeFront headerSize)
  c.checkDeclared declared
  let available ← size
  if available < declared then throw (.malformed (.payloadTooShort declared available))
  takeFront declared

/-- Takes the next frame if it is there as a whole, and nothing while it is not. -/
def takeNext (c : FrameCodec) : Buffered (Option Bytes) := do
  let buffer ← get
  if buffer.length < headerSize then return none
  let declared := declaredLength buffer
  c.checkDeclared declared
  if buffer.length < headerSize + declared then return none
  let _ ← takeFront headerSize
  return some (← takeFront declared)

end FrameCodec

namespace PacketCodec

open Buffered

def appendBody (c : PacketCodec) (p : Packet) : Buffered Unit := do
  write [p.typeByte]
  write (fields p)
  match payload? p with
  | none => return ()
  | some payload => c.frame.append payload

/-- Appends the transport frame of a packet: room for a header, the body, and then the header.  A
body that cannot be written, or is longer than a frame may be, is taken back. -/
def append (c : PacketCodec) (p : Packet) : Buffered Unit := do
  c.validate p
  let start ← size
  write (Bytes.ofNat headerSize 0)
  try c.appendBody p
  catch e =>
    truncate start
    throw e
  let length := (← size) - start - headerSize
  if length > c.maxFrameSize then
    truncate start
    throw (.oversize length c.maxFrameSize)
  overwrite start (Bytes.ofNat headerSize length)

end PacketCodec
end WorkBroker
