/-
Module: CommandShell.Sink
Purpose: Where the shell writes, and what arrives there.
Trusted boundary: none
Main exports:
  Sink, Sink.write, Write, Sink.written
-/
import CommandShell.IoError
import CommandShell.Path

namespace CommandShell

/-- A stream the shell writes to.  It takes `room` bytes more, or any number; flushing it may
fail. -/
structure Sink where
  room : Option Nat := none
  flushes : Bool := true
deriving Repr, DecidableEq, Inhabited

/-- An attempt to write: the bytes offered and those that arrived, which come first in them. -/
structure Write where
  offered : Bytes
  delivered : Bytes
deriving Repr, DecidableEq, Inhabited

/-- Everything arrived. -/
def Write.complete (write : Write) : Bool :=
  write.delivered.length == write.offered.length

namespace Sink

/-- What arrives of the bytes. -/
def write (sink : Sink) (bytes : Bytes) : Write :=
  match sink.room with
  | none => ⟨bytes, bytes⟩
  | some room => ⟨bytes, bytes.take room⟩

/-- The stream after the bytes have been offered to it. -/
def written (sink : Sink) (bytes : Bytes) : Sink :=
  { sink with room := sink.room.map fun room => room - bytes.length }

/-- A write is complete if and only if all of it finds room. -/
theorem complete_write_iff (sink : Sink) (bytes : Bytes) :
    (sink.write bytes).complete = true ↔ ∀ room, sink.room = some room → bytes.length ≤ room := by
  rcases sink with ⟨_ | room, flushes⟩
  · simp [write, Write.complete]
  · simp only [write, Write.complete, List.length_take, beq_iff_eq, Option.some.injEq,
      forall_eq']
    omega

end Sink
end CommandShell
