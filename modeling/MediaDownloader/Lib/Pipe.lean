import Mathlib.Data.List.Basic

/-!
# Queues over a bounded pipe

A writer puts messages into a buffer of its own; a feeder moves them, byte by
byte, into a pipe that holds at most `K` unread bytes.  A message is complete
with its last byte.

* `Channel.bytes`: what was put and not yet read, in order;
* `bytes_put`, `bytes_flush`: putting appends to it, the feeder leaves it alone.
-/

namespace Interaction

/-- An item and the number of bytes it takes in the pipe. -/
structure Message (α : Type) where
  item : α
  size : Nat
  size_pos : 0 < size

variable {α : Type}

/-- The bytes of a message: the last one completes it. -/
def Message.frame (m : Message α) : List (Option α) :=
  List.replicate (m.size - 1) none ++ [some m.item]

@[simp] theorem Message.frame_length (m : Message α) : m.frame.length = m.size := by
  have := m.size_pos
  simp only [frame, List.length_append, List.length_replicate, List.length_singleton]
  omega

/-- Bytes the feeder still holds, and unread bytes in the pipe. -/
structure Channel (α : Type) where
  feeder : List (Option α)
  pipe : List (Option α)

namespace Channel

def empty : Channel α := ⟨[], []⟩

def put (c : Channel α) (m : Message α) : Channel α := { c with feeder := c.feeder ++ m.frame }

/-- All bytes, those in the pipe first. -/
def bytes (c : Channel α) : List (Option α) := c.pipe ++ c.feeder

/-- The first complete item in the pipe. -/
def firstItem (c : Channel α) : Option α := c.pipe.findSome? id

@[simp] theorem bytes_put (c : Channel α) (m : Message α) :
    (c.put m).bytes = c.bytes ++ m.frame := by
  simp [put, bytes]

theorem bytes_flush {c : Channel α} {b : Option α} {rest : List (Option α)}
    (h : c.feeder = b :: rest) : (Channel.mk rest (c.pipe ++ [b])).bytes = c.bytes := by
  simp [bytes, h]

/-- A pipe that holds a whole message hands it out. -/
theorem firstItem_frame (m : Message α) : (Channel.mk [] m.frame).firstItem = some m.item := by
  simp [firstItem, Message.frame, List.findSome?_append]

end Channel

end Interaction
