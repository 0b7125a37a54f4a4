import Mathlib

/-!
# The buffer shared by the packet parsers

`Packet_parser::add_and_parse` appends what was received to a buffer and lets
the concrete parser consume complete packets from its front.  The concrete
parsers differ in how a call can end: it returns, an exception leaves it, or a
loop in it never ends.
-/

namespace SensorHub

/-- How a call of the source ends. -/
inductive Outcome where
  | returned
  | threw
  | hung
  deriving DecidableEq, Repr

/-- More data than this left in the buffer means that something is wrong. -/
def maxBuffered : ℕ := 0x1000

/-- The first part of `add_and_parse`: an overfull buffer is cleared before the
received data is appended. -/
def addToBuffer {α : Type} (buffer received : List α) : List α :=
  (if buffer.length > maxBuffered then [] else buffer) ++ received

theorem addToBuffer_of_le {α : Type} {buffer : List α}
    (hsize : buffer.length ≤ maxBuffered) (received : List α) :
    addToBuffer buffer received = buffer ++ received := by
  rw [addToBuffer, if_neg (not_lt.mpr hsize)]

/-- Conversion of an unsigned number of that many bits to a signed one. -/
def toSigned (bits value : ℕ) : ℤ :=
  (value : ℤ).bmod (2 ^ bits)

end SensorHub
