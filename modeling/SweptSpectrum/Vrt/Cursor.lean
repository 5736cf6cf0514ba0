import SweptSpectrum.Wire.Bytes
import SweptSpectrum.Vrt.Error

/-!
Reading big-endian words from a byte buffer, front to back.

A `Cursor` is the unread rest of a buffer and how far into the buffer it starts. Reading
`width` bytes past the end fails with `frameIncomplete`, naming the offset the read would
have reached and the buffer's whole length.
-/

namespace SweptSpectrum.Vrt

open Wire

/-- The unread part of a buffer of `size` bytes, starting at `offset`. -/
structure Cursor where
  rest : Bytes
  offset : Nat
  size : Nat
  deriving Repr

/-- A reader of a buffer: a state of the cursor that may fail. -/
abbrev Decoder := StateT Cursor (Except LinkError)

/-- A cursor at the start of a buffer. -/
def Cursor.start (buf : Bytes) : Cursor := ⟨buf, 0, buf.length⟩

/-- Takes the next `width` bytes. -/
def takeBytes (width : Nat) : Decoder Bytes := fun c =>
  let taken := c.rest.take width
  if taken.length = width then
    .ok (taken, ⟨c.rest.drop width, c.offset + width, c.size⟩)
  else .error (.frameIncomplete (c.offset + width) c.size)

/-- Reads an unsigned big-endian word of `width` bytes. -/
def readWord (width : Nat) : Decoder Nat := do
  return beValue (← takeBytes width)

/-- Reads a signed big-endian word of `width` bytes. -/
def readSigned (width : Nat) : Decoder Int := do
  return toSigned (8 * width) (← readWord width)

/-- Runs a reader from the start of a buffer, keeping only its result. -/
def Decoder.run' {α : Type} (d : Decoder α) (buf : Bytes) : Except LinkError α :=
  (d.run (Cursor.start buf)).map Prod.fst

theorem takeBytes_short (width : Nat) (c : Cursor) (h : c.rest.length < width) :
    takeBytes width c = .error (.frameIncomplete (c.offset + width) c.size) := by
  have : min width c.rest.length ≠ width := by omega
  simp [takeBytes, List.length_take, this]

end SweptSpectrum.Vrt
