import Yonder.Lib.Codec

/-!
# Terminal control messages

The messages of the controller on the terminal control stream: `TerminalResize`, five bytes, and
`TerminalComplete`, one byte. The decoder of the first has the errors of the source; the second is its
one byte.
-/

namespace Yonder.Wire

open Lib

/-- The protocol errors, with the fields that can be invalid in the messages here, in the audit
messages and in the small ones. -/
inductive ProtocolError where
  | invalidLength (expected actual : Nat)
  | unknownTag (tag : UInt8)
  | invalidTerminalDimension
  | invalidReserved
  | invalidTerminalValue
  | invalidLocator
  | invalidRetryAfter
  | invalidPeerId
  | invalidEnterpriseProvider
  | invalidEnterpriseProviders
  | invalidAuthorizationUrl
  | trailingBytes
deriving DecidableEq, Repr

/-- A terminal size with nonzero dimensions. -/
structure TerminalSize where
  columns : UInt16
  rows : UInt16
  columns_ne : columns ≠ 0
  rows_ne : rows ≠ 0
deriving DecidableEq

def TerminalSize.new (columns rows : UInt16) : Option TerminalSize :=
  if h : columns ≠ 0 ∧ rows ≠ 0 then some ⟨columns, rows, h.1, h.2⟩ else none

def controlLen : Nat := 5

/-- The columns and the rows of a size. -/
def sizeCodec : Codec TerminalSize :=
  (Codec.u16.prod Codec.u16).partialIso (fun (columns, rows) => TerminalSize.new columns rows)
    (fun size => (size.columns, size.rows)) (by
      rintro ⟨columns, rows⟩ ⟨c, r, hc, hr⟩
      simp only [TerminalSize.new]
      split_ifs with h
      · simp
        tauto
      · simp
        rintro rfl rfl
        exact h ⟨hc, hr⟩)

/-- `decode_sized_control`. -/
def decodeSizedControl (message : Bytes) (tag : UInt8) : Except ProtocolError TerminalSize :=
  if message.length ≠ controlLen then .error (.invalidLength controlLen message.length)
  else if message.head? ≠ some tag then .error (.unknownTag (message.headD 0))
  else
    match sizeCodec.dec message.tail with
    | none => .error .invalidTerminalDimension
    | some size => .ok size

namespace TerminalResize

/-- The tag of a resize message. -/
def tag : UInt8 := 0x02

def encode (size : TerminalSize) : Bytes := tag :: sizeCodec.enc size

def decode (message : Bytes) : Except ProtocolError TerminalSize := decodeSizedControl message tag

end TerminalResize

@[simp] theorem TerminalResize.length_encode (size : TerminalSize) :
    (TerminalResize.encode size).length = controlLen := by
  rw [TerminalResize.encode, List.length_cons, sizeCodec.enc_length]
  rfl

/-- Every size has a resize message that is read back. -/
theorem TerminalResize.decode_encode (size : TerminalSize) :
    TerminalResize.decode (TerminalResize.encode size) = .ok size := by
  have hlength : ¬ (TerminalResize.encode size).length ≠ controlLen := by
    rw [TerminalResize.length_encode]
    exact not_not.2 rfl
  have htag : ¬ (TerminalResize.encode size).head? ≠ some TerminalResize.tag := not_not.2 rfl
  have hsize : sizeCodec.dec (TerminalResize.encode size).tail = some size :=
    sizeCodec.dec_enc (show sizeCodec.ok size from ⟨Codec.u16_ok _, Codec.u16_ok _⟩)
  rw [TerminalResize.decode, decodeSizedControl, if_neg hlength, if_neg htag, hsize]

/-- The one byte of `TerminalComplete`. -/
def terminalComplete : UInt8 := 0x03

end Yonder.Wire
