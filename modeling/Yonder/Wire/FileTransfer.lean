import Yonder.Lib.Bytes

/-!
# File transfer messages and the wire session

The messages of a file transfer and `WireSession`, which tracks for one side and one direction which
message may be sent or received next. The tables of `send` and `receive` are those of the source, arm
by arm; a message's fields are not looked at.
-/

namespace Yonder.Wire

open Lib

inductive FileTransferErrorCode where
  | busy
  | invalidRequest
  | invalidPathEncoding
  | invalidFileName
  | pathTooLong
  | sourceNotFound
  | sourceNotRegularFile
  | destinationExists
  | destinationParentNotFound
  | destinationNotDirectory
  | permissionDenied
  | noSpace
  | fileTooLargeForPlatform
  | readFailed
  | writeFailed
  | sizeMismatch
  | digestMismatch
  | sourceChanged
  | commitFailed
  | cancelled
  | sessionClosing
  | unsupported
deriving DecidableEq, Repr

abbrev Sha256Digest := FixedBytes 32

inductive FileTransferMessage where
  | uploadOpen (destination fileName : String) (declaredSize : UInt64)
  | downloadOpen (source : String)
  | downloadOffer (fileName : String) (declaredSize : UInt64)
  | ready
  | data (bytes : Bytes)
  | finish (actualSize : UInt64) (digest : Sha256Digest)
  | committed
  | cancel
  | error (code : FileTransferErrorCode)
deriving DecidableEq

inductive TransferSide where
  | controller
  | host
deriving DecidableEq, Repr

inductive TransferDirection where
  | upload
  | download
deriving DecidableEq, Repr

inductive WireState where
  | awaitingOpen
  | openSent
  | awaitingOffer
  | awaitingReady
  | transferring
  | awaitingCommitted
  | committed
  | closed
deriving DecidableEq, Repr

/-- `is_closed`: the two terminal states. -/
def WireState.isClosed : WireState → Bool
  | .committed => true
  | .closed => true
  | _ => false

inductive WireStateError where
  | unexpectedMessage
  | alreadyClosed
deriving DecidableEq, Repr

/-- The table of `send`: the state after a message that the side may send. -/
def sendState : TransferDirection → TransferSide → WireState → FileTransferMessage →
    Except WireStateError WireState
  | .upload, .controller, .awaitingOpen, m => match m with
      | .uploadOpen .. => .ok .openSent
      | _ => .error .unexpectedMessage
  | .upload, .controller, .openSent, m => match m with
      | .ready => .ok .transferring
      | .cancel => .ok .closed
      | .error _ => .ok .closed
      | _ => .error .unexpectedMessage
  | .upload, .controller, .transferring, m => match m with
      | .data _ => .ok .transferring
      | .finish .. => .ok .awaitingCommitted
      | .cancel => .ok .closed
      | .error _ => .ok .closed
      | _ => .error .unexpectedMessage
  | .upload, .controller, .awaitingCommitted, _ => .error .unexpectedMessage
  | .upload, .host, .awaitingOpen, _ => .error .unexpectedMessage
  | .upload, .host, .openSent, m => match m with
      | .ready => .ok .transferring
      | _ => .error .unexpectedMessage
  | .upload, .host, .transferring, m => match m with
      | .error _ => .ok .closed
      | _ => .error .unexpectedMessage
  | .upload, .host, .awaitingCommitted, m => match m with
      | .committed => .ok .committed
      | _ => .error .unexpectedMessage
  | .download, .controller, .awaitingOpen, m => match m with
      | .downloadOpen _ => .ok .awaitingOffer
      | _ => .error .unexpectedMessage
  | .download, .controller, .awaitingOffer, m => match m with
      | .cancel => .ok .closed
      | .error _ => .ok .closed
      | _ => .error .unexpectedMessage
  | .download, .controller, .awaitingReady, m => match m with
      | .ready => .ok .transferring
      | .cancel => .ok .closed
      | .error _ => .ok .closed
      | _ => .error .unexpectedMessage
  | .download, .controller, .transferring, m => match m with
      | .data _ => .ok .transferring
      | .finish .. => .ok .awaitingCommitted
      | .cancel => .ok .closed
      | .error _ => .ok .closed
      | _ => .error .unexpectedMessage
  | .download, .controller, .awaitingCommitted, m => match m with
      | .committed => .ok .committed
      | _ => .error .unexpectedMessage
  | .download, .host, .awaitingOpen, _ => .error .unexpectedMessage
  | .download, .host, .openSent, m => match m with
      | .downloadOffer .. => .ok .awaitingReady
      | _ => .error .unexpectedMessage
  | .download, .host, .awaitingReady, _ => .error .unexpectedMessage
  | .download, .host, .transferring, m => match m with
      | .data _ => .ok .transferring
      | .finish .. => .ok .awaitingCommitted
      | .error _ => .ok .closed
      | _ => .error .unexpectedMessage
  | .download, .host, .awaitingCommitted, _ => .error .unexpectedMessage
  | _, _, _, _ => .error .alreadyClosed

/-- The table of `receive`. -/
def receiveState : TransferDirection → TransferSide → WireState → FileTransferMessage →
    Except WireStateError WireState
  | .upload, .controller, .awaitingOpen, _ => .error .unexpectedMessage
  | .upload, .controller, .openSent, m => match m with
      | .ready => .ok .transferring
      | .error _ => .ok .closed
      | _ => .error .unexpectedMessage
  | .upload, .controller, .transferring, _ => .error .unexpectedMessage
  | .upload, .controller, .awaitingCommitted, m => match m with
      | .committed => .ok .committed
      | .error _ => .ok .closed
      | _ => .error .unexpectedMessage
  | .upload, .host, .awaitingOpen, m => match m with
      | .uploadOpen .. => .ok .openSent
      | _ => .error .unexpectedMessage
  | .upload, .host, .openSent, m => match m with
      | .cancel => .ok .closed
      | .error _ => .ok .closed
      | _ => .error .unexpectedMessage
  | .upload, .host, .transferring, m => match m with
      | .data _ => .ok .transferring
      | .finish .. => .ok .awaitingCommitted
      | .cancel => .ok .closed
      | .error _ => .ok .closed
      | _ => .error .unexpectedMessage
  | .upload, .host, .awaitingCommitted, _ => .error .unexpectedMessage
  | .download, .controller, .awaitingOpen, _ => .error .unexpectedMessage
  | .download, .controller, .awaitingOffer, m => match m with
      | .downloadOffer .. => .ok .awaitingReady
      | .error _ => .ok .closed
      | _ => .error .unexpectedMessage
  | .download, .controller, .awaitingReady, _ => .error .unexpectedMessage
  | .download, .controller, .transferring, m => match m with
      | .data _ => .ok .transferring
      | .finish .. => .ok .awaitingCommitted
      | .error _ => .ok .closed
      | _ => .error .unexpectedMessage
  | .download, .controller, .awaitingCommitted, _ => .error .unexpectedMessage
  | .download, .host, .awaitingOpen, m => match m with
      | .downloadOpen _ => .ok .openSent
      | _ => .error .unexpectedMessage
  | .download, .host, .openSent, _ => .error .unexpectedMessage
  | .download, .host, .awaitingReady, m => match m with
      | .ready => .ok .transferring
      | .cancel => .ok .closed
      | .error _ => .ok .closed
      | _ => .error .unexpectedMessage
  | .download, .host, .transferring, _ => .error .unexpectedMessage
  | .download, .host, .awaitingCommitted, m => match m with
      | .committed => .ok .committed
      | .cancel => .ok .closed
      | .error _ => .ok .closed
      | _ => .error .unexpectedMessage
  | _, _, _, _ => .error .alreadyClosed

structure WireSession where
  direction : TransferDirection
  side : TransferSide
  state : WireState
deriving DecidableEq, Repr

namespace WireSession

def new (direction : TransferDirection) (side : TransferSide) : WireSession :=
  ⟨direction, side, .awaitingOpen⟩

/-- `send`; an error leaves the session as it is. -/
def send (s : WireSession) (m : FileTransferMessage) : Except WireStateError WireSession :=
  (sendState s.direction s.side s.state m).map fun state => { s with state := state }

/-- `receive`; an error leaves the session as it is. -/
def receive (s : WireSession) (m : FileTransferMessage) : Except WireStateError WireSession :=
  (receiveState s.direction s.side s.state m).map fun state => { s with state := state }

def close (s : WireSession) : WireSession := { s with state := .closed }

def isClosed (s : WireSession) : Bool := s.state.isClosed

end WireSession

end Yonder.Wire
