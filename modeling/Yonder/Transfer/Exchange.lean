import Yonder.Lib.Framed
import Yonder.Lib.Machine
import Yonder.Transfer.Receiver
import Yonder.Transfer.Sender

/-!
# A transfer between two endpoints

The two sides and the substream between them. The sides take their steps in any order, and either
direction of the substream may be cut after any byte. A side that has ended writes nothing more.
-/

namespace Yonder.Transfer

open Lib Wire

structure Exchange where
  sender : Sender
  receiver : Receiver
  toReceiver : Link
  toSender : Link

inductive ExchangeAction where
  | sender (met : SenderMet)
  | receiver (met : ReceiverMet)
  /-- The substream is cut, with so many bytes still delivered in each direction. -/
  | cut (toReceiver toSender : Nat)

def SenderPhase.isEnded : SenderPhase → Bool
  | .ended _ => true
  | _ => false

def ReceiverPhase.isEnded : ReceiverPhase → Bool
  | .ended _ => true
  | _ => false

/-- The writer has dropped the stream. -/
def Link.endIf (l : Link) (ended : Bool) : Link := { l with closed := l.closed || ended }

def Link.cut (l : Link) (delivered : Nat) : Link := ⟨l.bytes.take delivered, true⟩

/-- What the user asked for. -/
inductive TransferRequest where
  | upload (destination fileName : String) (size : UInt64) (localPath : Option String)
  | download (remoteSource : String)

namespace Exchange

/-- An upload of a file of the given size. -/
def startUpload (observed : Bool) (destination fileName : String) (size : UInt64)
    (localPath : Option String) : Exchange where
  sender :=
    { direction := .upload
      session := .new .upload .controller
      phase := .start
      remotePath := destination
      fileName := fileName
      source := ⟨size, []⟩
      audit := { observed := observed, localPath := localPath } }
  receiver :=
    { direction := .upload
      session := .new .upload .host
      phase := .awaitOpen
      remotePath := ""
      fileName := ""
      declaredSize := 0
      temp := {}
      target := none
      audit := { observed := observed } }
  toReceiver := {}
  toSender := {}

/-- A download from the given path. -/
def startDownload (observed : Bool) (remoteSource : String) : Exchange where
  sender :=
    { direction := .download
      session := .new .download .host
      phase := .awaitOpen
      remotePath := ""
      fileName := ""
      source := ⟨0, []⟩
      audit := { observed := observed } }
  receiver :=
    { direction := .download
      session := .new .download .controller
      phase := .start
      remotePath := remoteSource
      fileName := ""
      declaredSize := 0
      temp := {}
      target := none
      audit := { observed := observed } }
  toReceiver := {}
  toSender := {}

def start (observed : Bool) : TransferRequest → Exchange
  | .upload destination fileName size localPath =>
    startUpload observed destination fileName size localPath
  | .download remoteSource => startDownload observed remoteSource

def step (sha : Bytes → Sha256Digest) (σ : Exchange) : ExchangeAction → Option Exchange
  | .sender met =>
    (σ.sender.step sha met σ.toSender).map fun (sender, output, inbox) =>
      { σ with
        sender := sender
        toSender := inbox
        toReceiver := (σ.toReceiver.write output).endIf sender.phase.isEnded }
  | .receiver met =>
    (σ.receiver.step sha met σ.toReceiver).map fun (receiver, output, inbox) =>
      { σ with
        receiver := receiver
        toReceiver := inbox
        toSender := (σ.toSender.write output).endIf receiver.phase.isEnded }
  | .cut toReceiver toSender =>
    some { σ with
      toReceiver := σ.toReceiver.cut toReceiver
      toSender := σ.toSender.cut toSender }

end Exchange

end Yonder.Transfer
