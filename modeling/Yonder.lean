import Yonder.Audit.AnchorFrame
import Yonder.Audit.CanonicalBlocks
import Yonder.Audit.FrameReader
import Yonder.Audit.FrameWalker
import Yonder.Audit.FailureClose
import Yonder.Audit.HandshakeRun
import Yonder.Audit.Truncation
import Yonder.Audit.WriterTask
import Yonder.Controller.CancelScope
import Yonder.Controller.ConsoleText
import Yonder.Controller.PromptEcho
import Yonder.Controller.SelectorChunk
import Yonder.Controller.Translation
import Yonder.Host.Control
import Yonder.Host.FileCoordinator
import Yonder.Host.PtySession
import Yonder.Host.OneTime
import Yonder.Host.TargetSelection
import Yonder.Relay.Admission
import Yonder.Relay.Verifier
import Yonder.Relay.Grace
import Yonder.Relay.SessionHistory
import Yonder.Relay.SourceTable
import Yonder.Transfer.Commit
import Yonder.Transfer.ReceiveTail
import Yonder.Transfer.FinishOrder
import Yonder.Transfer.FrameRead
import Yonder.Wire.StreamedMessages
