import Yonder.Wire.Container

/-!
# Chain events and their records

The four shared chains and the local observation chain are SHA-256 chains over domain-separated
events. This module has the event hashes, the record payloads that carry the events, and the
decoders the verify layer runs on those payloads. A shared record carries its event, its sequence
number and both chain heads; the hash covers the event in a canonical form, which for control and
file events includes the zero bytes of the buffer it was taken from.

The cryptographic crates are a parameter: `Crypto` has the functions and the one documented law the
code relies on, that a signature made with a key verifies under its public key.
-/

namespace Yonder.Audit

open Lib Wire

/-- SHA-256, HMAC-SHA-256, HKDF-SHA-256 and Ed25519, as the code calls them. A signing key is given
by its seed. -/
structure Crypto where
  sha256 : Bytes → Digest32
  hmac : Digest32 → Bytes → Digest32
  hkdf : Option Bytes → Bytes → Bytes → Digest32
  publicKey : FixedBytes 32 → Ed25519PublicKey
  sign : FixedBytes 32 → Bytes → Ed25519Signature
  verify : Ed25519PublicKey → Bytes → Ed25519Signature → Bool
  verify_sign : ∀ key input, verify (publicKey key) input (sign key input) = true

/-- A digest that is easy to compute, for runs on fixed inputs. -/
def rollingDigest (bytes : Bytes) : Digest32 :=
  ⟨beBytes 32 (bytes.foldl (fun h b => (h * 257 + b.toNat + 1) % 2 ^ 256) 0), length_beBytes 32 _⟩

/-- An instance for runs on fixed inputs: keys are their own public keys, and a signature is the key
followed by the digest of what it signs. -/
def Crypto.transparent : Crypto where
  sha256 := rollingDigest
  hmac key bytes := rollingDigest (key.1 ++ bytes)
  hkdf salt ikm info := rollingDigest (salt.getD [] ++ (0 :: ikm ++ (0 :: info)))
  publicKey key := key
  sign key input := ⟨key.1 ++ (rollingDigest input).1, by
    rw [List.length_append, key.2, (rollingDigest input).2]⟩
  verify key input signature := decide (signature.1 = key.1 ++ (rollingDigest input).1)
  verify_sign _ _ := decide_eq_true rfl

/-- No two different ones of the inputs have one digest. -/
def CollisionFree (c : Crypto) (inputs : List Bytes) : Prop :=
  ∀ x ∈ inputs, ∀ y ∈ inputs, c.sha256 x = c.sha256 y → x = y

instance (c : Crypto) (inputs : List Bytes) : Decidable (CollisionFree c inputs) := by
  unfold CollisionFree
  infer_instance

/-! ## Constants -/

def directionCtrlToHost : UInt8 := 1
def directionHostToCtrl : UInt8 := 2

def controlKindResize : UInt8 := 1
def controlKindTerminalHello : UInt8 := 2
def controlKindTerminalReady : UInt8 := 3
def controlKindTerminalExit : UInt8 := 4
def controlKindTerminalComplete : UInt8 := 5
def controlKindCloseReason : UInt8 := 6

def fileKindStart : UInt8 := 1
def fileKindSuccess : UInt8 := 2
def fileKindCancelled : UInt8 := 3
def fileKindFailed : UInt8 := 4
def fileLocalKindCommittedUnconfirmed : UInt8 := 5
def fileLocalKindCommitStatusUnknown : UInt8 := 6

/-- The chain domain label of a shared stream. -/
def chainDomain : SharedStream → Bytes
  | .input => utf8 "yonder-audit-chain-input-v3"
  | .output => utf8 "yonder-audit-chain-output-v3"
  | .control => utf8 "yonder-audit-chain-control-v3"
  | .fileTransfer => utf8 "yonder-audit-chain-file-v3"

def chainLocalDomain : Bytes := utf8 "yonder-audit-chain-local-v3"

/-! ## Shared events -/

/-- One shared file transfer fact. -/
structure FileTransferFacts where
  transferId : UInt64
  direction : UInt8
  kind : UInt8
  declaredSize : UInt64
  finalSize : UInt64
  digest : Digest32
  remotePath : String
  fileName : String
  errorCode : UInt16
deriving DecidableEq

/-- The event of a shared record. The flow direction of a file event is the record's. -/
inductive SharedEvent where
  | input (length : UInt64) (hmac : Digest32)
  | output (length : UInt64) (digest : Digest32)
  | control (kind : UInt8) (payload : Bytes)
  | file (kind : UInt8) (transferId declaredSize finalSize : UInt64) (digest : Digest32)
      (remotePath fileName : String) (errorCode : UInt16)
deriving DecidableEq

namespace SharedEvent

/-- The stream an event belongs to. -/
def stream : SharedEvent → SharedStream
  | input .. => .input
  | output .. => .output
  | control .. => .control
  | file .. => .fileTransfer

/-- The event kind byte of the chain hash. -/
def kindByte : SharedEvent → UInt8
  | input .. => 1
  | output .. => 1
  | control kind _ => kind
  | file kind .. => kind

/-- The event bytes as they stand in the record. -/
def canonical : SharedEvent → Bytes
  | input length hmac => Codec.u64.enc length ++ hmac.1
  | output length digest => Codec.u64.enc length ++ digest.1
  | control kind payload => kind :: payload
  | file kind transferId declaredSize finalSize digest remotePath fileName errorCode =>
    kind :: (Codec.u64.enc transferId ++ (Codec.u64.enc declaredSize ++
      (Codec.u64.enc finalSize ++ (digest.1 ++ (writePrefixed (utf8 remotePath) ++
        (writePrefixed (utf8 fileName) ++ Codec.u16.enc errorCode))))))

/-- The event bytes as they are hashed: a control event is hashed out of a 97-byte buffer and a
file event with the 64 bytes of its two head fields, not yet written. -/
def hashed (e : SharedEvent) : Bytes :=
  match e with
  | control .. => e.canonical.take 97 ++ List.replicate (97 - e.canonical.length) 0
  | file .. => e.canonical ++ List.replicate 64 0
  | _ => e.canonical

/-- The file names of an event fit their `u16` length fields. -/
def NamesFit : SharedEvent → Prop
  | file _ _ _ _ _ remotePath fileName _ =>
    (utf8 remotePath).length < 65536 ∧ (utf8 fileName).length < 65536
  | _ => True

end SharedEvent

/-- A decoded shared record. -/
structure SharedRecord where
  direction : UInt8
  sequence : UInt64
  event : SharedEvent
  previousHead : Digest32
  newHead : Digest32
deriving DecidableEq

/-- The record payload: direction, sequence, event and both heads. -/
def SharedRecord.payload (r : SharedRecord) : Bytes :=
  r.direction :: (Codec.u64.enc r.sequence ++ (r.event.canonical ++
    (r.previousHead.1 ++ r.newHead.1)))

/-- The bytes hashed by `shared_event_hash`. -/
def sharedEventPreimage (previous : Digest32) (direction : UInt8) (sequence : UInt64)
    (e : SharedEvent) : Bytes :=
  chainDomain e.stream ++ (previous.1 ++ (UInt8.ofNat e.stream.index :: direction ::
    (Codec.u64.enc sequence ++ (e.kindByte :: e.hashed))))

/-- `shared_event_hash`. -/
def sharedEventHash (c : Crypto) (previous : Digest32) (direction : UInt8) (sequence : UInt64)
    (e : SharedEvent) : Digest32 :=
  c.sha256 (sharedEventPreimage previous direction sequence e)

/-! ## Decoders -/

/-- `read_str`: a `u16`-prefixed UTF-8 string. -/
def readStr (bytes : Bytes) : Option (String × Bytes) := do
  let (raw, rest) ← takePrefixed bytes
  let text ← ofUtf8 raw
  return (text, rest)

/-- The fixed fields in front of the names of a file event. -/
def fileFixedCodec : Codec (UInt8 × UInt64 × UInt64 × UInt64 × Digest32) :=
  Codec.u8.prod (Codec.u64.prod (Codec.u64.prod (Codec.u64.prod digestCodec)))

/-- The canonical file event and the bytes after it. -/
def readFileEvent (bytes : Bytes) : Option (SharedEvent × Bytes) := do
  let ((kind, transferId, declaredSize, finalSize, digest), rest) ← fileFixedCodec.read bytes
  let (remotePath, rest) ← readStr rest
  let (fileName, rest) ← readStr rest
  let (errorCode, rest) ← Codec.u16.read rest
  return (.file kind transferId declaredSize finalSize digest remotePath fileName errorCode, rest)

/-! ## The decoders invert the record payloads -/

theorem u8_enc (b : UInt8) : Codec.u8.enc b = [b] := by
  simp [Codec.u8, Codec.word, beBytes]

theorem length_u64_enc (n : UInt64) : (Codec.u64.enc n).length = 8 := Codec.u64.enc_length n

theorem length_u16_enc (n : UInt16) : (Codec.u16.enc n).length = 2 := Codec.u16.enc_length n

theorem readStr_writePrefixed (text : String) (rest : Bytes) (h : (utf8 text).length < 65536) :
    readStr (writePrefixed (utf8 text) ++ rest) = some (text, rest) := by
  have hu : ofUtf8 (utf8 text) = some text := (ofUtf8_eq_some _ _).2 rfl
  simp [readStr, takePrefixed_writePrefixed _ _ h, hu]

theorem fileFixedCodec_enc (k : UInt8) (t a b : UInt64) (g : Digest32) :
    fileFixedCodec.enc (k, t, a, b, g) =
      k :: (Codec.u64.enc t ++ (Codec.u64.enc a ++ (Codec.u64.enc b ++ g.1))) := by
  show Codec.u8.enc k ++ (Codec.u64.enc t ++ (Codec.u64.enc a ++ (Codec.u64.enc b ++ g.1))) = _
  rw [u8_enc]
  rfl

theorem readFileEvent_canonical (e : SharedEvent) (hs : e.stream = .fileTransfer)
    (hfit : e.NamesFit) (rest : Bytes) : readFileEvent (e.canonical ++ rest) = some (e, rest) := by
  cases e with
  | file k t a b g x y z =>
    have hform : SharedEvent.canonical (.file k t a b g x y z) ++ rest =
        fileFixedCodec.enc (k, t, a, b, g) ++ (writePrefixed (utf8 x) ++
          (writePrefixed (utf8 y) ++ (Codec.u16.enc z ++ rest))) := by
      rw [fileFixedCodec_enc]
      simp only [SharedEvent.canonical, List.append_assoc, List.cons_append]
    have hok : fileFixedCodec.ok (k, t, a, b, g) := by simp [fileFixedCodec, digestCodec]
    rw [hform, readFileEvent]
    simp only [Codec.read_append _ hok, Codec.read_append _ (Codec.u16_ok _),
      readStr_writePrefixed _ _ hfit.1, readStr_writePrefixed _ _ hfit.2, Option.bind_eq_bind,
      Option.bind_some, Option.pure_def]
  | input l h => cases hs
  | output l h => cases hs
  | control k b => cases hs

/-! ## Local records -/

/-- The payload of a local record: time, related shared head and the kind's own bytes. -/
def localPayload (timeNs : UInt64) (related : Digest32) (kindPayload : Bytes) : Bytes :=
  Codec.u64.enc timeNs ++ (related.1 ++ kindPayload)

/-- `local_event_hash`. -/
def localEventHash (c : Crypto) (previous : Digest32) (sequence timeNs : UInt64)
    (eventKind : UInt8) (kindPayload : Bytes) (related : Digest32) : Digest32 :=
  c.sha256 (chainLocalDomain ++ (previous.1 ++ (Codec.u64.enc sequence ++ (Codec.u64.enc timeNs ++
    (eventKind :: (kindPayload ++ related.1))))))

end Yonder.Audit
