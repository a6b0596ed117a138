import Yonder.Relay.Enterprise
import Yonder.Wire.ConnectionCode
import Yonder.Wire.Terminal

/-!
# The small messages

The one-shot messages of the registry, of the two resolve protocols and of the authentication, and the
messages that open and close a terminal. Each decoder follows the source, with its errors. A message
that only wraps a value is that value here.

Every decoder accepts exactly the encodings, and the context of the password exchange fits into its
buffer and determines what it was built from.
-/

namespace Yonder.Wire

open Lib
open Relay (Locator EnterpriseProvider)

/-! ## Fields -/

def wireValue (b₀ b₁ b₂ : UInt8) : Nat := b₀.toNat <<< 16 ||| b₁.toNat <<< 8 ||| b₂.toNat

theorem wireValue_eq (b₀ b₁ b₂ : UInt8) :
    wireValue b₀ b₁ b₂ = b₀.toNat * 65536 + b₁.toNat * 256 + b₂.toNat := by
  have h₁ : b₁.toNat <<< 8 < 2 ^ 16 := by
    have := b₁.toNat_lt
    rw [Nat.shiftLeft_eq]
    omega
  have hhigh : b₀.toNat <<< 16 + b₁.toNat <<< 8 = (b₀.toNat * 256 + b₁.toNat) <<< 8 := by
    simp only [Nat.shiftLeft_eq]
    omega
  rw [wireValue, ← Nat.shiftLeft_add_eq_or_of_lt h₁, hhigh,
    ← Nat.shiftLeft_add_eq_or_of_lt b₂.toNat_lt, Nat.shiftLeft_eq]
  omega

theorem wireValue_lt (b₀ b₁ b₂ : UInt8) (h : b₀ &&& 0xF0 = 0) : wireValue b₀ b₁ b₂ < 2 ^ 20 := by
  have h₀ := toNat_lt_of_and b₀ h
  have h₁ := b₁.toNat_lt
  have h₂ := b₂.toNat_lt
  rw [wireValue_eq]
  omega

/-- `Locator::from_wire`. -/
def fromWire (b₀ b₁ b₂ : UInt8) : Option Locator :=
  if h : b₀ &&& 0xF0 = 0 then some ⟨wireValue b₀ b₁ b₂, wireValue_lt b₀ b₁ b₂ h⟩ else none

/-- `Locator::new`. -/
def newLocator (value : UInt32) : Option Locator :=
  if h : value.toNat < 2 ^ 20 then some ⟨value.toNat, h⟩ else none

/-- A retry hint in the accepted range. -/
@[ext]
structure RetryAfter where
  millis : UInt32
  min_le : 100 ≤ millis
  le_max : millis ≤ 5000
deriving DecidableEq

def RetryAfter.fromMillis (milliseconds : UInt32) : Option RetryAfter :=
  if h : 100 ≤ milliseconds ∧ milliseconds ≤ 5000 then some ⟨milliseconds, h.1, h.2⟩ else none

/-- The bytes of a peer id, within the bound of the protocol. -/
@[ext]
structure PeerIdBytes where
  bytes : Bytes
  ne_nil : bytes ≠ []
  le_max : bytes.length ≤ 64
deriving DecidableEq

def PeerIdBytes.new (source : Bytes) : Option PeerIdBytes :=
  if h : source ≠ [] ∧ source.length ≤ 64 then some ⟨source, h.1, h.2⟩ else none

/-- The providers of a relay, of which there is one. -/
structure EnterpriseProviders where
  wecom : Bool
  feishu : Bool
  nonempty : (wecom || feishu) = true
deriving DecidableEq

def EnterpriseProviders.wireMask (p : EnterpriseProviders) : UInt8 :=
  p.wecom.toUInt8 ||| p.feishu.toUInt8 <<< 1

def EnterpriseProviders.fromWireMask (mask : UInt8) : Option EnterpriseProviders :=
  if mask = 0x01 then some ⟨true, false, rfl⟩
  else if mask = 0x02 then some ⟨false, true, rfl⟩
  else if mask = 0x03 then some ⟨true, true, rfl⟩
  else none

def wireTag : EnterpriseProvider → UInt8
  | .weCom => 0x01
  | .feishu => 0x02

def fromWireTag (value : UInt8) : Option EnterpriseProvider :=
  if value = 0x01 then some .weCom else if value = 0x02 then some .feishu else none

/-- `MAX_AUTHORIZATION_URL_LEN`. -/
def maxAuthorizationUrlLen : Nat := 2048

@[ext]
structure AuthorizationUrl where
  text : String
  ne_nil : utf8 text ≠ []
  le_max : (utf8 text).length ≤ maxAuthorizationUrlLen
deriving DecidableEq

def AuthorizationUrl.new (value : String) : Option AuthorizationUrl :=
  if h : utf8 value ≠ [] ∧ (utf8 value).length ≤ maxAuthorizationUrlLen then some ⟨value, h.1, h.2⟩
  else none

def isAllowedTerminalByte (byte : UInt8) : Bool :=
  0x30 ≤ byte && byte ≤ 0x39 || 0x41 ≤ byte && byte ≤ 0x5A || 0x61 ≤ byte && byte ≤ 0x7A ||
    byte == 0x2E || byte == 0x5F || byte == 0x2B || byte == 0x2D

/-- `TerminalValue::MAX_LEN`. -/
def maxTerminalValueLen : Nat := 64

@[ext]
structure TerminalValue where
  bytes : Bytes
  le_max : bytes.length ≤ maxTerminalValueLen
  allowed : bytes.all isAllowedTerminalByte = true
deriving DecidableEq

def TerminalValue.new (value : String) : Option TerminalValue :=
  if h : (utf8 value).length ≤ maxTerminalValueLen ∧ (utf8 value).all isAllowedTerminalByte = true then
    some ⟨utf8 value, h.1, h.2⟩
  else none

/-! ## Registry messages -/

inductive RegistryRequest where
  | allocate
  | reclaim (locator : Locator)
  | release (locator : Locator)
deriving DecidableEq

/-- The three bytes of a locator, as a list. -/
def locatorBytes (locator : Locator) : Bytes :=
  [(toWire locator).1, (toWire locator).2.1, (toWire locator).2.2]

def decodeLocator (b₀ b₁ b₂ : UInt8) : Except ProtocolError Locator :=
  okOr .invalidLocator (fromWire b₀ b₁ b₂)

namespace RegistryRequest

def encode : RegistryRequest → Bytes
  | allocate => [0x01, 0, 0, 0]
  | reclaim locator => 0x02 :: locatorBytes locator
  | release locator => 0x03 :: locatorBytes locator

def decode : Bytes → Except ProtocolError RegistryRequest
  | [tag, b₀, b₁, b₂] =>
    if tag = 0x01 then
      if b₀ = 0 ∧ b₁ = 0 ∧ b₂ = 0 then .ok allocate else .error .invalidReserved
    else if tag = 0x02 then (decodeLocator b₀ b₁ b₂).map reclaim
    else if tag = 0x03 then (decodeLocator b₀ b₁ b₂).map release
    else .error (.unknownTag tag)
  | message => .error (.invalidLength 4 message.length)

end RegistryRequest

inductive RegistryResponse where
  | acquired (locator : Locator)
  | released
  | retry (after : RetryAfter)
  | conflict
  | capacity
  | reservationRequired
deriving DecidableEq

namespace RegistryResponse

/-- The tag and the value of a response. -/
def parts : RegistryResponse → UInt8 × UInt32
  | acquired locator => (0x80, UInt32.ofNat locator.value)
  | released => (0x81, 0)
  | retry after => (0x82, after.millis)
  | conflict => (0x83, 0)
  | capacity => (0x84, 0)
  | reservationRequired => (0x85, 0)

def encode (r : RegistryResponse) : Bytes := r.parts.1 :: Codec.u32.enc r.parts.2

def zeroValue (value : UInt32) (response : RegistryResponse) :
    Except ProtocolError RegistryResponse :=
  if value = 0 then .ok response else .error .invalidReserved

/-- `decode`, on the five bytes. -/
def decodeParts (tag : UInt8) (value : UInt32) : Except ProtocolError RegistryResponse :=
  if tag = 0x80 then (okOr .invalidLocator (newLocator value)).map acquired
  else if tag = 0x81 then zeroValue value released
  else if tag = 0x82 then (okOr .invalidRetryAfter (RetryAfter.fromMillis value)).map retry
  else if tag = 0x83 then zeroValue value conflict
  else if tag = 0x84 then zeroValue value capacity
  else if tag = 0x85 then zeroValue value reservationRequired
  else .error (.unknownTag tag)

def decode (message : Bytes) : Except ProtocolError RegistryResponse :=
  match message with
  | [] => .error (.invalidLength 5 0)
  | tag :: payload =>
    okOr (.invalidLength 5 message.length) (Codec.u32.dec payload) >>= decodeParts tag

end RegistryResponse

/-! ## Resolve messages -/

namespace ResolveRequest

def encode (locator : Locator) : Bytes := locatorBytes locator

def decode : Bytes → Except ProtocolError Locator
  | [b₀, b₁, b₂] => decodeLocator b₀ b₁ b₂
  | message => .error (.invalidLength 3 message.length)

end ResolveRequest

/-- The length byte and the bytes of a peer id. -/
def peerBytes (peer : PeerIdBytes) : Bytes := UInt8.ofNat peer.bytes.length :: peer.bytes

/-- `decode_resolved` of both protocols. -/
def decodeResolved : Bytes → Except ProtocolError PeerIdBytes
  | [] => .error .invalidPeerId
  | length :: peer =>
    if peer.length ≠ length.toNat then .error (.invalidLength (length.toNat + 2) (peer.length + 2))
    else okOr .invalidPeerId (PeerIdBytes.new peer)

/-- `decode_retry` of both protocols. -/
def decodeRetry (payload : Bytes) : Except ProtocolError RetryAfter :=
  okOr (.invalidLength 5 (payload.length + 1)) (Codec.u32.dec payload) >>= fun millis =>
    okOr .invalidRetryAfter (RetryAfter.fromMillis millis)

/-- A tag without a payload. -/
def bare {M : Type} (payload : Bytes) (message : M) : Except ProtocolError M :=
  if payload = [] then .ok message else .error .trailingBytes

inductive ResolveResponse where
  | resolved (peer : PeerIdBytes)
  | retry (after : RetryAfter)
  | unavailable
deriving DecidableEq

namespace ResolveResponse

def encode : ResolveResponse → Bytes
  | resolved peer => 0x80 :: peerBytes peer
  | retry after => 0x81 :: Codec.u32.enc after.millis
  | unavailable => [0x82]

def decode : Bytes → Except ProtocolError ResolveResponse
  | [] => .error (.invalidLength 1 0)
  | tag :: payload =>
    if tag = 0x80 then (decodeResolved payload).map resolved
    else if tag = 0x81 then (decodeRetry payload).map retry
    else if tag = 0x82 then bare payload unavailable
    else .error (.unknownTag tag)

end ResolveResponse

/-! ## Enterprise resolve messages -/

namespace EnterpriseStart

def encode (locator : Locator) : Bytes := 0x01 :: locatorBytes locator

def decode : Bytes → Except ProtocolError Locator
  | [tag, b₀, b₁, b₂] =>
    if tag ≠ 0x01 then .error (.unknownTag tag) else decodeLocator b₀ b₁ b₂
  | message => .error (.invalidLength 4 message.length)

end EnterpriseStart

namespace EnterpriseSelect

def encode (provider : EnterpriseProvider) : Bytes := [0x02, wireTag provider]

def decode : Bytes → Except ProtocolError EnterpriseProvider
  | [tag, provider] =>
    if tag ≠ 0x02 then .error (.unknownTag tag)
    else okOr .invalidEnterpriseProvider (fromWireTag provider)
  | message => .error (.invalidLength 2 message.length)

end EnterpriseSelect

inductive EnterpriseResolveResponse where
  | providers (providers : EnterpriseProviders)
  | retry (after : RetryAfter)
  | authenticate (url : AuthorizationUrl)
  | resolved (peer : PeerIdBytes)
  | cancelled
  | expired
  | failed
  | unavailable
deriving DecidableEq

namespace EnterpriseResolveResponse

def encode : EnterpriseResolveResponse → Bytes
  | providers p => [0x10, p.wireMask]
  | retry after => 0x11 :: Codec.u32.enc after.millis
  | authenticate url =>
    0x12 :: (Codec.u16.enc (UInt16.ofNat (utf8 url.text).length) ++ utf8 url.text)
  | resolved peer => 0x13 :: peerBytes peer
  | cancelled => [0x14]
  | expired => [0x15]
  | failed => [0x16]
  | unavailable => [0x17]

def decodeProviders : Bytes → Except ProtocolError EnterpriseProviders
  | [mask] => okOr .invalidEnterpriseProviders (EnterpriseProviders.fromWireMask mask)
  | payload => .error (.invalidLength 2 (payload.length + 1))

def decodeAuthenticate (payload : Bytes) : Except ProtocolError AuthorizationUrl :=
  match payload with
  | hi :: lo :: url =>
    if url.length ≠ beNat [hi, lo] then
      .error (.invalidLength (3 + beNat [hi, lo]) (payload.length + 1))
    else okOr .invalidAuthorizationUrl ((ofUtf8 url).bind AuthorizationUrl.new)
  | _ => .error .invalidAuthorizationUrl

def decode : Bytes → Except ProtocolError EnterpriseResolveResponse
  | [] => .error (.invalidLength 1 0)
  | tag :: payload =>
    if tag = 0x10 then (decodeProviders payload).map providers
    else if tag = 0x11 then (decodeRetry payload).map retry
    else if tag = 0x12 then (decodeAuthenticate payload).map authenticate
    else if tag = 0x13 then (decodeResolved payload).map resolved
    else if tag = 0x14 then bare payload cancelled
    else if tag = 0x15 then bare payload expired
    else if tag = 0x16 then bare payload failed
    else if tag = 0x17 then bare payload unavailable
    else .error (.unknownTag tag)

end EnterpriseResolveResponse

/-! ## Authentication messages -/

/-- A message that is a fixed number of bytes. -/
def decodeFixed {M : Type} (codec : Codec M) (message : Bytes) : Except ProtocolError M :=
  okOr (.invalidLength codec.width message.length) (codec.dec message)

/-- `AuthClientHello`: the nonce and the first message of the exchange. -/
def authClientHello : Codec (FixedBytes 32 × FixedBytes 96) := (Codec.bytes 32).prod (Codec.bytes 96)

/-- `AuthClientFinish`: the third message of the exchange. -/
def authClientFinish : Codec (FixedBytes 64) := Codec.bytes 64

/-- `AuthServerResponse`; the arrays of a retry are zero in the source and not sent. -/
inductive AuthServerResponse where
  | proceed (nonce : FixedBytes 32) (ke2 : FixedBytes 320)
  | retry (after : RetryAfter)
deriving DecidableEq

namespace AuthServerResponse

def encode : AuthServerResponse → Bytes
  | proceed nonce ke2 => 0x01 :: (nonce.1 ++ ke2.1)
  | retry after => 0x02 :: Codec.u32.enc after.millis

def decode (message : Bytes) : Except ProtocolError AuthServerResponse :=
  match message with
  | [] => .error (.invalidLength 1 0)
  | tag :: payload =>
    if tag = 0x01 then
      (okOr (.invalidLength 353 message.length)
        (((Codec.bytes 32).prod (Codec.bytes 320)).dec payload)).map fun (nonce, ke2) =>
          proceed nonce ke2
    else if tag = 0x02 then (decodeRetry payload).map retry
    else .error (.unknownTag tag)

end AuthServerResponse

/-- The decoder of a message that is one byte. -/
def decodeMarker (byte : UInt8) : Bytes → Except ProtocolError Unit
  | [tag] => if tag = byte then .ok () else .error (.unknownTag tag)
  | message => .error (.invalidLength 1 message.length)

/-- The byte of `Authenticated`. -/
def authenticated : UInt8 := 0x03

/-- The one encoding of a message that is one byte. -/
def encodeMarker (byte : UInt8) : Unit → Bytes := fun _ => [byte]

/-! ## Terminal messages -/

/-- `MAX_HELLO_LEN`. -/
def maxHelloLen : Nat := 135

structure TerminalHello where
  size : TerminalSize
  term : TerminalValue
  colorTerm : TerminalValue
deriving DecidableEq

/-- `decode_terminal_value`. -/
def decodeTerminalValue (bytes : Bytes) : Except ProtocolError TerminalValue :=
  okOr .invalidTerminalValue ((ofUtf8 bytes).bind TerminalValue.new)

namespace TerminalHello

def encode (hello : TerminalHello) : Bytes :=
  0x01 :: (sizeCodec.enc hello.size ++ UInt8.ofNat hello.term.bytes.length :: (hello.term.bytes ++
    UInt8.ofNat hello.colorTerm.bytes.length :: hello.colorTerm.bytes))

def decode (message : Bytes) : Except ProtocolError TerminalHello :=
  if message.length < 7 then .error (.invalidLength 7 message.length)
  else if message.getD 0 0 ≠ 0x01 then .error (.unknownTag (message.getD 0 0))
  else do
    let size ← okOr .invalidTerminalDimension (sizeCodec.dec ((message.drop 1).take 4))
    let termLen := (message.getD 5 0).toNat
    if termLen > maxTerminalValueLen ∨ message.length < 7 + termLen then .error .invalidTerminalValue
    else
      let termEnd := 6 + termLen
      let colorLen := (message.getD termEnd 0).toNat
      if colorLen > maxTerminalValueLen then .error .invalidTerminalValue
      else
        let expected := termEnd + 1 + colorLen
        if message.length ≠ expected then
          .error (if message.length > expected then .trailingBytes
            else .invalidLength expected message.length)
        else
          let term ← decodeTerminalValue ((message.drop 6).take termLen)
          let colorTerm ← decodeTerminalValue (message.drop (termEnd + 1))
          return ⟨size, term, colorTerm⟩

end TerminalHello

namespace TerminalExit

def encode (code : UInt32) : Bytes := 0x80 :: Codec.u32.enc code

def decode (message : Bytes) : Except ProtocolError UInt32 :=
  match message with
  | [] => .error (.invalidLength controlLen 0)
  | tag :: payload =>
    okOr (.invalidLength controlLen message.length) (Codec.u32.dec payload) >>= fun code =>
      if tag ≠ 0x80 then .error (.unknownTag tag) else .ok code

end TerminalExit

/-- The byte of `TerminalReady`. -/
def terminalReady : UInt8 := 0x01

/-! ## The context of the password exchange -/

/-- `MAX_CONTEXT_LEN`. -/
def maxContextLen : Nat := 256

/-- `PakeContext`: the buffer and the length that is used. -/
structure PakeContext where
  bytes : Bytes
  len : UInt8

/-- `AUTH_PROTOCOL`. -/
def authProtocol : Bytes := utf8 "/yonder/auth/1.0.0"

namespace PakeContext

/-- `append`, on the part of the buffer in front of the cursor; a slice beyond the buffer panics. -/
def append (written : Option Bytes) (source : Bytes) : Option Bytes :=
  written.bind fun written =>
    if written.length + source.length ≤ maxContextLen then some (written ++ source) else none

/-- `new`; none where it would panic. -/
def new (locator : Locator) (controller target : PeerIdBytes)
    (controllerNonce targetNonce : FixedBytes 32) : Option PakeContext :=
  let written := append (some []) authProtocol
  let written := append written (locatorBytes locator)
  let written := append written [UInt8.ofNat controller.bytes.length]
  let written := append written controller.bytes
  let written := append written [UInt8.ofNat target.bytes.length]
  let written := append written target.bytes
  let written := append written controllerNonce.1
  let written := append written targetNonce.1
  written.map fun written =>
    ⟨written ++ List.replicate (maxContextLen - written.length) 0, UInt8.ofNat written.length⟩

def asBytes (c : PakeContext) : Bytes := c.bytes.take c.len.toNat

end PakeContext

/-! ## What each field reader accepts -/

theorem and_of_toNat_lt {s : UInt8} (h : s.toNat < 16) : s &&& 0xF0 = 0 := by
  have hall : ∀ n < 16, n &&& 0xF0 = 0 := by decide
  exact UInt8.toNat_inj.1 (by simpa using hall s.toNat h)

theorem fromWire_eq_some {b₀ b₁ b₂ : UInt8} {locator : Locator} :
    fromWire b₀ b₁ b₂ = some locator ↔ locatorBytes locator = [b₀, b₁, b₂] := by
  obtain ⟨hlow, hvalue⟩ := toWire_spec locator
  have h₁ := b₁.toNat_lt
  have h₂ := b₂.toNat_lt
  simp only [locatorBytes, List.cons.injEq, and_true, ← UInt8.toNat_inj]
  rw [fromWire]
  split_ifs with h
  · obtain ⟨value, hlt⟩ := locator
    simp only [Option.some.injEq, Relay.Locator.mk.injEq, wireValue_eq] at hvalue ⊢
    have := (toWire ⟨value, hlt⟩).2.1.toNat_lt
    have := (toWire ⟨value, hlt⟩).2.2.toNat_lt
    omega
  · have hne : b₀.toNat ≠ (toWire locator).1.toNat := fun heq => h (and_of_toNat_lt (heq ▸ hlow))
    simp [hne.symm]

theorem decodeLocator_eq_ok {b₀ b₁ b₂ : UInt8} {locator : Locator} :
    decodeLocator b₀ b₁ b₂ = .ok locator ↔ locatorBytes locator = [b₀, b₁, b₂] := by
  rw [decodeLocator, okOr_eq_ok_iff, fromWire_eq_some]

theorem newLocator_eq_some {value : UInt32} {locator : Locator} :
    newLocator value = some locator ↔ UInt32.ofNat locator.value = value := by
  have hlt := locator.lt
  rw [← UInt32.toNat_inj, UInt32.toNat_ofNat', Nat.mod_eq_of_lt (by omega)]
  refine checked_eq_some_iff (fun _ => ?_) fun h => h ▸ hlt
  cases locator
  rw [Relay.Locator.mk.injEq, eq_comm]

theorem RetryAfter.fromMillis_eq_some {millis : UInt32} {after : RetryAfter} :
    fromMillis millis = some after ↔ after.millis = millis :=
  checked_eq_some_iff (fun _ => by rw [RetryAfter.ext_iff, eq_comm])
    fun h => h ▸ ⟨after.min_le, after.le_max⟩

theorem PeerIdBytes.new_eq_some {source : Bytes} {peer : PeerIdBytes} :
    new source = some peer ↔ peer.bytes = source :=
  checked_eq_some_iff (fun _ => by rw [PeerIdBytes.ext_iff, eq_comm])
    fun h => h ▸ ⟨peer.ne_nil, peer.le_max⟩

theorem AuthorizationUrl.new_eq_some {value : String} {url : AuthorizationUrl} :
    new value = some url ↔ url.text = value :=
  checked_eq_some_iff (fun _ => by rw [AuthorizationUrl.ext_iff, eq_comm])
    fun h => h ▸ ⟨url.ne_nil, url.le_max⟩

theorem EnterpriseProviders.fromWireMask_eq_some {mask : UInt8} {p : EnterpriseProviders} :
    fromWireMask mask = some p ↔ p.wireMask = mask := by
  have hmask : ∀ w f : Bool, w.toUInt8 ||| f.toUInt8 <<< 1 = UInt8.ofNat (w.toNat + 2 * f.toNat) := by
    decide
  rw [wireMask, hmask]
  constructor
  · intro h
    rw [fromWireMask] at h
    split_ifs at h with hmask hmask hmask
    all_goals
      cases h
      exact hmask.symm
  · rintro rfl
    obtain ⟨_ | _, _ | _, h⟩ := p
    -- no provider at all is not a value of the type
    · exact absurd h Bool.false_ne_true
    all_goals rfl

theorem fromWireTag_eq_some {value : UInt8} {provider : EnterpriseProvider} :
    fromWireTag value = some provider ↔ wireTag provider = value := by
  constructor
  · intro h
    rw [fromWireTag] at h
    split_ifs at h with h₁ h₂
    · exact Option.some.inj h ▸ h₁.symm
    · exact Option.some.inj h ▸ h₂.symm
  · rintro rfl
    cases provider <;> rfl

theorem isAscii_of_allowed {byte : UInt8} (h : isAllowedTerminalByte byte = true) :
    byte.toNat < 128 := by
  simp only [isAllowedTerminalByte, Bool.or_eq_true, Bool.and_eq_true, decide_eq_true_eq, beq_iff_eq,
    UInt8.le_iff_toNat_le, ← UInt8.toNat_inj] at h
  simp at h
  omega

/-- The bytes of a terminal value are a text. -/
theorem TerminalValue.exists_text (value : TerminalValue) : ∃ text, utf8 text = value.bytes := by
  have hascii : ∀ b ∈ value.bytes, b.toNat < 128 := fun b hb =>
    isAscii_of_allowed (List.all_eq_true.1 value.allowed b hb)
  refine ⟨String.ofList (value.bytes.map fun b => Char.ofNat b.toNat), ?_⟩
  have hchar : ∀ n < 128, (Char.ofNat n).toNat = n := by decide +kernel
  have hbyte : ∀ b ∈ value.bytes, (Char.ofNat b.toNat).toNat = b.toNat := fun b hb =>
    hchar _ (hascii b hb)
  -- an ASCII text has one byte for each character
  rw [utf8_of_ascii, String.toList_ofList, List.map_map]
  · refine (List.map_congr_left fun b hb => ?_).trans (List.map_id _)
    simp [byteOf, hbyte b hb]
  · rw [String.toList_ofList]
    exact List.forall_mem_map.2 fun b hb => (hbyte b hb).symm ▸ hascii b hb

theorem TerminalValue.new_eq_some {text : String} {value : TerminalValue} :
    new text = some value ↔ value.bytes = utf8 text :=
  checked_eq_some_iff (fun _ => by rw [TerminalValue.ext_iff, eq_comm])
    fun h => h ▸ ⟨value.le_max, value.allowed⟩

theorem decodeTerminalValue_eq_ok {bytes : Bytes} {value : TerminalValue} :
    decodeTerminalValue bytes = .ok value ↔ value.bytes = bytes := by
  simp only [decodeTerminalValue, okOr_eq_ok_iff, Option.bind_eq_some_iff, ofUtf8_eq_some,
    TerminalValue.new_eq_some]
  constructor
  · rintro ⟨text, rfl, h⟩
    exact h
  · rintro rfl
    obtain ⟨text, h⟩ := value.exists_text
    exact ⟨text, h, h.symm⟩

theorem length_ofNat {bytes : Bytes} (h : bytes.length ≤ 64) :
    (UInt8.ofNat bytes.length).toNat = bytes.length := by
  rw [UInt8.toNat_ofNat']
  omega

theorem decodeResolved_eq_ok {payload : Bytes} {peer : PeerIdBytes} :
    decodeResolved payload = .ok peer ↔ peerBytes peer = payload := by
  have hlen := length_ofNat peer.le_max
  cases payload with
  | nil => simp [decodeResolved, peerBytes]
  | cons length bytes =>
    simp only [decodeResolved, peerBytes, List.cons.injEq]
    split_ifs with h
    · refine iff_of_false id ?_
      rintro ⟨rfl, rfl⟩
      exact h hlen.symm
    · rw [okOr_eq_ok_iff, PeerIdBytes.new_eq_some]
      refine ⟨?_, And.right⟩
      rintro rfl
      exact ⟨UInt8.toNat_inj.1 (hlen.trans (not_not.1 h)), rfl⟩

theorem u32_dec_eq_some {payload : Bytes} {n : UInt32} :
    Codec.u32.dec payload = some n ↔ Codec.u32.enc n = payload := by
  rw [Codec.u32.dec_eq_some, and_iff_right (Codec.u32_ok n)]

theorem decodeRetry_eq_ok {payload : Bytes} {after : RetryAfter} :
    decodeRetry payload = .ok after ↔ Codec.u32.enc after.millis = payload := by
  simp only [decodeRetry, bind_eq_ok_iff, okOr_eq_ok_iff, RetryAfter.fromMillis_eq_some,
    u32_dec_eq_some]
  constructor
  · rintro ⟨_, h, rfl⟩
    exact h
  · exact fun h => ⟨_, h, rfl⟩

theorem bare_eq_ok {M : Type} {payload : Bytes} {message m : M} :
    bare payload message = .ok m ↔ payload = [] ∧ message = m := by
  rw [bare]
  split_ifs with h <;> simp [h]

/-! ## The decoders -/

theorem RegistryRequest.decode_eq_ok (message : Bytes) (m : RegistryRequest) :
    decode message = .ok m ↔ encode m = message := by
  constructor
  · intro h
    match message with
    | [] | [_] | [_, _] | [_, _, _] | _ :: _ :: _ :: _ :: _ :: _ => cases h
    | [tag, b₀, b₁, b₂] =>
      rw [decode] at h
      split_ifs at h with htag hzero htag htag
      · obtain ⟨rfl, rfl, rfl⟩ := hzero
        cases h
        rw [htag, encode]
      all_goals
        obtain ⟨locator, hlocator, rfl⟩ := map_eq_ok_iff.1 h
        rw [htag, encode, decodeLocator_eq_ok.1 hlocator]
  · rintro rfl
    cases m <;> simp [decode, encode, locatorBytes, map_eq_ok_iff, decodeLocator_eq_ok]

theorem RegistryResponse.zeroValue_eq_ok {value : UInt32} {response r : RegistryResponse} :
    zeroValue value response = .ok r ↔ value = 0 ∧ response = r := by
  rw [zeroValue]
  split_ifs with h <;> simp [h]

theorem RegistryResponse.decodeParts_eq_ok {tag : UInt8} {value : UInt32} {r : RegistryResponse} :
    decodeParts tag value = .ok r ↔ r.parts = (tag, value) := by
  constructor
  · intro h
    rw [decodeParts] at h
    split_ifs at h with htag htag htag htag htag htag
    all_goals
      simp only [map_eq_ok_iff, okOr_eq_ok_iff, newLocator_eq_some, RetryAfter.fromMillis_eq_some,
        zeroValue_eq_ok] at h
      first
        | obtain ⟨rfl, rfl⟩ := h
        | obtain ⟨_, rfl, rfl⟩ := h
      rw [htag, parts]
  · cases r <;> rintro ⟨⟩ <;>
      simp [decodeParts, map_eq_ok_iff, newLocator_eq_some, RetryAfter.fromMillis_eq_some,
        zeroValue_eq_ok]

theorem RegistryResponse.decode_eq_ok (message : Bytes) (r : RegistryResponse) :
    decode message = .ok r ↔ encode r = message := by
  cases message with
  | nil => simp [decode, encode]
  | cons tag payload =>
    simp only [decode, encode, bind_eq_ok_iff, okOr_eq_ok_iff, u32_dec_eq_some, decodeParts_eq_ok,
      List.cons.injEq]
    constructor
    · rintro ⟨value, rfl, h⟩
      rw [h]
      exact ⟨rfl, rfl⟩
    · rintro ⟨rfl, rfl⟩
      exact ⟨_, rfl, rfl⟩

theorem ResolveRequest.decode_eq_ok (message : Bytes) (locator : Locator) :
    decode message = .ok locator ↔ encode locator = message := by
  match message with
  | [] | [_] | [_, _] | _ :: _ :: _ :: _ :: _ => simp [decode, encode, locatorBytes]
  | [b₀, b₁, b₂] => exact decodeLocator_eq_ok

theorem ResolveResponse.decode_eq_ok (message : Bytes) (m : ResolveResponse) :
    decode message = .ok m ↔ encode m = message := by
  constructor
  · intro h
    cases message with
    | nil => cases h
    | cons tag payload =>
      rw [decode] at h
      split_ifs at h with htag htag htag
      all_goals
        simp only [map_eq_ok_iff, decodeResolved_eq_ok, decodeRetry_eq_ok, bare_eq_ok] at h
        first
          | obtain ⟨rfl, rfl⟩ := h
          | obtain ⟨_, rfl, rfl⟩ := h
        rw [htag, encode]
  · rintro rfl
    cases m <;>
      simp [decode, encode, map_eq_ok_iff, decodeResolved_eq_ok, decodeRetry_eq_ok, bare_eq_ok]

theorem EnterpriseStart.decode_eq_ok (message : Bytes) (locator : Locator) :
    decode message = .ok locator ↔ encode locator = message := by
  match message with
  | [] | [_] | [_, _] | [_, _, _] | _ :: _ :: _ :: _ :: _ :: _ => simp [decode, encode, locatorBytes]
  | [tag, b₀, b₁, b₂] =>
    rw [decode, encode, List.cons.injEq]
    split_ifs with htag
    · exact iff_of_false id fun h => htag h.1.symm
    · rw [decodeLocator_eq_ok, not_not.1 htag, eq_self, true_and]

theorem EnterpriseSelect.decode_eq_ok (message : Bytes) (provider : EnterpriseProvider) :
    decode message = .ok provider ↔ encode provider = message := by
  match message with
  | [] | [_] | _ :: _ :: _ :: _ => simp [decode, encode]
  | [tag, b] =>
    rw [decode, encode, List.cons.injEq]
    split_ifs with htag
    · exact iff_of_false id fun h => htag h.1.symm
    · simp [not_not.1 htag, fromWireTag_eq_some]

namespace EnterpriseResolveResponse

theorem decodeProviders_eq_ok {payload : Bytes} {p : EnterpriseProviders} :
    decodeProviders payload = .ok p ↔ [p.wireMask] = payload := by
  match payload with
  | [] | _ :: _ :: _ => simp [decodeProviders]
  | [mask] => simp [decodeProviders, EnterpriseProviders.fromWireMask_eq_some]

/-- The two bytes of the length of a url. -/
theorem u16_enc_length (url : AuthorizationUrl) (hi lo : UInt8) :
    Codec.u16.enc (UInt16.ofNat (utf8 url.text).length) = [hi, lo] ↔
      (utf8 url.text).length = beNat [hi, lo] := by
  have hmax : (utf8 url.text).length ≤ 2048 := url.le_max
  have hvalue : (UInt16.ofNat (utf8 url.text).length).toNat = (utf8 url.text).length := by
    rw [UInt16.toNat_ofNat']
    omega
  change beBytes 2 _ = _ ↔ _
  rw [hvalue]
  constructor
  · intro h
    rw [← h, beNat_beBytes]
    omega
  · intro h
    rw [h]
    exact beBytes_beNat [hi, lo]

theorem decodeAuthenticate_eq_ok {payload : Bytes} {url : AuthorizationUrl} :
    decodeAuthenticate payload = .ok url ↔
      Codec.u16.enc (UInt16.ofNat (utf8 url.text).length) ++ utf8 url.text = payload := by
  obtain ⟨hi', lo', hlead⟩ : ∃ hi lo, Codec.u16.enc (UInt16.ofNat (utf8 url.text).length) = [hi, lo] :=
    ⟨_, _, rfl⟩
  rw [hlead]
  rcases payload with _ | ⟨hi, _ | ⟨lo, bytes⟩⟩
  · simp [decodeAuthenticate]
  · simp [decodeAuthenticate]
  have hsplit : [hi', lo'] ++ utf8 url.text = hi :: lo :: bytes ↔
      (utf8 url.text).length = beNat [hi, lo] ∧ utf8 url.text = bytes := by
    rw [← u16_enc_length, hlead]
    simp [and_assoc]
  rw [hsplit, decodeAuthenticate]
  split_ifs with h
  · refine iff_of_false id ?_
    rintro ⟨hlen, rfl⟩
    exact h hlen
  · simp only [okOr_eq_ok_iff, Option.bind_eq_some_iff, ofUtf8_eq_some,
      AuthorizationUrl.new_eq_some]
    constructor
    · rintro ⟨text, rfl, rfl⟩
      exact ⟨not_not.1 h, rfl⟩
    · exact fun hbytes => ⟨_, hbytes.2, rfl⟩

theorem decode_eq_ok (message : Bytes) (m : EnterpriseResolveResponse) :
    decode message = .ok m ↔ encode m = message := by
  constructor
  · intro h
    cases message with
    | nil => cases h
    | cons tag payload =>
      rw [decode] at h
      split_ifs at h with htag htag htag htag htag htag htag htag
      all_goals
        simp only [map_eq_ok_iff, decodeProviders_eq_ok, decodeRetry_eq_ok,
          decodeAuthenticate_eq_ok, decodeResolved_eq_ok, bare_eq_ok] at h
        first
          | obtain ⟨rfl, rfl⟩ := h
          | obtain ⟨_, rfl, rfl⟩ := h
        rw [htag, encode]
  · rintro rfl
    cases m <;>
      simp [decode, encode, map_eq_ok_iff, decodeProviders_eq_ok, decodeRetry_eq_ok,
        decodeAuthenticate_eq_ok, decodeResolved_eq_ok, bare_eq_ok]

end EnterpriseResolveResponse

/-! ## Authentication and terminal messages -/

theorem decodeFixed_canonical {M : Type} {codec : Codec M} (hok : ∀ m, codec.ok m) :
    Canonical codec.enc (decodeFixed codec) :=
  canonical_of_iff fun bytes m => by
    rw [decodeFixed, okOr_eq_ok_iff, codec.dec_eq_some, and_iff_right (hok m)]

theorem AuthServerResponse.decode_eq_ok (message : Bytes) (m : AuthServerResponse) :
    decode message = .ok m ↔ encode m = message := by
  have hok : ∀ p, ((Codec.bytes 32).prod (Codec.bytes 320)).ok p := fun _ => ⟨trivial, trivial⟩
  constructor
  · intro h
    cases message with
    | nil => cases h
    | cons tag payload =>
      rw [decode] at h
      split_ifs at h with htag htag
      · obtain ⟨⟨nonce, ke2⟩, hdec, rfl⟩ := map_eq_ok_iff.1 h
        rw [htag, encode, ← Codec.enc_of_dec _ (okOr_eq_ok_iff.1 hdec)]
        rfl
      · obtain ⟨after, hafter, rfl⟩ := map_eq_ok_iff.1 h
        rw [htag, encode, decodeRetry_eq_ok.1 hafter]
  · rintro rfl
    cases m with
    | proceed nonce ke2 =>
      have hdec := Codec.dec_enc _ (hok (nonce, ke2))
      rw [encode, decode, if_pos rfl]
      exact map_eq_ok_iff.2 ⟨_, okOr_eq_ok_iff.2 hdec, rfl⟩
    | retry after => simp [decode, encode, map_eq_ok_iff, decodeRetry_eq_ok]

theorem decodeMarker_canonical (byte : UInt8) :
    Canonical (encodeMarker byte) (decodeMarker byte) :=
  canonical_of_iff fun bytes m => by
    match bytes with
    | [] | _ :: _ :: _ => simp [decodeMarker, encodeMarker]
    | [tag] =>
      rw [decodeMarker, encodeMarker]
      split_ifs with h
      · simp [h]
      · simpa using Ne.symm h

theorem TerminalExit.decode_eq_ok (message : Bytes) (code : UInt32) :
    decode message = .ok code ↔ encode code = message := by
  cases message with
  | nil => simp [decode, encode]
  | cons tag payload =>
    simp only [decode, encode, bind_eq_ok_iff, okOr_eq_ok_iff, u32_dec_eq_some, List.cons.injEq]
    constructor
    · rintro ⟨n, rfl, h⟩
      split_ifs at h with htag
      cases h
      exact ⟨(not_not.1 htag).symm, rfl⟩
    · rintro ⟨rfl, rfl⟩
      exact ⟨code, rfl, rfl⟩

theorem TerminalResize.decode_eq_ok (message : Bytes) (size : TerminalSize) :
    decode message = .ok size ↔ encode size = message := by
  refine ⟨fun h => ?_, fun h => h ▸ decode_encode size⟩
  rw [decode, decodeSizedControl] at h
  split_ifs at h with hlength htag
  cases hdec : sizeCodec.dec message.tail with
  | none => simp [hdec] at h
  | some size' =>
    obtain rfl : size' = size := by simpa [hdec] using h
    rw [encode, sizeCodec.enc_of_dec hdec]
    exact List.cons_head?_tail (not_not.1 htag)

theorem drop_eq_getD_cons {α : Type} {l : List α} {n : Nat} (d : α) (h : n < l.length) :
    l.drop n = l.getD n d :: l.drop (n + 1) := by
  rw [List.drop_eq_getElem_cons h]
  simp [h]

namespace TerminalHello

/-- A message that the decoder takes apart is put together again. -/
theorem encode_of_decode {message : Bytes} {hello : TerminalHello} (h : decode message = .ok hello) :
    encode hello = message := by
  rw [decode] at h
  split_ifs at h with hlen htag
  obtain ⟨size, hsize, h⟩ := bind_eq_ok_iff.1 h
  dsimp only at h
  split_ifs at h with hterm hcolor hend
  obtain ⟨term, hterm', h⟩ := bind_eq_ok_iff.1 h
  obtain ⟨colorTerm, hcolor', h⟩ := bind_eq_ok_iff.1 h
  cases h
  have hsize := sizeCodec.enc_of_dec (okOr_eq_ok_iff.1 hsize)
  have hterm' := decodeTerminalValue_eq_ok.1 hterm'
  have hcolor' := decodeTerminalValue_eq_ok.1 hcolor'
  -- the lengths of the two values are those that the message gives
  set termLen := (message.getD 5 0).toNat with htermLen
  have ht : term.bytes.length = termLen := by
    rw [hterm', List.length_take, List.length_drop]
    omega
  have hc : colorTerm.bytes.length = (message.getD (6 + termLen) 0).toNat := by
    rw [hcolor', List.length_drop]
    omega
  calc encode ⟨size, term, colorTerm⟩
      = message.getD 0 0 :: ((message.drop 1).take 4 ++ message.getD 5 0 ::
          ((message.drop 6).take termLen ++ message.getD (6 + termLen) 0 ::
            message.drop (6 + termLen + 1))) := by
        rw [encode, hsize, ht, hc, hterm', hcolor', htermLen, UInt8.ofNat_toNat, UInt8.ofNat_toNat,
          not_not.1 htag]
    _ = message := by
        -- from the last field to the first, each is what is dropped in front of the next
        rw [← drop_eq_getD_cons 0 (by omega), ← List.drop_drop, List.take_append_drop,
          ← drop_eq_getD_cons 0 (by omega), show 5 = 1 + 4 from rfl, ← List.drop_drop,
          List.take_append_drop, ← drop_eq_getD_cons 0 (by omega), List.drop_zero]

/-- Where the fields of an encoding are. -/
theorem encode_layout (hello : TerminalHello) {message : Bytes} (hm : message = encode hello) :
    message.length = 6 + hello.term.bytes.length + 1 + hello.colorTerm.bytes.length ∧
      message.getD 0 0 = 0x01 ∧ (message.drop 1).take 4 = sizeCodec.enc hello.size ∧
      (message.getD 5 0).toNat = hello.term.bytes.length ∧
      message.drop 6 = hello.term.bytes ++
        UInt8.ofNat hello.colorTerm.bytes.length :: hello.colorTerm.bytes := by
  obtain ⟨a, b, c, d, hsize⟩ : ∃ a b c d, sizeCodec.enc hello.size = [a, b, c, d] :=
    ⟨_, _, _, _, rfl⟩
  rw [encode, hsize] at hm
  subst hm
  refine ⟨?_, rfl, hsize.symm, length_ofNat hello.term.le_max, rfl⟩
  simp
  omega

theorem decode_encode (hello : TerminalHello) : decode (encode hello) = .ok hello := by
  obtain ⟨message, hm⟩ : ∃ message, message = encode hello := ⟨_, rfl⟩
  obtain ⟨hlength, htag, hsize, htermLen, hdrop⟩ := hello.encode_layout hm
  have hcolorLen : (message.getD (6 + hello.term.bytes.length) 0).toNat =
      hello.colorTerm.bytes.length := by
    rw [List.getD_eq_getElem?_getD, ← List.getElem?_drop, hdrop]
    simpa using length_ofNat hello.colorTerm.le_max
  have hrest : message.drop (6 + hello.term.bytes.length + 1) = hello.colorTerm.bytes := by
    rw [Nat.add_assoc, ← List.drop_drop, hdrop]
    simp
  rw [← hm, decode, if_neg (by omega), if_neg (not_not.2 htag)]
  refine bind_eq_ok_iff.2 ⟨hello.size, okOr_eq_ok_iff.2 ?_, ?_⟩
  · rw [hsize]
    exact sizeCodec.dec_enc ⟨Codec.u16_ok _, Codec.u16_ok _⟩
  · dsimp only
    rw [htermLen, if_neg (not_or.2 ⟨not_lt.2 hello.term.le_max, by omega⟩), hcolorLen,
      if_neg (not_lt.2 hello.colorTerm.le_max), if_neg (not_not.2 hlength), hdrop, hrest,
      List.take_left]
    exact bind_eq_ok_iff.2 ⟨hello.term, decodeTerminalValue_eq_ok.2 rfl,
      bind_eq_ok_iff.2 ⟨hello.colorTerm, decodeTerminalValue_eq_ok.2 rfl, rfl⟩⟩

theorem decode_eq_ok (message : Bytes) (hello : TerminalHello) :
    decode message = .ok hello ↔ encode hello = message :=
  ⟨encode_of_decode, fun h => h ▸ decode_encode hello⟩

end TerminalHello

/-! ## The context of the password exchange -/

theorem length_authProtocol : authProtocol.length = 18 := by decide +kernel

/-- What a context is built from. -/
@[ext]
structure ContextInput where
  locator : Locator
  controller : PeerIdBytes
  target : PeerIdBytes
  controllerNonce : FixedBytes 32
  targetNonce : FixedBytes 32

namespace PakeContext

/-- The bytes of a context, one part after the other. -/
def contextBytes (i : ContextInput) : Bytes :=
  authProtocol ++ (locatorBytes i.locator ++ (peerBytes i.controller ++ (peerBytes i.target ++
    (i.controllerNonce.1 ++ i.targetNonce.1))))

theorem length_contextBytes (i : ContextInput) : (contextBytes i).length ≤ 215 := by
  have hcontroller := i.controller.le_max
  have htarget := i.target.le_max
  simp only [contextBytes, peerBytes, locatorBytes, List.length_append, List.length_cons,
    List.length_nil, length_authProtocol, i.controllerNonce.2, i.targetNonce.2]
  omega

theorem append_some {written source : Bytes} (h : written.length + source.length ≤ maxContextLen) :
    append (some written) source = some (written ++ source) := if_pos h

/-- The context is built, and its bytes are the parts. -/
theorem new_asBytes (i : ContextInput) :
    (new i.locator i.controller i.target i.controllerNonce i.targetNonce).map asBytes =
      some (contextBytes i) := by
  have hlength := length_contextBytes i
  have hcontext : authProtocol ++ locatorBytes i.locator ++
      [UInt8.ofNat i.controller.bytes.length] ++ i.controller.bytes ++
      [UInt8.ofNat i.target.bytes.length] ++ i.target.bytes ++ i.controllerNonce.1 ++
      i.targetNonce.1 = contextBytes i := by
    simp [contextBytes, peerBytes]
  -- every append ends within the whole, which fits
  have hwhole := hlength
  rw [← hcontext] at hwhole
  rw [new, append_some, append_some, append_some, append_some, append_some, append_some,
    append_some, append_some, List.nil_append, hcontext]
  · have hlen : (UInt8.ofNat (contextBytes i).length).toNat = (contextBytes i).length := by
      rw [UInt8.toNat_ofNat']
      omega
    rw [Option.map_some, Option.map_some, asBytes, hlen, List.take_left]
  all_goals
    simp only [List.length_append, List.length_cons, List.length_nil, maxContextLen] at hwhole ⊢
    omega

theorem peerBytes_append_inj {p q : PeerIdBytes} {s t : Bytes}
    (h : peerBytes p ++ s = peerBytes q ++ t) : p = q ∧ s = t := by
  obtain ⟨hlen, hrest⟩ := List.cons.inj h
  have hlen : p.bytes.length = q.bytes.length := by
    rw [← length_ofNat p.le_max, hlen, length_ofNat q.le_max]
  obtain ⟨hbytes, rfl⟩ := List.append_inj hrest hlen
  exact ⟨PeerIdBytes.ext hbytes, rfl⟩

theorem contextBytes_injective : Function.Injective contextBytes := by
  intro i j h
  obtain ⟨hlocator, h⟩ := List.append_inj (List.append_cancel_left h) rfl
  obtain ⟨hcontroller, h⟩ := peerBytes_append_inj h
  obtain ⟨htarget, h⟩ := peerBytes_append_inj h
  obtain ⟨hn, hm⟩ := List.append_inj h (i.controllerNonce.2.trans j.controllerNonce.2.symm)
  have hwire := (fromWire_eq_some.2 hlocator).symm.trans (fromWire_eq_some.2 rfl)
  exact ContextInput.ext (Option.some.inj hwire) hcontroller htarget (Subtype.ext hn) (Subtype.ext hm)

end PakeContext

/-! ## The messages together -/

theorem length_u32 (n : UInt32) : (Codec.u32.enc n).length = 4 := Codec.u32.enc_length n

/-- The encoders that write into a buffer stay within it. -/
theorem length_encode_le :
    (∀ m, (ResolveResponse.encode m).length ≤ 66) ∧
    (∀ m, (EnterpriseResolveResponse.encode m).length ≤ 3 + maxAuthorizationUrlLen) ∧
    (∀ hello, (TerminalHello.encode hello).length ≤ maxHelloLen) := by
  have hpeer : ∀ peer : PeerIdBytes, (peerBytes peer).length ≤ 65 := fun peer => by
    have := peer.le_max
    rw [peerBytes, List.length_cons]
    omega
  refine ⟨fun m => ?_, fun m => ?_, fun hello => ?_⟩
  · cases m with
    | resolved peer =>
      have := hpeer peer
      rw [ResolveResponse.encode, List.length_cons]
      omega
    | _ => simp [ResolveResponse.encode, length_u32]
  · rw [maxAuthorizationUrlLen]
    cases m with
    | resolved peer =>
      have := hpeer peer
      rw [EnterpriseResolveResponse.encode, List.length_cons]
      omega
    | authenticate url =>
      have hurl : (utf8 url.text).length ≤ 2048 := url.le_max
      rw [EnterpriseResolveResponse.encode, List.length_cons, List.length_append,
        Codec.u16.enc_length, Codec.u16_width]
      omega
    | _ => simp [EnterpriseResolveResponse.encode, length_u32]
  · have hterm : hello.term.bytes.length ≤ 64 := hello.term.le_max
    have hcolor : hello.colorTerm.bytes.length ≤ 64 := hello.colorTerm.le_max
    rw [(hello.encode_layout rfl).1, maxHelloLen]
    omega

/-- Every decoder accepts exactly the encodings of its messages, each as the one message that it
encodes. The context of the password exchange is always built within its buffer, and no two inputs have
the same context. -/
theorem small_messages_canonical :
    Canonical RegistryRequest.encode RegistryRequest.decode ∧
    Canonical RegistryResponse.encode RegistryResponse.decode ∧
    Canonical ResolveRequest.encode ResolveRequest.decode ∧
    Canonical ResolveResponse.encode ResolveResponse.decode ∧
    Canonical EnterpriseStart.encode EnterpriseStart.decode ∧
    Canonical EnterpriseSelect.encode EnterpriseSelect.decode ∧
    Canonical EnterpriseResolveResponse.encode EnterpriseResolveResponse.decode ∧
    Canonical authClientHello.enc (decodeFixed authClientHello) ∧
    Canonical AuthServerResponse.encode AuthServerResponse.decode ∧
    Canonical authClientFinish.enc (decodeFixed authClientFinish) ∧
    Canonical (encodeMarker authenticated) (decodeMarker authenticated) ∧
    Canonical TerminalHello.encode TerminalHello.decode ∧
    Canonical TerminalResize.encode TerminalResize.decode ∧
    Canonical TerminalExit.encode TerminalExit.decode ∧
    Canonical (encodeMarker terminalComplete) (decodeMarker terminalComplete) ∧
    Canonical (encodeMarker terminalReady) (decodeMarker terminalReady) ∧
    (∀ i : ContextInput,
      (PakeContext.new i.locator i.controller i.target i.controllerNonce i.targetNonce).map
        PakeContext.asBytes = some (PakeContext.contextBytes i) ∧
      (PakeContext.contextBytes i).length ≤ maxContextLen) ∧
    Function.Injective PakeContext.contextBytes :=
  ⟨canonical_of_iff RegistryRequest.decode_eq_ok, canonical_of_iff RegistryResponse.decode_eq_ok,
    canonical_of_iff ResolveRequest.decode_eq_ok, canonical_of_iff ResolveResponse.decode_eq_ok,
    canonical_of_iff EnterpriseStart.decode_eq_ok, canonical_of_iff EnterpriseSelect.decode_eq_ok,
    canonical_of_iff EnterpriseResolveResponse.decode_eq_ok,
    decodeFixed_canonical fun _ => ⟨trivial, trivial⟩,
    canonical_of_iff AuthServerResponse.decode_eq_ok, decodeFixed_canonical fun _ => trivial,
    decodeMarker_canonical _, canonical_of_iff TerminalHello.decode_eq_ok,
    canonical_of_iff TerminalResize.decode_eq_ok, canonical_of_iff TerminalExit.decode_eq_ok,
    decodeMarker_canonical _, decodeMarker_canonical _,
    fun i => ⟨PakeContext.new_asBytes i,
      (PakeContext.length_contextBytes i).trans (by rw [maxContextLen]; omega)⟩,
    PakeContext.contextBytes_injective⟩

end Yonder.Wire
