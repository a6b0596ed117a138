import Yonder.Lib.ReadProgram
import Yonder.Wire.SmallMessages

/-!
# Readers of messages without a length

An enterprise response and a terminal hello are read from a stream field by field: each reader finds
the end of its message on its own, from the tag and the length bytes, and decodes what it has read.

On every stream a reader returns a message exactly if the stream begins with its encoding, and
leaves what follows. The slices and indices of the fixed buffer of the second reader are checked
here, as they are in the source.
-/

namespace Yonder.Wire

open Lib

/-- How a reader fails: the stream ends or a timeout elapses, the bytes are no message, or a slice or
index is out of bounds. -/
inductive StreamError where
  | io
  | timeout
  | protocol (error : ProtocolError)
  | panicked
deriving DecidableEq

/-- A reader of a stream of bytes. -/
abbrev StreamReader (Value : Type) : Type := Program UInt8 StreamError Value

/-- A run of a reader on a stream that is delivered in pieces. -/
def StreamReader.run {Value : Type} (reader : StreamReader Value) (polls : List Poll)
    (stream : Bytes) : Run UInt8 StreamError Value :=
  Program.run .io .timeout reader polls stream

/-- `stream.read_exact` into a buffer of its own. -/
def readExact (len : Nat) : StreamReader Bytes := .read len .value

/-- The decoder at the end of a reader. -/
def decoded {Value : Type} : Except ProtocolError Value → StreamReader Value
  | .ok v => .value v
  | .error e => .fail (.protocol e)

/-! ## The enterprise response -/

/-- The message that begins with a tag, by the match of `read_enterprise_response`. -/
def readBehindTag (tag : UInt8) : StreamReader Bytes :=
  if tag = 0x10 then (readExact 1).bind fun payload => .value (0x10 :: payload)
  else if tag = 0x11 then (readExact 4).bind fun payload => .value (0x11 :: payload)
  else if tag = 0x12 then
    (readExact 2).bind fun lead =>
      if beNat lead > maxAuthorizationUrlLen then .fail (.protocol .invalidAuthorizationUrl)
      else (readExact (beNat lead)).bind fun url => .value (0x12 :: (lead ++ url))
  else if tag = 0x13 then
    (readExact 1).bind fun lead =>
      (readExact (lead.headD 0).toNat).bind fun peer => .value (0x13 :: (lead ++ peer))
  else .value [tag]

/-- `read_enterprise_response`. -/
def readEnterpriseResponse : StreamReader EnterpriseResolveResponse :=
  (readExact 1).bind fun tag =>
    (readBehindTag (tag.headD 0)).bind fun message => decoded (EnterpriseResolveResponse.decode message)

/-! ## The terminal hello -/

/-- `stream.read_exact` into the slice `bytes[start..stop]`. -/
def readInto (bytes : Bytes) (start stop : Nat) : StreamReader Bytes :=
  if start ≤ stop ∧ stop ≤ bytes.length then
    (readExact (stop - start)).bind fun data => .value (bytes.take start ++ data ++ bytes.drop stop)
  else .fail .panicked

/-- The index `bytes[i]`. -/
def index (bytes : Bytes) (i : Nat) : StreamReader UInt8 :=
  match bytes[i]? with
  | some b => .value b
  | none => .fail .panicked

/-- The slice `bytes[..stop]`. -/
def sliceTo (bytes : Bytes) (stop : Nat) : StreamReader Bytes :=
  if stop ≤ bytes.length then .value (bytes.take stop) else .fail .panicked

/-- `read_terminal_hello_io`. -/
def readTerminalHelloIo : StreamReader TerminalHello :=
  (readInto (List.replicate maxHelloLen 0) 0 6).bind fun bytes =>
  (index bytes 5).bind fun termLen =>
  let termEnd := 6 + termLen.toNat
  if termEnd ≥ maxHelloLen then .fail (.protocol (.invalidLength maxHelloLen (termEnd + 1)))
  else
    (readInto bytes 6 (termEnd + 1)).bind fun bytes =>
    (index bytes termEnd).bind fun colorLen =>
    let stop := termEnd + 1 + colorLen.toNat
    if stop > maxHelloLen then .fail (.protocol (.invalidLength maxHelloLen stop))
    else
      (readInto bytes (termEnd + 1) stop).bind fun bytes =>
      (sliceTo bytes stop).bind fun message => decoded (TerminalHello.decode message)

/-! ## What the readers take from a stream -/

variable {stream rest : Bytes}

theorem readExact_bind {Value : Type} {len : Nat} {f : Bytes → StreamReader Value} :
    (readExact len).bind f = .read len f := rfl

theorem decoded_eval {Value : Type} {result : Except ProtocolError Value} {v : Value} :
    (decoded result).eval stream = some (.ok v, rest) ↔ result = .ok v ∧ stream = rest := by
  cases result <;> simp [decoded, Program.eval]

/-- The bytes that are decoded are those that were read. -/
theorem readBehindTag_eval {tag : UInt8} {message : Bytes}
    (h : (readBehindTag tag).eval stream = some (.ok message, rest)) :
    tag :: stream = message ++ rest := by
  rw [readBehindTag] at h
  split_ifs at h with htag htag htag htag
  -- the providers and the retry delay have a fixed length
  · obtain ⟨payload, tail, rfl, -, h⟩ := Program.eval_read_eq_some h
    cases h
    rw [htag, List.cons_append]
  · obtain ⟨payload, tail, rfl, -, h⟩ := Program.eval_read_eq_some h
    cases h
    rw [htag, List.cons_append]
  -- the URL and the peer come behind a length
  · rw [readExact_bind] at h
    obtain ⟨lead, tail, rfl, -, h⟩ := Program.eval_read_eq_some h
    split_ifs at h with hlong
    · cases h
    · obtain ⟨url, tail, rfl, -, h⟩ := Program.eval_read_eq_some h
      cases h
      rw [htag, List.cons_append, List.append_assoc]
  · obtain ⟨lead, tail, rfl, -, h⟩ := Program.eval_read_eq_some h
    obtain ⟨peer, tail, rfl, -, h⟩ := Program.eval_read_eq_some h
    cases h
    rw [htag, List.cons_append, List.append_assoc]
  -- any other tag is left to the decoder
  · cases h
    rfl

/-- An encoding is read to its end. -/
theorem readBehindTag_encode {tag : UInt8} {payload : Bytes} {m : EnterpriseResolveResponse}
    (hm : m.encode = tag :: payload) :
    (readBehindTag tag).eval (payload ++ rest) = some (.ok (tag :: payload), rest) := by
  cases m with
  | authenticate url =>
    cases hm
    obtain ⟨hi, lo, hlead⟩ : ∃ hi lo, Codec.u16.enc (UInt16.ofNat (utf8 url.text).length) = [hi, lo] :=
      ⟨_, _, rfl⟩
    have hlen := (EnterpriseResolveResponse.u16_enc_length url hi lo).1 hlead
    rw [hlead, List.append_assoc]
    rw [readBehindTag, if_neg (by decide), if_neg (by decide), if_pos rfl, readExact_bind,
      Program.eval_read_append [hi, lo] (show _ = 2 from rfl),
      if_neg (not_lt.2 (hlen ▸ url.le_max))]
    exact Program.eval_read_append _ hlen
  | resolved peer =>
    cases hm
    refine (Program.eval_read_append [_] rfl).trans ?_
    exact Program.eval_read_append _ (length_ofNat peer.le_max).symm
  | _ =>
    -- a fixed length, so the reads compute
    cases hm
    rfl

theorem readEnterpriseResponse_eval {m : EnterpriseResolveResponse} :
    readEnterpriseResponse.eval stream = some (.ok m, rest) ↔ stream = m.encode ++ rest := by
  rw [readEnterpriseResponse, readExact_bind]
  constructor
  · intro h
    obtain ⟨tag, tail, rfl, htag, h⟩ := Program.eval_read_eq_some h
    obtain ⟨message, tail', hmessage, h⟩ := Program.eval_bind_eq_ok.1 h
    obtain ⟨hdecode, rfl⟩ := decoded_eval.1 h
    obtain ⟨b, rfl⟩ := List.length_eq_one_iff.1 htag
    rw [(EnterpriseResolveResponse.decode_eq_ok _ _).1 hdecode]
    exact readBehindTag_eval hmessage
  · rintro rfl
    obtain ⟨tag, payload, hm⟩ : ∃ tag payload, m.encode = tag :: payload := by
      cases m <;> exact ⟨_, _, rfl⟩
    rw [hm]
    refine (Program.eval_read_append [tag] rfl).trans
      (Program.eval_bind_eq_ok.2 ⟨_, _, readBehindTag_encode hm, decoded_eval.2 ⟨?_, rfl⟩⟩)
    exact (EnterpriseResolveResponse.decode_eq_ok _ _).2 hm

/-! ## The buffer of the terminal hello -/

theorem readInto_filled {Value : Type} (filled : Bytes) {zeros : Bytes} {start len : Nat}
    {f : Bytes → StreamReader Value} (hstart : filled.length = start) (hroom : len ≤ zeros.length) :
    (readInto (filled ++ zeros) start (start + len)).bind f =
      .read len fun data => f (filled ++ data ++ zeros.drop len) := by
  have hbound : start ≤ start + len ∧ start + len ≤ (filled ++ zeros).length := by
    rw [List.length_append]
    omega
  rw [readInto, if_pos hbound, Nat.add_sub_cancel_left, List.take_left' hstart, ← List.drop_drop,
    List.drop_left' hstart]
  rfl

theorem index_filled {filled zeros : Bytes} {i : Nat} (h : i < filled.length) :
    index (filled ++ zeros) i = .value (filled.getD i 0) := by
  rw [index, List.getElem?_append_left h, List.getElem?_eq_getElem h]
  simp [h]

/-- The reader without its buffer. -/
def helloProgram : StreamReader TerminalHello :=
  .read 6 fun head =>
    let termLen := (head.getD 5 0).toNat
    if 6 + termLen ≥ maxHelloLen then
      .fail (.protocol (.invalidLength maxHelloLen (6 + termLen + 1)))
    else
      .read (termLen + 1) fun term =>
        let colorLen := (term.getD termLen 0).toNat
        if 6 + termLen + 1 + colorLen > maxHelloLen then
          .fail (.protocol (.invalidLength maxHelloLen (6 + termLen + 1 + colorLen)))
        else .read colorLen fun color => decoded (TerminalHello.decode (head ++ term ++ color))

/-- Every slice and index is within the buffer, and what is decoded is what was read. -/
theorem readTerminalHelloIo_eval : readTerminalHelloIo.eval stream = helloProgram.eval stream := by
  rw [readTerminalHelloIo, helloProgram, show readInto (List.replicate maxHelloLen 0) 0 6 =
      readInto ([] ++ List.replicate maxHelloLen 0) 0 (0 + 6) from rfl,
    readInto_filled [] (show _ = 0 from rfl) (by simp [maxHelloLen])]
  -- the buffer is what was read so far and zeros behind it; each read moves the border
  refine Program.eval_read_congr fun head tail hhead => ?_
  rw [List.nil_append, index_filled (by omega), Program.bind]
  dsimp only
  split_ifs with hterm
  · rfl
  rw [Nat.add_assoc 6, readInto_filled head hhead
    (by rw [List.length_drop, List.length_replicate]; omega)]
  refine Program.eval_read_congr fun term tail hlen => ?_
  -- the second length byte is the last of what was just read
  have hcolor : ∀ n, (head ++ term).getD (6 + n) 0 = term.getD n 0 := fun n => by
    rw [List.getD_eq_getElem?_getD, List.getElem?_append_right (by omega), hhead,
      Nat.add_sub_cancel_left, List.getD_eq_getElem?_getD]
  rw [index_filled (by rw [List.length_append]; omega), Program.bind, hcolor, ← Nat.add_assoc]
  split_ifs with hstop
  · rfl
  rw [readInto_filled (head ++ term) (by rw [List.length_append]; omega)
    (by rw [List.length_drop, List.length_drop, List.length_replicate]; omega)]
  refine Program.eval_read_congr fun color tail hcolorLen => ?_
  have hmessage : (head ++ term ++ color).length =
      6 + (head.getD 5 0).toNat + 1 + (term.getD (head.getD 5 0).toNat 0).toNat := by
    rw [List.length_append, List.length_append]
    omega
  rw [sliceTo, if_pos (by rw [List.length_append]; omega), List.take_left' hmessage, Program.bind]

/-- The reader fails with an error of the protocol or returns the hello that the stream begins with. -/
theorem readTerminalHelloIo_cases {result : Except StreamError TerminalHello}
    (h : readTerminalHelloIo.eval stream = some (result, rest)) :
    (∃ e, result = .error (.protocol e)) ∨
      ∃ hello, result = .ok hello ∧ stream = hello.encode ++ rest := by
  rw [readTerminalHelloIo_eval, helloProgram] at h
  obtain ⟨head, tail, rfl, -, h⟩ := Program.eval_read_eq_some h
  dsimp only at h
  split_ifs at h with hterm
  · cases h
    exact .inl ⟨_, rfl⟩
  obtain ⟨term, tail, rfl, -, h⟩ := Program.eval_read_eq_some h
  split_ifs at h with hstop
  · cases h
    exact .inl ⟨_, rfl⟩
  obtain ⟨color, tail, rfl, -, h⟩ := Program.eval_read_eq_some h
  cases hdecode : TerminalHello.decode (head ++ term ++ color) with
  | error e =>
    rw [hdecode] at h
    cases h
    exact .inl ⟨e, rfl⟩
  | ok hello =>
    rw [hdecode] at h
    cases h
    refine .inr ⟨hello, rfl, ?_⟩
    rw [(TerminalHello.decode_eq_ok _ _).1 hdecode, List.append_assoc, List.append_assoc]

theorem readTerminalHelloIo_eval_ok {hello : TerminalHello} :
    readTerminalHelloIo.eval stream = some (.ok hello, rest) ↔ stream = hello.encode ++ rest := by
  constructor
  · intro h
    rcases readTerminalHelloIo_cases h with ⟨e, he⟩ | ⟨hello', hok, hstream⟩
    · cases he
    · cases hok
      exact hstream
  · rintro rfl
    rw [readTerminalHelloIo_eval, helloProgram]
    have hterm : hello.term.bytes.length ≤ 64 := hello.term.le_max
    have hcolor : hello.colorTerm.bytes.length ≤ 64 := hello.colorTerm.le_max
    obtain ⟨a, b, c, d, hsize⟩ : ∃ a b c d, sizeCodec.enc hello.size = [a, b, c, d] :=
      ⟨_, _, _, _, rfl⟩
    have hencode : hello.encode = [0x01, a, b, c, d, UInt8.ofNat hello.term.bytes.length] ++
        (hello.term.bytes ++ [UInt8.ofNat hello.colorTerm.bytes.length]) ++
        hello.colorTerm.bytes := by
      simp [TerminalHello.encode, hsize]
    have hdecode := TerminalHello.decode_encode hello
    rw [hencode] at hdecode ⊢
    -- the two lengths are the bytes that the reader looks at
    have htermLen : ([0x01, a, b, c, d, UInt8.ofNat hello.term.bytes.length].getD 5 0).toNat =
        hello.term.bytes.length := length_ofNat hterm
    have hcolorLen : ((hello.term.bytes ++ [UInt8.ofNat hello.colorTerm.bytes.length]).getD
        hello.term.bytes.length 0).toNat = hello.colorTerm.bytes.length := by
      simpa using length_ofNat hcolor
    rw [List.append_assoc, List.append_assoc, Program.eval_read_append _ (show _ = 6 from rfl)]
    dsimp only
    rw [htermLen, if_neg (by rw [maxHelloLen]; omega), Program.eval_read_append _ (by simp),
      hcolorLen, if_neg (by rw [maxHelloLen]; omega), Program.eval_read_append _ rfl]
    exact decoded_eval.2 ⟨hdecode, rfl⟩

/-! ## Runs -/

/-- A reader and the messages it is for: on every schedule of reads that is long enough and has no
timeout a message is returned from its encoding, whatever follows, and what follows stays; and a message
is returned on no schedule from other bytes. -/
structure Reads {Message : Type} (reader : StreamReader Message) (encode : Message → Bytes)
    (decode : Bytes → Except ProtocolError Message) : Prop where
  returns : ∀ m rest polls, Poll.cancel ∉ polls → (encode m).length ≤ Poll.reads polls →
    ∃ polls', reader.run polls (encode m ++ rest) = .done m polls' rest
  only : ∀ polls stream m polls' rest, reader.run polls stream = .done m polls' rest →
    ∃ consumed, stream = consumed ++ rest ∧ decode consumed = .ok m

section Run

variable {Message : Type} {reader : StreamReader Message} {polls : List Poll}

theorem StreamReader.run_agrees (reader : StreamReader Message) (polls : List Poll)
    (stream : Bytes) : (reader.run polls stream).Agrees .io .timeout (reader.eval stream) :=
  Program.run_agrees reader polls stream

/-- A panic does not depend on the schedule. -/
theorem panicked_of_run (h : reader.run polls stream = .failed .panicked) :
    ∃ rest, reader.eval stream = some (.error .panicked, rest) := by
  have hagrees := StreamReader.run_agrees reader polls stream
  rw [h] at hagrees
  rcases hagrees with hio | htimeout | hpanicked
  · cases hio
  · cases htimeout
  · exact hpanicked

end Run

theorem reads_of_eval {Message : Type} {reader : StreamReader Message} {encode : Message → Bytes}
    {decode : Bytes → Except ProtocolError Message} (hdecode : ∀ m, decode (encode m) = .ok m)
    (heval : ∀ {stream rest m}, reader.eval stream = some (.ok m, rest) ↔ stream = encode m ++ rest) :
    Reads reader encode decode where
  returns m rest polls hsteady hreads :=
    Program.run_of_eval (heval.2 rfl) hsteady (by rw [List.length_append]; omega)
  only polls stream m polls' rest hrun := by
    have hagrees := StreamReader.run_agrees reader polls stream
    rw [hrun] at hagrees
    exact ⟨encode m, heval.1 hagrees, hdecode m⟩

/-- Both readers return exactly the messages whose encodings the stream begins with, for every way the
stream is delivered, and no slice or index of the buffer for a hello is out of bounds. -/
theorem streamed_messages :
    Reads readEnterpriseResponse EnterpriseResolveResponse.encode EnterpriseResolveResponse.decode ∧
    Reads readTerminalHelloIo TerminalHello.encode TerminalHello.decode ∧
    ∀ polls stream, readTerminalHelloIo.run polls stream ≠ .failed .panicked := by
  refine ⟨reads_of_eval (fun m => (EnterpriseResolveResponse.decode_eq_ok _ m).2 rfl)
      readEnterpriseResponse_eval,
    reads_of_eval TerminalHello.decode_encode readTerminalHelloIo_eval_ok, fun polls stream hrun => ?_⟩
  obtain ⟨rest, hpanicked⟩ := panicked_of_run hrun
  rcases readTerminalHelloIo_cases hpanicked with ⟨e, he⟩ | ⟨hello, hok, -⟩
  · cases he
  · cases hok

end Yonder.Wire
