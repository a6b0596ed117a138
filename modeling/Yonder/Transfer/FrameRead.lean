import Yonder.Lib.Fill
import Yonder.Transfer.Stream
import Yonder.Wire.FileTransferCodec

/-!
# Reading one transfer frame

`read_frame` on a stream that delivers its bytes in any pieces and then ends. The header and the payload
are read by the same `read_exact`, which reports the end of the stream as a boundary whenever it comes
before the first byte of that read. So an end right behind a header that announces a payload is reported
as one, though five bytes of a frame were consumed: `eof_iff` says that this is the only such end.
-/

namespace Yonder.Transfer

open Lib Wire

/-- A read: its value with the schedule and the stream behind it, a failure, or no end yet. -/
inductive Reading (Value : Type) where
  | done (value : Value) (polls : List Poll) (stream : Bytes)
  | failed (error : FrameReadError)
  | waiting
deriving DecidableEq

/-- A read and the next one. -/
def Reading.bind {First Second : Type} (first : Reading First)
    (next : First → List Poll → Bytes → Reading Second) : Reading Second :=
  match first with
  | .done value polls stream => next value polls stream
  | .failed error => .failed error
  | .waiting => .waiting

/-- `read_exact`; a poll that cancels stands for the budget that elapsed. -/
def readExact (len : Nat) (polls : List Poll) (stream : Bytes) : Reading Bytes :=
  match fill polls stream (Buffer.empty UInt8 len) with
  | (.full, polls, stream, buffer) => .done buffer.1 polls stream
  | (.eof, _, _, buffer) => .failed (if buffer.1.length = 0 then .eof else .truncated)
  | (.cancelled, _) => .failed .timeout
  | (.waiting, _) => .waiting

/-- The data sink, given by its length, has room for the payload. -/
def sinkHolds (sink : Option Nat) (len : Nat) : Bool :=
  match sink with
  | none => false
  | some room => decide (len ≤ room)

/-- A control frame that has arrived: `decode_frame` and `owned_message`. -/
def ownedControl (frame : Bytes) : Except FrameReadError FileTransferMessage :=
  match decodeFrame frame with
  | .error _ => .error .protocol
  | .ok (.data _) => .error .protocol
  | .ok m => .ok m

/-- `read_frame_inner`. -/
def readFrameInner (sink : Option Nat) (polls : List Poll) (stream : Bytes) :
    Reading FileTransferMessage :=
  (readExact frameHeaderLen polls stream).bind fun header polls stream =>
    match TransferTag.fromByte (header.headD 0) with
    | none => .failed .protocol
    | some tag =>
      let len := beNat (header.drop 1)
      if tag.allows len = false then .failed .protocol
      else if tag = .data then
        if sinkHolds sink len then
          (readExact len polls stream).bind fun payload polls stream =>
            .done (.data payload) polls stream
        else .failed .protocol
      else
        (readExact len polls stream).bind fun payload polls stream =>
          match ownedControl (header ++ payload) with
          | .error error => .failed error
          | .ok m => .done m polls stream

/-! ## Exact reads -/

/-- A schedule without a timeout that has a read for every byte of the stream and one for its end. -/
structure Enough (polls : List Poll) (stream : Bytes) : Prop where
  steady : Poll.cancel ∉ polls
  reads : stream.length < Poll.reads polls

variable {len : Nat} {polls : List Poll} {sink : Option Nat}

/-- A read of bytes that are there. -/
theorem readExact_done {stream : Bytes} (h : Enough polls stream) (hlen : len ≤ stream.length) :
    ∃ polls', readExact len polls stream = .done (stream.take len) polls' (stream.drop len) ∧
      Enough polls' (stream.drop len) := by
  have henough := h.reads
  have hdrop := List.length_drop (l := stream) (i := len)
  obtain ⟨polls', buffer, hfill, hdata, hsteady, hreads⟩ := fill_of_le len h.steady hlen (by omega)
  rw [readExact, hfill]
  refine ⟨polls', ?_, hsteady, by omega⟩
  dsimp only
  rw [hdata]

/-- A read beyond the end of the stream. -/
theorem readExact_short {stream : Bytes} (h : Enough polls stream) (hlen : stream.length < len) :
    readExact len polls stream = .failed (if stream = [] then .eof else .truncated) := by
  obtain ⟨⟨how, polls', stream', buffer⟩, hfill⟩ :
      ∃ result, fill polls stream (Buffer.empty UInt8 len) = result := ⟨_, rfl⟩
  have spec := fill_spec hfill
  have hbytes : buffer.1 ++ stream' = stream := spec.bytes
  have htotal := congrArg List.length hbytes
  rw [List.length_append] at htotal
  cases how with
  | full =>
    have hfull := spec.full rfl
    omega
  | eof =>
    rw [spec.eof rfl, List.append_nil] at hbytes
    rw [readExact, hfill]
    dsimp only
    rw [hbytes]
    simp only [List.length_eq_zero_iff]
  | cancelled => exact absurd rfl (spec.steady h.steady).1
  | waiting =>
    have hreads := spec.reads
    have henough := h.reads
    rw [spec.waiting rfl, if_neg (by rintro ⟨⟩)] at hreads
    change Poll.reads polls + 0 ≤ 0 + buffer.1.length + 0 at hreads
    omega

/-! ## Where the stream ends -/

/-- The header that a stream begins with, if it announces a payload that is then read. -/
def announced (sink : Option Nat) (stream : Bytes) : Option Nat :=
  match TransferTag.fromByte (stream.headD 0) with
  | none => none
  | some tag =>
    let len := beNat ((stream.take frameHeaderLen).drop 1)
    if tag.allows len && (tag != .data || sinkHolds sink len) then some len else none

/-- The stream ends after at least one byte of a frame and before its last one. -/
def InsideFrame (sink : Option Nat) (stream : Bytes) : Prop :=
  stream ≠ [] ∧ (stream.length < frameHeaderLen ∨
    ∃ len, announced sink stream = some len ∧ stream.length < frameHeaderLen + len)

/-- The stream ends right behind a header that announces a payload. -/
def EndsBehindHeader (sink : Option Nat) (stream : Bytes) : Prop :=
  stream.length = frameHeaderLen ∧ ∃ len, announced sink stream = some len ∧ 0 < len

/-- What is reported when the stream ends within a header. -/
theorem readFrameInner_short {stream : Bytes} (h : Enough polls stream)
    (hshort : stream.length < frameHeaderLen) :
    readFrameInner sink polls stream = .failed (if stream = [] then .eof else .truncated) := by
  rw [readFrameInner, readExact_short h hshort]
  rfl

theorem headD_take (stream : Bytes) (h : frameHeaderLen ≤ stream.length) :
    (stream.take frameHeaderLen).headD 0 = stream.headD 0 := by
  cases stream with
  | nil => cases h
  | cons b rest => rfl

/-- The payload behind a header, where the stream ends within it. -/
theorem readExact_payload_short {stream : Bytes} (h : Enough polls (stream.drop frameHeaderLen))
    (hlong : frameHeaderLen ≤ stream.length) (hshort : stream.length < frameHeaderLen + len) :
    readExact len polls (stream.drop frameHeaderLen) =
      .failed (if stream.length = frameHeaderLen then .eof else .truncated) := by
  have hrest : (stream.drop frameHeaderLen).length = stream.length - frameHeaderLen :=
    List.length_drop
  rw [readExact_short h (by omega)]
  have hnil : stream.drop frameHeaderLen = [] ↔ stream.length = frameHeaderLen := by
    rw [List.drop_eq_nil_iff]
    omega
  simp only [hnil]

/-- What a header is read as: it is refused, or its payload is read next, whatever the payload then
gives. -/
theorem readFrameInner_header {stream : Bytes} (h : Enough polls stream)
    (hlong : frameHeaderLen ≤ stream.length) :
    (announced sink stream = none ∧ readFrameInner sink polls stream = .failed .protocol) ∨
      ∃ len polls' use, announced sink stream = some len ∧
        Enough polls' (stream.drop frameHeaderLen) ∧
        (∀ payload polls stream, use payload polls stream = .failed .protocol ∨
          ∃ m, use payload polls stream = .done m polls stream) ∧
        readFrameInner sink polls stream =
          (readExact len polls' (stream.drop frameHeaderLen)).bind use := by
  obtain ⟨polls', hheader, henough⟩ := readExact_done h hlong
  rw [readFrameInner, hheader]
  dsimp only [Reading.bind]
  rw [headD_take stream hlong, announced]
  cases htag : TransferTag.fromByte (stream.headD 0) with
  | none => exact .inl ⟨rfl, rfl⟩
  | some tag =>
    dsimp only
    cases hallows : tag.allows (beNat ((stream.take frameHeaderLen).drop 1)) with
    | false => exact .inl ⟨rfl, rfl⟩
    | true =>
      by_cases hdata : tag = .data
      · subst hdata
        cases hsink : sinkHolds sink (beNat ((stream.take frameHeaderLen).drop 1)) with
        | false => exact .inl ⟨rfl, rfl⟩
        | true =>
          exact .inr ⟨_, polls', _, rfl, henough, fun _ _ _ => .inr ⟨_, rfl⟩, rfl⟩
      · have hne : (tag != TransferTag.data) = true := bne_iff_ne.2 hdata
        rw [hne, if_neg hdata]
        refine .inr ⟨_, polls', _, rfl, henough, fun payload polls stream => ?_, rfl⟩
        split
        case h_1 error howned =>
          -- the only failure of a frame that has arrived is that of the protocol
          have hprotocol : error = .protocol := by
            unfold ownedControl at howned
            split at howned <;> cases howned <;> rfl
          rw [hprotocol]
          exact .inl rfl
        case h_2 m howned => exact .inr ⟨m, rfl⟩

/-- What is reported when the stream has a header. -/
theorem readFrameInner_long {stream : Bytes} (h : Enough polls stream)
    (hlong : frameHeaderLen ≤ stream.length) :
    (announced sink stream = none ∧ readFrameInner sink polls stream = .failed .protocol) ∨
      ∃ len, announced sink stream = some len ∧
        (stream.length < frameHeaderLen + len → readFrameInner sink polls stream =
          .failed (if stream.length = frameHeaderLen then .eof else .truncated)) ∧
        (frameHeaderLen + len ≤ stream.length →
          readFrameInner sink polls stream = .failed .protocol ∨
            ∃ m polls' rest, readFrameInner sink polls stream = .done m polls' rest) := by
  rcases readFrameInner_header h hlong with hnone | ⟨len, polls', use, hsome, henough, huse, hread⟩
  · exact .inl hnone
  · refine .inr ⟨len, hsome, fun hshort => ?_, fun hwhole => ?_⟩
    · rw [hread, readExact_payload_short henough hlong hshort]
      rfl
    · have hrest : (stream.drop frameHeaderLen).length = stream.length - frameHeaderLen :=
        List.length_drop
      obtain ⟨polls'', hpayload, -⟩ :=
        readExact_done henough (show len ≤ (stream.drop frameHeaderLen).length by omega)
      rw [hread, hpayload]
      rcases huse ((stream.drop frameHeaderLen).take len) polls''
        ((stream.drop frameHeaderLen).drop len) with hfailed | ⟨m, hdone⟩
      · exact .inl hfailed
      · exact .inr ⟨m, _, _, hdone⟩

/-- For every sink, every stream that ends and every way its bytes are delivered: `Eof` is reported
exactly for a stream without a byte and `Truncated` for every end within a frame, exactly if the stream
does not end right behind a header that announces a payload. -/
theorem eof_iff (sink : Option Nat) {polls : List Poll} {stream : Bytes} (h : Enough polls stream) :
    ((readFrameInner sink polls stream = .failed .eof ↔ stream = []) ∧
      (InsideFrame sink stream → readFrameInner sink polls stream = .failed .truncated)) ↔
        ¬ EndsBehindHeader sink stream := by
  constructor
  · rintro ⟨-, hinside⟩ ⟨hlength, len, hannounced, hpos⟩
    rcases readFrameInner_long h hlength.ge with ⟨hnone, -⟩ | ⟨len', hsome, hshort, -⟩
    · rw [hnone] at hannounced
      cases hannounced
    · rw [hsome] at hannounced
      cases hannounced
      have hread := hshort (by omega)
      rw [if_pos hlength] at hread
      have hne : stream ≠ [] := by
        rintro rfl
        cases hlength
      rw [hinside ⟨hne, .inr ⟨len, hsome, by omega⟩⟩] at hread
      cases hread
  · intro hnot
    by_cases hshort : stream.length < frameHeaderLen
    · rw [readFrameInner_short h hshort]
      by_cases hnil : stream = []
      · rw [if_pos hnil]
        exact ⟨⟨fun _ => hnil, fun _ => rfl⟩, fun hinside => absurd hnil hinside.1⟩
      · rw [if_neg hnil]
        exact ⟨⟨fun hread => (by cases hread), fun hempty => absurd hempty hnil⟩, fun _ => rfl⟩
    · have hne : stream ≠ [] := by
        rintro rfl
        exact hshort (by decide)
      rcases readFrameInner_long h (Nat.not_lt.1 hshort) with
        ⟨hnone, hread⟩ | ⟨len, hsome, hwithin, hwhole⟩
      · rw [hread]
        refine ⟨⟨fun h => (by cases h), fun h => absurd h hne⟩, ?_⟩
        rintro ⟨-, hheader | ⟨len, hsome, -⟩⟩
        · exact absurd hheader hshort
        · rw [hnone] at hsome
          cases hsome
      · by_cases hend : stream.length < frameHeaderLen + len
        · -- an end right behind the header is excluded, since a payload was announced
          have hlater : stream.length ≠ frameHeaderLen := by
            intro hlength
            exact hnot ⟨hlength, len, hsome, by omega⟩
          have hread := hwithin hend
          rw [if_neg hlater] at hread
          rw [hread]
          exact ⟨⟨fun h => (by cases h), fun h => absurd h hne⟩, fun _ => rfl⟩
        · have hnotInside : ¬ InsideFrame sink stream := by
            rintro ⟨-, hheader | ⟨len', hsome', hlt⟩⟩
            · exact hshort hheader
            · rw [hsome] at hsome'
              cases hsome'
              exact hend hlt
          rcases hwhole (Nat.not_lt.1 hend) with hread | ⟨m, polls', rest, hread⟩
          · rw [hread]
            exact ⟨⟨fun h => (by cases h), fun h => absurd h hne⟩, fun h => absurd h hnotInside⟩
          · rw [hread]
            exact ⟨⟨fun h => (by cases h), fun h => absurd h hne⟩, fun h => absurd h hnotInside⟩

/-- The equivalence at a stream that ends within the payload of an `Error`, delivered byte by byte. -/
theorem eof_iff_within_payload :
    ¬ EndsBehindHeader none [9, 0, 0, 0, 2, 0] ∧
      readFrameInner none (List.replicate 7 (.ready 0)) [9, 0, 0, 0, 2, 0] = .failed .truncated := by
  have hnot : ¬ EndsBehindHeader none [9, 0, 0, 0, 2, 0] := by
    rintro ⟨hlength, -⟩
    cases hlength
  have henough : Enough (List.replicate 7 (.ready 0)) [9, 0, 0, 0, 2, 0] := ⟨by decide, by decide⟩
  refine ⟨hnot, ((eof_iff none henough).2 hnot).2 ⟨by rintro ⟨⟩, .inr ⟨2, by decide, by decide⟩⟩⟩

/-- The header of an `Error` is consumed and its two bytes of payload never come: the end is reported as
one at a message boundary. -/
theorem eof_behind_header :
    InsideFrame none [9, 0, 0, 0, 2] ∧
      readFrameInner none (List.replicate 6 (.ready 4)) [9, 0, 0, 0, 2] = .failed .eof :=
  ⟨⟨by rintro ⟨⟩, .inr ⟨2, by decide, by decide⟩⟩, by decide⟩

end Yonder.Transfer
