import Yonder.Audit.Facts

/-!
# The canonical blocks of a byte stream

`recordInput` and `recordOutputStep` of the session take the completed blocks and the records of a step
as lists. The code collects them in arrays of fixed capacity, takes slices of the segment and copies them
into the partial block, and expects each of these to succeed. Here every such check is written out;
`feedChecked_eq`, `recordInputChecked_eq` and `recordOutputChecked_eq` say that none of them fails, so the
checked calls are those of the session.

The main result is about a whole stream: the blocks, their records and the chain depend on the bytes
alone, not on the segments in which they were recorded.
-/

namespace Yonder.Audit

open Lib Wire

def maxBlocksPerSegment : Nat := 4
def maxRecordsPerStep : Nat := 6
def maxInlinePayloadLen : Nat := 8 + 32 + 1 + 4 + 911
def splitPrefixLen : Nat := 8 + 32

/-- An error that is returned, or a check that panics. -/
inductive Fault where
  | error (e : AuditError)
  | panicked (message : String)
deriving DecidableEq, Repr

/-- The operator `?`. -/
def raised {α : Type} : Except AuditError α → Except Fault α
  | .ok a => .ok a
  | .error e => .error (.error e)

/-- `expect`. -/
def expected {α : Type} (message : String) : Except AuditError α → Except Fault α
  | .ok a => .ok a
  | .error _ => .error (.panicked message)

/-- The slice `bytes[start..stop]`. -/
def slice (bytes : Bytes) (start stop : Nat) : Except Fault Bytes :=
  if start ≤ stop ∧ stop ≤ bytes.length then .ok ((bytes.drop start).take (stop - start))
  else .error (.panicked "range out of bounds")

/-- `copy_from_slice` into a slice of some length. -/
def copyFromSlice (length : Nat) (source : Bytes) : Except Fault Bytes :=
  if source.length = length then .ok source
  else .error (.panicked "source slice length does not match destination slice length")

/-! ## The normalizer with its checks -/

namespace Normalizer

/-- The partial block, filled from the front of the segment. -/
def fillPartial (n : Normalizer) (bytes : Bytes) : Except Fault Bytes :=
  if canonicalBlockLen < n.buffer.length then .error (.panicked "attempt to subtract with overflow")
  else do
    let front ← slice bytes 0 (canonicalBlockLen - n.buffer.length)
    let front ← copyFromSlice (canonicalBlockLen - n.buffer.length) front
    return n.buffer ++ front

def exactBlock (block : Bytes) : Except Fault Bytes :=
  if block.length = canonicalBlockLen then .ok block
  else .error (.panicked "exact canonical block slice")

def exactBlocks (bytes : Bytes) (whole : Nat) : Except Fault (List Bytes) :=
  (List.range whole).mapM fun index => do
    let block ← slice bytes (index * canonicalBlockLen) (index * canonicalBlockLen + canonicalBlockLen)
    exactBlock block

/-- The new partial block: `tail` bytes from `start` on. -/
def keepTail (bytes : Bytes) (tail start : Nat) : Except Fault Bytes := do
  let rest ← slice bytes start bytes.length
  if canonicalBlockLen < tail then .error (.panicked "range out of bounds")
  copyFromSlice tail rest

/-- `feed`, with every slice and every copy checked. -/
def feedChecked (n : Normalizer) (bytes : Bytes) : Except Fault (List Bytes × Bytes) :=
  if n.closed then .error (.error (.invalidState "the canonical stream is already closed"))
  else if canonicalBlockLen ≤ bytes.length then
    if 0 < n.buffer.length then do
      let block ← n.fillPartial bytes
      let rest ← slice bytes (canonicalBlockLen - n.buffer.length) bytes.length
      let blocks ← exactBlocks rest (rest.length / canonicalBlockLen)
      let tail ← keepTail rest (rest.length % canonicalBlockLen)
        (rest.length / canonicalBlockLen * canonicalBlockLen)
      return (block :: blocks, tail)
    else do
      let blocks ← exactBlocks bytes (bytes.length / canonicalBlockLen)
      let tail ← keepTail bytes (bytes.length % canonicalBlockLen)
        (bytes.length / canonicalBlockLen * canonicalBlockLen)
      return (blocks, tail)
  else if canonicalBlockLen ≤ bytes.length + n.buffer.length then do
    let block ← n.fillPartial bytes
    let tail ← keepTail bytes (bytes.length - (canonicalBlockLen - n.buffer.length))
      (canonicalBlockLen - n.buffer.length)
    return ([block], tail)
  else .ok ([], n.buffer ++ bytes)

end Normalizer

theorem slice_eq {bytes : Bytes} {start stop : Nat} (hstart : start ≤ stop) (hstop : stop ≤ bytes.length) :
    slice bytes start stop = .ok ((bytes.drop start).take (stop - start)) :=
  if_pos ⟨hstart, hstop⟩

theorem slice_to_end {bytes : Bytes} {start : Nat} (hstart : start ≤ bytes.length) :
    slice bytes start bytes.length = .ok (bytes.drop start) := by
  rw [slice_eq hstart (Nat.le_refl _), ← List.length_drop, List.take_length]

theorem copyFromSlice_eq {length : Nat} {source : Bytes} (h : source.length = length) :
    copyFromSlice length source = .ok source :=
  if_pos h

theorem mapM_ok {α β : Type} {f : α → Except Fault β} {g : α → β} (l : List α)
    (h : ∀ a ∈ l, f a = .ok (g a)) : l.mapM f = .ok (l.map g) := by
  induction l with
  | nil => rfl
  | cons a l ih =>
    rw [List.mapM_cons, h a List.mem_cons_self, ih fun b hb => h b (List.mem_cons_of_mem _ hb)]
    rfl

namespace Normalizer

variable {n : Normalizer}

theorem fillPartial_eq {bytes : Bytes} (hn : n.buffer.length ≤ canonicalBlockLen)
    (hlength : canonicalBlockLen ≤ bytes.length + n.buffer.length) :
    n.fillPartial bytes = .ok (n.buffer ++ bytes.take (canonicalBlockLen - n.buffer.length)) := by
  have htake : canonicalBlockLen - n.buffer.length ≤ bytes.length := by omega
  rw [fillPartial, if_neg (Nat.not_lt.2 hn), slice_eq (Nat.zero_le _) htake, List.drop_zero,
    Nat.sub_zero]
  change (copyFromSlice _ _ >>= fun front => _) = _
  rw [copyFromSlice_eq (by rw [List.length_take, Nat.min_eq_left htake])]
  rfl

theorem exactBlocks_eq {bytes : Bytes} {whole : Nat} (h : whole * canonicalBlockLen ≤ bytes.length) :
    exactBlocks bytes whole = .ok (wholeBlocks bytes whole) := by
  refine mapM_ok _ fun index hindex => ?_
  have hlt : index + 1 ≤ whole := List.mem_range.1 hindex
  have hend : index * canonicalBlockLen + canonicalBlockLen ≤ bytes.length := by
    rw [← Nat.succ_mul]
    exact (Nat.mul_le_mul_right _ hlt).trans h
  rw [slice_eq (Nat.le_add_right _ _) hend, Nat.add_sub_cancel_left]
  refine if_pos ?_
  rw [List.length_take, List.length_drop]
  omega

theorem keepTail_eq {bytes : Bytes} {tail start : Nat} (hsplit : start + tail = bytes.length)
    (htail : tail ≤ canonicalBlockLen) : keepTail bytes tail start = .ok (bytes.drop start) := by
  rw [keepTail, slice_to_end (by omega)]
  change (if canonicalBlockLen < tail then _ else _) = _
  rw [if_neg (Nat.not_lt.2 htail)]
  refine copyFromSlice_eq ?_
  rw [List.length_drop]
  omega

/-- None of the checks fails while the partial block is shorter than a block. -/
theorem feedChecked_eq (hopen : n.closed = false) (hn : n.buffer.length < canonicalBlockLen)
    (bytes : Bytes) : n.feedChecked bytes = .ok (n.feed bytes) := by
  have hpos : 0 < canonicalBlockLen := by decide
  have hdiv : ∀ x : Nat, x / canonicalBlockLen * canonicalBlockLen + x % canonicalBlockLen = x :=
    fun x => Nat.div_add_mod' x canonicalBlockLen
  have hmod : ∀ x : Nat, x % canonicalBlockLen ≤ canonicalBlockLen :=
    fun x => Nat.le_of_lt (Nat.mod_lt x hpos)
  rw [feedChecked, feed, hopen, if_neg (by simp)]
  by_cases hlong : canonicalBlockLen ≤ bytes.length
  · rw [if_pos hlong, if_pos hlong]
    by_cases hpartial : 0 < n.buffer.length
    · rw [if_pos hpartial, if_pos hpartial, fillPartial_eq (Nat.le_of_lt hn) (by omega),
        slice_to_end (by omega)]
      change (exactBlocks _ _ >>= fun blocks => _) = _
      rw [exactBlocks_eq (Nat.div_mul_le_self _ _)]
      change (keepTail _ _ _ >>= fun tail => _) = _
      rw [keepTail_eq (hdiv _) (hmod _)]
      rfl
    · rw [if_neg hpartial, if_neg hpartial, exactBlocks_eq (Nat.div_mul_le_self _ _)]
      change (keepTail _ _ _ >>= fun tail => _) = _
      rw [keepTail_eq (hdiv _) (hmod _)]
      rfl
  · rw [if_neg hlong, if_neg hlong]
    by_cases hfull : canonicalBlockLen ≤ bytes.length + n.buffer.length
    · rw [if_pos hfull, if_pos hfull, fillPartial_eq (Nat.le_of_lt hn) hfull]
      change (keepTail _ _ _ >>= fun tail => _) = _
      rw [keepTail_eq (by omega) (by omega)]
      rfl
    · rw [if_neg hfull, if_neg hfull]

/-- A segment of 64 KiB completes at most four blocks. -/
theorem length_feed_le (hn : n.buffer.length < canonicalBlockLen) {bytes : Bytes}
    (hbytes : bytes.length ≤ 65536) : (n.feed bytes).1.length ≤ maxBlocksPerSegment := by
  have hchunked := chunked_feed hn bytes
  have hflatten : (n.feed bytes).1.flatten.length = (n.feed bytes).1.length * canonicalBlockLen := by
    rw [List.length_flatten, List.map_congr_left hchunked.length_block, List.map_const', List.sum_replicate,
      smul_eq_mul]
  have hlength := congrArg List.length hchunked.eq
  rw [List.length_append, List.length_append, hflatten] at hlength
  change (n.feed bytes).1.length ≤ 4
  change n.buffer.length < 16384 at hn
  change n.buffer.length + bytes.length = _ * 16384 + _ at hlength
  omega

end Normalizer

variable {blocks : List Bytes} {s₁ : AuditSession} {records : List Record}

/-! ## The collector and the batch -/

/-- A completed block: the payload of its record and the head of the chain after it. -/
structure CompletedBlock where
  payload : Bytes
  head : Digest32

/-- The blocks that one segment completes. -/
def BlockCollector : Type := { blocks : List CompletedBlock // blocks.length ≤ maxBlocksPerSegment }

namespace BlockCollector

def new : BlockCollector := ⟨[], Nat.zero_le _⟩

def push (completed : BlockCollector) (block : CompletedBlock) : Except AuditError BlockCollector :=
  if h : maxBlocksPerSegment ≤ completed.1.length then
    .error (.invalidState "a segment completed more than four canonical blocks")
  else .ok ⟨completed.1 ++ [block], by
    rw [List.length_append]
    exact Nat.lt_of_not_le h⟩

def lastHead (completed : BlockCollector) : Option Digest32 := completed.1.getLast?.map (·.head)

theorem push_eq (completed : BlockCollector) (block : CompletedBlock)
    (h : completed.1.length < maxBlocksPerSegment) :
    ∃ completed', completed.push block = .ok completed' ∧ completed'.1 = completed.1 ++ [block] :=
  ⟨_, dif_neg (Nat.not_le.2 h), rfl⟩

end BlockCollector

/-- The records of one step. -/
def RecordBatch : Type := { records : List Record // records.length ≤ maxRecordsPerStep }

namespace RecordBatch

def new : RecordBatch := ⟨[], Nat.zero_le _⟩

def push (batch : RecordBatch) (r : Record) : Except AuditError RecordBatch :=
  if h : maxRecordsPerStep ≤ batch.1.length then
    .error (.invalidState "a recording step exceeded the record batch bound")
  else .ok ⟨batch.1 ++ [r], by
    rw [List.length_append]
    exact Nat.lt_of_not_le h⟩

def pushInline (batch : RecordBatch) (type : RecordType) (payload : Bytes) : Except AuditError RecordBatch :=
  if maxInlinePayloadLen < payload.length then
    .error (.invalidState "record payload exceeds the inline bound")
  else batch.push ⟨type, payload⟩

/-- The loop over the completed blocks at the end of a step. -/
def pushBlocks (type : RecordType) : RecordBatch → List CompletedBlock → Except AuditError RecordBatch
  | batch, [] => .ok batch
  | batch, block :: blocks => do
      let batch ← batch.pushInline type block.payload
      pushBlocks type batch blocks

theorem push_eq (batch : RecordBatch) (r : Record) (h : batch.1.length < maxRecordsPerStep) :
    ∃ batch', batch.push r = .ok batch' ∧ batch'.1 = batch.1 ++ [r] :=
  ⟨_, dif_neg (Nat.not_le.2 h), rfl⟩

theorem pushInline_eq (batch : RecordBatch) (type : RecordType) {payload : Bytes}
    (h : batch.1.length < maxRecordsPerStep) (hpayload : payload.length ≤ maxInlinePayloadLen) :
    ∃ batch', batch.pushInline type payload = .ok batch' ∧ batch'.1 = batch.1 ++ [⟨type, payload⟩] := by
  rw [pushInline, if_neg (Nat.not_lt.2 hpayload)]
  exact batch.push_eq _ h

theorem pushBlocks_eq (type : RecordType) (blocks : List CompletedBlock)
    (hpayload : ∀ block ∈ blocks, block.payload.length ≤ maxInlinePayloadLen) :
    ∀ batch : RecordBatch, batch.1.length + blocks.length ≤ maxRecordsPerStep →
      ∃ batch', batch.pushBlocks type blocks = .ok batch' ∧
        batch'.1 = batch.1 ++ blocks.map fun block => ⟨type, block.payload⟩ := by
  induction blocks with
  | nil => exact fun batch _ => ⟨batch, rfl, (List.append_nil _).symm⟩
  | cons block blocks ih =>
    intro batch hroom
    rw [List.length_cons] at hroom
    have hfirst := hpayload block List.mem_cons_self
    obtain ⟨batch₁, hpush, hbatch₁⟩ := pushInline_eq batch type (by omega) hfirst
    obtain ⟨batch₂, hrest, hbatch₂⟩ := ih (fun b hb => hpayload b (List.mem_cons_of_mem _ hb)) batch₁ (by
      rw [hbatch₁, List.length_append, List.length_singleton]
      omega)
    refine ⟨batch₂, ?_, ?_⟩
    · rw [pushBlocks, hpush]
      exact hrest
    · rw [hbatch₂, hbatch₁, List.append_assoc]
      rfl

end RecordBatch

/-! ## The recording calls with their checks -/

/-- The two byte streams. -/
inductive ByteStream where
  | input
  | output
deriving DecidableEq, Repr

namespace ByteStream

def shared : ByteStream → SharedStream
  | input => .input
  | output => .output

def normalizer : ByteStream → AuditSession → Normalizer
  | input, s => s.inputNormalizer
  | output, s => s.outputNormalizer

def setNormalizer : ByteStream → AuditSession → Normalizer → AuditSession
  | input, s, n => { s with inputNormalizer := n }
  | output, s, n => { s with outputNormalizer := n }

/-- The callback of `feed`. -/
def commitBlock (c : Crypto) : ByteStream → AuditSession → Bytes → AuditSession × Record
  | input => AuditSession.commitInputBlock c
  | output => AuditSession.commitOutputBlock c

/-- What the callback expects. -/
def expectation : ByteStream → String
  | input => "an input segment completes at most four blocks"
  | output => "an output segment completes at most four blocks"

end ByteStream

namespace AuditSession

variable (c : Crypto)

/-- The callback for each block, with the collector. -/
def collect (stream : ByteStream) (message : String) :
    AuditSession → BlockCollector → List Bytes → Except Fault (AuditSession × BlockCollector)
  | s, completed, [] => .ok (s, completed)
  | s, completed, block :: blocks => do
      let (s₁, r) := stream.commitBlock c s block
      let completed ← expected message (completed.push ⟨r.payload, (s₁.shared stream.shared).head⟩)
      collect stream message s₁ completed blocks

/-- `push_local`, into the batch. -/
def pushLocalChecked (s : AuditSession) (batch : RecordBatch) (type : RecordType) (kindPayload : Bytes)
    (related : Digest32) (nowNs : UInt64) : Except AuditError (AuditSession × RecordBatch) :=
  let pushed := s.pushLocal c type kindPayload related nowNs
  if splitPrefixLen + kindPayload.length ≤ maxInlinePayloadLen then
    (batch.pushInline type pushed.2.payload).map (pushed.1, ·)
  else (batch.push pushed.2).map (pushed.1, ·)

/-- `record_input`. -/
def recordInputChecked (s : AuditSession) (bytes : Bytes) (nowNs : UInt64) :
    Except Fault (AuditSession × RecordBatch) := do
  raised s.requireRecordable
  if maxInputSegment < bytes.length then throw (.error .segmentTooLarge)
  if bytes.isEmpty then return (s, .new)
  let (blocks, buffer) ← s.inputNormalizer.feedChecked bytes
  let (s₁, completed) ← collect c .input ByteStream.input.expectation
    { s with inputNormalizer := { s.inputNormalizer with buffer := buffer } } .new blocks
  let related := completed.lastHead.getD zeroHead
  let (s₂, batch) ← raised (s₁.pushLocalChecked c .new .localInputCommitment
    (directionCtrlToHost :: Codec.u64.enc (UInt64.ofNat bytes.length)) related nowNs)
  let batch ← raised (batch.pushBlocks .sharedInputCommitment completed.1)
  return (s₂, batch)

/-- `record_output_step`. -/
def recordOutputChecked (s : AuditSession) (bytes : Bytes) (nowNs : UInt64) (display : Option Bytes) :
    Except Fault (AuditSession × RecordBatch) := do
  raised s.requireRecordable
  if maxLocalOutputSegment < bytes.length ∨
      display.any (fun d => decide (maxLocalOutputSegment < d.length)) then
    throw (.error .segmentTooLarge)
  let (blocks, buffer) ← s.outputNormalizer.feedChecked bytes
  let (s₁, completed) ← collect c .output ByteStream.output.expectation
    { s with outputNormalizer := { s.outputNormalizer with buffer := buffer } } .new blocks
  let related := completed.lastHead.getD zeroHead
  let (s₂, r) := s₁.pushLocal c .localRawOutput bytes related nowNs
  let batch ← raised (RecordBatch.new.push r)
  let batch ← raised (batch.pushBlocks .sharedOutputBlock completed.1)
  match display with
  | none => return (s₂, batch)
  | some d =>
    let (s₃, r') := s₂.pushLocal c .localDisplayBytes d related nowNs
    let batch ← raised (batch.push r')
    return (s₃, batch)

/-- `close_directions`. -/
def closeDirectionsChecked (s : AuditSession) : Except Fault (AuditSession × RecordBatch) := do
  raised s.requireRecordable
  if s.inputNormalizer.closed then
    throw (.error (.invalidState "the canonical stream is already closed"))
  let (s₁, completed) ← collect c .input "a final partial block fits the collector"
    { s with inputNormalizer := ⟨[], true⟩ } .new s.inputNormalizer.finish
  let batch ← raised (RecordBatch.new.pushBlocks .sharedInputCommitment completed.1)
  if s.outputNormalizer.closed then
    throw (.error (.invalidState "the canonical stream is already closed"))
  let (s₂, completed) ← collect c .output "a final partial block fits the collector"
    { s₁ with outputNormalizer := ⟨[], true⟩ } .new s.outputNormalizer.finish
  let batch ← raised (batch.pushBlocks .sharedOutputBlock completed.1)
  return ({ s₂ with phase := .finalizing }, batch)

end AuditSession

/-! ## The checks do not fail -/

section

variable {c : Crypto}

theorem type_commitBlock (stream : ByteStream) (s : AuditSession) (block : Bytes) :
    (stream.commitBlock c s block).2.type = sharedRecordType stream.shared := by
  cases stream <;> rfl

theorem lastBlock_commitBlock (stream : ByteStream) (s : AuditSession) (block : Bytes) :
    (stream.commitBlock c s block).1.lastBlock stream.shared =
      some ((stream.commitBlock c s block).1.shared stream.shared).head := by
  cases stream <;> rfl

theorem length_payload_commitBlock (stream : ByteStream) (s : AuditSession) (block : Bytes) :
    (stream.commitBlock c s block).2.payload.length ≤ maxInlinePayloadLen := by
  cases stream with
  | input =>
    change (s.nextSharedRecord c _ (s.inputEvent c block)).payload.length ≤ _
    rw [SharedRecord.length_payload]
    change 73 + (s.inputEvent c block).canonical.length ≤ _
    simp only [AuditSession.inputEvent, SharedEvent.canonical, List.length_append, length_u64_enc]
    rw [(c.hmac _ _).2]
    decide
  | output =>
    change (s.nextSharedRecord c _ (AuditSession.outputEvent c block)).payload.length ≤ _
    rw [SharedRecord.length_payload]
    change 73 + (AuditSession.outputEvent c block).canonical.length ≤ _
    simp only [AuditSession.outputEvent, SharedEvent.canonical, List.length_append, length_u64_enc]
    rw [(c.sha256 _).2]
    decide

/-- What the collector holds of the blocks of a stream. -/
structure Collected (c : Crypto) (stream : ByteStream) (s : AuditSession) (blocks : List Bytes)
    (new : List CompletedBlock) : Prop where
  length : new.length = blocks.length
  records : (new.map fun block => (⟨sharedRecordType stream.shared, block.payload⟩ : Record)) =
    (AuditSession.commitBlocks (stream.commitBlock c) s blocks).2
  payload : ∀ block ∈ new, block.payload.length ≤ maxInlinePayloadLen
  last : new.getLast?.map (·.head) = if blocks.isEmpty then none
    else (AuditSession.commitBlocks (stream.commitBlock c) s blocks).1.lastBlock stream.shared

theorem collect_eq (stream : ByteStream) (message : String) (blocks : List Bytes) :
    ∀ (s : AuditSession) (completed : BlockCollector),
      completed.1.length + blocks.length ≤ maxBlocksPerSegment →
      ∃ completed' new, AuditSession.collect c stream message s completed blocks =
          .ok ((AuditSession.commitBlocks (stream.commitBlock c) s blocks).1, completed') ∧
        completed'.1 = completed.1 ++ new ∧ Collected c stream s blocks new := by
  induction blocks with
  | nil =>
    intro s completed _
    exact ⟨completed, [], rfl, (List.append_nil _).symm, rfl, rfl, by simp, rfl⟩
  | cons block blocks ih =>
    intro s completed hroom
    rw [List.length_cons] at hroom
    let s₁ := (stream.commitBlock c s block).1
    let done : CompletedBlock :=
      ⟨(stream.commitBlock c s block).2.payload, (s₁.shared stream.shared).head⟩
    obtain ⟨completed₁, hpush, hcompleted₁⟩ :=
      completed.push_eq done (by omega)
    obtain ⟨completed₂, new, hrest, hcompleted₂, hnew⟩ := ih s₁ completed₁ (by
      rw [hcompleted₁, List.length_append, List.length_singleton]
      omega)
    refine ⟨completed₂, done :: new, ?_, ?_, ?_, ?_, ?_, ?_⟩
    · rw [AuditSession.collect]
      change (expected message (completed.push done) >>= fun completed =>
        AuditSession.collect c stream message s₁ completed blocks) = _
      rw [hpush]
      exact hrest
    · rw [hcompleted₂, hcompleted₁, List.append_assoc]
      rfl
    · rw [List.length_cons, List.length_cons, hnew.length]
    · rw [List.map_cons, hnew.records, ← type_commitBlock (c := c) stream s block]
      rfl
    · intro b hb
      rcases List.mem_cons.1 hb with rfl | hb
      · exact length_payload_commitBlock stream s block
      · exact hnew.payload b hb
    · have hlast := hnew.last
      cases blocks with
      | nil =>
        obtain rfl : new = [] := List.eq_nil_of_length_eq_zero hnew.length
        exact (lastBlock_commitBlock stream s block).symm
      | cons next blocks =>
        obtain ⟨first, more, rfl⟩ : ∃ first more, new = first :: more :=
          List.exists_cons_of_length_eq_add_one hnew.length
        rw [List.getLast?_cons_cons]
        exact hlast

variable {s : AuditSession}

/-- The head to which the local record is related. -/
theorem related_of_collected {stream : ByteStream} {completed : BlockCollector}
    (h : Collected c stream s blocks completed.1) :
    completed.lastHead.getD zeroHead = if blocks.isEmpty then zeroHead
      else (AuditSession.commitBlocks (stream.commitBlock c) s blocks).1.lastBlockOrZero
        stream.shared := by
  rw [BlockCollector.lastHead, h.last]
  split <;> rfl

theorem pushLocalChecked_eq (s : AuditSession) (batch : RecordBatch) (type : RecordType)
    (kindPayload : Bytes) (related : Digest32) (nowNs : UInt64)
    (hroom : batch.1.length < maxRecordsPerStep) :
    ∃ batch', s.pushLocalChecked c batch type kindPayload related nowNs =
        .ok ((s.pushLocal c type kindPayload related nowNs).1, batch') ∧
      batch'.1 = batch.1 ++ [(s.pushLocal c type kindPayload related nowNs).2] := by
  by_cases hinline : splitPrefixLen + kindPayload.length ≤ maxInlinePayloadLen
  · have hpayload : (s.pushLocal c type kindPayload related nowNs).2.payload.length ≤
        maxInlinePayloadLen := by
      change (localPayload nowNs related kindPayload).length ≤ _
      rw [length_localPayload]
      exact hinline
    obtain ⟨batch', hpush, hbatch'⟩ := batch.pushInline_eq type hroom hpayload
    refine ⟨batch', ?_, hbatch'⟩
    rw [AuditSession.pushLocalChecked, if_pos hinline, hpush]
    rfl
  · obtain ⟨batch', hpush, hbatch'⟩ := batch.push_eq (s.pushLocal c type kindPayload related nowNs).2 hroom
    refine ⟨batch', ?_, hbatch'⟩
    rw [AuditSession.pushLocalChecked, if_neg hinline, hpush]
    rfl

theorem collect_new (stream : ByteStream) (message : String) (s : AuditSession)
    (hcount : blocks.length ≤ maxBlocksPerSegment) :
    ∃ completed, AuditSession.collect c stream message s .new blocks =
        .ok ((AuditSession.commitBlocks (stream.commitBlock c) s blocks).1, completed) ∧
      Collected c stream s blocks completed.1 := by
  obtain ⟨completed, new, hcollect, hnew, hcollected⟩ := collect_eq (c := c) stream message blocks s .new
    ((Nat.zero_add _).trans_le hcount)
  obtain rfl : completed.1 = new := hnew
  exact ⟨completed, hcollect, hcollected⟩

/-- The records of the completed blocks behind one other record fit the batch, with room for one more. -/
theorem pushBlocks_collected {stream : ByteStream} {completed : BlockCollector}
    (h : Collected c stream s blocks completed.1) (batch : RecordBatch)
    (hbatch : batch.1.length ≤ 1) :
    ∃ batch', batch.pushBlocks (sharedRecordType stream.shared) completed.1 = .ok batch' ∧
      batch'.1 = batch.1 ++ (AuditSession.commitBlocks (stream.commitBlock c) s blocks).2 ∧
      batch'.1.length < maxRecordsPerStep := by
  have hcount : completed.1.length ≤ 4 := completed.2
  have hroom : batch.1.length + completed.1.length ≤ maxRecordsPerStep := by
    change _ ≤ 6
    omega
  obtain ⟨batch', hpush, hrecords⟩ := RecordBatch.pushBlocks_eq (sharedRecordType stream.shared)
    completed.1 h.payload batch hroom
  refine ⟨batch', hpush, hrecords.trans (by rw [h.records]), ?_⟩
  rw [hrecords, List.length_append, List.length_map]
  change _ < 6
  omega

/-- The result without the bound of the batch. -/
def unbounded (result : Except Fault (AuditSession × RecordBatch)) :
    Except Fault (AuditSession × List Record) :=
  result.map fun (s, batch) => (s, batch.1)

/-- Both partial blocks are shorter than a block. -/
structure Partial (s : AuditSession) : Prop where
  input : s.inputNormalizer.buffer.length < canonicalBlockLen
  output : s.outputNormalizer.buffer.length < canonicalBlockLen

theorem recordInputChecked_eq (h : Partial s) (bytes : Bytes) (nowNs : UInt64) :
    unbounded (s.recordInputChecked c bytes nowNs) = raised (s.recordInput c bytes nowNs) := by
  rw [AuditSession.recordInputChecked, AuditSession.recordInput]
  cases s.requireRecordable with
  | error e => rfl
  | ok _ =>
    simp only [bind, Except.bind, pure, Except.pure, throw, throwThe, MonadExceptOf.throw, raised]
    by_cases hlong : maxInputSegment < bytes.length
    · rw [if_pos hlong, if_pos hlong]
      rfl
    by_cases hempty : bytes.isEmpty = true
    · rw [if_neg hlong, if_neg hlong, if_pos hempty, if_pos hempty]
      rfl
    rw [if_neg hlong, if_neg hlong, if_neg hempty, if_neg hempty]
    by_cases hclosed : s.inputNormalizer.closed = true
    · rw [Normalizer.feedChecked, if_pos hclosed, if_pos hclosed]
      rfl
    have hfeed := Normalizer.feedChecked_eq (eq_false_of_ne_true hclosed) h.input bytes
    have hcount := Normalizer.length_feed_le h.input (Nat.le_of_not_lt hlong)
    obtain ⟨completed, hcollect, hcollected⟩ := collect_new (c := c) .input
      ByteStream.input.expectation { s with
        inputNormalizer := { s.inputNormalizer with buffer := (s.inputNormalizer.feed bytes).2 } } hcount
    obtain ⟨batch₁, hlocal, hbatch₁⟩ := pushLocalChecked_eq (c := c) (AuditSession.commitBlocks
      (ByteStream.input.commitBlock c) { s with
        inputNormalizer := { s.inputNormalizer with buffer := (s.inputNormalizer.feed bytes).2 } }
        (s.inputNormalizer.feed bytes).1).1 .new
      .localInputCommitment (directionCtrlToHost :: Codec.u64.enc (UInt64.ofNat bytes.length))
      (completed.lastHead.getD zeroHead) nowNs (by decide)
    obtain ⟨batch₂, hblocks, hbatch₂, -⟩ := pushBlocks_collected hcollected batch₁
      (by rw [hbatch₁]; exact Nat.le_refl 1)
    rw [if_neg hclosed, hfeed]
    dsimp only
    rw [hcollect]
    dsimp only
    rw [hlocal]
    dsimp only
    rw [show RecordType.sharedInputCommitment = sharedRecordType ByteStream.input.shared from rfl,
      hblocks]
    dsimp only [unbounded, Except.map]
    rw [hbatch₂, hbatch₁, related_of_collected hcollected]
    rfl

theorem recordOutputChecked_eq (h : Partial s) (bytes : Bytes) (nowNs : UInt64) (display : Option Bytes) :
    unbounded (s.recordOutputChecked c bytes nowNs display) =
      raised (s.recordOutputStep c bytes nowNs display) := by
  rw [AuditSession.recordOutputChecked, AuditSession.recordOutputStep]
  cases s.requireRecordable with
  | error e => rfl
  | ok _ =>
    simp only [bind, Except.bind, pure, Except.pure, throw, throwThe, MonadExceptOf.throw, raised]
    by_cases hlong : maxLocalOutputSegment < bytes.length ∨
        display.any (fun d => decide (maxLocalOutputSegment < d.length)) = true
    · rw [if_pos hlong, if_pos hlong]
      rfl
    rw [if_neg hlong, if_neg hlong]
    by_cases hclosed : s.outputNormalizer.closed = true
    · rw [Normalizer.feedChecked, if_pos hclosed, if_pos hclosed]
      rfl
    have hbytes : bytes.length ≤ 65536 := by
      have hle : ¬ 65496 < bytes.length := fun hlt => hlong (.inl hlt)
      omega
    have hfeed := Normalizer.feedChecked_eq (eq_false_of_ne_true hclosed) h.output bytes
    have hcount := Normalizer.length_feed_le h.output hbytes
    obtain ⟨completed, hcollect, hcollected⟩ := collect_new (c := c) .output
      ByteStream.output.expectation { s with
        outputNormalizer := { s.outputNormalizer with buffer := (s.outputNormalizer.feed bytes).2 } }
      hcount
    let t := (AuditSession.commitBlocks (ByteStream.output.commitBlock c) { s with
      outputNormalizer := { s.outputNormalizer with buffer := (s.outputNormalizer.feed bytes).2 } }
      (s.outputNormalizer.feed bytes).1).1
    obtain ⟨batch₁, hlocal, hbatch₁⟩ := RecordBatch.new.push_eq
      (t.pushLocal c .localRawOutput bytes (completed.lastHead.getD zeroHead) nowNs).2 (by decide)
    obtain ⟨batch₂, hblocks, hbatch₂, hroom⟩ := pushBlocks_collected hcollected batch₁
      (by rw [hbatch₁]; exact Nat.le_refl 1)
    have hrelated := related_of_collected hcollected
    rw [if_neg hclosed, hfeed]
    dsimp only
    rw [hcollect]
    dsimp only
    rw [hlocal]
    dsimp only
    rw [show RecordType.sharedOutputBlock = sharedRecordType ByteStream.output.shared from rfl, hblocks]
    cases display with
    | none =>
      dsimp only [unbounded, Except.map]
      rw [hbatch₂, hbatch₁, hrelated]
      rfl
    | some d =>
      obtain ⟨batch₃, hdisplay, hbatch₃⟩ := batch₂.push_eq ((t.pushLocal c .localRawOutput bytes
        (completed.lastHead.getD zeroHead) nowNs).1.pushLocal c .localDisplayBytes d
          (completed.lastHead.getD zeroHead) nowNs).2 hroom
      dsimp only
      rw [hdisplay]
      dsimp only [unbounded, Except.map]
      rw [hbatch₃, hbatch₂, hbatch₁, hrelated]
      rfl

theorem length_finish_le (n : Normalizer) : n.finish.length ≤ 1 := by
  rw [Normalizer.finish]
  split
  · exact Nat.zero_le 1
  · exact Nat.le_refl 1

theorem closeDirectionsChecked_eq (s : AuditSession) :
    unbounded (s.closeDirectionsChecked c) = raised (s.closeDirections c) := by
  rw [AuditSession.closeDirectionsChecked, AuditSession.closeDirections]
  cases s.requireRecordable with
  | error e => rfl
  | ok _ =>
    simp only [bind, Except.bind, pure, Except.pure, throw, throwThe, MonadExceptOf.throw, raised]
    by_cases hclosed : s.inputNormalizer.closed = true
    · rw [if_pos hclosed, if_pos hclosed]
      rfl
    rw [if_neg hclosed, if_neg hclosed]
    have hin := (length_finish_le s.inputNormalizer)
    have hout := (length_finish_le s.outputNormalizer)
    obtain ⟨completed, hcollect, hcollected⟩ := collect_new (c := c) .input
      "a final partial block fits the collector" { s with inputNormalizer := ⟨[], true⟩ }
      (hin.trans (by decide))
    obtain ⟨batch₁, hblocks, hbatch₁, -⟩ := pushBlocks_collected hcollected .new (by decide)
    rw [hcollect]
    dsimp only
    rw [show RecordType.sharedInputCommitment = sharedRecordType ByteStream.input.shared from rfl,
      hblocks]
    dsimp only
    by_cases hclosed' : s.outputNormalizer.closed = true
    · rw [if_pos hclosed', if_pos hclosed']
      rfl
    rw [if_neg hclosed', if_neg hclosed']
    let t := (AuditSession.commitBlocks (ByteStream.input.commitBlock c)
      { s with inputNormalizer := ⟨[], true⟩ } s.inputNormalizer.finish).1
    obtain ⟨completed₂, hcollect₂, hcollected₂⟩ := collect_new (c := c) .output
      "a final partial block fits the collector" { t with outputNormalizer := ⟨[], true⟩ }
      (hout.trans (by decide))
    have hroom : batch₁.1.length ≤ 1 := by
      rw [hbatch₁, ← hcollected.records, List.length_append, List.length_map, hcollected.length]
      exact (Nat.zero_add _).trans_le hin
    obtain ⟨batch₂, hblocks₂, hbatch₂, -⟩ := pushBlocks_collected hcollected₂ batch₁ hroom
    rw [hcollect₂]
    dsimp only
    rw [show RecordType.sharedOutputBlock = sharedRecordType ByteStream.output.shared from rfl, hblocks₂]
    dsimp only [unbounded, Except.map]
    rw [hbatch₂, hbatch₁]
    rfl

end

/-! ## A whole stream -/

namespace ByteStream

variable (c : Crypto)

/-- One block on the chain of its stream. -/
def extendBlock (stream : ByteStream) (inputKey : Digest32) (chain : SharedChain) (block : Bytes) :
    SharedChain :=
  match stream with
  | input => chain.extendInput c inputKey block
  | output => chain.extendOutput c block

/-- The record of a block at the end of a chain. -/
def blockRecord (stream : ByteStream) (inputKey : Digest32) (chain : SharedChain) (block : Bytes) :
    Record :=
  let next := stream.extendBlock c inputKey chain block
  match stream with
  | input => ⟨.sharedInputCommitment, SharedRecord.payload ⟨directionCtrlToHost, next.count,
      inputEventAt c inputKey chain block, chain.head, next.head⟩⟩
  | output => ⟨.sharedOutputBlock, SharedRecord.payload ⟨directionHostToCtrl, next.count,
      AuditSession.outputEvent c block, chain.head, next.head⟩⟩

/-- The records of blocks, one after the other. -/
def canonicalRecords (stream : ByteStream) (inputKey : Digest32) : SharedChain → List Bytes → List Record
  | _, [] => []
  | chain, block :: blocks =>
    stream.blockRecord c inputKey chain block ::
      canonicalRecords stream inputKey (stream.extendBlock c inputKey chain block) blocks

/-- The greatest segment that a call takes. -/
def segmentLimit : ByteStream → Nat
  | input => maxInputSegment
  | output => maxLocalOutputSegment

/-- `record_input` or `record_output`. -/
def record (stream : ByteStream) (s : AuditSession) (bytes : Bytes) (nowNs : UInt64) :
    Except Fault (AuditSession × RecordBatch) :=
  match stream with
  | input => s.recordInputChecked c bytes nowNs
  | output => s.recordOutputChecked c bytes nowNs none

/-- A call for each segment, with its time. -/
def recordSegments (stream : ByteStream) :
    AuditSession → List (Bytes × UInt64) → Except Fault (AuditSession × List RecordBatch)
  | s, [] => .ok (s, [])
  | s, segment :: segments => do
      let (s₁, batch) ← stream.record c s segment.1 segment.2
      let (s₂, batches) ← recordSegments stream s₁ segments
      return (s₂, batch :: batches)

/-- The calls followed by `close_directions`. -/
def recordStream (stream : ByteStream) (s : AuditSession) (segments : List (Bytes × UInt64)) :
    Except Fault (AuditSession × List RecordBatch) := do
  let (s₁, batches) ← stream.recordSegments c s segments
  let (s₂, batch) ← s₁.closeDirectionsChecked c
  return (s₂, batches ++ [batch])

/-- The records of a batch that are blocks of the stream. -/
def blocksOf (stream : ByteStream) (batch : RecordBatch) : List Record :=
  batch.1.filter fun r => decide (r.type = sharedRecordType stream.shared)

end ByteStream

/-- The session records, and both partial blocks are shorter than a block. -/
structure Recordable (s : AuditSession) : Prop extends Partial s where
  active : s.phase = .active
  inputOpen : s.inputNormalizer.closed = false
  outputOpen : s.outputNormalizer.closed = false

section

variable {c : Crypto} {s : AuditSession}

theorem canonicalRecords_append (stream : ByteStream) (inputKey : Digest32) (first second : List Bytes) :
    ∀ chain, stream.canonicalRecords c inputKey chain (first ++ second) =
      stream.canonicalRecords c inputKey chain first ++
        stream.canonicalRecords c inputKey (first.foldl (stream.extendBlock c inputKey) chain) second := by
  induction first with
  | nil => exact fun chain => rfl
  | cons block first ih =>
    intro chain
    rw [List.cons_append, ByteStream.canonicalRecords, ih]
    rfl

/-- What the blocks of a stream do to the session. -/
theorem commitBlocks_eq (stream : ByteStream) (blocks : List Bytes) : ∀ s : AuditSession,
    (AuditSession.commitBlocks (stream.commitBlock c) s blocks).2 =
        stream.canonicalRecords c s.facts.inputKey (s.shared stream.shared) blocks ∧
      (AuditSession.commitBlocks (stream.commitBlock c) s blocks).1.shared =
        Function.update s.shared stream.shared
          (blocks.foldl (stream.extendBlock c s.facts.inputKey) (s.shared stream.shared)) ∧
      (AuditSession.commitBlocks (stream.commitBlock c) s blocks).1.inputNormalizer = s.inputNormalizer ∧
      (AuditSession.commitBlocks (stream.commitBlock c) s blocks).1.outputNormalizer =
        s.outputNormalizer ∧
      (AuditSession.commitBlocks (stream.commitBlock c) s blocks).1.facts = s.facts ∧
      (AuditSession.commitBlocks (stream.commitBlock c) s blocks).1.phase = s.phase := by
  induction blocks with
  | nil => exact fun s => ⟨rfl, (Function.update_eq_self _ _).symm, rfl, rfl, rfl, rfl⟩
  | cons block blocks ih =>
    intro s
    obtain ⟨hrecords, hshared, hin, hout, hfacts, hphase⟩ := ih (stream.commitBlock c s block).1
    have hchain : (stream.commitBlock c s block).1.shared = Function.update s.shared stream.shared
        (stream.extendBlock c s.facts.inputKey (s.shared stream.shared) block) := by
      cases stream <;> rfl
    have hfacts₁ : (stream.commitBlock c s block).1.facts = s.facts := by cases stream <;> rfl
    rw [hchain, hfacts₁, Function.update_self] at hrecords hshared
    refine ⟨?_, ?_, hin.trans ?_, hout.trans ?_, hfacts.trans hfacts₁, hphase.trans ?_⟩
    · rw [AuditSession.commitBlocks]
      change _ :: (AuditSession.commitBlocks (stream.commitBlock c) _ blocks).2 = _
      rw [hrecords]
      cases stream <;> rfl
    · rw [AuditSession.commitBlocks]
      change (AuditSession.commitBlocks (stream.commitBlock c) _ blocks).1.shared = _
      rw [hshared, Function.update_idem]
      rfl
    · cases stream <;> rfl
    · cases stream <;> rfl
    · cases stream <;> rfl

theorem unbounded_eq_ok {result : Except Fault (AuditSession × RecordBatch)} {s' : AuditSession}
    {rs : List Record} (h : unbounded result = .ok (s', rs)) :
    ∃ batch, result = .ok (s', batch) ∧ batch.1 = rs := by
  cases result with
  | error e => cases h
  | ok pair =>
    cases h
    exact ⟨pair.2, rfl, rfl⟩

theorem Recordable.requireRecordable (h : Recordable s) : s.requireRecordable = .ok () := by
  rw [AuditSession.requireRecordable, h.active]

theorem recordInput_total (h : Recordable s) {bytes : Bytes} (hbytes : bytes.length ≤ maxInputSegment)
    (nowNs : UInt64) : ∃ s' rs, s.recordInput c bytes nowNs = .ok (s', rs) := by
  have hlong : ¬ maxInputSegment < bytes.length := Nat.not_lt.2 hbytes
  simp only [AuditSession.recordInput, h.requireRecordable, bind, Except.bind, pure, Except.pure,
    if_neg hlong, h.inputOpen]
  split
  · exact ⟨_, _, rfl⟩
  · exact ⟨_, _, rfl⟩

theorem recordOutput_total (h : Recordable s) {bytes : Bytes}
    (hbytes : bytes.length ≤ maxLocalOutputSegment) (nowNs : UInt64) :
    ∃ s' rs, s.recordOutputStep c bytes nowNs none = .ok (s', rs) := by
  have hlong : ¬ (maxLocalOutputSegment < bytes.length ∨ (none : Option Bytes).any
      (fun d => decide (maxLocalOutputSegment < d.length)) = true) := by
    rintro (hlt | hany)
    · exact absurd hlt (Nat.not_lt.2 hbytes)
    · cases hany
  simp only [AuditSession.recordOutputStep, h.requireRecordable, bind, Except.bind, pure, Except.pure,
    if_neg hlong, h.outputOpen]
  exact ⟨_, _, rfl⟩

/-- What recording bytes in some segments does. -/
structure StreamRecorded (c : Crypto) (stream : ByteStream) (s s' : AuditSession) (bytes : Bytes)
    (blocks : List Bytes) (records : List Record) : Prop where
  recordable : Recordable s'
  chunked : Chunked canonicalBlockLen ((stream.normalizer s).buffer ++ bytes) blocks
    (stream.normalizer s').buffer
  chain : s'.shared stream.shared =
    blocks.foldl (stream.extendBlock c s.facts.inputKey) (s.shared stream.shared)
  facts : s'.facts = s.facts
  records : records = stream.canonicalRecords c s.facts.inputKey (s.shared stream.shared) blocks

theorem length_canonicalRecords (stream : ByteStream) (inputKey : Digest32) (blocks : List Bytes) :
    ∀ chain, (stream.canonicalRecords c inputKey chain blocks).length = blocks.length := by
  induction blocks with
  | nil => exact fun chain => rfl
  | cons block blocks ih =>
    intro chain
    rw [ByteStream.canonicalRecords, List.length_cons, List.length_cons, ih]

theorem filter_canonicalRecords (stream : ByteStream) (inputKey : Digest32) (blocks : List Bytes) :
    ∀ chain, (stream.canonicalRecords c inputKey chain blocks).filter
        (fun r => decide (r.type = sharedRecordType stream.shared)) =
      stream.canonicalRecords c inputKey chain blocks := by
  induction blocks with
  | nil => exact fun chain => rfl
  | cons block blocks ih =>
    intro chain
    have htype : (stream.blockRecord c inputKey chain block).type = sharedRecordType stream.shared := by
      cases stream <;> rfl
    rw [ByteStream.canonicalRecords, List.filter_cons_of_pos (by simp [htype]), ih]

/-- The blocks that a segment completes. -/
theorem recorded_of_feed (stream : ByteStream) (h : Recordable s) {bytes buffer : Bytes}
    {shared : List Record} (hfeed : (stream.normalizer s).feed bytes = (blocks, buffer)) (hcommit : AuditSession.commitBlocks (stream.commitBlock c)
      (stream.setNormalizer s { stream.normalizer s with buffer := buffer }) blocks = (s₁, shared))
    :
    StreamRecorded c stream s s₁ bytes blocks shared := by
  have hpartial : (stream.normalizer s).buffer.length < canonicalBlockLen := by
    cases stream
    · exact h.input
    · exact h.output
  have hchunked := Normalizer.chunked_feed hpartial bytes
  rw [hfeed] at hchunked
  have heq := commitBlocks_eq (c := c) stream blocks
    (stream.setNormalizer s { stream.normalizer s with buffer := buffer })
  rw [hcommit] at heq
  obtain ⟨hrecords, hshared, hin, hout, hfacts, hphase⟩ := heq
  dsimp only at hrecords hshared hin hout hfacts hphase
  cases stream with
  | input =>
    refine ⟨⟨⟨?_, ?_⟩, hphase.trans h.active, ?_, ?_⟩, ?_, ?_, hfacts, hrecords⟩
    · rw [hin]
      exact hchunked.length_rest
    · rw [hout]
      exact h.output
    · rw [hin]
      exact h.inputOpen
    · rw [hout]
      exact h.outputOpen
    · change Chunked _ _ _ s₁.inputNormalizer.buffer
      rw [hin]
      exact hchunked
    · rw [hshared, Function.update_self]
      rfl
  | output =>
    refine ⟨⟨⟨?_, ?_⟩, hphase.trans h.active, ?_, ?_⟩, ?_, ?_, hfacts, hrecords⟩
    · rw [hin]
      exact h.input
    · rw [hout]
      exact hchunked.length_rest
    · rw [hin]
      exact h.inputOpen
    · rw [hout]
      exact h.outputOpen
    · change Chunked _ _ _ s₁.outputNormalizer.buffer
      rw [hout]
      exact hchunked
    · rw [hshared, Function.update_self]
      rfl

/-- A local record changes nothing of this. -/
theorem StreamRecorded.pushLocal {stream : ByteStream} {bytes : Bytes}
    (h : StreamRecorded c stream s s₁ bytes blocks records) (type : RecordType)
    (kindPayload : Bytes) (related : Digest32) (nowNs : UInt64) :
    StreamRecorded c stream s (s₁.pushLocal c type kindPayload related nowNs).1 bytes blocks records := by
  obtain ⟨⟨⟨hin, hout⟩, hactive, hinOpen, houtOpen⟩, hchunked, hchain, hfacts, hrecords⟩ := h
  refine ⟨⟨⟨hin, hout⟩, hactive, hinOpen, houtOpen⟩, ?_, hchain, hfacts, hrecords⟩
  cases stream <;> exact hchunked

/-- The blocks behind a local record are the blocks of the batch. -/
theorem StreamRecorded.blocksOf {stream : ByteStream} {s' : AuditSession} {bytes : Bytes}
    (h : StreamRecorded c stream s s' bytes blocks records) {batch : RecordBatch} {r : Record}
    (hbatch : batch.1 = r :: records) (hr : r.type ≠ sharedRecordType stream.shared) :
    StreamRecorded c stream s s' bytes blocks (stream.blocksOf batch) := by
  have hrecords : stream.blocksOf batch = records := by
    rw [ByteStream.blocksOf, hbatch, List.filter_cons_of_neg (by simpa using hr), h.records, filter_canonicalRecords]
  rw [hrecords]
  exact h

/-- One call. -/
theorem record_recorded (stream : ByteStream) (h : Recordable s) {bytes : Bytes}
    (hbytes : bytes.length ≤ stream.segmentLimit) (nowNs : UInt64) :
    ∃ s' batch blocks, stream.record c s bytes nowNs = .ok (s', batch) ∧
      StreamRecorded c stream s s' bytes blocks (stream.blocksOf batch) ∧
      blocks.length ≤ maxBlocksPerSegment := by
  cases stream with
  | input =>
    obtain ⟨s', rs, hrecord⟩ := recordInput_total (c := c) h hbytes nowNs
    have hchecked := recordInputChecked_eq (c := c) h.toPartial bytes nowNs
    rw [hrecord] at hchecked
    obtain ⟨batch, hbatch, hrs⟩ := unbounded_eq_ok hchecked
    rcases recordInput_ok hrecord with ⟨rfl, rfl, rfl⟩ |
      ⟨blocks, buffer, s₁, shared, related, hfeed, hblocks, -, rfl, rfl⟩
    · refine ⟨s', batch, [], hbatch, ⟨h, ?_, rfl, rfl, ?_⟩, Nat.zero_le _⟩
      · rw [List.append_nil]
        exact ⟨rfl, by simp, h.input⟩
      · rw [ByteStream.blocksOf, hrs]
        rfl
    · have hcount := Normalizer.length_feed_le h.input hbytes
      rw [hfeed] at hcount
      exact ⟨_, batch, blocks, hbatch, ((recorded_of_feed .input h hfeed hblocks).pushLocal _ _ _ _).blocksOf
        hrs (show RecordType.localInputCommitment ≠ .sharedInputCommitment by decide),
        hcount⟩
  | output =>
    obtain ⟨s', rs, hrecord⟩ := recordOutput_total (c := c) h hbytes nowNs
    have hchecked := recordOutputChecked_eq (c := c) h.toPartial bytes nowNs none
    rw [hrecord] at hchecked
    obtain ⟨batch, hbatch, hrs⟩ := unbounded_eq_ok hchecked
    obtain ⟨-, -, blocks, buffer, s₁, shared, related, hfeed, hblocks, -, rfl, rfl⟩ :=
      recordOutputStep_ok hrecord
    have hlimit : bytes.length ≤ 65496 := hbytes
    have hcount := Normalizer.length_feed_le h.output (hlimit.trans (by decide))
    rw [hfeed] at hcount
    exact ⟨_, batch, blocks, hbatch, ((recorded_of_feed .output h hfeed hblocks).pushLocal _ _ _ _).blocksOf
      hrs (show RecordType.localRawOutput ≠ .sharedOutputBlock by decide), hcount⟩

theorem StreamRecorded.trans {stream : ByteStream} {s₂ : AuditSession} {bytes bytes' : Bytes}
    {blocks' : List Bytes} {records' : List Record}
    (h : StreamRecorded c stream s s₁ bytes blocks records)
    (h' : StreamRecorded c stream s₁ s₂ bytes' blocks' records') :
    StreamRecorded c stream s s₂ (bytes ++ bytes') (blocks ++ blocks') (records ++ records') where
  recordable := h'.recordable
  chunked := by
    rw [← List.append_assoc]
    exact h.chunked.append h'.chunked
  chain := by
    rw [h'.chain, h.chain, h.facts, List.foldl_append]
  facts := h'.facts.trans h.facts
  records := by
    rw [h.records, h'.records, h.facts, h.chain, canonicalRecords_append]

/-- Call after call: the whole stream is recorded. -/
theorem recordSegments_recorded (stream : ByteStream) (segments : List (Bytes × UInt64))
    (hlimit : ∀ segment ∈ segments, segment.1.length ≤ stream.segmentLimit) :
    ∀ s, Recordable s → ∃ s' batches blocks,
      stream.recordSegments c s segments = .ok (s', batches) ∧
      StreamRecorded c stream s s' (segments.map Prod.fst).flatten blocks (batches.flatMap stream.blocksOf) ∧
      ∀ batch ∈ batches, (stream.blocksOf batch).length ≤ maxBlocksPerSegment := by
  induction segments with
  | nil =>
    intro s h
    refine ⟨s, [], [], rfl, ⟨h, ?_, rfl, rfl, rfl⟩, by simp⟩
    rw [List.map_nil, List.flatten_nil, List.append_nil]
    cases stream
    · exact ⟨rfl, by simp, h.input⟩
    · exact ⟨rfl, by simp, h.output⟩
  | cons segment segments ih =>
    intro s h
    obtain ⟨s₁, batch, blocks, hrecord, hrecorded, hcount⟩ :=
      record_recorded (c := c) stream h (hlimit segment List.mem_cons_self) segment.2
    obtain ⟨s₂, batches, more, hrest, hrecorded', hcounts⟩ :=
      ih (fun other hother => hlimit other (List.mem_cons_of_mem _ hother)) s₁ hrecorded.recordable
    refine ⟨s₂, batch :: batches, blocks ++ more, ?_, hrecorded.trans hrecorded', ?_⟩
    · rw [ByteStream.recordSegments, hrecord]
      change (ByteStream.recordSegments c stream s₁ segments >>= fun result => _) = _
      rw [hrest]
      rfl
    · intro other hother
      rcases List.mem_cons.1 hother with rfl | hother
      · rw [hrecorded.records, length_canonicalRecords]
        exact hcount
      · exact hcounts other hother

theorem closeDirections_total (h : Recordable s) :
    ∃ s' rs, s.closeDirections c = .ok (s', rs) := by
  simp only [AuditSession.closeDirections, h.requireRecordable, h.inputOpen, h.outputOpen, bind,
    Except.bind, pure, Except.pure]
  exact ⟨_, _, rfl⟩

/-- The records of the other stream are none of this one. -/
theorem filter_other (stream other : ByteStream) (hne : other ≠ stream) (inputKey : Digest32)
    (blocks : List Bytes) :
    ∀ chain, (other.canonicalRecords c inputKey chain blocks).filter
      (fun r => decide (r.type = sharedRecordType stream.shared)) = [] := by
  induction blocks with
  | nil => exact fun chain => rfl
  | cons block blocks ih =>
    intro chain
    have htype : (other.blockRecord c inputKey chain block).type ≠ sharedRecordType stream.shared := by
      cases stream <;> cases other <;> first | exact absurd rfl hne | (intro h; cases h)
    rw [ByteStream.canonicalRecords, List.filter_cons_of_neg (by simpa using htype), ih]

/-- `close_directions` completes the last block of the stream. -/
theorem closeDirections_recorded (stream : ByteStream) (h : Recordable s) :
    ∃ s' batch, s.closeDirectionsChecked c = .ok (s', batch) ∧
      stream.blocksOf batch = stream.canonicalRecords c s.facts.inputKey (s.shared stream.shared)
        (stream.normalizer s).finish ∧
      s'.shared stream.shared = (stream.normalizer s).finish.foldl
        (stream.extendBlock c s.facts.inputKey) (s.shared stream.shared) := by
  obtain ⟨s', rs, hclose⟩ := closeDirections_total (c := c) h
  have hchecked := closeDirectionsChecked_eq (c := c) s
  rw [hclose] at hchecked
  obtain ⟨batch, hbatch, hrs⟩ := unbounded_eq_ok hchecked
  obtain ⟨s₁, rs₁, s₂, rs₂, hinput, houtput, rfl, rfl⟩ := closeDirections_ok hclose
  have hin := commitBlocks_eq (c := c) .input s.inputNormalizer.finish
    { s with inputNormalizer := ⟨[], true⟩ }
  rw [show AuditSession.commitBlocks (ByteStream.input.commitBlock c) _ _ = (s₁, rs₁) from hinput] at hin
  have hout := commitBlocks_eq (c := c) .output s.outputNormalizer.finish
    { s₁ with outputNormalizer := ⟨[], true⟩ }
  rw [show AuditSession.commitBlocks (ByteStream.output.commitBlock c) _ _ = (s₂, rs₂) from houtput]
    at hout
  obtain ⟨hrs₁, hshared₁, -, -, hfacts₁, -⟩ := hin
  obtain ⟨hrs₂, hshared₂, -, -, -, -⟩ := hout
  dsimp only at hrs₁ hshared₁ hfacts₁ hrs₂ hshared₂
  refine ⟨_, batch, hbatch, ?_, ?_⟩
  · rw [ByteStream.blocksOf, hrs, List.filter_append, hrs₁, hrs₂]
    cases stream with
    | input =>
      rw [filter_canonicalRecords, filter_other .input .output (by decide), List.append_nil]
      rfl
    | output =>
      rw [filter_other .output .input (by decide), filter_canonicalRecords, List.nil_append, hfacts₁,
        hshared₁]
      rfl
  · change s₂.shared stream.shared = _
    rw [hshared₂, hshared₁, hfacts₁]
    cases stream <;> rfl

/-- The blocks of a byte string: whole blocks, and the rest if there is one. -/
def canonicalBlocks (bytes : Bytes) : List Bytes :=
  Normalizer.wholeBlocks bytes (bytes.length / canonicalBlockLen) ++
    Normalizer.finish ⟨bytes.drop (bytes.length / canonicalBlockLen * canonicalBlockLen), false⟩

theorem canonicalBlocks_eq {bytes rest : Bytes} (h : Chunked canonicalBlockLen bytes blocks rest)
    (closed : Bool) : canonicalBlocks bytes = blocks ++ Normalizer.finish ⟨rest, closed⟩ := by
  obtain ⟨hblocks, hrest⟩ := Chunked.unique h (chunked_blocks (by decide) bytes)
  rw [canonicalBlocks, hblocks, hrest]
  rfl

/-- The blocks of a byte string make it up, and all of them but the last are full. -/
theorem canonicalBlocks_spec (bytes : Bytes) :
    (canonicalBlocks bytes).flatten = bytes ∧
      (∀ block ∈ (canonicalBlocks bytes).dropLast, block.length = canonicalBlockLen) ∧
      ∀ block ∈ canonicalBlocks bytes, 0 < block.length ∧ block.length ≤ canonicalBlockLen := by
  have hpos : 0 < canonicalBlockLen := by decide
  have h := chunked_blocks hpos bytes
  set blocks := (List.range (bytes.length / canonicalBlockLen)).map fun i =>
    (bytes.drop (i * canonicalBlockLen)).take canonicalBlockLen
  set rest := bytes.drop (bytes.length / canonicalBlockLen * canonicalBlockLen)
  rw [canonicalBlocks_eq h false, Normalizer.finish]
  by_cases hrest : rest.length = 0
  · have hnil : rest = [] := List.eq_nil_of_length_eq_zero hrest
    rw [if_pos hrest, List.append_nil]
    refine ⟨?_, fun block hblock => h.length_block block (List.dropLast_subset _ hblock), ?_⟩
    · have heq := h.eq
      rw [hnil, List.append_nil] at heq
      exact heq.symm
    · intro block hblock
      rw [h.length_block block hblock]
      exact ⟨hpos, Nat.le_refl _⟩
  · rw [if_neg hrest]
    refine ⟨?_, ?_, ?_⟩
    · rw [List.flatten_append, List.flatten_singleton]
      exact h.eq.symm
    · rw [List.dropLast_concat]
      exact h.length_block
    · intro block hblock
      rcases List.mem_append.1 hblock with hold | hnew
      · rw [h.length_block block hold]
        exact ⟨hpos, Nat.le_refl _⟩
      · rw [List.mem_singleton.1 hnew]
        exact ⟨Nat.pos_of_ne_zero hrest, Nat.le_of_lt h.length_rest⟩

/-- A whole stream is recorded without a failed check, and its blocks, their records and the chain are
those of its bytes. -/
theorem recordStream_canonical (stream : ByteStream) (h : Recordable s)
    (segments : List (Bytes × UInt64))
    (hlimit : ∀ segment ∈ segments, segment.1.length ≤ stream.segmentLimit) :
    ∃ s' batches, stream.recordStream c s segments = .ok (s', batches) ∧
      batches.flatMap stream.blocksOf = stream.canonicalRecords c s.facts.inputKey
        (s.shared stream.shared)
        (canonicalBlocks ((stream.normalizer s).buffer ++ (segments.map Prod.fst).flatten)) ∧
      s'.shared stream.shared = (canonicalBlocks ((stream.normalizer s).buffer ++
        (segments.map Prod.fst).flatten)).foldl (stream.extendBlock c s.facts.inputKey)
          (s.shared stream.shared) ∧
      ∀ batch ∈ batches, (stream.blocksOf batch).length ≤ maxBlocksPerSegment := by
  obtain ⟨s₁, batches, blocks, hrun, hrecorded, hcounts⟩ :=
    recordSegments_recorded (c := c) stream segments hlimit s h
  obtain ⟨s₂, batch, hclose, hlast, hchain⟩ :=
    closeDirections_recorded (c := c) stream hrecorded.recordable
  have hblocks := canonicalBlocks_eq hrecorded.chunked (stream.normalizer s₁).closed
  refine ⟨s₂, batches ++ [batch], ?_, ?_, ?_, ?_⟩
  · rw [ByteStream.recordStream, hrun]
    change (s₁.closeDirectionsChecked c >>= fun result => _) = _
    rw [hclose]
    rfl
  · rw [List.flatMap_append, List.flatMap_singleton, hrecorded.records, hlast, hrecorded.facts,
      hrecorded.chain, hblocks, canonicalRecords_append]
  · rw [hchain, hrecorded.facts, hrecorded.chain, hblocks, List.foldl_append]
  · intro other hother
    rcases List.mem_append.1 hother with hold | hnew
    · exact hcounts other hold
    · rw [List.mem_singleton.1 hnew, hlast, length_canonicalRecords]
      exact (length_finish_le _).trans (by decide)

end

/-- Two segmentations of one byte string, in segments that the calls take, are recorded with every check
passing and give the same block records, block count and chain head. The blocks make up the partial block
and the bytes, all of them but the last are full, each call completes at most four of them, no batch has
more than its six records, and the partial block never reaches the length of a block. -/
theorem canonical_blocks (c : Crypto) (stream : ByteStream) (s : AuditSession) (h : Recordable s)
    (segments segments' : List (Bytes × UInt64))
    (hbytes : (segments.map Prod.fst).flatten = (segments'.map Prod.fst).flatten)
    (hlimit : ∀ segment ∈ segments, segment.1.length ≤ stream.segmentLimit)
    (hlimit' : ∀ segment ∈ segments', segment.1.length ≤ stream.segmentLimit) :
    ∃ τ batches τ' batches' blocks,
      stream.recordStream c s segments = .ok (τ, batches) ∧
      stream.recordStream c s segments' = .ok (τ', batches') ∧
      batches.flatMap stream.blocksOf = batches'.flatMap stream.blocksOf ∧
      τ.shared stream.shared = τ'.shared stream.shared ∧
      batches.flatMap stream.blocksOf =
        stream.canonicalRecords c s.facts.inputKey (s.shared stream.shared) blocks ∧
      blocks.flatten = (stream.normalizer s).buffer ++ (segments.map Prod.fst).flatten ∧
      (∀ block ∈ blocks.dropLast, block.length = 16384) ∧
      (∀ block ∈ blocks, 0 < block.length ∧ block.length ≤ 16384) ∧
      (∀ batch ∈ batches, (stream.blocksOf batch).length ≤ 4 ∧ batch.1.length ≤ 6) ∧
      ∀ done rest, segments = done ++ rest → ∃ σ first,
        stream.recordSegments c s done = .ok (σ, first) ∧
          (stream.normalizer σ).buffer.length ≤ 16383 := by
  obtain ⟨τ, batches, hrun, hrecords, hchain, hcount⟩ :=
    recordStream_canonical (c := c) stream h segments hlimit
  obtain ⟨τ', batches', hrun', hrecords', hchain', -⟩ :=
    recordStream_canonical (c := c) stream h segments' hlimit'
  obtain ⟨hflatten, hfull, hsize⟩ :=
    canonicalBlocks_spec ((stream.normalizer s).buffer ++ (segments.map Prod.fst).flatten)
  refine ⟨τ, batches, τ', batches', _, hrun, hrun', ?_, ?_, hrecords, hflatten, hfull, hsize, ?_, ?_⟩
  · rw [hrecords, hrecords', hbytes]
  · rw [hchain, hchain', hbytes]
  · exact fun batch hbatch => ⟨hcount batch hbatch, batch.2⟩
  · rintro done rest rfl
    obtain ⟨σ, first, blocks, hdone, hrecorded, -⟩ := recordSegments_recorded (c := c) stream done
      (fun segment hsegment => hlimit segment (List.mem_append_left _ hsegment)) s h
    exact ⟨σ, first, hdone, Nat.le_of_lt_succ hrecorded.chunked.length_rest⟩

theorem recordable_start (facts : SessionFacts) : Recordable (.start facts) :=
  ⟨⟨Nat.zero_lt_succ _, Nat.zero_lt_succ _⟩, rfl, rfl, rfl⟩

/-- Three bytes in one segment and in two. -/
theorem canonical_blocks_three :
    ∃ τ batches τ' batches',
      ByteStream.input.recordStream .transparent (.start (plainFacts .host)) [([1, 2, 3], 0)] = .ok (τ, batches) ∧
      ByteStream.input.recordStream .transparent (.start (plainFacts .host)) [([1], 5), ([2, 3], 9)] =
        .ok (τ', batches') ∧
      τ.shared .input = τ'.shared .input := by
  obtain ⟨τ, batches, τ', batches', -, hrun, hrun', -, hchain, -⟩ :=
    canonical_blocks .transparent .input (.start (plainFacts .host)) (recordable_start _) [([1, 2, 3], 0)]
      [([1], 5), ([2, 3], 9)] rfl (by decide) (by decide)
  exact ⟨τ, batches, τ', batches', hrun, hrun', hchain⟩

/-- Output of 64 KiB is refused in one segment, and recorded in two. -/
theorem output_of_64KiB_refused :
    ByteStream.output.recordStream .transparent (.start (plainFacts .host)) [(List.replicate 65536 0, 0)] =
      .error (.error .segmentTooLarge) ∧
    ∃ τ batches, ByteStream.output.recordStream .transparent (.start (plainFacts .host))
      [(List.replicate 32768 0, 0), (List.replicate 32768 0, 0)] = .ok (τ, batches) := by
  constructor
  · have hlong : maxLocalOutputSegment < (List.replicate 65536 (0 : UInt8)).length := by
      rw [List.length_replicate]
      decide
    have hrefused : ByteStream.output.record .transparent (.start (plainFacts .host)) (List.replicate 65536 0) 0 =
        .error (.error .segmentTooLarge) := by
      rw [ByteStream.record, AuditSession.recordOutputChecked,
        (recordable_start (plainFacts .host)).requireRecordable, if_pos (.inl hlong)]
      rfl
    rw [ByteStream.recordStream, ByteStream.recordSegments, hrefused]
    rfl
  · have hlimit : ∀ segment ∈ [(List.replicate 32768 (0 : UInt8), (0 : UInt64)),
        (List.replicate 32768 0, 0)], segment.1.length ≤ ByteStream.output.segmentLimit := by
      intro segment hsegment
      rw [List.mem_cons, List.mem_singleton, or_self] at hsegment
      rw [hsegment, List.length_replicate]
      decide
    obtain ⟨τ, batches, hrun, -⟩ := recordStream_canonical (c := .transparent) .output
      (recordable_start (plainFacts .host)) _ hlimit
    exact ⟨τ, batches, hrun⟩

/-! ## What a snapshot says about the output -/

/-- The events of output blocks, the newest first. -/
def outputLog (c : Crypto) (blocks : List Bytes) : EventLog :=
  (blocks.map fun block => (directionHostToCtrl, AuditSession.outputEvent c block)).reverse

/-- The strings hashed for the output. -/
def outputStrings (c : Crypto) (bytes : Bytes) : List Bytes :=
  canonicalBlocks bytes ++ hashedOf c (outputLog c (canonicalBlocks bytes))

variable {c : Crypto} {blocks blocks' : List Bytes}

theorem chainOf_outputLog :
    chainOf c (outputLog c blocks) = blocks.foldl (SharedChain.extendOutput c) ⟨0, zeroHead⟩ := by
  induction blocks using List.reverseRecOn with
  | nil => rfl
  | append_singleton blocks block ih =>
    rw [List.foldl_concat, ← ih, outputLog, List.map_append, List.reverse_append]
    rfl

theorem eventsBuilt_outputLog : EventsBuilt (outputLog c blocks) := by
  intro x hx
  obtain ⟨block, -, rfl⟩ := List.mem_map.1 (List.mem_reverse.1 hx)
  trivial

theorem eq_of_outputLog_eq (hfree : CollisionFree c (blocks ++ blocks'))
    (h : outputLog c blocks = outputLog c blocks') : blocks = blocks' := by
  have hmap := List.reverse_injective h
  refine List.ext_getElem (by simpa using congrArg List.length hmap) fun i hi hi' => ?_
  have hevent : AuditSession.outputEvent c blocks[i] = AuditSession.outputEvent c blocks'[i] := by
    simpa [hi, hi'] using congrArg (·[i]?) hmap
  exact hfree _ (List.mem_append_left _ (List.getElem_mem hi)) _
    (List.mem_append_right _ (List.getElem_mem hi')) (SharedEvent.output.inj hevent).2

theorem length_outputLog_le (bytes : Bytes) :
    (outputLog c (canonicalBlocks bytes)).length ≤ bytes.length := by
  obtain ⟨hflatten, -, hsize⟩ := canonicalBlocks_spec bytes
  have hsum := List.length_le_sum_of_one_le ((canonicalBlocks bytes).map List.length)
    (List.forall_mem_map.2 fun block hblock => (hsize block hblock).1)
  rw [← List.length_flatten, hflatten, List.length_map] at hsum
  simpa [outputLog] using hsum

/-- Segments that the calls take, with their times. -/
abbrev OutputSegments :=
  { segments : List (Bytes × UInt64) // ∀ x ∈ segments, x.1.length ≤ maxLocalOutputSegment }

def OutputSegments.bytes (segments : OutputSegments) : Bytes := (segments.1.map Prod.fst).flatten

/-- Both ends record output, in any segments. If their snapshots are equal and no two of the hashed
strings collide, they have recorded the same bytes. -/
theorem output_of_snapshot (facts facts' : SessionFacts) (segments segments' : OutputSegments) :
    ∃ s batches s' batches',
      ByteStream.output.recordStream c (.start facts) segments.1 = .ok (s, batches) ∧
      ByteStream.output.recordStream c (.start facts') segments'.1 = .ok (s', batches') ∧
      (s.sharedSnapshot = s'.sharedSnapshot →
        segments.bytes.length < 2 ^ 64 → segments'.bytes.length < 2 ^ 64 →
        CollisionFree c (outputStrings c segments.bytes ++ outputStrings c segments'.bytes) →
        segments.bytes = segments'.bytes) := by
  obtain ⟨s, batches, hrun, -, hchain, -⟩ :=
    recordStream_canonical (c := c) .output (recordable_start facts) segments.1 segments.2
  obtain ⟨s', batches', hrun', -, hchain', -⟩ :=
    recordStream_canonical (c := c) .output (recordable_start facts') segments'.1 segments'.2
  refine ⟨s, batches, s', batches', hrun, hrun', fun hsnapshot hlength hlength' hfree => ?_⟩
  have hchains := (chainOf_outputLog.trans hchain.symm).trans
    ((shared_of_snapshot hsnapshot .output).trans (hchain'.trans chainOf_outputLog.symm))
  have hlog := eq_of_chains_eq eventsBuilt_outputLog eventsBuilt_outputLog
    ((length_outputLog_le _).trans_lt hlength) ((length_outputLog_le _).trans_lt hlength')
    (hfree.mono ((List.sublist_append_right _ _).append (List.sublist_append_right _ _)).subset) hchains
  have hblocks := eq_of_outputLog_eq
    (hfree.mono ((List.sublist_append_left _ _).append (List.sublist_append_left _ _)).subset) hlog
  rw [← (canonicalBlocks_spec segments.bytes).1, hblocks, (canonicalBlocks_spec _).1]

end Yonder.Audit
