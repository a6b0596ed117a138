import Mathlib.Data.List.ReduceOption
import Yonder.Lib.Fill
import Yonder.Lib.Scan
import Yonder.Wire.AuditMessage

/-!
# Reading the frames of the audit substream

`read_one_frame` reads one frame and keeps its progress in the call. `IncrementalFrameReader` keeps it
in the reader, because its caller drops the call whenever another event of the session comes first. Both
are given a schedule that says at every point where they wait how much the read delivers, or that the
call is dropped.

`frameAtHead` is the frame at the head of a byte string. `Call` ties one call of either reader to it, and
`drive_spec` does so for the whole sequence of calls: whatever the schedule, the frames and the end are
those of the byte string, and a schedule with more reads than the stream has bytes comes to the end. Errors
of the stream itself are left out.
-/

namespace Yonder.Audit

open Lib Lib.Scan Wire

/-- The errors of a frame: `Protocol`, and `Substream` for an end inside a payload. -/
inductive FrameError where
  | protocol (e : ProtocolError)
  | unexpectedEof
deriving DecidableEq, Repr

/-- How a call ended: it returned, it was dropped, or the schedule does not go on. -/
inductive CallEnd where
  | returned (result : Except FrameError (Option Bytes))
  | cancelled
  | waiting

/-- The two checks of a frame header, with the payload length. A `u32` fits a `usize`. -/
def acceptHeader (header : Bytes) : Except FrameError Nat :=
  match AuditMessage.decodeFrameHeader header with
  | .error e => .error (.protocol e)
  | .ok (tag, payloadLen) =>
    match AuditMessage.validatePayloadLen tag payloadLen with
    | .error e => .error (.protocol e)
    | .ok () => .ok payloadLen

/-- The end of the stream while the header is read. -/
def headerEof (filled : Nat) : Except FrameError (Option Bytes) :=
  if filled = 0 then .ok none else .error (.protocol (.invalidLength 5 filled))

/-- `read_one_frame`, with what it leaves of the stream. -/
def readOneFrame (polls : List Poll) (stream : Bytes) : CallEnd × List Poll × Bytes :=
  match fill polls stream (Buffer.empty UInt8 5) with
  | (.cancelled, polls, stream, _) => (.cancelled, polls, stream)
  | (.waiting, polls, stream, _) => (.waiting, polls, stream)
  | (.eof, polls, stream, header) => (.returned (headerEof header.1.length), polls, stream)
  | (.full, polls, stream, header) =>
    match acceptHeader header.1 with
    | .error e => (.returned (.error e), polls, stream)
    | .ok payloadLen =>
      match fill polls stream (Buffer.empty UInt8 payloadLen) with
      | (.cancelled, polls, stream, _) => (.cancelled, polls, stream)
      | (.waiting, polls, stream, _) => (.waiting, polls, stream)
      | (.eof, polls, stream, _) => (.returned (.error .unexpectedEof), polls, stream)
      | (.full, polls, stream, payload) =>
        (.returned (.ok (some (header.1 ++ payload.1))), polls, stream)

/-- The stream, the filled part of the header, and the frame with its filled part. -/
structure IncrementalFrameReader where
  stream : Bytes
  header : Buffer UInt8 5
  frame : Option ((payloadLen : Nat) × Buffer UInt8 (5 + payloadLen))

namespace IncrementalFrameReader

def new (stream : Bytes) : IncrementalFrameReader := ⟨stream, .empty UInt8 5, none⟩

/-- The frame in progress, or a new one that starts with the header. -/
def openFrame (r : IncrementalFrameReader) :
    Except FrameError ((payloadLen : Nat) × Buffer UInt8 (5 + payloadLen)) :=
  match r.frame with
  | some frame => .ok frame
  | none =>
    match acceptHeader r.header.1 with
    | .error e => .error e
    | .ok payloadLen => .ok ⟨payloadLen, r.header.1, Nat.le_add_right_of_le r.header.2⟩

/-- The second loop of `read_next`. -/
def readBody (polls : List Poll) (r : IncrementalFrameReader) {payloadLen : Nat}
    (frame : Buffer UInt8 (5 + payloadLen)) : CallEnd × List Poll × IncrementalFrameReader :=
  match fill polls r.stream frame with
  | (.cancelled, polls, stream, frame) =>
    (.cancelled, polls, ⟨stream, r.header, some ⟨payloadLen, frame⟩⟩)
  | (.waiting, polls, stream, frame) => (.waiting, polls, ⟨stream, r.header, some ⟨payloadLen, frame⟩⟩)
  | (.eof, polls, stream, frame) =>
    (.returned (.error .unexpectedEof), polls, ⟨stream, r.header, some ⟨payloadLen, frame⟩⟩)
  | (.full, polls, stream, frame) => (.returned (.ok (some frame.1)), polls, new stream)

/-- `read_next`. -/
def readNext (polls : List Poll) (r : IncrementalFrameReader) :
    CallEnd × List Poll × IncrementalFrameReader :=
  match fill polls r.stream r.header with
  | (.cancelled, polls, stream, header) => (.cancelled, polls, ⟨stream, header, r.frame⟩)
  | (.waiting, polls, stream, header) => (.waiting, polls, ⟨stream, header, r.frame⟩)
  | (.eof, polls, stream, header) =>
    (.returned (headerEof header.1.length), polls, ⟨stream, header, r.frame⟩)
  | (.full, polls, stream, header) =>
    let r : IncrementalFrameReader := ⟨stream, header, r.frame⟩
    match r.openFrame with
    | .error e => (.returned (.error e), polls, r)
    | .ok ⟨_, frame⟩ => readBody polls r frame

end IncrementalFrameReader

/-! ## The frame at the head of a byte string -/

def frameAtHead (bytes : Bytes) : Next Bytes Bytes (Except FrameError Unit) :=
  if bytes.length < 5 then
    .stop (if bytes.length = 0 then .ok () else .error (.protocol (.invalidLength 5 bytes.length)))
  else
    match acceptHeader (bytes.take 5) with
    | .error e => .stop (.error e)
    | .ok payloadLen =>
      if bytes.length < 5 + payloadLen then .stop (.error .unexpectedEof)
      else .item (bytes.take (5 + payloadLen)) (bytes.drop (5 + payloadLen))

/-- The frames of a byte string and its end. -/
def parseFrames (bytes : Bytes) : List Bytes × Option (Except FrameError Unit) :=
  scan frameAtHead (bytes.length + 1) bytes

theorem length_of_frameAtHead {bytes frame rest : Bytes} (h : frameAtHead bytes = .item frame rest) :
    rest.length < bytes.length := by
  unfold frameAtHead at h
  split at h
  · cases h
  · split at h
    · cases h
    · split at h
      · cases h
      · cases h
        rw [List.length_drop]
        omega

section

variable {bytes : Bytes} {payloadLen : Nat}

theorem frameAtHead_of_error {e : FrameError} (hlength : ¬ bytes.length < 5)
    (haccept : acceptHeader (bytes.take 5) = .error e) : frameAtHead bytes = .stop (.error e) := by
  rw [frameAtHead, if_neg hlength, haccept]

theorem frameAtHead_of_cut (hlength : ¬ bytes.length < 5)
    (haccept : acceptHeader (bytes.take 5) = .ok payloadLen) (hcut : bytes.length < 5 + payloadLen) :
    frameAtHead bytes = .stop (.error .unexpectedEof) := by
  rw [frameAtHead, if_neg hlength, haccept]
  exact if_pos hcut

theorem frameAtHead_of_whole (hlength : ¬ bytes.length < 5)
    (haccept : acceptHeader (bytes.take 5) = .ok payloadLen) (hwhole : ¬ bytes.length < 5 + payloadLen) :
    frameAtHead bytes = .item (bytes.take (5 + payloadLen)) (bytes.drop (5 + payloadLen)) := by
  rw [frameAtHead, if_neg hlength, haccept]
  exact if_neg hwhole

/-- A frame that the bytes start with. -/
theorem frameAtHead_of_data {data rest : Bytes} (hlength : data.length = 5 + payloadLen)
    (hbytes : data ++ rest = bytes) (haccept : acceptHeader (bytes.take 5) = .ok payloadLen) :
    frameAtHead bytes = .item data rest := by
  have hle : 5 + payloadLen ≤ bytes.length := by
    rw [← hbytes, List.length_append]
    omega
  rw [frameAtHead_of_whole (by omega) haccept (by omega), ← hbytes, List.take_left' hlength,
    List.drop_left' hlength]

end

/-- What a call does to the bytes that have not been delivered in a frame. -/
inductive Call (bytes : Bytes) : CallEnd → Bytes → Prop
  | frame {frame rest : Bytes} (h : frameAtHead bytes = .item frame rest) :
      Call bytes (.returned (.ok (some frame))) rest
  | boundary {rest : Bytes} (h : frameAtHead bytes = .stop (.ok ())) :
      Call bytes (.returned (.ok none)) rest
  | failed {e : FrameError} {rest : Bytes} (h : frameAtHead bytes = .stop (.error e)) :
      Call bytes (.returned (.error e)) rest
  | cancelled : Call bytes .cancelled bytes
  | waiting {rest : Bytes} : Call bytes .waiting rest

theorem call_headerEof {bytes rest : Bytes} (h : bytes.length < 5) :
    Call bytes (.returned (headerEof bytes.length)) rest := by
  by_cases hzero : bytes.length = 0
  · rw [headerEof, if_pos hzero]
    exact .boundary (by rw [frameAtHead, if_pos h, if_pos hzero])
  · rw [headerEof, if_neg hzero]
    exact .failed (by rw [frameAtHead, if_pos h, if_neg hzero])

/-! ## Sequences of calls -/

/-- Whether a call was the last one. -/
def CallEnd.isLast : CallEnd → Bool
  | returned (.ok (some _)) => false
  | returned _ => true
  | _ => false

/-- A reader: what one call does, what is left of the stream, the bytes that the reader holds or has yet
to read, and when it can be called. -/
structure FrameSource (State : Type) where
  call : List Poll → State → CallEnd × List Poll × State
  stream : State → Bytes
  unread : State → Bytes
  Coherent : List Poll → State → Prop

/-- What the reader promises of one call. -/
structure CallSpec {State : Type} (source : FrameSource State) (polls : List Poll) (s : State)
    (how : CallEnd) (polls' : List Poll) (s' : State) : Prop where
  call : Call (source.unread s) how (source.unread s')
  coherent : how.isLast = false → how ≠ .waiting → source.Coherent polls' s'
  reads : how.isLast = false →
    Poll.reads polls + (source.stream s').length ≤ Poll.reads polls' + (source.stream s).length
  consumed : polls'.length ≤ polls.length
  cancelled : how = .cancelled → polls'.length < polls.length
  waiting : how = .waiting → polls' = []

section

variable {State : Type} {source : FrameSource State} {polls polls' : List Poll} {s s' : State}
  {how : CallEnd}

theorem callSpec_last (hcall : Call (source.unread s) how (source.unread s')) (hlast : how.isLast = true)
    (hconsumed : polls'.length ≤ polls.length) : CallSpec source polls s how polls' s' := by
  refine ⟨hcall, fun hnot => ?_, fun hnot => ?_, hconsumed, ?_, ?_⟩
  · exact absurd (hnot.symm.trans hlast) (by simp)
  · exact absurd (hnot.symm.trans hlast) (by simp)
  · rintro rfl
    cases hlast
  · rintro rfl
    cases hlast

theorem callSpec_waiting (hpolls : polls' = [])
    (hreads : Poll.reads polls + (source.stream s').length ≤
      Poll.reads polls' + (source.stream s).length) : CallSpec source polls s .waiting polls' s' where
  call := .waiting
  coherent := fun _ hne => absurd rfl hne
  reads := fun _ => hreads
  consumed := hpolls ▸ Nat.zero_le _
  cancelled := by simp
  waiting := fun _ => hpolls

theorem callSpec_cancelled (hunread : source.unread s' = source.unread s)
    (hcoherent : source.Coherent polls' s')
    (hreads : Poll.reads polls + (source.stream s').length ≤
      Poll.reads polls' + (source.stream s).length) (hless : polls'.length < polls.length) :
    CallSpec source polls s .cancelled polls' s' where
  call := hunread ▸ .cancelled
  coherent := fun _ _ => hcoherent
  reads := fun _ => hreads
  consumed := Nat.le_of_lt hless
  cancelled := fun _ => hless
  waiting := by simp

theorem callSpec_frame {frame : Bytes}
    (hnext : frameAtHead (source.unread s) = .item frame (source.unread s'))
    (hcoherent : source.Coherent polls' s')
    (hreads : Poll.reads polls + (source.stream s').length ≤
      Poll.reads polls' + (source.stream s).length) (hconsumed : polls'.length ≤ polls.length) :
    CallSpec source polls s (.returned (.ok (some frame))) polls' s' where
  call := .frame hnext
  coherent := fun _ _ => hcoherent
  reads := fun _ => hreads
  consumed := hconsumed
  cancelled := by simp
  waiting := by simp

end

namespace FrameSource

variable {State : Type} (source : FrameSource State)

/-- One call as a step of a scan: a frame, nothing if the call was dropped, or the end. -/
def next : List Poll × State →
    Next (List Poll × State) (Option Bytes) (Option (Except FrameError Unit))
  | (polls, s) =>
    match source.call polls s with
    | (.returned (.ok (some frame)), rest) => .item (some frame) rest
    | (.returned (.ok none), _) => .stop (some (.ok ()))
    | (.returned (.error e), _) => .stop (some (.error e))
    | (.cancelled, rest) => .item none rest
    | (.waiting, _) => .stop none

/-- Call after call until the end of the stream, an error or the end of the schedule: the frames and the
end, if there was one. -/
def drive (polls : List Poll) (s : State) : List Bytes × Option (Except FrameError Unit) :=
  let run := scan source.next (polls.length + (source.unread s).length + 1) (polls, s)
  (run.1.reduceOption, run.2.join)

variable {source : FrameSource State}

section

variable {polls polls' : List Poll} {s s' : State}

theorem next_frame {frame : Bytes}
    (h : source.call polls s = (.returned (.ok (some frame)), polls', s')) :
    source.next (polls, s) = .item (some frame) (polls', s') := by
  rw [next, h]

theorem next_boundary (h : source.call polls s = (.returned (.ok none), polls', s')) :
    source.next (polls, s) = .stop (some (.ok ())) := by
  rw [next, h]

theorem next_failed {e : FrameError} (h : source.call polls s = (.returned (.error e), polls', s')) :
    source.next (polls, s) = .stop (some (.error e)) := by
  rw [next, h]

theorem next_cancelled (h : source.call polls s = (.cancelled, polls', s')) :
    source.next (polls, s) = .item none (polls', s') := by
  rw [next, h]

theorem next_waiting (h : source.call polls s = (.waiting, polls', s')) :
    source.next (polls, s) = .stop none := by
  rw [next, h]

end

/-- The frames so far and the end of a scan, against those of the unread bytes. -/
def Matches (source : FrameSource State) (polls : List Poll) (s : State) (frames : List Bytes) :
    Option (Except FrameError Unit) → Prop
  | none => frames <+: (parseFrames (source.unread s)).1 ∧
      Poll.reads polls ≤ (source.stream s).length
  | some final => parseFrames (source.unread s) = (frames, some final)

theorem parseFrames_item {bytes frame rest : Bytes} (h : frameAtHead bytes = .item frame rest) :
    parseFrames bytes = (frame :: (parseFrames rest).1, (parseFrames rest).2) := by
  have hlength := length_of_frameAtHead h
  obtain ⟨final, hfinal⟩ := scan_of_decreasing List.length
    (fun _ _ _ hnext => length_of_frameAtHead hnext) (rest.length + 1) rest (Nat.lt_succ_self _)
  have hrest : parseFrames rest = ((parseFrames rest).1, some final) := Prod.ext rfl hfinal
  rw [parseFrames, scan_item h, scan_fuel hrest hlength, ← hrest]

theorem parseFrames_stop {bytes : Bytes} {final : Except FrameError Unit}
    (h : frameAtHead bytes = .stop final) : parseFrames bytes = ([], some final) :=
  scan_stop h

section

variable {polls polls' : List Poll} {s s' : State} {frames : List Bytes}
  {final : Option (Except FrameError Unit)}

theorem Matches.of_unread (h : Matches source polls' s' frames final)
    (hunread : source.unread s' = source.unread s)
    (hreads : Poll.reads polls + (source.stream s').length ≤
      Poll.reads polls' + (source.stream s).length) : Matches source polls s frames final := by
  cases final with
  | none =>
    obtain ⟨hstart, hle⟩ := h
    exact ⟨hunread ▸ hstart, by omega⟩
  | some final =>
    rw [Matches, ← hunread]
    exact h

theorem Matches.cons {frame : Bytes} (h : Matches source polls' s' frames final)
    (hnext : frameAtHead (source.unread s) = .item frame (source.unread s'))
    (hreads : Poll.reads polls + (source.stream s').length ≤
      Poll.reads polls' + (source.stream s).length) :
    Matches source polls s (frame :: frames) final := by
  have hparse := parseFrames_item hnext
  cases final with
  | none =>
    obtain ⟨hstart, hle⟩ := h
    refine ⟨?_, by omega⟩
    rw [hparse]
    exact (List.prefix_cons_inj frame).2 hstart
  | some final =>
    have hrest : parseFrames (source.unread s') = (frames, some final) := h
    rw [Matches, hparse, hrest]

end

/-- A scan of a coherent reader comes to an end, and its frames and its end are those of the bytes that
were unread at its start. -/
theorem scan_matches
    (hspec : ∀ polls s, source.Coherent polls s → CallSpec source polls s (source.call polls s).1
      (source.call polls s).2.1 (source.call polls s).2.2) (fuel : Nat) :
    ∀ (polls : List Poll) (s : State), source.Coherent polls s →
      polls.length + (source.unread s).length < fuel →
      ∃ items final, scan source.next fuel (polls, s) = (items, some final) ∧
        Matches source polls s items.reduceOption final := by
  induction fuel with
  | zero => exact fun polls s _ hfuel => absurd hfuel (Nat.not_lt_zero _)
  | succ fuel ih =>
    intro polls s hcoherent hfuel
    have spec := hspec polls s hcoherent
    obtain ⟨how, polls', s', hcall⟩ : ∃ how polls' s', source.call polls s = (how, polls', s') :=
      ⟨_, _, _, rfl⟩
    rw [hcall] at spec
    obtain ⟨hbytes, hcoherent', hreads, hconsumed, hcancelled, hwaiting⟩ := spec
    dsimp only at hbytes hcoherent' hreads hconsumed hcancelled hwaiting
    generalize hunread : source.unread s' = rest at hbytes
    cases hbytes with
    | @frame frame rest hnext =>
      have hlength := length_of_frameAtHead hnext
      have hfuel' : polls'.length + (source.unread s').length < fuel := by
        rw [hunread]
        omega
      obtain ⟨items, final, hscan, hmatches⟩ := ih polls' s' (hcoherent' rfl (by simp)) hfuel'
      refine ⟨some frame :: items, final, ?_, ?_⟩
      · rw [scan_item (next_frame hcall), hscan]
      · rw [List.reduceOption_cons_of_some]
        exact hmatches.cons (hunread ▸ hnext) (hreads rfl)
    | boundary hnext =>
      exact ⟨[], some (.ok ()), scan_stop (next_boundary hcall), parseFrames_stop hnext⟩
    | failed hnext => exact ⟨[], some (.error _), scan_stop (next_failed hcall), parseFrames_stop hnext⟩
    | cancelled =>
      have hless := hcancelled rfl
      have hfuel' : polls'.length + (source.unread s').length < fuel := by
        rw [hunread]
        omega
      obtain ⟨items, final, hscan, hmatches⟩ := ih polls' s' (hcoherent' rfl (by simp)) hfuel'
      refine ⟨none :: items, final, ?_, ?_⟩
      · rw [scan_item (next_cancelled hcall), hscan]
      · rw [List.reduceOption_cons_of_none]
        exact hmatches.of_unread hunread (hreads rfl)
    | waiting =>
      refine ⟨[], none, scan_stop (next_waiting hcall), List.nil_prefix, ?_⟩
      have hreads' := hreads rfl
      rw [hwaiting rfl, Poll.reads] at hreads'
      omega

/-- The calls of a coherent reader deliver the frames and the end of the bytes that were unread. -/
theorem drive_spec (source : FrameSource State)
    (hspec : ∀ polls s, source.Coherent polls s → CallSpec source polls s (source.call polls s).1
      (source.call polls s).2.1 (source.call polls s).2.2) (polls : List Poll) {s : State}
    (hcoherent : source.Coherent polls s) :
    Matches source polls s (source.drive polls s).1 (source.drive polls s).2 := by
  obtain ⟨items, final, hscan, hmatches⟩ :=
    scan_matches hspec (polls.length + (source.unread s).length + 1) polls s hcoherent
      (Nat.lt_succ_self _)
  have hdrive : source.drive polls s = (items.reduceOption, final) := by
    rw [drive, hscan]
    rfl
  rw [hdrive]
  exact hmatches

end FrameSource

/-! ## The two readers -/

/-- `read_one_frame`, called again and again. A call that is dropped loses what it has read, so its
schedules have no cancellations. -/
def sequentialSource : FrameSource Bytes where
  call := readOneFrame
  stream := id
  unread := id
  Coherent := fun polls _ => Poll.cancel ∉ polls

/-- The end of the stream in the header. -/
theorem fill_header_eof {polls polls' : List Poll} {stream stream' : Bytes} {header header' : Buffer UInt8 5}
    (spec : FillSpec polls stream header .eof polls' stream' header') (rest : Bytes) :
    Call (header.1 ++ stream) (.returned (headerEof header'.1.length)) rest := by
  have hbytes := spec.bytes
  rw [spec.eof rfl, List.append_nil] at hbytes
  rw [← hbytes]
  exact call_headerEof (spec.short (by simp))

theorem isLast_headerEof (filled : Nat) : (CallEnd.returned (headerEof filled)).isLast = true := by
  rw [headerEof]
  split <;> rfl

theorem readOneFrame_spec (polls : List Poll) (stream : Bytes) (hsteady : Poll.cancel ∉ polls) :
    CallSpec sequentialSource polls stream (readOneFrame polls stream).1 (readOneFrame polls stream).2.1
      (readOneFrame polls stream).2.2 := by
  obtain ⟨how, polls₁, stream₁, header, hfill⟩ : ∃ how polls₁ stream₁ header,
      fill polls stream (Buffer.empty UInt8 5) = (how, polls₁, stream₁, header) := ⟨_, _, _, _, rfl⟩
  have spec := fill_spec hfill
  have hsteady₁ := (spec.steady hsteady).2
  rw [readOneFrame, hfill]
  cases how with
  | cancelled => exact absurd rfl (spec.steady hsteady).1
  | waiting => exact callSpec_waiting (spec.waiting rfl) (spec.reads_stream (by simp))
  | eof => exact callSpec_last (fill_header_eof spec _) (isLast_headerEof _) spec.consumed
  | full =>
    have hreads := spec.reads_stream (by simp)
    have hheader : header.1.length = 5 := spec.full rfl
    have hbytes : header.1 ++ stream₁ = stream := spec.bytes
    have hlength : ¬ stream.length < 5 := by
      rw [← hbytes, List.length_append]
      omega
    have htake : stream.take 5 = header.1 := by
      rw [← hbytes, List.take_left' hheader]
    dsimp only
    cases haccept : acceptHeader header.1 with
    | error e =>
      exact callSpec_last (.failed (frameAtHead_of_error hlength (htake ▸ haccept))) rfl spec.consumed
    | ok payloadLen =>
      obtain ⟨how, polls₂, stream₂, payload, hfill₂⟩ : ∃ how polls₂ stream₂ payload,
          fill polls₁ stream₁ (Buffer.empty UInt8 payloadLen) = (how, polls₂, stream₂, payload) :=
        ⟨_, _, _, _, rfl⟩
      have spec₂ := fill_spec hfill₂
      have hconsumed₂ := spec₂.consumed.trans spec.consumed
      have hbytes₂ : payload.1 ++ stream₂ = stream₁ := spec₂.bytes
      dsimp only
      rw [hfill₂]
      cases how with
      | cancelled => exact absurd rfl (spec₂.steady hsteady₁).1
      | waiting =>
        refine callSpec_waiting (spec₂.waiting rfl) ?_
        have hreads₂ := spec₂.reads_stream (by simp)
        change Poll.reads polls + stream₂.length ≤ Poll.reads polls₂ + stream.length
        omega
      | eof =>
        refine callSpec_last (.failed (frameAtHead_of_cut hlength (htake ▸ haccept) ?_)) rfl hconsumed₂
        have hshort := spec₂.short (by simp)
        change stream.length < 5 + payloadLen
        rw [← hbytes, ← hbytes₂, spec₂.eof rfl, List.append_nil, List.length_append, hheader]
        omega
      | full =>
        have hpayload : payload.1.length = payloadLen := spec₂.full rfl
        have hwhole : (header.1 ++ payload.1).length = 5 + payloadLen := by
          rw [List.length_append, hheader, hpayload]
        have hstream : header.1 ++ payload.1 ++ stream₂ = stream := by
          rw [List.append_assoc, hbytes₂, hbytes]
        refine callSpec_frame (frameAtHead_of_data hwhole hstream (htake ▸ haccept))
          (spec₂.steady hsteady₁).2 ?_ hconsumed₂
        have hreads₂ := spec₂.reads_stream (by simp)
        change Poll.reads polls + stream₂.length ≤ Poll.reads polls₂ + stream.length
        omega

namespace IncrementalFrameReader

/-- The bytes that the reader holds or has yet to read. -/
def unread (r : IncrementalFrameReader) : Bytes :=
  match r.frame with
  | none => r.header.1 ++ r.stream
  | some ⟨_, frame⟩ => frame.1 ++ r.stream

/-- A frame in progress starts with the header, which was accepted with its payload length. -/
def Coherent (r : IncrementalFrameReader) : Prop :=
  ∀ payloadLen frame, r.frame = some ⟨payloadLen, frame⟩ →
    r.header.1.length = 5 ∧ r.header.1 <+: frame.1 ∧ acceptHeader r.header.1 = .ok payloadLen

/-- `read_next`, called again after every frame and every cancellation. -/
def frameSource : FrameSource IncrementalFrameReader where
  call := readNext
  stream := stream
  unread := unread
  Coherent := fun _ => Coherent

theorem coherent_new (stream : Bytes) : (new stream).Coherent :=
  fun _ _ h => by cases h

/-- The second loop, from a frame that starts with an accepted header. -/
theorem readBody_spec {polls polls₀ : List Poll} {r r₀ : IncrementalFrameReader} {payloadLen : Nat}
    {frame : Buffer UInt8 (5 + payloadLen)} (hheader : r.header.1.length = 5)
    (hstarts : r.header.1 <+: frame.1) (haccept : acceptHeader r.header.1 = .ok payloadLen)
    (hunread : frame.1 ++ r.stream = r₀.unread) (hconsumed : polls.length ≤ polls₀.length)
    (hreads : Poll.reads polls₀ + r.stream.length ≤ Poll.reads polls + r₀.stream.length) :
    CallSpec frameSource polls₀ r₀ (readBody polls r frame).1 (readBody polls r frame).2.1
      (readBody polls r frame).2.2 := by
  obtain ⟨how, polls₁, stream₁, frame₁, hfill⟩ : ∃ how polls₁ stream₁ frame₁,
      fill polls r.stream frame = (how, polls₁, stream₁, frame₁) := ⟨_, _, _, _, rfl⟩
  have spec := fill_spec hfill
  have hbytes : frame₁.1 ++ stream₁ = r₀.unread := spec.bytes.trans hunread
  have hstarts₁ := hstarts.trans spec.grows
  have hcoherent : Coherent ⟨stream₁, r.header, some ⟨payloadLen, frame₁⟩⟩ := by
    rintro _ _ ⟨⟩
    exact ⟨hheader, hstarts₁, haccept⟩
  have htake : r₀.unread.take 5 = r.header.1 := by
    obtain ⟨more, hmore⟩ := hstarts₁
    rw [← hbytes, ← hmore, List.append_assoc, List.take_left' hheader]
  have hlength : ¬ r₀.unread.length < 5 := by
    have hle := hstarts₁.length_le
    rw [← hbytes, List.length_append]
    omega
  have hconsumed₁ := spec.consumed.trans hconsumed
  rw [readBody, hfill]
  cases how with
  | cancelled =>
    have hreads₁ := spec.reads_stream (by simp)
    refine callSpec_cancelled hbytes hcoherent ?_ (Nat.lt_of_lt_of_le (spec.cancelled rfl) hconsumed)
    change Poll.reads polls₀ + stream₁.length ≤ Poll.reads polls₁ + r₀.stream.length
    omega
  | waiting =>
    have hreads₁ := spec.reads_stream (by simp)
    refine callSpec_waiting (spec.waiting rfl) ?_
    change Poll.reads polls₀ + stream₁.length ≤ Poll.reads polls₁ + r₀.stream.length
    omega
  | eof =>
    refine callSpec_last (.failed (frameAtHead_of_cut hlength (htake ▸ haccept) ?_)) rfl hconsumed₁
    change r₀.unread.length < 5 + payloadLen
    rw [← hbytes, spec.eof rfl, List.append_nil]
    exact spec.short (by simp)
  | full =>
    have hreads₁ := spec.reads_stream (by simp)
    refine callSpec_frame (frameAtHead_of_data (spec.full rfl) hbytes (htake ▸ haccept)) (coherent_new _)
      ?_ hconsumed₁
    change Poll.reads polls₀ + stream₁.length ≤ Poll.reads polls₁ + r₀.stream.length
    omega

theorem readNext_spec (polls : List Poll) (r : IncrementalFrameReader) (hcoherent : r.Coherent) :
    CallSpec frameSource polls r (readNext polls r).1 (readNext polls r).2.1 (readNext polls r).2.2 := by
  cases hframe : r.frame with
  | none =>
    obtain ⟨how, polls₁, stream₁, header, hfill⟩ : ∃ how polls₁ stream₁ header,
        fill polls r.stream r.header = (how, polls₁, stream₁, header) := ⟨_, _, _, _, rfl⟩
    have spec := fill_spec hfill
    have hunread : r.header.1 ++ r.stream = r.unread := by
      rw [unread, hframe]
    have hbytes : header.1 ++ stream₁ = r.unread := spec.bytes.trans hunread
    rw [readNext, hfill, hframe]
    cases how with
    | cancelled =>
      refine callSpec_cancelled hbytes ?_ (spec.reads_stream (by simp)) (spec.cancelled rfl)
      rintro _ _ ⟨⟩
    | waiting => exact callSpec_waiting (spec.waiting rfl) (spec.reads_stream (by simp))
    | eof =>
      have hcall := fill_header_eof spec header.1
      rw [hunread] at hcall
      refine callSpec_last ?_ (isLast_headerEof _) spec.consumed
      change Call r.unread _ (header.1 ++ stream₁)
      rw [spec.eof rfl, List.append_nil]
      exact hcall
    | full =>
      have hheader : header.1.length = 5 := spec.full rfl
      have htake : r.unread.take 5 = header.1 := by
        rw [← hbytes, List.take_left' hheader]
      have hlength : ¬ r.unread.length < 5 := by
        rw [← hbytes, List.length_append]
        omega
      dsimp only [openFrame]
      cases haccept : acceptHeader header.1 with
      | error e =>
        exact callSpec_last (.failed (frameAtHead_of_error hlength (htake ▸ haccept))) rfl spec.consumed
      | ok payloadLen =>
        exact readBody_spec hheader List.prefix_rfl haccept hbytes spec.consumed
          (spec.reads_stream (by simp))
  | some inProgress =>
    obtain ⟨payloadLen, frame⟩ := inProgress
    obtain ⟨hheader, hstarts, haccept⟩ := hcoherent payloadLen frame hframe
    have hunread : frame.1 ++ r.stream = r.unread := by
      rw [unread, hframe]
    -- the header is full, so the first loop does nothing
    rw [readNext, fill_full (Nat.not_lt.2 hheader.ge), hframe]
    exact readBody_spec (r := ⟨r.stream, r.header, some ⟨payloadLen, frame⟩⟩) hheader hstarts haccept
      hunread (Nat.le_refl _) (Nat.le_refl _)

/-- For every stream, every schedule of the incremental reader and every schedule with enough reads of
`read_one_frame`: the latter comes to an end; the incremental reader, if it comes to an end, has delivered
the same frames and ends in the same way, and if its schedule stops before, it has delivered the first of
these frames and made at most as many reads as the stream has bytes. -/
theorem readNext_as_readOneFrame (stream : Bytes) (polls : List Poll) (sizes : List Nat)
    (hsizes : stream.length < sizes.length) :
    ∃ frames final, sequentialSource.drive (sizes.map .ready) stream = (frames, some final) ∧
      ((frameSource.drive polls (new stream)).2 = none →
        (frameSource.drive polls (new stream)).1 <+: frames ∧ Poll.reads polls ≤ stream.length) ∧
      ∀ final', (frameSource.drive polls (new stream)).2 = some final' →
        frameSource.drive polls (new stream) = (frames, some final) := by
  have hsteady : Poll.cancel ∉ sizes.map Poll.ready := by simp
  have hsequential := sequentialSource.drive_spec readOneFrame_spec _ (s := stream) hsteady
  have hincremental := frameSource.drive_spec readNext_spec polls (coherent_new stream)
  obtain ⟨frames, end', hdrive⟩ : ∃ frames end',
      sequentialSource.drive (sizes.map .ready) stream = (frames, end') := ⟨_, _, rfl⟩
  obtain ⟨frames', end'', hdrive'⟩ : ∃ frames' end'',
      frameSource.drive polls (new stream) = (frames', end'') := ⟨_, _, rfl⟩
  rw [hdrive] at hsequential ⊢
  rw [hdrive'] at hincremental ⊢
  cases end' with
  | none =>
    obtain ⟨-, hreads⟩ := hsequential
    rw [Poll.reads_map_ready] at hreads
    exact absurd hsizes (Nat.not_lt.2 hreads)
  | some final =>
    have hparse : parseFrames stream = (frames, some final) := hsequential
    refine ⟨frames, final, rfl, ?_, ?_⟩
    · rintro rfl
      obtain ⟨hstart, hreads⟩ := hincremental
      refine ⟨?_, hreads⟩
      have hfirst : (parseFrames stream).1 = frames := congrArg Prod.fst hparse
      exact hfirst ▸ hstart
    · rintro final' rfl
      have hparse' : parseFrames stream = (frames', some final') := hincremental
      exact hparse'.symm.trans hparse

/-- One close notice, read byte by byte with a cancellation in the header and one in the frame. -/
theorem readNext_closeNotice :
    let stream : Bytes := [0x0A, 0, 0, 0, 1, 0]
    let polls : List Poll := [.ready 0, .cancel, .ready 0, .ready 2, .cancel, .ready 7, .ready 7]
    frameSource.drive polls (new stream) =
      sequentialSource.drive ([0, 0, 0, 0, 0, 0, 0].map .ready) stream := by
  intro stream polls
  obtain ⟨frames, final, hsequential, -, hincremental⟩ :=
    readNext_as_readOneFrame stream polls [0, 0, 0, 0, 0, 0, 0] (by decide)
  rw [hsequential]
  exact hincremental (.ok ()) (by decide +kernel)

end IncrementalFrameReader

end Yonder.Audit
