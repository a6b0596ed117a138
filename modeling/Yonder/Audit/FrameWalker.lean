import Yonder.Audit.Walker
import Yonder.Wire.ContainerReader

/-!
# The frame walker over a file

`FrameWalker` reads the same frames as `ContainerReader`, but off a file: it knows the length of the
file and its position, and it reads the length field before it looks at what the field says, so its
position moves also when a call delivers nothing. `call_cases` compares one call with a call of the
reader, and the scan rule lifts that to the whole file: the frames are the same, and the reader fails
exactly where the walker fails or finds a truncated tail. The two do not agree on the footer, because
`footer_start` counts back from the position without knowing why the walk stopped.
-/

namespace Yonder.Audit

open Lib Lib.Scan Wire

/-- A frame reader over one container file. -/
structure FrameWalker where
  file : Bytes
  pos : Nat
  truncatedTail : Bool
  inBounds : pos ≤ file.length

namespace FrameWalker

/-- `open`. -/
def openFile (file : Bytes) : Except StreamError FrameWalker :=
  if file.length < containerHeaderLen then .error .notAnAuditContainer
  else .ok ⟨file, 0, false, Nat.zero_le _⟩

def unread (w : FrameWalker) : Bytes := w.file.drop w.pos

theorem length_unread (w : FrameWalker) : w.unread.length = w.file.length - w.pos :=
  List.length_drop

variable {w : FrameWalker} {tail l : Bytes} {b : UInt8} {r : ContainerReader}

theorem pos_add_le {n : Nat} (h : n ≤ w.file.length - w.pos) : w.pos + n ≤ w.file.length := by
  have hin := w.inBounds
  omega

theorem four_le_rest (h : ¬ w.file.length - w.pos < 5) : 4 ≤ w.file.length - w.pos := by
  omega

theorem five_le_rest (h : ¬ w.file.length - w.pos < 5) : 5 ≤ w.file.length - w.pos :=
  Nat.le_of_not_lt h

/-- The walker `n` bytes further on. -/
def advance (w : FrameWalker) (n : Nat) (h : n ≤ w.file.length - w.pos) : FrameWalker :=
  { w with pos := w.pos + n, inBounds := pos_add_le h }

/-- `skip_header`, which also checks the header. -/
def skipHeader (w : FrameWalker) : Except StreamError FrameWalker :=
  if h : containerHeaderLen ≤ w.file.length - w.pos then
    let header := w.unread.take containerHeaderLen
    if containerMagic <+: header ∧
        (header.drop 8).take 2 ≠ beBytes 2 auditFormatVersion.toNat then
      .error .unsupportedAuditFormat
    else
      match AuditContainerHeader.codec.dec header with
      | none => .error .notAnAuditContainer
      | some _ => .ok (w.advance containerHeaderLen h)
  else .error .notAnAuditContainer

/-- `footer_start`. -/
def footerStart (w : FrameWalker) : Option Nat := if 4 ≤ w.pos then some (w.pos - 4) else none

/-- `next_frame`: what is returned, and the walker after the call. -/
def nextFrame (w : FrameWalker) : Except StreamError (Option Record) × FrameWalker :=
  if h : w.file.length - w.pos < 5 then
    (.ok none, { w with truncatedTail := decide (0 < w.file.length - w.pos) })
  else
    let lengthBytes := w.unread.take 4
    if lengthBytes = footerMagic then (.ok none, w.advance 4 (four_le_rest h))
    else
      let typeByte := (w.unread.drop 4).headD 0
      let frameLen := beNat lengthBytes
      match RecordType.fromByte typeByte with
      | none =>
        (.error (.tampered "the audit container has an unknown record type"),
          w.advance 5 (five_le_rest h))
      | some recordType =>
        if validateFrameLen recordType frameLen = false then
          (.error (.tampered "the audit container has an invalid record frame"),
            w.advance 5 (five_le_rest h))
        else if hcut : w.file.length - w.pos < 5 + (frameLen - 1) then
          (.ok none, { w.advance 5 (five_le_rest h) with truncatedTail := true })
        else
          (.ok (some ⟨recordType, (w.unread.drop 5).take (frameLen - 1)⟩),
            w.advance (5 + (frameLen - 1)) (Nat.le_of_not_lt hcut))

/-- How a walk ended: with the walker's error and the offset of the failing call, or with the walker
after the last call and the offset at which that call started. -/
abbrev End := Except (StreamError × Nat) (FrameWalker × Nat)

/-- One call in a loop that runs until a call returns nothing or an error. -/
def next (w : FrameWalker) : Next FrameWalker Record End :=
  match w.nextFrame with
  | (.error e, _) => .stop (.error (e, w.pos))
  | (.ok none, w') => .stop (.ok (w', w.pos))
  | (.ok (some record), w') => .item record w'

/-- The frames of the file from the position on, and how the walk ended. -/
def walk (w : FrameWalker) : List Record × Option End := scan next (w.unread.length + 1) w

/-! ## One call, by what stands at the position -/

theorem nextFrame_short (h : w.unread.length < 5) :
    w.nextFrame = (.ok none, { w with truncatedTail := decide (0 < w.unread.length) }) := by
  rw [length_unread] at h ⊢
  unfold nextFrame
  rw [dif_pos h]

theorem nextFrame_footer (hne : tail ≠ []) (hu : w.unread = footerMagic ++ tail) :
    ∃ h, w.nextFrame = (.ok none, w.advance 4 h) := by
  have hlen : ¬ w.file.length - w.pos < 5 := by
    have := List.length_pos_of_ne_nil hne
    rw [← length_unread, hu, List.length_append, show footerMagic.length = 4 from rfl]
    omega
  have htake : w.unread.take 4 = footerMagic := by
    rw [hu]
    exact List.take_left' rfl
  refine ⟨by omega, ?_⟩
  unfold nextFrame
  rw [dif_neg hlen]
  dsimp only
  rw [if_pos htake]

/-- The front part of a call that finds five bytes and no footer. -/
theorem nextFrame_split (hl : l.length = 4) (hne : l ≠ footerMagic) (hu : w.unread = l ++ b :: tail)
    :
    ∃ h : 5 ≤ w.file.length - w.pos, w.nextFrame = match RecordType.fromByte b with
      | none =>
        (.error (.tampered "the audit container has an unknown record type"), w.advance 5 h)
      | some recordType =>
        if validateFrameLen recordType (beNat l) = false then
          (.error (.tampered "the audit container has an invalid record frame"), w.advance 5 h)
        else if hcut : w.file.length - w.pos < 5 + (beNat l - 1) then
          (.ok none, { w.advance 5 h with truncatedTail := true })
        else
          (.ok (some ⟨recordType, (w.unread.drop 5).take (beNat l - 1)⟩),
            w.advance (5 + (beNat l - 1)) (Nat.le_of_not_lt hcut)) := by
  have hlen : ¬ w.file.length - w.pos < 5 := by
    rw [← length_unread, hu, List.length_append, hl, List.length_cons]
    omega
  have htake : w.unread.take 4 = l := by rw [hu, List.take_left' hl]
  have hhead : (w.unread.drop 4).headD 0 = b := by
    rw [hu, List.drop_left' hl]
    rfl
  refine ⟨by omega, ?_⟩
  unfold nextFrame
  rw [dif_neg hlen]
  dsimp only
  rw [if_neg (by rw [htake]; exact hne)]
  simp only [htake, hhead]

theorem nextFrame_unknownType (hl : l.length = 4) (hne : l ≠ footerMagic)
    (h : RecordType.fromByte b = none) (hu : w.unread = l ++ b :: tail) :
    w.nextFrame.1 = .error (.tampered "the audit container has an unknown record type") := by
  obtain ⟨_, hcall⟩ := nextFrame_split hl hne hu
  rw [hcall, h]

theorem nextFrame_invalidLength {t : RecordType} (hl : l.length = 4) (hne : l ≠ footerMagic)
    (h : validateFrameLen t (beNat l) = false) (hu : w.unread = l ++ t.code :: tail) :
    w.nextFrame.1 = .error (.tampered "the audit container has an invalid record frame") := by
  obtain ⟨_, hcall⟩ := nextFrame_split hl hne hu
  rw [hcall, RecordType.fromByte_code]
  dsimp only
  rw [if_pos h]

theorem nextFrame_cut {t : RecordType} {n : Nat} (hv : validateFrameLen t (n + 1) = true)
    (hu : w.unread = beBytes 4 (n + 1) ++ t.code :: tail) (hcut : tail.length < n) :
    ∃ h, w.nextFrame = (.ok none, { w.advance 5 h with truncatedTail := true }) := by
  have hne := beBytes_ne_footerMagic (length_le_of_validateFrameLen hv)
  obtain ⟨h, hcall⟩ := nextFrame_split (length_beBytes 4 (n + 1)) hne hu
  have hlen : w.file.length - w.pos < 5 + (n + 1 - 1) := by
    rw [← length_unread, hu, List.length_append, length_beBytes, List.length_cons]
    omega
  refine ⟨h, ?_⟩
  rw [hcall, RecordType.fromByte_code, beNat_frameLength hv]
  dsimp only
  rw [if_neg (by simp [hv]), dif_pos hlen]

/-- A written frame is delivered, and the walker stands after it. -/
theorem nextFrame_encode {record : Record} (hv : record.Valid)
    (hu : w.unread = record.encode ++ tail) :
    ∃ w', w.nextFrame = (.ok (some record), w') ∧ w'.file = w.file ∧
      w'.truncatedTail = w.truncatedTail ∧ w'.pos = w.pos + record.encode.length ∧
      w'.unread = tail := by
  obtain ⟨t, payload⟩ := record
  have hform : w.unread = beBytes 4 (payload.length + 1) ++ t.code :: (payload ++ tail) := by
    rw [hu]
    simp only [Record.encode, List.append_assoc, List.cons_append]
  have hne := beBytes_ne_footerMagic (length_le_of_validateFrameLen hv)
  obtain ⟨h, hcall⟩ := nextFrame_split (length_beBytes 4 _) hne hform
  have hlen : ¬ w.file.length - w.pos < 5 + (payload.length + 1 - 1) := by
    rw [← length_unread, hform]
    simp only [List.length_append, length_beBytes, List.length_cons]
    omega
  have hsize : (Record.encode ⟨t, payload⟩).length = 5 + (payload.length + 1 - 1) := by
    rw [Record.length_encode]
    change payload.length + 5 = _
    omega
  have hpayload : (w.unread.drop 5).take (payload.length + 1 - 1) = payload := by
    rw [hform, show (5 : Nat) = 4 + 1 from rfl, ← List.drop_drop,
      List.drop_left' (length_beBytes 4 _), Nat.add_sub_cancel]
    exact List.take_left' rfl
  refine ⟨w.advance (5 + (payload.length + 1 - 1)) (Nat.le_of_not_lt hlen), ?_, rfl, rfl, ?_, ?_⟩
  · rw [hcall, RecordType.fromByte_code, beNat_frameLength hv]
    dsimp only
    rw [if_neg (by rw [Record.Valid] at hv; simp [hv]), dif_neg hlen, hpayload]
  · rw [hsize]
    rfl
  · change w.file.drop (w.pos + (5 + (payload.length + 1 - 1))) = tail
    rw [← List.drop_drop]
    change w.unread.drop _ = tail
    rw [hu, List.drop_left' hsize]

/-- At an unknown type or a bad length the walk over the unread bytes fails. -/
theorem nextFrame_bad (tail : Bytes) (hl : l.length = 4) (hne : l ≠ footerMagic)
    (hbad : ∀ t, RecordType.fromByte b = some t → validateFrameLen t (beNat l) = false) :
    ∃ e, Audit.nextFrame (l ++ b :: tail) = .error e := by
  obtain ⟨b₀, b₁, b₂, b₃, rfl⟩ := exists_four hl
  change ∃ e, Audit.nextFrame (b₀ :: b₁ :: b₂ :: b₃ :: b :: tail) = .error e
  rw [Audit.nextFrame, if_neg hne]
  cases htype : RecordType.fromByte b with
  | none => exact ⟨_, rfl⟩
  | some t =>
    dsimp only
    rw [if_pos (hbad t htype)]
    exact ⟨_, rfl⟩

/-! ## The calls of the two parsers -/

theorem next_of_frame {w' : FrameWalker} {record : Record}
    (h : w.nextFrame = (.ok (some record), w')) : w.next = .item record w' := by
  rw [next, h]

theorem next_of_none {w' : FrameWalker} {pos : Nat} (h : w.nextFrame = (.ok none, w'))
    (hpos : w.pos = pos) : w.next = .stop (.ok (w', pos)) := by
  rw [next, h, hpos]

theorem next_of_error {e : StreamError} (h : w.nextFrame.1 = .error e) :
    w.next = .stop (.error (e, w.pos)) := by
  rw [next, show w.nextFrame = (.error e, w.nextFrame.2) from Prod.ext h rfl]

/-- Reader and walker stand at one place of one container, and what lies between the header and this
place are whole frames. -/
structure Together (file : Bytes) (r : ContainerReader) (w : FrameWalker) : Prop where
  reading : r.bytes = file
  walking : w.file = file
  position : w.pos = r.pos
  untruncated : w.truncatedTail = false
  behind : ∃ done : List Record, (∀ record ∈ done, record.Valid) ∧
    file.drop containerHeaderLen = encodeRecords done ++ r.unread

theorem Together.unread {file : Bytes} (h : Together file r w) : w.unread = r.unread := by
  rw [FrameWalker.unread, ContainerReader.unread, h.walking, h.reading, h.position]

/-- What lies behind the reader is at least the header. -/
theorem Together.headerLen_le {file : Bytes} (h : Together file r w)
    (hlen : containerHeaderLen ≤ file.length) : containerHeaderLen ≤ r.pos := by
  obtain ⟨done, -, hbehind⟩ := h.behind
  have hsize := congrArg List.length hbehind
  have hin := r.inBounds
  rw [List.length_append, List.length_drop, ContainerReader.length_unread, h.reading] at hsize
  rw [h.reading] at hin
  omega

/-! ## The walk of a file -/

/-- Where the reader's loop found a footer. -/
def readerFooter : List Record × Option ContainerReader.End → Option Nat
  | (_, some (.ok r)) => if r.hasFooter then some r.pos else none
  | _ => none

/-- Where the walk found a footer, by its own account. -/
def walkerFooter : List Record × Option End → Option Nat
  | (_, some (.ok (w, _))) => w.footerStart
  | _ => none

/-- The position at which the reader's loop failed. -/
def readerError : List Record × Option ContainerReader.End → Option Nat
  | (_, some (.error (_, pos))) => some pos
  | _ => none

/-- The position at which the walk failed or found a truncated tail. -/
def walkerError : List Record × Option End → Option Nat
  | (_, some (.error (_, pos))) => some pos
  | (_, some (.ok (w, pos))) => if w.truncatedTail then some pos else none
  | _ => none

/-- Both parsers come to an end, deliver the same frames, fail at the same place and find the footer at
the same place. -/
structure SameWalk (read : List Record × Option ContainerReader.End)
    (walked : List Record × Option End) : Prop where
  finished : read.2.isSome ∧ walked.2.isSome
  frames : walked.1 = read.1
  errors : walkerError walked = readerError read
  footer : walkerFooter walked = readerFooter read

/-- Whole frames and then nothing, or a frame of which not everything was written. -/
def Interrupted (body : Bytes) : Prop :=
  ∃ (records : List Record) (rest : Bytes), (∀ record ∈ records, record.Valid) ∧
    body = encodeRecords records ++ rest ∧
    (rest.length < 5 ∨ ∃ (t : RecordType) (n : Nat) (tail : Bytes),
      validateFrameLen t (n + 1) = true ∧ tail.length < n ∧
        rest = beBytes 4 (n + 1) ++ t.code :: tail)

/-- The walk over the unread bytes of an interrupted file ends in a tail that is truncated or empty. -/
theorem frames_of_interrupted {body : Bytes} (h : Interrupted body) :
    ∃ rest, (frames body).2 = .ok (true, rest) ∨ (frames body).2 = .ok (false, []) := by
  obtain ⟨records, rest, hvalid, rfl, hrest⟩ := h
  rw [frames_encodeRecords records hvalid]
  rcases hrest with hshort | ⟨t, n, tail, hv, hcut, rfl⟩
  · refine ⟨rest, ?_⟩
    rw [frames_of_stop (Audit.nextFrame_short hshort)]
    cases rest with
    | nil => exact .inr rfl
    | cons b rest => exact .inl rfl
  · refine ⟨tail, .inl ?_⟩
    have hstep := nextFrame_header t n tail hv
    rw [if_pos hcut] at hstep
    rw [frames_of_stop hstep]

theorem not_interrupted_of_error {body : Bytes} {e : StreamError}
    (h : (frames body).2 = .error e) : ¬ Interrupted body := by
  intro hint
  obtain ⟨rest, htail | htail⟩ := frames_of_interrupted hint
  · rw [h] at htail
    cases htail
  · rw [h] at htail
    cases htail

theorem not_interrupted_of_footer {body rest : Bytes} (hne : rest ≠ [])
    (h : (frames body).2 = .ok (false, rest)) : ¬ Interrupted body := by
  intro hint
  obtain ⟨rest', htail | htail⟩ := frames_of_interrupted hint
  · rw [h] at htail
    cases htail
  · rw [h] at htail
    cases htail
    exact hne rfl

/-- How the two walks end, at the place where both stop. -/
inductive EndsAt (file : Bytes) (read : ContainerReader.End) (walked : End) : Prop
  | failed {e : ProtocolError} {e' : StreamError} {pos : Nat} (hread : read = .error (e, pos))
      (hwalked : walked = .error (e', pos)) (h : ¬ Interrupted (file.drop containerHeaderLen))
  | truncated {e : ProtocolError} {w : FrameWalker} {pos : Nat} (hread : read = .error (e, pos))
      (hwalked : walked = .ok (w, pos)) (htail : w.truncatedTail = true) (hpos : 4 ≤ w.pos)
      (h : Interrupted (file.drop containerHeaderLen))
  | clean {r : ContainerReader} {w : FrameWalker} (hread : read = .ok r)
      (hwalked : walked = .ok (w, r.pos)) (htail : w.truncatedTail = false) (hpos : 4 ≤ w.pos)
      (hfooter : r.hasFooter = false) (h : Interrupted (file.drop containerHeaderLen))
  | footer {r : ContainerReader} {w : FrameWalker} (hread : read = .ok r)
      (hwalked : walked = .ok (w, r.pos)) (htail : w.truncatedTail = false)
      (hpos : w.pos = r.pos + 4) (hfooter : r.hasFooter = true)
      (h : ¬ Interrupted (file.drop containerHeaderLen))

/-- The next call of both delivers one frame, or both stop at one place. -/
theorem call_cases {file : Bytes} (hlen : containerHeaderLen ≤ file.length) (h : Together file r w)
    :
    (∃ record r' w', r.next = .item record r' ∧ w.next = .item record w' ∧ Together file r' w') ∨
      ∃ read walked, r.next = .stop read ∧ w.next = .stop walked ∧ EndsAt file read walked := by
  have hw := h.unread
  have hpos : 4 ≤ w.pos := by
    rw [h.position]
    exact le_trans (by decide) (h.headerLen_le hlen)
  obtain ⟨done, hdone, hbehind⟩ := h.behind
  have htail := congrArg Prod.snd (frames_encodeRecords done hdone r.unread)
  rw [← hbehind] at htail
  generalize hu : r.unread = rest at hw htail hbehind
  cases unread_cases rest with
  | short hshort =>
    have hint : Interrupted (file.drop containerHeaderLen) :=
      ⟨done, rest, hdone, hbehind, .inl hshort⟩
    have hwalked := next_of_none (nextFrame_short (hw ▸ hshort)) h.position
    by_cases hempty : r.unread = []
    · refine .inr ⟨_, _, ContainerReader.next_of_none (ContainerReader.nextFrame_empty hempty), hwalked,
        .clean rfl rfl ?_ hpos ?_ hint⟩
      · simp [hw, ← hu, hempty]
      · rw [ContainerReader.hasFooter, hempty]
        rfl
    · refine .inr ⟨_, _, ContainerReader.next_of_error
        (ContainerReader.nextFrame_short hempty (hu ▸ hshort)), hwalked,
        .truncated rfl rfl ?_ hpos hint⟩
      have hsome := List.length_pos_of_ne_nil hempty
      rw [hu, ← hw] at hsome
      exact decide_eq_true hsome
  | @footer tail hne =>
    obtain ⟨_, hcall⟩ := nextFrame_footer hne hw
    rw [frames_of_stop (Audit.nextFrame_footer hne)] at htail
    refine .inr ⟨_, _, ContainerReader.next_of_none (ContainerReader.nextFrame_footer hne hu),
      next_of_none hcall h.position, .footer rfl rfl h.untruncated (by rw [← h.position]; rfl) ?_
        (not_interrupted_of_footer hne htail)⟩
    rw [ContainerReader.hasFooter, hu]
    exact List.isPrefixOf_iff_prefix.2 (List.prefix_append _ _)
  | @cut t n tail hv hcut =>
    obtain ⟨_, hcall⟩ := nextFrame_cut hv hw hcut
    exact .inr ⟨_, _, ContainerReader.next_of_error (ContainerReader.nextFrame_cut hv hu hcut),
      next_of_none hcall h.position, .truncated rfl rfl rfl (hpos.trans (Nat.le_add_right _ 5))
        ⟨done, _, hdone, hbehind, .inr ⟨t, n, tail, hv, hcut, rfl⟩⟩⟩
  | @unknownType l b tail hl hne htype =>
    obtain ⟨e, hstep⟩ := nextFrame_bad tail hl hne fun t ht => by rw [htype] at ht; cases ht
    have hfail : (frames (l ++ b :: tail)).2 = .error e := by rw [frames_eq, hstep]
    exact .inr ⟨_, _, ContainerReader.next_of_error
      (ContainerReader.nextFrame_unknownType hl hne htype hu),
      next_of_error (nextFrame_unknownType hl hne htype hw),
      .failed rfl (by rw [h.position]) (not_interrupted_of_error (htail.trans hfail))⟩
  | @invalidLength l t tail hl hne hv =>
    obtain ⟨e, hstep⟩ := nextFrame_bad tail hl hne fun t' ht => by
      rw [RecordType.fromByte_code] at ht
      cases ht
      exact hv
    have hfail : (frames (l ++ t.code :: tail)).2 = .error e := by rw [frames_eq, hstep]
    exact .inr ⟨_, _, ContainerReader.next_of_error
      (ContainerReader.nextFrame_invalidLength hl hne hv hu),
      next_of_error (nextFrame_invalidLength hl hne hv hw),
      .failed rfl (by rw [h.position]) (not_interrupted_of_error (htail.trans hfail))⟩
  | @frame record tail hvalid =>
    obtain ⟨w', hcall, hfile, htail, hpos, -⟩ := nextFrame_encode hvalid hw
    obtain ⟨r', hcall', hbytes, -, hpos', hrest⟩ := ContainerReader.nextFrame_encode hvalid hu
    refine .inl ⟨record, r', w', ContainerReader.next_of_frame hcall', next_of_frame hcall,
      hbytes.trans h.reading, hfile.trans h.walking, by rw [hpos, hpos', h.position],
      htail.trans h.untruncated, done ++ [record], ?_, ?_⟩
    · intro x hx
      rcases List.mem_append.1 hx with hx | hx
      · exact hdone x hx
      · rw [List.mem_singleton.1 hx]
        exact hvalid
    · rw [hbehind, hrest, encodeRecords_append, encodeRecords_cons, encodeRecords_nil,
        List.append_nil, List.append_assoc]

/-- The reader and the walker after the header of one file. -/
theorem open_together {file : Bytes} (h : ContainerReader.new file = .ok r) :
    ∃ w, (openFile file >>= skipHeader) = .ok w ∧ Together file r w := by
  obtain ⟨body, hfile, hok, hbytes, hpos⟩ := ContainerReader.new_eq_ok.1 h
  have hwidth : (AuditContainerHeader.codec.enc r.header).length = containerHeaderLen :=
    AuditContainerHeader.codec.enc_length r.header
  have hlen : containerHeaderLen ≤ file.length := by
    rw [hfile, List.length_append, hwidth]
    omega
  have hopen : openFile file = .ok ⟨file, 0, false, Nat.zero_le _⟩ := by
    rw [openFile, if_neg (by omega)]
  have htake : (⟨file, 0, false, Nat.zero_le _⟩ : FrameWalker).unread.take containerHeaderLen =
      AuditContainerHeader.codec.enc r.header := by
    change (file.drop 0).take containerHeaderLen = _
    rw [List.drop_zero, hfile, List.take_left' hwidth]
  -- A header that decodes has the frozen version behind the magic.
  have hversion : ((AuditContainerHeader.codec.enc r.header).drop 8).take 2 =
      beBytes 2 auditFormatVersion.toNat := rfl
  refine ⟨⟨file, containerHeaderLen, false, hlen⟩, ?_, hbytes, rfl, hpos.symm, rfl, [], by simp, ?_⟩
  · rw [hopen]
    change skipHeader _ = _
    rw [skipHeader, dif_pos (by exact hlen)]
    dsimp only
    rw [htake, if_neg (by rw [hversion]; simp), AuditContainerHeader.codec.dec_enc hok]
    rfl
  · rw [ContainerReader.unread, hbytes, hpos]
    rfl

/-- Frames and errors agree on every file; the footer agrees, and with it the whole walk, exactly on the
files that do not end in, or in the middle of, a frame. -/
theorem walk_same_iff {file : Bytes} {r : ContainerReader} (h : ContainerReader.new file = .ok r) :
    ∃ w, (openFile file >>= skipHeader) = .ok w ∧ w.walk.1 = r.readFrames.1 ∧
      walkerError w.walk = readerError r.readFrames ∧
      (SameWalk r.readFrames w.walk ↔ ¬ Interrupted (file.drop containerHeaderLen)) := by
  obtain ⟨w, hopen, htogether⟩ := open_together h
  refine ⟨w, hopen, ?_⟩
  obtain ⟨read, hstops⟩ := r.readFrames_stops
  have hread : r.readFrames = (r.readFrames.1, some read) := Prod.ext rfl hstops
  have hlen : containerHeaderLen ≤ file.length := by
    obtain ⟨-, -, -, hbytes, hpos⟩ := ContainerReader.new_eq_ok.1 h
    rw [← hpos, ← hbytes]
    exact r.inBounds
  have hagree : ∀ s t, Together file s t →
      Alike (Together file) (ContainerReader.next s) (next t) := by
    intro s t hst
    rcases call_cases hlen hst with ⟨record, s', t', hs, ht, hst'⟩ | ⟨read, walked, hs, ht, -⟩
    · rw [hs, ht]
      exact .item record hst'
    · rw [hs, ht]
      exact .stop read walked
  obtain ⟨walked, s, t, hwalk, hst, hs, ht⟩ := scan_sim hagree htogether hread
  -- In the states of the last calls the places and results are those of `EndsAt`.
  have hends : EndsAt file read walked := by
    rcases call_cases hlen hst with ⟨_, _, _, hs', -⟩ | ⟨_, _, hs', ht', hends⟩
    · rw [hs] at hs'
      cases hs'
    · rw [hs] at hs'
      rw [ht] at ht'
      cases hs'
      cases ht'
      exact hends
  have hwalk' : w.walk = (r.readFrames.1, some walked) := by
    rw [walk, htogether.unread]
    exact hwalk
  rw [hwalk', hread]
  dsimp only
  refine ⟨rfl, ?_⟩
  cases hends with
  | failed hr hw hint =>
    subst hr hw
    exact ⟨rfl, fun _ => hint, fun _ => ⟨⟨rfl, rfl⟩, rfl, rfl, rfl⟩⟩
  | @truncated e w' pos hr hw htail hfar' hint =>
    subst hr hw
    refine ⟨by simp [walkerError, readerError, htail], ?_, fun h => absurd hint h⟩
    rintro ⟨-, -, -, hfooter⟩
    simp [walkerFooter, readerFooter, footerStart, hfar'] at hfooter
  | @clean r' w' hr hw htail hfar' hnone hint =>
    subst hr hw
    refine ⟨by simp [walkerError, readerError, htail], ?_, fun h => absurd hint h⟩
    rintro ⟨-, -, -, hfooter⟩
    simp [walkerFooter, readerFooter, footerStart, hfar', hnone] at hfooter
  | @footer r' w' hr hw htail hpos' hfound hint =>
    subst hr hw
    refine ⟨by simp [walkerError, readerError, htail], fun _ => hint, fun _ => ⟨⟨rfl, rfl⟩, rfl, ?_, ?_⟩⟩
    · simp [walkerError, readerError, htail]
    · simp [walkerFooter, readerFooter, footerStart, hpos', hfound]

/-- The file of a header whose fields are all zero but the offer, with a body. -/
def plainFile (body : Bytes) : Bytes := AuditContainerHeader.codec.enc (plainContainerHeader 3) ++ body

theorem length_plainFile (body : Bytes) : (plainFile body).length = 713 + body.length := by
  rw [plainFile, List.length_append, AuditContainerHeader.codec.enc_length, headerCodec_width]

def plainReader (body : Bytes) : ContainerReader :=
  ⟨plainFile body, containerHeaderLen, plainContainerHeader 3,
    by rw [length_plainFile, containerHeaderLen]; omega⟩

theorem new_plainFile (body : Bytes) :
    ContainerReader.new (plainFile body) = .ok (plainReader body) :=
  ContainerReader.new_eq_ok.2 ⟨body, rfl, (headerCodec_ok (plainContainerHeader 3)).2 ⟨by decide, by decide⟩,
    rfl, rfl⟩

theorem drop_plainFile (body : Bytes) : (plainFile body).drop containerHeaderLen = body :=
  List.drop_left' (AuditContainerHeader.codec.enc_length _)

/-- A file that holds a header and the start of a footer is walked alike. -/
theorem walk_same_at_footer : ∃ w, (openFile (plainFile (footerMagic ++ [0])) >>= skipHeader) = .ok w ∧
    SameWalk (plainReader (footerMagic ++ [0])).readFrames w.walk := by
  obtain ⟨w, hopen, -, -, hsame⟩ := walk_same_iff (new_plainFile (footerMagic ++ [0]))
  refine ⟨w, hopen, hsame.2 ?_⟩
  rw [drop_plainFile]
  refine not_interrupted_of_footer (List.cons_ne_nil 0 []) ?_
  rw [frames_of_stop (Audit.nextFrame_footer (List.cons_ne_nil 0 []))]

/-- A file that holds only a header has no footer, but the walk reports one in the header. -/
theorem header_only_footerStart :
    ∃ w, (openFile (plainFile []) >>= skipHeader) = .ok w ∧
      readerFooter (plainReader []).readFrames = none ∧ walkerFooter w.walk = some 709 ∧
      ¬ SameWalk (plainReader []).readFrames w.walk := by
  obtain ⟨w, hopen, htogether⟩ := open_together (new_plainFile [])
  have hunread : (plainReader []).unread = [] := drop_plainFile []
  have hread : (plainReader []).readFrames = ([], some (.ok (plainReader []))) :=
    scan_stop (ContainerReader.next_of_none (ContainerReader.nextFrame_empty hunread))
  have hempty : w.unread = [] := htogether.unread.trans hunread
  have hwalk : ∃ w', w'.pos = 713 ∧ w.walk = ([], some (.ok (w', 713))) :=
    ⟨{ w with truncatedTail := decide (0 < w.unread.length) }, htogether.position,
      scan_stop (next_of_none (nextFrame_short (by rw [hempty]; decide)) htogether.position)⟩
  obtain ⟨w', hpos, hwalk⟩ := hwalk
  have hnone : readerFooter (plainReader []).readFrames = none := by
    rw [hread, readerFooter, ContainerReader.hasFooter, hunread]
    rfl
  have hsome : walkerFooter w.walk = some 709 := by
    rw [hwalk, walkerFooter, footerStart, hpos]
    rfl
  refine ⟨w, hopen, hnone, hsome, fun hsame => ?_⟩
  have hfooter := hsame.footer
  rw [hnone, hsome] at hfooter
  cases hfooter

end FrameWalker

end Yonder.Audit
