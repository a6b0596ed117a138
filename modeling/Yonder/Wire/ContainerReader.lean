import Yonder.Lib.Scan
import Yonder.Wire.Container
import Yonder.Wire.Terminal

/-!
# The container reader

`ContainerReader` parses a container that lies in memory: the header, the record frames one at a time
until a call returns `None`, and the footer. `Unread` lists what can stand at the reader's position,
one constructor for each way a call of `next_frame` can go, and there is one equation of `nextFrame`
for each of them. The whole read is a scan; `readContainer_eq_some` says which byte strings it accepts
and what it returns for them.
-/

namespace Yonder.Wire

open Lib Lib.Scan

/-! ## What stands at a position -/

/-- The bytes from a position on, by the way a frame is read off them. -/
inductive Unread : Bytes → Prop
  | short {rest : Bytes} (h : rest.length < 5) : Unread rest
  | footer {tail : Bytes} (h : tail ≠ []) : Unread (footerMagic ++ tail)
  | frame {record : Record} {tail : Bytes} (h : record.Valid) : Unread (record.encode ++ tail)
  | cut {t : RecordType} {n : Nat} {tail : Bytes} (h : validateFrameLen t (n + 1) = true)
      (hcut : tail.length < n) : Unread (beBytes 4 (n + 1) ++ t.code :: tail)
  | unknownType {l : Bytes} {b : UInt8} {tail : Bytes} (hl : l.length = 4) (hne : l ≠ footerMagic)
      (h : RecordType.fromByte b = none) : Unread (l ++ b :: tail)
  | invalidLength {l : Bytes} {t : RecordType} {tail : Bytes} (hl : l.length = 4)
      (hne : l ≠ footerMagic) (h : validateFrameLen t (beNat l) = false) :
      Unread (l ++ t.code :: tail)

variable {b : UInt8} {tail l front : Bytes} {n : Nat} {records : List Record}

theorem RecordType.code_of_fromByte {t : RecordType} (h : fromByte b = some t) : t.code = b := by
  simpa using List.find?_some h

variable {t : RecordType}

theorem length_take_of_le (h : n ≤ tail.length) : (tail.take n).length = n := by
  rw [List.length_take, Nat.min_eq_left h]

/-- A frame header followed by enough bytes is a written frame. -/
theorem encode_of_header (h : n ≤ tail.length) :
    beBytes 4 (n + 1) ++ t.code :: tail = Record.encode ⟨t, tail.take n⟩ ++ tail.drop n := by
  rw [Record.encode, length_take_of_le h, List.append_assoc, List.cons_append,
    List.take_append_drop]

/-- The list of cases is complete. -/
theorem unread_cases (rest : Bytes) : Unread rest := by
  by_cases hshort : rest.length < 5
  case pos => exact .short hshort
  case neg =>
    obtain ⟨l, tail, hl, rfl⟩ : ∃ l tail, l.length = 4 ∧ rest = l ++ tail :=
      ⟨rest.take 4, rest.drop 4, by rw [List.length_take]; omega, (List.take_append_drop 4 rest).symm⟩
    rw [List.length_append, hl] at hshort
    by_cases hmagic : l = footerMagic
    case pos =>
      subst hmagic
      exact .footer fun h => hshort (by rw [h]; decide)
    case neg =>
      cases tail with
      | nil => exact absurd (by decide) hshort
      | cons b tail =>
        cases htype : RecordType.fromByte b with
        | none => exact .unknownType hl hmagic htype
        | some t =>
          obtain rfl := RecordType.code_of_fromByte htype
          cases hvalid : validateFrameLen t (beNat l) with
          | false => exact .invalidLength hl hmagic hvalid
          | true =>
            -- A valid length is positive, so it counts the type byte and the payload.
            have hpos : 1 ≤ beNat l := by
              simp only [validateFrameLen, Bool.and_eq_true, decide_eq_true_eq] at hvalid
              exact hvalid.1.1
            obtain ⟨n, hn⟩ : ∃ n, beNat l = n + 1 := ⟨beNat l - 1, by omega⟩
            have hback : beBytes 4 (n + 1) = l := by
              rw [← hn, ← hl]
              exact beBytes_beNat l
            rw [← hback]
            by_cases hcut : tail.length < n
            case pos => exact .cut (hn ▸ hvalid) hcut
            case neg =>
              rw [encode_of_header (Nat.le_of_not_lt hcut)]
              refine .frame ?_
              rw [Record.Valid, length_take_of_le (Nat.le_of_not_lt hcut), ← hn]
              exact hvalid

theorem length_le_of_validateFrameLen (h : validateFrameLen t n = true) : n ≤ 1048576 := by
  simp only [validateFrameLen, Bool.and_eq_true, decide_eq_true_eq] at h
  exact h.1.2

theorem beNat_frameLength (h : validateFrameLen t n = true) : beNat (beBytes 4 n) = n := by
  have hle := length_le_of_validateFrameLen h
  rw [beNat_beBytes]
  exact Nat.mod_eq_of_lt (by omega)

/-! ## The reader -/

/-- The error of `validate_frame_len`. -/
def frameLenError (frameLen : Nat) : ProtocolError :=
  if frameLen < 1 ∨ maxRecordFrameLen < frameLen then .invalidLength 0 frameLen
  else .invalidLength maxRawOutputFrameLen frameLen

/-- A parser over one container buffer. -/
structure ContainerReader where
  bytes : Bytes
  pos : Nat
  header : AuditContainerHeader
  inBounds : pos ≤ bytes.length

namespace ContainerReader

/-- `new`. -/
def new (bytes : Bytes) : Except ProtocolError ContainerReader :=
  if h : bytes.length < containerHeaderLen then
    .error (.invalidLength containerHeaderLen bytes.length)
  else
    match AuditContainerHeader.codec.dec (bytes.take containerHeaderLen) with
    | none => .error .invalidReserved
    | some header => .ok ⟨bytes, containerHeaderLen, header, Nat.le_of_not_lt h⟩

def unread (r : ContainerReader) : Bytes := r.bytes.drop r.pos

theorem length_unread (r : ContainerReader) : r.unread.length = r.bytes.length - r.pos :=
  List.length_drop

/-- `has_footer`. -/
def hasFooter (r : ContainerReader) : Bool := footerMagic.isPrefixOf r.unread

variable {r r' : ContainerReader}

theorem pos_add_le (h : n ≤ r.unread.length) : r.pos + n ≤ r.bytes.length := by
  have hin := r.inBounds
  rw [length_unread] at h
  omega

/-- The reader `n` bytes further on. -/
def advance (r : ContainerReader) (n : Nat) (h : n ≤ r.unread.length) : ContainerReader :=
  { r with pos := r.pos + n, inBounds := pos_add_le h }

/-- `next_frame`: the frame with the reader after it, or nothing. -/
def nextFrame (r : ContainerReader) : Except ProtocolError (Option (Record × ContainerReader)) :=
  let remaining := r.unread
  if remaining.length < 5 then
    if remaining.isEmpty then .ok none else .error (.invalidLength 5 remaining.length)
  else if footerMagic.isPrefixOf remaining then .ok none
  else
    let frameLen := beNat (remaining.take 4)
    let typeByte := (remaining.drop 4).headD 0
    match RecordType.fromByte typeByte with
    | none => .error (.unknownTag typeByte)
    | some recordType =>
      if validateFrameLen recordType frameLen = false then .error (frameLenError frameLen)
      else if h : remaining.length < 4 + frameLen then
        .error (.invalidLength (4 + frameLen) remaining.length)
      else
        .ok (some (⟨recordType, (remaining.take (4 + frameLen)).drop 5⟩,
          r.advance (4 + frameLen) (Nat.le_of_not_lt h)))

/-- `footer`, with the digest boundaries as offsets in the container. -/
def footer (r : ContainerReader) : Option (DecodedFooter × ContainerReader) :=
  (decodeFooter r.unread).map fun decoded =>
    ({ decoded with
        sealedPrefixEnd := r.pos + decoded.sealedPrefixEnd
        sealEnd := r.pos + decoded.sealEnd
        ledgerEnd := r.pos + decoded.ledgerEnd },
      { r with pos := r.bytes.length, inBounds := le_rfl })

/-- How a loop of calls ended: with an error and the position of the failing call, or with the reader
of the call that returned nothing. -/
abbrev End := Except (ProtocolError × Nat) ContainerReader

/-- One call of `next_frame` in a loop that runs until it returns nothing or an error. -/
def next (r : ContainerReader) : Next ContainerReader Record End :=
  match r.nextFrame with
  | .error e => .stop (.error (e, r.pos))
  | .ok none => .stop (.ok r)
  | .ok (some (record, r')) => .item record r'

/-- The record frames from the position on, and how the loop ended. Every frame takes at least five
bytes, so the fuel does not run out (`readFrames_stops`). -/
def readFrames (r : ContainerReader) : List Record × Option End :=
  scan next (r.unread.length + 1) r

/-! ### One call, by what stands at the position -/

theorem isPrefixOf_footerMagic_append (hl : l.length = 4) (hne : l ≠ footerMagic) :
    footerMagic.isPrefixOf (l ++ tail) = false := by
  rw [Bool.eq_false_iff]
  intro h
  have hpre : footerMagic <+: l := List.prefix_of_prefix_length_le
    (List.isPrefixOf_iff_prefix.1 h) (List.prefix_append l tail) (by rw [hl]; decide)
  exact hne (hpre.eq_of_length (by rw [hl]; rfl)).symm

theorem nextFrame_empty (hu : r.unread = []) : r.nextFrame = .ok none := by
  unfold nextFrame
  simp [hu]

theorem nextFrame_short (hne : r.unread ≠ []) (h : r.unread.length < 5) :
    r.nextFrame = .error (.invalidLength 5 r.unread.length) := by
  unfold nextFrame
  dsimp only
  rw [if_pos h, if_neg (by simpa using hne)]

theorem nextFrame_footer (hne : tail ≠ []) (hu : r.unread = footerMagic ++ tail) :
    r.nextFrame = .ok none := by
  have hlen : ¬ r.unread.length < 5 := by
    have := List.length_pos_of_ne_nil hne
    rw [hu, List.length_append, show footerMagic.length = 4 from rfl]
    omega
  have hpre : footerMagic.isPrefixOf r.unread = true := by
    rw [hu]
    exact List.isPrefixOf_iff_prefix.2 (List.prefix_append _ _)
  unfold nextFrame
  dsimp only
  rw [if_neg hlen, if_pos hpre]

/-- The front part of a call that finds five bytes and no footer. -/
theorem nextFrame_split (hl : l.length = 4) (hne : l ≠ footerMagic) (hu : r.unread = l ++ b :: tail)
    :
    r.nextFrame = match RecordType.fromByte b with
      | none => .error (.unknownTag b)
      | some recordType =>
        if validateFrameLen recordType (beNat l) = false then .error (frameLenError (beNat l))
        else if h : r.unread.length < 4 + beNat l then
          .error (.invalidLength (4 + beNat l) r.unread.length)
        else
          .ok (some (⟨recordType, (r.unread.take (4 + beNat l)).drop 5⟩,
            r.advance (4 + beNat l) (Nat.le_of_not_lt h))) := by
  have hlen : ¬ r.unread.length < 5 := by
    rw [hu, List.length_append, hl, List.length_cons]
    omega
  have hpre : ¬ footerMagic.isPrefixOf r.unread = true := by
    rw [hu, isPrefixOf_footerMagic_append hl hne]
    exact Bool.false_ne_true
  have htake : r.unread.take 4 = l := by rw [hu, List.take_left' hl]
  have hhead : (r.unread.drop 4).headD 0 = b := by
    rw [hu, List.drop_left' hl]
    rfl
  unfold nextFrame
  dsimp only
  rw [if_neg hlen, if_neg hpre]
  simp only [htake, hhead]

theorem nextFrame_unknownType (hl : l.length = 4) (hne : l ≠ footerMagic)
    (h : RecordType.fromByte b = none) (hu : r.unread = l ++ b :: tail) :
    r.nextFrame = .error (.unknownTag b) := by
  rw [nextFrame_split hl hne hu, h]

theorem nextFrame_invalidLength (hl : l.length = 4) (hne : l ≠ footerMagic)
    (h : validateFrameLen t (beNat l) = false) (hu : r.unread = l ++ t.code :: tail) :
    r.nextFrame = .error (frameLenError (beNat l)) := by
  rw [nextFrame_split hl hne hu, RecordType.fromByte_code]
  exact if_pos h

theorem nextFrame_cut (hv : validateFrameLen t (n + 1) = true)
    (hu : r.unread = beBytes 4 (n + 1) ++ t.code :: tail) (hcut : tail.length < n) :
    r.nextFrame = .error (.invalidLength (4 + (n + 1)) r.unread.length) := by
  have hne := beBytes_ne_footerMagic (length_le_of_validateFrameLen hv)
  have hlen : r.unread.length < 4 + (n + 1) := by
    rw [hu, List.length_append, length_beBytes, List.length_cons]
    omega
  rw [nextFrame_split (length_beBytes 4 (n + 1)) hne hu, RecordType.fromByte_code,
    beNat_frameLength hv]
  dsimp only
  rw [if_neg (by simp [hv]), dif_pos hlen]

/-- A written frame is delivered, and the reader stands after it. -/
theorem nextFrame_encode {record : Record} (hv : record.Valid)
    (hu : r.unread = record.encode ++ tail) :
    ∃ r', r.nextFrame = .ok (some (record, r')) ∧ r'.bytes = r.bytes ∧ r'.header = r.header ∧
      r'.pos = r.pos + record.encode.length ∧ r'.unread = tail := by
  obtain ⟨t, payload⟩ := record
  have hform : r.unread = beBytes 4 (payload.length + 1) ++ t.code :: (payload ++ tail) := by
    rw [hu]
    simp only [Record.encode, List.append_assoc, List.cons_append]
  have hne := beBytes_ne_footerMagic (length_le_of_validateFrameLen hv)
  have hlen : ¬ r.unread.length < 4 + (payload.length + 1) := by
    rw [hform]
    simp only [List.length_append, length_beBytes, List.length_cons]
    omega
  have hsize : (Record.encode ⟨t, payload⟩).length = 4 + (payload.length + 1) := by
    rw [Record.length_encode]
    change payload.length + 5 = _
    omega
  have hpayload : (r.unread.take (4 + (payload.length + 1))).drop 5 = payload := by
    rw [hu, List.take_left' hsize, Record.encode, show (5 : Nat) = 4 + 1 from rfl, ← List.drop_drop,
      List.drop_left' (length_beBytes 4 _)]
    rfl
  refine ⟨r.advance (4 + (payload.length + 1)) (Nat.le_of_not_lt hlen), ?_, rfl, rfl, ?_, ?_⟩
  · rw [nextFrame_split (length_beBytes 4 _) hne hform, RecordType.fromByte_code,
      beNat_frameLength hv]
    dsimp only
    rw [if_neg (by rw [Record.Valid] at hv; simp [hv]), dif_neg hlen, hpayload]
  · rw [hsize]
    rfl
  · change r.bytes.drop (r.pos + (4 + (payload.length + 1))) = tail
    rw [← List.drop_drop]
    change r.unread.drop _ = tail
    rw [hu, List.drop_left' hsize]

/-- A delivered frame stood at the position as it is written. -/
theorem nextFrame_eq_some {record : Record} (h : r.nextFrame = .ok (some (record, r'))) :
    record.Valid ∧ r.unread = record.encode ++ r'.unread ∧ r'.bytes = r.bytes ∧
      r'.header = r.header ∧ r'.pos = r.pos + record.encode.length := by
  generalize hu : r.unread = rest
  cases unread_cases rest with
  | short hshort =>
    by_cases hne : r.unread = []
    · rw [nextFrame_empty hne] at h
      cases h
    · rw [nextFrame_short hne (hu ▸ hshort)] at h
      cases h
  | footer hne => rw [nextFrame_footer hne hu] at h; cases h
  | cut hv hcut => rw [nextFrame_cut hv hu hcut] at h; cases h
  | unknownType hl hne htype => rw [nextFrame_unknownType hl hne htype hu] at h; cases h
  | invalidLength hl hne hv => rw [nextFrame_invalidLength hl hne hv hu] at h; cases h
  | frame hvalid =>
    obtain ⟨r'', hframe, hbytes, hheader, hpos, hrest⟩ := nextFrame_encode hvalid hu
    rw [hframe] at h
    cases h
    exact ⟨hvalid, by rw [hrest], hbytes, hheader, hpos⟩

/-! ### The loop -/

theorem next_of_frame {record : Record} (h : r.nextFrame = .ok (some (record, r'))) :
    r.next = .item record r' := by
  rw [next, h]

theorem next_of_none (h : r.nextFrame = .ok none) : r.next = .stop (.ok r) := by
  rw [next, h]

theorem next_of_error {e : ProtocolError} (h : r.nextFrame = .error e) :
    r.next = .stop (.error (e, r.pos)) := by
  rw [next, h]

theorem nextFrame_of_item {record : Record} (h : r.next = .item record r') :
    r.nextFrame = .ok (some (record, r')) := by
  unfold next at h
  split at h
  · cases h
  · cases h
  · rename_i hframe
    cases h
    exact hframe

theorem nextFrame_of_stop (h : r.next = .stop (.ok r')) : r.nextFrame = .ok none ∧ r' = r := by
  unfold next at h
  split at h
  · cases h
  · rename_i hframe
    cases h
    exact ⟨hframe, rfl⟩
  · cases h

/-- The loop ends: each frame shortens what is unread. -/
theorem readFrames_stops (r : ContainerReader) : ∃ end', (readFrames r).2 = some end' := by
  refine scan_of_decreasing (fun r => r.unread.length) ?_ _ r (Nat.lt_succ_self _)
  intro s record s' h
  obtain ⟨-, hunread, -⟩ := nextFrame_eq_some (nextFrame_of_item h)
  rw [hunread, List.length_append, Record.length_encode]
  omega

/-- Written frames are delivered in order up to a place where a call returns nothing. -/
theorem scan_encodeRecords (hv : ∀ record ∈ records, record.Valid)
    (hend : ∀ r : ContainerReader, r.unread = tail → r.nextFrame = .ok none) :
    ∀ {r : ContainerReader}, r.unread = encodeRecords records ++ tail → ∃ r',
      scan next (records.length + 1) r = (records, some (.ok r')) ∧ r'.bytes = r.bytes ∧
        r'.pos = r.pos + (encodeRecords records).length ∧ r'.unread = tail := by
  induction records with
  | nil =>
    intro r hu
    exact ⟨r, scan_stop (next_of_none (hend r hu)), rfl, rfl, hu⟩
  | cons record records ih =>
    intro r hu
    rw [encodeRecords_cons, List.append_assoc] at hu
    obtain ⟨r₁, hframe, hbytes₁, -, hpos₁, hu₁⟩ :=
      nextFrame_encode (hv record List.mem_cons_self) hu
    obtain ⟨r', hscan, hbytes, hpos, hrest⟩ :=
      ih (fun x hx => hv x (List.mem_cons_of_mem _ hx)) hu₁
    refine ⟨r', ?_, hbytes.trans hbytes₁, ?_, hrest⟩
    · rw [List.length_cons, scan_item (next_of_frame hframe), hscan]
    · rw [hpos, hpos₁, encodeRecords_cons, List.length_append, Nat.add_assoc]

theorem length_le_encodeRecords (records : List Record) :
    records.length ≤ (encodeRecords records).length := by
  induction records with
  | nil => exact le_rfl
  | cons record records ih =>
    rw [encodeRecords_cons, List.length_append, Record.length_encode, List.length_cons]
    omega

/-- The frames of a finished loop are the written frames in front of where it stopped. -/
theorem readFrames_eq_ok (h : readFrames r = (records, some (.ok r'))) :
    (∀ record ∈ records, record.Valid) ∧ r.unread = encodeRecords records ++ r'.unread ∧
      r'.bytes = r.bytes ∧ r'.pos = r.pos + (encodeRecords records).length ∧
      r'.nextFrame = .ok none := by
  have hgen := scan_induction (P := fun r records result => ∀ r', result = .ok r' →
    (∀ record ∈ records, record.Valid) ∧ r.unread = encodeRecords records ++ r'.unread ∧
      r'.bytes = r.bytes ∧ r'.pos = r.pos + (encodeRecords records).length ∧
      r'.nextFrame = .ok none) ?_ ?_ h
  · exact hgen r' rfl
  · rintro s result hstop r' rfl
    obtain ⟨hnone, rfl⟩ := nextFrame_of_stop hstop
    exact ⟨by simp, rfl, rfl, rfl, hnone⟩
  · rintro s record s' items result hitem ih r' rfl
    obtain ⟨hvalid, hunread, hbytes, -, hpos⟩ := nextFrame_eq_some (nextFrame_of_item hitem)
    obtain ⟨hvalids, hrest, hbytes', hpos', hnone⟩ := ih r' rfl
    refine ⟨?_, ?_, hbytes'.trans hbytes, ?_, hnone⟩
    · intro x hx
      rcases List.mem_cons.1 hx with rfl | hx
      · exact hvalid
      · exact hvalids x hx
    · rw [hunread, hrest, encodeRecords_cons, List.append_assoc]
    · rw [hpos', hpos, encodeRecords_cons, List.length_append, Nat.add_assoc]

end ContainerReader

/-! ## The whole container -/

/-- The five components of a footer. -/
structure AuditContainerFooter where
  manifest : JointManifest
  controllerSessionSignature : Ed25519Signature
  hostSessionSignature : Ed25519Signature
  recordSeal : LocalRecordSeal
  ledgerCommit : LedgerCommit
deriving DecidableEq

variable {f : AuditContainerFooter}

/-- `encode_footer_prefix`: refused if the manifest does not encode. -/
def encodeFooterPrefix (f : AuditContainerFooter) : Option Bytes :=
  f.manifest.encodePayload.map fun manifest =>
    footerMagic ++ writePrefixed manifest ++ writePrefixed f.controllerSessionSignature.1 ++
      writePrefixed f.hostSessionSignature.1 ++
      writePrefixed (LocalRecordSeal.codec.enc f.recordSeal) ++
      writePrefixed (LedgerCommit.codec.enc f.ledgerCommit)

/-- A decoded footer at an offset in the container. -/
def AuditContainerFooter.decodedAt (f : AuditContainerFooter) (digest : Digest32) (start : Nat) :
    DecodedFooter :=
  ⟨f.manifest, f.controllerSessionSignature, f.hostSessionSignature, f.recordSeal, f.ledgerCommit,
    digest, start + 538, start + 869, start + 1104⟩

/-- The components of a decoded footer. -/
def DecodedFooter.footer (d : DecodedFooter) : AuditContainerFooter :=
  ⟨d.manifest, d.controllerSessionSignature, d.hostSessionSignature, d.recordSeal, d.ledgerCommit⟩

/-- The header, the frames until a call returns nothing, and the footer, with the reader after it. -/
def readContainer (bytes : Bytes) :
    Option (AuditContainerHeader × List Record × DecodedFooter × ContainerReader) :=
  match ContainerReader.new bytes with
  | .error _ => none
  | .ok r =>
    match r.readFrames with
    | (records, some (.ok r')) => r'.footer.map fun (d, r'') => (r.header, records, d, r'')
    | _ => none

theorem encodeFooterPrefix_eq_some :
    encodeFooterPrefix f = some front ↔ f.manifest.formatVersion = auditFormatVersion ∧
      ∀ digest : Digest32, front ++ digest.1 = encodeFooter f.manifest f.controllerSessionSignature
        f.hostSessionSignature f.recordSeal f.ledgerCommit digest := by
  unfold encodeFooterPrefix
  rw [Option.map_eq_some_iff]
  constructor
  · rintro ⟨manifest, hmanifest, rfl⟩
    obtain ⟨hversion, rfl⟩ := encodePayload_eq_some.1 hmanifest
    exact ⟨hversion, fun digest => rfl⟩
  · rintro ⟨hversion, hfront⟩
    refine ⟨_, encodePayload_eq_some.2 ⟨hversion, rfl⟩, ?_⟩
    have hzero := hfront (FixedBytes.replicate 32 0)
    exact (List.append_cancel_right hzero).symm

theorem decodeFooter_prefix (h : encodeFooterPrefix f = some front) (digest : Digest32) :
    decodeFooter (front ++ digest.1) = some (f.decodedAt digest 0) := by
  obtain ⟨hversion, hfront⟩ := encodeFooterPrefix_eq_some.1 h
  rw [hfront]
  exact decodeFooter_encodeFooter _ _ _ _ _ digest hversion

/-- A footer starts with the magic and does not end there. -/
theorem footerPrefix_magic (h : encodeFooterPrefix f = some front) (rest : Bytes) :
    ∃ tail, tail ≠ [] ∧ front ++ rest = footerMagic ++ tail := by
  obtain ⟨manifest, -, rfl⟩ := Option.map_eq_some_iff.1 h
  refine ⟨writePrefixed manifest ++ (writePrefixed f.controllerSessionSignature.1 ++
    (writePrefixed f.hostSessionSignature.1 ++
      (writePrefixed (LocalRecordSeal.codec.enc f.recordSeal) ++
        (writePrefixed (LedgerCommit.codec.enc f.ledgerCommit) ++ rest)))), ?_, ?_⟩
  · intro hnil
    have hlen := congrArg List.length hnil
    rw [List.length_append, length_writePrefixed, List.length_nil] at hlen
    omega
  · simp only [List.append_assoc]

namespace ContainerReader

theorem new_eq_ok {bytes : Bytes} {r : ContainerReader} :
    new bytes = .ok r ↔ ∃ body, bytes = AuditContainerHeader.codec.enc r.header ++ body ∧
      AuditContainerHeader.codec.ok r.header ∧ r.bytes = bytes ∧ r.pos = containerHeaderLen := by
  unfold new
  constructor
  · intro h
    split at h
    · cases h
    · split at h
      · cases h
      · rename_i header hdec
        cases h
        refine ⟨bytes.drop containerHeaderLen, ?_, AuditContainerHeader.codec.ok_of_dec hdec, rfl, rfl⟩
        change bytes = AuditContainerHeader.codec.enc header ++ _
        rw [AuditContainerHeader.codec.enc_of_dec hdec, List.take_append_drop]
  · rintro ⟨body, hbytes, hok, hr, hpos⟩
    have hwidth : (AuditContainerHeader.codec.enc r.header).length = containerHeaderLen :=
      AuditContainerHeader.codec.enc_length r.header
    have htake : bytes.take containerHeaderLen = AuditContainerHeader.codec.enc r.header := by
      rw [hbytes, List.take_left' hwidth]
    have hlen : ¬ bytes.length < containerHeaderLen := by
      rw [hbytes, List.length_append, hwidth]
      omega
    rw [dif_neg hlen, htake, AuditContainerHeader.codec.dec_enc hok]
    obtain ⟨rbytes, rpos, rheader, hin⟩ := r
    cases hr
    cases hpos
    rfl

theorem unread_of_new {bytes : Bytes} {r : ContainerReader} (h : new bytes = .ok r) :
    r.unread = bytes.drop containerHeaderLen := by
  obtain ⟨body, -, -, hbytes, hpos⟩ := new_eq_ok.1 h
  rw [unread, hbytes, hpos]

end ContainerReader

/-- The container that is read is the container that was written: header, frames and footer come back,
and the reader stands at the end. -/
theorem readContainer_encode {header : AuditContainerHeader}
    (hok : AuditContainerHeader.codec.ok header) (hv : ∀ record ∈ records, record.Valid)
    (hf : encodeFooterPrefix f = some front) (digest : Digest32) :
    ∃ r : ContainerReader,
      readContainer (AuditContainerHeader.codec.enc header ++ encodeRecords records ++
        (front ++ digest.1)) =
        some (header, records, f.decodedAt digest (713 + (encodeRecords records).length), r) ∧
      r.unread = [] ∧ r.nextFrame = .ok none := by
  set bytes := AuditContainerHeader.codec.enc header ++ encodeRecords records ++
    (front ++ digest.1) with hbytes
  have hsplit : bytes = AuditContainerHeader.codec.enc header ++
      (encodeRecords records ++ (front ++ digest.1)) := List.append_assoc _ _ _
  have hwidth : (AuditContainerHeader.codec.enc header).length = containerHeaderLen :=
    AuditContainerHeader.codec.enc_length header
  have hlen : containerHeaderLen ≤ bytes.length := by
    rw [hsplit, List.length_append, hwidth]
    omega
  have hnew : ContainerReader.new bytes = .ok ⟨bytes, containerHeaderLen, header, hlen⟩ :=
    ContainerReader.new_eq_ok.2 ⟨encodeRecords records ++ (front ++ digest.1), hsplit, hok, rfl, rfl⟩
  have hunread : (⟨bytes, containerHeaderLen, header, hlen⟩ : ContainerReader).unread =
      encodeRecords records ++ (front ++ digest.1) := by
    change bytes.drop containerHeaderLen = _
    rw [hsplit, List.drop_left' hwidth]
  obtain ⟨tail, hne, htail⟩ := footerPrefix_magic hf digest.1
  obtain ⟨r', hscan, hrbytes, hrpos, hrest⟩ := ContainerReader.scan_encodeRecords hv
    (fun r hu => ContainerReader.nextFrame_footer hne (hu.trans htail)) hunread
  have hframes : ContainerReader.readFrames ⟨bytes, containerHeaderLen, header, hlen⟩ =
      (records, some (.ok r')) := by
    refine Scan.scan_fuel hscan ?_
    have := ContainerReader.length_le_encodeRecords records
    rw [hunread, List.length_append]
    omega
  have hend : (⟨r'.bytes, r'.bytes.length, r'.header, le_rfl⟩ : ContainerReader).unread = [] :=
    List.drop_length
  refine ⟨⟨r'.bytes, r'.bytes.length, r'.header, le_rfl⟩, ?_, hend,
    ContainerReader.nextFrame_empty hend⟩
  rw [readContainer, hnew]
  dsimp only
  rw [hframes]
  dsimp only
  rw [ContainerReader.footer, hrest, decodeFooter_prefix hf, hrpos]
  simp only [Option.map_some, AuditContainerFooter.decodedAt, Nat.zero_add]
  rfl

/-- Only written containers are read, and every digest boundary is where the footer puts it. -/
theorem readContainer_eq_some {bytes : Bytes} {header : AuditContainerHeader} {d : DecodedFooter}
    {r : ContainerReader} (h : readContainer bytes = some (header, records, d, r)) :
    AuditContainerHeader.codec.ok header ∧ (∀ record ∈ records, record.Valid) ∧
      d = d.footer.decodedAt d.finalContainerDigest (713 + (encodeRecords records).length) ∧
      ∃ front, encodeFooterPrefix d.footer = some front ∧
        bytes = AuditContainerHeader.codec.enc header ++ encodeRecords records ++
          (front ++ d.finalContainerDigest.1) := by
  unfold readContainer at h
  split at h
  · cases h
  · rename_i r₀ hnew
    split at h
    · rename_i records' r' hframes
      obtain ⟨⟨d', r''⟩, hfooter, heq⟩ := Option.map_eq_some_iff.1 h
      cases heq
      obtain ⟨decoded, hdecoded, hd⟩ := Option.map_eq_some_iff.1 hfooter
      obtain ⟨body, hbytes, hok, hbytes₀, hpos₀⟩ := ContainerReader.new_eq_ok.1 hnew
      obtain ⟨hvalid, hunread, -, hpos, -⟩ := ContainerReader.readFrames_eq_ok hframes
      obtain ⟨hversion, hrest, hsealed, hseal, hledger⟩ := decodeFooter_eq_some hdecoded
      have hprefix : ∃ front, encodeFooterPrefix decoded.footer = some front :=
        ⟨_, Option.map_eq_some_iff.2 ⟨_, encodePayload_eq_some.2 ⟨hversion, rfl⟩, rfl⟩⟩
      obtain ⟨front, hfront⟩ := hprefix
      have hbody : body = encodeRecords records ++ r'.unread := by
        rw [← hunread, ContainerReader.unread_of_new hnew, hbytes]
        exact (List.drop_left' (AuditContainerHeader.codec.enc_length _)).symm
      cases hd
      refine ⟨hok, hvalid, ?_, front, hfront, ?_⟩
      · rw [hpos, hpos₀, hsealed, hseal, hledger]
        rfl
      · have hfooterBytes := (encodeFooterPrefix_eq_some.1 hfront).2 decoded.finalContainerDigest
        rw [List.append_assoc, hbytes, hbody, hrest]
        exact congrArg (fun tail => _ ++ (_ ++ tail)) hfooterBytes.symm
    · cases h

/-- No footer is read as a frame, and no frame as a footer. -/
theorem frame_not_footer {r : ContainerReader} {record : Record} (hv : record.Valid)
    (hu : r.unread = record.encode ++ tail) : r.hasFooter = false ∧ r.footer = none := by
  have hne := beBytes_ne_footerMagic (length_le_of_validateFrameLen hv)
  have hnot : footerMagic.isPrefixOf r.unread = false := by
    rw [hu, Record.encode, List.append_assoc]
    exact ContainerReader.isPrefixOf_footerMagic_append (length_beBytes 4 _) hne
  refine ⟨hnot, ?_⟩
  rw [ContainerReader.footer, decodeFooter, if_neg, Option.map_none]
  intro hpre
  rw [List.isPrefixOf_iff_prefix.2 hpre] at hnot
  cases hnot

/-- The container codec, for headers whose embedded handshake messages do not offer version zero: what
is written is read back to its end, what is read was written so, two byte strings with one reading are
equal, and footers and frames are never taken for each other. -/
theorem container_codec :
    (∀ (header : AuditContainerHeader) (records : List Record) (f : AuditContainerFooter)
      (front : Bytes) (digest : Digest32), header.auditHello.formatVersion ≠ 0 →
      header.auditReady.formatVersion ≠ 0 → (∀ record ∈ records, record.Valid) →
      encodeFooterPrefix f = some front →
      ∃ r : ContainerReader, readContainer (AuditContainerHeader.codec.enc header ++
          encodeRecords records ++ (front ++ digest.1)) =
          some (header, records, f.decodedAt digest (713 + (encodeRecords records).length), r) ∧
        r.unread = [] ∧ r.nextFrame = .ok none) ∧
    (∀ (bytes : Bytes) (header : AuditContainerHeader) (records : List Record) (d : DecodedFooter)
      (r : ContainerReader), readContainer bytes = some (header, records, d, r) →
      ∃ front, encodeFooterPrefix d.footer = some front ∧
        bytes = AuditContainerHeader.codec.enc header ++ encodeRecords records ++
          (front ++ d.finalContainerDigest.1)) ∧
    (∀ (bytes bytes' : Bytes) (header : AuditContainerHeader) (records : List Record)
      (d : DecodedFooter) (r r' : ContainerReader),
      readContainer bytes = some (header, records, d, r) →
      readContainer bytes' = some (header, records, d, r') → bytes = bytes') ∧
    (∀ (r : ContainerReader) (f : AuditContainerFooter) (front tail : Bytes),
      encodeFooterPrefix f = some front → r.unread = front ++ tail → r.nextFrame = .ok none) ∧
    ∀ (r : ContainerReader) (record : Record) (tail : Bytes), record.Valid →
      r.unread = record.encode ++ tail → r.hasFooter = false ∧ r.footer = none := by
  refine ⟨?_, ?_, ?_, ?_, fun r record tail => frame_not_footer⟩
  · intro header records f front digest hhello hready hv hf
    exact readContainer_encode ((headerCodec_ok header).2 ⟨hhello, hready⟩) hv hf digest
  · intro bytes header records d r h
    exact (readContainer_eq_some h).2.2.2
  · intro bytes bytes' header records d r r' h h'
    obtain ⟨-, -, -, front, hfront, hbytes⟩ := readContainer_eq_some h
    obtain ⟨-, -, -, front', hfront', hbytes'⟩ := readContainer_eq_some h'
    rw [hfront] at hfront'
    cases hfront'
    rw [hbytes, hbytes']
  · intro r f front tail hf hu
    obtain ⟨rest, hne, hrest⟩ := footerPrefix_magic hf tail
    exact ContainerReader.nextFrame_footer hne (hu.trans hrest)

/-- A header whose fields are all zero but the offer of its two handshake messages. -/
def plainContainerHeader (offer : UInt16) : AuditContainerHeader :=
  let zero : Digest32 := FixedBytes.replicate 32 0
  let signature : Ed25519Signature := FixedBytes.replicate 64 0
  ⟨.controller, zero, zero, zero, zero, zero, 0, zero, 0, .enterprise, zero,
    ⟨.controller, zero, zero, zero, 0, zero, zero, offer, zero, signature⟩,
    ⟨zero, zero, offer, signature⟩, signature⟩

/-- A header that offers version zero is written but not read. -/
theorem container_header_offer_zero :
    ContainerReader.new (AuditContainerHeader.codec.enc (plainContainerHeader 0)) =
      .error .invalidReserved := by
  have hlen : ¬ (AuditContainerHeader.codec.enc (plainContainerHeader 0)).length <
      containerHeaderLen := by
    rw [AuditContainerHeader.codec.enc_length]
    exact lt_irrefl _
  have hdec : AuditContainerHeader.codec.dec ((AuditContainerHeader.codec.enc
      (plainContainerHeader 0)).take containerHeaderLen) = none := by
    decide +kernel
  rw [ContainerReader.new, dif_neg hlen, hdec]

end Yonder.Wire
