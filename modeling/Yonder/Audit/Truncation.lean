import Yonder.Audit.File
import Yonder.Wire.ContainerReader

/-!
# A cut file

A process that stops while it writes leaves the file cut at any byte. `Contents` is what a whole file
holds behind its header: complete record frames, and a footer or nothing behind them. The walk over a cut
file delivers the frames before the cut, whatever the cut leaves of the next frame or of the footer. What
it says about the tail is another matter. `next_frame` stops at the footer magic without a look at what
follows, and `walk_file` reads whatever the walk left unread as a footer, also where the walk stopped at
the end of the file or in a frame. `Classified` is what a reader expects of the two; the lemmas
`classified_of_frame` and `classified_of_footer` say for each place of the cut when it holds.
-/

namespace Yonder.Audit

open Lib Wire

/-- The bytes of a whole file behind its header. -/
structure Contents where
  records : List Record
  footer : Bytes
  valid : ∀ r ∈ records, r.Valid
  complete : footer = [] ∨ (decodeFooter footer).isSome

namespace Contents

variable (b : Contents) (cut : Nat)

def bytes : Bytes := encodeRecords b.records ++ b.footer

/-- Where the frame with index `i` starts, and where the frame before it ends. -/
def offset (i : Nat) : Nat := (encodeRecords (b.records.take i)).length

def InsideFrame : Prop := ∃ i < b.records.length, b.offset i < cut ∧ cut < b.offset (i + 1)

def InsideFooter : Prop := b.offset b.records.length < cut ∧ cut < b.bytes.length

def Inside : Prop := b.InsideFrame cut ∨ b.InsideFooter cut

/-! ## Offsets -/

section

variable {b cut}

theorem offset_mono {i j : Nat} (h : i ≤ j) : b.offset i ≤ b.offset j := by
  obtain ⟨rest, hrest⟩ := List.take_prefix_take_left h (l := b.records)
  rw [offset, offset, ← hrest, encodeRecords_append, List.length_append]
  omega

theorem offset_succ {i : Nat} (hi : i < b.records.length) :
    b.offset (i + 1) = b.offset i + (b.records[i].payload.length + 5) := by
  rw [offset, offset, List.take_succ_eq_append_getElem hi, encodeRecords_append, List.length_append,
    encodeRecords_cons, encodeRecords_nil, List.append_nil, Record.length_encode]

theorem length_bytes : b.bytes.length = b.offset b.records.length + b.footer.length := by
  rw [bytes, List.length_append, offset, List.take_length]

theorem offset_le_length (i : Nat) : b.offset i ≤ b.bytes.length := by
  rcases Nat.le_total i b.records.length with h | h
  · have hmono := b.offset_mono h
    rw [length_bytes]
    omega
  · rw [length_bytes, offset, offset, List.take_of_length_le h, List.take_length]
    omega

/-- A cut lies in a frame, at its first byte at the earliest, or behind all frames. -/
theorem exists_frame_or (b : Contents) (cut : Nat) :
    (∃ i < b.records.length, b.offset i ≤ cut ∧ cut < b.offset (i + 1)) ∨
      b.offset b.records.length ≤ cut := by
  by_cases hend : b.offset b.records.length ≤ cut
  · exact .inr hend
  · have hstart : b.offset 0 ≤ cut := Nat.zero_le cut
    have hle := Nat.findGreatest_spec (P := fun i => b.offset i ≤ cut)
      (Nat.zero_le b.records.length) hstart
    have hbound := Nat.findGreatest_le (P := fun i => b.offset i ≤ cut) b.records.length
    have hlt : Nat.findGreatest (fun i => b.offset i ≤ cut) b.records.length < b.records.length := by
      refine lt_of_le_of_ne hbound ?_
      intro heq
      rw [heq] at hle
      exact hend hle
    refine .inl ⟨_, hlt, hle, Nat.lt_of_not_le ?_⟩
    exact Nat.findGreatest_is_greatest (P := fun i => b.offset i ≤ cut) (Nat.lt_succ_self _) hlt

/-- The frame of a cut is unique. -/
theorem frame_unique {i j : Nat} (hi : b.offset i ≤ cut) (hi' : cut < b.offset (i + 1))
    (hj : b.offset j ≤ cut) (hj' : cut < b.offset (j + 1)) : i = j := by
  rcases Nat.lt_trichotomy i j with h | h | h
  · have hmono := b.offset_mono (show i + 1 ≤ j from h)
    omega
  · exact h
  · have hmono := b.offset_mono (show j + 1 ≤ i from h)
    omega

theorem inside_iff_of_frame {i : Nat} (hi : i < b.records.length) (hle : b.offset i ≤ cut)
    (hlt : cut < b.offset (i + 1)) : b.Inside cut ↔ b.offset i < cut := by
  constructor
  · rintro (⟨j, -, hj, hj'⟩ | ⟨hend, -⟩)
    · rw [frame_unique hle hlt hj.le hj']
      exact hj
    · have hmono := b.offset_mono (show i + 1 ≤ b.records.length from hi)
      omega
  · intro h
    exact .inl ⟨i, hi, h, hlt⟩

theorem inside_iff_of_footer (hle : b.offset b.records.length ≤ cut) :
    b.Inside cut ↔ b.InsideFooter cut := by
  constructor
  · rintro (⟨j, hj, -, hj'⟩ | h)
    · have hmono := b.offset_mono (show j + 1 ≤ b.records.length from hj)
      omega
    · exact h
  · exact .inr

theorem length_footer (hne : b.footer ≠ []) : b.footer.length = 1136 := by
  obtain ⟨d, hd⟩ := Option.isSome_iff_exists.1 (b.complete.resolve_left hne)
  rw [(decodeFooter_eq_some hd).2.1, length_encodeFooter]

theorem footer_eq_magic (hne : b.footer ≠ []) : b.footer = footerMagic ++ b.footer.drop 4 := by
  obtain ⟨d, hd⟩ := Option.isSome_iff_exists.1 (b.complete.resolve_left hne)
  have hmagic : footerMagic <+: b.footer := by
    rw [(decodeFooter_eq_some hd).2.1, encodeFooter, encodeManifestPart]
    simp only [List.append_assoc]
    exact List.prefix_append _ _
  obtain ⟨rest, hrest⟩ := hmagic
  rw [← hrest]
  rfl

/-! ## The frames before a cut -/

/-- The walk over the cut bytes delivers the frames before an offset and goes on behind it. -/
theorem frames_take {i : Nat} (h : b.offset i ≤ cut) :
    frames (b.bytes.take cut) =
      (b.records.take i ++
          (frames ((encodeRecords (b.records.drop i) ++ b.footer).take (cut - b.offset i))).1,
        (frames ((encodeRecords (b.records.drop i) ++ b.footer).take (cut - b.offset i))).2) := by
  have hsplit : b.bytes = encodeRecords (b.records.take i) ++
      (encodeRecords (b.records.drop i) ++ b.footer) := by
    rw [← List.append_assoc, ← encodeRecords_append, List.take_append_drop, bytes]
  have hvalid : ∀ r ∈ b.records.take i, r.Valid := fun r hr => b.valid r (List.mem_of_mem_take hr)
  rw [hsplit, List.take_append, List.take_of_length_le h, frames_encodeRecords _ hvalid]
  rfl

theorem frames_short {u : Bytes} (h : u.length < 5) : frames u = ([], .ok (!u.isEmpty, u)) :=
  frames_of_stop (nextFrame_short h)

theorem frames_cut_frame {r : Record} (hr : r.Valid) (tail : Bytes) {n : Nat} (hfive : 5 ≤ n)
    (hcut : n < r.payload.length + 5) :
    frames ((r.encode ++ tail).take n) = ([], .ok (true, r.payload.take (n - 5))) := by
  obtain ⟨m, rfl⟩ : ∃ m, n = 4 + (m + 1) := ⟨n - 5, by omega⟩
  rw [show 4 + (m + 1) - 5 = m by omega]
  have htake : (r.encode ++ tail).take (4 + (m + 1)) =
      beBytes 4 (r.payload.length + 1) ++ r.type.code :: r.payload.take m := by
    rw [Record.encode, List.append_assoc, List.take_append, length_beBytes, Nat.add_sub_cancel_left,
      List.take_of_length_le (by rw [length_beBytes]; omega), List.cons_append, List.take_succ_cons,
      List.take_append_of_le_length (by omega)]
  have hstop := nextFrame_header r.type r.payload.length (r.payload.take m) hr
  rw [if_pos (by rw [List.length_take]; omega)] at hstop
  rw [htake, frames_of_stop hstop]

theorem frames_cut_footer (hne : b.footer ≠ []) {n : Nat} (hfive : 5 ≤ n) :
    frames (b.footer.take n) = ([], .ok (false, (b.footer.drop 4).take (n - 4))) := by
  obtain ⟨m, rfl⟩ : ∃ m, n = 4 + (m + 1) := ⟨n - 5, by omega⟩
  have hlen := length_footer hne
  have hrest : (b.footer.drop 4).take (m + 1) ≠ [] := by
    intro h
    have := congrArg List.length h
    rw [List.length_take, List.length_drop, hlen] at this
    simp at this
  have htake : b.footer.take (4 + (m + 1)) = footerMagic ++ (b.footer.drop 4).take (m + 1) := by
    conv_lhs => rw [footer_eq_magic hne]
    rw [List.take_append, show footerMagic.length = 4 from rfl, Nat.add_sub_cancel_left,
      List.take_of_length_le (show footerMagic.length ≤ 4 + (m + 1) by rw [footerMagic]; simp)]
  rw [htake, frames_of_stop (nextFrame_footer hrest), Nat.add_sub_cancel_left]

end

end Contents

/-! ## What the footer part of `walk_file` makes of a tail -/

section

variable (c : Crypto) (file : Bytes) (v : ChainVerifier)

/-- The unread bytes decode as a footer behind the magic, and `verify_footer` accepts it. -/
def PassesAsFooter (rest : Bytes) : Prop :=
  ∃ d, decodeFooter (footerMagic ++ rest) = some d ∧
    verifyFooter c file v
      { manifestBytes := JointManifest.codec.enc d.manifest
        controllerSignature := d.controllerSessionSignature
        hostSignature := d.hostSessionSignature
        recordSeal := d.recordSeal
        commit := d.ledgerCommit
        sealedPrefixEnd := file.length - rest.length - 4 + d.sealedPrefixEnd
        sealEnd := file.length - rest.length - 4 + d.sealEnd
        ledgerEnd := file.length - rest.length - 4 + d.ledgerEnd
        finalDigest := d.finalContainerDigest } = .ok ()

variable {c file v}

theorem length_of_decodeFooter {rest : Bytes} {d : DecodedFooter}
    (h : decodeFooter (footerMagic ++ rest) = some d) : rest.length = 1132 := by
  have hlength := congrArg List.length (decodeFooter_eq_some h).2.1
  rw [length_encodeFooter, List.length_append, show footerMagic.length = 4 from rfl] at hlength
  omega

/-- A tail of the length of a footer or more is accepted only as a footer. -/
theorem walkFooter_long {rest : Bytes} (h : 1132 ≤ rest.length) :
    (∃ w, walkFooter c file v true rest = .ok w ∧ w.truncatedTail = true) ↔
      PassesAsFooter c file v rest := by
  have hlegal : minLegalFooterLen ≤ rest.length + footerMagic.length := by
    change 1136 ≤ rest.length + 4
    omega
  cases hdec : decodeFooter (footerMagic ++ rest) with
  | none =>
    have herror : ∀ w, walkFooter c file v true rest ≠ .ok w := by
      intro w
      simp only [walkFooter, hdec, if_pos hlegal]
      split_ifs <;> rintro ⟨⟩
    constructor
    · rintro ⟨w, hw, -⟩
      exact absurd hw (herror w)
    · rintro ⟨d, hd, -⟩
      rw [hdec] at hd
      cases hd
  | some d =>
    have hversion := (decodeFooter_eq_some hdec).1
    have hlen := length_of_decodeFooter hdec
    have hmax : ¬ maxFooterLen < rest.length := by
      rw [hlen]
      decide
    have hencode : d.manifest.encodePayload = some (JointManifest.codec.enc d.manifest) := by
      rw [JointManifest.encodePayload, if_pos hversion]
    simp only [walkFooter, if_neg hmax, hdec, hencode]
    constructor
    · rintro ⟨w, hw, -⟩
      obtain ⟨⟨⟩, hverify, -⟩ := bind_eq_ok_iff.1 hw
      exact ⟨d, hdec, hverify⟩
    · rintro ⟨d', hd, hverify⟩
      rw [hdec] at hd
      cases hd
      exact ⟨_, bind_eq_ok_iff.2 ⟨(), hverify, rfl⟩, rfl⟩

end

/-! ## The classification of a cut -/

namespace Contents

section

variable (c : Crypto) (header : AuditContainerHeader) (v : ChainVerifier) (b : Contents) (cut : Nat)

def cutFile : Bytes := AuditContainerHeader.codec.enc header ++ b.bytes.take cut

/-- The walk delivers the frames that are complete before the cut and calls the tail truncated exactly
when the cut falls inside a frame or inside the footer; of a file that is really cut, `walk_file`, whose
verifier has come to the state `v` with the delivered frames, says the same and does not reject it. -/
structure Classified : Prop where
  delivered : ∃ i ≤ b.records.length, (frames (b.bytes.take cut)).1 = b.records.take i ∧
    b.offset i ≤ cut ∧ (i < b.records.length → cut < b.offset (i + 1))
  streamed : ∃ truncatedTail rest, (frames (b.bytes.take cut)).2 = .ok (truncatedTail, rest) ∧
    (truncatedTail = true ↔ b.Inside cut)
  walked : cut < b.bytes.length → ∃ truncatedTail rest w,
    (frames (b.bytes.take cut)).2 = .ok (truncatedTail, rest) ∧
    walkFooter c (b.cutFile header cut) v truncatedTail rest = .ok w ∧
    (w.truncatedTail = true ↔ b.Inside cut)

/-- The cuts that are recognized: none at all, one that leaves up to four bytes of the footer, and one in
a frame that leaves at least one byte of it and no tail of the length of a footer, unless that tail
passes as a footer. -/
def Recognized : Prop :=
  cut = b.bytes.length ∨
    (b.InsideFooter cut ∧ cut < b.offset b.records.length + 5) ∨
    ∃ i, ∃ h : i < b.records.length, b.offset i < cut ∧ cut < b.offset (i + 1) ∧
      (cut < b.offset i + 1137 ∨ PassesAsFooter c (b.cutFile header cut) v
        (b.records[i].payload.take (cut - b.offset i - 5)))

variable {c header v b cut}

/-- Both parts of a classification from the walk. -/
theorem classified_iff_of_frames {i : Nat} {truncatedTail : Bool} {rest : Bytes}
    (hi : i ≤ b.records.length) (hle : b.offset i ≤ cut)
    (hlt : i < b.records.length → cut < b.offset (i + 1))
    (hframes : frames (b.bytes.take cut) = (b.records.take i, .ok (truncatedTail, rest))) :
    Classified c header v b cut ↔ (truncatedTail = true ↔ b.Inside cut) ∧
      (cut < b.bytes.length → ∃ w, walkFooter c (b.cutFile header cut) v truncatedTail rest = .ok w ∧
        (w.truncatedTail = true ↔ b.Inside cut)) := by
  constructor
  · rintro ⟨-, ⟨t, rest', ht, hflag⟩, hwalked⟩
    rw [hframes] at ht
    cases ht
    refine ⟨hflag, fun hcut => ?_⟩
    obtain ⟨t, rest', w, ht, hw⟩ := hwalked hcut
    rw [hframes] at ht
    cases ht
    exact ⟨w, hw⟩
  · rintro ⟨hflag, hwalked⟩
    refine ⟨⟨i, hi, by rw [hframes], hle, hlt⟩, ⟨_, _, by rw [hframes], hflag⟩, fun hcut => ?_⟩
    obtain ⟨w, hw⟩ := hwalked hcut
    exact ⟨_, _, w, by rw [hframes], hw⟩

theorem recognized_iff_of_frame {i : Nat} (hi : i < b.records.length) (hle : b.offset i ≤ cut)
    (hlt : cut < b.offset (i + 1)) :
    Recognized c header v b cut ↔ b.offset i < cut ∧
      (cut < b.offset i + 1137 ∨ PassesAsFooter c (b.cutFile header cut) v
        (b.records[i].payload.take (cut - b.offset i - 5))) := by
  have hend := b.offset_mono (show i + 1 ≤ b.records.length from hi)
  have hlength := b.offset_le_length b.records.length
  constructor
  · rintro (h | ⟨⟨h, -⟩, -⟩ | ⟨j, hj, hstart, hstop, htail⟩)
    · omega
    · omega
    · obtain rfl := frame_unique hle hlt hstart.le hstop
      exact ⟨hstart, htail⟩
  · rintro ⟨hstart, htail⟩
    exact .inr (.inr ⟨i, hi, hstart, hlt, htail⟩)

/-- A cut that leaves fewer than five bytes behind whole frames: the flag of the walk says whether there
are any, the one of the file is set in any case. -/
theorem classified_of_short {i : Nat} (hi : i ≤ b.records.length) (hle : b.offset i ≤ cut)
    (hlt : i < b.records.length → cut < b.offset (i + 1)) (hcut : cut ≤ b.bytes.length)
    (hshort : cut - b.offset i < 5) (hinside : b.Inside cut ↔ b.offset i < cut) :
    Classified c header v b cut ↔ b.offset i < cut ∨ cut = b.bytes.length := by
  have hlen : ((encodeRecords (b.records.drop i) ++ b.footer).take (cut - b.offset i)).length =
      cut - b.offset i := by
    have hsplit : b.bytes.length = b.offset i +
        (encodeRecords (b.records.drop i) ++ b.footer).length := by
      rw [bytes, offset, ← List.length_append, ← List.append_assoc, ← encodeRecords_append,
        List.take_append_drop]
    rw [List.length_take]
    omega
  have hframes := frames_take hle
  generalize ((encodeRecords (b.records.drop i) ++ b.footer).take (cut - b.offset i)) = u
    at hframes hlen
  rw [frames_short (show u.length < 5 by omega), List.append_nil] at hframes
  have hflag : (!u.isEmpty) = true ↔ b.offset i < cut := by
    cases u with
    | nil =>
      simp only [List.length_nil] at hlen
      simp
      omega
    | cons x u =>
      simp only [List.length_cons] at hlen
      simp
      omega
  rw [classified_iff_of_frames hi hle hlt hframes, walkFooter_short _ _ _ (by rw [maxFooterLen]; omega),
    hinside]
  constructor
  · rintro ⟨-, hwalked⟩
    rcases Nat.lt_or_eq_of_le hcut with hproper | hwhole
    · obtain ⟨w, hw, hflag'⟩ := hwalked hproper
      cases hw
      exact .inl (hflag'.1 rfl)
    · exact .inr hwhole
  · rintro (hstart | hwhole)
    · exact ⟨hflag, fun _ => ⟨_, rfl, fun _ => hstart, fun _ => rfl⟩⟩
    · exact ⟨hflag, fun hproper => absurd hwhole hproper.ne⟩

/-- A cut in a frame or right before it. -/
theorem classified_of_frame {i : Nat} (hi : i < b.records.length) (hle : b.offset i ≤ cut)
    (hlt : cut < b.offset (i + 1)) :
    Classified c header v b cut ↔ Recognized c header v b cut := by
  have hend := b.offset_mono (show i + 1 ≤ b.records.length from hi)
  have hlength := b.offset_le_length b.records.length
  have hinside := inside_iff_of_frame hi hle hlt
  have hsize := b.offset_succ hi
  rw [recognized_iff_of_frame hi hle hlt]
  by_cases hfive : cut - b.offset i < 5
  · rw [classified_of_short hi.le hle (fun _ => hlt) (by omega) hfive hinside]
    constructor
    · rintro (hstart | hwhole)
      · exact ⟨hstart, .inl (by omega)⟩
      · omega
    · rintro ⟨hstart, -⟩
      exact .inl hstart
  · -- a whole frame header: the payload that is left is read as a footer
    have hdrop : encodeRecords (b.records.drop i) ++ b.footer =
        b.records[i].encode ++ (encodeRecords (b.records.drop (i + 1)) ++ b.footer) := by
      rw [List.drop_eq_getElem_cons hi, encodeRecords_cons, List.append_assoc]
    have hframes := frames_take hle
    rw [hdrop, frames_cut_frame (b.valid _ (List.getElem_mem hi)) _ (by omega) (by omega),
      List.append_nil] at hframes
    rw [classified_iff_of_frames hi.le hle (fun _ => hlt) hframes, hinside]
    have hstart : b.offset i < cut := by omega
    have hlen : (b.records[i].payload.take (cut - b.offset i - 5)).length = cut - b.offset i - 5 := by
      rw [List.length_take]
      omega
    by_cases hlong : cut < b.offset i + 1137
    · rw [walkFooter_short _ _ _ (by rw [maxFooterLen]; omega)]
      exact ⟨fun _ => ⟨hstart, .inl hlong⟩, fun _ => ⟨by simp [hstart],
        fun _ => ⟨_, rfl, by simp [hstart]⟩⟩⟩
    · rw [or_iff_right hlong, ← walkFooter_long (by omega)]
      constructor
      · rintro ⟨-, hwalked⟩
        obtain ⟨w, hw, hflag⟩ := hwalked (by omega)
        exact ⟨hstart, w, hw, hflag.2 hstart⟩
      · rintro ⟨-, w, hw, hflag⟩
        exact ⟨by simp [hstart], fun _ => ⟨w, hw, by simp [hflag, hstart]⟩⟩

theorem recognized_iff_of_footer (hle : b.offset b.records.length ≤ cut) :
    Recognized c header v b cut ↔ cut = b.bytes.length ∨
      (b.InsideFooter cut ∧ cut < b.offset b.records.length + 5) := by
  constructor
  · rintro (h | h | ⟨j, hj, -, hstop, -⟩)
    · exact .inl h
    · exact .inr h
    · have hmono := b.offset_mono (show j + 1 ≤ b.records.length from hj)
      omega
  · rintro (h | h)
    · exact .inl h
    · exact .inr (.inl h)

/-- A cut behind the frames. -/
theorem classified_of_footer (hle : b.offset b.records.length ≤ cut) (hcut : cut ≤ b.bytes.length) :
    Classified c header v b cut ↔ Recognized c header v b cut := by
  have hinside := inside_iff_of_footer hle
  have hlength := b.length_bytes
  have hfooter : b.footer = [] ∨ b.footer.length = 1136 :=
    or_iff_not_imp_left.2 length_footer
  rw [recognized_iff_of_footer hle]
  rw [InsideFooter] at hinside ⊢
  by_cases hfive : cut - b.offset b.records.length < 5
  · have hinside' : b.Inside cut ↔ b.offset b.records.length < cut := by
      rw [hinside]
      rcases hfooter with hnil | hsize
      · rw [hnil, List.length_nil] at hlength
        omega
      · omega
    rw [classified_of_short le_rfl hle (fun h => absurd h (lt_irrefl _)) hcut hfive hinside']
    omega
  · -- the magic and more: the walk stops there and does not call the footer incomplete
    have hne : b.footer ≠ [] := by
      intro hnil
      rw [hnil, List.length_nil] at hlength
      omega
    have hframes := frames_take hle
    rw [List.drop_length, encodeRecords_nil, List.nil_append,
      frames_cut_footer hne (Nat.le_of_not_lt hfive), List.append_nil] at hframes
    rw [classified_iff_of_frames le_rfl hle (fun h => absurd h (lt_irrefl _)) hframes, hinside]
    constructor
    · rintro ⟨hflag, -⟩
      refine .inl (Nat.le_antisymm hcut (Nat.le_of_not_lt ?_))
      intro hproper
      exact Bool.false_ne_true (hflag.2 ⟨by omega, hproper⟩)
    · rintro (hwhole | ⟨-, hshort⟩)
      · refine ⟨⟨?_, fun h => absurd hwhole h.2.ne⟩, fun hproper => absurd hwhole hproper.ne⟩
        intro h
        cases h
      · omega

end

/-- One record and no footer. -/
def oneRecord (r : Record) (h : r.Valid) : Contents :=
  ⟨[r], [], fun _ hr => List.mem_singleton.1 hr ▸ h, .inl rfl⟩

theorem offset_oneRecord {r : Record} (h : r.Valid) :
    (oneRecord r h).offset 1 = r.payload.length + 5 := by
  rw [(oneRecord r h).offset_succ Nat.zero_lt_one]
  exact Nat.zero_add _

theorem bytes_oneRecord {r : Record} (h : r.Valid) : (oneRecord r h).bytes = r.encode ++ [] := by
  rw [List.append_nil]
  simp [bytes, oneRecord]

theorem length_oneRecord {r : Record} (h : r.Valid) :
    (oneRecord r h).bytes.length = r.payload.length + 5 := by
  rw [length_bytes]
  exact offset_oneRecord h

/-- A display record with a payload a little longer than a footer. -/
def wideDisplay : Record := ⟨.localDisplayBytes, List.replicate 1134 0⟩

theorem length_wideDisplay : wideDisplay.payload.length = 1134 := List.length_replicate

theorem wideDisplay_valid : wideDisplay.Valid := by
  rw [Record.Valid, length_wideDisplay]
  decide

end Contents

end Yonder.Audit
