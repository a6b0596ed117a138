import Yonder.Audit.File
import Yonder.Lib.BackWalk
import Yonder.Lib.PrefixPass

/-!
# Anchoring in the local ledger

`ledger_continuous` looks for the chain of ledger commits from a file's commit up to the head in
`ledger.state`: from the head backwards, one scan of the records directory for each link.

* `findChainLink_eq_some`: a scan finds a link exactly if the directory is within the scan limit and
  one record alone carries the sequence, intact and signed by the local identity.
* `ledgerContinuous_iff`: the walk finds exactly the chains of such links.

A directory is the list of its entries in the order of the enumeration.
-/

namespace Yonder.Audit

open Lib Wire

/-! ## The anchor of a pair -/

structure AnchorReport where
  identityMatched : Bool
  ledgerContinuous : Bool
deriving DecidableEq, Repr

/-- `AnchorReport::default`. -/
def AnchorReport.none : AnchorReport := ⟨false, false⟩

/-- `AnchorLookup`: the fingerprint of the machine's identity, and `ledger_continuous` for its audit
root; nothing when the machine has no identity. -/
structure AnchorLookup where
  localAnchor : Option (Digest32 × (VerifiedFile → Bool))

/-- `anchor_pair`. -/
def anchorPair (c : Crypto) (lookup : AnchorLookup) (controller host : VerifiedFile) : AnchorReport :=
  match lookup.localAnchor with
  | none => .none
  | some (fingerprint, ledgerContinuous) =>
    let matched := [controller, host].filter fun f =>
      decide (c.sha256 f.chain.header.identityPubkey.1 = fingerprint)
    if matched.any ledgerContinuous then ⟨true, true⟩ else ⟨!matched.isEmpty, false⟩

/-! ## The directory and the ledger state -/

/-- An entry of the records directory: whether its extension is `yonaudit`, and its bytes if it is a
regular file that can be read. -/
structure DirectoryEntry where
  named : Bool
  contents : Option Bytes

/-- What anchoring reads of an audit root: the bytes of `ledger.state` and the records directory. -/
structure AuditRoot where
  state : Option Bytes
  records : Option (List DirectoryEntry)

def anchorTailLen : Nat := 1136
def maxAnchorSteps : Nat := 1024
def maxAnchorScan : Nat := 8192

def ledgerStateLen : Nat := 8 + 2 + 8 + 32 + 32
def ledgerStateChecksumOffset : Nat := ledgerStateLen - 32
def ledgerStateMagic : Bytes := utf8 "YONLEDG" ++ [0]

/-- The commit of a record file with the digest boundaries as offsets from the start of the file. -/
structure AnchorRecord where
  commit : LedgerCommit
  sealEnd : Nat
  ledgerEnd : Nat
  finalDigest : Digest32
deriving DecidableEq

/-- `inspect_anchor_record`: the last position of the tail at which a footer decodes. -/
def inspectAnchorRecord (file : Bytes) : Option AnchorRecord :=
  if file.length < containerHeaderLen then none
  else
    let tailLen := min file.length anchorTailLen
    let tail := file.drop (file.length - tailLen)
    (List.range tailLen).reverse.findSome? fun scan => do
      let decoded ← decodeFooter (tail.drop scan)
      let footerStart := file.length - tailLen + scan
      return { commit := decoded.ledgerCommit
               sealEnd := footerStart + decoded.sealEnd
               ledgerEnd := footerStart + decoded.ledgerEnd
               finalDigest := decoded.finalContainerDigest }

/-- The file and its record, if the entry is a record that decodes. -/
def DirectoryEntry.record (e : DirectoryEntry) : Option (Bytes × AnchorRecord) :=
  if e.named then do
    let file ← e.contents
    let record ← inspectAnchorRecord file
    return (file, record)
  else none

section

variable (c : Crypto)

/-- `ledger_root_of`. -/
def ledgerRootOf (commit : LedgerCommit) : Digest32 := c.sha256 commit.signingInput

/-- `read_ledger_head`: the sequence and the root of a state file whose checksum is right. -/
def readLedgerHead (root : AuditRoot) : Option (UInt64 × Digest32) := do
  let bytes ← root.state
  if bytes.length ≠ ledgerStateLen then none
  else if bytes.take 8 ≠ ledgerStateMagic then none
  else if (bytes.drop 8).take 2 ≠ [0, 1] then none
  else if (c.sha256 (bytes.take ledgerStateChecksumOffset)).1 ≠ bytes.drop ledgerStateChecksumOffset
    then none
  else do
    let sequence ← Codec.u64.dec ((bytes.drop 10).take 8)
    let head ← digestCodec.dec ((bytes.drop 18).take 32)
    return (sequence, head)

/-- `encode_ledger_state`, the writer of the state file. -/
def encodeLedgerState (head : UInt64 × Digest32) : Bytes :=
  let fields := ledgerStateMagic ++ ([0, 1] ++ (Codec.u64.enc head.1 ++ head.2.1))
  fields ++ (c.sha256 fields).1

/-- `verify_anchor_digests`. A read returns at most 64 KiB, and less where `chunk` says so. -/
def verifyAnchorDigests (chunk : Nat → Nat) (file : Bytes) (record : AnchorRecord) : Bool :=
  let pass := prefixPass file chunk (64 * 1024) record.sealEnd record.ledgerEnd
  if pass.position ≠ record.ledgerEnd then false
  else
    match pass.snapshot with
    | none => false
    | some sealedBytes => decide (c.sha256 sealedBytes = record.commit.sealedRecordDigest) &&
        decide (c.sha256 pass.collected = record.finalDigest)

/-- The commit is signed by the local identity. -/
def signedBy (identity : Ed25519PublicKey) (commit : LedgerCommit) : Bool :=
  c.verify identity commit.signingInput commit.signature

/-- The loop of `find_chain_link` with its two accumulators. -/
def findChainLinkFrom (chunk : Nat → Nat) (identity : Ed25519PublicKey) (sequence : Nat)
    (root : Digest32) : Nat → Option Digest32 → List DirectoryEntry → Option Digest32
  | _, previousRoot, [] => previousRoot
  | scanned, previousRoot, entry :: rest =>
    if maxAnchorScan < scanned + 1 then none
    else
      match entry.record with
      | none => findChainLinkFrom chunk identity sequence root (scanned + 1) previousRoot rest
      | some (file, record) =>
        if record.commit.sequence.toNat ≠ sequence then
          findChainLinkFrom chunk identity sequence root (scanned + 1) previousRoot rest
        -- a commit at the right sequence with the wrong root: the chain diverged
        else if ledgerRootOf c record.commit ≠ root then none
        else if signedBy c identity record.commit = false then none
        else if verifyAnchorDigests c chunk file record = false then none
        -- two records claim the same position
        else if previousRoot.isSome then none
        else findChainLinkFrom chunk identity sequence root (scanned + 1)
          (some record.commit.previousRoot) rest

/-- `find_chain_link`. -/
def findChainLink (chunk : Nat → Nat) (identity : Ed25519PublicKey)
    (records : Option (List DirectoryEntry)) (sequence : Nat) (root : Digest32) : Option Digest32 :=
  records.bind (findChainLinkFrom c chunk identity sequence root 0 none)

/-- `ledger_continuous`. -/
def ledgerContinuous (chunk : Nat → Nat) (root : AuditRoot) (identity : Ed25519PublicKey)
    (file : VerifiedFile) : Bool :=
  match file.footer with
  | none => false
  | some footer =>
    let commit := footer.commit
    if signedBy c identity commit = false then false
    else
      match readLedgerHead c root with
      | none => false
      | some (headSequence, headRoot) =>
        if commit.sequence = headSequence then decide (ledgerRootOf c commit = headRoot)
        else if ¬ headSequence.toNat + 1 < 2 ^ 64 then false
        -- the commit awaits crash recovery: it chains directly from the head
        else if commit.sequence = headSequence + 1 ∧ commit.previousRoot = headRoot then true
        else if headSequence < commit.sequence then false
        else
          match walkBack (findChainLink c chunk identity root.records) commit.sequence.toNat
            maxAnchorSteps headSequence.toNat headRoot with
          | none => false
          | some target => decide (ledgerRootOf c commit = target)

/-- The lookup of a machine with this audit root and identity. -/
def anchorLookup (chunk : Nat → Nat) (root : AuditRoot) (identity : Ed25519PublicKey) :
    AnchorLookup :=
  ⟨some (c.sha256 identity.1, ledgerContinuous c chunk root identity)⟩

end

/-- The state that the ledger writes is the state that anchoring reads. -/
theorem readLedgerHead_encode (c : Crypto) (head : UInt64 × Digest32)
    (records : Option (List DirectoryEntry)) :
    readLedgerHead c ⟨some (encodeLedgerState c head), records⟩ = some head := by
  obtain ⟨sequence, root⟩ := head
  have hseq : (Codec.u64.enc sequence).length = 8 := Codec.u64.enc_length _
  have hfields : (ledgerStateMagic ++ ([0, 1] ++ (Codec.u64.enc sequence ++ root.1))).length = 50 := by
    rw [List.length_append, List.length_append, List.length_append, hseq, root.2]
    rfl
  generalize hsum : c.sha256 (ledgerStateMagic ++ ([0, 1] ++ (Codec.u64.enc sequence ++ root.1))) = sum
  have hlength : (encodeLedgerState c (sequence, root)).length = ledgerStateLen := by
    show (_ ++ (c.sha256 _).1).length = 82
    rw [List.length_append, hfields, hsum, sum.2]
  have hbytes : encodeLedgerState c (sequence, root) =
      ledgerStateMagic ++ ([0, 1] ++ (Codec.u64.enc sequence ++ (root.1 ++ sum.1))) := by
    show _ ++ (c.sha256 _).1 = _
    rw [hsum]
    simp only [List.append_assoc]
  have htake : (encodeLedgerState c (sequence, root)).take ledgerStateChecksumOffset =
      ledgerStateMagic ++ ([0, 1] ++ (Codec.u64.enc sequence ++ root.1)) := List.take_left' hfields
  have hdrop : (encodeLedgerState c (sequence, root)).drop ledgerStateChecksumOffset = sum.1 := by
    rw [← hsum]
    exact List.drop_left' hfields
  have hmagic : (encodeLedgerState c (sequence, root)).take 8 = ledgerStateMagic := by
    rw [hbytes]
    rfl
  have hafter : (encodeLedgerState c (sequence, root)).drop 8 =
      [0, 1] ++ (Codec.u64.enc sequence ++ (root.1 ++ sum.1)) := by
    rw [hbytes]
    rfl
  have hversion : ((encodeLedgerState c (sequence, root)).drop 8).take 2 = [0, 1] := by
    rw [hafter]
    rfl
  have hnumber : ((encodeLedgerState c (sequence, root)).drop 10).take 8 = Codec.u64.enc sequence := by
    rw [show (10 : Nat) = 8 + 2 from rfl, ← List.drop_drop, hafter]
    exact List.take_left' hseq
  have hroot : ((encodeLedgerState c (sequence, root)).drop 18).take 32 = root.1 := by
    rw [show (18 : Nat) = 8 + (2 + 8) from rfl, ← List.drop_drop, hafter, ← List.drop_drop]
    show ((Codec.u64.enc sequence ++ (root.1 ++ sum.1)).drop 8).take 32 = root.1
    rw [List.drop_left' hseq, List.take_left' root.2]
  have hdecNumber : Codec.u64.dec (Codec.u64.enc sequence) = some sequence := Codec.u64.dec_enc trivial
  have hdecRoot : digestCodec.dec root.1 = some root := digestCodec.dec_enc trivial
  simp only [readLedgerHead, hlength, hmagic, hversion, htake, hdrop, hsum, hnumber, hroot, hdecNumber,
    hdecRoot, ne_eq, not_true_eq_false, if_false, bind, Option.bind, pure]

/-! ## The record of a finished file -/

theorem record_of_inspect {file : Bytes} {record : AnchorRecord}
    (h : inspectAnchorRecord file = some record) :
    DirectoryEntry.record ⟨true, some file⟩ = some (file, record) := by
  simp [DirectoryEntry.record, h]

variable {n : Nat} {entries : List DirectoryEntry} {commit : LedgerCommit} {headRoot : Digest32}

theorem findSome_reverse_range_eq {α : Type} {f : Nat → Option α} (hn : 0 < n)
    (h : ∀ i, i ≠ 0 → f i = none) : (List.range n).reverse.findSome? f = f 0 := by
  obtain ⟨n, rfl⟩ : ∃ m, n = m + 1 := ⟨n - 1, by omega⟩
  rw [List.range_succ_eq_map, List.reverse_cons, List.findSome?_append, List.findSome?_eq_none_iff.2]
  · simp
  · intro i hi
    refine h i ?_
    rw [List.mem_reverse, List.mem_map] at hi
    obtain ⟨j, -, rfl⟩ := hi
    exact Nat.succ_ne_zero j

/-- Only the last 1136 bytes of a file can be its footer. -/
theorem inspectAnchorRecord_eq {file : Bytes} (hlen : 1136 ≤ file.length) :
    inspectAnchorRecord file =
      (decodeFooter (file.drop (file.length - 1136))).map fun decoded =>
        { commit := decoded.ledgerCommit
          sealEnd := file.length - 1136 + decoded.sealEnd
          ledgerEnd := file.length - 1136 + decoded.ledgerEnd
          finalDigest := decoded.finalContainerDigest } := by
  have htail : min file.length anchorTailLen = 1136 := by
    show min file.length 1136 = 1136
    omega
  unfold inspectAnchorRecord
  rw [if_neg (by show ¬ file.length < 713; omega)]
  dsimp only
  rw [htail, findSome_reverse_range_eq (by omega)]
  · rw [List.drop_zero, Nat.add_zero]
    generalize decodeFooter (file.drop (file.length - 1136)) = decoded
    cases decoded <;> rfl
  · intro scan hscan
    cases hdecoded : decodeFooter ((file.drop (file.length - 1136)).drop scan) with
    | none => rfl
    | some decoded =>
      -- a footer is 1136 bytes long
      obtain ⟨-, hbytes, -⟩ := decodeFooter_eq_some hdecoded
      have hcount := congrArg List.length hbytes
      rw [length_encodeFooter, List.length_drop, List.length_drop] at hcount
      omega

section

variable {c : Crypto} {s : AuditSession} {contents : Bytes} {j : JointManifest}
  {signature peerSignature : Ed25519Signature} {sequence : UInt64} {previousRoot : Digest32}

/-- The record that anchoring finds in a finished file is the session's own commit. -/
theorem inspectAnchorRecord_footer (hformat : j.formatVersion = auditFormatVersion) :
    inspectAnchorRecord
        (contents ++ s.footerBytes c contents j signature peerSignature sequence previousRoot) =
      some { commit := s.footerCommit c contents j signature peerSignature sequence previousRoot
             sealEnd := contents.length + 869
             ledgerEnd := contents.length + 1104
             finalDigest := c.sha256 (contents ++
               s.committedPart c contents j signature peerSignature sequence previousRoot) } := by
  have hlength : (contents ++ s.footerBytes c contents j signature peerSignature sequence
      previousRoot).length = contents.length + 1136 := by
    rw [List.length_append, length_footerBytes]
  rw [inspectAnchorRecord_eq (by omega), hlength, Nat.add_sub_cancel, List.drop_left,
    decodeFooter_footerBytes hformat]
  rfl

end

/-! ## One link -/

section

variable {c : Crypto} {chunk : Nat → Nat} {identity : Ed25519PublicKey}

/-- The records of the directory that carry a commit with this sequence, of whatever identity. -/
def claimsAt (sequence : Nat) (entries : List DirectoryEntry) : List (Bytes × AnchorRecord) :=
  entries.filterMap fun e => e.record.filter fun x => decide (x.2.commit.sequence.toNat = sequence)

theorem mem_claimsAt {sequence : Nat} {x : Bytes × AnchorRecord} :
    x ∈ claimsAt sequence entries ↔
      (∃ e ∈ entries, e.record = some x) ∧ x.2.commit.sequence.toNat = sequence := by
  simp only [claimsAt, List.mem_filterMap, Option.filter_eq_some_iff, decide_eq_true_eq]
  constructor
  · rintro ⟨e, he, hx, hseq⟩
    exact ⟨⟨e, he, hx⟩, hseq⟩
  · rintro ⟨⟨e, he, hx⟩, hseq⟩
    exact ⟨e, he, hx, hseq⟩

/-- Both prefix digests of the record file are the stored ones. -/
structure DigestsMatch (c : Crypto) (file : Bytes) (record : AnchorRecord) : Prop where
  length_le : record.ledgerEnd ≤ file.length
  sealEnd_le : record.sealEnd ≤ record.ledgerEnd
  sealed_eq : c.sha256 (file.take record.sealEnd) = record.commit.sealedRecordDigest
  final_eq : c.sha256 (file.take record.ledgerEnd) = record.finalDigest

/-- The one pass checks both digests, however the reads are split. -/
theorem verifyAnchorDigests_iff {file : Bytes} {record : AnchorRecord} :
    verifyAnchorDigests c chunk file record = true ↔ DigestsMatch c file record := by
  unfold verifyAnchorDigests
  rw [prefixPass_eq (by decide)]
  dsimp only
  constructor
  · intro h
    split_ifs at h with hpos hmark
    · have hend : record.ledgerEnd ≤ file.length := by omega
      rw [Bool.and_eq_true, decide_eq_true_eq, decide_eq_true_eq] at h
      exact ⟨hend, by omega, h.1, h.2⟩
  · intro h
    have hend := h.length_le
    have hseal := h.sealEnd_le
    rw [if_neg (by omega), if_pos (by omega)]
    dsimp only
    rw [h.sealed_eq, h.final_eq]
    simp

/-- A record of the local identity whose digests verify. -/
structure LocalRecord (c : Crypto) (identity : Ed25519PublicKey) (x : Bytes × AnchorRecord) : Prop where
  signed : signedBy c identity x.2.commit = true
  digests : DigestsMatch c x.1 x.2

/-- A finished file is a record of the identity that its session had. -/
theorem localRecord_footer {s : AuditSession} {contents : Bytes} {j : JointManifest}
    {signature peerSignature : Ed25519Signature} {sequence : UInt64} {previousRoot : Digest32} :
    LocalRecord c (s.facts.fresh.identityPubkey c)
      (contents ++ s.footerBytes c contents j signature peerSignature sequence previousRoot,
        { commit := s.footerCommit c contents j signature peerSignature sequence previousRoot
          sealEnd := contents.length + 869
          ledgerEnd := contents.length + 1104
          finalDigest := c.sha256 (contents ++
            s.committedPart c contents j signature peerSignature sequence previousRoot) }) := by
  have hsealed : (s.sealedPart c contents j signature peerSignature).length = 869 := length_sealedPart
  have hcommitted : (s.committedPart c contents j signature peerSignature sequence
      previousRoot).length = 1104 := length_committedPart
  refine ⟨c.verify_sign _ _, ?_, ?_, ?_, ?_⟩
  · show contents.length + 1104 ≤ (contents ++ _).length
    rw [List.length_append, length_footerBytes]
    omega
  · show contents.length + 869 ≤ contents.length + 1104
    omega
  · show c.sha256 (List.take (contents.length + 869) _) = c.sha256 _
    rw [AuditSession.footerBytes, AuditSession.committedPart, List.append_assoc, ← List.append_assoc,
      List.take_left' (by rw [List.length_append, hsealed])]
  · show c.sha256 (List.take (contents.length + 1104) _) = c.sha256 _
    rw [AuditSession.footerBytes, ← List.append_assoc,
      List.take_left' (by rw [List.length_append, hcommitted])]

/-- The scan: within the limit, every record with the sequence is the link, and there is one at most. -/
theorem findChainLinkFrom_eq_some {sequence : Nat} {root previous : Digest32}
    (entries : List DirectoryEntry) {scanned : Nat} {found : Option Digest32}
    (hscanned : scanned ≤ maxAnchorScan) :
    findChainLinkFrom c chunk identity sequence root scanned found entries = some previous ↔
      scanned + entries.length ≤ maxAnchorScan ∧
      (∀ x ∈ claimsAt sequence entries, ledgerRootOf c x.2.commit = root ∧ LocalRecord c identity x) ∧
      (found.toList ++ (claimsAt sequence entries).map fun x => x.2.commit.previousRoot) = [previous] := by
  induction entries generalizing scanned found with
  | nil =>
    cases found with
    | none => simp [findChainLinkFrom, claimsAt]
    | some r => simpa [findChainLinkFrom, claimsAt] using fun _ => hscanned
  | cons entry rest ih =>
    unfold findChainLinkFrom
    by_cases hlimit : maxAnchorScan < scanned + 1
    · rw [if_pos hlimit]
      refine ⟨nofun, fun ⟨hlen, _⟩ => ?_⟩
      rw [List.length_cons] at hlen
      omega
    rw [if_neg hlimit]
    have hnext : scanned + 1 ≤ maxAnchorScan := by omega
    have hlen : scanned + (entry :: rest).length = scanned + 1 + rest.length := by
      rw [List.length_cons]
      omega
    -- an entry that is not a record with the sequence does not count
    have hskip : ∀ found, (entry.record.filter fun x =>
        decide (x.2.commit.sequence.toNat = sequence)) = none →
        (findChainLinkFrom c chunk identity sequence root (scanned + 1) found rest = some previous ↔
          scanned + (entry :: rest).length ≤ maxAnchorScan ∧
          (∀ x ∈ claimsAt sequence (entry :: rest),
            ledgerRootOf c x.2.commit = root ∧ LocalRecord c identity x) ∧
          (found.toList ++ (claimsAt sequence (entry :: rest)).map fun x =>
            x.2.commit.previousRoot) = [previous]) := by
      intro found hnone
      have hclaims : claimsAt sequence (entry :: rest) = claimsAt sequence rest := by
        simp only [claimsAt, List.filterMap_cons, hnone]
      rw [hlen, hclaims]
      exact ih hnext
    cases hrecord : entry.record with
    | none => exact hskip found (by rw [hrecord]; rfl)
    | some x =>
      obtain ⟨file, record⟩ := x
      dsimp only
      split_ifs with hseq hroot hsigned hdigests hfound
      · refine hskip found ?_
        rw [hrecord, Option.filter_some, if_neg]
        simpa using hseq
      all_goals
        have hclaims : claimsAt sequence (entry :: rest) =
            (file, record) :: claimsAt sequence rest := by
          simp only [claimsAt, List.filterMap_cons, hrecord, Option.filter_some,
            if_pos (decide_eq_true (not_not.1 hseq))]
        rw [hclaims]
      · exact ⟨nofun, fun ⟨_, h, _⟩ => absurd (h _ List.mem_cons_self).1 hroot⟩
      · refine ⟨nofun, fun ⟨_, h, _⟩ => ?_⟩
        rw [(h _ List.mem_cons_self).2.signed] at hsigned
        cases hsigned
      · refine ⟨nofun, fun ⟨_, h, _⟩ => ?_⟩
        rw [verifyAnchorDigests_iff.2 (h _ List.mem_cons_self).2.digests] at hdigests
        cases hdigests
      · -- a second record
        obtain ⟨r, rfl⟩ := Option.isSome_iff_exists.1 hfound
        exact ⟨nofun, fun ⟨_, _, h⟩ => by simp at h⟩
      · have hlocal : LocalRecord c identity (file, record) :=
          ⟨by simpa using hsigned, verifyAnchorDigests_iff.1 (by simpa using hdigests)⟩
        have hnone : found = none := by simpa using hfound
        subst hnone
        rw [ih hnext, hlen, List.forall_mem_cons]
        constructor
        · exact fun ⟨h₁, h₂, h₃⟩ => ⟨h₁, ⟨⟨not_not.1 hroot, hlocal⟩, h₂⟩, h₃⟩
        · exact fun ⟨h₁, ⟨_, h₂⟩, h₃⟩ => ⟨h₁, h₂, h₃⟩

/-- One record of the directory is the link: signed by the local identity and intact, with this
sequence and root, and it chains from `previous`. -/
def LocalLink (c : Crypto) (identity : Ed25519PublicKey) (entries : List DirectoryEntry)
    (sequence : Nat) (root previous : Digest32) : Prop :=
  ∃ x, (∃ e ∈ entries, e.record = some x) ∧ x.2.commit.sequence.toNat = sequence ∧
    ledgerRootOf c x.2.commit = root ∧ x.2.commit.previousRoot = previous ∧ LocalRecord c identity x

theorem findChainLink_eq_some {sequence : Nat} {root previous : Digest32} :
    findChainLink c chunk identity (some entries) sequence root = some previous ↔
      LocalLink c identity entries sequence root previous ∧
        (entries.length ≤ maxAnchorScan ∧ (claimsAt sequence entries).length = 1) := by
  show findChainLinkFrom c chunk identity sequence root 0 none entries = some previous ↔ _
  rw [findChainLinkFrom_eq_some entries (Nat.zero_le _), Nat.zero_add]
  constructor
  · rintro ⟨hlen, hall, hone⟩
    obtain ⟨x, hx, hprevious⟩ := List.map_eq_singleton_iff.1 hone
    have hmem : x ∈ claimsAt sequence entries := by rw [hx]; exact List.mem_singleton_self x
    obtain ⟨hroot, hlocal⟩ := hall x hmem
    obtain ⟨hentry, hseq⟩ := mem_claimsAt.1 hmem
    exact ⟨⟨x, hentry, hseq, hroot, hprevious, hlocal⟩, hlen, by rw [hx]; rfl⟩
  · rintro ⟨⟨x, hentry, hseq, hroot, rfl, hlocal⟩, hlen, hcount⟩
    obtain ⟨y, hy⟩ := List.length_eq_one_iff.1 hcount
    have hmem : x ∈ claimsAt sequence entries := mem_claimsAt.2 ⟨hentry, hseq⟩
    rw [hy] at hmem ⊢
    cases List.mem_singleton.1 hmem
    refine ⟨hlen, ?_, rfl⟩
    intro z hz
    cases List.mem_singleton.1 hz
    exact ⟨hroot, hlocal⟩

/-! ## The chain -/

/-- The commit is below the head and the local chain leads from it to the head, within the limits of
the walk and with no other record at any of its positions. -/
structure Walks (c : Crypto) (identity : Ed25519PublicKey) (entries : List DirectoryEntry)
    (commit : LedgerCommit) (head : Nat) (headRoot : Digest32) : Prop where
  below : commit.sequence.toNat < head
  steps : head - commit.sequence.toNat ≤ maxAnchorSteps
  scan : entries.length ≤ maxAnchorScan
  chain : Linked (LocalLink c identity entries) commit.sequence.toNat (ledgerRootOf c commit) head
    headRoot
  single : ∀ n, commit.sequence.toNat < n → n ≤ head → (claimsAt n entries).length = 1

theorem walkBack_iff (chunk : Nat → Nat) {head : Nat} (hlt : commit.sequence.toNat < head) :
    walkBack (findChainLink c chunk identity (some entries)) commit.sequence.toNat maxAnchorSteps head
        headRoot = some (ledgerRootOf c commit) ↔
      Walks c identity entries commit head headRoot := by
  rw [walkBack_eq_some _ (Nat.le_of_lt hlt),
    Linked.congr fun n _ _ value previous => findChainLink_eq_some, Linked.and_iff]
  constructor
  · rintro ⟨hsteps, hchain, hall⟩
    exact ⟨hlt, hsteps, (hall head hlt (Nat.le_refl _)).1, hchain, fun n h h' => (hall n h h').2⟩
  · intro h
    exact ⟨h.steps, h.chain, fun n hn hn' => ⟨h.scan, h.single n hn hn'⟩⟩

/-- The end of `ledger_continuous`: the walk reaches the commit's own root. -/
theorem walkBack_reaches_iff {records : Option (List DirectoryEntry)} {head : Nat}
    (hlt : commit.sequence.toNat < head) :
    (match walkBack (findChainLink c chunk identity records) commit.sequence.toNat maxAnchorSteps head
        headRoot with
      | none => false
      | some target => decide (ledgerRootOf c commit = target)) = true ↔
      ∃ entries, records = some entries ∧ Walks c identity entries commit head headRoot := by
  cases records with
  | none =>
    refine ⟨fun h => ?_, fun ⟨_, h, _⟩ => nomatch h⟩
    split at h
    · cases h
    · rename_i target hwalk
      -- without a directory the first lookup fails
      obtain ⟨-, hlinked⟩ := (walkBack_eq_some _ (Nat.le_of_lt hlt)).1 hwalk
      obtain ⟨n, rfl⟩ : ∃ n, head = n + 1 := ⟨head - 1, by omega⟩
      obtain ⟨previous, -, hlink⟩ := hlinked.last hlt
      cases hlink
  | some entries =>
    have hentries : (∃ entries', some entries = some entries' ∧
        Walks c identity entries' commit head headRoot) ↔
        Walks c identity entries commit head headRoot :=
      ⟨fun ⟨_, h, h'⟩ => Option.some.inj h ▸ h', fun h => ⟨entries, rfl, h⟩⟩
    rw [hentries, ← walkBack_iff chunk hlt]
    split
    · rename_i hwalk
      rw [hwalk]
      exact ⟨nofun, nofun⟩
    · rename_i target hwalk
      rw [hwalk, decide_eq_true_eq, Option.some.injEq]
      exact eq_comm

/-- The commit is the head, chains directly from it, or is below it on the local chain. -/
inductive AnchoredAt (c : Crypto) (identity : Ed25519PublicKey) (records : Option (List DirectoryEntry))
    (commit : LedgerCommit) (head : UInt64) (headRoot : Digest32) : Prop where
  | atHead : commit.sequence = head → ledgerRootOf c commit = headRoot →
      AnchoredAt c identity records commit head headRoot
  | pending : head.toNat + 1 < 2 ^ 64 → commit.sequence = head + 1 →
      commit.previousRoot = headRoot → AnchoredAt c identity records commit head headRoot
  | below {entries : List DirectoryEntry} : head.toNat + 1 < 2 ^ 64 → records = some entries →
      Walks c identity entries commit head.toNat headRoot →
      AnchoredAt c identity records commit head headRoot

theorem toNat_succ_of_fits {head : UInt64} (h : head.toNat + 1 < 2 ^ 64) :
    (head + 1).toNat = head.toNat + 1 := by
  rw [UInt64.toNat_add]
  exact Nat.mod_eq_of_lt h

/-- The branches of `ledger_continuous` for a commit and a head. -/
theorem continuous_branches_iff (records : Option (List DirectoryEntry)) {head : UInt64} :
    (if commit.sequence = head then decide (ledgerRootOf c commit = headRoot)
      else if ¬ head.toNat + 1 < 2 ^ 64 then false
      else if commit.sequence = head + 1 ∧ commit.previousRoot = headRoot then true
      else if head < commit.sequence then false
      else
        match walkBack (findChainLink c chunk identity records) commit.sequence.toNat maxAnchorSteps
          head.toNat headRoot with
        | none => false
        | some target => decide (ledgerRootOf c commit = target)) = true ↔
      AnchoredAt c identity records commit head headRoot := by
  by_cases hsame : commit.sequence = head
  · rw [if_pos hsame, decide_eq_true_eq]
    refine ⟨fun h => .atHead hsame h, ?_⟩
    rintro (⟨_, h⟩ | ⟨hfits, hnext, _⟩ | ⟨_, _, hwalks⟩)
    · exact h
    · have hnat := congrArg UInt64.toNat (hsame.symm.trans hnext)
      rw [toNat_succ_of_fits hfits] at hnat
      omega
    · have hbelow := hwalks.below
      rw [hsame] at hbelow
      omega
  rw [if_neg hsame]
  by_cases hfits : head.toNat + 1 < 2 ^ 64
  · rw [if_neg (not_not.2 hfits)]
    by_cases hpending : commit.sequence = head + 1 ∧ commit.previousRoot = headRoot
    · rw [if_pos hpending]
      exact ⟨fun _ => .pending hfits hpending.1 hpending.2, fun _ => rfl⟩
    rw [if_neg hpending]
    by_cases habove : head < commit.sequence
    · rw [if_pos habove]
      refine ⟨nofun, ?_⟩
      rintro (⟨h, _⟩ | ⟨_, h, h'⟩ | ⟨_, _, hwalks⟩)
      · exact absurd h hsame
      · exact absurd ⟨h, h'⟩ hpending
      · have hbelow := hwalks.below
        have hlt := UInt64.lt_iff_toNat_lt.1 habove
        omega
    rw [if_neg habove]
    have hlt : commit.sequence.toNat < head.toNat := by
      have hle := UInt64.le_iff_toNat_le.1 (UInt64.not_lt.1 habove)
      have hne : commit.sequence.toNat ≠ head.toNat := fun h => hsame (UInt64.toNat_inj.1 h)
      omega
    rw [walkBack_reaches_iff hlt]
    refine ⟨fun ⟨entries, h, h'⟩ => .below hfits h h', ?_⟩
    rintro (⟨h, _⟩ | ⟨_, h, h'⟩ | ⟨_, h, h'⟩)
    · exact absurd h hsame
    · exact absurd ⟨h, h'⟩ hpending
    · exact ⟨_, h, h'⟩
  · rw [if_pos hfits]
    refine ⟨nofun, ?_⟩
    rintro (⟨h, _⟩ | ⟨h, _, _⟩ | ⟨h, _, _⟩)
    · exact absurd h hsame
    · exact absurd h hfits
    · exact absurd h hfits

/-- The file has a commit of the local identity that is anchored at the head of the root. -/
def OnLedger (c : Crypto) (identity : Ed25519PublicKey) (root : AuditRoot) (file : VerifiedFile) : Prop :=
  ∃ footer head headRoot, file.footer = some footer ∧ signedBy c identity footer.commit = true ∧
    readLedgerHead c root = some (head, headRoot) ∧
    AnchoredAt c identity root.records footer.commit head headRoot

/-- `ledger_continuous` decides whether the file is on the ledger. -/
theorem ledgerContinuous_iff {root : AuditRoot} {file : VerifiedFile} :
    ledgerContinuous c chunk root identity file = true ↔ OnLedger c identity root file := by
  unfold ledgerContinuous OnLedger
  cases hfooter : file.footer with
  | none =>
    refine ⟨nofun, ?_⟩
    rintro ⟨_, _, _, ⟨⟩, _⟩
  | some footer =>
    by_cases hsigned : signedBy c identity footer.commit = true
    · dsimp only
      rw [if_neg (by rw [hsigned]; nofun)]
      cases hhead : readLedgerHead c root with
      | none =>
        refine ⟨nofun, ?_⟩
        rintro ⟨_, _, _, _, _, ⟨⟩, _⟩
      | some found =>
        obtain ⟨head, headRoot⟩ := found
        refine (continuous_branches_iff root.records).trans
          ⟨fun h => ⟨footer, head, headRoot, rfl, hsigned, rfl, h⟩, ?_⟩
        rintro ⟨_, _, _, ⟨⟩, _, ⟨⟩, h⟩
        exact h
    · dsimp only
      rw [if_pos (by simpa using hsigned)]
      refine ⟨nofun, fun ⟨footer', _, _, hfooter', hsigned', _⟩ => ?_⟩
      cases hfooter'
      exact absurd hsigned' hsigned

/-- The records of the local identity with this sequence. -/
def localAt (c : Crypto) (identity : Ed25519PublicKey) (sequence : Nat)
    (entries : List DirectoryEntry) : List (Bytes × AnchorRecord) :=
  (claimsAt sequence entries).filter fun x => signedBy c identity x.2.commit

/-- What the walk asks for besides the chain: a head that is not the last sequence, at most 1024 links,
at most 8192 entries, and no second local record at a position of the chain. -/
structure WithinLimits (c : Crypto) (identity : Ed25519PublicKey) (entries : List DirectoryEntry)
    (first head : Nat) : Prop where
  fits : head + 1 < 2 ^ 64
  steps : head - first ≤ maxAnchorSteps
  scan : entries.length ≤ maxAnchorScan
  single : ∀ n, first < n → n ≤ head → (localAt c identity n entries).length = 1

end

/-! ## A directory of the fixed pair -/

/-- The contents that the session of one side has before its footer. -/
def plainContents (p : AuditRole) : Bytes :=
  AuditContainerHeader.codec.enc ((plainFacts p).buildHeader .transparent)

def plainManifest : JointManifest :=
  (AuditSession.start (plainFacts .controller)).manifestFor .transparent (.shellExit 0) true

/-- The file of one side with its commit at a position of the ledger, and its record. -/
def plainRecordFile (p : AuditRole) (sequence : UInt64) (previousRoot : Digest32) : Bytes :=
  plainContents p ++ (AuditSession.start (plainFacts p)).footerBytes .transparent (plainContents p)
    plainManifest (FixedBytes.replicate 64 0) (FixedBytes.replicate 64 0) sequence previousRoot

def plainFooter (p : AuditRole) (sequence : UInt64) (previousRoot : Digest32) : FooterFacts :=
  sessionFooter .transparent (AuditSession.start (plainFacts p)) (plainContents p) plainManifest
    (FixedBytes.replicate 64 0) (FixedBytes.replicate 64 0) sequence previousRoot

def plainEntry (p : AuditRole) (sequence : UInt64) (previousRoot : Digest32) : DirectoryEntry :=
  ⟨true, some (plainRecordFile p sequence previousRoot)⟩

def plainIdentity (p : AuditRole) : Ed25519PublicKey := (plainSession p).identityPubkey .transparent

theorem record_plainEntry (p : AuditRole) (sequence : UInt64) (previousRoot : Digest32) :
    ∃ record : AnchorRecord, (plainEntry p sequence previousRoot).record =
        some (plainRecordFile p sequence previousRoot, record) ∧
      record.commit = (plainFooter p sequence previousRoot).commit ∧
      LocalRecord .transparent (plainIdentity p) (plainRecordFile p sequence previousRoot, record) := by
  have hinspect : inspectAnchorRecord (plainRecordFile p sequence previousRoot) = some _ :=
    inspectAnchorRecord_footer rfl
  exact ⟨_, record_of_inspect hinspect, rfl,
    localRecord_footer (s := AuditSession.start (plainFacts p))⟩

/-- The root of the ledger after the first commit of the controller, and after the second. -/
def plainFirstRoot : Digest32 := ledgerRootOf .transparent (plainFooter .controller 1 zeroHead).commit

def plainSecondRoot : Digest32 :=
  ledgerRootOf .transparent (plainFooter .controller 2 plainFirstRoot).commit

/-- The controller's audit root with its head at the second commit. -/
def plainRoot (entries : List DirectoryEntry) : AuditRoot :=
  ⟨some (encodeLedgerState .transparent (2, plainSecondRoot)), some entries⟩

/-- The file of one side, as the walk of a complete file gives it, with the first commit. -/
def plainVerified (p : AuditRole) : VerifiedFile where
  file := plainRecordFile p 1 zeroHead
  chain := .new ((plainFacts p).buildHeader .transparent) ((plainSession p).hello .transparent)
  footer := some (plainFooter p 1 zeroHead)
  truncatedTail := false

theorem localLink_plain (h : plainEntry .controller 2 plainFirstRoot ∈ entries) :
    LocalLink .transparent (plainIdentity .controller) entries 2 plainSecondRoot plainFirstRoot := by
  obtain ⟨record, hrecord, hcommit, hlocal⟩ := record_plainEntry .controller 2 plainFirstRoot
  refine ⟨_, ⟨_, h, hrecord⟩, ?_, ?_, ?_, hlocal⟩
  · rw [hcommit]
    rfl
  · rw [hcommit]
    rfl
  · rw [hcommit]
    rfl

theorem linked_plain (h : plainEntry .controller 2 plainFirstRoot ∈ entries) :
    Linked (LocalLink .transparent (plainIdentity .controller) entries) 1 plainFirstRoot 2
      plainSecondRoot :=
  .step .refl (localLink_plain h)

theorem claimsAt_replicate {e : DirectoryEntry} {x : Bytes × AnchorRecord}
    (hrecord : e.record = some x) (hseq : x.2.commit.sequence.toNat = n) (copies : Nat) :
    claimsAt n (List.replicate copies e) = List.replicate copies x := by
  induction copies with
  | zero => rfl
  | succ copies ih =>
    rw [List.replicate_succ, List.replicate_succ, ← ih]
    simp only [claimsAt, List.filterMap_cons, hrecord, Option.filter_some,
      if_pos (decide_eq_true hseq)]

theorem claimsAt_plain (hn : n = 2) (copies : Nat) :
    (claimsAt n (List.replicate copies (plainEntry .controller 2 plainFirstRoot))).length = copies ∧
      (localAt .transparent (plainIdentity .controller) n
        (List.replicate copies (plainEntry .controller 2 plainFirstRoot))).length = copies := by
  obtain ⟨record, hrecord, hcommit, hlocal⟩ := record_plainEntry .controller 2 plainFirstRoot
  have hseq : record.commit.sequence.toNat = n := by
    rw [hcommit, hn]
    rfl
  have hfilter : ∀ x ∈ List.replicate copies (plainRecordFile .controller 2 plainFirstRoot, record),
      signedBy .transparent (plainIdentity .controller) x.2.commit = true := by
    intro x hx
    rw [List.eq_of_mem_replicate hx]
    exact hlocal.signed
  rw [localAt, claimsAt_replicate hrecord hseq, List.filter_eq_self.2 hfilter, List.length_replicate]
  exact ⟨rfl, rfl⟩

theorem signedBy_plain : signedBy .transparent (plainIdentity .controller)
    (plainFooter .controller 1 zeroHead).commit = true :=
  Crypto.transparent.verify_sign _ _

end Yonder.Audit
