import Yonder.Audit.Anchor

/-!
# Files that are added to the records directory

Adding files without a commit of the local identity should not change the result of anchoring. A scan
compares the sequence and the root of a record before it looks at the signature, so an added file that
carries a foreign commit with a sequence of the chain ends the walk. `anchorPair_added_iff` is the
exact condition: nothing changes unless a pair was anchored by a walk, and then the added files must
leave every position of the walk and the scan limit alone. The order of the enumeration is free.
-/

namespace Yonder.Audit

open Lib Wire

section

variable {c : Crypto} {identity : Ed25519PublicKey} {entries entries' added : List DirectoryEntry}

/-- No record among the entries carries a commit that the local identity has signed. -/
def Foreign (c : Crypto) (identity : Ed25519PublicKey) (added : List DirectoryEntry) : Prop :=
  ∀ e ∈ added, ∀ x, e.record = some x → signedBy c identity x.2.commit = false

/-- The added entries carry no sequence above `first` up to `head`, and the directory stays within the
scan limit. -/
structure Undisturbed (entries' added : List DirectoryEntry) (first head : Nat) : Prop where
  scan : entries'.length ≤ maxAnchorScan
  outside : ∀ e ∈ added, ∀ x, e.record = some x →
    ¬ (first < x.2.commit.sequence.toNat ∧ x.2.commit.sequence.toNat ≤ head)

theorem length_claimsAt_added (hperm : entries'.Perm (entries ++ added)) (n : Nat) :
    (claimsAt n entries').length = (claimsAt n entries).length + (claimsAt n added).length := by
  rw [claimsAt, (hperm.filterMap _).length_eq, List.filterMap_append, List.length_append]
  rfl

/-- Foreign entries make no link. -/
theorem localLink_added (hperm : entries'.Perm (entries ++ added)) (hforeign : Foreign c identity added)
    (n : Nat) (root previous : Digest32) :
    LocalLink c identity entries' n root previous ↔ LocalLink c identity entries n root previous := by
  constructor
  · rintro ⟨x, ⟨e, he, hx⟩, hseq, hroot, hprevious, hlocal⟩
    refine ⟨x, ⟨e, ?_, hx⟩, hseq, hroot, hprevious, hlocal⟩
    rcases List.mem_append.1 (hperm.mem_iff.1 he) with hold | hnew
    · exact hold
    · have hunsigned := hforeign e hnew x hx
      rw [hlocal.signed] at hunsigned
      cases hunsigned
  · rintro ⟨x, ⟨e, he, hx⟩, hrest⟩
    exact ⟨x, ⟨e, hperm.mem_iff.2 (List.mem_append_left _ he), hx⟩, hrest⟩

/-- A position where a link exists has no room for an added record. -/
theorem claimsAt_added_eq_nil {n : Nat} {root previous : Digest32}
    (hlink : LocalLink c identity entries n root previous)
    (hperm : entries'.Perm (entries ++ added)) (hsingle : (claimsAt n entries').length = 1) :
    (claimsAt n entries).length = 1 ∧ claimsAt n added = [] := by
  obtain ⟨x, hentry, hseq, -⟩ := hlink
  have hpos := List.length_pos_of_mem (mem_claimsAt.2 ⟨hentry, hseq⟩)
  rw [length_claimsAt_added hperm] at hsingle
  exact ⟨by omega, List.length_eq_zero_iff.1 (by omega)⟩

theorem walks_added_iff {commit : LedgerCommit} {head : Nat} {headRoot : Digest32}
    (hperm : entries'.Perm (entries ++ added)) (hforeign : Foreign c identity added) :
    Walks c identity entries' commit head headRoot ↔
      Walks c identity entries commit head headRoot ∧
        Undisturbed entries' added commit.sequence.toNat head := by
  have hchain : Linked (LocalLink c identity entries') commit.sequence.toNat (ledgerRootOf c commit)
      head headRoot ↔ Linked (LocalLink c identity entries) commit.sequence.toNat
        (ledgerRootOf c commit) head headRoot :=
    Linked.congr fun n _ _ => localLink_added hperm hforeign n
  have hlength : entries.length ≤ entries'.length := by
    rw [hperm.length_eq, List.length_append]
    omega
  constructor
  · intro h
    have hlinked := hchain.1 h.chain
    have hat : ∀ n, commit.sequence.toNat < n → n ≤ head →
        (claimsAt n entries).length = 1 ∧ claimsAt n added = [] := by
      intro n hlt hle
      obtain ⟨root, previous, hlink⟩ := hlinked.exists_link hlt hle
      exact claimsAt_added_eq_nil hlink hperm (h.single n hlt hle)
    refine ⟨⟨h.below, h.steps, Nat.le_trans hlength h.scan, hlinked,
      fun n hlt hle => (hat n hlt hle).1⟩, h.scan, ?_⟩
    intro e he x hx ⟨hlt, hle⟩
    have hmem : x ∈ claimsAt x.2.commit.sequence.toNat added := mem_claimsAt.2 ⟨⟨e, he, hx⟩, rfl⟩
    rw [(hat _ hlt hle).2] at hmem
    cases hmem
  · rintro ⟨h, hundisturbed⟩
    refine ⟨h.below, h.steps, hundisturbed.scan, hchain.2 h.chain, ?_⟩
    intro n hlt hle
    have hnone : claimsAt n added = [] := by
      refine List.eq_nil_iff_forall_not_mem.2 fun x hx => ?_
      obtain ⟨⟨e, he, hrecord⟩, rfl⟩ := mem_claimsAt.1 hx
      exact hundisturbed.outside e he x hrecord ⟨hlt, hle⟩
    rw [length_claimsAt_added hperm, hnone, h.single n hlt hle]
    rfl

theorem anchoredAt_added_iff {commit : LedgerCommit} {head : UInt64} {headRoot : Digest32}
    (hperm : entries'.Perm (entries ++ added)) (hforeign : Foreign c identity added) :
    AnchoredAt c identity (some entries') commit head headRoot ↔
      AnchoredAt c identity (some entries) commit head headRoot ∧
        (commit.sequence.toNat < head.toNat →
          Undisturbed entries' added commit.sequence.toNat head.toNat) := by
  constructor
  · rintro (⟨hsame, hroot⟩ | ⟨hfits, hnext, hprevious⟩ | ⟨hfits, hentries, hwalks⟩)
    · exact ⟨.atHead hsame hroot, fun hlt => absurd (hsame ▸ hlt) (Nat.lt_irrefl _)⟩
    · refine ⟨.pending hfits hnext hprevious, fun hlt => ?_⟩
      rw [hnext, toNat_succ_of_fits hfits] at hlt
      omega
    · cases hentries
      obtain ⟨hold, hundisturbed⟩ := (walks_added_iff hperm hforeign).1 hwalks
      exact ⟨.below hfits rfl hold, fun _ => hundisturbed⟩
  · rintro ⟨⟨hsame, hroot⟩ | ⟨hfits, hnext, hprevious⟩ | ⟨hfits, hentries, hwalks⟩, hundisturbed⟩
    · exact .atHead hsame hroot
    · exact .pending hfits hnext hprevious
    · cases hentries
      exact .below hfits rfl
        ((walks_added_iff hperm hforeign).2 ⟨hwalks, hundisturbed hwalks.below⟩)

/-- If the file's commit is below the head, the added files leave its chain alone. -/
def KeepsChain (c : Crypto) (state : Option Bytes) (entries' added : List DirectoryEntry)
    (file : VerifiedFile) : Prop :=
  ∀ footer head headRoot, file.footer = some footer →
    readLedgerHead c ⟨state, some entries'⟩ = some (head, headRoot) →
    footer.commit.sequence.toNat < head.toNat →
    Undisturbed entries' added footer.commit.sequence.toNat head.toNat

theorem onLedger_added_iff {state : Option Bytes} {file : VerifiedFile}
    (hperm : entries'.Perm (entries ++ added)) (hforeign : Foreign c identity added) :
    OnLedger c identity ⟨state, some entries'⟩ file ↔
      OnLedger c identity ⟨state, some entries⟩ file ∧ KeepsChain c state entries' added file := by
  constructor
  · rintro ⟨footer, head, headRoot, hfooter, hsigned, hhead, hanchored⟩
    obtain ⟨hold, hkeeps⟩ := (anchoredAt_added_iff hperm hforeign).1 hanchored
    refine ⟨⟨footer, head, headRoot, hfooter, hsigned, hhead, hold⟩, ?_⟩
    intro footer' head' headRoot' hfooter' hhead' hlt
    cases hfooter.symm.trans hfooter'
    cases hhead.symm.trans hhead'
    exact hkeeps hlt
  · rintro ⟨⟨footer, head, headRoot, hfooter, hsigned, hhead, hanchored⟩, hkeeps⟩
    exact ⟨footer, head, headRoot, hfooter, hsigned, hhead,
      (anchoredAt_added_iff hperm hforeign).2 ⟨hanchored, hkeeps footer head headRoot hfooter hhead⟩⟩

/-- The file is on the ledger, and its embedded identity is the local one. -/
def LocalOnLedger (c : Crypto) (identity : Ed25519PublicKey) (root : AuditRoot) (file : VerifiedFile) :
    Prop :=
  c.sha256 file.chain.header.identityPubkey.1 = c.sha256 identity.1 ∧ OnLedger c identity root file

theorem any_ledgerContinuous_iff (chunk : Nat → Nat) {root : AuditRoot} {files : List VerifiedFile} :
    ((files.filter fun f => decide (c.sha256 f.chain.header.identityPubkey.1 = c.sha256 identity.1)).any
        (ledgerContinuous c chunk root identity)) = true ↔
      ∃ f ∈ files, LocalOnLedger c identity root f := by
  simp only [List.any_eq_true, List.mem_filter, decide_eq_true_eq, ledgerContinuous_iff, LocalOnLedger,
    and_assoc]

theorem ledgerContinuous_anchorPair {chunk : Nat → Nat} {root : AuditRoot}
    {controller host : VerifiedFile} :
    (anchorPair c (anchorLookup c chunk root identity) controller host).ledgerContinuous = true ↔
      ∃ f ∈ [controller, host], LocalOnLedger c identity root f := by
  rw [← any_ledgerContinuous_iff chunk]
  simp only [anchorPair, anchorLookup]
  split_ifs with hany
  · exact ⟨fun _ => hany, fun _ => rfl⟩
  · exact ⟨nofun, fun h => absurd h hany⟩

/-- The report of `anchor_pair` depends on the audit root only through this: whether one of the two
files is the local machine's and on its ledger. -/
theorem anchorPair_eq_iff {chunk chunk' : Nat → Nat} {root root' : AuditRoot}
    {controller host : VerifiedFile} :
    anchorPair c (anchorLookup c chunk' root' identity) controller host =
        anchorPair c (anchorLookup c chunk root identity) controller host ↔
      ((∃ f ∈ [controller, host], LocalOnLedger c identity root' f) ↔
        ∃ f ∈ [controller, host], LocalOnLedger c identity root f) := by
  rw [← any_ledgerContinuous_iff chunk', ← any_ledgerContinuous_iff chunk]
  simp only [anchorPair, anchorLookup]
  split_ifs with hnew hold hold
  · simp only [hnew, hold]
  · simp only [hnew, hold, AnchorReport.mk.injEq]
    simp
  · simp only [hnew, hold, AnchorReport.mk.injEq]
    simp
  · simp only [hnew, hold]

end

/-! ## A foreign file in the directory of the fixed pair -/

/-- The record of the controller's second commit alone, and with a file of the host beside it. -/
def plainDirectory : List DirectoryEntry := [plainEntry .controller 2 plainFirstRoot]

def plainBeside (sequence : UInt64) : List DirectoryEntry :=
  [plainEntry .controller 2 plainFirstRoot, plainEntry .host sequence zeroHead]

theorem localOnLedger_plain : LocalOnLedger .transparent (plainIdentity .controller)
    (plainRoot plainDirectory) (plainVerified .controller) := by
  refine ⟨rfl, plainFooter .controller 1 zeroHead, 2, plainSecondRoot, rfl, signedBy_plain,
    readLedgerHead_encode _ _ _, .below (by decide) rfl ⟨by decide, by decide, by decide, ?_, ?_⟩⟩
  · exact linked_plain List.mem_cons_self
  · intro n (hlt : 1 < n) (hle : n ≤ 2)
    exact (claimsAt_plain (by omega) 1).1

theorem foreign_plain (sequence : UInt64)
    (h : signedBy .transparent (plainIdentity .controller) (plainFooter .host sequence zeroHead).commit =
      false) :
    Foreign .transparent (plainIdentity .controller) [plainEntry .host sequence zeroHead] := by
  obtain ⟨record, hrecord, hcommit, -⟩ := record_plainEntry .host sequence zeroHead
  intro e he x hx
  cases List.mem_singleton.1 he
  cases hrecord.symm.trans hx
  rw [hcommit]
  exact h

end Yonder.Audit
