import Yonder.Audit.Domains
import Yonder.Audit.Run
import Yonder.Lib.Chunk

/-!
# The shared chains as functions of what was recorded

`SharedChain.extendInput` and `SharedChain.extendOutput` fold the blocks of a byte stream into its
chain, and `Normalizer.chunked_feed` says that the segments in which the bytes arrived do not matter
for the blocks. Where no two hashed strings collide, equal chains have equal events.
-/

namespace Yonder.Audit

open Lib Wire

/-! ## Chains as functions of the facts -/

section

variable (c : Crypto)

/-- One event on a chain. -/
def SharedChain.extend (chain : SharedChain) (direction : UInt8) (e : SharedEvent) : SharedChain :=
  ⟨chain.count + 1, sharedEventHash c chain.head direction (chain.count + 1) e⟩

/-- The input event of a block at the end of a chain. -/
def inputEventAt (inputKey : Digest32) (chain : SharedChain) (block : Bytes) : SharedEvent :=
  let length := UInt64.ofNat block.length
  .input length (c.hmac inputKey (chainDomain .input ++ (directionCtrlToHost ::
    (Codec.u64.enc (chain.count + 1) ++ (Codec.u64.enc length ++ block)))))

def SharedChain.extendInput (inputKey : Digest32) (chain : SharedChain) (block : Bytes) :
    SharedChain :=
  chain.extend c directionCtrlToHost (inputEventAt c inputKey chain block)

def SharedChain.extendOutput (chain : SharedChain) (block : Bytes) : SharedChain :=
  chain.extend c directionHostToCtrl (AuditSession.outputEvent c block)

end

/-! ## The normalizer -/

/-- A segment continues the partial block: the completed blocks and the new partial block are the
decomposition of the old partial block and the segment. -/
theorem Normalizer.chunked_feed {n : Normalizer} (hn : n.buffer.length < canonicalBlockLen)
    (bytes : Bytes) :
    Chunked canonicalBlockLen (n.buffer ++ bytes) (n.feed bytes).1 (n.feed bytes).2 := by
  have hL : 0 < canonicalBlockLen := by decide
  unfold Normalizer.feed Normalizer.wholeBlocks
  generalize canonicalBlockLen = L at *
  -- filling the partial block takes one block off the front
  have hfill : L ≤ bytes.length + n.buffer.length →
      Chunked L (n.buffer ++ bytes.take (L - n.buffer.length))
        [n.buffer ++ bytes.take (L - n.buffer.length)] [] := by
    intro hle
    refine ⟨by simp, ?_, hL⟩
    simp only [List.mem_singleton, forall_eq, List.length_append, List.length_take]
    omega
  split
  · rename_i hlong
    split
    · have hrest := chunked_blocks hL (bytes.drop (L - n.buffer.length))
      have hall := (hfill (by omega)).append (y := bytes.drop (L - n.buffer.length)) hrest
      rw [List.append_assoc, List.take_append_drop] at hall
      exact hall
    · rename_i hempty
      have hnil : n.buffer = [] := List.eq_nil_of_length_eq_zero (by omega)
      rw [hnil]
      exact chunked_blocks hL bytes
  · rename_i hshort
    split
    · rename_i hle
      have htail : (bytes.drop (L - n.buffer.length)).length < L := by
        rw [List.length_drop]
        omega
      have hempty : Chunked L ([] ++ bytes.drop (L - n.buffer.length)) []
          (bytes.drop (L - n.buffer.length)) := ⟨by simp, by simp, htail⟩
      have hall := (hfill hle).append hempty
      rw [List.append_assoc, List.take_append_drop] at hall
      exact hall
    · rename_i hlt
      refine ⟨by simp, by simp, ?_⟩
      rw [List.length_append]
      omega

/-! ## What the recording calls do to the chains -/

/-- Nothing that the facts determine has changed. -/
structure SameShared (s s' : AuditSession) : Prop where
  shared_eq : s'.shared = s.shared
  input_eq : s'.inputNormalizer = s.inputNormalizer
  output_eq : s'.outputNormalizer = s.outputNormalizer
  facts_eq : s'.facts = s.facts

/-! ## The events behind a snapshot -/

/-- Shared events with their directions, the newest first. -/
abbrev EventLog := List (UInt8 × SharedEvent)

section

variable (c : Crypto)

def chainOf : EventLog → SharedChain
  | [] => ⟨0, zeroHead⟩
  | (direction, e) :: log => (chainOf log).extend c direction e

/-- The strings hashed for the chain. -/
def hashedOf : EventLog → List Bytes
  | [] => []
  | (direction, e) :: log =>
    sharedEventPreimage (chainOf c log).head direction ((chainOf c log).count + 1) e :: hashedOf log

/-- The session that has committed events, on any of the streams. -/
def committed (facts : SessionFacts) : EventLog → AuditSession
  | [] => .start facts
  | (direction, e) :: log => ((committed facts log).commitShared c direction e).1

end

def onStream (stream : SharedStream) (log : EventLog) : EventLog := log.filter (·.2.stream = stream)

/-- Payloads and names are as the code builds them. -/
def EventsBuilt (log : EventLog) : Prop :=
  ∀ x ∈ log, (Hashed.sharedEvent zeroHead 0 0 x.2 : Hashed Unit).Built

variable {c : Crypto} {log log' : EventLog}

theorem count_chainOf : (chainOf c log).count = UInt64.ofNat log.length := by
  induction log with
  | nil => rfl
  | cons x log ih =>
    rw [List.length_cons, UInt64.ofNat_add, ← ih]
    rfl

/-- The streams do not meet. -/
theorem shared_committed (facts : SessionFacts) (stream : SharedStream) :
    (committed c facts log).shared stream = chainOf c (onStream stream log) := by
  induction log with
  | nil => rfl
  | cons x log ih =>
    simp only [committed, AuditSession.commitShared, AuditSession.nextSharedRecord, onStream]
    by_cases hstream : x.2.stream = stream
    · subst hstream
      rw [List.filter_cons_of_pos (by simp), Function.update_self, ih]
      rfl
    · rw [List.filter_cons_of_neg (by simpa using hstream), Function.update_of_ne (Ne.symm hstream),
        ih, onStream]

theorem CollisionFree.mono {inputs inputs' : List Bytes} (h : CollisionFree c inputs')
    (hsub : inputs ⊆ inputs') : CollisionFree c inputs :=
  fun x hx y hy => h x (hsub hx) y (hsub hy)

theorem eq_of_chainOf_eq (hb : EventsBuilt log) (hb' : EventsBuilt log')
    (hfree : CollisionFree c (hashedOf c log ++ hashedOf c log'))
    (hlength : log.length = log'.length) (hhead : (chainOf c log).head = (chainOf c log').head) :
    log = log' := by
  induction log generalizing log' with
  | nil => exact (List.length_eq_zero_iff.1 hlength.symm).symm
  | cons x log ih =>
    cases log' with
    | nil => cases hlength
    | cons x' log' =>
      -- the strings hashed last are equal, and with them the heads that stand in them
      have hbytes := hfree _ (List.mem_append_left _ List.mem_cons_self) _
        (List.mem_append_right _ List.mem_cons_self) hhead
      obtain ⟨hdomain, hbody⟩ := @Domain.eq_of_append_eq (.chain x.2.stream) (.chain x'.2.stream)
        _ _ hbytes
      obtain ⟨hprevious, hdirection, -, hevent⟩ := Hashed.sharedBody_inj hbody
      have hx := Hashed.event_inj (hb x List.mem_cons_self) (hb' x' List.mem_cons_self)
        (Domain.chain.inj hdomain) hevent
      have hsub : hashedOf c log ++ hashedOf c log' ⊆
          hashedOf c (x :: log) ++ hashedOf c (x' :: log') :=
        ((List.sublist_cons_self _ _).append (List.sublist_cons_self _ _)).subset
      rw [Prod.ext hdirection hx, ih (List.forall_mem_cons.1 hb).2 (List.forall_mem_cons.1 hb').2
        (hfree.mono hsub) (Nat.succ.inj hlength) hprevious]

/-- A snapshot determines the chains. -/
theorem shared_of_snapshot {s s' : AuditSession} (h : s.sharedSnapshot = s'.sharedSnapshot)
    (stream : SharedStream) : s.shared stream = s'.shared stream := by
  simp only [AuditSession.sharedSnapshot, SharedSnapshot.ofFun, SharedSnapshot.mk.injEq,
    StreamSnapshot.mk.injEq] at h
  obtain ⟨hinput, houtput, hcontrol, hfile⟩ := h
  cases stream with
  | input => exact congrArg₂ SharedChain.mk hinput.1 hinput.2
  | output => exact congrArg₂ SharedChain.mk houtput.1 houtput.2
  | control => exact congrArg₂ SharedChain.mk hcontrol.1 hcontrol.2
  | fileTransfer => exact congrArg₂ SharedChain.mk hfile.1 hfile.2

/-- Equal chains of fewer than `2 ^ 64` events have equal events. -/
theorem eq_of_chains_eq (hb : EventsBuilt log) (hb' : EventsBuilt log') (hlength : log.length < 2 ^ 64)
    (hlength' : log'.length < 2 ^ 64) (hfree : CollisionFree c (hashedOf c log ++ hashedOf c log'))
    (h : chainOf c log = chainOf c log') : log = log' := by
  have hcount := congrArg SharedChain.count h
  rw [count_chainOf, count_chainOf, ← UInt64.toNat_inj, UInt64.toNat_ofNat_of_lt' hlength,
    UInt64.toNat_ofNat_of_lt' hlength'] at hcount
  exact eq_of_chainOf_eq hb hb' hfree hcount (congrArg SharedChain.head h)

/-- Two sessions commit events, each in any order of the streams. If their snapshots are equal and no
two of the strings hashed for a stream collide, they have the same events on it, in the same order. -/
theorem events_of_snapshot (facts facts' : SessionFacts) (stream : SharedStream)
    (hb : EventsBuilt log) (hb' : EventsBuilt log') (hlength : log.length < 2 ^ 64)
    (hlength' : log'.length < 2 ^ 64)
    (hfree : CollisionFree c (hashedOf c (onStream stream log) ++ hashedOf c (onStream stream log')))
    (h : (committed c facts log).sharedSnapshot = (committed c facts' log').sharedSnapshot) :
    onStream stream log = onStream stream log' := by
  have hchain := shared_of_snapshot h stream
  rw [shared_committed, shared_committed] at hchain
  exact eq_of_chains_eq (fun x hx => hb x (List.mem_of_mem_filter hx))
    (fun x hx => hb' x (List.mem_of_mem_filter hx)) ((List.length_filter_le _ _).trans_lt hlength)
    ((List.length_filter_le _ _).trans_lt hlength') hfree hchain

/-- Two sessions that record a block of output and the ready of the terminal in either order. -/
theorem events_of_snapshot_reordered :
    onStream .control [(2, .control controlKindTerminalReady []), (2, .output 0 zeroHead)] =
      onStream .control [(2, .output 0 zeroHead), (2, .control controlKindTerminalReady [])] := by
  refine events_of_snapshot (c := .transparent) (plainFacts .controller) (plainFacts .host) .control
    ?_ ?_ (by decide) (by decide) (by decide +kernel) (by decide +kernel)
  all_goals
    rintro x (_ | ⟨_, _ | ⟨_, ⟨⟩⟩⟩)
    all_goals trivial

end Yonder.Audit
