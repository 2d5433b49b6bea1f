import ActionLineage.Contracts.Validation
import ActionLineage.Domain.Documents
import ActionLineage.Journal.Append

/-!
# What a contract's integrity requirement binds

The requirement compares two summary values of the supplied events with the verification result.
It never recomputes a hash of the events, so any events with the right number and the right last
hash pass. They are the events of the journal exactly when they are a hash chain of their own
(`integrity_binding_iff`).
-/

namespace ActionLineage

open Py Contracts

variable {P : Platform}

/-- The events are written as the same documents, one by one. -/
def SameDocuments (P : Platform) (as bs : List EventEnvelope) : Prop :=
  List.Forall₂ (SameDocument P) as bs

/-- If a contract that requires the hash chain reports no violation of journal integrity over the
events, they are the events of the snapshot. -/
def IntegrityBinds (P : Platform) (s : VerifiedJournalSnapshot) (events : List EventEnvelope) :
    Prop :=
  ∀ contract detections result, contract.hashChainRequired = true →
    validateContract P events contract detections (some s.verification) = .ok result →
    (∀ v ∈ result.violations, v.code.isJournalIntegrity = false) → SameDocuments P events s.events

/-- The event states its own hash. -/
def StatesHash (P : Platform) (e : EventEnvelope) : Prop :=
  ∃ h, e.integrity.eventHash = some h ∧ computeEventHash P e = .ok h

/-- The events are a hash chain: each names the hash of the one before it and states its own. -/
def IsHashChain (P : Platform) (events : List EventEnvelope) : Prop :=
  HashChain.Linked (fun e : EventEnvelope => e.integrity.previousEventHash)
    (fun e => e.integrity.eventHash) none events ∧ ∀ e ∈ events, StatesHash P e

/-! ## The requirement -/

theorem isJournalIntegrity_of_mem {events : List EventEnvelope}
    {verification : Option VerificationResult} {v : ContractViolation}
    (hv : v ∈ validateJournalIntegrityRequirement events verification) :
    v.code.isJournalIntegrity = true := by
  unfold validateJournalIntegrityRequirement at hv
  split at hv
  · rw [List.mem_singleton.mp hv]
    rfl
  · split at hv
    · rw [List.mem_singleton.mp hv]
      rfl
    split at hv
    · rw [List.mem_singleton.mp hv]
      rfl
    split at hv
    · rw [List.mem_singleton.mp hv]
      rfl
    · cases hv

theorem validateJournalIntegrityRequirement_eq_nil {events : List EventEnvelope}
    {verification : VerificationResult} (hok : verification.ok = true) :
    validateJournalIntegrityRequirement events (some verification) = [] ↔
      verification.recordsVerified = events.length ∧
        verification.lastEventHash = events.getLast?.bind (·.integrity.eventHash) := by
  unfold validateJournalIntegrityRequirement
  simp only [hok, Bool.not_true, Bool.false_eq_true, if_false, bne_iff_ne]
  split
  · simp_all
  · rename_i hlen
    split
    · simp_all
    · simp_all

/-- A result without a violation of journal integrity has passed the requirement. -/
theorem integrity_of_validateContract {events : List EventEnvelope} {contract : LineageContract}
    {detections : List DetectionMatch} {verification : Option VerificationResult}
    {result : ContractResult} (hrequired : contract.hashChainRequired = true)
    (h : validateContract P events contract detections verification = .ok result)
    (hnone : ∀ v ∈ result.violations, v.code.isJournalIntegrity = false) :
    validateJournalIntegrityRequirement events verification = [] := by
  unfold validateContract at h
  obtain ⟨objects, -, h⟩ := bind_eq_ok.mp h
  obtain ⟨required, -, h⟩ := bind_eq_ok.mp h
  obtain ⟨relationships, -, h⟩ := bind_eq_ok.mp h
  obtain ⟨evidenceLinks, -, h⟩ := bind_eq_ok.mp h
  obtain ⟨latencies, -, h⟩ := bind_eq_ok.mp h
  obtain ⟨descriptors, -, h⟩ := bind_eq_ok.mp h
  obtain rfl := Except.ok.inj h
  rw [List.eq_nil_iff_forall_not_mem]
  intro v hv
  have hmem := hnone v (by simp [hrequired, hv])
  rw [isJournalIntegrity_of_mem hv] at hmem
  cases hmem

/-- A contract that requires nothing but the hash chain. -/
def hashChainContract : LineageContract := { name := lit "hash-chain", events := [] }

theorem validateContract_hashChainContract {events : List EventEnvelope}
    {verification : Option VerificationResult}
    (hobjects : ∀ e ∈ events, ∃ o, eventToDict P e = .ok o)
    (hpass : validateJournalIntegrityRequirement events verification = []) :
    validateContract P events hashChainContract [] verification =
      .ok { contractName := lit "hash-chain", ok := true, violations := [] } := by
  obtain ⟨objects, hrel, -⟩ := @exists_forall₂ _ _ (fun e o => eventToDict P e = .ok o)
    (fun _ => True) events fun e he => (hobjects e he).imp fun o ho => ⟨ho, trivial⟩
  refine bind_eq_ok.mpr ⟨objects, mapM_eq_ok.mpr hrel, ?_⟩
  simp only [hashChainContract, hpass]
  rfl

/-! ## When it binds -/

/-- Hash chains with the snapshot's length and terminal hash are its events. -/
theorem sameDocuments_of_isHashChain (hinj : Function.Injective P.sha256Hex) {content : Content}
    {es events : List EventEnvelope} (hv : Verified P content es) (hchain : IsHashChain P events)
    (hlen : events.length = es.length)
    (hlast : events.getLast?.bind (·.integrity.eventHash) = terminalHash none es) :
    SameDocuments P events es := by
  have hes : ∀ e ∈ es, StatesHash P e ∧ ∃ doc, serializeEvent P e = .ok doc :=
    fun e he => ⟨(hv.forall_event e he).2, hv.serializes e he⟩
  refine HashChain.forall₂_of_terminal_eq _ _ (fun a b ha hb hab => ?_)
    (fun a b hab => ?_) hchain.1 hv.linked hchain.2 hes hlen ?_
  · obtain ⟨h, hself, hhash⟩ := ha
    obtain ⟨⟨h', hself', hhash'⟩, hwritten⟩ := hb
    obtain rfl : h = h' := by
      have : some h = some h' := by rw [← hself, hab, hself']
      exact Option.some.inj this
    exact sameDocument_of_computeEventHash hinj hhash hhash' hab hwritten
  · exact congrArg IntegrityMetadata.previousEventHash (SameDocument.integrity hab).1
  · rw [HashChain.terminal_none]
    exact hlast

/-- Events written as the documents of a hash chain are a hash chain. -/
theorem IsHashChain.of_sameDocuments {as bs : List EventEnvelope} (hdocs : SameDocuments P as bs)
    (hchain : IsHashChain P bs) : IsHashChain P as := by
  obtain ⟨hlinked, hself⟩ := hchain
  refine ⟨?_, ?_⟩
  · generalize (none : Option Text) = start at hlinked ⊢
    clear hself
    induction hdocs generalizing start with
    | nil => trivial
    | @cons a b as bs hab _ ih =>
      obtain ⟨hprev, hrest⟩ := hlinked
      have hint := hab.integrity.1
      constructor
      · show a.integrity.previousEventHash = start
        rw [hint]
        exact hprev
      · show HashChain.Linked _ _ a.integrity.eventHash as
        rw [hint]
        exact ih _ hrest
  · intro a ha
    obtain ⟨b, hb, hab⟩ := forall₂_mem_left hdocs ha
    obtain ⟨h, hstated, hhash⟩ := hself b hb
    obtain ⟨hint, hsame⟩ := hab.integrity
    exact ⟨h, by rw [hint, hstated], (hsame h).mpr hhash⟩

/-- The requirement binds the events to a verified snapshot exactly when validation raises on an
event, one of the two compared values differs, or the events are a hash chain. -/
theorem integrity_binding_iff (hinj : Function.Injective P.sha256Hex) {content : Content}
    {s : VerifiedJournalSnapshot} (hs : verifiedJournalSnapshot P content none .null = .ok s)
    (hok : s.ok = true) (events : List EventEnvelope) :
    IntegrityBinds P s events ↔
      (∃ e ∈ events, ∀ o, eventToDict P e ≠ .ok o) ∨ events.length ≠ s.recordCount ∨
        events.getLast?.bind (·.integrity.eventHash) ≠ s.terminalHash ∨ IsHashChain P events := by
  obtain ⟨es, hv, rfl⟩ := snapshot_ok_iff.mp ⟨hs, hok⟩
  constructor
  · intro hbinds
    by_contra hno
    simp only [not_or, not_exists, not_and, not_forall, not_not, ne_eq] at hno
    obtain ⟨hobjects, hlen, hlast, hchain⟩ := hno
    have hpass := (validateJournalIntegrityRequirement_eq_nil hok).mpr ⟨hlen.symm, hlast.symm⟩
    have hdocs := hbinds hashChainContract [] _ rfl
      (validateContract_hashChainContract hobjects hpass) (by simp)
    exact hchain (.of_sameDocuments hdocs ⟨hv.linked, fun e he => (hv.forall_event e he).2⟩)
  · intro hcondition contract detections result hrequired hresult hnone
    have hpass := integrity_of_validateContract hrequired hresult hnone
    obtain ⟨hlen, hlast⟩ := (validateJournalIntegrityRequirement_eq_nil hok).mp hpass
    rcases hcondition with ⟨e, he, hraise⟩ | hcount | hhash | hchain
    · obtain ⟨objects, hobjects, -⟩ := bind_eq_ok.mp hresult
      obtain ⟨o, -, ho⟩ := forall₂_mem_left (mapM_eq_ok.mp hobjects) he
      exact absurd ho (hraise o)
    · exact absurd hlen.symm hcount
    · exact absurd hlast.symm hhash
    · exact sameDocuments_of_isHashChain hinj hv hchain hlen.symm hlast.symm

theorem integrity_binding_iff_sample :
    ∃ content s, verifiedJournalSnapshot .plain content none .null = .ok s ∧ s.recordCount = 1 ∧
      (IntegrityBinds .plain s [secondEvent] ↔
        (∃ e ∈ [secondEvent], ∀ o, eventToDict .plain e ≠ .ok o) ∨
          [secondEvent].length ≠ s.recordCount ∨
          [secondEvent].getLast?.bind (·.integrity.eventHash) ≠ s.terminalHash ∨
          IsHashChain .plain [secondEvent]) := by
  obtain ⟨content, r, hv⟩ := exists_verified_of_append (P := .plain) (e := firstEvent)
    (by decide +kernel)
  have hs := snapshot_of_verified hv
  exact ⟨content, _, hs, rfl, integrity_binding_iff Platform.plain_injective hs rfl _⟩

/-- The persisted event with another principal passes under the hash of the original. -/
theorem altered_event_passes :
    let P := Platform.checksummed
    let step := appendEvent P (.default P) none firstEvent
    let checked : Except PyError (Bool × Bool × Bool) := do
      let r ← step.1
      let s ← verifiedJournalSnapshot P step.2 none .null
      let altered := { r with principal := { r.principal with principalId := sampleText "q" } }
      let result ← validateContract P [altered] hashChainContract [] (some s.verification)
      let document ← serializeEvent P r
      let alteredDocument ← serializeEvent P altered
      .ok (s.ok, result.ok, document == alteredDocument)
    checked = .ok (true, true, false) := by
  decide +kernel

end ActionLineage
