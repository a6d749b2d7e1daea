import SekaiChisei.Shomei.Accepted

/-! What a refused attach call leaves: the loop rewrites declarations before it meets one of another digest. -/

namespace SekaiChisei.Shomei
open Lib List AttestationBundle
open Receipts (Crypto plainCrypto)

def agrees (reference digest : String) (declaration : CoverageDeclaration) : Bool :=
  ¬(declaration.reference = reference ∧ declaration.expectedDigest.any (· ≠ digest))

/-- No declaration that the loop of the call passes before a mismatch is changed. -/
def Attach.Keeps (crypto : Crypto) (bundle : AttestationBundle) : Attach → Prop
  | .artifact reference _ content =>
    bundle.signature = none → (∀ item ∈ bundle.artifacts, item.reference ≠ reference) →
      (∀ declaration ∈ bundle.coverage, declaration.reference = reference → declaration.disposition ≠ .redacted) →
      ∀ declaration ∈ bundle.coverage.takeWhile (agrees reference (sha256Hex crypto content)),
        declaration.reference ≠ reference ∨ declaration.disposition = .embedded ∧
          declaration.expectedDigest = some (sha256Hex crypto content) ∧ declaration.reason = none
  | .policyAttestation _ => True

variable {crypto : Crypto} {libs : Libraries} {bundle : AttestationBundle} {reference digest : String}

theorem embedded_eq_self {declaration : CoverageDeclaration} :
    embedded reference digest declaration = declaration ↔ declaration.reference ≠ reference ∨
      declaration.disposition = .embedded ∧ declaration.expectedDigest = some digest ∧ declaration.reason = none := by
  unfold embedded
  split
  · rename_i named
    constructor
    · intro same
      rw [← same]
      exact .inr ⟨rfl, rfl, rfl⟩
    · rintro (other | ⟨disposition, digest, reason⟩)
      · exact absurd named other
      · rw [← disposition, ← digest, ← reason]
  · rename_i other
    exact iff_of_true rfl (.inl other)

theorem embedMatching_same_iff {coverage : List CoverageDeclaration} :
    (embedMatching reference digest coverage).1 = coverage ↔
      ∀ declaration ∈ coverage.takeWhile (agrees reference digest),
        embedded reference digest declaration = declaration := by
  induction coverage with
  | nil => simp [embedMatching]
  | cons declaration rest ih =>
    rw [embedMatching]
    by_cases named : declaration.reference = reference
    · rw [if_neg (not_not.mpr named)]
      by_cases stops : declaration.expectedDigest.any (· ≠ digest) = true
      · rw [if_pos stops, takeWhile_cons_of_neg (by simpa [agrees, named] using stops)]
        simp
      · rw [if_neg stops, takeWhile_cons_of_pos (by simpa [agrees, named] using stops), forall_mem_cons, ← ih,
          embedded, if_pos named, cons_eq_cons]
    · rw [if_pos named, takeWhile_cons_of_pos (by simp [agrees, named]), forall_mem_cons, ← ih, embedded, if_neg named,
        cons_eq_cons]

/-- A refused call leaves the bundle as it was exactly when its loop changes no declaration before the mismatch. -/
theorem attach_refused_iff {call : Attach} {error : String} (refused : (call.run crypto libs bundle).2 = .error error) :
    (call.run crypto libs bundle).1 = bundle ↔ call.Keeps crypto bundle := by
  cases call with
  | policyAttestation attestation =>
    simp only [Attach.run, attachPolicyAttestation, Attach.Keeps, iff_true] at refused ⊢
    split_ifs at refused ⊢ <;> rfl
  | artifact reference mediaType content =>
    simp only [Attach.run, attachArtifact, Attach.Keeps, ← embedded_eq_self] at refused ⊢
    split_ifs at refused ⊢ with signed attached unnamed redacted
    · exact iff_of_true rfl fun unsigned => by simp [unsigned] at signed
    · obtain ⟨item, member, same⟩ : ∃ item ∈ bundle.artifacts, item.reference = reference := by simpa using attached
      exact iff_of_true rfl fun _ free => absurd same (free item member)
    · refine iff_of_true rfl fun _ _ _ declaration member => if_neg ?_
      simp only [List.isEmpty_iff, filter_eq_nil_iff, decide_eq_true_eq] at unnamed
      exact unnamed _ (takeWhile_subset _ member)
    · obtain ⟨declaration, member, named, hidden⟩ : ∃ declaration ∈ bundle.coverage,
          declaration.reference = reference ∧ declaration.disposition = .redacted := by simpa using redacted
      exact iff_of_true rfl fun _ _ shown => absurd hidden (shown declaration member named)
    · have free : ∀ item ∈ bundle.artifacts, item.reference ≠ reference := by simpa using attached
      have kept : ∀ declaration ∈ bundle.coverage, declaration.reference = reference →
          declaration.disposition ≠ .redacted := by simpa using redacted
      rw [← embedMatching_same_iff]
      have unsigned : bundle.signature = none := by simpa using signed
      split at refused
      · rename_i coverage stopped
        rw [stopped]
        constructor
        · intro same _ _ _
          exact congrArg AttestationBundle.coverage same
        · intro same
          cases same unsigned free kept
          rfl
      · cases refused

/-- A receipt that names one output with each of the digests, in this order. -/
def repeatedReceipt (digests : List (Option String)) : OperationReceipt :=
  { attestedReceipt with events := [{
      eventId := "op-1:write"
      kind := .policyDecided
      surface := .policy
      actor := "chisei.policy"
      references := digests.map fun digest => ⟨"output", "out.txt", digest, false, none⟩
      attributes := .empty }] }

def refusedCall : Attach := .artifact "out.txt" none [1, 2]

theorem attach_refused_iff_first : ∃ bundle, AttestationBundle.unsigned plainCrypto plainLibraries
      (repeatedReceipt [some "other", none]) = .ok bundle ∧
    (refusedCall.run plainCrypto plainLibraries bundle).1 = bundle := by
  refine ⟨_, rfl, (attach_refused_iff rfl).mpr ?_⟩
  intro _ _ _ declaration member
  exact absurd (show declaration ∈ [] from member) not_mem_nil

theorem attach_refused_changes :
    ((AttestationBundle.unsigned plainCrypto plainLibraries (repeatedReceipt [none, some "other"])).toOption.map
      fun bundle =>
      (bundle.coverage.map (·.disposition),
        (refusedCall.run plainCrypto plainLibraries bundle).1.coverage.map (·.disposition),
        (refusedCall.run plainCrypto plainLibraries bundle).2.toOption)) =
      some ([.unavailable, .referenced], [.embedded, .referenced], none) := by
  decide +kernel

end SekaiChisei.Shomei
