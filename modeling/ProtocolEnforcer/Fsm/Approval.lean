import ProtocolEnforcer.Fsm.Injection

/-!
# The gate's rules (`crates/fsm/src/approval.rs`)

Challenge issuance on entry and the check of a submitted signature; the stepping
half is with the engine.
-/

namespace ProtocolEnforcer

/-- `APPROVAL_EVIDENCE_KEY`. -/
def approvalEvidenceKey : String := "approval_signature"

/-- `REASON_MISSING`. -/
def reasonMissing : String := "approval_missing"

/-- `REASON_INVALID`. -/
def reasonInvalid : String := "approval_invalid"

/-- `issue_for`: a fresh challenge for a gate, nothing for any other sub-state. -/
def issueFor (getrandom : Except String Bytes) (sub : SubStateDef) (position : Position) :
    Except FsmError (Option ApprovalChallenge) :=
  if sub.subStateType ≠ .humanApproval then .ok none
  else
    match newChallengeHex getrandom with
    | .ok challenge => .ok (some ⟨position.macroId, position.subStateId, challenge⟩)
    | .error e => .error (.internal e)

section

variable {getrandom : Except String Bytes} {sub : SubStateDef} {position : Position}

theorem issueFor_other (h : sub.subStateType ≠ .humanApproval) :
    issueFor getrandom sub position = .ok none := by
  rw [issueFor, if_pos h]

theorem issueFor_gate (h : sub.subStateType = .humanApproval) {nonce : String}
    (hn : newChallengeHex getrandom = .ok nonce) :
    issueFor getrandom sub position =
      .ok (some ⟨position.macroId, position.subStateId, nonce⟩) := by
  rw [issueFor, if_neg (not_not.mpr h), hn]

theorem issueFor_gate_error (h : sub.subStateType = .humanApproval) {e : String}
    (hn : newChallengeHex getrandom = .error e) :
    issueFor getrandom sub position = .error (.internal e) := by
  rw [issueFor, if_neg (not_not.mpr h), hn]

end

inductive ApprovalVerdict where
  | accepted (signature challenge : String)
  | rejected (reason : String)
  deriving DecidableEq, Repr

/-- The signature a submission carries, trimmed; a blank one is none. -/
def submittedSignature (evidence : ChecklistEvidence) : Option String :=
  (((evidence.get approvalEvidenceKey).bind Json.asStr).map trim).filter (· ≠ "")

/-- `check`: fail-closed at every step. -/
def check (ed : Ed25519) (sessionId : String) (pos : Position) (sub : SubStateDef)
    (pending : Option ApprovalChallenge) (evidence : ChecklistEvidence) : ApprovalVerdict :=
  match submittedSignature evidence with
  | none => .rejected reasonMissing
  | some signature =>
    match pending.filter fun c => c.macroId = pos.macroId && c.subStateId = pos.subStateId with
    | none => .rejected reasonInvalid
    | some challenge =>
      match sub.approverPubkey with
      | none => .rejected reasonInvalid
      | some pubkey =>
        if verifyApprovalHex ed pubkey sessionId pos.macroId pos.subStateId challenge.challenge
            signature then
          .accepted signature challenge.challenge
        else .rejected reasonInvalid

variable {ed : Ed25519} {sid : String} {pos : Position} {sub : SubStateDef}
  {pending : Option ApprovalChallenge} {evidence : ChecklistEvidence} {signature nonce : String}

/-- An accepted submission carries a signature that verifies under the gate's key
for the challenge that is pending at this very position. -/
theorem check_accepted (h : check ed sid pos sub pending evidence = .accepted signature nonce) :
    submittedSignature evidence = some signature ∧
      pending = some ⟨pos.macroId, pos.subStateId, nonce⟩ ∧
      ∃ pubkey, sub.approverPubkey = some pubkey ∧
        verifyApprovalHex ed pubkey sid pos.macroId pos.subStateId nonce signature = true := by
  unfold check at h
  split at h
  · cases h
  rename_i s hs
  split at h
  · cases h
  rename_i c hc
  split at h
  · cases h
  rename_i key hkey
  split at h
  · rename_i hv
    cases h
    obtain ⟨hp, hq⟩ := Option.filter_eq_some_iff.mp hc
    simp only [Bool.and_eq_true, decide_eq_true_eq] at hq
    refine ⟨hs, ?_, key, hkey, hv⟩
    rw [hp, ← hq.1, ← hq.2]
  · cases h

/-- A signature that verifies for the challenge pending here is accepted. -/
theorem check_of_verify {pubkey : String} (hs : submittedSignature evidence = some signature)
    (hkey : sub.approverPubkey = some pubkey)
    (hv : verifyApprovalHex ed pubkey sid pos.macroId pos.subStateId nonce signature = true) :
    check ed sid pos sub (some ⟨pos.macroId, pos.subStateId, nonce⟩) evidence =
      .accepted signature nonce := by
  simp [check, hs, hkey, hv, Option.filter]

end ProtocolEnforcer
