import ProtocolEnforcer.Fsm.Fidelity

/-!
# Challenges in the ledger

What a list of events says about the nonces issued and accepted: which challenge is
open behind it, and the invariant `SoundLedger` that every approval answers the
challenge open before it and no nonce is used twice.
-/

namespace ProtocolEnforcer

namespace FsmEvent

/-- The nonce an `ApprovalChallengeIssued` carries. -/
def issuedNonce (e : FsmEvent) : Option String :=
  match e.eventType with
  | .approvalChallengeIssued _ _ nonce => some nonce
  | _ => none

/-- The nonce an `ApprovalAccepted` carries. -/
def acceptedNonce (e : FsmEvent) : Option String :=
  match e.eventType with
  | .approvalAccepted _ _ nonce _ => some nonce
  | _ => none

/-- The events that put the session on another position. -/
def isMovement (e : FsmEvent) : Bool :=
  match e.eventType with
  | .sessionStarted _ _ _ | .subStateAdvanced _ _ | .macroAdvanced _ _
  | .macroLoopedBack _ _ _ => true
  | _ => false

end FsmEvent

/-- The challenge open behind one more event. -/
def openStep (c : Option ApprovalChallenge) (e : FsmEvent) : Option ApprovalChallenge :=
  match e.eventType with
  | .approvalChallengeIssued macroId subStateId nonce => some ⟨macroId, subStateId, nonce⟩
  | .sessionStarted _ _ _ | .subStateAdvanced _ _ | .macroAdvanced _ _ | .macroLoopedBack _ _ _
  | .approvalAccepted _ _ _ _ => none
  | _ => c

/-- The challenge a list of events leaves open: issued, and neither left nor accepted since. -/
def openChallenge (es : List FsmEvent) : Option ApprovalChallenge := es.foldl openStep none

def issuedNonces (es : List FsmEvent) : List String := es.filterMap (·.issuedNonce)

def acceptedNonces (es : List FsmEvent) : List String := es.filterMap (·.acceptedNonce)

/-- The nonce of the last challenge. -/
def latestNonce (es : List FsmEvent) : Option String := (issuedNonces es).getLast?

section

variable {es : List FsmEvent} {e : FsmEvent} {c : ApprovalChallenge}

theorem openChallenge_snoc : openChallenge (es ++ [e]) = openStep (openChallenge es) e := by
  rw [openChallenge, List.foldl_append]
  rfl

theorem issuedNonces_snoc :
    issuedNonces (es ++ [e]) = issuedNonces es ++ e.issuedNonce.toList := by
  rw [issuedNonces, List.filterMap_append]
  cases h : e.issuedNonce <;> simp [issuedNonces, h]

theorem acceptedNonces_snoc :
    acceptedNonces (es ++ [e]) = acceptedNonces es ++ e.acceptedNonce.toList := by
  rw [acceptedNonces, List.filterMap_append]
  cases h : e.acceptedNonce <;> simp [acceptedNonces, h]

/-- One more event opens the challenge it issues, keeps an open one, or closes it. -/
theorem openStep_eq_some {o : Option ApprovalChallenge} (h : openStep o e = some c) :
    e.eventType = .approvalChallengeIssued c.macroId c.subStateId c.challenge ∨
      o = some c ∧ e.issuedNonce = none ∧ e.isMovement = false ∧ e.acceptedNonce = none := by
  unfold openStep at h
  unfold FsmEvent.issuedNonce FsmEvent.isMovement FsmEvent.acceptedNonce
  cases hty : e.eventType with
  | approvalChallengeIssued macroId subStateId nonce =>
    rw [hty] at h
    cases h
    exact Or.inl rfl
  | sessionStarted | subStateAdvanced | macroAdvanced | macroLoopedBack | approvalAccepted =>
    rw [hty] at h
    cases h
  | _ =>
    rw [hty] at h
    exact Or.inr ⟨h, rfl, rfl, rfl⟩

/-- An open challenge was issued, and since then nothing was issued, accepted or moved. -/
theorem openChallenge_eq_some (h : openChallenge es = some c) :
    ∃ pre e mid, es = pre ++ e :: mid ∧
      e.eventType = .approvalChallengeIssued c.macroId c.subStateId c.challenge ∧
      ∀ x ∈ mid, x.issuedNonce = none ∧ x.isMovement = false ∧ x.acceptedNonce = none := by
  induction es using List.reverseRecOn with
  | nil => cases h
  | append_singleton es e ih =>
    rw [openChallenge_snoc] at h
    rcases openStep_eq_some h with hty | ⟨hopen, hquiet⟩
    · exact ⟨es, e, [], rfl, hty, nofun⟩
    · obtain ⟨pre, e', mid, rfl, hty, hmid⟩ := ih hopen
      refine ⟨pre, e', mid ++ [e], by rw [List.append_assoc, List.cons_append], hty, ?_⟩
      intro x hx
      rcases List.mem_append.mp hx with hx | hx
      · exact hmid x hx
      · rw [List.mem_singleton.mp hx]
        exact hquiet

/-- The open challenge is the last one issued. -/
theorem latestNonce_of_open (h : openChallenge es = some c) :
    latestNonce es = some c.challenge := by
  induction es using List.reverseRecOn with
  | nil => cases h
  | append_singleton es e ih =>
    rw [openChallenge_snoc] at h
    rw [latestNonce, issuedNonces_snoc]
    rcases openStep_eq_some h with hty | ⟨hopen, hquiet, -⟩
    · rw [FsmEvent.issuedNonce, hty]
      exact List.getLast?_concat
    · rw [hquiet, Option.toList_none, List.append_nil]
      exact ih hopen

end

namespace ProfileFsmEngine

variable (engine : ProfileFsmEngine) (sid : String)

/-- An approval that answers the challenge open behind `es`, under its gate's key. -/
def Earned (es : List FsmEvent) (macroId subStateId nonce signature : String) : Prop :=
  openChallenge es = some ⟨macroId, subStateId, nonce⟩ ∧
    ∃ i j pubkey, engine.profile.typeAt i j = .humanApproval ∧
      engine.profile.place i j = ⟨macroId, subStateId⟩ ∧
      ((engine.profile.stateAt i).subAt j).approverPubkey = some pubkey ∧
      verifyApprovalHex engine.vendor.ed pubkey sid macroId subStateId nonce signature = true

/-- Every approval is earned, and no nonce is issued or accepted twice. -/
structure SoundLedger (es : List FsmEvent) : Prop where
  earned : ∀ {k e macroId subStateId nonce signature}, es[k]? = some e →
    e.eventType = .approvalAccepted macroId subStateId nonce signature →
    Earned engine sid (es.take k) macroId subStateId nonce signature
  issuedOnce : (issuedNonces es).Nodup
  acceptedOnce : (acceptedNonces es).Nodup
  accepted : ∀ n ∈ acceptedNonces es, n ∈ issuedNonces es
  unused : ∀ c, openChallenge es = some c →
    c.challenge ∈ issuedNonces es ∧ c.challenge ∉ acceptedNonces es

variable {engine sid} {es : List FsmEvent} {e : FsmEvent}

theorem soundLedger_nil : SoundLedger engine sid [] where
  earned h := nomatch h
  issuedOnce := .nil
  acceptedOnce := .nil
  accepted _ h := nomatch h
  unused _ h := nomatch h

/-- The approvals of a longer list. -/
theorem SoundLedger.earned_snoc (h : SoundLedger engine sid es)
    (he : ∀ macroId subStateId nonce signature,
      e.eventType = .approvalAccepted macroId subStateId nonce signature →
      Earned engine sid es macroId subStateId nonce signature)
    {k : Nat} {e' : FsmEvent} {macroId subStateId nonce signature : String}
    (hk : (es ++ [e])[k]? = some e')
    (hty : e'.eventType = .approvalAccepted macroId subStateId nonce signature) :
    Earned engine sid ((es ++ [e]).take k) macroId subStateId nonce signature := by
  by_cases hlt : k < es.length
  · rw [List.getElem?_append_left hlt] at hk
    rw [List.take_append_of_le_length (Nat.le_of_lt hlt)]
    exact h.earned hk hty
  · have hle : k < (es ++ [e]).length := (List.getElem?_eq_some_iff.mp hk).1
    obtain rfl : k = es.length := by
      rw [List.length_append, List.length_singleton] at hle
      omega
    rw [List.getElem?_concat_length] at hk
    cases hk
    rw [List.take_left]
    exact he _ _ _ _ hty

/-- One more event that issues a fresh nonce. -/
theorem SoundLedger.issue {macroId subStateId nonce : String} (h : SoundLedger engine sid es)
    (hty : e.eventType = .approvalChallengeIssued macroId subStateId nonce)
    (hfresh : nonce ∉ issuedNonces es) : SoundLedger engine sid (es ++ [e]) := by
  have hissued : issuedNonces (es ++ [e]) = issuedNonces es ++ [nonce] := by
    rw [issuedNonces_snoc, FsmEvent.issuedNonce, hty]
    rfl
  have haccepted : acceptedNonces (es ++ [e]) = acceptedNonces es := by
    rw [acceptedNonces_snoc, FsmEvent.acceptedNonce, hty]
    exact List.append_nil _
  refine ⟨fun hk => h.earned_snoc ?_ hk, ?_, ?_, ?_, ?_⟩
  · intro _ _ _ _ hacc
    rw [hty] at hacc
    cases hacc
  · rw [hissued, ← List.concat_eq_append]
    exact h.issuedOnce.concat hfresh
  · rw [haccepted]
    exact h.acceptedOnce
  · intro n hn
    rw [hissued, List.mem_append]
    rw [haccepted] at hn
    exact Or.inl (h.accepted n hn)
  · intro c hc
    rw [openChallenge_snoc, openStep, hty] at hc
    cases hc
    rw [hissued, haccepted]
    exact ⟨List.mem_append_right _ (List.mem_singleton.mpr rfl), fun hn => hfresh (h.accepted _ hn)⟩

/-- One more event that is an earned approval. -/
theorem SoundLedger.accept {macroId subStateId nonce signature : String}
    (h : SoundLedger engine sid es)
    (hty : e.eventType = .approvalAccepted macroId subStateId nonce signature)
    (hearned : Earned engine sid es macroId subStateId nonce signature) :
    SoundLedger engine sid (es ++ [e]) := by
  have hissued : issuedNonces (es ++ [e]) = issuedNonces es := by
    rw [issuedNonces_snoc, FsmEvent.issuedNonce, hty]
    exact List.append_nil _
  have haccepted : acceptedNonces (es ++ [e]) = acceptedNonces es ++ [nonce] := by
    rw [acceptedNonces_snoc, FsmEvent.acceptedNonce, hty]
    rfl
  obtain ⟨hin, hout⟩ := h.unused _ hearned.1
  refine ⟨fun hk => h.earned_snoc ?_ hk, ?_, ?_, ?_, ?_⟩
  · intro _ _ _ _ hacc
    rw [hty] at hacc
    cases hacc
    exact hearned
  · rw [hissued]
    exact h.issuedOnce
  · rw [haccepted, ← List.concat_eq_append]
    exact h.acceptedOnce.concat hout
  · intro n hn
    rw [hissued]
    rw [haccepted, List.mem_append, List.mem_singleton] at hn
    rcases hn with hn | rfl
    · exact h.accepted n hn
    · exact hin
  · intro c hc
    rw [openChallenge_snoc, openStep, hty] at hc
    cases hc

/-- One more event of any other kind. -/
theorem SoundLedger.other (h : SoundLedger engine sid es) (hissue : e.issuedNonce = none)
    (haccept : e.acceptedNonce = none) : SoundLedger engine sid (es ++ [e]) := by
  have hissued : issuedNonces (es ++ [e]) = issuedNonces es := by
    rw [issuedNonces_snoc, hissue]
    exact List.append_nil _
  have haccepted : acceptedNonces (es ++ [e]) = acceptedNonces es := by
    rw [acceptedNonces_snoc, haccept]
    exact List.append_nil _
  refine ⟨fun hk => h.earned_snoc ?_ hk, ?_, ?_, ?_, ?_⟩
  · intro _ _ _ _ hacc
    rw [FsmEvent.acceptedNonce, hacc] at haccept
    cases haccept
  · rw [hissued]
    exact h.issuedOnce
  · rw [haccepted]
    exact h.acceptedOnce
  · rw [hissued, haccepted]
    exact h.accepted
  · intro c hc
    rw [openChallenge_snoc] at hc
    rw [hissued, haccepted]
    rcases openStep_eq_some hc with hty | ⟨hopen, -⟩
    · rw [FsmEvent.issuedNonce, hty] at hissue
      cases hissue
    · exact h.unused c hopen

/-! ## The fold -/

/-- Recovery keeps the challenge that is open. -/
theorem recoverEvent_pending {profile : Profile} {s s' : SessionState}
    (h : recoverEvent profile s e = .ok s') (hty : ∀ a b c, e.eventType ≠ .sessionStarted a b c) :
    s'.pendingApproval = openStep s.pendingApproval e := by
  unfold openStep
  cases he : e.eventType with
  | sessionStarted a b c => exact absurd he (hty a b c)
  | macroAdvanced fromMacro toMacro =>
    obtain ⟨pos, rfl⟩ := recoverEvent_resets he h
    rfl
  | _ =>
    unfold recoverEvent at h
    rw [he] at h
    cases h
    rfl

/-- **The recovered session holds the open challenge.** -/
theorem replayEvents_pending {profile : Profile} {s : SessionState}
    (h : replayEvents sid profile es = .ok (some s)) :
    s.pendingApproval = openChallenge es := by
  refine replayEvents_read (f := SessionState.pendingApproval) ?_ ?_ none h
  · intro a e s _ _ _ hty hs
    rw [(recoverStart_fresh hs).2.2, openStep, hty]
  · intro e s s' hne hev
    have hpending := recoverEvent_pending hev hne
    exact hpending

theorem Folds.pending {s : SessionState} (h : Folds engine sid es (some s)) :
    s.pendingApproval = openChallenge es := by
  obtain ⟨s₀, hs₀, heq⟩ := h
  obtain ⟨s₁, rfl, rfl⟩ := Option.map_eq_some_iff.mp heq
  have hpending := replayEvents_pending hs₀
  exact hpending

end ProfileFsmEngine

end ProtocolEnforcer
