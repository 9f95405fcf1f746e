import ProtocolEnforcer.Gateway.SessionIds
import ProtocolEnforcer.Notary.TranscriptRoot

/-!
# Signed messages cannot be read as something else

Two kinds of messages are signed: the text of one entry into a gate, whose fields colons
separate, and the preimage of a transcript's root. The session's id is on the gateway's
allow-list and the validator keeps colons out of macro and sub-state ids, so the text
determines its fields; and the two kinds differ in their second byte.
-/

namespace ProtocolEnforcer

/-- What the signature of one entry into a gate is about. -/
structure GateEntry where
  sessionId : String
  macroId : String
  subStateId : String
  challengeHex : String

namespace GateEntry

/-- The session id is one that the gateway accepts, and the other ids are ones that the
validator does. -/
structure Accepted (e : GateEntry) : Prop where
  session : validateSessionId e.sessionId = .ok ()
  macroId : Text.hasChar e.macroId ':' = false
  subStateId : Text.hasChar e.subStateId ':' = false

/-- The text that is signed. -/
def message (e : GateEntry) : String :=
  approvalMessage e.sessionId e.macroId e.subStateId e.challengeHex

variable {e e' : GateEntry}

theorem message_toList (e : GateEntry) : e.message.toList =
    approvalDomain.toList ++ ':' :: (e.sessionId.toList ++ ':' :: (e.macroId.toList ++ ':' ::
      (e.subStateId.toList ++ ':' :: e.challengeHex.toList))) := by
  simp [message, approvalMessage]

theorem Accepted.colon_not_mem_session (h : e.Accepted) : ':' ∉ e.sessionId.toList := by
  intro hmem
  have hallowed : sessionIdChar ':' = true := (validateSessionId_ok.mp h.session).chars ':' hmem
  cases hallowed

/-- A text up to its first separator, and what is behind it. -/
theorem separated_inj {s s' : String} {rest rest' : List Char} (hs : ':' ∉ s.toList)
    (hs' : ':' ∉ s'.toList) (h : s.toList ++ ':' :: rest = s'.toList ++ ':' :: rest') :
    s = s' ∧ rest = rest' := by
  obtain ⟨hsame, hrest⟩ := Text.append_separator_inj hs hs' h
  exact ⟨String.toList_inj.mp hsame, hrest⟩

/-- **The text determines the entry**, whatever the challenge is. -/
theorem message_injective (h : e.Accepted) (h' : e'.Accepted) (hsame : e.message = e'.message) :
    e = e' := by
  have hchars : e.message.toList = e'.message.toList := congrArg String.toList hsame
  rw [message_toList, message_toList] at hchars
  have hdomain := List.cons.inj (List.append_cancel_left hchars)
  obtain ⟨hsession, hchars⟩ := separated_inj h.colon_not_mem_session h'.colon_not_mem_session
    hdomain.2
  obtain ⟨hstate, hchars⟩ := separated_inj (Text.hasChar_eq_false.mp h.macroId)
    (Text.hasChar_eq_false.mp h'.macroId)
    hchars
  obtain ⟨hsub, hchars⟩ := separated_inj (Text.hasChar_eq_false.mp h.subStateId)
    (Text.hasChar_eq_false.mp h'.subStateId) hchars
  obtain ⟨session, macroId, subStateId, challenge⟩ := e
  obtain ⟨session', macroId', subStateId', challenge'⟩ := e'
  dsimp only at hsession hstate hsub hchars
  rw [hsession, hstate, hsub, String.toList_inj.mp hchars]

/-- No such text is the preimage of a root: `pe-approval-v1` and `protocol/transcript-root/v1`
part at the second byte. -/
theorem message_ne_rootPreimage (sessionId : String) (root : Vector UInt8 32) :
    bytesOf e.message ≠ rootPreimage sessionId root := by
  intro h
  have htext : (bytesOf e.message)[1]? = some 101 := by
    rw [message, approvalMessage]
    simp only [Utf8.bytesOf_append, List.append_assoc]
    rfl
  have hroot : (rootPreimage sessionId root)[1]? = some 114 := rfl
  rw [h, hroot] at htext
  cases htext

end GateEntry

/-- What a signature of the system is about. -/
inductive Signed where
  | entry (e : GateEntry)
  | transcript (sessionId : String) (root : Vector UInt8 32)

namespace Signed

/-- An entry has to be an accepted one; any transcript can be signed. -/
def Accepted : Signed → Prop
  | entry e => e.Accepted
  | transcript _ _ => True

/-- The bytes that are signed and verified. -/
def bytes : Signed → Bytes
  | entry e => bytesOf e.message
  | transcript sessionId root => rootPreimage sessionId root

/-- `verify_approval_hex` and `verify_root_hex`. -/
def verifies (ed : Ed25519) (pubkeyHex sigHex : String) : Signed → Bool
  | entry e =>
    verifyApprovalHex ed pubkeyHex e.sessionId e.macroId e.subStateId e.challengeHex sigHex
  | transcript sessionId root => verifyRootHex ed pubkeyHex sessionId root sigHex

variable {ed : Ed25519} {pubkeyHex sigHex : String} {x y : Signed}

/-- **The signed bytes determine what is signed.** -/
theorem bytes_injective (hx : x.Accepted) (hy : y.Accepted) (h : x.bytes = y.bytes) : x = y := by
  cases x with
  | entry e =>
    cases y with
    | entry e' => rw [GateEntry.message_injective hx hy (Utf8.bytesOf_injective h)]
    | transcript sessionId root => exact absurd h (GateEntry.message_ne_rootPreimage sessionId root)
  | transcript sessionId root =>
    cases y with
    | entry e => exact absurd h.symm (GateEntry.message_ne_rootPreimage sessionId root)
    | transcript sessionId' root' =>
      obtain ⟨hsession, hroot⟩ := rootPreimage_injective h
      rw [hsession, hroot]

/-- What verifies is a signature of these bytes under the key. -/
theorem verifies_strict (h : x.verifies ed pubkeyHex sigHex = true) :
    ∃ key signature, verifyingKeyFromHex ed pubkeyHex = some key ∧
      signatureFromHex sigHex = some signature ∧ ed.verifyStrict key x.bytes signature = true := by
  cases x with
  | entry | transcript =>
    simp only [verifies, verifyApprovalHex, verifyRootHex] at h
    split at h
    · rename_i key signature hkey hsig
      exact ⟨key, signature, hkey, hsig, h⟩
    · cases h

end Signed

/-- One signature under one key, for two messages. -/
def Reused (ed : Ed25519) (pubkeyHex sigHex : String) (message message' : Bytes) : Prop :=
  message ≠ message' ∧ ∃ key sig, verifyingKeyFromHex ed pubkeyHex = some key ∧
    signatureFromHex sigHex = some sig ∧ ed.verifyStrict key message sig = true ∧
    ed.verifyStrict key message' sig = true

/-- A signature that is good for two is reused, or they are one. -/
theorem Signed.verifies_both {ed : Ed25519} {pubkeyHex sigHex : String} {x y : Signed} (hx : x.Accepted) (hy : y.Accepted)
    (hxverifies : x.verifies ed pubkeyHex sigHex = true)
    (hyverifies : y.verifies ed pubkeyHex sigHex = true) :
    x = y ∨ Reused ed pubkeyHex sigHex x.bytes y.bytes := by
  obtain ⟨key, signature, hkey, hsig, hxstrict⟩ := verifies_strict hxverifies
  obtain ⟨key', signature', hkey', hsig', hystrict⟩ := verifies_strict hyverifies
  obtain rfl := Option.some.inj (hkey.symm.trans hkey')
  obtain rfl := Option.some.inj (hsig.symm.trans hsig')
  by_cases hsame : x.bytes = y.bytes
  · exact Or.inl (bytes_injective hx hy hsame)
  · exact Or.inr ⟨hsame, key, signature, hkey, hsig, hxstrict, hystrict⟩

/-- **Signed messages cannot be read as something else.** The text of an accepted entry
determines it, the preimage of a root determines session and root, and no text is a preimage. So
a signature that verifies for two of them verifies for the bytes of both, which are different, or
they are the same. -/
theorem signed_messages_apart :
    (∀ e e' : GateEntry, e.Accepted → e'.Accepted → e.message = e'.message → e = e') ∧
    (∀ sessionId sessionId' root root',
      rootPreimage sessionId root = rootPreimage sessionId' root' →
        sessionId = sessionId' ∧ root = root') ∧
    (∀ (e : GateEntry) sessionId root, bytesOf e.message ≠ rootPreimage sessionId root) ∧
    ∀ ed pubkeyHex sigHex (x y : Signed), x.Accepted → y.Accepted →
      x.verifies ed pubkeyHex sigHex = true → y.verifies ed pubkeyHex sigHex = true →
        x = y ∨ Reused ed pubkeyHex sigHex x.bytes y.bytes :=
  ⟨fun _ _ => GateEntry.message_injective, fun _ _ _ _ => rootPreimage_injective,
    fun _ => GateEntry.message_ne_rootPreimage, fun _ _ _ _ _ => Signed.verifies_both⟩

/-- Fields that would run together without the separators. -/
theorem signed_messages_apart_shifted :
    (⟨"s1", "ab", "c", "d0"⟩ : GateEntry).message ≠
      (⟨"s1", "a", "bc", "d0"⟩ : GateEntry).message := by
  intro h
  have hsid : validateSessionId "s1" = .ok () :=
    validateSessionId_ok.mpr ⟨by decide, by decide, List.all_eq_true.mp (by decide)⟩
  have hsame := signed_messages_apart.1 _ _ ⟨hsid, by decide, by decide⟩
    ⟨hsid, by decide, by decide⟩ h
  exact absurd (congrArg GateEntry.subStateId hsame) (by decide)

end ProtocolEnforcer
