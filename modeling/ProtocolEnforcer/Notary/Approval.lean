import ProtocolEnforcer.Core.Utf8

/-!
# Approval signatures (`crates/notary/src/{lib,approval}.rs`)

The hex codec, the message a human signs for one entry into a gate, and its
verification. Ed25519 itself is a parameter: whether 32 bytes are a public key,
and whether 64 bytes are a strict signature of a message under it.
-/

namespace ProtocolEnforcer

/-- `ed25519_dalek`: `VerifyingKey::from_bytes` and `VerifyingKey::verify_strict`. -/
structure Ed25519 where
  isPoint : Bytes → Bool
  verifyStrict : (key message signature : Bytes) → Bool

/-! ## Hex -/

/-- One nibble as a lowercase digit. -/
def hexDigit (n : Nat) : Char := Nat.digitChar n

/-- `to_hex`: lowercase, two digits a byte. -/
def toHex (bytes : Bytes) : String :=
  String.ofList (bytes.flatMap fun b => [hexDigit (b.toNat / 16), hexDigit (b.toNat % 16)])

/-- One hex digit, of either case. -/
def nib (c : UInt8) : Option UInt8 :=
  if 48 ≤ c ∧ c ≤ 57 then some (c - 48)
  else if 97 ≤ c ∧ c ≤ 102 then some (c - 97 + 10)
  else if 65 ≤ c ∧ c ≤ 70 then some (c - 65 + 10)
  else none

/-- The loop of `from_hex`, two bytes at a time. -/
def fromHexPairs : Bytes → Option Bytes
  | [] => some []
  | [_] => none
  | a :: b :: rest => do
    let hi ← nib a
    let lo ← nib b
    let out ← fromHexPairs rest
    return (hi <<< 4 ||| lo) :: out

/-- `from_hex`; no text of odd length decodes. -/
def fromHex (s : String) : Option Bytes := fromHexPairs (bytesOf (trim s))

/-- A fixed-size array from hex (`try_into`). -/
def fromHexN (n : Nat) (s : String) : Option Bytes :=
  (fromHex s).filter (·.length = n)

/-! ## The gate's signature -/

/-- `APPROVAL_DOMAIN`. -/
def approvalDomain : String := "pe-approval-v1"

/-- `approval_message`: the text that is signed and verified. -/
def approvalMessage (sessionId macroId subStateId challengeHex : String) : String :=
  approvalDomain ++ ":" ++ sessionId ++ ":" ++ macroId ++ ":" ++ subStateId ++ ":" ++
    challengeHex

/-- `new_challenge_hex`, given what the operating system's entropy source answers. -/
def newChallengeHex (getrandom : Except String Bytes) : Except String String :=
  match getrandom with
  | .ok bytes => .ok (toHex bytes)
  | .error e => .error ("getrandom failed: " ++ e)

section

variable (ed : Ed25519)

/-- `verifying_key_from_hex`. -/
def verifyingKeyFromHex (pubkeyHex : String) : Option Bytes :=
  (fromHexN 32 pubkeyHex).filter fun key => ed.isPoint key

/-- `signature_from_hex`. -/
def signatureFromHex (sigHex : String) : Option Bytes := fromHexN 64 sigHex

/-- `verify_approval_hex`: false on a bad key, a bad signature or a bad match. -/
def verifyApprovalHex
    (approverPubkeyHex sessionId macroId subStateId challengeHex signatureHex : String) : Bool :=
  match verifyingKeyFromHex ed approverPubkeyHex, signatureFromHex signatureHex with
  | some key, some signature =>
    ed.verifyStrict key
      (bytesOf (approvalMessage sessionId macroId subStateId challengeHex)) signature
  | _, _ => false

/-- `is_valid_approver_pubkey`. -/
def isValidApproverPubkey (pubkeyHex : String) : Bool :=
  (verifyingKeyFromHex ed pubkeyHex).isSome

end

example : approvalMessage "s1" "approve" "human_gate" "ab12" =
    "pe-approval-v1:s1:approve:human_gate:ab12" := by decide

end ProtocolEnforcer
