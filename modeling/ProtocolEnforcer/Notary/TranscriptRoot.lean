import ProtocolEnforcer.Notary.Approval

/-!
# Witness signatures (`crates/notary/src/lib.rs`)

What a witness signs of a finished transcript: a domain tag, the session's id behind its
length, and the raw root.
-/

namespace ProtocolEnforcer

/-- `DOMAIN`. -/
def rootDomain : Bytes := bytesOf "protocol/transcript-root/v1"

/-- `(len as u32).to_be_bytes()`. -/
def lenBytes (len : Nat) : Bytes :=
  let n := UInt32.ofNat len
  [(n >>> 24).toUInt8, (n >>> 16).toUInt8, (n >>> 8).toUInt8, n.toUInt8]

/-- `push_lp`. -/
def pushLp (buf bytes : Bytes) : Bytes := buf ++ lenBytes bytes.length ++ bytes

/-- `root_preimage`: the bytes that are signed and verified. -/
def rootPreimage (sessionId : String) (root : Vector UInt8 32) : Bytes :=
  pushLp rootDomain (bytesOf sessionId) ++ root.toList

/-- `verify_root_hex`: false on a bad key, a bad signature or a bad match. -/
def verifyRootHex (ed : Ed25519) (pubkeyHex sessionId : String) (root : Vector UInt8 32)
    (sigHex : String) : Bool :=
  match verifyingKeyFromHex ed pubkeyHex, signatureFromHex sigHex with
  | some key, some signature => ed.verifyStrict key (rootPreimage sessionId root) signature
  | _, _ => false

/-- The root at the end has one length, so the preimage determines what it is made of. -/
theorem rootPreimage_injective {sessionId sessionId' : String} {root root' : Vector UInt8 32}
    (h : rootPreimage sessionId root = rootPreimage sessionId' root') :
    sessionId = sessionId' ∧ root = root' := by
  unfold rootPreimage pushLp at h
  have hlength : root.toList.length = root'.toList.length := by
    rw [Vector.length_toList, Vector.length_toList]
  obtain ⟨hprefixed, hroot⟩ := List.append_inj' h hlength
  rw [List.append_assoc, List.append_assoc] at hprefixed
  have hsession : bytesOf sessionId = bytesOf sessionId' :=
    List.append_inj_right (List.append_cancel_left hprefixed) rfl
  exact ⟨Utf8.bytesOf_injective hsession, Vector.toList_inj.mp hroot⟩

example : rootPreimage "s1" (Vector.replicate 32 7) =
    rootDomain ++ [0, 0, 0, 2, 115, 49] ++ List.replicate 32 7 := by decide

end ProtocolEnforcer
