import ProtocolEnforcer.Fsm.Finished
import ProtocolEnforcer.Gateway.SignedMessages
import ProtocolEnforcer.Ledger.FromLeaves
import ProtocolEnforcer.Notary.Hex

/-!
# The seal (`crates/notary/src/{lib,approval}.rs` and its two programs, `crates/ledger/src/root.rs`)

A witness that holds a key signs the root of a session's ledger, and a human signs the entry
into a gate. Whoever rewrites the ledger can recompute its root, but the signature holds for
one session and one list of leaves, and so for the events that were appended.
-/

namespace ProtocolEnforcer

/-- `ed25519_dalek::SigningKey`, which is its 32-byte seed. -/
structure SigningKeys where
  verifyingKey : (seed : Bytes) → Bytes
  sign : (seed message : Bytes) → Bytes

/-- Ed25519 signs what it verifies. -/
structure SigningKeys.Lawful (keys : SigningKeys) (ed : Ed25519) : Prop where
  key_length : ∀ seed, seed.length = 32 → (keys.verifyingKey seed).length = 32
  isPoint : ∀ seed, seed.length = 32 → ed.isPoint (keys.verifyingKey seed) = true
  sign_length : ∀ seed message, seed.length = 32 → (keys.sign seed message).length = 64
  verifies : ∀ seed message, seed.length = 32 →
    ed.verifyStrict (keys.verifyingKey seed) message (keys.sign seed message) = true

/-- A digest as the array it is. -/
def Digest.toVector (d : Digest) : Vector UInt8 32 := ⟨d.bytes.toArray, by simp [d.length_eq]⟩

theorem Digest.toVector_injective {d d' : Digest} (h : d.toVector = d'.toVector) : d = d' := by
  obtain ⟨bytes, hlength⟩ := d
  obtain ⟨bytes', hlength'⟩ := d'
  have hbytes : bytes = bytes' := congrArg (fun v => v.toArray.toList) h
  subst hbytes
  rfl

/-! ## `crates/ledger/src/root.rs` -/

section

variable (sha256 : Bytes → Digest)

/-- `transcript_root_bytes`, of the session's ledger file. -/
def transcriptRootBytes (file : Option Bytes) : Except LedgerError Digest :=
  (Ledger.lines file).map (Merkle.root sha256)

/-- `transcript_root_hex`. -/
def transcriptRootHex (file : Option Bytes) : Except LedgerError String :=
  (Ledger.lines file).map fun leaves => toHex (Merkle.root sha256 leaves).bytes

/-- The gateway's completion answers what the offline tools compute. -/
theorem transcriptRootIn_eq (file : Option Bytes) :
    transcriptRootIn sha256 file = (transcriptRootHex sha256 file).toOption := by
  rw [transcriptRootIn, transcriptRootHex]
  cases Ledger.lines file <;> rfl

end

/-! ## Keys and signatures -/

section

variable (keys : SigningKeys) (sha256 : Bytes → Digest)

/-- `key_id`: the first 16 digits of the key's hash. -/
def keyId (key : Bytes) : String := String.ofList ((toHex (sha256 key).bytes).toList.take 16)

/-- `key_id_from_hex`. -/
def keyIdFromHex (ed : Ed25519) (pubkeyHex : String) : Option String :=
  (verifyingKeyFromHex ed pubkeyHex).map (keyId sha256)

/-- `sign_root`. -/
def signRoot (seed : Bytes) (sessionId : String) (root : Digest) : Bytes :=
  keys.sign seed (rootPreimage sessionId root.toVector)

/-- `sign_approval`. -/
def signApproval (seed : Bytes) (sessionId macroId subStateId challengeHex : String) : String :=
  toHex (keys.sign seed (bytesOf (approvalMessage sessionId macroId subStateId challengeHex)))

/-- `sign_approval_hex`. -/
def signApprovalHex (seedHex sessionId macroId subStateId challengeHex : String) :
    Option String :=
  (signingKeyFromSeedHex seedHex).map fun seed =>
    signApproval keys seed sessionId macroId subStateId challengeHex

/-- `pubkey_hex_from_seed_hex`. -/
def pubkeyHexFromSeedHex (seedHex : String) : Option String :=
  (signingKeyFromSeedHex seedHex).map fun seed => toHex (keys.verifyingKey seed)

/-- `notary-keygen`: seed, public key and key id, as it prints them. -/
def notaryKeygen (getrandom : Except String Bytes) : Except String (String × String × String) :=
  match getrandom with
  | .error e => .error ("getrandom failed: " ++ e)
  | .ok seed => .ok (toHex seed, toHex (keys.verifyingKey seed), keyId sha256 (keys.verifyingKey seed))

/-- `SigFile`. -/
structure SigFile where
  domain : String
  sessionId : String
  transcriptRoot : String
  keyId : String
  pubkey : String
  sig : String

/-- `SigFile::new`. -/
def SigFile.new (sessionId : String) (root : Digest) (key sig : Bytes) : SigFile where
  domain := "protocol/transcript-root/v1"
  sessionId
  transcriptRoot := toHex root.bytes
  keyId := ProtocolEnforcer.keyId sha256 key
  pubkey := toHex key
  sig := toHex sig

/-! ## `notary-sign` -/

/-- Its arguments, with the environment's for those that are not given. -/
structure NotaryArgs where
  sessionId : String
  ledgerDir : String
  keySeed : Option String
  keyFile : Option String
  out : Option String

/-- What the file system answers it. -/
structure NotaryIo where
  readToString : String → Except String String
  read : String → Option Bytes
  write : Except String Unit

/-- How it ends. -/
inductive NotaryEnd where
  /-- `exit(2)`, with a message. -/
  | exited (message : String)
  /-- `main` returns an error. -/
  | failed (e : String)
  /-- The sidecar is at this path. -/
  | signed (out : String) (file : SigFile)

/-- The seed that `notary-sign` signs with, as text. -/
def NotaryArgs.seedHex (args : NotaryArgs) (io : NotaryIo) : Except NotaryEnd String :=
  match args.keySeed, args.keyFile with
  | some s, _ => .ok s
  | none, some p => ((io.readToString p).map trim).mapError .failed
  | none, none => .error (.exited ("notary-sign: no signing key. Provide --key-seed / " ++
      "$PROTOCOL_NOTARY_SK or --key-file. The seed must live outside the ledger writer's reach."))

/-- `Ledger::lines`' path. -/
def NotaryArgs.ledger (args : NotaryArgs) : String :=
  UnixPath.join args.ledgerDir (args.sessionId ++ ".jsonl")

/-- `notary-sign`. -/
def notarySign (io : NotaryIo) (args : NotaryArgs) : NotaryEnd :=
  match args.seedHex io with
  | .error e => e
  | .ok seedHex =>
    match signingKeyFromSeedHex seedHex with
    | none => .exited "notary-sign: signing key is not a valid 32-byte hex seed"
    | some seed =>
      match transcriptRootBytes sha256 (io.read args.ledger) with
      | .error e => .exited ("notary-sign: cannot read ledger for '" ++ args.sessionId ++ "': " ++
          e.display)
      | .ok root =>
        let key := keys.verifyingKey seed
        let sig := signRoot keys seed args.sessionId root
        match io.write with
        | .error e => .failed e
        | .ok () => .signed (args.out.getD (UnixPath.join args.ledgerDir (args.sessionId ++ ".sig")))
            (.new sha256 args.sessionId root key sig)

end

/-! ## Round trips -/

section

variable {keys : SigningKeys} {ed : Ed25519} {sha256 : Bytes → Digest} {seed : Bytes}

theorem length_of_signingKey {seedHex : String} (h : signingKeyFromSeedHex seedHex = some seed) :
    seed.length = 32 := by
  have hfilter := (Option.filter_eq_some_iff.mp h).2
  exact of_decide_eq_true hfilter

theorem fromHexN_toHex {n : Nat} {b : Bytes} (h : b.length = n) : fromHexN n (toHex b) = some b := by
  rw [fromHexN, fromHex_toHex, Option.filter_some, if_pos (decide_eq_true h)]

/-- The key that is printed is the one that is read. -/
theorem verifyingKeyFromHex_toHex (hkeys : keys.Lawful ed) (hseed : seed.length = 32) :
    verifyingKeyFromHex ed (toHex (keys.verifyingKey seed)) = some (keys.verifyingKey seed) := by
  rw [verifyingKeyFromHex, fromHexN_toHex (hkeys.key_length seed hseed), Option.filter_some,
    if_pos (hkeys.isPoint seed hseed)]

theorem signatureFromHex_toHex (hkeys : keys.Lawful ed) (hseed : seed.length = 32)
    (message : Bytes) :
    signatureFromHex (toHex (keys.sign seed message)) = some (keys.sign seed message) :=
  fromHexN_toHex (hkeys.sign_length seed message hseed)

/-- A signed root verifies. -/
theorem verifyRootHex_signRoot (hkeys : keys.Lawful ed) (hseed : seed.length = 32)
    (sessionId : String) (root : Digest) :
    verifyRootHex ed (toHex (keys.verifyingKey seed)) sessionId root.toVector
      (toHex (signRoot keys seed sessionId root)) = true := by
  unfold verifyRootHex signRoot
  rw [verifyingKeyFromHex_toHex hkeys hseed, signatureFromHex_toHex hkeys hseed]
  exact hkeys.verifies seed _ hseed

/-- So does a signed approval, under the key that belongs into the profile. -/
theorem verifyApprovalHex_signApprovalHex (hkeys : keys.Lawful ed)
    {seedHex pubkeyHex sigHex sessionId macroId subStateId challengeHex : String}
    (hkey : pubkeyHexFromSeedHex keys seedHex = some pubkeyHex)
    (hsig : signApprovalHex keys seedHex sessionId macroId subStateId challengeHex = some sigHex) :
    isValidApproverPubkey ed pubkeyHex = true ∧
      verifyApprovalHex ed pubkeyHex sessionId macroId subStateId challengeHex sigHex = true := by
  obtain ⟨seed, hs, rfl⟩ := Option.map_eq_some_iff.mp hkey
  obtain ⟨seed', hs', rfl⟩ := Option.map_eq_some_iff.mp hsig
  obtain rfl := Option.some.inj (hs.symm.trans hs')
  have hseed := length_of_signingKey hs
  unfold isValidApproverPubkey verifyApprovalHex signApproval
  rw [verifyingKeyFromHex_toHex hkeys hseed, signatureFromHex_toHex hkeys hseed]
  exact ⟨rfl, hkeys.verifies seed _ hseed⟩

/-- The key id in a sidecar is that of its public key. -/
theorem keyIdFromHex_toHex (hkeys : keys.Lawful ed) (hseed : seed.length = 32) :
    keyIdFromHex sha256 ed (toHex (keys.verifyingKey seed)) =
      some (keyId sha256 (keys.verifyingKey seed)) := by
  rw [keyIdFromHex, verifyingKeyFromHex_toHex hkeys hseed, Option.map_some]

/-- What `notary-keygen` prints belongs together, and can be read back. -/
theorem notaryKeygen_ok (hkeys : keys.Lawful ed) (hseed : seed.length = 32)
    {seedHex pubkeyHex id : String}
    (h : notaryKeygen keys sha256 (.ok seed) = .ok (seedHex, pubkeyHex, id)) :
    signingKeyFromSeedHex seedHex = some seed ∧
      pubkeyHexFromSeedHex keys seedHex = some pubkeyHex ∧
      keyIdFromHex sha256 ed pubkeyHex = some id := by
  cases h
  have hread : signingKeyFromSeedHex (toHex seed) = some seed := fromHexN_toHex hseed
  exact ⟨hread, by rw [pubkeyHexFromSeedHex, hread, Option.map_some], keyIdFromHex_toHex hkeys hseed⟩

/-- What is in the sidecar. -/
theorem notarySign_signed {io : NotaryIo} {args : NotaryArgs} {out : String} {file : SigFile}
    (h : notarySign keys sha256 io args = .signed out file) :
    ∃ seed root, seed.length = 32 ∧
      transcriptRootBytes sha256 (io.read args.ledger) = .ok root ∧
      file = .new sha256 args.sessionId root (keys.verifyingKey seed)
        (signRoot keys seed args.sessionId root) := by
  unfold notarySign at h
  split at h
  · next heq =>
    subst h
    rw [NotaryArgs.seedHex] at heq
    split at heq
    · cases heq
    · rename_i p _ _
      cases hr : io.readToString p <;> rw [hr] at heq <;> cases heq
    · cases heq
  split at h
  · cases h
  rename_i seed hseed
  split at h
  · cases h
  rename_i root hroot
  dsimp only at h
  split at h
  · cases h
  · cases h
    exact ⟨seed, root, length_of_signingKey hseed, hroot, rfl⟩

/-! ## What a seal commits to -/

theorem transcriptRootBytes_ok {file : Option Bytes} {root : Digest}
    (h : transcriptRootBytes sha256 file = .ok root) :
    ∃ leaves, Ledger.lines file = .ok leaves ∧ root = Merkle.root sha256 leaves := by
  unfold transcriptRootBytes at h
  cases hlines : Ledger.lines file with
  | error e =>
    rw [hlines] at h
    cases h
  | ok leaves =>
    rw [hlines] at h
    cases h
    exact ⟨leaves, rfl, rfl⟩

/-- A signature that is good for two roots is reused, or they are one root of one session. -/
theorem verifyRootHex_binds {pubkeyHex sigHex sessionId sessionId' : String} {root root' : Digest}
    (h : verifyRootHex ed pubkeyHex sessionId root.toVector sigHex = true)
    (h' : verifyRootHex ed pubkeyHex sessionId' root'.toVector sigHex = true) :
    (sessionId' = sessionId ∧ root' = root) ∨ Reused ed pubkeyHex sigHex
      (rootPreimage sessionId root.toVector) (rootPreimage sessionId' root'.toVector) := by
  have hboth : Signed.transcript sessionId root.toVector = .transcript sessionId' root'.toVector ∨
      Reused ed pubkeyHex sigHex (rootPreimage sessionId root.toVector)
        (rootPreimage sessionId' root'.toVector) := Signed.verifies_both trivial trivial h h'
  refine hboth.imp_left fun hsame => ?_
  obtain ⟨hsession, hroot⟩ := Signed.transcript.inj hsame
  exact ⟨hsession.symm, (Digest.toVector_injective hroot).symm⟩

/-- **A seal commits to the events.** Of a ledger file with the events `es` appended,
`notary-sign` writes a signature that verifies for this session and this file, with the root a
completed session is answered with and the key's own id. And whatever session and file it
verifies for under this key, they are this session and a file of the same leaves, which replays
to `es`; unless it is good for two different messages, or two of the strings hashed collide. -/
theorem seal_commits {Event : Type} {json : SerdeJson Event} {io : NotaryIo} {args : NotaryArgs}
    {out : String} {sidecar : SigFile} {file : Bytes} {es : List Event} (hkeys : keys.Lawful ed)
    (hj : json.Lawful) (hfile : io.read args.ledger = some file)
    (happ : Ledger.Appends json [] es file)
    (hsigned : notarySign keys sha256 io args = .signed out sidecar) :
    transcriptRootIn sha256 (some file) = some sidecar.transcriptRoot ∧
      keyIdFromHex sha256 ed sidecar.pubkey = some sidecar.keyId ∧
      (∀ root, transcriptRootBytes sha256 (some file) = .ok root →
        verifyRootHex ed sidecar.pubkey args.sessionId root.toVector sidecar.sig = true) ∧
      ∀ sessionId' file' root', transcriptRootBytes sha256 (some file') = .ok root' →
        verifyRootHex ed sidecar.pubkey sessionId' root'.toVector sidecar.sig = true →
          (sessionId' = args.sessionId ∧ Ledger.lines (some file') = Ledger.lines (some file) ∧
            Ledger.replay json (some file') = .ok es) ∨
          (∃ root, transcriptRootBytes sha256 (some file) = .ok root ∧
            Reused ed sidecar.pubkey sidecar.sig (rootPreimage args.sessionId root.toVector)
              (rootPreimage sessionId' root'.toVector)) ∨
          ∃ leaves leaves', Ledger.lines (some file) = .ok leaves ∧
            Ledger.lines (some file') = .ok leaves' ∧
            Merkle.Collision sha256
              (Merkle.rootHashed sha256 leaves ++ Merkle.rootHashed sha256 leaves') := by
  obtain ⟨seed, root, hseed, hroot, rfl⟩ := notarySign_signed hsigned
  rw [hfile] at hroot
  obtain ⟨leaves, hleaves, rfl⟩ := transcriptRootBytes_ok hroot
  have hgood := verifyRootHex_signRoot hkeys hseed args.sessionId (Merkle.root sha256 leaves)
  refine ⟨?_, keyIdFromHex_toHex hkeys hseed, ?_, ?_⟩
  · rw [transcriptRootIn, hleaves]
    rfl
  · intro root' hroot'
    obtain rfl := Except.ok.inj (hroot.symm.trans hroot')
    exact hgood
  · intro sessionId' file' root' hroot' hverifies
    rcases verifyRootHex_binds hgood hverifies with ⟨rfl, hsame⟩ | hreused
    · obtain ⟨leaves', hleaves', rfl⟩ := transcriptRootBytes_ok hroot'
      by_cases hno : Merkle.Collision sha256
          (Merkle.rootHashed sha256 leaves ++ Merkle.rootHashed sha256 leaves')
      · exact Or.inr (Or.inr ⟨leaves, leaves', hleaves, hleaves', hno⟩)
      · obtain rfl := Merkle.root_injective hno (List.subset_append_right _ _)
          (List.subset_append_left _ _) hsame
        refine Or.inl ⟨rfl, hleaves'.trans hleaves.symm, ?_⟩
        exact (Ledger.replay_congr json (hleaves'.trans hleaves.symm) es).mpr
          (Ledger.replay_whole hj happ)
    · exact Or.inr (Or.inl ⟨_, hroot, hreused⟩)

end

/-! ## One signature

Ed25519 on one key and one message. -/

namespace Sample

/-- The seed of `publicKey`. -/
def seedHex : String := "9d61b19deffd5a60ba844af492ec2cc44449c5697b326919703bac031cae7f60"

def keyBytes : Bytes := (fromHex publicKey).getD []

/-- A signer that has one signature to give. -/
def signerOf (message sig : Bytes) : SigningKeys where
  verifyingKey seed := if some seed = fromHex seedHex then keyBytes else List.replicate 32 0
  sign seed m := if some seed = fromHex seedHex ∧ m = message then sig else List.replicate 64 0

def verifierOf (message sig : Bytes) : Ed25519 where
  isPoint _ := true
  verifyStrict key m sig' :=
    if key = keyBytes ∧ m = message then sig' = sig else sig' = List.replicate 64 0

theorem signerOf_lawful {message sig : Bytes} (h : sig.length = 64) :
    (signerOf message sig).Lawful (verifierOf message sig) where
  key_length seed _ := by
    dsimp only [signerOf]
    split
    · decide
    · rfl
  isPoint _ _ := rfl
  sign_length seed m _ := by
    dsimp only [signerOf]
    split
    · exact h
    · rfl
  verifies seed m _ := by
    dsimp only [signerOf, verifierOf]
    by_cases hseed : some seed = fromHex seedHex
    · rw [if_pos hseed]
      by_cases hmessage : m = message
      · rw [if_pos ⟨rfl, hmessage⟩, if_pos ⟨hseed, hmessage⟩, decide_eq_true rfl]
      · rw [if_neg fun h => hmessage h.2, if_neg fun h => hmessage h.2, decide_eq_true rfl]
    · have hother : ¬List.replicate 32 (0 : UInt8) = keyBytes := by decide
      rw [if_neg hseed, if_neg fun h => hother h.1, if_neg fun h => hseed h.1, decide_eq_true rfl]

/-! ## A ledger of three lines, sealed -/

/-- The bytes of a hexadecimal digest. -/
def digestOf (hex : String) (h : ((fromHex hex).getD []).length = 32) : Digest :=
  ⟨(fromHex hex).getD [], h⟩

def hashOfKey : Digest :=
  digestOf "21fe31dfa154a261626bf854046fd2271b7bed4b6abe45aa58877ef47f9721b9" (by decide)

def hashOfFirst : Digest :=
  digestOf "ef9418573dd9b4da904dadf5a7a55ae186a95969e562314e004d10cc348de341" (by decide)

def hashOfSecond : Digest :=
  digestOf "63b85543b9362575d3658e2346c83bf2a801c257ebfbbee1fb0b5d8ba1dfb723" (by decide)

def hashOfThird : Digest :=
  digestOf "5e9fc01dfc4dfe2ebb5a7999751e5597b3706ca9bab2bc87aa4008a4813993bf" (by decide)

/-- The node over the first two lines. -/
def hashOfPair : Digest :=
  digestOf "81a5c352d26906a7daa023e1ac3e466dca6151394e6793a36a25298de2324444" (by decide)

def rootOfLines : Digest :=
  digestOf "866e86d033779e3eda80366ce2968cf62d596894fd96ffdc9a9de57a2f56f02a" (by decide)

/-- The events 1, 2 and 3. -/
def sealedEvents : List (Fin 10) := ((List.finRange 10).drop 1).take 3

/-- Their lines, as leaves. -/
def sealedLeaves : List Bytes := sealedEvents.map fun d => bytesOf (Ledger.submittedText d)

/-- SHA-256 on the key, the lines and the nodes over them. -/
def hashLines (input : Bytes) : Digest :=
  if input = keyBytes then hashOfKey
  else if input = Merkle.leafInput (sealedLeaves.getD 0 []) then hashOfFirst
  else if input = Merkle.leafInput (sealedLeaves.getD 1 []) then hashOfSecond
  else if input = Merkle.leafInput (sealedLeaves.getD 2 []) then hashOfThird
  else if input = Merkle.nodeInput hashOfFirst hashOfSecond then hashOfPair
  else rootOfLines

/-- The signature of the session `s` with this root. -/
def sealBytes : Bytes :=
  (fromHex ("09d090e00b0381e8dc72990d3408bce96bf962f7e2e6ebb19060f05c2da6d17e" ++
    "7d9e9efb97f1fd60b6aef0eb6de4c2413f262720718cc617452495ebef379003")).getD []

def signingKeys : SigningKeys := signerOf (rootPreimage "s" rootOfLines.toVector) sealBytes

def sealEd : Ed25519 := verifierOf (rootPreimage "s" rootOfLines.toVector) sealBytes

def notaryArgs : NotaryArgs := ⟨"s", "./ledger", some seedHex, none, none⟩

/-- A ledger file of three events. -/
def sealedFile : Bytes := Lines.frames (sealedEvents.map Ledger.submittedText)

/-- Whatever ledger is read has the three lines. -/
def notaryIo : NotaryIo where
  readToString _ := .error "No such file or directory (os error 2)"
  read _ := some sealedFile
  write := .ok ()

end Sample

/-- The root of the three lines, node by node. -/
theorem Sample.transcriptRootBytes_sealedFile :
    transcriptRootBytes Sample.hashLines (some Sample.sealedFile) = .ok Sample.rootOfLines := by
  have hlines : Ledger.lines (some Sample.sealedFile) = .ok Sample.sealedLeaves := by
    decide +kernel
  have hpair : Merkle.root Sample.hashLines (Sample.sealedLeaves.take 2) = Sample.hashOfPair := by
    rw [Merkle.root_split _ (by decide), show Merkle.front (Sample.sealedLeaves.take 2) =
      [Sample.sealedLeaves.getD 0 []] from rfl, show Merkle.back (Sample.sealedLeaves.take 2) =
      [Sample.sealedLeaves.getD 1 []] from rfl, Merkle.root, Merkle.root]
    decide +kernel
  have hroot : Merkle.root Sample.hashLines Sample.sealedLeaves = Sample.rootOfLines := by
    rw [Merkle.root_split _ (by decide), show Merkle.front Sample.sealedLeaves =
      Sample.sealedLeaves.take 2 from rfl, show Merkle.back Sample.sealedLeaves =
      [Sample.sealedLeaves.getD 2 []] from rfl, hpair, Merkle.root]
    decide +kernel
  rw [transcriptRootBytes, hlines, ← hroot]
  rfl

/-- The three lines are sealed, and the seal verifies. -/
theorem seal_commits_lines :
    ∃ out sidecar, notarySign Sample.signingKeys Sample.hashLines Sample.notaryIo Sample.notaryArgs =
        .signed out sidecar ∧
      transcriptRootIn Sample.hashLines (some Sample.sealedFile) =
        some sidecar.transcriptRoot ∧
      verifyRootHex Sample.sealEd sidecar.pubkey "s" Sample.rootOfLines.toVector sidecar.sig =
        true := by
  have hroot : transcriptRootBytes Sample.hashLines (some Sample.sealedFile) =
      .ok Sample.rootOfLines := Sample.transcriptRootBytes_sealedFile
  have hfile : Sample.notaryIo.read Sample.notaryArgs.ledger =
      some Sample.sealedFile := rfl
  have hlength : Sample.sealBytes.length = 64 := by decide +kernel
  obtain ⟨seed, hseed⟩ : ∃ seed, signingKeyFromSeedHex Sample.seedHex = some seed :=
    Option.isSome_iff_exists.mp (by decide)
  have hsigned : notarySign Sample.signingKeys Sample.hashLines Sample.notaryIo Sample.notaryArgs =
      .signed "./ledger/s.sig" (.new Sample.hashLines "s" Sample.rootOfLines
        (Sample.signingKeys.verifyingKey seed)
        (signRoot Sample.signingKeys seed "s" Sample.rootOfLines)) := by
    unfold notarySign
    rw [show Sample.notaryArgs.seedHex Sample.notaryIo = .ok Sample.seedHex from rfl]
    dsimp only
    rw [hseed, hfile, hroot]
    rfl
  obtain ⟨htold, -, hverifies, -⟩ := seal_commits (Sample.signerOf_lawful hlength)
    Ledger.submittedJson_lawful hfile (Ledger.appends_quiet [] Sample.sealedEvents) hsigned
  exact ⟨_, _, hsigned, htold, hverifies _ hroot⟩

end ProtocolEnforcer
