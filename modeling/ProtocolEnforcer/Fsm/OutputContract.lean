import ProtocolEnforcer.Fsm.World

/-!
# The completion checks (`crates/fsm/src/{transitions,profile_engine}.rs`)

What the final checklist looks at besides its criteria: the integrity of the
session's artifacts, and the output contract. Neither reads or changes the engine's
mutable half beyond the session's artifact map.
-/

namespace ProtocolEnforcer

/-- The loop of `confine_output_destination` over the components of `base.join(raw)`. -/
def normalizeComponents (escapes : FsmError) :
    (normalized : List Component) → List Component → Except FsmError (List Component)
  | normalized, [] => .ok normalized
  | normalized, .curDir :: cs => normalizeComponents escapes normalized cs
  | normalized, .parentDir :: cs =>
    match normalized.getLast? with
    | some (.normal _) => normalizeComponents escapes normalized.dropLast cs
    | _ => .error escapes
  | _, .rootDir :: cs => normalizeComponents escapes [.rootDir] cs
  | normalized, .normal name :: cs => normalizeComponents escapes (normalized ++ [.normal name]) cs

/-- `confine_output_destination`; the result is the path's components. -/
def confineOutputDestination (base destination : String) : Except FsmError (List Component) :=
  if Text.hasChar destination '\x00' then
    .error (.outputContractViolation
      "output_contract.destination must not contain a NUL byte")
  else if UnixPath.isAbsolute destination then
    .error (.outputContractViolation
      ("output_contract.destination must be relative to the output base, got absolute '" ++
        destination ++ "'"))
  else
    let escapes : FsmError := .outputContractViolation
      ("output_contract.destination escapes the output base: '" ++ destination ++ "'")
    match normalizeComponents escapes []
        (UnixPath.components (UnixPath.join base destination)) with
    | .error e => .error e
    | .ok normalized =>
      if UnixPath.startsWith normalized (UnixPath.components base) then .ok normalized
      else .error escapes

/-- `validate_output`, with the text of the error it returns. -/
def validateOutput (vendor : Vendor) (payload schema : Json) : Except String Unit :=
  match vendor.schemaError schema with
  | some e => .error ("Schema error: " ++ e)
  | none =>
    match vendor.payloadErrors schema payload with
    | [] => .ok ()
    | errors => .error ("Validation failed: " ++ "; ".intercalate errors)

/-- An output is accepted by a schema that compiles and finds nothing wrong with it. -/
theorem validateOutput_ok {vendor : Vendor} {payload schema : Json} :
    validateOutput vendor payload schema = .ok () ↔
      vendor.schemaError schema = none ∧ vendor.payloadErrors schema payload = [] := by
  unfold validateOutput
  cases vendor.schemaError schema with
  | some e => simp
  | none => cases vendor.payloadErrors schema payload <;> simp

namespace ProfileFsmEngine

variable (engine : ProfileFsmEngine) (host : Host)

/-- `validate_and_write_output`: the written path and the digest of its bytes. -/
def validateAndWriteOutput (sid : String) (contract : OutputContract) (output : Option Json) :
    Except FsmError (String × String) :=
  match output with
  | none => .error (.outputContractViolation "output is required on the final checklist")
  | some output =>
    match validateOutput engine.vendor output contract.schema with
    | .error e => .error (.outputContractViolation e)
    | .ok () =>
      let destination := Text.replace contract.destination "\x7bsession_id\x7d" sid
      match confineOutputDestination engine.config.outputBase destination with
      | .error e => .error e
      | .ok confined =>
        let parent := confined.dropLast
        match if parent = [] then .ok () else host.createDirAll (UnixPath.render parent) with
        | .error e => .error (.internal ("failed to create output dir: " ++ e))
        | .ok () =>
          let bytes := bytesOf (engine.vendor.toStringPretty output)
          match host.write (UnixPath.render confined) with
          | .error e => .error (.internal ("failed to write output contract: " ++ e))
          | .ok () => .ok (UnixPath.render confined, toHex (engine.vendor.sha256 bytes))

/-- The write `validate_and_write_output` comes to, if it does: the confined destination
and the bytes. -/
def outputWrite (sid : String) (contract : OutputContract) (output : Option Json) :
    Option (List Component × Bytes) :=
  match output with
  | none => none
  | some output =>
    match validateOutput engine.vendor output contract.schema with
    | .error _ => none
    | .ok () =>
      let destination := Text.replace contract.destination "\x7bsession_id\x7d" sid
      match confineOutputDestination engine.config.outputBase destination with
      | .error _ => none
      | .ok confined =>
        let parent := confined.dropLast
        match if parent = [] then .ok () else host.createDirAll (UnixPath.render parent) with
        | .error _ => none
        | .ok () => some (confined, bytesOf (engine.vendor.toStringPretty output))

/-- The loop of `verify_session_artifacts`. -/
def verifyRefs (store : ArtifactStore) : List ArtifactRef → Except FsmError Unit
  | [] => .ok ()
  | aref :: refs =>
    match store.verify engine.vendor.sha256 host.artifacts aref with
    | .error e => .error (.artifact e)
    | .ok false => .error (.outputContractViolation
        ("artifact integrity check failed (content changed since offload): " ++ aref.path))
    | .ok true => verifyRefs store refs

/-- `verify_session_artifacts`. -/
def verifySessionArtifacts (sid : String) (session : Option SessionState) :
    Except FsmError Unit :=
  match (host.artifactOrder.walk (session.elim [] (·.artifacts))).map Prod.snd with
  | [] => .ok ()
  | refs =>
    match ArtifactStore.new host.artifacts sid engine.config.artifactRoot with
    | .error e => .error (.artifact e)
    | .ok store => verifyRefs engine host store refs

/-! ## How completion can fail -/

/-- The errors of a completion: a violation, an artifact, or the file system. -/
def CompletionError (e : FsmError) : Prop :=
  (∃ m, e = .outputContractViolation m) ∨ (∃ a, e = .artifact a) ∨
    ∃ m, e = .internal ("failed to create output dir: " ++ m) ∨
      e = .internal ("failed to write output contract: " ++ m)

variable {engine host} {sid : String} {e : FsmError}

theorem verifyRefs_error {store : ArtifactStore} {refs : List ArtifactRef}
    (h : verifyRefs engine host store refs = .error e) : CompletionError e := by
  induction refs with
  | nil => cases h
  | cons aref refs ih =>
    rw [verifyRefs] at h
    split at h
    · cases h
      exact Or.inr (Or.inl ⟨_, rfl⟩)
    · cases h
      exact Or.inl ⟨_, rfl⟩
    · exact ih h

theorem verifySessionArtifacts_error {session : Option SessionState}
    (h : verifySessionArtifacts engine host sid session = .error e) : CompletionError e := by
  unfold verifySessionArtifacts at h
  split at h
  · cases h
  · split at h
    · cases h
      exact Or.inr (Or.inl ⟨_, rfl⟩)
    · exact verifyRefs_error h

theorem normalizeComponents_error {escapes : FsmError} {normalized cs : List Component}
    (h : normalizeComponents escapes normalized cs = .error e) : e = escapes := by
  induction cs generalizing normalized with
  | nil => cases h
  | cons c cs ih =>
    cases c with
    | parentDir =>
      rw [normalizeComponents] at h
      split at h
      · exact ih h
      · exact (Except.error.inj h).symm
    | curDir | rootDir | normal => exact ih h

theorem confineOutputDestination_error {base destination : String}
    (h : confineOutputDestination base destination = .error e) :
    ∃ m, e = .outputContractViolation m := by
  unfold confineOutputDestination at h
  split at h
  · cases h
    exact ⟨_, rfl⟩
  split at h
  · cases h
    exact ⟨_, rfl⟩
  dsimp only at h
  split at h
  · rename_i heq
    cases h
    exact ⟨_, normalizeComponents_error heq⟩
  split at h
  · cases h
  · cases h
    exact ⟨_, rfl⟩

theorem validateAndWriteOutput_error {contract : OutputContract} {output : Option Json}
    (h : validateAndWriteOutput engine host sid contract output = .error e) :
    CompletionError e := by
  unfold validateAndWriteOutput at h
  split at h
  · cases h
    exact Or.inl ⟨_, rfl⟩
  split at h
  · cases h
    exact Or.inl ⟨_, rfl⟩
  dsimp only at h
  split at h
  · cases h
    exact Or.inl (confineOutputDestination_error ‹_›)
  split at h
  · cases h
    exact Or.inr (Or.inr ⟨_, Or.inl rfl⟩)
  split at h
  · cases h
    exact Or.inr (Or.inr ⟨_, Or.inr rfl⟩)
  · cases h

/-- **What is written**: the operation returns when its write does, and names the file and
the digest of its bytes. -/
theorem validateAndWriteOutput_ok {contract : OutputContract} {output : Option Json}
    {written : String × String} :
    validateAndWriteOutput engine host sid contract output = .ok written ↔
      ∃ confined bytes, outputWrite engine host sid contract output = some (confined, bytes) ∧
        host.write (UnixPath.render confined) = .ok () ∧
        written = (UnixPath.render confined, toHex (engine.vendor.sha256 bytes)) := by
  unfold validateAndWriteOutput outputWrite
  cases output with
  | none => simp
  | some output =>
    dsimp only
    cases validateOutput engine.vendor output contract.schema with
    | error e => simp
    | ok u =>
      dsimp only
      cases confineOutputDestination engine.config.outputBase
          (Text.replace contract.destination "\x7bsession_id\x7d" sid) with
      | error e => simp
      | ok confined =>
        dsimp only
        generalize (if confined.dropLast = [] then Except.ok ()
          else host.createDirAll (UnixPath.render confined.dropLast)) = created
        cases created with
        | error e => simp
        | ok u =>
          dsimp only
          cases hw : host.write (UnixPath.render confined) with
          | error e =>
            refine ⟨fun h => (nomatch h), ?_⟩
            rintro ⟨_, _, hsome, hok, -⟩
            cases hsome
            rw [hw] at hok
            cases hok
          | ok u =>
            constructor
            · intro h
              cases h
              exact ⟨_, _, rfl, hw, rfl⟩
            · rintro ⟨_, _, hsome, -, rfl⟩
              cases hsome
              rfl

end ProfileFsmEngine

end ProtocolEnforcer
