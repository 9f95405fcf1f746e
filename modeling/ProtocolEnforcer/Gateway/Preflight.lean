import ProtocolEnforcer.Fsm.Positions
import ProtocolEnforcer.Gateway.Server

/-!
# The pre-flight validation covers the start

The gateway validates the profile as it is in the file; the engine it then builds keeps the
enabled macros only and validates again when the session starts. What the first validation
accepts the second does, so a start behind it never reports an invalid manifest.
-/

namespace ProtocolEnforcer

open Effect

/-- Not the verdict of a validation. -/
def FsmError.Later (e : FsmError) : Prop := ∀ text, e ≠ .manifestInvalid text

namespace ProfileFsmEngine

variable {L : Type} {engine : ProfileFsmEngine} {host : Host} {sid : String}

theorem getSession_later : Raises FsmError.Later (getSession (L := L) sid) := by
  refine .bind .reads fun session => .lift ?_
  cases session with
  | none =>
    intro e he
    cases he
    exact nofun
  | some s => exact nofun

theorem updateSession_later (f : SessionState → SessionState) :
    Raises FsmError.Later (updateSession (L := L) sid f) :=
  .bind getSession_later fun _ => .modified

theorem ledger_later {α : Type} {r : Except LedgerError α} :
    ∀ e, r.mapError FsmError.ledger = .error e → e.Later := by
  intro e he
  cases r with
  | ok a => cases he
  | error e' =>
    cases he
    exact nofun

variable [LedgerPort L]

theorem append_later (eventType : FsmEventType) (pos : Position) (payload : Json) :
    Raises FsmError.Later (append (L := L) host sid eventType pos payload) := by
  refine .bind (.bind .reads fun t => .bind .modified fun _ => .pure) fun t => ?_
  exact .bind .reads fun w => .bind .modified fun _ => .lift ledger_later

theorem enterSub_later (i j : Nat) (initialContext : Option Json) :
    Raises FsmError.Later (enterSub (L := L) engine host sid i j initialContext) := by
  refine .bind_lift ?_ fun injected _ => .bind_lift ?_ fun issued _ => ?_
  · intro e he
    obtain ⟨m, rfl⟩ := renderInjection_error he
    exact nofun
  · intro e he
    unfold issueFor at he
    split at he
    · cases he
    · split at he <;> cases he
      exact nofun
  · cases issued with
    | none => exact .pure
    | some challenge =>
      exact .bind (append_later _ _ _) fun _ => .bind (updateSession_later _) fun _ => .pure

/-- A start whose validation accepts and whose profile has an entry point fails later. -/
theorem startSession_later (hvalid : validated engine host = .ok ()) {m : StateDef} {k : Nat}
    (hentry : entryPoint engine = .ok (m, k)) (initialContext : Option Json) :
    Raises FsmError.Later (startSession (L := L) engine host sid initialContext) := by
  refine .bind_lift (fun e he => nomatch hvalid.symm.trans he) fun _ _ => ?_
  refine .bind_lift (fun e he => nomatch hentry.symm.trans he) fun mk _ => ?_
  refine .bind (.bind .reads fun t => .bind .modified fun _ => .pure) fun t => ?_
  refine .bind .modified fun _ => .bind (.tryCatch ?_ fun e he => ?_) fun _ => .pure
  · exact .bind (append_later _ _ _) fun _ => .bind (enterSub_later _ _ _) fun _ => .pure
  · exact .bind .modified fun _ => .throw he

end ProfileFsmEngine

/-- What a start behind an accepted profile is sure of. -/
structure Preflighted (vendor : Vendor) (library : Library) (p : Profile) : Prop where
  /-- The normalization is not empty, validates, and normalizes to itself. -/
  nonempty : p.withEnabledMacrosOnly.pipeline ≠ []
  validates : validateProfile vendor.toSchemas library p.withEnabledMacrosOnly = .ok ()
  fixed : p.withEnabledMacrosOnly.withEnabledMacrosOnly = p.withEnabledMacrosOnly
  /-- The rules hold of the pipeline that the engine steps through. -/
  rules : ∀ config, (ProfileFsmEngine.new vendor p config).profile.WellFormed vendor.ed
  /-- No start of its engine reports an invalid manifest. -/
  starts : ∀ {L : Type} [LedgerPort L] (config : FsmConfig) (host : Host) (sid : String)
    (initialContext : Option Json) (w : World L) (text : String), host.validation = library →
    (exec ((ProfileFsmEngine.new vendor p config).startSession host sid initialContext) w).1 ≠
      .error (.manifestInvalid text)

theorem preflighted {vendor : Vendor} {library : Library} {p : Profile}
    (hvalid : validateProfile vendor.toSchemas library p = .ok ()) :
    Preflighted vendor library p where
  nonempty := (validateProfile_wellFormed hvalid).nonempty
  validates := validateProfile_normalized hvalid
  fixed := p.withEnabledMacrosOnly_idem
  rules _ := validateProfile_wellFormed hvalid
  starts config host sid initialContext w text hlibrary herror := by
    subst hlibrary
    have hengine : ProfileFsmEngine.validated (.new vendor p config) host = .ok () := by
      have hnormalized : validateProfile (ProfileFsmEngine.new vendor p config).vendor.toSchemas
          host.validation (ProfileFsmEngine.new vendor p config).profile = .ok () :=
        validateProfile_normalized hvalid
      rw [ProfileFsmEngine.validated, hnormalized]
    obtain ⟨m, k, hentry⟩ : ∃ m k, ProfileFsmEngine.entryPoint (.new vendor p config) = .ok (m, k) :=
      ProfileFsmEngine.entryPoint_of_wellFormed (validateProfile_wellFormed hvalid)
    exact ProfileFsmEngine.startSession_later hengine hentry initialContext w _ herror text rfl

namespace Gateway

variable {F : Type} {gw : Gateway F} {io : Io}

/-- Not the verdict of the engine's validation. -/
def Covered (e : ErrorData) : Prop := ∀ text, e ≠ .fsm (.manifestInvalid text)

theorem mapError_covered {α β : Type} {f : α → ErrorData} {r : Except α β}
    (h : ∀ a, Covered (f a)) : ∀ e, r.mapError f = .error e → Covered e := by
  intro e he
  cases r with
  | ok b => cases he
  | error a =>
    cases he
    exact h a

theorem resolveLoadPath_covered {manifestPath : String} {wasName : Bool} :
    ∀ e, gw.resolveLoadPath io manifestPath wasName = .error e → Covered e := by
  intro e he
  unfold resolveLoadPath at he
  split at he
  · cases he
  · split at he
    · cases he
    · split at he
      · cases he
        exact nofun
      · split at he
        · cases he
          exact nofun
        · split at he <;> cases he
          exact nofun

theorem loadValid_covered {path : String} :
    ∀ e, gw.loadValid io path = .error e → Covered e := by
  intro e he
  unfold loadValid at he
  split at he
  · cases he
    exact nofun
  · split at he <;> cases he
    exact nofun

/-- What is loaded has passed the validator. -/
theorem loadValid_valid {path : String} {p : Profile} (h : gw.loadValid io path = .ok p) :
    validateProfile gw.vendor.toSchemas io.host.validation p = .ok () := by
  unfold loadValid at h
  split at h
  · cases h
  · split at h <;> cases h
    assumption

theorem writeSidecarAtomic_covered {sid : String} :
    Raises Covered (gw.writeSidecarAtomic io sid) := by
  refine .bind .modified fun _ => ?_
  split
  · exact .modified
  · exact .pure

variable [DecidableEq F]

theorem ledgerNew_covered {sid : String} : Raises Covered (gw.ledgerNew io sid) :=
  .bind .modified fun _ => .bind (.lift (mapError_covered fun _ => nofun)) fun _ =>
    .bind .modified fun _ => .pure

/-- The pre-flight validation stands before the engine's. -/
theorem launchSession_covered {sid manifestPath : String} {wasName : Bool}
    {initialContext : Option Json} :
    Raises Covered (gw.launchSession io sid manifestPath wasName initialContext) := by
  refine .bind_lift resolveLoadPath_covered fun loadPath _ => ?_
  refine .bind_lift loadValid_covered fun p hload => .bind ledgerNew_covered fun path => ?_
  intro s e he
  rw [exec_bind_ok exec_operate] at he
  refine Raises.bind (.lift ?_) (fun view => .pure) _ e he
  intro e he text hmanifest
  subst hmanifest
  have hstarts := (preflighted (loadValid_valid hload)).starts (L := SessionLedger)
    (gw.configFor io p loadPath) io.host sid initialContext
  cases hr : (exec ((ProfileFsmEngine.new gw.vendor p (gw.configFor io p loadPath)).startSession
    io.host sid initialContext) (gw.worldOf io ⟨_, fun _ => none, path⟩ s)).1 with
  | ok view =>
    rw [hr] at he
    cases he
  | error e' =>
    rw [hr] at he
    cases he
    exact hstarts _ text rfl hr

theorem claimLedger_covered {sid : String} : Raises Covered (gw.claimLedger io sid) := by
  refine .bind .modified fun _ => .bind .reads fun ledger => ?_
  split
  · exact .throw nofun
  · exact .bind (.lift (mapError_covered fun _ => nofun)) fun _ => .modified

theorem removeLedger_covered {sid : String} : Raises Covered (gw.removeLedger io sid) := by
  refine .bind .modified fun _ => ?_
  split
  · exact .modified
  · exact .pure

theorem validateSessionId_covered {sid : String} :
    ∀ e, validateSessionId sid = .error e → Covered e := by
  intro e he
  unfold validateSessionId at he
  split at he
  · cases he
    exact nofun
  · split at he
    · cases he
      exact nofun
    · split at he <;> cases he
      exact nofun

theorem startClaimed_covered {sid manifestPath : String} {wasName : Bool}
    {initialContext : Option Json} :
    Raises Covered (gw.startClaimed io sid manifestPath wasName initialContext) := by
  refine .bind (.lift (mapError_covered fun _ => nofun)) fun _ => ?_
  refine .bind claimLedger_covered fun _ => ?_
  refine .bind (.tryCatch launchSession_covered fun e he => ?_) fun launched => ?_
  · exact .bind removeLedger_covered fun _ => .throw he
  · exact .bind .modified fun _ => .bind writeSidecarAtomic_covered fun _ => .pure

/-- `protocol_start` answers an invalid manifest with the verdict of its own validation only. -/
theorem protocolStart_covered {req : StartRequest} :
    Raises Covered (gw.protocolStart io req) := by
  unfold protocolStart
  split
  · exact .throw nofun
  · refine .bind (.lift fun e he => ?_) fun _ => .bind .reads fun sessions => ?_
    · cases hid : req.sessionId with
      | none =>
        rw [hid] at he
        cases he
      | some sid =>
        rw [hid] at he
        exact validateSessionId_covered e he
    · split
      · exact .throw nofun
      · dsimp only
        split
        · exact .throw nofun
        · exact .bind startClaimed_covered fun view => .pure

end Gateway

/-- **Validation survives normalization.** What the validator accepts it accepts without the
disabled macros; so no start of the engine built from it, and no start of a gateway, reports an
invalid manifest once the pre-flight validation has passed. -/
theorem validation_survives_normalization {vendor : Vendor} {library : Library} {p : Profile}
    (hvalid : validateProfile vendor.toSchemas library p = .ok ()) :
    Preflighted vendor library p ∧
      ∀ {F : Type} [DecidableEq F] (gw : Gateway F) (io : Io) (req : Gateway.StartRequest)
        (s : ProtocolServer F) (text : String),
        (exec (gw.protocolStart io req) s).1 ≠ .error (.fsm (.manifestInvalid text)) :=
  ⟨preflighted hvalid, fun _ _ _ _ text he => Gateway.protocolStart_covered _ _ he text rfl⟩

/-- A macro that loops, behind it one that does not, and at the end a disabled one. -/
theorem validation_survives_normalization_disabled :
    let work : SubStateDef := { id := "work", subStateType := .execute }
    let checks := [Sample.checklist]
    let alpha : StateDef :=
      { stateId := "alpha", name := "Alpha", loopState := true, subStates := work :: checks }
    let beta : StateDef := { stateId := "beta", name := "Beta", subStates := checks }
    let gamma : StateDef := { beta with stateId := "gamma", enabled := false }
    let p : Profile := { name := "sample", version := "1", pipeline := [alpha, beta, gamma] }
    p.withEnabledMacrosOnly.pipeline = [alpha, beta] ∧
      Preflighted Sample.vendor Sample.library p :=
  ⟨rfl, (validation_survives_normalization (by decide)).1⟩

end ProtocolEnforcer
