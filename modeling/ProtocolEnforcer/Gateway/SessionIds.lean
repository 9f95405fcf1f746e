import ProtocolEnforcer.Gateway.Server

/-!
# Session ids and the ledger directory

Every path a tool call opens is built from the session id. `Stable` says what a
property of the server must survive to be kept by a call on a session: the opening of
that session's paths, a write of a ledger, a new registry entry. With the id on the
allow-list those paths are direct children of the ledger directory.
-/

namespace ProtocolEnforcer

open Effect

/-- An id on the allow-list `[A-Za-z0-9_-]{1,128}`. -/
structure AllowListed (sid : String) : Prop where
  nonempty : sid.toList ≠ []
  short : sid.toList.length ≤ maxSessionIdLen
  chars : ∀ c ∈ sid.toList, sessionIdChar c = true

theorem sessionIdChar_ascii {c : Char} (h : sessionIdChar c = true) : c.utf8Size = 1 := by
  rw [Char.utf8Size_eq_one_iff]
  have hranges : sessionIdChar c = ((decide (c.val ≥ 65 ∧ c.val ≤ 90) ||
      c.val ≥ 97 && c.val ≤ 122 ||
      c.val ≥ 48 && c.val ≤ 57) || c == '_' || c == '-') := rfl
  simp only [hranges, Bool.or_eq_true, decide_eq_true_eq, Bool.and_eq_true, beq_iff_eq] at h
  rcases h with (((⟨-, h⟩ | ⟨-, h⟩) | ⟨-, h⟩) | rfl) | rfl
  · exact UInt32.le_trans h (by decide)
  · exact UInt32.le_trans h (by decide)
  · exact UInt32.le_trans h (by decide)
  · decide
  · decide

/-- An ASCII text has as many bytes as characters. -/
theorem bytesOf_length {s : String} (h : ∀ c ∈ s.toList, sessionIdChar c = true) :
    (bytesOf s).length = s.toList.length := by
  rw [Utf8.bytesOf_eq_utf8Encode, List.utf8Encode, List.data_toByteArray, List.length_flatMap]
  have hone : s.toList.map (fun c => (String.utf8EncodeChar c).length) =
      s.toList.map fun _ => 1 := by
    refine List.map_congr_left fun c hc => ?_
    rw [String.length_utf8EncodeChar, sessionIdChar_ascii (h c hc)]
  rw [hone, List.map_const', List.sum_replicate_nat, Nat.mul_one]

/-- **`validate_session_id` is the allow-list.** -/
theorem validateSessionId_ok {sid : String} : validateSessionId sid = .ok () ↔ AllowListed sid := by
  unfold validateSessionId
  constructor
  · intro h
    split at h
    · cases h
    rename_i hne
    split at h
    · cases h
    rename_i hlen
    split at h
    · cases h
    rename_i hchars
    rw [Bool.not_eq_true', Bool.not_eq_false, List.all_eq_true] at hchars
    exact ⟨mt String.toList_eq_nil_iff.mp hne, by rw [← bytesOf_length hchars]; omega, hchars⟩
  · rintro ⟨hne, hlen, hchars⟩
    rw [if_neg (mt String.toList_eq_nil_iff.mpr hne),
      if_neg (by rw [bytesOf_length hchars]; omega),
      if_neg (by rw [Bool.not_eq_true', Bool.not_eq_false]; exact List.all_eq_true.mpr hchars)]

/-- With a suffix of its own, such an id is one component of a path. -/
theorem AllowListed.simple {sid ext : String} (h : AllowListed sid) (hext : '/' ∉ ext.toList)
    (hlen : 2 < ext.toList.length) : UnixPath.Simple (sid ++ ext) where
  noSlash := by
    rw [String.toList_append, List.mem_append]
    rintro (hmem | hmem)
    · exact absurd (h.chars _ hmem) (by decide)
    · exact hext hmem
  named := by
    have hlong : 2 < (sid ++ ext).toList.length := by
      rw [String.toList_append, List.length_append]
      omega
    have hne : ∀ cs : List Char, cs.length ≤ 2 → (sid ++ ext).toList ≠ cs := by
      rintro cs hcs heq
      rw [heq] at hlong
      omega
    rw [UnixPath.component, if_neg (not_or.mpr ⟨hne _ (by decide), hne _ (by decide)⟩),
      if_neg (hne _ (by decide)), String.ofList_toList]

/-- Such an id is a component of its own. -/
theorem AllowListed.simple_self {sid : String} (h : AllowListed sid) :
    UnixPath.Simple sid where
  noSlash hmem := absurd (h.chars _ hmem) (by decide)
  named := by
    have hne : ∀ cs : List Char, '.' ∈ cs → sid.toList ≠ cs := by
      rintro cs hdot heq
      exact absurd (h.chars '.' (heq ▸ hdot)) (by decide)
    rw [UnixPath.component, if_neg (not_or.mpr ⟨h.nonempty, hne _ (by decide)⟩),
      if_neg (hne _ (by decide)), String.ofList_toList]

/-- A blob is below its session's directory, by the names of the step id. -/
theorem ArtifactStore.components_blob {root sid stepId uuid : String} {store : ArtifactStore}
    {host : ArtifactIo} {names : List String} (hsid : AllowListed sid) (huuid : AllowListed uuid)
    (hnew : ArtifactStore.new host sid root = .ok store)
    (habs : UnixPath.isAbsolute stepId = false)
    (hnames : (UnixPath.segments stepId).filterMap UnixPath.component = names.map .normal) :
    UnixPath.components (UnixPath.join (UnixPath.join store.root stepId) (uuid ++ ".bin")) =
      UnixPath.components root ++
        (".artifacts" :: sid :: (names ++ [uuid ++ ".bin"])).map .normal := by
  have hartifacts : UnixPath.Simple ".artifacts" := ⟨by decide, by decide⟩
  have hbin : UnixPath.Simple (uuid ++ ".bin") := huuid.simple (by decide) (by decide)
  rw [new_opened hnew, UnixPath.components_join, UnixPath.components_join,
    UnixPath.components_join, UnixPath.components_join, UnixPath.joined_simple _ hbin,
    UnixPath.joined_simple _ hartifacts, UnixPath.joined_simple _ hsid.simple_self,
    UnixPath.joined, if_neg (not_or.mpr ⟨by rw [habs]; decide, by simp⟩), hnames]
  simp

namespace Gateway

variable {F : Type} (gw : Gateway F)

/-- The paths a call on the session `sid` opens. -/
inductive SessionPath (sid : String) : List Component → Prop where
  | ledger : SessionPath sid (UnixPath.components (gw.ledgerPath sid))
  | sidecar : SessionPath sid (UnixPath.components (gw.sidecarPath sid))
  | sidecarTmp : SessionPath sid (UnixPath.components (gw.sidecarTmpPath sid))
  | replay : SessionPath sid (replayPath (gw.ledgerPath sid) sid)

variable {gw}

/-- **An allow-listed id stays in the ledger directory.** -/
theorem SessionPath.directChild {sid : String} {p : List Component} (h : gw.SessionPath sid p)
    (hid : AllowListed sid) : UnixPath.DirectChild gw.ledgerDir p := by
  have hchild : ∀ ext : String, '/' ∉ ext.toList → 2 < ext.toList.length →
      UnixPath.components (UnixPath.join gw.ledgerDir (sid ++ ext)) =
        UnixPath.components gw.ledgerDir ++ [.normal (sid ++ ext)] := by
    intro ext hext hlen
    rw [UnixPath.components_join, UnixPath.joined_simple _ (hid.simple hext hlen)]
  cases h with
  | ledger => exact ⟨_, hchild ".jsonl" (by decide) (by decide)⟩
  | sidecar => exact ⟨_, hchild ".manifest.json" (by decide) (by decide)⟩
  | sidecarTmp => exact ⟨_, hchild ".manifest.json.tmp" (by decide) (by decide)⟩
  | replay =>
    refine ⟨sid ++ ".jsonl", ?_⟩
    rw [replayPath, ledgerPath, hchild ".jsonl" (by decide) (by decide), UnixPath.parent,
      List.dropLast_concat, UnixPath.joined_simple _ (hid.simple (by decide) (by decide))]

/-! ## What a call keeps -/

variable [DecidableEq F] (gw)

/-- A property of the server that a call on the session `sid` cannot break. -/
structure Stable (sid : String) (I : ProtocolServer F → Prop) : Prop where
  touch : ∀ {s p}, gw.SessionPath sid p → I s → I (s.touch p)
  ledger : ∀ {s file events}, I s → I (s.setLedger file events)
  install : ∀ {s served}, I s → I (s.install sid served)

variable {gw} {io : Io} {sid : String} {I P : ProtocolServer F → Prop}

theorem ledgerNew_triple (stable : gw.Stable sid I) :
    Triple I (gw.ledgerNew io sid) (fun path s => path = gw.ledgerPath sid ∧ I s) I := by
  unfold ledgerNew
  refine .bind (Q := fun _ => I) (Triple.modified fun s hs => stable.touch .ledger hs) fun _ => ?_
  refine .bind (Q := fun _ => I) (Triple.lift (fun _ _ _ hs => hs) fun _ hs => hs) fun _ => ?_
  refine .bind (Q := fun _ => I) (Triple.modified fun s hs => stable.ledger hs) fun _ => ?_
  exact Triple.pure fun s hs => ⟨rfl, hs⟩

theorem operate_keeps {α : Type} {served : Served}
    {op : Effect (World SessionLedger) FsmError α} (stable : gw.Stable sid I) :
    Keeps I (gw.operate io served op) := by
  intro s hs
  exact stable.ledger hs

/-- Recovery opens the sidecar before anything else. -/
theorem recoverIntoCache_triple (stable : gw.Stable sid I)
    (first : ∀ s, P s → I (s.touch (UnixPath.components (gw.sidecarPath sid)))) :
    Triple P (gw.recoverIntoCache io sid) (fun _ => I) I := by
  unfold recoverIntoCache
  refine .bind (Q := fun _ => I) (Triple.modified first) fun _ => ?_
  refine .bind Keeps.lift fun sidecar => ?_
  refine .bind Keeps.lift fun profile => ?_
  refine .bind (ledgerNew_triple stable) fun path => ?_
  intro s hs
  obtain ⟨rfl, hs⟩ := hs
  revert s
  refine Keeps.bind (Keeps.modified fun s hs => stable.touch .replay hs) fun _ => ?_
  refine Keeps.bind Keeps.lift fun _ => ?_
  refine Keeps.bind Keeps.reads fun events => ?_
  exact Keeps.bind Keeps.lift fun _ => Keeps.pure

theorem getOrRecover_keeps (stable : gw.Stable sid I) : Keeps I (gw.getOrRecover io sid) := by
  unfold getOrRecover
  refine Keeps.bind Keeps.reads fun sessions => ?_
  split
  · exact Keeps.pure
  · refine Keeps.bind (recoverIntoCache_triple stable fun s hs => stable.touch .sidecar hs)
      fun _ => ?_
    exact Keeps.bind (Keeps.modified fun s hs => stable.install hs) fun _ => Keeps.pure

theorem launchSession_keeps {manifestPath : String} {wasName : Bool}
    {initialContext : Option Json} (stable : gw.Stable sid I) :
    Keeps I (gw.launchSession io sid manifestPath wasName initialContext) := by
  unfold launchSession
  refine Keeps.bind Keeps.lift fun loadPath => ?_
  refine Keeps.bind Keeps.lift fun profile => ?_
  refine Triple.bind (ledgerNew_triple stable) fun path => ?_
  have hrest : ∀ served, Keeps I (do
      let started ← gw.operate io served
        (served.engine.startSession io.host sid initialContext)
      let view ← lift (started.1.mapError ErrorData.fsm)
      return (started.2, view)) := fun served =>
    Keeps.bind (operate_keeps stable) fun _ => Keeps.bind Keeps.lift fun _ => Keeps.pure
  exact (hrest _).conseq (fun s hs => hs.2) (fun _ _ hs => hs) fun _ hs => hs

theorem removeLedger_keeps (stable : gw.Stable sid I) : Keeps I (gw.removeLedger io sid) := by
  unfold removeLedger
  refine Keeps.bind (Keeps.modified fun s hs => stable.touch .ledger hs) fun _ => ?_
  split
  · exact Keeps.modified fun s hs => stable.ledger hs
  · exact Keeps.pure

theorem writeSidecarAtomic_keeps (stable : gw.Stable sid I) :
    Keeps I (gw.writeSidecarAtomic io sid) := by
  unfold writeSidecarAtomic
  refine Keeps.bind (Keeps.modified fun s hs => stable.touch .sidecarTmp hs) fun _ => ?_
  split
  · exact Keeps.modified fun s hs => stable.touch .sidecar hs
  · exact Keeps.pure

theorem claimLedger_keeps (stable : gw.Stable sid I) : Keeps I (gw.claimLedger io sid) := by
  unfold claimLedger
  refine Keeps.bind (Keeps.modified fun s hs => stable.touch .ledger hs) fun _ => ?_
  refine Keeps.bind Keeps.reads fun ledger => ?_
  split
  · exact Keeps.throw
  · exact Keeps.bind Keeps.lift fun _ => Keeps.modified fun s hs => stable.ledger hs

theorem startClaimed_keeps {manifestPath : String} {wasName : Bool}
    {initialContext : Option Json} (stable : gw.Stable sid I) :
    Keeps I (gw.startClaimed io sid manifestPath wasName initialContext) := by
  unfold startClaimed
  refine Keeps.bind Keeps.lift fun _ => ?_
  refine Keeps.bind (claimLedger_keeps stable) fun _ => ?_
  refine Keeps.bind (Keeps.tryCatch (launchSession_keeps stable) fun e =>
    Keeps.bind (removeLedger_keeps stable) fun _ => Keeps.throw) fun r => ?_
  refine Keeps.bind (Keeps.modified fun s hs => stable.install hs) fun _ => ?_
  exact Keeps.bind (writeSidecarAtomic_keeps stable) fun _ => Keeps.pure

/-- A start works on the id it was given, once checked, or on its own. -/
theorem protocolStart_keeps {req : StartRequest}
    (stable : gw.Stable (req.sessionId.getD io.uuid) I) : Keeps I (gw.protocolStart io req) := by
  unfold protocolStart
  split
  · exact Keeps.throw
  refine Keeps.bind Keeps.lift fun _ => Keeps.bind Keeps.reads fun sessions => ?_
  split
  · exact Keeps.throw
  dsimp only
  split
  · exact Keeps.throw
  exact Keeps.bind (startClaimed_keeps stable) fun _ => Keeps.pure

/-- The other tools do what looking the session up leaves them. -/
theorem protocolSubmitMilestone_triple {pos : Position} {evidence : ChecklistEvidence}
    {output : Option Json} (stable : gw.Stable sid I)
    (lookup : Triple P (gw.getOrRecover io sid) (fun _ => I) I) :
    Triple P (gw.protocolSubmitMilestone io sid pos evidence output) (fun _ => I) I := by
  unfold protocolSubmitMilestone
  refine .bind lookup fun served => ?_
  refine Keeps.bind (operate_keeps stable) fun r => ?_
  refine Keeps.bind (Keeps.modified fun s hs => stable.install hs) fun _ => ?_
  refine Keeps.bind Keeps.lift fun outcome => ?_
  split
  · exact Keeps.bind (Keeps.modified fun s hs => stable.touch .ledger hs) fun _ => Keeps.pure
  · exact Keeps.pure

theorem protocolGetState_triple (stable : gw.Stable sid I)
    (lookup : Triple P (gw.getOrRecover io sid) (fun _ => I) I) :
    Triple P (gw.protocolGetState io sid) (fun _ => I) I := by
  unfold protocolGetState
  refine .bind lookup fun served => ?_
  refine Keeps.bind Keeps.lift fun state => ?_
  refine Keeps.bind (Keeps.modified fun s hs => stable.touch .ledger hs) fun _ => ?_
  exact Keeps.bind Keeps.lift fun _ => Keeps.bind Keeps.reads fun _ => Keeps.pure

theorem protocolStoreArtifact_triple {stepId content : String} {mimeType : Option String}
    (stable : gw.Stable sid I) (lookup : Triple P (gw.getOrRecover io sid) (fun _ => I) I) :
    Triple P (gw.protocolStoreArtifact io sid stepId content mimeType) (fun _ => I) I := by
  unfold protocolStoreArtifact
  refine .bind lookup fun served => ?_
  refine Keeps.bind (operate_keeps stable) fun r => ?_
  exact Keeps.bind (Keeps.modified fun s hs => stable.install hs) fun _ => Keeps.lift

/-- A call of one of them, by its look-up. -/
theorem tool_triple {call : ToolCall} (stable : gw.Stable sid I)
    (lookup : Triple P (gw.getOrRecover io sid) (fun _ => I) I)
    (hsid : call.sessionId = some sid) (hstart : ∀ req, call ≠ .start req) :
    Triple P (gw.tool io call) (fun _ => I) I := by
  cases call with
  | start req => exact absurd rfl (hstart req)
  | restart => cases hsid
  | submit =>
    cases hsid
    exact .bind (protocolSubmitMilestone_triple stable lookup) fun _ => Keeps.pure
  | getState =>
    cases hsid
    exact .bind (protocolGetState_triple stable lookup) fun _ => Keeps.pure
  | storeArtifact =>
    cases hsid
    exact .bind (protocolStoreArtifact_triple stable lookup) fun _ => Keeps.pure

/-! ## Runs -/

/-- Only allow-listed sessions are served. -/
def Listed (s : ProtocolServer F) : Prop :=
  ∀ sid served, s.registry sid = some served → AllowListed sid

variable (gw) in
/-- Only the ledger directory's children have been opened by this call, and only
allow-listed sessions are served. -/
structure Confining (s : ProtocolServer F) : Prop where
  inside : ∀ p ∈ s.opened, UnixPath.DirectChild gw.ledgerDir p
  listed : Listed s

variable (gw) in
/-- What the call opens is a direct child of the ledger directory: either the id passes
the allow-list, or the call fails before it opens anything. -/
def Confined (s : ProtocolServer F) (x : Io × ToolCall) : Prop :=
  (∀ p ∈ (gw.after s x).opened, UnixPath.DirectChild gw.ledgerDir p) ∧
    ∀ sid, x.2.sessionId = some sid → AllowListed sid ∨
      (gw.after s x).opened = [] ∧ ∃ e, (gw.serve x.1 x.2 s).1 = .error e

/-- The call is a start, or its id is on the allow-list. -/
def ChecksId (call : ToolCall) : Prop :=
  (∃ req, call = .start req) ∨ ∀ sid, call.sessionId = some sid → AllowListed sid

theorem Confining.stable (hid : AllowListed sid) : gw.Stable sid gw.Confining where
  touch hp hs := by
    refine ⟨fun p hmem => ?_, hs.listed⟩
    rcases List.mem_append.mp hmem with hmem | hlast
    · exact hs.inside p hmem
    · rw [List.mem_singleton.mp hlast]
      exact hp.directChild hid
  ledger hs := ⟨hs.inside, hs.listed⟩
  install := by
    intro s served hs
    refine ⟨hs.inside, fun sid' served' hserved => ?_⟩
    by_cases heq : sid' = sid
    · rwa [heq]
    · dsimp only [ProtocolServer.install] at hserved
      rw [Function.update_of_ne heq] at hserved
      exact hs.listed sid' served' hserved

/-- Something has been opened, and stays opened. -/
theorem opened_stable : gw.Stable sid (fun s => s.opened ≠ []) where
  touch _ _ := List.append_ne_nil_of_right_ne_nil _ (List.cons_ne_nil _ _)
  ledger hs := hs
  install hs := hs

/-- A start with an id off the allow-list fails before it opens anything. -/
theorem serve_start_unlisted {req : StartRequest} (s : ProtocolServer F)
    (hreq : req.sessionId = some sid) (hid : ¬AllowListed sid) :
    ∃ e, gw.serve io (.start req) s = (.error e, { s with opened := [] }) := by
  obtain ⟨e, he⟩ : ∃ e, validateSessionId sid = .error e := by
    cases h : validateSessionId sid with
    | error e => exact ⟨e, rfl⟩
    | ok u => exact absurd (validateSessionId_ok.mp h) hid
  rw [serve, tool, protocolStart]
  split
  · exact ⟨_, exec_bind_error (exec_throw _ _)⟩
  · refine ⟨e, exec_bind_error (exec_bind_error ?_)⟩
    rw [exec_lift, hreq]
    exact Prod.ext he rfl

/-- **A call that checks its id is confined.** -/
theorem confined_of_checksId {call : ToolCall} {s : ProtocolServer F}
    (listed : Listed s)
    (huuid : AllowListed io.uuid) (hcall : ChecksId call) :
    gw.Confined s (io, call) ∧
      Listed (gw.after s (io, call)) := by
  have hfrom : gw.Confining { s with opened := [] } := ⟨nofun, listed⟩
  have hlisted : ∀ sid, AllowListed sid →
      Keeps gw.Confining (gw.tool io call) → call.sessionId = some sid →
      gw.Confined s (io, call) ∧ Listed (gw.after s (io, call)) := by
    intro sid hid keeps hsid
    have hends := keeps.ends hfrom
    refine ⟨⟨hends.inside, fun sid' hsid' => Or.inl ?_⟩, hends.listed⟩
    rw [hsid] at hsid'
    rwa [← Option.some.inj hsid']
  have hother : ∀ sid, AllowListed sid → call.sessionId = some sid →
      (∀ req, call ≠ .start req) → Keeps gw.Confining (gw.tool io call) :=
    fun sid hid hsid hstart =>
      tool_triple (Confining.stable hid) (getOrRecover_keeps (Confining.stable hid)) hsid hstart
  cases call with
  | restart => exact ⟨⟨nofun, nofun⟩, nofun⟩
  | submit sid =>
    have hid := hcall.resolve_left nofun sid rfl
    exact hlisted sid hid (hother sid hid rfl nofun) rfl
  | getState sid =>
    have hid := hcall.resolve_left nofun sid rfl
    exact hlisted sid hid (hother sid hid rfl nofun) rfl
  | storeArtifact sid =>
    have hid := hcall.resolve_left nofun sid rfl
    exact hlisted sid hid (hother sid hid rfl nofun) rfl
  | start req =>
    have keeps : AllowListed (req.sessionId.getD io.uuid) →
        Keeps gw.Confining (gw.tool io (.start req)) := fun hid =>
      Keeps.bind (protocolStart_keeps (Confining.stable hid)) fun _ => Keeps.pure
    cases hreq : req.sessionId with
    | none =>
      have hends := (keeps (by rw [hreq]; exact huuid)).ends hfrom
      refine ⟨⟨hends.inside, fun sid hsid => ?_⟩, hends.listed⟩
      rw [show (ToolCall.start req).sessionId = req.sessionId from rfl, hreq] at hsid
      cases hsid
    | some sid =>
      by_cases hid : AllowListed sid
      · exact hlisted sid hid (keeps (by rw [hreq]; exact hid)) hreq
      · obtain ⟨e, he⟩ : ∃ e, gw.serve io (.start req) s = (.error e, { s with opened := [] }) :=
          serve_start_unlisted s hreq hid
        refine ⟨⟨?_, fun sid' hsid' => Or.inr ⟨?_, e, ?_⟩⟩, ?_⟩
        · rw [after, he]
          exact nofun
        · rw [after, he]
        · rw [he]
        · rw [after, he]
          exact listed

/-- A session that is not served is looked for at its sidecar's path. -/
theorem getOrRecover_miss :
    Triple (fun s => s.registry sid = none) (gw.getOrRecover io sid) (fun _ s => s.opened ≠ [])
      fun s => s.opened ≠ [] := by
  unfold getOrRecover
  refine .bind (Q := fun sessions _ => sessions sid = none) (Triple.reads fun s hs => hs)
    fun sessions => ?_
  split
  · rename_i served hserved
    intro s hs
    rw [hserved] at hs
    cases hs
  · refine .bind (Q := fun _ s => s.opened ≠ []) (recoverIntoCache_triple opened_stable
      fun s _ => List.append_ne_nil_of_right_ne_nil _ (List.cons_ne_nil _ _)) fun _ => ?_
    exact Keeps.bind (Keeps.modified fun s hs => hs) fun _ => Keeps.pure

/-- **And one that does not is not.** -/
theorem not_confined {call : ToolCall} {s : ProtocolServer F}
    (listed : Listed s)
    (hcall : ¬ChecksId call) : ¬gw.Confined s (io, call) := by
  rw [ChecksId, not_or, not_exists, not_forall] at hcall
  obtain ⟨hstart, sid, hsid⟩ := hcall
  obtain ⟨hsid, hid⟩ := Classical.not_imp.mp hsid
  rintro ⟨-, hconfined⟩
  rcases hconfined sid hsid with hlisted | ⟨hnone, -⟩
  · exact hid hlisted
  · have hmiss : s.registry sid = none := by
      cases h : s.registry sid with
      | none => rfl
      | some served => exact absurd (listed sid served h) hid
    exact (tool_triple opened_stable getOrRecover_miss hsid hstart).ends
      (s := { s with opened := [] }) hmiss hnone

/-- **Session ids are confined where they are checked.** In a run of a gateway process
from its start on, every call keeps to the ledger directory in the way promised if and
only if every call is a start or carries an allow-listed id. -/
theorem session_ids_confined_iff {s : ProtocolServer F} {calls : List (Io × ToolCall)}
    (hfresh : s.Fresh) (huuid : ∀ x ∈ calls, AllowListed x.1.uuid) :
    Runs.Along gw.after gw.Confined s calls ↔ ∀ x ∈ calls, ChecksId x.2 := by
  have listed : Listed s := by
    intro sid served hserved
    rw [hfresh sid] at hserved
    cases hserved
  clear hfresh
  induction calls generalizing s with
  | nil => exact ⟨fun _ _ hx => absurd hx List.not_mem_nil, fun _ => trivial⟩
  | cons x rest ih =>
    rw [List.forall_mem_cons] at huuid ⊢
    constructor
    · rintro ⟨hconfined, hrest⟩
      have hcall : ChecksId x.2 := by
        by_contra hno
        exact not_confined listed hno hconfined
      obtain ⟨-, hlisted⟩ := confined_of_checksId listed huuid.1 hcall
      exact ⟨hcall, (ih huuid.2 hlisted).mp hrest⟩
    · rintro ⟨hcall, hrest⟩
      obtain ⟨hconfined, hlisted⟩ := confined_of_checksId listed huuid.1 hcall
      exact ⟨hconfined, (ih huuid.2 hlisted).mpr hrest⟩

/-- Started under a listed id, looked at, and refused a start under a path. -/
theorem session_ids_confined_listed :
    Runs.Along Sample.gateway.after Sample.gateway.Confined Sample.server
      [(Sample.io, .start ⟨"sample.yaml", some "s1", none⟩), (Sample.io, .getState "s1"),
        (Sample.io, .start ⟨"sample.yaml", some "../s1", none⟩)] := by
  have huuid : AllowListed Sample.io.uuid := ⟨by decide, by decide, List.all_eq_true.mp (by decide)⟩
  refine (session_ids_confined_iff (fun _ => rfl) ?_).mpr ?_
  · simp only [List.forall_mem_cons]
    exact ⟨huuid, huuid, huuid, fun _ hx => absurd hx List.not_mem_nil⟩
  · simp only [List.forall_mem_cons]
    refine ⟨Or.inl ⟨_, rfl⟩, Or.inr ?_, Or.inl ⟨_, rfl⟩, fun _ hx => absurd hx List.not_mem_nil⟩
    rintro sid hsid
    cases hsid
    exact ⟨by decide, by decide, List.all_eq_true.mp (by decide)⟩

/-- A submission for the session `../evil` reads a sidecar next to the ledger directory
and, when there is one, creates a ledger there. -/
theorem session_id_escapes :
    let x : Io × ToolCall := (Sample.io, .submit "../evil" ⟨"plan", "check"⟩ .empty none)
    (Sample.gateway.after Sample.server x).opened.take 2 =
      [[.curDir, .normal "ledger", .parentDir, .normal "evil.manifest.json"],
        [.curDir, .normal "ledger", .parentDir, .normal "evil.jsonl"]] ∧
    ((Sample.gateway.after Sample.server x).ledgers
      [.curDir, .normal "ledger", .parentDir, .normal "evil.jsonl"]).isSome = true ∧
    ¬Sample.gateway.Confined Sample.server x := by
  refine ⟨by decide +kernel, by decide +kernel, fun hconfined => ?_⟩
  have hmem : [.curDir, .normal "ledger", .parentDir, .normal "evil.jsonl"] ∈
      (Sample.gateway.after Sample.server
        (Sample.io, .submit "../evil" ⟨"plan", "check"⟩ .empty none)).opened := by
    decide +kernel
  obtain ⟨name, hname⟩ := hconfined.1 _ hmem
  exact absurd (congrArg List.length hname) (by simp; decide)

end Gateway

end ProtocolEnforcer
