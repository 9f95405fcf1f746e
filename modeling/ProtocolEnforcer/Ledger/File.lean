import Mathlib.Data.List.Forall2
import ProtocolEnforcer.Core.Lines

/-!
# The ledger file (`crates/ledger/src/ledger.rs`)

A session's ledger is a file of JSON lines. `append` writes one line with a
single `write_all`; `replay` reads the whole file back. The file is its bytes,
and everything the operating system may answer is an argument: `AppendIo` says
where an append stops, so a crash in the middle of `write_all` is an append that
wrote only a prefix of its line.

`serde_json` is a parameter: `SerdeJson` is what the crate is called for, and
`SerdeJson.Lawful` what the ledger relies on. The derived encoding of an event is
a one-line JSON object, decoding undoes encoding, and a cut object does not
decode, alone or with another object behind it.
-/

namespace ProtocolEnforcer

/-- `serde_json::to_string` and `serde_json::from_str` at the event type. -/
structure SerdeJson (Event : Type) where
  toString : Event → Except String String
  fromStr : String → Except String Event

/-- `p` is a proper, non-empty beginning of `s`. -/
def Torn (p s : String) : Prop := p ≠ "" ∧ ∃ r, r ≠ "" ∧ s = p ++ r

namespace SerdeJson

variable {Event : Type}

/-- What the ledger relies on. -/
structure Lawful (json : SerdeJson Event) : Prop where
  encodes : ∀ e, ∃ s, json.toString e = .ok s
  object : ∀ e s, json.toString e = .ok s → ∃ body, s = "\x7b" ++ body ++ "\x7d"
  oneLine : ∀ e s, json.toString e = .ok s → '\n' ∉ s.toList
  decodes : ∀ e s, json.toString e = .ok s → json.fromStr s = .ok e
  torn : ∀ e s p, json.toString e = .ok s → Torn p s → ∃ m, json.fromStr p = .error m
  tornThen : ∀ e s p e' s', json.toString e = .ok s → Torn p s →
    json.toString e' = .ok s' → ∃ m, json.fromStr (p ++ s') = .error m

end SerdeJson

/-- `LedgerError`. -/
inductive LedgerError where
  | io (message : String)
  | corrupt (line : Nat) (message : String)
  | serde (message : String)
  deriving DecidableEq, Repr

/-- The operating system's answers during one `Ledger::append`. -/
structure AppendIo where
  /-- `Mutex::lock`: poisoned or not. -/
  mutex : Except String Unit
  /-- `File::lock`: the advisory lock across processes. -/
  lock : Except String Unit
  /-- `write_all`: all of the line, or only this many bytes of it. -/
  writeAll : Except (Nat × String) Unit
  flush : Except String Unit
  syncData : Except String Unit

namespace Ledger

variable {Event : Type}

/-- `Ledger::new` with `create(true).append(true)`: attach to the file as it is,
or to a new empty one. -/
def new (io : Except String Unit) (file : Option Bytes) : Except LedgerError Bytes :=
  match io with
  | .ok () => .ok (file.getD [])
  | .error e => .error (.io e)

/-- `Ledger::append`: the result, and the file afterwards. -/
def append (json : SerdeJson Event) (io : AppendIo) (file : Bytes) (event : Event) :
    Except LedgerError Unit × Bytes :=
  match io.mutex with
  | .error _ => (.error (.io "Mutex poisoned"), file)
  | .ok () =>
    match io.lock with
    | .error e => (.error (.io e), file)
    | .ok () =>
      match json.toString event with
      | .error e => (.error (.serde e), file)
      | .ok text =>
        let line := bytesOf text ++ [newline]
        match io.writeAll with
        | .error (n, e) => (.error (.io e), file ++ line.take n)
        | .ok () =>
          match io.flush with
          | .error e => (.error (.io e), file ++ line)
          | .ok () =>
            match io.syncData with
            | .error e => (.error (.io e), file ++ line)
            | .ok () => (.ok (), file ++ line)

/-- The last line that is not blank (`rposition`). -/
def lastNonEmpty (lines : List String) : Option Nat :=
  (lines.zipIdx.reverse.find? fun l => trim l.1 ≠ "").map Prod.snd

/-- The loop of `Ledger::replay`: `lineNum` is the line it stands at, `events`
what it has decoded. -/
def replayLoop (json : SerdeJson Event) (last : Option Nat) :
    Nat → List String → List Event → Except LedgerError (List Event)
  | _, [], events => .ok events
  | lineNum, line :: lines, events =>
    let trimmed := trim line
    if trimmed = "" then replayLoop json last (lineNum + 1) lines events
    else
      match json.fromStr trimmed with
      | .ok event => replayLoop json last (lineNum + 1) lines (events ++ [event])
      | .error e =>
        -- a bad last line is a crash in `write_all`; a bad line before it is corruption
        if some lineNum = last then .ok events
        else .error (.corrupt (lineNum + 1) e)

/-- `Ledger::replay`; `none` is a file that does not exist. -/
def replay (json : SerdeJson Event) (file : Option Bytes) :
    Except LedgerError (List Event) :=
  match file with
  | none => .ok []
  | some bytes =>
    match Lines.readLines bytes with
    | none => .error (.io "stream did not contain valid UTF-8")
    | some lines => replayLoop json (lastNonEmpty lines) 0 lines []

/-- `Ledger::lines`: the raw lines of a file that exists, empty ones left out. -/
def lines (file : Option Bytes) : Except LedgerError (List Bytes) :=
  match file with
  | none => .error (.io "No such file or directory (os error 2)")
  | some bytes => .ok ((bytes.splitOn newline).filter (· ≠ []))

/-- A sequence of appends that all return `Ok`, from one file to another. -/
def Appends (json : SerdeJson Event) : Bytes → List Event → Bytes → Prop
  | file, [], file' => file' = file
  | file, e :: es, file' =>
    ∃ io mid, append json io file e = (.ok (), mid) ∧ Appends json mid es file'

/-- The bytes a crash in `write_all` can leave behind the last whole line: a
beginning of the text of one more event, possibly empty, never all of it. -/
def TornTail (json : SerdeJson Event) (t : Bytes) : Prop :=
  ∃ e s, json.toString e = .ok s ∧ ∃ rest, rest ≠ [] ∧ bytesOf s = t ++ rest

/-! ## What `append` writes -/

/-- An append that returns `Ok` has put exactly the event's line at the end. -/
theorem append_ok {json : SerdeJson Event} {io : AppendIo} {file file' : Bytes} {e : Event}
    (h : append json io file e = (.ok (), file')) :
    ∃ s, json.toString e = .ok s ∧ file' = file ++ Lines.frames [s] := by
  unfold append at h
  split at h
  · cases h
  split at h
  · cases h
  split at h
  · cases h
  rename_i s hs
  dsimp only at h
  split at h
  · cases h
  split at h
  · cases h
  split at h
  · cases h
  · cases h
    exact ⟨s, hs, by simp⟩

/-- The texts of a list of events. -/
def Texts (json : SerdeJson Event) (es : List Event) (ss : List String) : Prop :=
  List.Forall₂ (fun e s => json.toString e = .ok s) es ss

/-- Successful appends only ever add the framed texts of their events. -/
theorem appends_frames {json : SerdeJson Event} :
    ∀ {es : List Event} {file file' : Bytes}, Appends json file es file' →
      ∃ ss, Texts json es ss ∧ file' = file ++ Lines.frames ss
  | [], _, _, h => ⟨[], .nil, by rw [h]; simp⟩
  | e :: es, file, file', ⟨_, mid, happ, hrest⟩ => by
    obtain ⟨s, hs, hmid⟩ := append_ok happ
    obtain ⟨ss, hss, hfile⟩ := appends_frames hrest
    refine ⟨s :: ss, .cons hs hss, ?_⟩
    rw [hfile, hmid, List.append_assoc, ← Lines.frames_append]
    rfl

/-- An event has one text, -/
theorem texts_unique {json : SerdeJson Event} {es : List Event} {ss ss' : List String}
    (h : Texts json es ss) (h' : Texts json es ss') : ss = ss' := by
  induction h generalizing ss' with
  | nil =>
    cases h'
    rfl
  | cons hs _ ih =>
    cases h' with
    | cons hs' hrest =>
      rw [Except.ok.inj (hs.symm.trans hs'), ih hrest]

/-- and so what is appended decides the file. -/
theorem appends_unique {json : SerdeJson Event} {es : List Event} {file g g' : Bytes}
    (h : Appends json file es g) (h' : Appends json file es g') : g = g' := by
  obtain ⟨ss, hss, rfl⟩ := appends_frames h
  obtain ⟨ss', hss', rfl⟩ := appends_frames h'
  rw [texts_unique hss hss']

theorem appends_trans {json : SerdeJson Event} :
    ∀ {es es' : List Event} {f g h : Bytes},
      Appends json f es g → Appends json g es' h → Appends json f (es ++ es') h
  | [], _, _, _, _, hfg, hgh => by
    cases hfg
    exact hgh
  | _ :: _, _, _, _, _, ⟨io, mid, happ, hrest⟩, hgh =>
    ⟨io, mid, happ, appends_trans hrest hgh⟩

end Ledger

end ProtocolEnforcer
