import ProtocolEnforcer.Ledger.TornTail

/-!
# Replay of a ledger cut at any byte

A crash in `write_all` cuts the file at some byte. `replay` drops a last line that
does not decode, but reads the file as text before it looks at the lines, so a cut inside
a character fails the whole read: `replay_cut` says that the events in front of the cut
come back exactly when the cut is between two characters.
-/

namespace ProtocolEnforcer.Ledger

variable {Event : Type} {json : SerdeJson Event}

/-- The events whose whole text is in the first `n` bytes of their lines. -/
def wholeBefore (json : SerdeJson Event) : List Event → Nat → List Event
  | [], _ => []
  | e :: es, n =>
    match json.toString e with
    | .error _ => []
    | .ok s =>
      if (bytesOf s).length ≤ n then e :: wholeBefore json es (n - ((bytesOf s).length + 1)) else []

/-- What a cut leaves of the line it falls in, and the event it leaves. -/
inductive CutTail (json : SerdeJson Event) : Bytes → List Event → Prop
  /-- The cut is right behind a newline. -/
  | clean : CutTail json [] []
  /-- The cut is right before a newline. -/
  | whole {e : Event} {s : String} (hs : json.toString e = .ok s) : CutTail json (bytesOf s) [e]
  /-- The cut is inside an event's text. -/
  | torn {t : Bytes} (ht : TornTail json t) (hne : t ≠ []) : CutTail json t []

section Cut

variable (hj : json.Lawful) {es : List Event} {f g t : Bytes}
include hj

theorem bytesOf_encoding_pos {e : Event} {s : String} (hs : json.toString e = .ok s) :
    0 < (bytesOf s).length := by
  rw [List.length_pos_iff]
  exact fun hnil => encoding_ne_empty hj hs (Utf8.bytesOf_eq_nil hnil)

theorem wholeBefore_zero (es : List Event) : wholeBefore json es 0 = [] := by
  cases es with
  | nil => rfl
  | cons e es =>
    obtain ⟨s, hs⟩ := hj.encodes e
    have hpos := bytesOf_encoding_pos hj hs
    rw [wholeBefore, hs]
    exact if_neg (by omega)

/-- The cut is behind the lines of some first events and leaves a `CutTail`. -/
theorem exists_cutTail (h : Appends json f es g) (n : Nat) :
    ∃ es₁ f₁ t ds, Appends json f es₁ f₁ ∧ CutTail json t ds ∧
      g.take (f.length + n) = f₁ ++ t ∧ wholeBefore json es n = es₁ ++ ds := by
  induction es generalizing f n with
  | nil =>
    cases h
    refine ⟨[], g, [], [], rfl, .clean, ?_, rfl⟩
    rw [List.append_nil, List.take_of_length_le (Nat.le_add_right _ _)]
  | cons e es ih =>
    obtain ⟨io, mid, happ, hrest⟩ := h
    obtain ⟨s, hs, rfl⟩ := append_ok happ
    obtain ⟨ss, -, rfl⟩ := appends_frames hrest
    have hline : (Lines.frames [s]).length = (bytesOf s).length + 1 := by simp
    by_cases hwhole : (bytesOf s).length + 1 ≤ n
    · -- the first line is whole
      obtain ⟨es₁, f₁, t, ds, happs, ht, htake, hbefore⟩ :=
        ih hrest (n - ((bytesOf s).length + 1))
      refine ⟨e :: es₁, f₁, t, ds, ⟨io, _, happ, happs⟩, ht, ?_, ?_⟩
      · rw [← htake, List.length_append, hline]
        congr 1
        omega
      · rw [wholeBefore, hs]
        simp only [if_pos (Nat.le_of_succ_le hwhole), hbefore, List.cons_append]
    have htake : ((f ++ Lines.frames [s]) ++ Lines.frames ss).take (f.length + n) =
        f ++ (bytesOf s).take n := by
      rw [List.append_assoc, List.take_length_add_append, Lines.frames_cons, List.append_assoc,
        List.take_append_of_le_length (by omega)]
    by_cases htext : (bytesOf s).length ≤ n
    · -- only the newline is lost
      refine ⟨[], f, bytesOf s, [e], rfl, .whole hs, ?_, ?_⟩
      · rw [htake, List.take_of_length_le htext]
      · rw [wholeBefore, hs]
        have hn : n - ((bytesOf s).length + 1) = 0 := by omega
        simp only [if_pos htext, hn, wholeBefore_zero hj, List.nil_append]
    have hnone : wholeBefore json (e :: es) n = [] := by
      rw [wholeBefore, hs]
      exact if_neg htext
    by_cases hn : n = 0
    · subst hn
      exact ⟨[], f, [], [], rfl, .clean, by rw [htake, List.take_zero], hnone⟩
    · refine ⟨[], f, (bytesOf s).take n, [], rfl, .torn ?_ ?_, htake, hnone⟩
      · refine ⟨e, s, hs, (bytesOf s).drop n, ?_, (List.take_append_drop n _).symm⟩
        rw [ne_eq, List.drop_eq_nil_iff]
        exact htext
      · rw [ne_eq, List.take_eq_nil_iff, not_or]
        exact ⟨hn, List.length_pos_iff.mp (bytesOf_encoding_pos hj hs)⟩

/-- A last line without its newline is read like one with it. -/
theorem replay_whole_end (h : Appends json [] es f) {e : Event} {s : String}
    (hs : json.toString e = .ok s) : replay json (some (f ++ bytesOf s)) = .ok (es ++ [e]) := by
  obtain ⟨ss, hss, rfl⟩ := appends_frames h
  have hnl : newline ∉ bytesOf s := Utf8.newline_not_mem_bytesOf (hj.oneLine e s hs)
  have hread : Lines.readLines ([] ++ Lines.frames ss ++ bytesOf s) = some (ss ++ [s]) := by
    rw [List.nil_append, readLines_torn hj hss, Lines.readLines,
      Lines.records_of_not_mem hnl (List.length_pos_iff.mp (bytesOf_encoding_pos hj hs)),
      List.mapM_cons, Lines.lineOf_of_no_newline hnl, Utf8.fromUtf8_bytesOf]
    rfl
  rw [replay]
  simp only [hread]
  rw [replayLoop_texts hj _ hss, replayLoop, trim_encoding hj hs, if_neg (encoding_ne_empty hj hs),
    hj.decodes e s hs]
  dsimp only
  rw [replayLoop, List.nil_append]

/-- **One cut.** What a cut leaves is replayed exactly when it is text. -/
theorem replay_cutTail (h : Appends json [] es f) {ds : List Event} (ht : CutTail json t ds) :
    replay json (some (f ++ t)) = .ok (es ++ ds) ↔ (fromUtf8 t).isSome := by
  cases ht with
  | clean =>
    rw [List.append_nil, List.append_nil]
    exact iff_of_true (replay_whole hj h) (Option.isSome_iff_exists.mpr ⟨"", Utf8.fromUtf8_bytesOf ""⟩)
  | whole hs => simp [replay_whole_end hj h hs]
  | torn ht hne =>
    rw [List.append_nil]
    cases hp : fromUtf8 t with
    | none =>
      have hnone : Appends json (f ++ t) [] (f ++ t) := rfl
      obtain ⟨m, hm⟩ := replay_torn_not_utf8 hj h ht hne hp hnone
      simp [hm]
    | some p => simp [replay_torn_end hj h ht hne hp]

/-- A cut ledger is replayed exactly when what is left of it is text. -/
theorem replay_take (h : Appends json [] es f) (n : Nat) :
    replay json (some (f.take n)) = .ok (wholeBefore json es n) ↔ (fromUtf8 (f.take n)).isSome := by
  obtain ⟨es₁, f₁, t, ds, happs, ht, htake, hbefore⟩ := exists_cutTail hj h n
  rw [List.length_nil, Nat.zero_add] at htake
  rw [htake, hbefore, replay_cutTail hj happs ht]
  obtain ⟨ss₁, -, rfl⟩ := appends_frames happs
  obtain ⟨u₁, hu₁⟩ := Lines.exists_bytesOf_frames ss₁
  rw [List.nil_append, hu₁, Utf8.isSome_fromUtf8_append]

/-- **A crash at any byte.** Events are appended to a fresh ledger and the file is cut
after `n` bytes. It replays to the events whose whole text is in front of the cut exactly
when the cut is not inside a character. -/
theorem replay_cut (h : Appends json [] es f) (n : Nat) :
    replay json (some (f.take n)) = .ok (wholeBefore json es n) ↔ isCharBoundary f n := by
  rw [replay_take hj h]
  obtain ⟨ss, -, rfl⟩ := appends_frames h
  obtain ⟨u, hu⟩ := Lines.exists_bytesOf_frames ss
  rw [List.nil_append, hu, Utf8.isSome_fromUtf8_take_iff]

end Cut

/-! ## An accent

One event whose evidence key is not ASCII. -/

/-- The event's text around the key. -/
def accentText : String :=
  "\x7b" ++ ("\"event_id\":\"67e55044-10b1-426f-9247-bb680e5fe0c8\"" ++
    ",\"timestamp\":\"2026-08-17T00:00:00Z\",\"session_id\":\"s\",\"event_type\":" ++
    "\x7b\"type\":\"MilestoneSubmitted\",\"evidence_keys\":[\"é\"],\"iteration\":1\x7d" ++
    ",\"step_id\":null,\"payload\":null") ++ "\x7d"

/-- `serde_json` on this event. -/
def accentJson : SerdeJson Unit where
  toString _ := .ok accentText
  fromStr s := if s = accentText then .ok () else .error "EOF while parsing a value"

theorem accentJson_fromStr_of_length {s : String} (h : s.length ≠ accentText.length) :
    ∃ m, accentJson.fromStr s = .error m := by
  refine ⟨"EOF while parsing a value", if_neg ?_⟩
  intro hs
  exact h (congrArg String.length hs)

theorem accentJson_lawful : accentJson.Lawful where
  encodes _ := ⟨_, rfl⟩
  object _ s h := by
    cases h
    exact ⟨_, rfl⟩
  oneLine _ s h := by
    cases h
    decide +kernel
  decodes _ s h := by
    cases h
    simp only [accentJson, if_true]
  torn _ s p h hp := by
    cases h
    obtain ⟨-, r, hr, hs⟩ := hp
    refine accentJson_fromStr_of_length ?_
    have hpos : r.length ≠ 0 := fun h0 => hr (String.length_eq_zero_iff.mp h0)
    rw [hs, String.length_append]
    omega
  tornThen _ s p _ s' h hp h' := by
    cases h
    cases h'
    refine accentJson_fromStr_of_length ?_
    have hpos : p.length ≠ 0 := fun h0 => hp.1 (String.length_eq_zero_iff.mp h0)
    rw [String.length_append]
    omega

theorem appends_accent : Appends accentJson [] [()] (Lines.frames [accentText]) :=
  ⟨quietIo, _, rfl, by simp [Appends]⟩

/-- The file is cut behind the accented character. -/
theorem replay_cut_behind :
    replay accentJson (some ((Lines.frames [accentText]).take 165)) =
      .ok (wholeBefore accentJson [()] 165) :=
  (replay_cut accentJson_lawful appends_accent 165).mpr (by decide +kernel)

/-- The file is cut between the two bytes of the accented character. -/
theorem replay_cut_inside : accentJson.Lawful ∧
    Appends accentJson [] [()] (Lines.frames [accentText]) ∧
    replay accentJson (some ((Lines.frames [accentText]).take 164)) ≠
      .ok (wholeBefore accentJson [()] 164) := by
  refine ⟨accentJson_lawful, appends_accent, ?_⟩
  rw [ne_eq, replay_take accentJson_lawful appends_accent]
  decide +kernel

end ProtocolEnforcer.Ledger
