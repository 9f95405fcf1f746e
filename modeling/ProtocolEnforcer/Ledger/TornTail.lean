import ProtocolEnforcer.Ledger.File

/-!
# Replay after a crash in `write_all`

What `replay` makes of a ledger file that was appended to, cut by a crash in the
middle of one more line, re-attached, and appended to again.

`append` writes no leading newline, so the first line appended after a torn tail
is glued to the tail and decodes to nothing. Whether an acknowledged event
survives therefore depends on the tail: `replay_after_torn_append` says that the
file replays to everything acknowledged exactly when there is no tail, or nothing
was appended behind it and the tail is itself UTF-8 text.
-/

namespace ProtocolEnforcer.Ledger

variable {Event : Type} {json : SerdeJson Event}

/-! ## Encodings as lines -/

/-- An encoding starts with an opening brace. -/
theorem head_of_encoding (hj : json.Lawful) {e : Event} {s : String}
    (h : json.toString e = .ok s) : s.toList.head? = some '\x7b' := by
  obtain ⟨body, rfl⟩ := hj.object e s h
  simp [String.toList_append]

/-- An encoding ends with a closing brace. -/
theorem getLast_of_encoding (hj : json.Lawful) {e : Event} {s : String}
    (h : json.toString e = .ok s) : s.toList.getLast? = some '\x7d' := by
  obtain ⟨body, rfl⟩ := hj.object e s h
  rw [String.toList_append, List.getLast?_append]
  rfl

theorem encoding_ne_empty (hj : json.Lawful) {e : Event} {s : String}
    (h : json.toString e = .ok s) : s ≠ "" := by
  rintro rfl
  exact absurd (head_of_encoding hj h) (by simp)

theorem trim_encoding (hj : json.Lawful) {e : Event} {s : String}
    (h : json.toString e = .ok s) : trim s = s :=
  trim_eq_self (head_of_encoding hj h) (by decide) (getLast_of_encoding hj h) (by decide)

theorem framable_encoding (hj : json.Lawful) {e : Event} {s : String}
    (h : json.toString e = .ok s) : Lines.Framable s where
  noNewline := hj.oneLine e s h
  noReturn := by rw [getLast_of_encoding hj h]; decide

theorem framable_texts (hj : json.Lawful) :
    ∀ {es : List Event} {ss : List String}, Texts json es ss → ∀ s ∈ ss, Lines.Framable s
  | _, _, .nil => by simp
  | _, _, .cons hs hss => by
    intro s hmem
    rcases List.mem_cons.mp hmem with rfl | hmem
    · exact framable_encoding hj hs
    · exact framable_texts hj hss s hmem

/-- No encoding is a blank line. -/
theorem blank_texts (hj : json.Lawful) :
    ∀ {es : List Event} {ss : List String}, Texts json es ss → ∀ s ∈ ss, trim s ≠ ""
  | _, _, .nil => by simp
  | _, _, .cons hs hss => by
    intro s hmem
    rcases List.mem_cons.mp hmem with rfl | hmem
    · rw [trim_encoding hj hs]
      exact encoding_ne_empty hj hs
    · exact blank_texts hj hss s hmem

/-! ## The replay loop on whole lines -/

/-- Whole lines are decoded one by one, whatever line counts as the last. -/
theorem replayLoop_texts (hj : json.Lawful) (last : Option Nat) :
    ∀ {es : List Event} {ss : List String}, Texts json es ss →
      ∀ (n : Nat) (rest : List String) (acc : List Event),
        replayLoop json last n (ss ++ rest) acc =
          replayLoop json last (n + ss.length) rest (acc ++ es)
  | [], [], .nil, n, rest, acc => by simp
  | e :: es, s :: ss, .cons hs hss, n, rest, acc => by
    rw [List.cons_append, replayLoop, trim_encoding hj hs,
      if_neg (encoding_ne_empty hj hs), hj.decodes e s hs]
    dsimp only
    rw [replayLoop_texts hj last hss, List.length_cons, List.append_assoc]
    congr 1
    omega

/-- A line that is not blank and does not decode ends the loop. -/
theorem replayLoop_bad (last : Option Nat) (n : Nat) {line m : String}
    (rest : List String) (acc : List Event) (hne : trim line ≠ "")
    (hbad : json.fromStr (trim line) = .error m) :
    replayLoop json last n (line :: rest) acc =
      if some n = last then .ok acc else .error (.corrupt (n + 1) m) := by
  rw [replayLoop]
  simp only [if_neg hne, hbad]

/-- The last line, when it is not blank, is the last non-blank line. -/
theorem lastNonEmpty_concat (ls : List String) {l : String} (h : trim l ≠ "") :
    lastNonEmpty (ls ++ [l]) = some ls.length := by
  rw [lastNonEmpty, List.zipIdx_append, List.reverse_append]
  simp [h]

/-- A line that non-blank lines follow is not the last one. -/
theorem lastNonEmpty_ne (ls : List String) (l : String) {rest : List String}
    (hne : rest ≠ []) (h : ∀ r ∈ rest, trim r ≠ "") :
    lastNonEmpty (ls ++ l :: rest) ≠ some ls.length := by
  rcases List.eq_nil_or_concat rest with rfl | ⟨mid, r, rfl⟩
  · exact absurd rfl hne
  · have hr : trim r ≠ "" := h r (by simp)
    have happ : ls ++ l :: (mid.concat r) = (ls ++ l :: mid) ++ [r] := by simp
    rw [happ, lastNonEmpty_concat _ hr]
    simp

/-! ## Torn tails -/

/-- A non-empty torn tail that is UTF-8 text is a torn encoding. -/
theorem torn_of_tornTail {t : Bytes} (ht : TornTail json t) (hne : t ≠ [])
    {p : String} (hp : bytesOf p = t) :
    ∃ e s, json.toString e = .ok s ∧ Torn p s := by
  obtain ⟨e, s, hs, rest, hrest, hcut⟩ := ht
  rw [← hp] at hcut
  obtain ⟨r, hr, hrb⟩ := Utf8.exists_append_of_bytesOf_prefix hcut.symm
  refine ⟨e, s, hs, ?_, r, ?_, hr⟩
  · rintro rfl
    exact hne (hp ▸ rfl)
  · rintro rfl
    exact hrest (hrb ▸ rfl)

theorem newline_not_mem_tornTail (hj : json.Lawful) {t : Bytes} (ht : TornTail json t) :
    newline ∉ t := by
  obtain ⟨e, s, hs, rest, -, hcut⟩ := ht
  intro hmem
  refine Utf8.newline_not_mem_bytesOf (hj.oneLine e s hs) ?_
  rw [hcut]
  exact List.mem_append_left _ hmem

/-- A torn encoding starts like the encoding. -/
theorem head_of_torn (hj : json.Lawful) {e : Event} {s p : String}
    (h : json.toString e = .ok s) (hp : Torn p s) : p.toList.head? = some '\x7b' := by
  obtain ⟨hne, r, -, hr⟩ := hp
  have hhead := head_of_encoding hj h
  rw [hr, String.toList_append] at hhead
  cases hcs : p.toList with
  | nil => exact absurd (String.toList_eq_nil_iff.mp hcs) hne
  | cons c cs =>
    rw [hcs] at hhead
    simpa using hhead

/-- Trimming a torn encoding leaves a torn encoding. -/
theorem torn_trim (hj : json.Lawful) {e : Event} {s p : String}
    (h : json.toString e = .ok s) (hp : Torn p s) : Torn (trim p) s := by
  obtain ⟨ws, hws, hne⟩ := exists_append_of_trim (head_of_torn hj h hp) (by decide)
  obtain ⟨-, r, hr, hs⟩ := hp
  refine ⟨hne, ws ++ r, ?_, ?_⟩
  · intro hnil
    have := congrArg String.toList hnil
    rw [String.toList_append] at this
    exact hr (String.toList_eq_nil_iff.mp (List.append_eq_nil_iff.mp this).2)
  · rw [hs, ← String.append_assoc, ← hws]

/-- A torn encoding with a whole one behind it has nothing to trim. -/
theorem trim_torn_then (hj : json.Lawful) {e e' : Event} {s s' p : String}
    (h : json.toString e = .ok s) (hp : Torn p s) (h' : json.toString e' = .ok s') :
    trim (p ++ s') = p ++ s' := by
  refine trim_eq_self (c := '\x7b') (d := '\x7d') ?_ (by decide) ?_ (by decide)
  · have := head_of_torn hj h hp
    rw [String.toList_append]
    cases hcs : p.toList with
    | nil => rw [hcs] at this; cases this
    | cons c cs => rw [hcs] at this; simpa using this
  · have := getLast_of_encoding hj h'
    rw [String.toList_append, List.getLast?_append, this]
    rfl

/-! ## Replaying a torn file -/

section Torn

variable (hj : json.Lawful) {es es' : List Event} {f₀ f₁ t : Bytes}
include hj

/-- A file of whole lines, a torn tail and more whole lines, read as lines. -/
theorem readLines_torn {ss : List String} (hss : Texts json es ss) (rest : Bytes) :
    Lines.readLines (Lines.frames ss ++ rest) = (Lines.readLines rest).map (ss ++ ·) :=
  Lines.readLines_frames_append (framable_texts hj hss) rest

/-- Without a torn tail everything acknowledged is replayed. -/
theorem replay_whole (h₀ : Appends json [] es f₀) : replay json (some f₀) = .ok es := by
  obtain ⟨ss, hss, rfl⟩ := appends_frames h₀
  have hread := readLines_torn hj hss []
  rw [Lines.readLines_nil, Option.map_some, List.append_nil, List.append_nil] at hread
  rw [replay]
  simp only [List.nil_append, hread]
  have := replayLoop_texts hj (lastNonEmpty ss) hss 0 [] []
  rw [List.append_nil] at this
  rw [this, replayLoop, List.nil_append]

/-- A torn tail at the end of the file is dropped when it is UTF-8 text. -/
theorem replay_torn_end (h₀ : Appends json [] es f₀) (ht : TornTail json t) (hne : t ≠ [])
    {p : String} (hp : fromUtf8 t = some p) : replay json (some (f₀ ++ t)) = .ok es := by
  obtain ⟨ss, hss, rfl⟩ := appends_frames h₀
  obtain ⟨e, s, hs, htorn⟩ := torn_of_tornTail ht hne (Utf8.bytesOf_of_fromUtf8 hp)
  have htrim := torn_trim hj hs htorn
  obtain ⟨m, hm⟩ := hj.torn e s _ hs htrim
  have hnl := newline_not_mem_tornTail hj ht
  have hread : Lines.readLines ([] ++ Lines.frames ss ++ t) = some (ss ++ [p]) := by
    rw [List.nil_append, readLines_torn hj hss, Lines.readLines,
      Lines.records_of_not_mem hnl hne, List.mapM_cons, Lines.lineOf_of_no_newline hnl, hp]
    rfl
  rw [replay]
  simp only [hread]
  rw [replayLoop_texts hj _ hss, replayLoop_bad _ _ _ _ htrim.1 hm,
    lastNonEmpty_concat ss htrim.1, if_pos (by simp), List.nil_append]

/-- A torn tail that is not UTF-8 fails the read, whatever follows it. -/
theorem replay_torn_not_utf8 (h₀ : Appends json [] es f₀) (ht : TornTail json t)
    (hne : t ≠ []) (hp : fromUtf8 t = none) (h₁ : Appends json (f₀ ++ t) es' f₁) :
    ∃ m, replay json (some f₁) = .error (.io m) := by
  obtain ⟨ss, hss, rfl⟩ := appends_frames h₀
  obtain ⟨ss', hss', rfl⟩ := appends_frames h₁
  have hnl := newline_not_mem_tornTail hj ht
  have hread : Lines.readLines ([] ++ Lines.frames ss ++ t ++ Lines.frames ss') = none := by
    rw [List.nil_append, List.append_assoc, readLines_torn hj hss, Lines.readLines]
    cases hss' with
    | nil =>
      rw [Lines.frames_nil, List.append_nil, Lines.records_of_not_mem hnl hne,
        List.mapM_cons, Lines.lineOf_of_no_newline hnl, hp]
      rfl
    | @cons e' s' _ ss' hs' hss' =>
      have hnl' : newline ∉ t ++ bytesOf s' := by
        simp only [List.mem_append, not_or]
        exact ⟨hnl, Utf8.newline_not_mem_bytesOf (hj.oneLine e' s' hs')⟩
      have hline : Lines.lineOf (t ++ bytesOf s' ++ [newline]) = none := by
        rw [Lines.lineOf, Option.map_eq_none_iff]
        cases hu : fromUtf8 (t ++ bytesOf s' ++ [newline]) with
        | none => rfl
        | some u =>
          have hub : bytesOf u = t ++ bytesOf (s' ++ "\n") := by
            rw [Utf8.bytesOf_of_fromUtf8 hu, Utf8.bytesOf_append, List.append_assoc]
            rfl
          obtain ⟨p, -, hpb⟩ := Utf8.exists_append_of_bytesOf_suffix hub
          rw [← hpb, Utf8.fromUtf8_bytesOf] at hp
          cases hp
      rw [Lines.frames_cons, ← List.append_assoc, Lines.records_append_newline hnl',
        List.mapM_cons, hline]
      rfl
  refine ⟨"stream did not contain valid UTF-8", ?_⟩
  rw [replay]
  simp only [hread]

/-- The line `append` glues to a torn tail, and the lines after it. -/
theorem readLines_glued {ss ss' : List String} {s' : String} {e' : Event}
    (hss : Texts json es ss) (hs' : json.toString e' = .ok s') (hss' : Texts json es' ss')
    (ht : TornTail json t) {p : String} (hp : fromUtf8 t = some p) :
    Lines.readLines (Lines.frames ss ++ (t ++ Lines.frames (s' :: ss'))) =
      some (ss ++ (p ++ s') :: ss') := by
  have hnl' : newline ∉ t ++ bytesOf s' := by
    simp only [List.mem_append, not_or]
    exact ⟨newline_not_mem_tornTail hj ht, Utf8.newline_not_mem_bytesOf (hj.oneLine e' s' hs')⟩
  have hline : Lines.lineOf (t ++ bytesOf s' ++ [newline]) = some (p ++ s') := by
    rw [← Utf8.bytesOf_of_fromUtf8 hp, ← Utf8.bytesOf_append]
    refine Lines.lineOf_frame ?_
    rw [String.toList_append, List.getLast?_append, getLast_of_encoding hj hs']
    simp
  have hrest : Lines.readLines (Lines.frames ss') = some ss' := by
    have := readLines_torn hj hss' []
    simpa using this
  rw [Lines.readLines] at hrest
  rw [readLines_torn hj hss, Lines.readLines, Lines.frames_cons, ← List.append_assoc,
    Lines.records_append_newline hnl', List.mapM_cons, hline, hrest]
  rfl

/-- The loop stops at the glued line: it drops it when it is the last one, and
reports corruption when whole lines follow. -/
theorem replayLoop_glued {ss ss' : List String} {s' : String} {e' : Event}
    (hss : Texts json es ss) (hs' : json.toString e' = .ok s') (hss' : Texts json es' ss')
    (ht : TornTail json t) (hne : t ≠ []) {p : String} (hp : fromUtf8 t = some p) :
    ∃ m, replayLoop json (lastNonEmpty (ss ++ (p ++ s') :: ss')) 0 (ss ++ (p ++ s') :: ss') [] =
      if es' = [] then .ok es else .error (.corrupt (es.length + 1) m) := by
  obtain ⟨e, s, hs, htorn⟩ := torn_of_tornTail ht hne (Utf8.bytesOf_of_fromUtf8 hp)
  obtain ⟨m, hm⟩ := hj.tornThen e s p e' s' hs htorn hs'
  have htrim : trim (p ++ s') = p ++ s' := trim_torn_then hj hs htorn hs'
  have hblank : trim (p ++ s') ≠ "" := by
    rw [htrim]
    intro hnil
    have := congrArg String.toList hnil
    rw [String.toList_append] at this
    exact htorn.1 (String.toList_eq_nil_iff.mp (List.append_eq_nil_iff.mp this).1)
  have hbad : json.fromStr (trim (p ++ s')) = .error m := by rw [htrim, hm]
  have hlen : ss.length = es.length := hss.length_eq.symm
  refine ⟨m, ?_⟩
  rw [replayLoop_texts hj _ hss, replayLoop_bad _ _ _ _ hblank hbad, Nat.zero_add,
    List.nil_append, hlen]
  by_cases hes' : es' = []
  · subst hes'
    cases hss'
    rw [lastNonEmpty_concat ss hblank, hlen, if_pos rfl, if_pos rfl]
  · have hss'ne : ss' ≠ [] := by
      rintro rfl
      cases hss'
      exact hes' rfl
    have hblank' : ∀ r ∈ ss', trim r ≠ "" := blank_texts hj hss'
    rw [if_neg hes', if_neg]
    intro h
    refine lastNonEmpty_ne ss (p ++ s') hss'ne hblank' ?_
    rw [← h, hlen]

/-- The first event appended behind a torn tail is never replayed: it is dropped
when it is the last line of the file, and counts as corruption otherwise. -/
theorem replay_glued (h₀ : Appends json [] es f₀) (ht : TornTail json t) (hne : t ≠ [])
    {p : String} (hp : fromUtf8 t = some p) {e' : Event}
    (h₁ : Appends json (f₀ ++ t) (e' :: es') f₁) :
    ∃ m, replay json (some f₁) =
      if es' = [] then .ok es else .error (.corrupt (es.length + 1) m) := by
  obtain ⟨ss, hss, rfl⟩ := appends_frames h₀
  obtain ⟨_, hss', rfl⟩ := appends_frames h₁
  cases hss' with
  | @cons _ s' _ ss' hs' hss' =>
    obtain ⟨m, hloop⟩ := replayLoop_glued hj hss hs' hss' ht hne hp
    refine ⟨m, ?_⟩
    rw [replay]
    simp only [List.nil_append, List.append_assoc, readLines_glued hj hss hs' hss' ht hp]
    exact hloop

/-- **Acknowledged events and torn tails.** Events `es` are appended to a fresh
file, a crash leaves the tail `t`, the ledger is re-attached, and events `es'` are
appended. The file replays to all of them exactly when the crash left no tail, or
nothing was appended behind the tail and the tail is UTF-8 text. -/
theorem replay_after_torn_append (h₀ : Appends json [] es f₀) (ht : TornTail json t)
    {io : Except String Unit} {f : Bytes} (hnew : new io (some (f₀ ++ t)) = .ok f)
    (h₁ : Appends json f es' f₁) :
    replay json (some f₁) = .ok (es ++ es') ↔
      t = [] ∨ (es' = [] ∧ (fromUtf8 t).isSome) := by
  obtain rfl : f = f₀ ++ t := by
    cases io <;> simp [new] at hnew
    exact hnew.symm
  by_cases hne : t = []
  · subst hne
    rw [List.append_nil] at h₁
    exact ⟨fun _ => Or.inl rfl, fun _ => replay_whole hj (appends_trans h₀ h₁)⟩
  cases hp : fromUtf8 t with
  | none =>
    obtain ⟨m, hm⟩ := replay_torn_not_utf8 hj h₀ ht hne hp h₁
    simp [hm, hne]
  | some p =>
    cases es' with
    | nil =>
      cases h₁
      simp [replay_torn_end hj h₀ ht hne hp]
    | cons e' es' =>
      obtain ⟨m, hm⟩ := replay_glued hj h₀ ht hne hp h₁
      rw [hm]
      split <;> simp [hne]

end Torn

/-! ## A codec at work

The `MilestoneSubmitted` events whose iteration is one digit, with the text
`serde_json` gives each. -/

/-- The text of such an event before the digit, without its opening brace. -/
def submittedHead : String :=
  "\"event_id\":\"67e55044-10b1-426f-9247-bb680e5fe0c8\",\"timestamp\":\"2026-08-17T00:00:00Z\"" ++
  ",\"session_id\":\"s\",\"event_type\":\x7b\"type\":\"MilestoneSubmitted\",\"evidence_keys\":[]" ++
  ",\"iteration\":"

/-- The text of such an event after the digit, without its closing brace. -/
def submittedTail : String := "\x7d,\"step_id\":null,\"payload\":null"

/-- The text of the event with iteration `d`. -/
def submittedText (d : Fin 10) : String :=
  "\x7b" ++ (submittedHead ++ String.singleton (Nat.digitChar d) ++ submittedTail) ++ "\x7d"

/-- `serde_json` on these ten events. -/
def submittedJson : SerdeJson (Fin 10) where
  toString d := .ok (submittedText d)
  fromStr s :=
    match (List.finRange 10).find? fun d => s = submittedText d with
    | some d => .ok d
    | none => .error "EOF while parsing a value"

theorem submittedText_length (d : Fin 10) :
    (submittedText d).length = submittedHead.length + submittedTail.length + 3 := by
  simp only [submittedText, String.length_append, String.length_singleton]
  have : "\x7b".length = 1 ∧ "\x7d".length = 1 := by decide
  omega

theorem submittedText_injective {d d' : Fin 10} (h : submittedText d = submittedText d') :
    d = d' := by
  have hl := congrArg String.toList h
  simp only [submittedText, String.toList_append, List.append_assoc,
    List.append_cancel_left_eq, String.toList_singleton, List.cons_append,
    List.nil_append, List.cons.injEq, and_true] at hl
  exact (by decide : ∀ d d' : Fin 10, Nat.digitChar d = Nat.digitChar d' → d = d') d d' hl

theorem submittedJson_fromStr_text (d : Fin 10) :
    submittedJson.fromStr (submittedText d) = .ok d := by
  have hfind : (List.finRange 10).find? (fun d' => submittedText d = submittedText d') =
      some d := by
    have : (fun d' => decide (submittedText d = submittedText d')) = fun d' => decide (d = d') := by
      funext d'
      exact decide_eq_decide.mpr ⟨submittedText_injective, congrArg _⟩
    rw [this]
    exact (by decide : ∀ d : Fin 10, (List.finRange 10).find? (fun d' => decide (d = d')) =
      some d) d
  simp only [submittedJson, hfind]

theorem submittedJson_fromStr_of_length {s : String}
    (h : s.length ≠ submittedHead.length + submittedTail.length + 3) :
    ∃ m, submittedJson.fromStr s = .error m := by
  have hfind : (List.finRange 10).find? (fun d => s = submittedText d) = none := by
    rw [List.find?_eq_none]
    intro d _ hd
    refine h ?_
    rw [of_decide_eq_true hd, submittedText_length]
  exact ⟨_, by simp only [submittedJson, hfind]; rfl⟩

theorem submittedJson_lawful : submittedJson.Lawful where
  encodes d := ⟨_, rfl⟩
  object d s h := by
    cases h
    exact ⟨_, rfl⟩
  oneLine d s h := by
    cases h
    have hhead : '\n' ∉ submittedHead.toList := by decide +kernel
    have htail : '\n' ∉ submittedTail.toList := by decide
    have hdigit : ∀ d : Fin 10, '\n' ≠ Nat.digitChar d := by decide
    simp [submittedText, hhead, htail, hdigit d]
  decodes d s h := by
    cases h
    exact submittedJson_fromStr_text d
  torn d s p h hp := by
    cases h
    obtain ⟨-, r, hr, hs⟩ := hp
    refine submittedJson_fromStr_of_length ?_
    have := congrArg String.length hs
    rw [submittedText_length, String.length_append] at this
    have hpos : r.length ≠ 0 := fun h0 => hr (String.length_eq_zero_iff.mp h0)
    omega
  tornThen d s p d' s' h hp h' := by
    cases h
    cases h'
    refine submittedJson_fromStr_of_length ?_
    rw [String.length_append, submittedText_length]
    have hpos : p.length ≠ 0 := fun h0 => hp.1 (String.length_eq_zero_iff.mp h0)
    omega

/-- An append to which the operating system answers `Ok` throughout. -/
def quietIo : AppendIo := ⟨.ok (), .ok (), .ok (), .ok (), .ok ()⟩

theorem appends_quiet (file : Bytes) :
    ∀ ds : List (Fin 10),
      Appends submittedJson file ds (file ++ Lines.frames (ds.map submittedText))
  | [] => by simp [Appends]
  | d :: ds => by
    refine ⟨quietIo, file ++ (bytesOf (submittedText d) ++ [newline]), rfl, ?_⟩
    have := appends_quiet (file ++ (bytesOf (submittedText d) ++ [newline])) ds
    simpa [List.append_assoc] using this

/-- The opening brace alone is a torn tail. -/
theorem tornTail_brace : TornTail submittedJson (bytesOf "\x7b") := by
  refine ⟨0, submittedText 0, rfl, bytesOf (submittedHead ++ String.singleton
    (Nat.digitChar (0 : Fin 10)) ++ submittedTail) ++ bytesOf "\x7d", ?_, ?_⟩
  · exact List.append_ne_nil_of_right_ne_nil _ (by decide)
  · rw [submittedText, Utf8.bytesOf_append, Utf8.bytesOf_append, List.append_assoc]

/-- The file after event 1 was acknowledged and a crash left one byte of another. -/
def tornFile : Bytes := Lines.frames [submittedText 1] ++ bytesOf "\x7b"

/-- With no append since the crash, the acknowledged event is replayed. -/
theorem replay_after_torn_append_brace : replay submittedJson (some tornFile) = .ok [1] := by
  have hnew : new (.ok ()) (some tornFile) = .ok tornFile := rfl
  have hnone : Appends submittedJson tornFile [] tornFile := rfl
  exact (replay_after_torn_append submittedJson_lawful (appends_quiet [] [1]) tornTail_brace
    hnew hnone).mpr (Or.inr ⟨rfl, by simp⟩)

/-- One acknowledged append behind the torn byte is lost on replay; with a second
one the ledger no longer replays at all. -/
theorem replay_torn_append_loses_event :
    Appends submittedJson [] [1] (Lines.frames [submittedText 1]) ∧
    TornTail submittedJson (bytesOf "\x7b") ∧
    (Appends submittedJson tornFile [2] (tornFile ++ Lines.frames [submittedText 2]) ∧
      replay submittedJson (some (tornFile ++ Lines.frames [submittedText 2])) = .ok [1]) ∧
    (Appends submittedJson tornFile [2, 3]
        (tornFile ++ Lines.frames [submittedText 2, submittedText 3]) ∧
      ∃ m, replay submittedJson
        (some (tornFile ++ Lines.frames [submittedText 2, submittedText 3])) =
          .error (.corrupt 2 m)) := by
  have h₀ : Appends submittedJson [] [1] (Lines.frames [submittedText 1]) :=
    appends_quiet [] [1]
  have hne : bytesOf "\x7b" ≠ [] := by decide
  have h₁ := appends_quiet tornFile [2]
  have h₂ := appends_quiet tornFile [2, 3]
  obtain ⟨m₁, hm₁⟩ := replay_glued submittedJson_lawful h₀ tornTail_brace hne
    (Utf8.fromUtf8_bytesOf _) h₁
  obtain ⟨m₂, hm₂⟩ := replay_glued submittedJson_lawful h₀ tornTail_brace hne
    (Utf8.fromUtf8_bytesOf _) h₂
  rw [if_pos rfl] at hm₁
  rw [if_neg (by decide)] at hm₂
  exact ⟨h₀, tornTail_brace, ⟨h₁, hm₁⟩, h₂, m₂, hm₂⟩

end ProtocolEnforcer.Ledger
