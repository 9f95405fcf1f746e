import ProtocolEnforcer.Ledger.Leaves

/-!
# Replay reads nothing but the leaves

`replay` decodes lines and `lines` cuts bytes, so the two could see a file differently. They
do not: which events a file replays to is decided by its leaves (`replay_eq`). So two files
that nobody can tell apart by their root replay to the same events.
-/

namespace ProtocolEnforcer.Ledger

variable {Event : Type} (json : SerdeJson Event)

/-- Lines trimmed, and the blank ones left out. -/
def texts (lines : List String) : List String := (lines.map trim).filter (· ≠ "")

/-- The events of such texts: one that does not decode is passed over at the end, and nowhere
else. -/
def decodeTexts : List String → Option (List Event)
  | [] => some []
  | t :: ts =>
    match json.fromStr t with
    | .ok e => (decodeTexts ts).map (e :: ·)
    | .error _ => if ts = [] then some [] else none

variable {json}

theorem texts_cons_blank {line : String} (h : trim line = "") (rest : List String) :
    texts (line :: rest) = texts rest := by
  rw [texts, List.map_cons, List.filter_cons_of_neg (by simpa using h), texts]

theorem texts_cons {line : String} (h : trim line ≠ "") (rest : List String) :
    texts (line :: rest) = trim line :: texts rest := by
  rw [texts, List.map_cons, List.filter_cons_of_pos (by simpa using h), texts]

theorem texts_eq_nil {lines : List String} : texts lines = [] ↔ ∀ l ∈ lines, trim l = "" := by
  simp [texts]

theorem lastNonEmpty_concat_blank (ls : List String) {l : String} (h : trim l = "") :
    lastNonEmpty (ls ++ [l]) = lastNonEmpty ls := by
  rw [lastNonEmpty, lastNonEmpty, List.zipIdx_append, List.reverse_append]
  simp [h]

/-- A line that is not blank is the last such line when only blank ones follow. -/
theorem lastNonEmpty_iff (ls : List String) {l : String} (h : trim l ≠ "") (rest : List String) :
    some ls.length = lastNonEmpty (ls ++ l :: rest) ↔ texts rest = [] := by
  induction rest using List.reverseRecOn with
  | nil =>
    rw [lastNonEmpty_concat ls h]
    simp [texts]
  | append_singleton rest r ih =>
    have happ : ls ++ l :: (rest ++ [r]) = (ls ++ l :: rest) ++ [r] := by simp
    by_cases hr : trim r = ""
    · rw [happ, lastNonEmpty_concat_blank _ hr, ih, texts_eq_nil, texts_eq_nil]
      constructor
      · intro hrest l hl
        rcases List.mem_append.mp hl with hl | hl
        · exact hrest l hl
        · exact List.mem_singleton.mp hl ▸ hr
      · exact fun hall l hl => hall l (List.mem_append_left _ hl)
    · rw [happ, lastNonEmpty_concat _ hr, texts_eq_nil]
      simp [hr]

/-- **From any point of the loop on**, what it adds is what the texts left decode to. -/
theorem replayLoop_eq (pre rest : List String) (acc : List Event) :
    (replayLoop json (lastNonEmpty (pre ++ rest)) pre.length rest acc).toOption =
      (decodeTexts json (texts rest)).map (acc ++ ·) := by
  induction rest generalizing pre acc with
  | nil => simp [replayLoop, texts, decodeTexts, Except.toOption]
  | cons line rest ih =>
    have happ : pre ++ line :: rest = (pre ++ [line]) ++ rest := by simp
    have hlen : pre.length + 1 = (pre ++ [line]).length := by simp
    rw [replayLoop]
    split
    · next hblank => rw [happ, hlen, ih, texts_cons_blank hblank]
    · next hblank =>
      rw [texts_cons hblank, decodeTexts]
      cases json.fromStr (trim line) with
      | ok e =>
        dsimp only
        rw [happ, hlen, ih, Option.map_map]
        congr 1
        funext es
        simp
      | error e =>
        have hlast := lastNonEmpty_iff pre hblank rest
        dsimp only
        by_cases hrest : texts rest = []
        · rw [if_pos (hlast.mpr hrest), if_pos hrest]
          simp [Except.toOption]
        · rw [if_neg (mt hlast.mp hrest), if_neg hrest]
          rfl

/-- A record is text when it is without its newline. -/
theorem lineOf_eq_none {r : Bytes} (h : Lines.lineOf r = none) : fromUtf8 (Lines.body r) = none := by
  cases hs : fromUtf8 (Lines.body r) with
  | none => rfl
  | some s =>
    have hbytes : bytesOf s = Lines.body r := Utf8.bytesOf_of_fromUtf8 hs
    have hdecodes : ∃ u, fromUtf8 r = some u := by
      rw [Lines.body] at hbytes hs
      split at hbytes
      · next hlast =>
        obtain ⟨b, rfl⟩ := List.getLast?_eq_some_iff.mp hlast
        rw [List.dropLast_concat] at hbytes
        refine ⟨s ++ "\n", ?_⟩
        rw [← hbytes]
        exact Utf8.bytesOf_append s "\n" ▸ Utf8.fromUtf8_bytesOf _
      · exact ⟨s, hbytes ▸ Utf8.fromUtf8_bytesOf s⟩
    obtain ⟨u, hu⟩ := hdecodes
    rw [Lines.lineOf, hu] at h
    cases h

theorem texts_congr {a b : String} {ls ss : List String} (h : trim a = trim b)
    (hrest : texts ls = texts ss) : texts (a :: ls) = texts (b :: ss) := by
  rw [texts, texts, List.map_cons, List.map_cons, h, List.filter_cons, List.filter_cons]
  rw [texts, texts] at hrest
  rw [hrest]

/-- The records of a file are text when its leaves are, and hold the same texts. -/
theorem texts_records (records : List Bytes) :
    (records.mapM Lines.lineOf).map texts =
      (((records.map Lines.body).filter (· ≠ [])).mapM fromUtf8).map texts := by
  induction records with
  | nil => rfl
  | cons r records ih =>
    rw [List.mapM_cons, List.map_cons]
    cases hline : Lines.lineOf r with
    | none =>
      have hnone := lineOf_eq_none hline
      have hne : Lines.body r ≠ [] := by
        intro hnil
        rw [hnil] at hnone
        cases hnone
      rw [List.filter_cons_of_pos (by simpa using hne), List.mapM_cons, hnone]
      rfl
    | some line =>
      obtain ⟨s, hs, htrim⟩ := Lines.lineOf_body hline
      by_cases hnil : Lines.body r = []
      · -- an empty record is a blank line, and no leaf
        have hblank : trim line = "" := by
          rw [hnil] at hs
          cases hs
          exact htrim
        rw [List.filter_cons_of_neg (by simpa using hnil), ← ih]
        cases records.mapM Lines.lineOf with
        | none => rfl
        | some ls => exact congrArg some (texts_cons_blank hblank ls)
      · rw [List.filter_cons_of_pos (by simpa using hnil), List.mapM_cons, hs]
        cases hls : records.mapM Lines.lineOf with
        | none =>
          rw [hls] at ih
          rw [Option.map_eq_none_iff.mp ih.symm]
          rfl
        | some ls =>
          rw [hls] at ih
          obtain ⟨ss, hss, htexts⟩ := Option.map_eq_some_iff.mp ih.symm
          rw [hss]
          exact congrArg some (texts_congr htrim htexts.symm)

/-- **What a file replays to is decided by its leaves.** -/
theorem replay_eq (json : SerdeJson Event) {bytes : Bytes} {leaves : List Bytes}
    (h : lines (some bytes) = .ok leaves) :
    (replay json (some bytes)).toOption =
      (leaves.mapM fromUtf8).bind fun ss => decodeTexts json (texts ss) := by
  rw [lines_eq_records] at h
  cases h
  have htexts := texts_records (Lines.records bytes)
  rw [replay, Lines.readLines]
  cases hlines : (Lines.records bytes).mapM Lines.lineOf with
  | none =>
    rw [hlines] at htexts
    rw [Option.map_eq_none_iff.mp htexts.symm]
    rfl
  | some ls =>
    rw [hlines] at htexts
    obtain ⟨ss, hss, hsame⟩ := Option.map_eq_some_iff.mp htexts.symm
    have hloop : (replayLoop json (lastNonEmpty ls) 0 ls []).toOption =
        (decodeTexts json (texts ls)).map ([] ++ ·) := replayLoop_eq [] ls []
    rw [hss, Option.bind_some, hsame]
    refine hloop.trans ?_
    simp

/-- Files with the same leaves replay to the same events, if they replay. -/
theorem replay_congr (json : SerdeJson Event) {bytes bytes' : Bytes}
    (h : lines (some bytes) = lines (some bytes')) (es : List Event) :
    replay json (some bytes) = .ok es ↔ replay json (some bytes') = .ok es := by
  have hsame := (replay_eq json (lines_eq_records bytes)).trans
    (replay_eq json (h.symm.trans (lines_eq_records bytes))).symm
  cases hr : replay json (some bytes) <;> cases hr' : replay json (some bytes') <;>
    rw [hr, hr'] at hsame <;> cases hsame
  · exact ⟨nofun, nofun⟩
  · exact Iff.rfl

end ProtocolEnforcer.Ledger
