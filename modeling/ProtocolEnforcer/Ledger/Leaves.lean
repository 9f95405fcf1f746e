import ProtocolEnforcer.Ledger.TornTail

/-!
# The notarized leaves are the replayed events

`lines` and `replay` read the same file differently. `lines` splits raw bytes at
`0x0A` and drops what is empty; `replay` decodes every record as text, strips a
carriage return, trims, skips what is blank, and may drop a bad last line. They
still see the same records in the same order: `leaves_are_replayed`.
-/

namespace ProtocolEnforcer.Ledger

variable {Event : Type} {json : SerdeJson Event}

/-- A leaf is text that decodes to the event once it is trimmed. -/
def Decodes (json : SerdeJson Event) (leaf : Bytes) (e : Event) : Prop :=
  ∃ s, fromUtf8 leaf = some s ∧ json.fromStr (trim s) = .ok e

/-! ## A file of whole lines -/

theorem filter_splitOn_frames (hj : json.Lawful) {es : List Event} {ss : List String}
    (h : Texts json es ss) :
    ((Lines.frames ss).splitOn newline).filter (· ≠ []) = ss.map bytesOf := by
  induction h with
  | nil => rfl
  | @cons e s _ _ hs _ ih =>
    have hnl : newline ∉ bytesOf s := Utf8.newline_not_mem_bytesOf (hj.oneLine e s hs)
    have hne : bytesOf s ≠ [] := fun hnil => encoding_ne_empty hj hs (Utf8.bytesOf_eq_nil hnil)
    rw [Lines.frames_cons, List.splitOn_append_cons_self_of_not_mem hnl,
      List.filter_cons_of_pos (by simpa using hne), ih, List.map_cons]

theorem decodes_texts (hj : json.Lawful) {es : List Event} {ss : List String}
    (h : Texts json es ss) : List.Forall₂ (Decodes json) (ss.map bytesOf) es := by
  induction h with
  | nil => exact .nil
  | cons hs _ ih =>
    refine .cons ⟨_, Utf8.fromUtf8_bytesOf _, ?_⟩ ih
    rw [trim_encoding hj hs, hj.decodes _ _ hs]

/-! ## Any file -/

/-- A line that is not blank comes from a record that is not empty. -/
theorem body_ne_nil {r : Bytes} {s : String} (hs : fromUtf8 (Lines.body r) = some s)
    (hne : trim s ≠ "") : Lines.body r ≠ [] := by
  intro hnil
  rw [hnil] at hs
  cases hs
  exact hne rfl

/-- From any point of the loop on, what it adds is decoded from the records that are
left, some of them passed over. -/
theorem replayLoop_picks {last : Option Nat} {records : List Bytes} {lines : List String}
    (h : List.Forall₂ (fun r line => Lines.lineOf r = some line) records lines) :
    ∀ {n : Nat} {acc es : List Event}, replayLoop json last n lines acc = .ok es →
      ∃ picked added, picked.Sublist ((records.map Lines.body).filter (· ≠ [])) ∧
        es = acc ++ added ∧ List.Forall₂ (Decodes json) picked added := by
  induction h with
  | nil =>
    intro n acc es hloop
    cases hloop
    exact ⟨[], [], .slnil, (List.append_nil _).symm, .nil⟩
  | @cons r line records lines hline _ ih =>
    intro n acc es hloop
    obtain ⟨s, hs, htrim⟩ := Lines.lineOf_body hline
    have hsub : ((records.map Lines.body).filter (· ≠ [])).Sublist
        (((r :: records).map Lines.body).filter (· ≠ [])) :=
      (List.sublist_cons_self _ _).filter _
    rw [replayLoop] at hloop
    split at hloop
    · -- a blank line
      obtain ⟨picked, added, hpicked, hes, hdec⟩ := ih hloop
      exact ⟨picked, added, hpicked.trans hsub, hes, hdec⟩
    · next hblank =>
      rw [htrim] at hblank hloop
      split at hloop
      · next e he =>
        obtain ⟨picked, added, hpicked, rfl, hdec⟩ := ih hloop
        refine ⟨Lines.body r :: picked, e :: added, ?_, List.append_assoc .., ?_⟩
        swap
        · exact .cons ⟨s, hs, he⟩ hdec
        rw [List.map_cons, List.filter_cons_of_pos (by simpa using body_ne_nil hs hblank)]
        exact hpicked.cons_cons _
      · -- the last line may be bad, and then nothing is behind it
        split at hloop
        · cases hloop
          exact ⟨[], [], List.nil_sublist _, (List.append_nil _).symm, .nil⟩
        · cases hloop

/-- The leaves of a file are its records without their newlines, empty ones left out. -/
theorem lines_eq_records (bytes : Bytes) :
    lines (some bytes) = .ok (((Lines.records bytes).map Lines.body).filter (· ≠ [])) := by
  rw [lines, Lines.filter_splitOn]

theorem forall₂_of_mapM {α β : Type} {f : α → Option β} :
    ∀ {xs : List α} {ys : List β}, xs.mapM f = some ys →
      List.Forall₂ (fun x y => f x = some y) xs ys
  | [], ys, h => by
    cases h
    exact .nil
  | x :: xs, ys, h => by
    rw [List.mapM_cons] at h
    obtain ⟨y, hy, h⟩ := Option.bind_eq_some_iff.mp h
    obtain ⟨ys, hys, h⟩ := Option.bind_eq_some_iff.mp h
    cases h
    exact .cons hy (forall₂_of_mapM hys)

/-- **The leaves are the replayed events.** After successful appends of `es` to a fresh
file the leaves are their encodings, one each and in order, and `replay` returns the
events they decode to. Of any file whatever, `replay` returns the decodings of leaves
picked in order. -/
theorem leaves_are_replayed (json : SerdeJson Event) :
    (json.Lawful → ∀ (io : Except String Unit) (f₀ f : Bytes) (es : List Event),
      new io none = .ok f₀ → Appends json f₀ es f →
        ∃ ss, Texts json es ss ∧ lines (some f) = .ok (ss.map bytesOf) ∧
          replay json (some f) = .ok es ∧
          List.Forall₂ (Decodes json) (ss.map bytesOf) es) ∧
    ∀ (bytes : Bytes) (es : List Event), replay json (some bytes) = .ok es →
      ∃ leaves, lines (some bytes) = .ok leaves ∧
        ∃ picked, picked.Sublist leaves ∧ List.Forall₂ (Decodes json) picked es := by
  constructor
  · intro hj io f₀ f es hnew happ
    obtain rfl : f₀ = [] := by
      cases io <;> cases hnew
      rfl
    obtain ⟨ss, hss, hf⟩ := appends_frames happ
    refine ⟨ss, hss, ?_, replay_whole hj happ, decodes_texts hj hss⟩
    rw [lines, hf, List.nil_append, filter_splitOn_frames hj hss]
  · intro bytes es hreplay
    refine ⟨_, lines_eq_records bytes, ?_⟩
    rw [replay] at hreplay
    split at hreplay
    · cases hreplay
    · next ls hread =>
      obtain ⟨picked, added, hpicked, hes, hdec⟩ :=
        replayLoop_picks (forall₂_of_mapM hread) hreplay
      rw [List.nil_append] at hes
      exact ⟨picked, hpicked, hes ▸ hdec⟩

/-- Two appends, and a file whose last line a crash has torn. -/
theorem leaves_are_replayed_torn :
    (∃ ss, Texts submittedJson [1, 2] ss ∧
      lines (some (Lines.frames [submittedText 1, submittedText 2])) = .ok (ss.map bytesOf) ∧
      replay submittedJson (some (Lines.frames [submittedText 1, submittedText 2])) = .ok [1, 2] ∧
      List.Forall₂ (Decodes submittedJson) (ss.map bytesOf) [1, 2]) ∧
    ∃ leaves, lines (some tornFile) = .ok leaves ∧
      ∃ picked, picked.Sublist leaves ∧ List.Forall₂ (Decodes submittedJson) picked [1] := by
  have htorn : replay submittedJson (some tornFile) = .ok [1] :=
    replay_torn_end submittedJson_lawful (appends_quiet [] [1]) tornTail_brace (by decide)
      (Utf8.fromUtf8_bytesOf _)
  exact ⟨(leaves_are_replayed submittedJson).1 submittedJson_lawful (.ok ()) [] _ [1, 2] rfl
    (appends_quiet [] [1, 2]), (leaves_are_replayed submittedJson).2 _ _ htorn⟩

end ProtocolEnforcer.Ledger
