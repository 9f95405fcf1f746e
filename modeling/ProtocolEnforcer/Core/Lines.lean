import ProtocolEnforcer.Core.Utf8

/-!
# Line-oriented reading of a byte file

The reader of `BufRead::lines`: the bytes are cut after every newline byte, each
piece is decoded as UTF-8 on its own, and the line ending (`\n`, or `\r\n`) is
removed. A last piece without newline is a line too. One ill-formed piece fails
the whole read.

`frames` is the writer that goes with it, one newline after each text; reading
back what it wrote yields the texts (`readLines_frames_append`), whatever follows.
-/

namespace ProtocolEnforcer

/-- The newline byte. -/
def newline : UInt8 := 0x0A

namespace Lines

/-- Cut a byte string after each newline. -/
def records : Bytes → List Bytes
  | [] => []
  | b :: rest =>
    if b = newline then [b] :: records rest
    else match records rest with
      | [] => [[b]]
      | r :: rs => (b :: r) :: rs

/-- Remove a final `\n`, and the `\r` before it. -/
def stripEol (cs : List Char) : List Char :=
  if cs.getLast? = some '\n' then
    if cs.dropLast.getLast? = some '\r' then cs.dropLast.dropLast else cs.dropLast
  else cs

/-- Decode one record as a line of text. -/
def lineOf (r : Bytes) : Option String :=
  (fromUtf8 r).map fun s => String.ofList (stripEol s.toList)

/-- One record without its newline byte. -/
def body (r : Bytes) : Bytes :=
  if r.getLast? = some newline then r.dropLast else r

/-- All lines of a file, or `none` when some record is not UTF-8. -/
def readLines (b : Bytes) : Option (List String) :=
  (records b).mapM lineOf

/-- Each text followed by a newline byte. -/
def frames (ts : List String) : Bytes :=
  ts.flatMap fun t => bytesOf t ++ [newline]

@[simp] theorem frames_nil : frames [] = [] := rfl

@[simp] theorem frames_cons (t : String) (ts : List String) :
    frames (t :: ts) = bytesOf t ++ newline :: frames ts := by
  simp [frames]

@[simp] theorem frames_append (ts us : List String) :
    frames (ts ++ us) = frames ts ++ frames us := by
  simp [frames]

/-- What `frames` writes is text. -/
theorem exists_bytesOf_frames (ts : List String) : ∃ s, frames ts = bytesOf s := by
  induction ts with
  | nil => exact ⟨"", rfl⟩
  | cons t ts ih =>
    obtain ⟨s, hs⟩ := ih
    refine ⟨t ++ "\n" ++ s, ?_⟩
    rw [frames_cons, hs, Utf8.bytesOf_append, Utf8.bytesOf_append, List.append_assoc]
    rfl

/-- The first newline ends the first record. -/
theorem records_append_newline {l : Bytes} (h : newline ∉ l) (rest : Bytes) :
    records (l ++ newline :: rest) = (l ++ [newline]) :: records rest := by
  induction l with
  | nil => simp [records]
  | cons b l ih =>
    have hb : b ≠ newline := fun e => h (e ▸ List.mem_cons_self ..)
    have hl : newline ∉ l := fun e => h (List.mem_cons_of_mem _ e)
    rw [List.cons_append, records, if_neg hb, ih hl]
    rfl

/-- Bytes without a newline are one record. -/
theorem records_of_not_mem {l : Bytes} (h : newline ∉ l) (hne : l ≠ []) :
    records l = [l] := by
  induction l with
  | nil => exact absurd rfl hne
  | cons b l ih =>
    have hb : b ≠ newline := fun e => h (e ▸ List.mem_cons_self ..)
    have hl : newline ∉ l := fun e => h (List.mem_cons_of_mem _ e)
    rw [records, if_neg hb]
    cases l with
    | nil => rfl
    | cons c cs => rw [ih hl (List.cons_ne_nil _ _)]

/-- A text that ends a line, read back without its line ending. -/
theorem lineOf_frame {t : String} (hr : t.toList.getLast? ≠ some '\r') :
    lineOf (bytesOf t ++ [newline]) = some t := by
  have hb : bytesOf t ++ [newline] = bytesOf (t ++ "\n") := by
    rw [Utf8.bytesOf_append]
    rfl
  have hl : (t ++ "\n").toList = t.toList ++ ['\n'] := by
    rw [String.toList_append]
    rfl
  rw [lineOf, hb, Utf8.fromUtf8_bytesOf, Option.map_some, hl, stripEol]
  simp [hr]

/-- A last record without newline is read verbatim. -/
theorem lineOf_of_no_newline {b : Bytes} (hb : newline ∉ b) :
    lineOf b = fromUtf8 b := by
  rw [lineOf]
  cases hs : fromUtf8 b with
  | none => rfl
  | some s =>
    have hlast : s.toList.getLast? ≠ some '\n' := by
      intro h
      refine hb ?_
      rw [← Utf8.bytesOf_of_fromUtf8 hs]
      obtain ⟨cs, hcs⟩ := List.getLast?_eq_some_iff.mp h
      have : s = String.ofList cs ++ "\n" := by
        rw [← String.toList_inj, String.toList_append, String.toList_ofList, hcs]
        rfl
      rw [this, Utf8.bytesOf_append]
      exact List.mem_append_right _ (by decide)
    simp [stripEol, hlast]

/-- A split at every newline sees the records the reader sees, and empty pieces. -/
theorem filter_splitOn (b : Bytes) :
    (b.splitOn newline).filter (· ≠ []) = ((records b).map body).filter (· ≠ []) := by
  induction hn : b.length using Nat.strong_induction_on generalizing b with
  | _ n ih =>
    by_cases hmem : newline ∈ b
    · obtain ⟨l, rest, rfl, hl⟩ := List.eq_append_cons_of_mem hmem
      have hshort : rest.length < n := by
        rw [← hn, List.length_append, List.length_cons]
        omega
      rw [List.splitOn_append_cons_self_of_not_mem hl, records_append_newline hl, List.map_cons,
        body, if_pos (by simp), List.dropLast_concat, List.filter_cons, List.filter_cons,
        ih rest.length hshort rest rfl]
    · have hother : ∀ x ∈ b, (x == newline) = false :=
        fun x hx => beq_eq_false_iff_ne.mpr fun he => hmem (he ▸ hx)
      rw [List.splitOn_eq_singleton_of_beq_eq_false hother]
      by_cases hne : b = []
      · subst hne
        rfl
      · have hlast : b.getLast? ≠ some newline := fun h => hmem (List.mem_of_getLast? h)
        rw [records_of_not_mem hmem hne, List.map_singleton, body, if_neg hlast]

/-- A line is the text of its record, up to white space at the end. -/
theorem lineOf_body {r : Bytes} {line : String} (h : lineOf r = some line) :
    ∃ s, fromUtf8 (body r) = some s ∧ trim line = trim s := by
  obtain ⟨u, hu, rfl⟩ := Option.map_eq_some_iff.mp h
  have hub := Utf8.bytesOf_of_fromUtf8 hu
  by_cases hr : r.getLast? = some newline
  · obtain ⟨b, rfl⟩ := List.getLast?_eq_some_iff.mp hr
    obtain ⟨p, rfl, hp⟩ := Utf8.exists_append_of_bytesOf_suffix (s := "\n") hub
    have hcs : (p ++ "\n").toList = p.toList ++ ['\n'] := String.toList_append
    refine ⟨p, ?_, ?_⟩
    · rw [body, if_pos hr, List.dropLast_concat, ← hp, Utf8.fromUtf8_bytesOf]
    · rw [hcs, stripEol, if_pos (by simp), List.dropLast_concat]
      split
      · next hcr =>
        -- a carriage return before the newline is white space to `trim`
        obtain ⟨cs, hp⟩ := List.getLast?_eq_some_iff.mp hcr
        rw [hp, List.dropLast_concat, ← trim_concat (c := '\r') (by decide), ← hp,
          String.ofList_toList]
      · rw [String.ofList_toList]
  · refine ⟨u, by rw [body, if_neg hr, hu], ?_⟩
    have hlast : u.toList.getLast? ≠ some '\n' := by
      intro hnl
      obtain ⟨cs, hcs⟩ := List.getLast?_eq_some_iff.mp hnl
      have hu' : u = String.ofList cs ++ "\n" := by
        rw [← String.toList_inj, String.toList_append, String.toList_ofList, hcs]
        rfl
      refine hr ?_
      rw [← hub, hu', Utf8.bytesOf_append, List.getLast?_append]
      rfl
    rw [stripEol, if_neg hlast, String.ofList_toList]

/-- A text a frame can carry: no newline inside, and no carriage return where
the reader would take it for part of the line ending. -/
structure Framable (t : String) : Prop where
  noNewline : '\n' ∉ t.toList
  noReturn : t.toList.getLast? ≠ some '\r'

/-- Reading back framed texts yields them, followed by the lines of whatever
comes after. -/
theorem readLines_frames_append {ts : List String} (h : ∀ t ∈ ts, Framable t)
    (rest : Bytes) :
    readLines (frames ts ++ rest) = (readLines rest).map (ts ++ ·) := by
  induction ts with
  | nil => simp
  | cons t ts ih =>
    have ht := h t (List.mem_cons_self ..)
    have ih := ih fun u hu => h u (List.mem_cons_of_mem _ hu)
    rw [frames_cons, List.append_assoc, List.cons_append, readLines,
      records_append_newline (Utf8.newline_not_mem_bytesOf ht.noNewline), List.mapM_cons,
      lineOf_frame ht.noReturn]
    rw [readLines] at ih
    rw [ih]
    cases readLines rest <;> rfl

@[simp] theorem readLines_nil : readLines [] = some [] := rfl

end Lines

end ProtocolEnforcer
