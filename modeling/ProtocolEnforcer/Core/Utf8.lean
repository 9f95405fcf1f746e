import Mathlib.Data.List.DropRight

/-!
# Text and its UTF-8 bytes

A file is a list of bytes; the programs that read it see text. This module
connects the two levels for lists of bytes (core states its UTF-8 theory for
`ByteArray`): `bytesOf` encodes, `fromUtf8` decodes and refuses ill-formed
input. The lemmas are the ones a line-oriented reader needs: encoding is
injective and a homomorphism, a byte prefix that is itself text is a prefix of
the text, and an ASCII byte occurs in an encoding only as its own character.

`trim` is Unicode trimming (`White_Space`, not only the ASCII blanks).
-/

namespace ProtocolEnforcer

/-- A byte string. -/
abbrev Bytes := List UInt8

/-- The UTF-8 bytes of a text. -/
def bytesOf (s : String) : Bytes := s.toByteArray.data.toList

/-- Decode a byte string as UTF-8; `none` when it is ill-formed. -/
def fromUtf8 (b : Bytes) : Option String :=
  String.fromUTF8? ⟨b.toArray⟩

/-- `str::is_char_boundary`: the end of the text, or the first byte of a character. -/
def isCharBoundary (b : Bytes) (n : Nat) : Prop := ∀ x ∈ b[n]?, x.IsUTF8FirstByte

instance (b : Bytes) (n : Nat) : Decidable (isCharBoundary b n) :=
  inferInstanceAs (Decidable (∀ x ∈ b[n]?, x.IsUTF8FirstByte))

namespace Utf8

theorem bytesOf_eq_utf8Encode (s : String) :
    bytesOf s = s.toList.utf8Encode.data.toList := by
  rw [bytesOf, String.utf8Encode_toList]

@[simp] theorem bytesOf_empty : bytesOf "" = [] := rfl

@[simp] theorem bytesOf_append (s t : String) :
    bytesOf (s ++ t) = bytesOf s ++ bytesOf t := by
  simp [bytesOf]

theorem bytesOf_injective {s t : String} (h : bytesOf s = bytesOf t) : s = t := by
  rw [← String.toByteArray_inj]
  have : s.toByteArray.data = t.toByteArray.data := Array.toList_inj.mp h
  cases hs : s.toByteArray
  cases ht : t.toByteArray
  simp_all

theorem bytesOf_eq_nil {s : String} (h : bytesOf s = []) : s = "" :=
  bytesOf_injective h

/-- Decoding undoes encoding. -/
@[simp] theorem fromUtf8_bytesOf (s : String) : fromUtf8 (bytesOf s) = some s := by
  have hb : (⟨(bytesOf s).toArray⟩ : ByteArray) = s.toByteArray := by
    simp [bytesOf]
  rw [fromUtf8, hb, String.fromUTF8?, dif_pos s.isValidUTF8]
  rfl

/-- What decodes to `s` is the encoding of `s`. -/
theorem bytesOf_of_fromUtf8 {b : Bytes} {s : String} (h : fromUtf8 b = some s) :
    bytesOf s = b := by
  rw [fromUtf8, String.fromUTF8?] at h
  split at h
  · cases h
    simp [bytesOf, String.fromUTF8]
  · cases h

/-! ## Prefixes of encodings -/

/-- A byte prefix of a text that is itself text is a prefix of the text. -/
theorem exists_append_of_bytesOf_prefix {p s : String} {rest : Bytes}
    (h : bytesOf p ++ rest = bytesOf s) : ∃ r, s = p ++ r ∧ bytesOf r = rest := by
  have henc : p.toList.utf8Encode ++ ⟨rest.toArray⟩ = s.toList.utf8Encode := by
    rw [String.utf8Encode_toList, String.utf8Encode_toList]
    refine ByteArray.ext (Array.toList_inj.mp ?_)
    simpa [bytesOf] using h
  obtain ⟨cs, hcs⟩ := List.isPrefix_of_utf8Encode_append_eq_utf8Encode _ henc
  refine ⟨String.ofList cs, ?_, ?_⟩
  · rw [← String.toList_inj, String.toList_append, String.toList_ofList, hcs]
  · have hs : s = p ++ String.ofList cs := by
      rw [← String.toList_inj, String.toList_append, String.toList_ofList, hcs]
    rw [hs, bytesOf_append] at h
    exact (List.append_cancel_left h).symm

/-- Bytes before a well-formed text inside a well-formed text are well-formed. -/
theorem exists_append_of_bytesOf_suffix {u s : String} {b : Bytes}
    (h : bytesOf u = b ++ bytesOf s) : ∃ p, u = p ++ s ∧ bytesOf p = b := by
  have hu : u.toByteArray = ⟨b.toArray⟩ ++ s.toByteArray := by
    refine ByteArray.ext (Array.toList_inj.mp ?_)
    simpa [bytesOf] using h
  have hsize : (⟨b.toArray⟩ : ByteArray).size = b.length := by simp [ByteArray.size]
  have hle : (⟨b.length⟩ : String.Pos.Raw) ≤ u.rawEndPos := by
    rw [String.Pos.Raw.le_iff, String.byteIdx_rawEndPos, ← String.size_toByteArray, hu,
      ByteArray.size_append, hsize]
    exact Nat.le_add_right _ _
  have hvalid : (⟨b.length⟩ : String.Pos.Raw).IsValid u := by
    rw [String.Pos.Raw.isValid_iff_isValidUTF8_extract_utf8ByteSize]
    refine ⟨hle, ?_⟩
    have hext : u.toByteArray.extract b.length u.utf8ByteSize = s.toByteArray := by
      rw [← String.size_toByteArray, hu]
      exact ByteArray.extract_append_eq_right hsize.symm ByteArray.size_append
    rw [hext]
    exact s.isValidUTF8
  have hpre := String.Pos.Raw.isValid_iff_isValidUTF8_extract_zero.mp hvalid
  have hext : u.toByteArray.extract 0 b.length = ⟨b.toArray⟩ := by
    rw [hu]
    exact ByteArray.extract_append_eq_left hsize.symm
  rw [hext] at hpre
  have hb : bytesOf (String.ofByteArray ⟨b.toArray⟩ hpre.2) = b := by simp [bytesOf]
  refine ⟨String.ofByteArray ⟨b.toArray⟩ hpre.2, ?_, hb⟩
  refine bytesOf_injective ?_
  rw [bytesOf_append, hb, h]

/-- Behind a text, what is text on its own is text. -/
theorem isSome_fromUtf8_append (s : String) (b : Bytes) :
    (fromUtf8 (bytesOf s ++ b)).isSome ↔ (fromUtf8 b).isSome := by
  constructor
  · intro h
    obtain ⟨u, hu⟩ := Option.isSome_iff_exists.mp h
    obtain ⟨r, -, hr⟩ := exists_append_of_bytesOf_prefix (bytesOf_of_fromUtf8 hu).symm
    rw [← hr, fromUtf8_bytesOf]
    rfl
  · intro h
    obtain ⟨r, hr⟩ := Option.isSome_iff_exists.mp h
    rw [← bytesOf_of_fromUtf8 hr, ← bytesOf_append, fromUtf8_bytesOf]
    rfl

/-! ## Cut texts -/

theorem isSome_fromUtf8_iff {b : Bytes} :
    (fromUtf8 b).isSome ↔ (⟨b.toArray⟩ : ByteArray).IsValidUTF8 := by
  rw [fromUtf8, String.fromUTF8?]
  split <;> simp_all

/-- A text cut between two characters is a text, and cut inside one it is not. -/
theorem isSome_fromUtf8_take_iff (s : String) (n : Nat) :
    (fromUtf8 ((bytesOf s).take n)).isSome ↔ isCharBoundary (bytesOf s) n := by
  by_cases hn : (bytesOf s).length ≤ n
  · simp [isCharBoundary, List.take_of_length_le hn, List.getElem?_eq_none hn]
  have hsize : (bytesOf s).length = s.utf8ByteSize := by
    rw [← String.size_toByteArray, bytesOf, Array.length_toList]
    rfl
  have hlt : (⟨n⟩ : String.Pos.Raw) < s.rawEndPos := by
    rw [String.Pos.Raw.lt_iff, String.byteIdx_rawEndPos]
    show n < s.utf8ByteSize
    omega
  have hextract : s.toByteArray.extract 0 n = ⟨((bytesOf s).take n).toArray⟩ := by
    refine ByteArray.ext (Array.toList_inj.mp ?_)
    simp [bytesOf]
  have hbyte : (bytesOf s)[n]? = some (s.getUTF8Byte ⟨n⟩ hlt) := by
    rw [List.getElem?_eq_getElem (Nat.lt_of_not_le hn)]
    rfl
  have hvalid : (⟨n⟩ : String.Pos.Raw).IsValid s ↔ (fromUtf8 ((bytesOf s).take n)).isSome := by
    rw [String.Pos.Raw.isValid_iff_isValidUTF8_extract_zero, isSome_fromUtf8_iff, hextract]
    exact and_iff_right (String.Pos.Raw.le_of_lt hlt)
  rw [← hvalid, String.Pos.Raw.isValid_iff_isUTF8FirstByte, isCharBoundary, hbyte]
  constructor
  · rintro (hend | ⟨_, hfirst⟩) x hx
    · exact absurd (hend ▸ hlt) (by simp [String.Pos.Raw.lt_iff])
    · cases hx
      exact hfirst
  · intro h
    exact Or.inr ⟨hlt, h _ rfl⟩

/-! ## ASCII bytes -/

/-- An ASCII byte occurs in the encoding of a character only as that character:
every other byte of an encoding is at least `0x80`. -/
theorem toNat_eq_of_mem_utf8EncodeChar {b : UInt8} {c : Char} (hb : b.toNat < 128)
    (h : b ∈ String.utf8EncodeChar c) : c.toNat = b.toNat := by
  have hlt : ∀ n, n < 256 → b = UInt8.ofNat n → b.toNat = n := by
    intro n hn hbn
    rw [hbn, UInt8.toNat_ofNat_of_lt' hn]
  have hc : c.val.toNat = c.toNat := rfl
  simp only [String.utf8EncodeChar, hc] at h
  split at h
  · rw [List.mem_singleton] at h
    exact (hlt _ (by omega) h).symm
  · split at h
    · simp only [List.mem_cons, List.not_mem_nil, or_false] at h
      rcases h with h | h <;> have := hlt _ (by omega) h <;> omega
    · split at h
      · simp only [List.mem_cons, List.not_mem_nil, or_false] at h
        rcases h with h | h | h <;> have := hlt _ (by omega) h <;> omega
      · simp only [List.mem_cons, List.not_mem_nil, or_false] at h
        rcases h with h | h | h | h <;> have := hlt _ (by omega) h <;> omega

/-- A text is encoded character by character. -/
theorem bytesOf_eq_flatMap (s : String) : bytesOf s = s.toList.flatMap String.utf8EncodeChar := by
  rw [bytesOf_eq_utf8Encode, List.utf8Encode, List.data_toByteArray]

/-- A text that holds an ASCII byte holds the character of that code. -/
theorem exists_mem_toList_of_mem_bytesOf {b : UInt8} {s : String} (hb : b.toNat < 128)
    (h : b ∈ bytesOf s) : ∃ c ∈ s.toList, c.toNat = b.toNat := by
  rw [bytesOf_eq_flatMap] at h
  obtain ⟨c, hc, hbc⟩ := List.mem_flatMap.mp h
  exact ⟨c, hc, toNat_eq_of_mem_utf8EncodeChar hb hbc⟩

/-- An ASCII character is encoded as its code, -/
theorem utf8EncodeChar_ascii {c : Char} (h : c.toNat < 128) :
    String.utf8EncodeChar c = [UInt8.ofNat c.toNat] := by
  have hc : c.val.toNat ≤ 0x7f := Nat.le_of_lt_succ h
  rw [String.utf8EncodeChar, if_pos hc]
  rfl

/-- and an ASCII text as the codes of its characters. -/
theorem bytesOf_ascii {s : String} (h : ∀ c ∈ s.toList, c.toNat < 128) :
    bytesOf s = s.toList.map fun c => UInt8.ofNat c.toNat := by
  rw [bytesOf_eq_flatMap, List.map_eq_flatMap]
  exact List.flatMap_congr fun c hc => utf8EncodeChar_ascii (h c hc)

/-- A text without a newline encodes to bytes without a newline. -/
theorem newline_not_mem_bytesOf {s : String} (h : '\n' ∉ s.toList) :
    (0x0A : UInt8) ∉ bytesOf s := by
  intro hmem
  obtain ⟨c, hc, hcode⟩ := exists_mem_toList_of_mem_bytesOf (by decide) hmem
  have : c = '\n' := Char.toNat_inj.mp hcode
  exact h (this ▸ hc)

end Utf8

/-! ## Lossy decoding -/

/-- The ranges of the bytes that have to follow a first byte; `none` when no character
starts with it. -/
def continuations (b : UInt8) : Option (List (UInt8 × UInt8)) :=
  let any := (0x80, 0xBF)
  if b < 0x80 then some []
  else if b < 0xC2 then none
  else if b < 0xE0 then some [any]
  else if b = 0xE0 then some [(0xA0, 0xBF), any]
  else if b = 0xED then some [(0x80, 0x9F), any]
  else if b < 0xF0 then some [any, any]
  else if b = 0xF0 then some [(0x90, 0xBF), any, any]
  else if b < 0xF4 then some [any, any, any]
  else if b = 0xF4 then some [(0x80, 0x8F), any, any]
  else none

/-- How many bytes are in the ranges, up to the first that is not. -/
def matching : List (UInt8 × UInt8) → Bytes → Nat
  | (lo, hi) :: ranges, b :: bs =>
    if lo ≤ b && b ≤ hi then matching ranges bs + 1 else 0
  | _, _ => 0

/-- The scan of `from_utf8_lossy`: a character, or U+FFFD for as much of one as there is;
`skip` of its bytes are still to be dropped. -/
def lossyFrom : (skip : Nat) → Bytes → List Char
  | _, [] => []
  | skip + 1, _ :: bs => lossyFrom skip bs
  | 0, b :: bs =>
    match continuations b with
    | none => '\uFFFD' :: lossyFrom 0 bs
    | some ranges =>
      let n := matching ranges bs
      if n = ranges.length then
        ((fromUtf8 (b :: bs.take n)).getD "").toList ++ lossyFrom n bs
      else '\uFFFD' :: lossyFrom n bs

/-- `String::from_utf8_lossy`: a text is borrowed as it is. -/
def fromUtf8Lossy (b : Bytes) : String := (fromUtf8 b).getD (String.ofList (lossyFrom 0 b))

theorem fromUtf8Lossy_of_fromUtf8 {b : Bytes} {s : String} (h : fromUtf8 b = some s) :
    fromUtf8Lossy b = s := by
  rw [fromUtf8Lossy, h, Option.getD_some]

/-! ## Unicode trimming -/

/-- The characters of Unicode's `White_Space` property. -/
def isWhiteSpace (c : Char) : Bool :=
  let n := c.toNat
  (0x09 ≤ n && n ≤ 0x0D) || n == 0x20 || n == 0x85 || n == 0xA0 || n == 0x1680 ||
    (0x2000 ≤ n && n ≤ 0x200A) || n == 0x2028 || n == 0x2029 || n == 0x202F ||
    n == 0x205F || n == 0x3000

/-- Drop white space from the end of a list of characters. -/
def trimEnd (cs : List Char) : List Char := cs.rdropWhile isWhiteSpace

/-- Drop white space from both ends of a text. -/
def trim (s : String) : String :=
  String.ofList (trimEnd (s.toList.dropWhile isWhiteSpace))

theorem dropWhile_isWhiteSpace_of_head {cs : List Char} {c : Char}
    (hc : cs.head? = some c) (hw : isWhiteSpace c = false) :
    cs.dropWhile isWhiteSpace = cs := by
  cases cs with
  | nil => rfl
  | cons d ds =>
    cases hc
    rw [List.dropWhile_cons, if_neg (by simp [hw])]

/-- Trimming a text that starts with no white space only cuts its end, and
leaves its first character. -/
theorem exists_append_of_trim {s : String} {c : Char}
    (hc : s.toList.head? = some c) (hw : isWhiteSpace c = false) :
    ∃ ws, s = trim s ++ ws ∧ trim s ≠ "" := by
  have hdrop := dropWhile_isWhiteSpace_of_head hc hw
  obtain ⟨ws, hws⟩ := List.rdropWhile_prefix isWhiteSpace s.toList
  refine ⟨String.ofList ws, ?_, ?_⟩
  · rw [← String.toList_inj, String.toList_append, trim, hdrop, String.toList_ofList,
      String.toList_ofList]
    exact hws.symm
  · rw [trim, hdrop, ne_eq, String.ofList_eq_empty_iff, trimEnd, List.rdropWhile_eq_nil_iff]
    intro hall
    have := hall c (List.mem_of_head? hc)
    simp [hw] at this

/-- White space at the end of a text does not count. -/
theorem trim_concat {cs : List Char} {c : Char} (hw : isWhiteSpace c = true) :
    trim (String.ofList (cs ++ [c])) = trim (String.ofList cs) := by
  rw [trim, trim, String.toList_ofList, String.toList_ofList, List.dropWhile_append]
  split
  · next hnil =>
    rw [List.isEmpty_iff.mp hnil, List.dropWhile_cons, if_pos hw]
    rfl
  · exact congrArg String.ofList (List.rdropWhile_concat_pos _ _ _ hw)

/-- A text with no white space at either end is its own trimming. -/
theorem trim_eq_self {s : String} {c d : Char}
    (hc : s.toList.head? = some c) (hcw : isWhiteSpace c = false)
    (hd : s.toList.getLast? = some d) (hdw : isWhiteSpace d = false) : trim s = s := by
  rw [trim, dropWhile_isWhiteSpace_of_head hc hcw, trimEnd]
  have : s.toList.rdropWhile isWhiteSpace = s.toList := by
    refine List.rdropWhile_eq_self_iff.mpr fun hne => ?_
    rw [List.getLast?_eq_some_getLast hne] at hd
    cases hd
    simp [hdw]
  rw [this, String.ofList_toList]

end ProtocolEnforcer
