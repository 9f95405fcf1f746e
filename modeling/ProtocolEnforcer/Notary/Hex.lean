import ProtocolEnforcer.Core.Text
import ProtocolEnforcer.Notary.Approval

/-!
# The hex codec (`from_hex` in `crates/notary/src/lib.rs`, `to_hex` in `crates/ledger/src/root.rs`)

Every key, seed, signature, challenge and root crosses these two functions. The decoder reads
the bytes of the trimmed text by index, two at a time; here it is run with its indices checked,
and shown to stay within the text and to decode exactly the hex texts.
-/

namespace ProtocolEnforcer

/-! ## The decoder by index -/

/-- The `while` loop of `from_hex`; the outer `none` is an index out of bounds. -/
def fromHexLoop (b : Bytes) (i : Nat) (out : Bytes) : Option (Option Bytes) :=
  if i < b.length then do
    match nib (← b[i]?) with
    | none => return none
    | some hi =>
      match nib (← b[i + 1]?) with
      | none => return none
      | some lo => fromHexLoop b (i + 2) (out ++ [hi <<< 4 ||| lo])
  else some (some out)
termination_by b.length - i

/-- `from_hex` with its indices checked. -/
def fromHexChecked (s : String) : Option (Option Bytes) :=
  let b := bytesOf (trim s)
  if b.length % 2 = 0 then fromHexLoop b 0 [] else some none

/-- `signing_key_from_seed_hex`: the key of any 32 bytes is these bytes (`SigningKey::from_bytes`). -/
def signingKeyFromSeedHex (seedHex : String) : Option Bytes := fromHexN 32 seedHex

/-! ## Hex texts -/

/-- A hex digit of either case. -/
def isHexDigit (c : Char) : Bool :=
  c.isDigit || ('a' ≤ c && c ≤ 'f') || ('A' ≤ c && c ≤ 'F')

/-- A text of hex digits, two for each byte, with white space around it at most. -/
structure HexText (s : String) : Prop where
  even : (bytesOf (trim s)).length % 2 = 0
  digits : ∀ c ∈ (trim s).toList, isHexDigit c = true

/-- A hex text of `n` bytes. -/
structure HexTextOf (n : Nat) (s : String) : Prop extends HexText s where
  length : (bytesOf (trim s)).length = 2 * n

/-! ## Nibbles -/

/-- A character's byte, for an ASCII character. -/
def asciiByte (c : Char) : UInt8 := UInt8.ofNat c.toNat

/-- The two digits of a byte. -/
def hexPair (b : UInt8) : List Char := [hexDigit (b.toNat / 16), hexDigit (b.toNat % 16)]

theorem toHex_eq (b : Bytes) : toHex b = String.ofList (b.flatMap hexPair) := rfl

theorem nib_hexDigit : ∀ n < 16, nib (asciiByte (hexDigit n)) = some (UInt8.ofNat n) := by
  decide

theorem isHexDigit_hexDigit : ∀ n < 16, isHexDigit (hexDigit n) = true := by
  decide

/-- Two nibbles make the byte they are the halves of. -/
theorem toNat_shiftOr : ∀ hi < 16, ∀ lo < 16,
    (UInt8.ofNat hi <<< 4 ||| UInt8.ofNat lo).toNat = 16 * hi + lo := by
  decide +kernel

/-- What a nibble is the value of: a hex digit, which is written back in lower case. -/
theorem nib_spec : ∀ n < 256, ∀ v ∈ nib (UInt8.ofNat n), v.toNat < 16 ∧
    hexDigit v.toNat = (Char.ofNat n).toLower ∧ n < 128 ∧ isHexDigit (Char.ofNat n) = true := by
  decide +kernel

theorem isSome_nib_of_isHexDigit : ∀ n < 256, isHexDigit (Char.ofNat n) = true →
    (nib (UInt8.ofNat n)).isSome = true := by
  decide +kernel

theorem nib_eq_some {x v : UInt8} (h : nib x = some v) :
    v.toNat < 16 ∧ hexDigit v.toNat = (Char.ofNat x.toNat).toLower ∧ x.toNat < 128 ∧
      isHexDigit (Char.ofNat x.toNat) = true :=
  nib_spec x.toNat x.toNat_lt v (UInt8.ofNat_toNat.symm ▸ h)

/-! ## Both directions, on bytes -/

/-- Decoding undoes encoding. -/
theorem fromHexPairs_hexPair (b : Bytes) :
    fromHexPairs ((b.flatMap hexPair).map asciiByte) = some b := by
  induction b with
  | nil => rfl
  | cons x rest ih =>
    have hx : x.toNat < 256 := x.toNat_lt
    have hhi : x.toNat / 16 < 16 := by omega
    have hlo : x.toNat % 16 < 16 := by omega
    have hback : UInt8.ofNat (x.toNat / 16) <<< 4 ||| UInt8.ofNat (x.toNat % 16) = x := by
      rw [← UInt8.toNat_inj, toNat_shiftOr _ hhi _ hlo]
      omega
    show fromHexPairs (asciiByte _ :: asciiByte _ :: (rest.flatMap hexPair).map asciiByte) = _
    rw [fromHexPairs, nib_hexDigit _ hhi, nib_hexDigit _ hlo, ih]
    exact congrArg (fun y => some (y :: rest)) hback

/-- What has been decoded encodes to the digits that were read, in lower case. -/
theorem hexPair_of_fromHexPairs {bs b : Bytes} (h : fromHexPairs bs = some b) :
    b.flatMap hexPair = bs.map fun x => (Char.ofNat x.toNat).toLower := by
  induction bs using fromHexPairs.induct generalizing b with
  | case1 =>
    cases h
    rfl
  | case2 => cases h
  | case3 x y rest ih =>
    rw [fromHexPairs] at h
    obtain ⟨hi, hx, h⟩ := Option.bind_eq_some_iff.mp h
    obtain ⟨lo, hy, h⟩ := Option.bind_eq_some_iff.mp h
    obtain ⟨out, hrest, hb⟩ := Option.bind_eq_some_iff.mp h
    cases hb
    obtain ⟨hhi, hupper, -⟩ := nib_eq_some hx
    obtain ⟨hlo, hlower, -⟩ := nib_eq_some hy
    have hbyte : (hi <<< 4 ||| lo).toNat = 16 * hi.toNat + lo.toNat := by
      simpa using toNat_shiftOr _ hhi _ hlo
    have hdiv : (hi <<< 4 ||| lo).toNat / 16 = hi.toNat := by omega
    have hmod : (hi <<< 4 ||| lo).toNat % 16 = lo.toNat := by omega
    rw [List.flatMap_cons, ih hrest, hexPair, hdiv, hmod, hupper, hlower]
    rfl

/-- Exactly an even number of digits decodes. -/
theorem isSome_fromHexPairs {bs : Bytes} :
    (fromHexPairs bs).isSome = true ↔
      bs.length % 2 = 0 ∧ ∀ x ∈ bs, (nib x).isSome = true := by
  induction bs using fromHexPairs.induct with
  | case1 => simp [fromHexPairs]
  | case2 x => simp [fromHexPairs]
  | case3 x y rest ih =>
    rw [fromHexPairs]
    cases hx : nib x with
    | none => simp [hx]
    | some hi =>
      cases hy : nib y with
      | none => simp [hy]
      | some lo =>
        have hlen : (x :: y :: rest).length % 2 = 0 ↔ rest.length % 2 = 0 := by
          simp only [List.length_cons]
          omega
        rw [hlen, List.forall_mem_cons, List.forall_mem_cons, hx, hy]
        simpa [Option.isSome_bind] using ih

theorem length_of_fromHexPairs {bs b : Bytes} (h : fromHexPairs bs = some b) :
    bs.length = 2 * b.length := by
  have hlen := congrArg List.length (hexPair_of_fromHexPairs h)
  rw [List.length_map, List.length_flatMap] at hlen
  simpa [hexPair, Nat.mul_comm] using hlen.symm

/-! ## The bytes of a hex text -/

theorem toNat_of_isHexDigit {c : Char} (h : isHexDigit c = true) : c.toNat < 128 := by
  simp only [isHexDigit, Char.isDigit, Bool.or_eq_true, Bool.and_eq_true, decide_eq_true_eq,
    Char.le_def, UInt32.le_iff_toNat_le, ge_iff_le] at h
  have h9 : '9'.val.toNat = 57 := rfl
  have hf : 'f'.val.toNat = 102 := rfl
  have hF : 'F'.val.toNat = 70 := rfl
  show c.val.toNat < 128
  omega

/-- A digit's byte is a nibble. -/
theorem isSome_nib_asciiByte {c : Char} (h : isHexDigit c = true) :
    (nib (asciiByte c)).isSome = true :=
  isSome_nib_of_isHexDigit c.toNat (by have := toNat_of_isHexDigit h; omega)
    (by rwa [Char.ofNat_toNat])

/-- The bytes of a text are nibbles when its characters are hex digits, and only then: no
byte of a longer encoding is one. -/
theorem isSome_nib_bytesOf {s : String} :
    (∀ x ∈ bytesOf s, (nib x).isSome = true) ↔ ∀ c ∈ s.toList, isHexDigit c = true := by
  constructor
  · intro h c hc
    obtain ⟨x, hx⟩ := List.exists_mem_of_ne_nil _ (String.utf8EncodeChar_ne_nil (c := c))
    have hmem : x ∈ bytesOf s := by
      rw [Utf8.bytesOf_eq_flatMap]
      exact List.mem_flatMap.mpr ⟨c, hc, hx⟩
    obtain ⟨v, hv⟩ := Option.isSome_iff_exists.mp (h x hmem)
    obtain ⟨-, -, hascii, hdigit⟩ := nib_eq_some hv
    rwa [← Utf8.toNat_eq_of_mem_utf8EncodeChar hascii hx, Char.ofNat_toNat] at hdigit
  · intro h x hx
    rw [Utf8.bytesOf_ascii fun c hc => toNat_of_isHexDigit (h c hc)] at hx
    obtain ⟨c, hc, rfl⟩ := List.mem_map.mp hx
    exact isSome_nib_asciiByte (h c hc)

/-- The bytes of a text of digits, back as characters. -/
theorem asciiLower_bytesOf {s : String} (h : ∀ c ∈ s.toList, isHexDigit c = true) :
    (bytesOf s).map (fun x => (Char.ofNat x.toNat).toLower) = s.toList.map Char.toLower := by
  rw [Utf8.bytesOf_ascii fun c hc => toNat_of_isHexDigit (h c hc), List.map_map]
  refine List.map_congr_left fun c hc => ?_
  have hlt : c.toNat < 128 := toNat_of_isHexDigit (h c hc)
  rw [Function.comp_apply, UInt8.toNat_ofNat_of_lt' (show c.toNat < 256 by omega), Char.ofNat_toNat]

/-! ## The codec -/

theorem fromHex_iff {s : String} {b : Bytes} :
    fromHex s = some b ↔ HexText s ∧ toHex b = Text.asciiLower (trim s) := by
  have hlower (h : ∀ c ∈ (trim s).toList, isHexDigit c = true) :
      Text.asciiLower (trim s) = String.ofList
        ((bytesOf (trim s)).map fun x => (Char.ofNat x.toNat).toLower) := by
    rw [asciiLower_bytesOf h]
    rfl
  constructor
  · intro h
    obtain ⟨heven, hnibs⟩ := isSome_fromHexPairs.mp (Option.isSome_of_eq_some h)
    have hdigits := isSome_nib_bytesOf.mp hnibs
    refine ⟨⟨heven, hdigits⟩, ?_⟩
    rw [toHex_eq, hlower hdigits, hexPair_of_fromHexPairs h]
  · rintro ⟨⟨heven, hdigits⟩, hb⟩
    have hsome := isSome_fromHexPairs.mpr ⟨heven, isSome_nib_bytesOf.mpr hdigits⟩
    obtain ⟨b', hb'⟩ := Option.isSome_iff_exists.mp hsome
    -- the text decodes to some bytes, and they encode to the same digits
    have hsame : b.flatMap hexPair = b'.flatMap hexPair := by
      rw [hexPair_of_fromHexPairs hb', ← String.ofList_inj, ← hlower hdigits, ← hb, toHex_eq]
    have hback := fromHexPairs_hexPair b
    rw [hsame, fromHexPairs_hexPair] at hback
    rw [fromHex, hb', hback]

/-- What is decoded is a hex text. -/
theorem isSome_fromHex {s : String} : (fromHex s).isSome = true ↔ HexText s := by
  rw [fromHex, isSome_fromHexPairs, isSome_nib_bytesOf]
  exact ⟨fun ⟨heven, hdigits⟩ => ⟨heven, hdigits⟩, fun h => ⟨h.even, h.digits⟩⟩

theorem not_isWhiteSpace_of_isHexDigit : ∀ n < 128, isHexDigit (Char.ofNat n) = true →
    isWhiteSpace (Char.ofNat n) = false := by
  decide +kernel

/-- Digits are no white space, so that trimming leaves them. -/
theorem trim_digits {s : String} (h : ∀ c ∈ s.toList, isHexDigit c = true) : trim s = s := by
  have hblank : ∀ c ∈ s.toList, ¬isWhiteSpace c = true := by
    intro c hc
    have hw := not_isWhiteSpace_of_isHexDigit c.toNat (toNat_of_isHexDigit (h c hc))
      (by rw [Char.ofNat_toNat]; exact h c hc)
    rw [Char.ofNat_toNat] at hw
    exact Bool.eq_false_iff.mp hw
  have hfront : s.toList.dropWhile isWhiteSpace = s.toList :=
    List.dropWhile_eq_self_iff.mpr fun hpos => hblank _ (List.getElem_mem hpos)
  have hback : s.toList.rdropWhile isWhiteSpace = s.toList :=
    List.rdropWhile_eq_self_iff.mpr fun hne => hblank _ (List.getLast_mem hne)
  rw [trim, hfront, trimEnd, hback, String.ofList_toList]

theorem digits_toHex {b : Bytes} : ∀ c ∈ (toHex b).toList, isHexDigit c = true := by
  intro c hc
  rw [toHex_eq, String.toList_ofList] at hc
  obtain ⟨x, -, hc⟩ := List.mem_flatMap.mp hc
  have hx : x.toNat < 256 := x.toNat_lt
  rcases List.mem_cons.mp hc with rfl | hc
  · exact isHexDigit_hexDigit _ (by omega)
  · rw [List.mem_singleton.mp hc]
    exact isHexDigit_hexDigit _ (by omega)

/-- Decoding what was encoded. -/
theorem fromHex_toHex (b : Bytes) : fromHex (toHex b) = some b := by
  have hdigits : ∀ c ∈ (toHex b).toList, isHexDigit c = true := digits_toHex
  rw [fromHex, trim_digits hdigits, Utf8.bytesOf_ascii fun c hc => toNat_of_isHexDigit (hdigits c hc),
    toHex_eq, String.toList_ofList]
  exact fromHexPairs_hexPair b

/-- A text decodes to `n` bytes when it is a hex text of `n` bytes. -/
theorem fromHexN_iff {n : Nat} {s : String} {b : Bytes} :
    fromHexN n s = some b ↔ HexTextOf n s ∧ fromHex s = some b := by
  rw [fromHexN, Option.filter_eq_some_iff, decide_eq_true_iff]
  constructor
  · rintro ⟨hb, hn⟩
    exact ⟨⟨isSome_fromHex.mp (Option.isSome_of_eq_some hb), hn ▸ length_of_fromHexPairs hb⟩, hb⟩
  · rintro ⟨htext, hb⟩
    have hlen := length_of_fromHexPairs hb
    have := htext.length
    exact ⟨hb, by omega⟩

theorem isSome_fromHexN {n : Nat} {s : String} :
    (fromHexN n s).isSome = true ↔ HexTextOf n s := by
  constructor
  · intro h
    obtain ⟨b, hb⟩ := Option.isSome_iff_exists.mp h
    exact (fromHexN_iff.mp hb).1
  · intro h
    obtain ⟨b, hb⟩ := Option.isSome_iff_exists.mp (isSome_fromHex.mpr h.toHexText)
    exact Option.isSome_of_eq_some (fromHexN_iff.mpr ⟨h, hb⟩)

/-! ## Indices -/

/-- From any index that the loop can be at, it goes on as the decoder by pairs does, and no
index is out of bounds. -/
theorem fromHexLoop_eq {pre rest out : Bytes} (heven : rest.length % 2 = 0) :
    fromHexLoop (pre ++ rest) pre.length out = some ((fromHexPairs rest).map (out ++ ·)) := by
  induction rest using fromHexPairs.induct generalizing pre out with
  | case1 =>
    rw [fromHexLoop, if_neg (by simp)]
    simp [fromHexPairs]
  | case2 x => cases heven
  | case3 x y rest ih =>
    have hlt : pre.length < (pre ++ x :: y :: rest).length := by simp
    have hx : (pre ++ x :: y :: rest)[pre.length]? = some x := by simp
    have hy : (pre ++ x :: y :: rest)[pre.length + 1]? = some y := by simp
    have hrest : rest.length % 2 = 0 := by
      simp only [List.length_cons] at heven
      omega
    rw [fromHexLoop, if_pos hlt, hx, hy, fromHexPairs]
    simp only [Option.bind_eq_bind, Option.bind_some]
    cases nib x with
    | none => rfl
    | some hi =>
      cases nib y with
      | none => rfl
      | some lo =>
        have hnext : fromHexLoop (pre ++ [x, y] ++ rest) (pre ++ [x, y]).length
            (out ++ [hi <<< 4 ||| lo]) =
              some ((fromHexPairs rest).map (out ++ [hi <<< 4 ||| lo] ++ ·)) := ih hrest
        rw [List.length_append, List.append_assoc] at hnext
        refine hnext.trans (congrArg some ?_)
        cases fromHexPairs rest with
        | none => rfl
        | some tail => exact congrArg some (List.append_assoc _ _ _)

/-- **The decoder never indexes out of bounds**, and answers as the one by pairs. -/
theorem fromHexChecked_eq (s : String) : fromHexChecked s = some (fromHex s) := by
  rw [fromHexChecked]
  split
  · rename_i heven
    have hrun : fromHexLoop ([] ++ bytesOf (trim s)) ([] : Bytes).length [] =
        some ((fromHexPairs (bytesOf (trim s))).map ([] ++ ·)) := fromHexLoop_eq heven
    rw [List.nil_append] at hrun
    refine hrun.trans (congrArg some ?_)
    simp [fromHex]
  · rename_i hodd
    have hnone : ¬(fromHex s).isSome = true := fun h => hodd (isSome_fromHex.mp h).even
    rw [Option.not_isSome_iff_eq_none.mp hnone]

/-! ## Exactness -/

/-- **The hex codec is exact.** What is encoded decodes to itself, no index is out of bounds,
and a text decodes exactly when it is a hex text, to the bytes that encode to its digits in
lower case; so seeds, keys and signatures are the hex texts of their lengths. -/
theorem hex_codec_exact (ed : Ed25519) :
    (∀ b, fromHex (toHex b) = some b) ∧
    (∀ s, fromHexChecked s = some (fromHex s)) ∧
    (∀ s, (fromHex s).isSome = true ↔ HexText s) ∧
    (∀ s b, fromHex s = some b ↔ HexText s ∧ toHex b = Text.asciiLower (trim s)) ∧
    (∀ s, (signingKeyFromSeedHex s).isSome = true ↔ HexTextOf 32 s) ∧
    (∀ s key, verifyingKeyFromHex ed s = some key ↔
      (HexTextOf 32 s ∧ fromHex s = some key) ∧ ed.isPoint key = true) ∧
    ∀ s, (signatureFromHex s).isSome = true ↔ HexTextOf 64 s := by
  refine ⟨fromHex_toHex, fromHexChecked_eq, fun s => isSome_fromHex, fun s b => fromHex_iff,
    fun s => isSome_fromHexN, fun s key => ?_, fun s => isSome_fromHexN⟩
  rw [verifyingKeyFromHex, Option.filter_eq_some_iff, fromHexN_iff]

end ProtocolEnforcer
