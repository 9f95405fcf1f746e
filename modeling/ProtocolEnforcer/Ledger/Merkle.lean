import Mathlib.Algebra.Group.Nat.Defs
import Mathlib.Data.Nat.Log
import ProtocolEnforcer.Core.Utf8

/-!
# The transcript tree (`crates/ledger/src/merkle.rs`)

The Merkle tree hash of a ledger's lines, its inclusion proofs and their verification.
SHA-256 is a parameter. The tree is left-full: `n` leaves split at the largest power of
two below `n`.

`root`, `proof` and `path` work on slices, whose lengths are small enough for the
doubling loop of `split_point` not to wrap; there it is a loop on numbers. `verify_proof`
takes its size from the proof object, so there the loop runs on machine words, and fuel
says how long: `none` is a loop that has not returned yet.
-/

namespace ProtocolEnforcer

/-- `[u8; 32]`. -/
structure Digest where
  bytes : Bytes
  length_eq : bytes.length = 32
  deriving DecidableEq

namespace Merkle

variable (sha256 : Bytes → Digest)

/-! ## Hashing -/

/-- What `leaf_hash` hashes. -/
def leafInput (leaf : Bytes) : Bytes := 0x00 :: leaf

/-- What `node_hash` hashes. -/
def nodeInput (left right : Digest) : Bytes := 0x01 :: (left.bytes ++ right.bytes)

/-- `empty_root`. -/
def emptyRoot : Digest := sha256 []

/-- `leaf_hash`. -/
def leafHash (leaf : Bytes) : Digest := sha256 (leafInput leaf)

/-- `node_hash`. -/
def nodeHash (left right : Digest) : Digest := sha256 (nodeInput left right)

/-- Two different byte strings of a list with one hash. -/
def Collision (hashed : List Bytes) : Prop :=
  ∃ a ∈ hashed, ∃ b ∈ hashed, a ≠ b ∧ sha256 a = sha256 b

/-! ## Splitting -/

/-- The loop of `split_point`. -/
def splitLoop (n : Nat) : Nat → Nat → Nat
  | 0, k => k
  | fuel + 1, k => if k <<< 1 < n then splitLoop n fuel (k <<< 1) else k

/-- `split_point`, where nothing is shifted out. -/
def splitPoint (n : Nat) : Nat := splitLoop n n 1

/-- The largest power of two below `n`. -/
structure IsSplit (n k : Nat) : Prop where
  power : ∃ j, k = 2 ^ j
  lt : k < n
  le : n ≤ 2 * k

namespace IsSplit

variable {n k : Nat}

theorem pos (h : IsSplit n k) : 0 < k := by
  obtain ⟨j, rfl⟩ := h.power
  exact Nat.two_pow_pos j

theorem unique {k' : Nat} (h : IsSplit n k) (h' : IsSplit n k') : k = k' := by
  obtain ⟨j, rfl⟩ := h.power
  obtain ⟨j', rfl⟩ := h'.power
  have hj : 2 ^ j < 2 ^ (j' + 1) := by
    have := h.lt.trans_le h'.le
    rw [Nat.pow_succ]
    omega
  have hj' : 2 ^ j' < 2 ^ (j + 1) := by
    have := h'.lt.trans_le h.le
    rw [Nat.pow_succ]
    omega
  have hlt := (Nat.pow_lt_pow_iff_right (by decide)).mp hj
  have hlt' := (Nat.pow_lt_pow_iff_right (by decide)).mp hj'
  congr 1
  omega

/-- Each half is one level less deep. -/
theorem clog (h : IsSplit n k) : Nat.clog 2 n = Nat.clog 2 k + 1 := by
  obtain ⟨j, rfl⟩ := h.power
  rw [Nat.clog_pow 2 j (by decide)]
  refine le_antisymm ?_ ?_
  · refine Nat.clog_le_of_le_pow ?_
    rw [Nat.pow_succ, Nat.mul_comm]
    exact h.le
  · exact (Nat.lt_clog_iff_pow_lt (by decide)).mpr h.lt

end IsSplit

theorem splitLoop_spec {n fuel k : Nat} (power : ∃ j, k = 2 ^ j) (hlt : k < n)
    (hfuel : n ≤ 2 ^ (fuel + 1) * k) : IsSplit n (splitLoop n fuel k) := by
  induction fuel generalizing k with
  | zero => exact ⟨power, hlt, by rw [splitLoop]; omega⟩
  | succ fuel ih =>
    rw [splitLoop, Nat.shiftLeft_eq, Nat.pow_one, Nat.mul_comm k]
    split
    · rename_i hmore
      obtain ⟨j, rfl⟩ := power
      refine ih ⟨j + 1, by rw [Nat.pow_succ, Nat.mul_comm]⟩ hmore ?_
      rwa [← Nat.mul_assoc, ← Nat.pow_succ]
    · exact ⟨power, hlt, by omega⟩

/-- **The split point** of a list of two leaves or more. -/
theorem splitPoint_spec {n : Nat} (h : 2 ≤ n) : IsSplit n (splitPoint n) := by
  refine splitLoop_spec ⟨0, rfl⟩ (by omega) ?_
  have := Nat.lt_two_pow_self (n := n)
  rw [Nat.pow_succ]
  omega

/-! ## The tree -/

/-- `root`. -/
def root (leaves : List Bytes) : Digest :=
  match leaves with
  | [] => emptyRoot sha256
  | [leaf] => leafHash sha256 leaf
  | a :: b :: rest =>
    let k := splitPoint (a :: b :: rest).length
    nodeHash sha256 (root ((a :: b :: rest).take k)) (root ((a :: b :: rest).drop k))
termination_by leaves.length
decreasing_by
  all_goals
    have h := splitPoint_spec (n := (a :: b :: rest).length) (by simp)
    have hpos := h.pos
    have hlt := h.lt
    simp only [List.length_take, List.length_drop]
    omega

/-- `path`; the sibling of the top split comes last. -/
def path (leaves : List Bytes) (m : Nat) : List Digest :=
  match leaves with
  | [] | [_] => []
  | a :: b :: rest =>
    let k := splitPoint (a :: b :: rest).length
    if m < k then path ((a :: b :: rest).take k) m ++ [root sha256 ((a :: b :: rest).drop k)]
    else path ((a :: b :: rest).drop k) (m - k) ++ [root sha256 ((a :: b :: rest).take k)]
termination_by leaves.length
decreasing_by
  all_goals
    have h := splitPoint_spec (n := (a :: b :: rest).length) (by simp)
    have hpos := h.pos
    have hlt := h.lt
    simp only [List.length_take, List.length_drop]
    omega

/-- `proof`. -/
def proof (leaves : List Bytes) (index : UInt64) : Option (List Digest) :=
  if index.toNat ≥ leaves.length then none else some (path sha256 leaves index.toNat)

/-- What `root` hashes. -/
def rootHashed (leaves : List Bytes) : List Bytes :=
  match leaves with
  | [] => [[]]
  | [leaf] => [leafInput leaf]
  | a :: b :: rest =>
    let k := splitPoint (a :: b :: rest).length
    nodeInput (root sha256 ((a :: b :: rest).take k)) (root sha256 ((a :: b :: rest).drop k)) ::
      (rootHashed ((a :: b :: rest).take k) ++ rootHashed ((a :: b :: rest).drop k))
termination_by leaves.length
decreasing_by
  all_goals
    have h := splitPoint_spec (n := (a :: b :: rest).length) (by simp)
    have hpos := h.pos
    have hlt := h.lt
    simp only [List.length_take, List.length_drop]
    omega

/-! ## Verification -/

/-- The loop of `split_point` on machine words: `<<` drops the bit it shifts out. -/
def splitWords (n : UInt64) : Nat → UInt64 → Option UInt64
  | 0, _ => none
  | fuel + 1, k => if k <<< 1 < n then splitWords n fuel (k <<< 1) else some k

variable (fuel : Nat)

/-- The recursion of `recompute`, on the path read from its end (`split_last`). The inner
`none` is the code's. -/
def climb (node : Digest) : (m n : UInt64) → List Digest → Option (Option Digest)
  | _, n, [] => some (if n = 1 then some node else none)
  | m, n, sib :: rest =>
    if n = 1 then some none
    else do
      let k ← splitWords n fuel 1
      if m < k then
        let left ← climb node m k rest
        return left.map (nodeHash sha256 · sib)
      else
        let right ← climb node (m - k) (n - k) rest
        return right.map (nodeHash sha256 sib ·)

/-- `recompute`. -/
def recompute (node : Digest) (m n : UInt64) (path : List Digest) : Option (Option Digest) :=
  climb sha256 fuel node m n path.reverse

/-- `verify_proof`. -/
def verifyProof (root : Digest) (leaf : Bytes) (index n : UInt64) (path : List Digest) :
    Option Bool :=
  if index ≥ n then some false
  else do
    match ← recompute sha256 fuel (leafHash sha256 leaf) index n path with
    | some computed => return computed = root
    | none => return false

/-- What `climb` hashes. -/
def climbHashed (node : Digest) : (m n : UInt64) → List Digest → List Bytes
  | _, _, [] => []
  | m, n, sib :: rest =>
    if n = 1 then []
    else
      match splitWords n fuel 1 with
      | none => []
      | some k =>
        if m < k then
          match climb sha256 fuel node m k rest with
          | some (some left) => nodeInput left sib :: climbHashed node m k rest
          | _ => climbHashed node m k rest
        else
          match climb sha256 fuel node (m - k) (n - k) rest with
          | some (some right) => nodeInput sib right :: climbHashed node (m - k) (n - k) rest
          | _ => climbHashed node (m - k) (n - k) rest

/-- What `verify_proof` hashes. -/
def verifyHashed (leaf : Bytes) (index n : UInt64) (path : List Digest) : List Bytes :=
  leafInput leaf :: climbHashed sha256 fuel (leafHash sha256 leaf) index n path.reverse

/-! ## Two leaves

SHA-256 on what a tree of the lines `a` and `b` hashes. -/

namespace Sample

def digestA : Digest where
  bytes := [2, 42, 105, 121, 230, 218, 183, 170, 90, 228, 195, 229, 228, 95, 126, 151, 113, 18, 167,
    230, 53, 147, 130, 13, 190, 193, 236, 115, 138, 36, 249, 60]
  length_eq := rfl

def digestB : Digest where
  bytes := [87, 235, 53, 97, 93, 71, 243, 78, 199, 20, 202, 205, 245, 253, 116, 96, 138, 94, 142, 16,
    39, 36, 232, 11, 36, 178, 135, 192, 194, 123, 106, 49]
  length_eq := rfl

def digestAB : Digest where
  bytes := [177, 55, 152, 95, 244, 132, 251, 96, 13, 185, 49, 7, 199, 123, 3, 101, 200, 13, 120, 245,
    180, 41, 222, 208, 253, 151, 54, 29, 7, 121, 153, 235]
  length_eq := rfl

def hashAB (input : Bytes) : Digest :=
  if input = leafInput [97] then digestA
  else if input = leafInput [98] then digestB
  else digestAB

/-- A hash that tells the length of its input, and nothing else. -/
def hashLength (input : Bytes) : Digest where
  bytes := List.replicate 32 (UInt8.ofNat input.length)
  length_eq := List.length_replicate

end Sample

/-! ## Inputs -/

variable {sha256}

theorem leafInput_injective {a b : Bytes} (h : leafInput a = leafInput b) : a = b :=
  (List.cons.inj h).2

/-- Both halves have 32 bytes, so the cut between them is known. -/
theorem nodeInput_injective {l r l' r' : Digest} (h : nodeInput l r = nodeInput l' r') :
    l = l' ∧ r = r' := by
  obtain ⟨hl, hr⟩ := List.append_inj (List.cons.inj h).2 (l.length_eq.trans l'.length_eq.symm)
  cases l
  cases r
  cases l'
  cases r'
  cases hl
  cases hr
  exact ⟨rfl, rfl⟩

/-- The prefixes keep leaves and nodes apart. -/
theorem leafInput_ne_nodeInput (a : Bytes) (l r : Digest) : leafInput a ≠ nodeInput l r := by
  intro h
  exact absurd (List.cons.inj h).1 (by decide)

/-- Without a collision, equal hashes are of one string. -/
theorem eq_of_no_collision {xs : List Bytes} (h : ¬Collision sha256 xs) {a b : Bytes}
    (ha : a ∈ xs) (hb : b ∈ xs) (heq : sha256 a = sha256 b) : a = b := by
  by_contra hne
  exact h ⟨a, ha, b, hb, hne, heq⟩

/-! ## Splitting a list -/

/-- Left of the split. -/
def front (leaves : List Bytes) : List Bytes := leaves.take (splitPoint leaves.length)

/-- Right of it. -/
def back (leaves : List Bytes) : List Bytes := leaves.drop (splitPoint leaves.length)

section

variable {leaves : List Bytes}

theorem front_append_back (leaves : List Bytes) : front leaves ++ back leaves = leaves := List.take_append_drop _ _

theorem front_length (h : 2 ≤ leaves.length) : (front leaves).length = splitPoint leaves.length := by
  have := (splitPoint_spec h).lt
  rw [front, List.length_take]
  omega

theorem back_length : (back leaves).length = leaves.length - splitPoint leaves.length :=
  List.length_drop

variable (sha256)

theorem root_split (h : 2 ≤ leaves.length) :
    root sha256 leaves = nodeHash sha256 (root sha256 (front leaves)) (root sha256 (back leaves)) := by
  match leaves, h with
  | a :: b :: rest, _ =>
    rw [root]
    rfl

theorem rootHashed_split (h : 2 ≤ leaves.length) :
    rootHashed sha256 leaves =
      nodeInput (root sha256 (front leaves)) (root sha256 (back leaves)) ::
        (rootHashed sha256 (front leaves) ++ rootHashed sha256 (back leaves)) := by
  match leaves, h with
  | a :: b :: rest, _ =>
    rw [rootHashed]
    rfl

theorem path_split (h : 2 ≤ leaves.length) (m : Nat) :
    path sha256 leaves m =
      if m < splitPoint leaves.length then path sha256 (front leaves) m ++ [root sha256 (back leaves)]
      else path sha256 (back leaves) (m - splitPoint leaves.length) ++
        [root sha256 (front leaves)] := by
  match leaves, h with
  | a :: b :: rest, _ =>
    rw [path]
    rfl

end

/-- **Induction along the split.** -/
theorem split_induction {P : List Bytes → Prop} (nil : P []) (single : ∀ leaf, P [leaf])
    (split : ∀ leaves, 2 ≤ leaves.length → P (front leaves) → P (back leaves) → P leaves)
    (leaves : List Bytes) : P leaves := by
  generalize hn : leaves.length = n
  induction n using Nat.strong_induction_on generalizing leaves with
  | _ n ih =>
    match leaves, hn with
    | [], _ => exact nil
    | [leaf], _ => exact single leaf
    | a :: b :: rest, hn =>
      have h2 : 2 ≤ (a :: b :: rest).length := by simp
      have hsplit := splitPoint_spec h2
      have hpos := hsplit.pos
      have hlt := hsplit.lt
      refine split _ h2 (ih _ ?_ _ rfl) (ih _ ?_ _ rfl)
      · rw [front_length h2]
        omega
      · rw [back_length]
        omega

/-- The string whose hash is the root. -/
def rootInput (sha256 : Bytes → Digest) (leaves : List Bytes) : Bytes :=
  match leaves with
  | [] => []
  | [leaf] => leafInput leaf
  | a :: b :: rest =>
    nodeInput (root sha256 (front (a :: b :: rest))) (root sha256 (back (a :: b :: rest)))

section

variable {leaves : List Bytes}

theorem rootInput_split (h : 2 ≤ leaves.length) :
    rootInput sha256 leaves = nodeInput (root sha256 (front leaves)) (root sha256 (back leaves)) := by
  match leaves, h with
  | a :: b :: rest, _ => rfl

theorem root_eq : root sha256 leaves = sha256 (rootInput sha256 leaves) := by
  match leaves with
  | [] => rw [root, rootInput, emptyRoot]
  | [leaf] => rw [root, rootInput, leafHash]
  | a :: b :: rest =>
    rw [root_split sha256 (by simp), rootInput_split (by simp), nodeHash]

theorem rootInput_mem : rootInput sha256 leaves ∈ rootHashed sha256 leaves := by
  match leaves with
  | [] =>
    rw [rootInput, rootHashed]
    exact List.mem_singleton_self _
  | [leaf] =>
    rw [rootInput, rootHashed]
    exact List.mem_singleton_self _
  | a :: b :: rest =>
    rw [rootHashed_split sha256 (by simp), rootInput_split (by simp)]
    exact List.mem_cons_self

theorem front_hashed (h : 2 ≤ leaves.length) :
    rootHashed sha256 (front leaves) ⊆ rootHashed sha256 leaves := by
  rw [rootHashed_split sha256 h]
  exact List.subset_cons_of_subset _ (List.subset_append_left _ _)

theorem back_hashed (h : 2 ≤ leaves.length) :
    rootHashed sha256 (back leaves) ⊆ rootHashed sha256 leaves := by
  rw [rootHashed_split sha256 h]
  exact List.subset_cons_of_subset _ (List.subset_append_right _ _)

/-- What a root that is a leaf's hash is the root of. -/
theorem eq_of_leafInput {leaf : Bytes} (h : leafInput leaf = rootInput sha256 leaves) :
    leaves = [leaf] := by
  match leaves with
  | [] => cases h
  | [leaf'] => rw [leafInput_injective h]
  | a :: b :: rest => exact absurd h (leafInput_ne_nodeInput _ _ _)

/-- What a root that is a node's hash is the root of. -/
theorem eq_of_nodeInput {l r : Digest} (h : nodeInput l r = rootInput sha256 leaves) :
    2 ≤ leaves.length ∧ l = root sha256 (front leaves) ∧ r = root sha256 (back leaves) := by
  match leaves with
  | [] => cases h
  | [leaf'] => exact absurd h.symm (leafInput_ne_nodeInput _ _ _)
  | a :: b :: rest => exact ⟨by simp, nodeInput_injective h⟩

end

/-! ## Binding -/

theorem root_injective {xs : List Bytes} (hno : ¬Collision sha256 xs) {A B : List Bytes}
    (hA : rootHashed sha256 A ⊆ xs) (hB : rootHashed sha256 B ⊆ xs)
    (h : root sha256 A = root sha256 B) : A = B := by
  induction A using split_induction generalizing B with
  | nil =>
    rw [root_eq, root_eq] at h
    have hinput := eq_of_no_collision hno (hA rootInput_mem) (hB rootInput_mem) h
    match B with
    | [] => rfl
    | [_] => cases hinput
    | _ :: _ :: _ => cases hinput
  | single leaf =>
    rw [root_eq, root_eq] at h
    have hinput := eq_of_no_collision hno (hA rootInput_mem) (hB rootInput_mem) h
    exact (eq_of_leafInput hinput).symm
  | split A h2 ihFront ihBack =>
    rw [root_eq, root_eq] at h
    have hinput := eq_of_no_collision hno (hA rootInput_mem) (hB rootInput_mem) h
    rw [rootInput_split h2] at hinput
    obtain ⟨h2', hfront, hback⟩ := eq_of_nodeInput hinput
    rw [← front_append_back A, ← front_append_back B,
      ihFront (List.Subset.trans (front_hashed h2) hA) (List.Subset.trans (front_hashed h2') hB)
        hfront,
      ihBack (List.Subset.trans (back_hashed h2) hA) (List.Subset.trans (back_hashed h2') hB) hback]

/-- **The root binds the transcript.** Lists of leaves with one root, of whatever lengths,
are one list, or two of the strings hashed for them collide. -/
theorem root_binds (sha256 : Bytes → Digest) (A B : List Bytes)
    (h : root sha256 A = root sha256 B) :
    A = B ∨ Collision sha256 (rootHashed sha256 A ++ rootHashed sha256 B) := by
  by_cases hno : Collision sha256 (rootHashed sha256 A ++ rootHashed sha256 B)
  · exact Or.inr hno
  · exact Or.inl
      (root_injective hno (List.subset_append_left _ _) (List.subset_append_right _ _) h)

/-- Three lines and four: under a hash that tells lengths only, the roots are one, so two of
the strings hashed collide. -/
theorem root_binds_longer : Collision Sample.hashLength
    (rootHashed Sample.hashLength [[97], [98], [99]] ++
      rootHashed Sample.hashLength [[97], [98], [99], [100]]) := by
  have hnode : ∀ l r : Digest, nodeHash Sample.hashLength l r =
      Sample.hashLength (List.replicate 65 0) := by
    intro l r
    have hlength : (nodeInput l r).length = (List.replicate 65 (0 : UInt8)).length := by
      rw [nodeInput, List.length_cons, List.length_append, l.length_eq, r.length_eq]
      rfl
    unfold nodeHash Sample.hashLength
    simp only [hlength]
  have hroot : ∀ leaves : List Bytes, 2 ≤ leaves.length →
      root Sample.hashLength leaves = Sample.hashLength (List.replicate 65 0) :=
    fun leaves h => (root_split _ h).trans (hnode _ _)
  have hsame := (hroot [[97], [98], [99]] (by decide)).trans
    (hroot [[97], [98], [99], [100]] (by decide)).symm
  exact (root_binds Sample.hashLength _ _ hsame).resolve_left (by decide)

/-! ## The loop on words -/

/-- A power of two below the top bit is shifted as a number is doubled. -/
theorem toNat_shift_pow {k : UInt64} {j : Nat} (hk : k.toNat = 2 ^ j) (hj : j < 63) :
    (k <<< 1).toNat = 2 ^ (j + 1) := by
  have hlt : 2 ^ (j + 1) < 2 ^ 64 := Nat.pow_lt_pow_right (by decide) (by omega)
  rw [UInt64.toNat_shiftLeft, hk, Nat.shiftLeft_eq]
  show 2 ^ j * 2 ^ 1 % 2 ^ 64 = _
  rw [← Nat.pow_add, Nat.mod_eq_of_lt hlt]

/-- The top bit is shifted out. -/
theorem shift_top {k : UInt64} (hk : k.toNat = 2 ^ 63) : k <<< 1 = 0 := by
  rw [← UInt64.toNat_inj, UInt64.toNat_shiftLeft, hk]
  rfl

section

variable {n k r : UInt64} {fuel j : Nat}

/-- Below `2^63` the next power is still a word, so the loop doubles. -/
theorem shift_lt (hn : n.toNat ≤ 2 ^ 63) (hk : k.toNat = 2 ^ j) (hlt : k < n) :
    (k <<< 1).toNat = 2 ^ (j + 1) := by
  refine toNat_shift_pow hk ?_
  have hpow : 2 ^ j < 2 ^ 63 := by
    rw [← hk]
    exact (UInt64.lt_iff_toNat_lt.mp hlt).trans_le hn
  exact (Nat.pow_lt_pow_iff_right (by decide)).mp hpow

/-- Where the loop returns, it returns the split point. -/
theorem splitWords_some (hn : n.toNat ≤ 2 ^ 63) (hk : k.toNat = 2 ^ j) (hlt : k < n)
    (h : splitWords n fuel k = some r) : IsSplit n.toNat r.toNat := by
  induction fuel generalizing k j with
  | zero => cases h
  | succ fuel ih =>
    have hshift := shift_lt hn hk hlt
    rw [splitWords] at h
    split at h
    · rename_i hmore
      exact ih hshift hmore h
    · rename_i hstop
      cases h
      refine ⟨⟨j, hk⟩, UInt64.lt_iff_toNat_lt.mp hlt, ?_⟩
      have hle := UInt64.le_iff_toNat_le.mp (UInt64.not_lt.mp hstop)
      rw [hshift, Nat.pow_succ] at hle
      rw [hk]
      omega

/-- Below `2^63` it returns after at most 63 turns. -/
theorem splitWords_returns (fuel : Nat) (hn : n.toNat ≤ 2 ^ 63) (hk : k.toNat = 2 ^ j) (hlt : k < n)
    (hfuel : 63 ≤ fuel + j) : ∃ r, splitWords n (fuel + 1) k = some r := by
  induction fuel generalizing k j with
  | zero =>
    -- from `2^63` on there is no `n` left above `k`
    have hpow : 2 ^ 63 ≤ 2 ^ j := Nat.pow_le_pow_right (by decide) (by omega)
    have := UInt64.lt_iff_toNat_lt.mp hlt
    omega
  | succ fuel ih =>
    rw [splitWords]
    split
    · rename_i hmore
      exact ih (shift_lt hn hk hlt) hmore (by omega)
    · exact ⟨k, rfl⟩

/-- Above `2^63` it never returns: the top bit is below `n`, and so is the `0` that comes
after it. -/
theorem splitWords_none (hn : 2 ^ 63 < n.toNat) (hk : k = 0 ∨ ∃ j ≤ 63, k.toNat = 2 ^ j) :
    splitWords n fuel k = none := by
  induction fuel generalizing k with
  | zero => rfl
  | succ fuel ih =>
    have hshift : k <<< 1 = 0 ∨ ∃ j ≤ 63, (k <<< 1).toNat = 2 ^ j := by
      rcases hk with rfl | ⟨j, hj, hk⟩
      · exact Or.inl rfl
      · rcases Nat.lt_or_eq_of_le hj with hj | rfl
        · exact Or.inr ⟨j + 1, hj, toNat_shift_pow hk hj⟩
        · exact Or.inl (shift_top hk)
    have hmore : k <<< 1 < n := by
      rw [UInt64.lt_iff_toNat_lt]
      rcases hshift with h0 | ⟨j, hj, hpow⟩
      · rw [h0]
        exact Nat.zero_lt_of_lt hn
      · rw [hpow]
        exact (Nat.pow_le_pow_right (by decide) hj).trans_lt hn
    rw [splitWords, if_pos hmore]
    exact ih hshift

end

section

variable {n k : UInt64} {fuel : Nat}

theorem one_lt {n : UInt64} (h : 2 ≤ n.toNat) : 1 < n := UInt64.lt_iff_toNat_lt.mpr h

/-- **When `split_point` returns**, and what. -/
theorem splitWords_iff (h : 2 ≤ n.toNat) :
    (∃ fuel, splitWords n fuel 1 = some k) ↔ n.toNat ≤ 2 ^ 63 ∧ k.toNat = splitPoint n.toNat := by
  by_cases hn : n.toNat ≤ 2 ^ 63
  · constructor
    · rintro ⟨fuel, hk⟩
      exact ⟨hn, (splitWords_some (j := 0) hn rfl (one_lt h) hk).unique (splitPoint_spec h)⟩
    · rintro ⟨-, hk⟩
      obtain ⟨r, hr⟩ := splitWords_returns (j := 0) 63 hn rfl (one_lt h) (by decide)
      have hsplit := splitWords_some (j := 0) hn rfl (one_lt h) hr
      refine ⟨64, hr.trans (congrArg some ?_)⟩
      rw [← UInt64.toNat_inj, hk]
      exact hsplit.unique (splitPoint_spec h)
  · constructor
    · rintro ⟨fuel, hk⟩
      rw [splitWords_none (Nat.lt_of_not_le hn) (Or.inr ⟨0, by decide, rfl⟩)] at hk
      cases hk
    · rintro ⟨hle, -⟩
      exact absurd hle hn

theorem splitWords_split (h : 2 ≤ n.toNat) (hk : splitWords n fuel 1 = some k) :
    IsSplit n.toNat k.toNat := by
  rw [((splitWords_iff h).mp ⟨fuel, hk⟩).2]
  exact splitPoint_spec h

/-- Sixty-four turns are enough. -/
theorem splitWords_64 (h : 2 ≤ n.toNat) (hn : n.toNat ≤ 2 ^ 63) :
    ∃ k, splitWords n 64 1 = some k ∧ k.toNat = splitPoint n.toNat := by
  obtain ⟨r, hr⟩ := splitWords_returns (j := 0) 63 hn rfl (one_lt h) (by decide)
  exact ⟨r, hr, ((splitWords_iff h).mp ⟨64, hr⟩).2⟩

/-- A size that is not one, of a tree with a leaf at `m`. -/
theorem two_le {m n : UInt64} (hm : m < n) (hn : n ≠ 1) : 2 ≤ n.toNat := by
  have hlt := UInt64.lt_iff_toNat_lt.mp hm
  have hne : n.toNat ≠ 1 := fun h => hn (UInt64.toNat_inj.mp h)
  omega

/-- The right half has it where it is not left. -/
theorem right_lt {m : UInt64} (hm : m < n) (hk : k < n) (hmk : ¬m < k) : m - k < n - k := by
  have h1 := UInt64.lt_iff_toNat_lt.mp hm
  have h2 := UInt64.le_iff_toNat_le.mp (UInt64.not_lt.mp hmk)
  rw [UInt64.lt_iff_toNat_lt, UInt64.toNat_sub_of_le _ _ (UInt64.not_lt.mp hmk),
    UInt64.toNat_sub_of_le _ _ (UInt64.le_of_lt hk)]
  omega

end

/-! ## Climbing -/

section

variable {node : Digest} {m n k : UInt64} {sib : Digest} {rest : List Digest} {fuel : Nat}

theorem climb_left (hn : n ≠ 1) (hk : splitWords n fuel 1 = some k) (hmk : m < k) :
    climb sha256 fuel node m n (sib :: rest) =
      (climb sha256 fuel node m k rest).map fun left => left.map (nodeHash sha256 · sib) := by
  rw [climb, if_neg hn, hk]
  simp only [Option.bind_eq_bind, Option.bind_some, if_pos hmk]
  cases climb sha256 fuel node m k rest <;> rfl

theorem climb_right (hn : n ≠ 1) (hk : splitWords n fuel 1 = some k) (hmk : ¬m < k) :
    climb sha256 fuel node m n (sib :: rest) =
      (climb sha256 fuel node (m - k) (n - k) rest).map fun right =>
        right.map (nodeHash sha256 sib ·) := by
  rw [climb, if_neg hn, hk]
  simp only [Option.bind_eq_bind, Option.bind_some, if_neg hmk]
  cases climb sha256 fuel node (m - k) (n - k) rest <;> rfl

/-- **One level of a climb that arrives**: the halves it came from, and what it hashed. -/
theorem climb_cons {d : Digest} (h : climb sha256 fuel node m n (sib :: rest) = some (some d)) :
    n ≠ 1 ∧ ∃ k, splitWords n fuel 1 = some k ∧
      ((m < k ∧ ∃ left, climb sha256 fuel node m k rest = some (some left) ∧
          d = nodeHash sha256 left sib ∧
          climbHashed sha256 fuel node m n (sib :: rest) =
            nodeInput left sib :: climbHashed sha256 fuel node m k rest) ∨
        (¬m < k ∧ ∃ right, climb sha256 fuel node (m - k) (n - k) rest = some (some right) ∧
          d = nodeHash sha256 sib right ∧
          climbHashed sha256 fuel node m n (sib :: rest) =
            nodeInput sib right :: climbHashed sha256 fuel node (m - k) (n - k) rest)) := by
  by_cases hn : n = 1
  · rw [climb, if_pos hn] at h
    cases h
  refine ⟨hn, ?_⟩
  cases hk : splitWords n fuel 1 with
  | none =>
    rw [climb, if_neg hn, hk] at h
    cases h
  | some k =>
    refine ⟨k, rfl, ?_⟩
    by_cases hmk : m < k
    · rw [climb_left hn hk hmk, Option.map_eq_some_iff] at h
      obtain ⟨out, hout, hd⟩ := h
      obtain ⟨left, rfl, rfl⟩ := Option.map_eq_some_iff.mp hd
      refine Or.inl ⟨hmk, left, hout, rfl, ?_⟩
      simp only [climbHashed, if_neg hn, hk, if_pos hmk, hout]
    · rw [climb_right hn hk hmk, Option.map_eq_some_iff] at h
      obtain ⟨out, hout, hd⟩ := h
      obtain ⟨right, rfl, rfl⟩ := Option.map_eq_some_iff.mp hd
      refine Or.inr ⟨hmk, right, hout, rfl, ?_⟩
      simp only [climbHashed, if_neg hn, hk, if_neg hmk, hout]

/-- A climb without siblings arrives where it starts. -/
theorem climb_nil {d : Digest} (h : climb sha256 fuel node m n [] = some (some d)) :
    n = 1 ∧ d = node := by
  rw [climb] at h
  split at h
  · rename_i hn
    cases h
    exact ⟨hn, rfl⟩
  · cases h

/-- **A climb from a size up to `2^63` returns.** -/
theorem climb_returns (node : Digest) {siblings : List Digest} (hm : m < n)
    (hn : n.toNat ≤ 2 ^ 63) : ∃ out, climb sha256 64 node m n siblings = some out := by
  induction siblings generalizing m n with
  | nil => exact ⟨_, rfl⟩
  | cons sib rest ih =>
    by_cases h1 : n = 1
    · exact ⟨none, by rw [climb, if_pos h1]⟩
    have h2 := two_le hm h1
    obtain ⟨k, hk, -⟩ := splitWords_64 h2 hn
    have hlt := (splitWords_split h2 hk).lt
    by_cases hmk : m < k
    · obtain ⟨out, hout⟩ := ih hmk (by omega)
      exact ⟨_, by rw [climb_left h1 hk hmk, hout]; rfl⟩
    · have hsub := UInt64.toNat_sub_of_le n k (UInt64.le_iff_toNat_le.mpr (by omega))
      obtain ⟨out, hout⟩ := ih (right_lt hm (UInt64.lt_iff_toNat_lt.mpr hlt) hmk) (by omega)
      exact ⟨_, by rw [climb_right h1 hk hmk, hout]; rfl⟩

end

/-! ## Soundness -/

section

variable {xs : List Bytes} {leaf : Bytes} {m n : UInt64} {siblings : List Digest} {fuel : Nat}
  {leaves : List Bytes}

/-- A climb from a leaf to a root of leaves starts at one of them, whatever index and size
it went by. -/
theorem mem_of_climb (hno : ¬Collision sha256 xs) (hroot : rootHashed sha256 leaves ⊆ xs)
    (hleaf : leafInput leaf ∈ xs)
    (hclimb : climbHashed sha256 fuel (leafHash sha256 leaf) m n siblings ⊆ xs)
    (h : climb sha256 fuel (leafHash sha256 leaf) m n siblings = some (some (root sha256 leaves))) :
    leaf ∈ leaves := by
  induction siblings generalizing m n leaves with
  | nil =>
    obtain ⟨-, heq⟩ := climb_nil h
    rw [root_eq, leafHash] at heq
    have hinput := eq_of_no_collision hno hleaf (hroot rootInput_mem) heq.symm
    rw [eq_of_leafInput hinput]
    exact List.mem_singleton_self _
  | cons sib rest ih =>
    obtain ⟨-, k, -, ⟨-, left, hleft, heq, hhashed⟩ | ⟨-, right, hright, heq, hhashed⟩⟩ :=
      climb_cons h
    · rw [hhashed, List.cons_subset] at hclimb
      rw [root_eq, nodeHash] at heq
      have hinput := eq_of_no_collision hno hclimb.1 (hroot rootInput_mem) heq.symm
      obtain ⟨h2, hfront, -⟩ := eq_of_nodeInput hinput
      rw [hfront] at hleft
      have hmem := ih (List.Subset.trans (front_hashed h2) hroot) hclimb.2 hleft
      rw [← front_append_back leaves]
      exact List.mem_append_left _ hmem
    · rw [hhashed, List.cons_subset] at hclimb
      rw [root_eq, nodeHash] at heq
      have hinput := eq_of_no_collision hno hclimb.1 (hroot rootInput_mem) heq.symm
      obtain ⟨h2, -, hback⟩ := eq_of_nodeInput hinput
      rw [hback] at hright
      have hmem := ih (List.Subset.trans (back_hashed h2) hroot) hclimb.2 hright
      rw [← front_append_back leaves]
      exact List.mem_append_right _ hmem

/-- With the true size, it starts at the leaf of its index and passes that leaf's path. -/
theorem path_of_climb (hno : ¬Collision sha256 xs) (hroot : rootHashed sha256 leaves ⊆ xs)
    (hleaf : leafInput leaf ∈ xs)
    (hclimb : climbHashed sha256 fuel (leafHash sha256 leaf) m n siblings ⊆ xs)
    (h : climb sha256 fuel (leafHash sha256 leaf) m n siblings = some (some (root sha256 leaves)))
    (hm : m < n) (hn : n.toNat = leaves.length) :
    leaves[m.toNat]? = some leaf ∧ path sha256 leaves m.toNat = siblings.reverse := by
  induction siblings generalizing m n leaves with
  | nil =>
    obtain ⟨rfl, heq⟩ := climb_nil h
    rw [root_eq, leafHash] at heq
    have hinput := eq_of_no_collision hno hleaf (hroot rootInput_mem) heq.symm
    have hm0 : m.toNat = 0 := Nat.lt_one_iff.mp (UInt64.lt_iff_toNat_lt.mp hm)
    rw [eq_of_leafInput hinput, hm0, path]
    exact ⟨rfl, rfl⟩
  | cons sib rest ih =>
    have hmlt := UInt64.lt_iff_toNat_lt.mp hm
    obtain ⟨hn1, k, hk, ⟨hmk, left, hleft, heq, hhashed⟩ |
      ⟨hmk, right, hright, heq, hhashed⟩⟩ := climb_cons h
    · have hsplit := splitWords_split (two_le hm hn1) hk
      have hks : k.toNat = splitPoint leaves.length :=
        hsplit.unique (hn ▸ splitPoint_spec (two_le hm hn1))
      rw [hhashed, List.cons_subset] at hclimb
      rw [root_eq, nodeHash] at heq
      have hinput := eq_of_no_collision hno hclimb.1 (hroot rootInput_mem) heq.symm
      obtain ⟨h2, hfront, hback⟩ := eq_of_nodeInput hinput
      rw [hfront] at hleft
      have hmk' := UInt64.lt_iff_toNat_lt.mp hmk
      obtain ⟨hget, hpath⟩ := ih (List.Subset.trans (front_hashed h2) hroot) hclimb.2 hleft hmk
        (by rw [front_length h2, hks])
      constructor
      · rw [front, List.getElem?_take_of_lt (hks ▸ hmk')] at hget
        exact hget
      · rw [path_split sha256 h2, if_pos (hks ▸ hmk'), hpath, hback, List.reverse_cons]
    · have hsplit := splitWords_split (two_le hm hn1) hk
      have hks : k.toNat = splitPoint leaves.length :=
        hsplit.unique (hn ▸ splitPoint_spec (two_le hm hn1))
      rw [hhashed, List.cons_subset] at hclimb
      rw [root_eq, nodeHash] at heq
      have hinput := eq_of_no_collision hno hclimb.1 (hroot rootInput_mem) heq.symm
      obtain ⟨h2, hfront, hback⟩ := eq_of_nodeInput hinput
      rw [hback] at hright
      have hkn : k < n := UInt64.lt_iff_toNat_lt.mpr hsplit.lt
      have hkm := UInt64.le_iff_toNat_le.mp (UInt64.not_lt.mp hmk)
      have hmsub := UInt64.toNat_sub_of_le m k (UInt64.not_lt.mp hmk)
      have hnsub := UInt64.toNat_sub_of_le n k (UInt64.le_of_lt hkn)
      obtain ⟨hget, hpath⟩ := ih (List.Subset.trans (back_hashed h2) hroot) hclimb.2 hright
        (right_lt hm hkn hmk) (by rw [back_length, hnsub, hks, hn])
      rw [hmsub, hks] at hget hpath
      constructor
      · rw [back, List.getElem?_drop] at hget
        rwa [← hks, Nat.add_sub_cancel' hkm] at hget
      · rw [path_split sha256 h2, if_neg (by rw [← hks]; omega), hpath, hfront, List.reverse_cons]

end

/-- **Inclusion proofs are sound**, for any claimed index and size: what verifies is a leaf,
and with the true size it is the leaf of that index with its own path, or two of the
strings hashed collide. -/
theorem verify_sound (sha256 : Bytes → Digest) {leaves : List Bytes} {leaf : Bytes}
    {index n : UInt64} {P : List Digest} {fuel : Nat}
    (h : verifyProof sha256 fuel (root sha256 leaves) leaf index n P = some true) :
    (leaf ∈ leaves ∧ (n.toNat = leaves.length →
        leaves[index.toNat]? = some leaf ∧ proof sha256 leaves index = some P)) ∨
      Collision sha256 (rootHashed sha256 leaves ++ verifyHashed sha256 fuel leaf index n P) := by
  by_cases hno : Collision sha256
    (rootHashed sha256 leaves ++ verifyHashed sha256 fuel leaf index n P)
  · exact Or.inr hno
  unfold verifyProof at h
  split at h
  · cases h
  rename_i hindex
  have hlt : index < n := UInt64.not_le.mp hindex
  have hclimb : climb sha256 fuel (leafHash sha256 leaf) index n P.reverse =
      some (some (root sha256 leaves)) := by
    change (climb sha256 fuel (leafHash sha256 leaf) index n P.reverse).bind _ = _ at h
    obtain ⟨out, hout, h⟩ := Option.bind_eq_some_iff.mp h
    rw [hout]
    cases out with
    | none => cases h
    | some d => rw [of_decide_eq_true (Option.some.inj h)]
  have hroot := List.subset_append_left (rootHashed sha256 leaves)
    (verifyHashed sha256 fuel leaf index n P)
  have hverify := List.subset_append_right (rootHashed sha256 leaves)
    (verifyHashed sha256 fuel leaf index n P)
  rw [verifyHashed, List.cons_subset] at hverify
  refine Or.inl ⟨mem_of_climb hno hroot hverify.1 hverify.2 hclimb, fun hn => ?_⟩
  obtain ⟨hget, hpath⟩ := path_of_climb hno hroot hverify.1 hverify.2 hclimb hlt hn
  refine ⟨hget, ?_⟩
  have hrange : ¬index.toNat ≥ leaves.length := by
    have := UInt64.lt_iff_toNat_lt.mp hlt
    omega
  rw [proof, if_neg hrange, hpath, List.reverse_reverse]

/-- The second of two leaves, with the first's hash as its path. -/
theorem verify_sound_second :
    (([98] : Bytes) ∈ ([[97], [98]] : List Bytes) ∧
        ((2 : UInt64).toNat = ([[97], [98]] : List Bytes).length →
        ([[97], [98]] : List Bytes)[(1 : UInt64).toNat]? = some [98] ∧
          proof Sample.hashAB [[97], [98]] 1 = some [Sample.digestA])) ∨
      Collision Sample.hashAB (rootHashed Sample.hashAB [[97], [98]] ++
        verifyHashed Sample.hashAB 2 [98] 1 2 [Sample.digestA]) := by
  have hroot : root Sample.hashAB [[97], [98]] = Sample.digestAB := by
    rw [root_split _ (by decide), show front [[97], [98]] = [[97]] from rfl,
      show back [[97], [98]] = [[98]] from rfl, root, root]
    decide
  have hverify : verifyProof Sample.hashAB 2 (root Sample.hashAB [[97], [98]]) [98] 1 2
      [Sample.digestA] = some true := by
    rw [hroot]
    decide
  exact verify_sound Sample.hashAB hverify

/-! ## Completeness -/

/-- `&[Vec<u8>]`: no slice has more than `isize::MAX` bytes, and a `Vec` is 24 of them. -/
structure Leaves where
  list : List Bytes
  fits : list.length * 24 < 2 ^ 63

/-- A path has a sibling for each level at most. -/
theorem path_length (leaves : List Bytes) (m : Nat) :
    (path sha256 leaves m).length ≤ Nat.clog 2 leaves.length := by
  induction leaves using split_induction generalizing m with
  | nil => simp [path]
  | single leaf => simp [path]
  | split leaves h2 ihFront ihBack =>
    have hsplit := splitPoint_spec h2
    have hle := hsplit.le
    rw [path_split sha256 h2, hsplit.clog]
    split
    · rw [List.length_append, List.length_singleton]
      have := ihFront m
      rw [front_length h2] at this
      omega
    · rw [List.length_append, List.length_singleton]
      have hback := ihBack (m - splitPoint leaves.length)
      -- the right half is not larger than the left
      have hmono : Nat.clog 2 (back leaves).length ≤ Nat.clog 2 (splitPoint leaves.length) :=
        Nat.clog_mono_right 2 (by rw [back_length]; omega)
      omega

/-- **Climbing a leaf's own path arrives at the root.** -/
theorem climb_path {leaves : List Bytes} {leaf : Bytes} {m n : UInt64}
    (hm : leaves[m.toNat]? = some leaf) (hn : n.toNat = leaves.length) (hfits : n.toNat ≤ 2 ^ 63) :
    climb sha256 64 (leafHash sha256 leaf) m n (path sha256 leaves m.toNat).reverse =
      some (some (root sha256 leaves)) := by
  induction leaves using split_induction generalizing m n with
  | nil => cases hm
  | single leaf' =>
    have hlt := (List.getElem?_eq_some_iff.mp hm).1
    have hm0 : m.toNat = 0 := Nat.lt_one_iff.mp hlt
    rw [hm0] at hm
    cases hm
    have h1 : n = 1 := UInt64.toNat_inj.mp hn
    rw [path, h1, root]
    rfl
  | split leaves h2 ihFront ihBack =>
    have hlt := (List.getElem?_eq_some_iff.mp hm).1
    have h2n : 2 ≤ n.toNat := hn ▸ h2
    obtain ⟨k, hk, hks⟩ := splitWords_64 h2n hfits
    have hkn := (splitWords_split h2n hk).lt
    have h1 : n ≠ 1 := by
      rintro rfl
      exact absurd h2n (by decide)
    rw [hn] at hks
    rw [path_split sha256 h2, root_split sha256 h2, ← hks]
    split
    · rename_i hmk
      have hmk' : m < k := UInt64.lt_iff_toNat_lt.mpr hmk
      rw [List.reverse_append, List.reverse_singleton, List.singleton_append,
        climb_left h1 hk hmk', ihFront ?_ ?_ (by omega)]
      · rfl
      · rwa [front, List.getElem?_take_of_lt (hks ▸ hmk)]
      · rw [front_length h2, hks]
    · rename_i hmk
      have hkm := Nat.le_of_not_lt hmk
      have hmk' : ¬m < k := fun h => hmk (UInt64.lt_iff_toNat_lt.mp h)
      have hmsub := UInt64.toNat_sub_of_le m k (UInt64.le_iff_toNat_le.mpr hkm)
      have hnsub := UInt64.toNat_sub_of_le n k (UInt64.le_iff_toNat_le.mpr (Nat.le_of_lt hkn))
      rw [List.reverse_append, List.reverse_singleton, List.singleton_append,
        climb_right h1 hk hmk', ← hmsub, ihBack ?_ ?_ (by omega)]
      · rfl
      · rwa [back, List.getElem?_drop, hmsub, hks, Nat.add_sub_cancel' (hks ▸ hkm)]
      · rw [back_length, hnsub, hks, hn]

/-- **Inclusion proofs are complete and short.** There is one for each leaf and no more,
it verifies at the leaf's index and the list's size, and it has at most `⌈log₂ n⌉` siblings. -/
theorem proof_complete (sha256 : Bytes → Digest) (leaves : Leaves) (index : UInt64) :
    ((proof sha256 leaves.list index).isSome ↔ index.toNat < leaves.list.length) ∧
      ∀ P, proof sha256 leaves.list index = some P → ∃ leaf,
        leaves.list[index.toNat]? = some leaf ∧
        (∃ fuel, verifyProof sha256 fuel (root sha256 leaves.list) leaf index
          (UInt64.ofNat leaves.list.length) P = some true) ∧
        P.length ≤ Nat.clog 2 leaves.list.length := by
  obtain ⟨leaves, fits⟩ := leaves
  dsimp only
  by_cases hlt : index.toNat < leaves.length
  · have hproof : proof sha256 leaves index = some (path sha256 leaves index.toNat) := by
      rw [proof, if_neg (Nat.not_le.mpr hlt)]
    refine ⟨by rw [hproof]; exact ⟨fun _ => hlt, fun _ => rfl⟩, fun P hP => ?_⟩
    rw [hproof] at hP
    cases hP
    have hget := List.getElem?_eq_getElem hlt
    have hn : (UInt64.ofNat leaves.length).toNat = leaves.length :=
      UInt64.toNat_ofNat_of_lt' (by show _ < 2 ^ 64; omega)
    have hclimb : climb sha256 64 (leafHash sha256 leaves[index.toNat]) index
        (UInt64.ofNat leaves.length) (path sha256 leaves index.toNat).reverse =
          some (some (root sha256 leaves)) := climb_path hget hn (by omega)
    refine ⟨_, hget, ⟨64, ?_⟩, path_length leaves index.toNat⟩
    have hindex : ¬index ≥ UInt64.ofNat leaves.length := by
      rw [ge_iff_le, UInt64.le_iff_toNat_le, hn]
      omega
    rw [verifyProof, if_neg hindex]
    simp only [recompute, hclimb]
    simp
  · have hproof : proof sha256 leaves index = none := by
      rw [proof, if_pos (Nat.le_of_not_lt hlt)]
    rw [hproof]
    exact ⟨⟨nofun, fun h => absurd h hlt⟩, nofun⟩

/-! ## Termination -/

/-- Above `2^63`, a climb over a sibling never returns. -/
theorem climb_hangs {node : Digest} {m n : UInt64} {sib : Digest} {rest : List Digest} {fuel : Nat}
    (hn : 2 ^ 63 < n.toNat) : climb sha256 fuel node m n (sib :: rest) = none := by
  have h1 : n ≠ 1 := by
    rintro rfl
    exact absurd hn (by decide)
  rw [climb, if_neg h1, splitWords_none hn (Or.inr ⟨0, by decide, rfl⟩)]
  rfl

/-- The doubling loop ends up to size `2^63`, and not beyond. -/
theorem split_returns_iff {n : UInt64} (h2 : 2 ≤ n.toNat) :
    (∃ fuel k, splitWords n fuel 1 = some k ∧ 1 ≤ k ∧ k < n) ↔ n.toNat ≤ 2 ^ 63 := by
  constructor
  · rintro ⟨fuel, k, hk, -⟩
    exact ((splitWords_iff h2).mp ⟨fuel, hk⟩).1
  · intro hn
    obtain ⟨k, hk, -⟩ := splitWords_64 h2 hn
    have hsplit := splitWords_split h2 hk
    exact ⟨64, k, hk, UInt64.le_iff_toNat_le.mpr hsplit.pos, UInt64.lt_iff_toNat_lt.mpr hsplit.lt⟩

/-- A verification whose index is in range and whose path is not empty has to split. -/
theorem verifyProof_returns_iff (root : Digest) (leaf : Bytes) (index n : UInt64)
    (P : List Digest) :
    (∃ fuel b, verifyProof sha256 fuel root leaf index n P = some b) ↔
      n ≤ index ∨ P = [] ∨ n.toNat ≤ 2 ^ 63 := by
  by_cases hindex : n ≤ index
  · exact ⟨fun _ => Or.inl hindex, fun _ => ⟨0, false, by rw [verifyProof, if_pos hindex]⟩⟩
  have hlt : index < n := UInt64.not_le.mp hindex
  have hverify : ∀ fuel out, recompute sha256 fuel (leafHash sha256 leaf) index n P = some out →
      ∃ b, verifyProof sha256 fuel root leaf index n P = some b := by
    intro fuel out hout
    rw [verifyProof, if_neg hindex, hout]
    cases out <;> exact ⟨_, rfl⟩
  constructor
  · rintro ⟨fuel, b, hb⟩
    by_contra hno
    simp only [not_or, Nat.not_le] at hno
    obtain ⟨-, hne, hn⟩ := hno
    rw [verifyProof, if_neg hindex, recompute] at hb
    obtain ⟨sib, rest, hrev⟩ := List.exists_cons_of_ne_nil fun h => hne (List.reverse_eq_nil_iff.mp h)
    rw [hrev, climb_hangs hn] at hb
    cases hb
  · rintro (hle | rfl | hn)
    · exact absurd hle hindex
    · obtain ⟨b, hb⟩ := hverify 0 _ rfl
      exact ⟨0, b, hb⟩
    · have hreturns : ∃ out, recompute sha256 64 (leafHash sha256 leaf) index n P = some out :=
        climb_returns _ hlt hn
      obtain ⟨out, hout⟩ := hreturns
      obtain ⟨b, hb⟩ := hverify 64 out hout
      exact ⟨64, b, hb⟩

/-- **When `split_point` and `verify_proof` return.** The loop of `split_point` ends up to
size `2^63` and not beyond; a verification whose index is in range and whose path is not
empty needs it to. -/
theorem verify_returns_iff (sha256 : Bytes → Digest) :
    (∀ n : UInt64, 2 ≤ n.toNat →
      ((∃ fuel k, splitWords n fuel 1 = some k ∧ 1 ≤ k ∧ k < n) ↔ n.toNat ≤ 2 ^ 63)) ∧
    ∀ (root : Digest) (leaf : Bytes) (index n : UInt64) (P : List Digest),
      (∃ fuel b, verifyProof sha256 fuel root leaf index n P = some b) ↔
        n ≤ index ∨ P = [] ∨ n.toNat ≤ 2 ^ 63 := by
  constructor
  · intro n h2
    exact split_returns_iff h2
  · intro root leaf index n P
    exact verifyProof_returns_iff root leaf index n P

/-- One more than `2^63` leaves are claimed for a path of one sibling. -/
theorem verify_hangs :
    ¬∃ fuel b, verifyProof Sample.hashAB fuel Sample.digestAB [98] 0 9223372036854775809
      [Sample.digestA] = some b := by
  rw [verifyProof_returns_iff]
  decide

end Merkle

end ProtocolEnforcer
