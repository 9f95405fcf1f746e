import ProtocolEnforcer.Ledger.Merkle

/-!
# The tree, one leaf at a time

The construction of a log that only grows: a stack of perfect subtrees, of which the newest
is on top. A new leaf is a subtree of one, and two of one size become one of twice the size;
at the end the peaks are folded from the top down. The sizes on the stack are the binary
digits of the number of leaves, so each fold splits where the recursion of `root` does.
-/

namespace ProtocolEnforcer

namespace Merkle

variable (sha256 : Bytes → Digest)

/-- The inner loop of `reference_root`, `top` being on the stack. -/
def pushPeak (top : Digest × Nat) : List (Digest × Nat) → List (Digest × Nat)
  | [] => [top]
  | peak :: stack =>
    if top.2 = peak.2 then pushPeak (nodeHash sha256 peak.1 top.1, top.2 * 2) stack
    else top :: peak :: stack

/-- Its last loop: the two topmost peaks become one, until there is one. -/
def bagPeaks (top : Digest) : List (Digest × Nat) → Digest
  | [] => top
  | peak :: stack => bagPeaks (nodeHash sha256 peak.1 top) stack

/-- The stack once these leaves are appended. -/
def peaks (leaves : List Bytes) : List (Digest × Nat) :=
  leaves.foldl (fun stack leaf => pushPeak sha256 (leafHash sha256 leaf, 1) stack) []

/-- `reference_root`. -/
def referenceRoot (leaves : List Bytes) : Digest :=
  match peaks sha256 leaves with
  | [] => emptyRoot sha256
  | top :: stack => bagPeaks sha256 top.1 stack

/-- The stack holds the perfect subtrees that the leaves fall into, each larger than those
above it. -/
inductive Stacked : List Bytes → List (Digest × Nat) → Prop where
  | nil : Stacked [] []
  | push {xs ys stack j} (below : Stacked xs stack) (perfect : ys.length = 2 ^ j)
      (smaller : ∀ peak ∈ stack.head?, 2 ^ j < peak.2) :
      Stacked (xs ++ ys) ((root sha256 ys, ys.length) :: stack)

variable {sha256} {xs ys : List Bytes} {stack : List (Digest × Nat)} {j : Nat}

/-- A perfect tree to the left of one that is no larger. -/
theorem root_append (hxs : xs.length = 2 ^ j) (hne : ys ≠ []) (hle : ys.length ≤ 2 ^ j) :
    root sha256 (xs ++ ys) = nodeHash sha256 (root sha256 xs) (root sha256 ys) := by
  have hpos : 0 < ys.length := List.length_pos_iff.mpr hne
  have hlen : (xs ++ ys).length = 2 ^ j + ys.length := by rw [List.length_append, hxs]
  have htwo : 2 ≤ (xs ++ ys).length := by
    have := Nat.two_pow_pos j
    omega
  have hsplit : splitPoint (xs ++ ys).length = xs.length := by
    have hspec : IsSplit (xs ++ ys).length (2 ^ j) := ⟨⟨j, rfl⟩, by omega, by omega⟩
    rw [(splitPoint_spec htwo).unique hspec, hxs]
  have hfront : front (xs ++ ys) = xs := by rw [front, hsplit, List.take_left]
  have hback : back (xs ++ ys) = ys := by rw [back, hsplit, List.drop_left]
  rw [root_split sha256 htwo, hfront, hback]

/-- The size of the peak below is the next power of two, or more. -/
theorem Stacked.twice (h : Stacked sha256 xs stack) (hsmaller : ∀ peak ∈ stack.head?, 2 ^ j < peak.2) :
    ∀ peak ∈ stack.head?, 2 ^ (j + 1) ≤ peak.2 := by
  intro peak hpeak
  cases h with
  | nil => cases hpeak
  | @push xs ys stack i below perfect smaller =>
    have hlt := hsmaller peak hpeak
    cases hpeak
    dsimp only at hlt ⊢
    rw [perfect] at hlt ⊢
    exact Nat.pow_le_pow_right (by decide) ((Nat.pow_lt_pow_iff_right (by decide)).mp hlt)

/-- **Pushing merges what it has to**: with a perfect subtree no larger than the top. -/
theorem Stacked.pushPeak (h : Stacked sha256 xs stack) (hys : ys.length = 2 ^ j)
    (hle : ∀ peak ∈ stack.head?, 2 ^ j ≤ peak.2) :
    Stacked sha256 (xs ++ ys) (Merkle.pushPeak sha256 (root sha256 ys, ys.length) stack) := by
  induction h generalizing ys j with
  | nil => exact .push .nil hys (by intro peak hpeak; cases hpeak)
  | @push xs zs stack i below perfect smaller ih =>
    unfold Merkle.pushPeak
    split
    · rename_i hsame
      have hij : 2 ^ j = 2 ^ i := by rw [← hys, ← perfect]; exact hsame
      have hne : ys ≠ [] := by
        rintro rfl
        exact absurd hys.symm (Nat.two_pow_pos j).ne'
      have hlen : (zs ++ ys).length = 2 ^ (i + 1) := by
        rw [List.length_append, perfect, hys, hij, Nat.pow_succ]
        omega
      have hroot : root sha256 (zs ++ ys) = nodeHash sha256 (root sha256 zs) (root sha256 ys) :=
        root_append perfect hne (by rw [hys, hij])
      have hmerged := ih hlen (below.twice smaller)
      rw [hroot, hlen] at hmerged
      rw [List.append_assoc]
      show Stacked sha256 (xs ++ (zs ++ ys)) (Merkle.pushPeak sha256
        (nodeHash sha256 (root sha256 zs) (root sha256 ys), ys.length * 2) stack)
      rw [hys, hij, ← Nat.pow_succ]
      exact hmerged
    · rename_i hdiffers
      refine .push (.push below perfect smaller) hys fun peak hpeak => ?_
      have hle := hle peak hpeak
      cases hpeak
      refine Nat.lt_of_le_of_ne hle fun heq => hdiffers ?_
      rw [hys]
      exact heq

/-- **The stack invariant**, after any number of leaves. -/
theorem stacked_peaks (leaves : List Bytes) : Stacked sha256 leaves (peaks sha256 leaves) := by
  induction leaves using List.reverseRecOn with
  | nil => exact .nil
  | append_singleton leaves leaf ih =>
    have hpos : ∀ peak ∈ (peaks sha256 leaves).head?, 2 ^ 0 ≤ peak.2 := by
      intro peak hpeak
      generalize peaks sha256 leaves = stack at ih hpeak
      cases ih with
      | nil => cases hpeak
      | push below perfect smaller =>
        cases hpeak
        rw [perfect]
        exact Nat.two_pow_pos _
    have hpush : Stacked sha256 (leaves ++ [leaf])
        (Merkle.pushPeak sha256 (root sha256 [leaf], 1) (peaks sha256 leaves)) :=
      ih.pushPeak (j := 0) rfl hpos
    rw [peaks, List.foldl_concat]
    rwa [root] at hpush

/-- **Folding the peaks** puts a smaller tree behind them. -/
theorem Stacked.bagPeaks (h : Stacked sha256 xs stack) (hne : ys ≠ [])
    (hle : ∀ peak ∈ stack.head?, ys.length ≤ peak.2) :
    Merkle.bagPeaks sha256 (root sha256 ys) stack = root sha256 (xs ++ ys) := by
  induction h generalizing ys with
  | nil => rfl
  | @push xs zs stack i below perfect smaller ih =>
    have hys : ys.length ≤ 2 ^ i := perfect ▸ hle _ rfl
    have hroot : root sha256 (zs ++ ys) = nodeHash sha256 (root sha256 zs) (root sha256 ys) :=
      root_append perfect hne hys
    rw [Merkle.bagPeaks, ← hroot, List.append_assoc]
    refine ih (List.append_ne_nil_of_right_ne_nil zs hne) fun peak hpeak => ?_
    have htwice := below.twice smaller peak hpeak
    rw [List.length_append, perfect]
    rw [Nat.pow_succ] at htwice
    omega

/-- **The tree of `root` is the one built leaf by leaf.** -/
theorem root_eq_referenceRoot (leaves : List Bytes) :
    root sha256 leaves = referenceRoot sha256 leaves := by
  have h : Stacked sha256 leaves (peaks sha256 leaves) := stacked_peaks leaves
  unfold referenceRoot
  generalize peaks sha256 leaves = stack at h ⊢
  cases h with
  | nil => rw [root]
  | @push xs ys stack j below perfect smaller =>
    have hne : ys ≠ [] := by
      rintro rfl
      exact absurd perfect.symm (Nat.two_pow_pos j).ne'
    refine (below.bagPeaks hne fun peak hpeak => ?_).symm
    rw [perfect]
    exact Nat.le_of_lt (smaller peak hpeak)

example : referenceRoot Sample.hashAB [[97], [98]] = Sample.digestAB := by decide

end Merkle

end ProtocolEnforcer
