import Mathlib.Tactic.Common
import Mathlib.Algebra.Group.Nat.Defs
import Mathlib.Data.Nat.Notation

/-! # Address blocks over `BitVec w`

A block is a base and a prefix length whose host bits are clear. It holds the words that agree with
the base under the mask. Two blocks that share a word are nested, and the longer prefix is the inner
one; that is what makes "the longest block containing this word" a meaningful phrase. -/

/-- The mask of a prefix length: `p` ones, then zeros. -/
def Cidr.netmask (w p : ℕ) : BitVec w := BitVec.allOnes w <<< (w - p)

/-- A block of `w`-bit words: base, prefix length, and no host bit set in the base. -/
structure Cidr (w : ℕ) where
  /-- The lowest word of the block. -/
  base : BitVec w
  /-- How many leading bits the words of the block share. -/
  prefixlen : ℕ
  /-- A prefix is no longer than a word. -/
  prefixlen_le : prefixlen ≤ w
  /-- The base has no host bits. -/
  base_and_mask : base &&& Cidr.netmask w prefixlen = base
  deriving DecidableEq

namespace Cidr

variable {w : ℕ}

/-- Build a block, refusing a prefix that is too long and a base with host bits. -/
def mk? (base : BitVec w) (prefixlen : ℕ) : Option (Cidr w) :=
  if h : prefixlen ≤ w ∧ base &&& netmask w prefixlen = base then
    some ⟨base, prefixlen, h.1, h.2⟩
  else none

/-- The block's mask. -/
def mask (c : Cidr w) : BitVec w := netmask w c.prefixlen

/-- The highest word of the block. -/
def broadcast (c : Cidr w) : BitVec w := c.base ||| ~~~ c.mask

/-- Whether a word is in the block. -/
def contains (c : Cidr w) (x : BitVec w) : Bool := x &&& c.mask == c.base

theorem contains_iff {c : Cidr w} {x : BitVec w} : c.contains x = true ↔ x &&& c.mask = c.base := by
  simp [contains]

@[simp] theorem contains_base (c : Cidr w) : c.contains c.base = true :=
  contains_iff.mpr c.base_and_mask

/-! ## Masks -/

theorem getLsbD_netmask (p i : ℕ) :
    (netmask w p).getLsbD i = (decide (i < w) && decide (w - p ≤ i)) := by
  simp only [netmask, BitVec.getLsbD_shiftLeft, BitVec.getLsbD_allOnes]
  by_cases hi : i < w
  · by_cases hp : w - p ≤ i
    · simp [hi, hp, show i - (w - p) < w by omega]
    · simp [hi, hp]
  · simp [hi]

/-- A shorter prefix keeps fewer bits. -/
theorem netmask_and_netmask {p q : ℕ} (h : p ≤ q) :
    netmask w q &&& netmask w p = netmask w p := by
  apply BitVec.eq_of_getLsbD_eq
  intro i _
  rw [BitVec.getLsbD_and, getLsbD_netmask, getLsbD_netmask]
  by_cases hi : i < w
  · by_cases hp : w - p ≤ i
    · simp [hi, hp, show w - q ≤ i by omega]
    · simp [hp]
  · simp [hi]

theorem mask_and_mask {c d : Cidr w} (h : c.prefixlen ≤ d.prefixlen) :
    d.mask &&& c.mask = c.mask := netmask_and_netmask h

/-! ## Nesting -/

/-- **Blocks that meet are nested.** If both blocks hold `x` and `c` has the shorter prefix, every
word of `d` is in `c`. -/
theorem contains_of_prefixlen_le {c d : Cidr w} {x y : BitVec w} (hc : c.contains x = true)
    (hd : d.contains x = true) (hle : c.prefixlen ≤ d.prefixlen) (hy : d.contains y = true) :
    c.contains y = true := by
  rw [contains_iff] at *
  calc y &&& c.mask = (y &&& d.mask) &&& c.mask := by
        rw [BitVec.and_assoc, mask_and_mask hle]
    _ = (x &&& d.mask) &&& c.mask := by rw [hy, hd]
    _ = x &&& c.mask := by rw [BitVec.and_assoc, mask_and_mask hle]
    _ = c.base := hc

/-- The highest word is in the block. -/
@[simp] theorem contains_broadcast (c : Cidr w) : c.contains c.broadcast = true := by
  rw [contains_iff]
  apply BitVec.eq_of_getLsbD_eq
  intro i hi
  have hbase := congrArg (·.getLsbD i) c.base_and_mask
  simp only [BitVec.getLsbD_and] at hbase
  simp only [broadcast, mask, BitVec.getLsbD_and, BitVec.getLsbD_or, BitVec.getLsbD_not, hi]
  cases hb : c.base.getLsbD i <;> cases hm : (netmask w c.prefixlen).getLsbD i <;> simp_all

/-- A block inside another has the longer prefix: the highest host bit of a block is clear in its
base and set in its highest word, so no block with a longer prefix holds both. -/
theorem prefixlen_le_of_subset {c d : Cidr w} (h : ∀ y, c.contains y = true → d.contains y = true) :
    d.prefixlen ≤ c.prefixlen := by
  by_contra hlt
  have hlow := contains_iff.mp (h _ c.contains_base)
  have hhigh := contains_iff.mp (h _ c.contains_broadcast)
  -- the highest host bit of `c`, which `d` would mask
  have hbits := congrArg (·.getLsbD (w - c.prefixlen - 1)) (hlow.trans hhigh.symm)
  have hbase := congrArg (·.getLsbD (w - c.prefixlen - 1)) c.base_and_mask
  have hd := d.prefixlen_le
  have hi : w - c.prefixlen - 1 < w := by omega
  have hout : ¬ w - c.prefixlen ≤ w - c.prefixlen - 1 := by omega
  have hin : w - d.prefixlen ≤ w - c.prefixlen - 1 := by omega
  simp only [broadcast, mask, BitVec.getLsbD_and, BitVec.getLsbD_or, BitVec.getLsbD_not,
    getLsbD_netmask, hi, hout, hin] at hbits hbase
  simp_all

/-! ## Numeric bounds -/

theorem and_le_left (x y : BitVec w) : x &&& y ≤ x := by
  rw [BitVec.le_def, BitVec.toNat_and]
  exact Nat.and_le_left

/-- A word with a subset of another's bits is no larger. -/
theorem le_of_and_eq {x y : BitVec w} (h : y &&& x = x) : x ≤ y := by
  rw [← h]
  exact and_le_left y x

/-- The base is the lowest word of the block. -/
theorem base_le_of_contains {c : Cidr w} {x : BitVec w} (h : c.contains x = true) : c.base ≤ x := by
  rw [← contains_iff.mp h]
  exact and_le_left x c.mask

/-- The inner one of two nested blocks ends no later than the outer one. -/
theorem broadcast_le {c d : Cidr w} (hc : c.contains d.base = true)
    (hle : c.prefixlen ≤ d.prefixlen) : d.broadcast ≤ c.broadcast := by
  apply le_of_and_eq
  rw [contains_iff] at hc
  have hmask := mask_and_mask hle
  apply BitVec.eq_of_getLsbD_eq
  intro i hi
  have hbase := congrArg (·.getLsbD i) hc
  have hbits := congrArg (·.getLsbD i) hmask
  simp only [BitVec.getLsbD_and] at hbase hbits
  simp only [broadcast, BitVec.getLsbD_and, BitVec.getLsbD_or, BitVec.getLsbD_not, ← hbase, hi]
  cases hd : d.base.getLsbD i <;> cases hm : d.mask.getLsbD i <;> cases hn : c.mask.getLsbD i <;>
    simp_all

theorem toNat_and_netmask (x : BitVec w) (p : ℕ) :
    (x &&& netmask w p).toNat = x.toNat / 2 ^ (w - p) * 2 ^ (w - p) := by
  have hshift : x &&& netmask w p = (x >>> (w - p)) <<< (w - p) := by
    apply BitVec.eq_of_getLsbD_eq
    intro i hi
    rw [BitVec.getLsbD_and, getLsbD_netmask, BitVec.getLsbD_shiftLeft]
    by_cases hp : w - p ≤ i
    · simp [hi, hp, show w - p + (i - (w - p)) = i by omega]
    · simp [hi, hp]
  have hle : x.toNat / 2 ^ (w - p) * 2 ^ (w - p) ≤ x.toNat := Nat.div_mul_le_self _ _
  rw [hshift, BitVec.toNat_shiftLeft, BitVec.toNat_ushiftRight, Nat.shiftRight_eq_div_pow,
    Nat.shiftLeft_eq, Nat.mod_eq_of_lt (Nat.lt_of_le_of_lt hle x.isLt)]

/-- Masking keeps the order. -/
theorem and_netmask_le {x y : BitVec w} (h : x ≤ y) (p : ℕ) :
    x &&& netmask w p ≤ y &&& netmask w p := by
  rw [BitVec.le_def, toNat_and_netmask, toNat_and_netmask]
  exact Nat.mul_le_mul_right _ (Nat.div_le_div_right (BitVec.le_def.mp h))

/-- The highest word of the block. -/
theorem le_broadcast_of_contains {c : Cidr w} {x : BitVec w} (h : c.contains x = true) :
    x ≤ c.broadcast := by
  apply le_of_and_eq
  rw [contains_iff] at h
  apply BitVec.eq_of_getLsbD_eq
  intro i hi
  have hbase := congrArg (·.getLsbD i) h
  simp only [BitVec.getLsbD_and] at hbase
  simp only [broadcast, BitVec.getLsbD_and, BitVec.getLsbD_or, BitVec.getLsbD_not, hi, ← hbase]
  cases x.getLsbD i <;> cases c.mask.getLsbD i <;> rfl

/-- **A block is an interval**: it holds the words from its base to its highest word. -/
theorem contains_iff_between {c : Cidr w} {x : BitVec w} :
    c.contains x = true ↔ c.base ≤ x ∧ x ≤ c.broadcast := by
  constructor
  · intro h
    exact ⟨base_le_of_contains h, le_broadcast_of_contains h⟩
  · rintro ⟨hlow, hhigh⟩
    have hlow := and_netmask_le hlow c.prefixlen
    have hhigh := and_netmask_le hhigh c.prefixlen
    rw [c.base_and_mask] at hlow
    have hlast : c.broadcast &&& netmask w c.prefixlen = c.base :=
      contains_iff.mp c.contains_broadcast
    rw [hlast] at hhigh
    rw [contains_iff]
    exact BitVec.le_antisymm hhigh hlow

end Cidr
