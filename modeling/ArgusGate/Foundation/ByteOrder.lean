import Mathlib.Algebra.Order.Ring.Nat
import Mathlib.Tactic.Ring

/-!
# Byte order

Fixed-width encodings of natural numbers, least significant byte first (`le`) and most significant
byte first (`be`), and the byte swap between them. A host that stores its words least significant
byte first puts a word on the wire in `be` order by storing the swapped word (`le_swap`), and reads
one by swapping what it loads (`swap_ofLE`).
-/

namespace ByteOrder

/-- The `w` low bytes of `n`, least significant first. -/
def le : ℕ → ℕ → List UInt8
  | 0, _ => []
  | w + 1, n => UInt8.ofNat n :: le w (n / 256)

def ofLE : List UInt8 → ℕ
  | [] => 0
  | b :: bs => b.toNat + 256 * ofLE bs

/-- The `w` low bytes of `n`, most significant first. -/
def be (w n : ℕ) : List UInt8 := (le w n).reverse

def ofBE (bs : List UInt8) : ℕ := ofLE bs.reverse

/-- The number with the `w` low bytes of `n` in the opposite order. -/
def swap (w n : ℕ) : ℕ := ofBE (le w n)

@[simp] theorem length_le (w n : ℕ) : (le w n).length = w := by
  induction w generalizing n with
  | zero => rfl
  | succ w ih => rw [le, List.length_cons, ih]

@[simp] theorem length_be (w n : ℕ) : (be w n).length = w := by
  rw [be, List.length_reverse, length_le]

theorem ofLE_lt (bs : List UInt8) : ofLE bs < 256 ^ bs.length := by
  induction bs with
  | nil => exact Nat.one_pos
  | cons b bs ih =>
    have hb : b.toNat < 256 := b.toNat_lt
    rw [ofLE, List.length_cons, pow_succ]
    omega

theorem ofLE_le (w n : ℕ) : ofLE (le w n) = n % 256 ^ w := by
  induction w generalizing n with
  | zero => rw [pow_zero, Nat.mod_one]; rfl
  | succ w ih =>
    rw [le, ofLE, ih, pow_succ', Nat.mod_mul]
    rfl

theorem le_ofLE (bs : List UInt8) : le bs.length (ofLE bs) = bs := by
  induction bs with
  | nil => rfl
  | cons b bs ih =>
    have hb : b.toNat < 256 := b.toNat_lt
    have hhead : UInt8.ofNat (b.toNat + 256 * ofLE bs) = b := by
      apply UInt8.toNat_inj.mp
      rw [UInt8.toNat_ofNat']
      omega
    have htail : (b.toNat + 256 * ofLE bs) / 256 = ofLE bs := by omega
    rw [ofLE, List.length_cons, le, hhead, htail, ih]

theorem ofBE_be (w n : ℕ) : ofBE (be w n) = n % 256 ^ w := by
  rw [ofBE, be, List.reverse_reverse, ofLE_le]

theorem swap_lt (w n : ℕ) : swap w n < 256 ^ w := by
  have h := ofLE_lt (le w n).reverse
  rwa [List.length_reverse, length_le] at h

theorem le_swap (w n : ℕ) : le w (swap w n) = be w n := by
  have h := le_ofLE (le w n).reverse
  rwa [List.length_reverse, length_le] at h

theorem swap_ofLE (bs : List UInt8) : swap bs.length (ofLE bs) = ofBE bs := by
  rw [swap, le_ofLE]

/-- Two encodings of one width that stand for the same number are equal. -/
theorem ofBE_inj {bs bs' : List UInt8} (h : bs.length = bs'.length) :
    ofBE bs = ofBE bs' ↔ bs = bs' := by
  refine ⟨fun heq => List.reverse_inj.mp ?_, congrArg ofBE⟩
  calc bs.reverse = le bs.reverse.length (ofBE bs) := (le_ofLE bs.reverse).symm
    _ = le bs'.reverse.length (ofBE bs') := by rw [List.length_reverse, List.length_reverse, h, heq]
    _ = bs'.reverse := le_ofLE bs'.reverse

theorem ofBE_lt (bs : List UInt8) : ofBE bs < 256 ^ bs.length := by
  have h := ofLE_lt bs.reverse
  rwa [List.length_reverse] at h

end ByteOrder
