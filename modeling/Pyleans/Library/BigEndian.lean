import Mathlib.Data.List.Induction
import Mathlib.Tactic.Ring

namespace Pyleans.Library.BigEndian

def pack : ℕ → ℕ → List UInt8
  | 0, _ => []
  | width + 1, value => pack width (value / 256) ++ [UInt8.ofNat value]

def unpack (bytes : List UInt8) : ℕ := bytes.foldl (fun value b ↦ 256 * value + b.toNat) 0

@[simp] theorem length_pack (width value : ℕ) : (pack width value).length = width := by
  induction width generalizing value with
  | zero => rfl
  | succ width ih => rw [pack, List.length_append, ih, List.length_singleton]

@[simp] theorem unpack_snoc (bytes : List UInt8) (b : UInt8) :
    unpack (bytes ++ [b]) = 256 * unpack bytes + b.toNat := by
  rw [unpack, List.foldl_append]
  rfl

theorem unpack_pack (width value : ℕ) (h : value < 256 ^ width) :
    unpack (pack width value) = value := by
  induction width generalizing value with
  | zero =>
    rw [pow_zero] at h
    have hzero : value = 0 := by omega
    rw [hzero]
    rfl
  | succ width ih =>
    have hrest : value / 256 < 256 ^ width := by
      rw [Nat.div_lt_iff_lt_mul (by omega), ← pow_succ]
      exact h
    have hbyte : (UInt8.ofNat value).toNat = value % 256 := rfl
    rw [pack, unpack_snoc, ih _ hrest, hbyte]
    exact Nat.div_add_mod value 256

theorem pack_unpack (bytes : List UInt8) : pack bytes.length (unpack bytes) = bytes := by
  induction bytes using List.reverseRecOn with
  | nil => rfl
  | append_singleton bytes b ih =>
    have hb : b.toNat < 256 := b.toNat_lt
    have hrest : (256 * unpack bytes + b.toNat) / 256 = unpack bytes := by omega
    have hbyte : UInt8.ofNat (256 * unpack bytes + b.toNat) = b := by
      apply UInt8.toNat_inj.mp
      have hmod : (UInt8.ofNat (256 * unpack bytes + b.toNat)).toNat =
        (256 * unpack bytes + b.toNat) % 256 := rfl
      omega
    rw [List.length_append, List.length_singleton, pack, unpack_snoc, hrest, ih, hbyte]

theorem unpack_lt (bytes : List UInt8) : unpack bytes < 256 ^ bytes.length := by
  induction bytes using List.reverseRecOn with
  | nil => exact Nat.one_pos
  | append_singleton bytes b ih =>
    have hb : b.toNat < 256 := b.toNat_lt
    rw [unpack_snoc, List.length_append, List.length_singleton, pow_succ]
    omega

end Pyleans.Library.BigEndian
