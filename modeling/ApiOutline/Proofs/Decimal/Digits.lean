import ApiOutline.Decimal.Read
import ApiOutline.Text.Quoted
import Mathlib.Algebra.Group.Nat.Defs
import Mathlib.Data.List.Induction

/-!
# Digits read back

The digits of a number denote it in every base up to sixteen. Zeros in front
change nothing, so a number of sixteen bits is read back from four digits; and
there are none in front of a number that is not zero itself.
-/

namespace ApiOutline.Decimal

variable {base n : Nat}

theorem digitValue_digitChar : ∀ d < 16, digitValue (Nat.digitChar d) = d := by decide

theorem isHexDigit_digitChar : ∀ d < 16, isHexDigit (Nat.digitChar d) = true := by decide

theorem ofDigits_concat (base : Nat) (ds : List Char) (c : Char) :
    ofDigits base (ds ++ [c]) = ofDigits base ds * base + digitValue c := by
  simp [ofDigits]

/-- The digits of a number denote it. -/
theorem ofDigits_toDigits (hlow : 1 < base) (hhigh : base ≤ 16) (n : Nat) :
    ofDigits base (Nat.toDigits base n) = n := by
  induction n using Nat.strongRecOn with
  | ind n ih =>
      rw [Nat.toDigits_eq_if hlow]
      split
      · next hn =>
          simp only [ofDigits, List.foldl_cons, List.foldl_nil, Nat.zero_mul, Nat.zero_add]
          exact digitValue_digitChar n (by omega)
      · next hn =>
          have hmod : n % base < base := Nat.mod_lt n (by omega)
          rw [ofDigits_concat, ih (n / base) (Nat.div_lt_self (by omega) hlow),
            digitValue_digitChar _ (by omega)]
          exact Nat.div_add_mod' n base

theorem isHexDigit_of_mem_toDigits {c : Char} (h : c ∈ Nat.toDigits 16 n) :
    isHexDigit c = true := by
  induction n using Nat.strongRecOn with
  | ind n ih =>
      rw [Nat.toDigits_eq_if (by decide)] at h
      split at h
      · next hn =>
          rw [List.mem_singleton.1 h]
          exact isHexDigit_digitChar n hn
      · next hn =>
          rcases List.mem_append.1 h with hfront | hlast
          · exact ih (n / 16) (by omega) hfront
          · rw [List.mem_singleton.1 hlast]
            exact isHexDigit_digitChar _ (Nat.mod_lt n (by decide))

/-- A number that is not zero has no zeros in front. -/
theorem head?_toDigits_ne_zero (hlow : 1 < base) (hn : n ≠ 0) :
    (Nat.toDigits base n).head? ≠ some '0' := by
  induction n using Nat.strongRecOn with
  | ind n ih =>
      rw [Nat.toDigits_eq_if hlow]
      split
      · simpa using hn
      · next hbase =>
          have hpos := Nat.div_pos (Nat.le_of_not_lt hbase) (by omega)
          have hhead := ih (n / base) (Nat.div_lt_self (by omega) hlow) (by omega)
          cases hds : Nat.toDigits base (n / base) with
          | nil => exact absurd hds Nat.toDigits_ne_nil
          | cons d ds =>
              rw [hds] at hhead
              exact hhead

theorem ofDigits_zeros (k : Nat) (ds : List Char) :
    ofDigits base (List.replicate k '0' ++ ds) = ofDigits base ds := by
  induction k with
  | zero => rfl
  | succ k ih =>
      have hzero : digitValue '0' = 0 := by decide
      rw [List.replicate_succ, List.cons_append, ← ih]
      simp [ofDigits, hzero]

theorem digitValue_lt (c : Char) : digitValue c < 16 := by
  have hval (a b : Char) (h : a ≤ b) : a.toNat ≤ b.toNat := h
  unfold digitValue
  split
  · next hdigit =>
      have hrange : 48 ≤ c.val ∧ c.val ≤ 57 := by simpa [Char.isDigit] using hdigit
      have hle : c.toNat ≤ 57 := hrange.2
      have hzero : '0'.toNat = 48 := rfl
      omega
  · split
    · next hlower =>
        have hle := hval c 'f' hlower.2
        have hf : 'f'.toNat = 102 := rfl
        have ha : 'a'.toNat = 97 := rfl
        omega
    · split
      · next hupper =>
          have hle := hval c 'F' hupper.2
          have hf : 'F'.toNat = 70 := rfl
          have ha : 'A'.toNat = 65 := rfl
          omega
      · decide

/-- Digits of base sixteen write a number below the power that belongs to their count. -/
theorem ofDigits_lt (ds : List Char) : ofDigits 16 ds < 16 ^ ds.length := by
  induction ds using List.reverseRecOn with
  | nil => decide
  | append_singleton ds c ih =>
      have hc := digitValue_lt c
      rw [ofDigits_concat, List.length_append, List.length_singleton, Nat.pow_succ]
      omega

end ApiOutline.Decimal

namespace ApiOutline.Text

variable {n : Nat}

theorem length_hex (h : n < 0x10000) : (hex 4 n).length = 4 := by
  have hlength : (Nat.toDigits 16 n).length ≤ 4 :=
    (Nat.length_toDigits_le_iff (by decide) (by decide)).2 (by simpa using h)
  simp only [hex, List.length_append, List.length_replicate]
  omega

theorem isHexDigit_of_mem_hex {c : Char} (h : c ∈ hex 4 n) : Decimal.isHexDigit c = true := by
  rcases List.mem_append.1 h with hzero | hdigit
  · rw [List.eq_of_mem_replicate hzero]
    decide
  · exact Decimal.isHexDigit_of_mem_toDigits hdigit

theorem ofDigits_hex : Decimal.ofDigits 16 (hex 4 n) = n := by
  rw [hex, Decimal.ofDigits_zeros, Decimal.ofDigits_toDigits (by decide) (by decide)]

end ApiOutline.Text
