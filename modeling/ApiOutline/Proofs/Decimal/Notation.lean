import ApiOutline.Proofs.Decimal.Digits
import ApiOutline.Proofs.Json.Grammar
import ApiOutline.Proofs.Value.Plain

/-!
# Numbers in the grammar of JSON

A double that is a number is written as one in the grammar of JSON, whichever
notation its size asks for. The grammar has no zeros in front, and the digits
that are written have none either, since they are those of a positive number:
none of the grids of the search offers zero. That holds of the last grid as
well, which is not tested. It lies sixteen places below the first digit, and so
the number is at least as large as its step (`pow10_leadingPlace_le`).
-/

namespace ApiOutline.Decimal

variable {b : Binary} {num den : Nat}

/-! ## The shortest digits are not zero -/

theorem pow2_pos (n : Nat) : 0 < pow2 n := Nat.two_pow_pos n

theorem pow2_le_pow2 {m n : Nat} (h : m ≤ n) : pow2 m ≤ pow2 n :=
  Nat.pow_le_pow_right (by decide) h

theorem pow10_pos (n : Nat) : 0 < pow10 n := Nat.pow_pos (by decide)

theorem pow10_zero : pow10 0 = 1 := rfl

theorem pow10_succ (n : Nat) : pow10 (n + 1) = 10 * pow10 n := Nat.pow_succ'

theorem pow10_le_pow10 {m n : Nat} (h : m ≤ n) : pow10 m ≤ pow10 n :=
  Nat.pow_le_pow_right (by decide) h

/-- What rounds to a positive number is not zero. -/
theorem digits_ne_zero_of_holds {s : Scientific} (hm : b.mantissa ≠ 0) (h : b.holds s = true) :
    s.digits ≠ 0 := by
  intro hzero
  have hlower : 0 < b.lowerQuarters := by
    unfold Binary.lowerQuarters
    split <;> omega
  have hless : compareScaled s.digits s.exponent b.lowerQuarters (b.exponent - 2) = .lt := by
    rw [compareScaled, hzero, Nat.zero_mul, Nat.zero_mul, Nat.compare_eq_lt]
    exact Nat.mul_pos (Nat.mul_pos hlower (pow2_pos _)) (pow10_pos _)
  rw [Binary.holds] at h
  simp only [hless, Bool.false_and, Bool.false_eq_true] at h

/-- A number is made tenfold until it reaches one. -/
theorem exists_raise {fuel k : Nat} (h : den ≤ num * pow10 fuel) :
    ∃ j, Binary.leadingPlace.raise fuel num den k = k + j ∧ den ≤ num * pow10 j := by
  induction fuel generalizing num k with
  | zero => exact ⟨0, rfl, h⟩
  | succ fuel ih =>
      rw [Binary.leadingPlace.raise]
      split
      · next hle => exact ⟨0, rfl, by rwa [pow10_zero, Nat.mul_one]⟩
      · have hstep : num * 10 * pow10 fuel = num * pow10 (fuel + 1) := by
          rw [pow10_succ, Nat.mul_assoc]
        obtain ⟨j, hj, hle⟩ := ih (k := k + 1) (hstep ▸ h)
        refine ⟨j + 1, by rw [hj]; omega, ?_⟩
        rwa [pow10_succ, ← Nat.mul_assoc]

/-- A number has no fewer digits than its leading power of ten says. -/
theorem pow10_length_toDigits_le {n : Nat} (hn : 0 < n) :
    pow10 ((Nat.toDigits 10 n).length - 1) ≤ n := by
  cases hk : (Nat.toDigits 10 n).length - 1 with
  | zero => exact hn
  | succ k =>
      refine Nat.le_of_not_lt fun hlt => ?_
      have hlength := (Nat.length_toDigits_le_iff (by decide) (Nat.succ_pos k)).2 hlt
      omega

/-- The power of ten of the first digit is at most the number. -/
theorem pow10_leadingPlace_le (hm : b.mantissa ≠ 0) (he : -1074 ≤ b.exponent) :
    pow2 (-b.exponent).toNat * pow10 b.leadingPlace.toNat ≤
      b.mantissa * pow2 b.exponent.toNat * pow10 (-b.leadingPlace).toNat := by
  have hden : 0 < pow2 (-b.exponent).toNat := pow2_pos _
  have hnum : 0 < b.mantissa * pow2 b.exponent.toNat :=
    Nat.mul_pos (Nat.pos_of_ne_zero hm) (pow2_pos _)
  rw [Binary.leadingPlace]
  split
  · next hle =>
      have hquotient := pow10_length_toDigits_le (Nat.div_pos hle hden)
      rw [Nat.le_div_iff_mul_le hden, Nat.mul_comm] at hquotient
      have hplaces := List.length_pos_iff.2 (Nat.toDigits_ne_nil (b := 10)
        (n := b.mantissa * pow2 b.exponent.toNat / pow2 (-b.exponent).toNat))
      generalize (Nat.toDigits 10 _).length = places at hquotient hplaces ⊢
      have hpositive : ((places : Int) - 1).toNat = places - 1 := by omega
      have hnone : (-((places : Int) - 1)).toNat = 0 := by omega
      rw [hpositive, hnone, pow10_zero, Nat.mul_one]
      exact hquotient
  · -- The steps are bounded, but no double is as small as the bound allows.
    have hsmall : pow2 1074 ≤ pow10 400 := by decide +kernel
    have hreach : pow2 (-b.exponent).toNat ≤ b.mantissa * pow2 b.exponent.toNat * pow10 400 :=
      calc
        pow2 (-b.exponent).toNat
        _ ≤ pow2 1074 := pow2_le_pow2 (by omega)
        _ ≤ pow10 400 := hsmall
        _ ≤ b.mantissa * pow2 b.exponent.toNat * pow10 400 := Nat.le_mul_of_pos_left _ hnum
    obtain ⟨j, hj, hle⟩ := exists_raise (k := 0) hreach
    have hnone : (-(j : Int)).toNat = 0 := by omega
    rw [hj, Nat.zero_add, hnone, Int.neg_neg, Int.toNat_natCast, pow10_zero, Nat.mul_one]
    exact hle

/-- On the last grid, the lower of the points around a number is not zero. -/
theorem digits_around_ne_zero (hm : b.mantissa ≠ 0) (he : -1074 ≤ b.exponent) :
    (b.around (b.leadingPlace - 16)).1.digits ≠ 0 := by
  have hden : 0 < pow2 (-b.exponent).toNat * pow10 (b.leadingPlace - 16).toNat :=
    Nat.mul_pos (pow2_pos _) (pow10_pos _)
  refine Nat.ne_of_gt (Nat.div_pos ?_ hden)
  calc
    pow2 (-b.exponent).toNat * pow10 (b.leadingPlace - 16).toNat
    _ ≤ pow2 (-b.exponent).toNat * pow10 b.leadingPlace.toNat :=
      Nat.mul_le_mul_left _ (pow10_le_pow10 (by omega))
    _ ≤ b.mantissa * pow2 b.exponent.toNat * pow10 (-b.leadingPlace).toNat :=
      pow10_leadingPlace_le hm he
    _ ≤ b.mantissa * pow2 b.exponent.toNat * pow10 (-(b.leadingPlace - 16)).toNat :=
      Nat.mul_le_mul_left _ (pow10_le_pow10 (by omega))

theorem digits_shortest_ne_zero (hm : b.mantissa ≠ 0) (he : -1074 ≤ b.exponent) :
    b.shortest.digits ≠ 0 := by
  unfold Binary.shortest
  simp only
  split
  · next s hfound =>
      obtain ⟨n, -, hgrid⟩ := List.exists_of_findSome?_eq_some hfound
      exact digits_ne_zero_of_holds hm (holds_of_onGrid hgrid)
  · exact digits_around_ne_zero hm he

/-- The magnitude of a double that is not zero. -/
theorem ofBits_spec {bits : Nat} (hbits : bits < pow2 63) (hne : bits ≠ 0) :
    (Binary.ofBits bits).mantissa ≠ 0 ∧ -1074 ≤ (Binary.ofBits bits).exponent := by
  have h52 : pow2 52 = 4503599627370496 := rfl
  have h11 : pow2 11 = 2048 := rfl
  have h63 : pow2 63 = 9223372036854775808 := rfl
  unfold Binary.ofBits
  simp only [h52, h11, h63] at hbits ⊢
  split
  · next hsmall =>
      refine ⟨?_, Int.le_refl _⟩
      show bits % 4503599627370496 ≠ 0
      omega
  · next hlarge =>
      refine ⟨?_, ?_⟩
      · show 4503599627370496 + bits % 4503599627370496 ≠ 0
        omega
      · show -1074 ≤ ((bits / 4503599627370496 % 2048 : Nat) : Int) - 1075
        omega

/-! ## The digits that are written -/

/-- Whether some characters are digits and no zero comes first. -/
inductive StartsPositive : List Char → Prop
  | intro {d : Char} {ds : List Char} (first : d.isDigit = true) (nonzero : d ≠ '0')
      (more : ∀ c ∈ ds, c.isDigit = true) : StartsPositive (d :: ds)

theorem startsPositive_toDigits {n : Nat} (hn : n ≠ 0) : StartsPositive (Nat.toDigits 10 n) := by
  have hhead : (Nat.toDigits 10 n).head? ≠ some '0' := head?_toDigits_ne_zero (by decide) hn
  have hdigits : ∀ c ∈ Nat.toDigits 10 n, c.isDigit = true := fun c hc =>
    Nat.isDigit_of_mem_toDigits (by decide) (by decide) hc
  cases hds : Nat.toDigits 10 n with
  | nil => exact absurd hds Nat.toDigits_ne_nil
  | cons d ds =>
      rw [hds] at hhead hdigits
      obtain ⟨hd, hmore⟩ := List.forall_mem_cons.1 hdigits
      refine .intro hd ?_ hmore
      rintro rfl
      exact hhead rfl

/-- Zeros behind the last digit go, and the first digit stays. -/
theorem startsPositive_significant {ds : List Char} (h : StartsPositive ds) :
    StartsPositive (significant ds) := by
  cases h with
  | @intro d ds first nonzero more =>
      have hstop : ¬ (d == '0') = true := by simpa using nonzero
      have hkept : ((d :: ds).reverse.dropWhile (· == '0')).reverse =
          d :: (ds.reverse.dropWhile (· == '0')).reverse := by
        rw [List.reverse_cons, List.dropWhile_append]
        split
        · next hall =>
            rw [List.isEmpty_iff.1 hall, List.dropWhile_cons_of_neg (p := (· == '0')) hstop]
            rfl
        · rw [List.reverse_append, List.reverse_singleton, List.singleton_append]
      rw [significant, hkept]
      refine .intro first nonzero fun c hc => ?_
      exact more c (List.mem_reverse.1 ((List.dropWhile_sublist _).subset (List.mem_reverse.1 hc)))

/-! ## The text of a number -/

open Json.Grammar

theorem toList_zeros (n : Nat) : (zeros n).toList = List.replicate n '0' := String.toList_ofList

theorem isDigit_of_mem_replicate {n : Nat} {c : Char} (h : c ∈ List.replicate n '0') :
    c.isDigit = true := by
  rw [List.eq_of_mem_replicate h]
  decide

theorem isDigit_of_mem_append {cs ds : List Char} (hcs : ∀ c ∈ cs, c.isDigit = true)
    (hds : ∀ c ∈ ds, c.isDigit = true) : ∀ c ∈ cs ++ ds, c.isDigit = true := fun c hc =>
  (List.mem_append.1 hc).elim (hcs c) (hds c)

theorem isDigit_of_mem_zeros_append {ds : List Char} (n : Nat) (h : ∀ c ∈ ds, c.isDigit = true) :
    ∀ c ∈ List.replicate n '0' ++ ds, c.isDigit = true :=
  isDigit_of_mem_append (fun _ => isDigit_of_mem_replicate) h

/-- Behind the point stands a zero where no digits are left. -/
theorem fraction_append {ds : List Char} (h : ∀ c ∈ ds, c.isDigit = true) (rest : List Char) :
    Fraction ('.' :: ((if ds.isEmpty then "0" else String.ofList ds).toList ++ rest)) rest := by
  refine .point ?_
  split
  · exact digits_append (List.cons_ne_nil '0' []) (List.forall_mem_singleton.2 (by decide)) rest
  · next hne =>
      rw [String.toList_ofList]
      exact digits_append (by simpa using hne) h rest

/-- Before an exponent, the point is left out with them. -/
theorem fraction_append_of_exponent {ds : List Char} (h : ∀ c ∈ ds, c.isDigit = true)
    (rest : List Char) :
    Fraction ((if ds.isEmpty then "" else "." ++ String.ofList ds).toList ++ rest) rest := by
  split
  · exact .absent
  · next hne =>
      simp only [String.toList_append, String.toList_ofList, List.append_assoc]
      exact .point (digits_append (by simpa using hne) h rest)

theorem exponent_append (place : Int) (width : Nat) (rest : List Char) :
    Exponent ('e' :: ((if place < 0 then "-" else "+").toList ++
      (List.replicate width '0' ++ (Nat.toDigits 10 place.natAbs ++ rest)))) rest := by
  have hdigits := digits_append (List.append_ne_nil_of_right_ne_nil (List.replicate width '0')
    (Nat.toDigits_ne_nil (b := 10) (n := place.natAbs)))
    (isDigit_of_mem_zeros_append width fun _ hc =>
      Nat.isDigit_of_mem_toDigits (by decide) (by decide) hc) rest
  rw [List.append_assoc] at hdigits
  split
  · exact .signed (.inl rfl) (.inr rfl) hdigits
  · exact .signed (.inl rfl) (.inl rfl) hdigits

/-- Digits without a zero in front are written as a number, wherever the point stands. -/
theorem unsigned_place {ds : List Char} (h : StartsPositive ds) (place : Int) (rest : List Char) :
    Unsigned ((jsonNotation.place ds place).toList ++ rest) rest := by
  obtain ⟨hd, hne, hmore⟩ := h
  next d ds =>
  have hall : ∀ c ∈ d :: ds, c.isDigit = true := List.forall_mem_cons.2 ⟨hd, hmore⟩
  unfold Notation.place
  split
  · split
    · -- Below one, zeros stand between the point and the digits.
      have hfraction := digits_append (List.append_ne_nil_of_right_ne_nil
        (List.replicate (-place - 1).toNat '0') (List.cons_ne_nil d ds))
        (isDigit_of_mem_zeros_append _ hall) rest
      simp only [String.toList_append, String.toList_ofList, toList_zeros,
        List.append_assoc] at hfraction ⊢
      exact .intro .zero (.point hfraction) .absent
    · -- Zeros fill up what is left of the places before the point.
      have hwhole : ∀ c ∈ ds.take place.toNat ++
          List.replicate (place.toNat + 1 - (d :: ds).length) '0', c.isDigit = true :=
        isDigit_of_mem_append (fun c hc => hmore c (List.mem_of_mem_take hc))
          fun _ => isDigit_of_mem_replicate
      have hfraction : ∀ c ∈ ds.drop place.toNat, c.isDigit = true := fun c hc =>
        hmore c (List.mem_of_mem_drop hc)
      simp only [String.toList_append, String.toList_ofList, toList_zeros, List.append_assoc,
        List.take_succ_cons, List.drop_succ_cons, List.cons_append]
      rw [← List.append_assoc (ds.take place.toNat)]
      exact .intro (.digits hd hne (run_append hwhole _)) (fraction_append hfraction rest) .absent
  · have hexponent := exponent_append place (2 - (natText place.natAbs).length) rest
    simp only [String.toList_append, String.toList_ofList, toList_zeros, List.append_assoc,
      List.take_succ_cons, List.take_zero, List.cons_append, List.nil_append, List.drop_succ_cons,
      List.drop_zero, natText] at hexponent ⊢
    exact .intro (.digits hd hne .stop) (fraction_append_of_exponent hmore _) hexponent

/-- A double that is a number is written as one. -/
theorem number_write {x : Float} (h : isNumber x = true) (rest : List Char) :
    Number ((jsonNotation.write x).toList ++ rest) rest := by
  rw [isNumber, Bool.not_eq_true', Bool.or_eq_false_iff] at h
  obtain ⟨hnan, hinf⟩ := h
  have hsigned : ∀ {text : String} {sign : Prop} [Decidable sign],
      Unsigned (text.toList ++ rest) rest →
        Number (((if sign then "-" else "") ++ text).toList ++ rest) rest := by
    intro text sign _ hunsigned
    rw [String.toList_append, List.append_assoc]
    split
    · exact .negative hunsigned
    · exact .positive hunsigned
  unfold Notation.write
  simp only [hnan, hinf, Bool.false_eq_true, if_false]
  split
  · exact hsigned (.intro .zero (.point (.intro (by decide) .stop)) .absent)
  · next hne =>
      obtain ⟨hm, he⟩ := ofBits_spec (Nat.mod_lt x.toBits.toNat (pow2_pos 63)) hne
      have hdigits := startsPositive_toDigits (digits_shortest_ne_zero hm he)
      exact hsigned (unsigned_place (startsPositive_significant hdigits) _ rest)

/-- Anything else is written as a word with a capital letter. -/
theorem exists_adds_write {x : Float} (h : isNumber x = false) :
    ∃ n, 0 < n ∧ Adds n (jsonNotation.write x).toList := by
  rw [isNumber, Bool.not_eq_false', Bool.or_eq_true] at h
  have hnan : Adds 2 jsonNotation.nan.toList := fun rest => by
    simp [jsonNotation, capitals, isCapital]
    omega
  have hinfinity : Adds 1 jsonNotation.infinity.toList := fun rest => by
    simp [jsonNotation, capitals, isCapital]
    omega
  unfold Notation.write
  split
  · exact ⟨2, by decide, hnan⟩
  · next hnumber =>
      simp only [h.resolve_left hnumber, if_true]
      refine ⟨1, by decide, ?_⟩
      split
      · rw [String.toList_append]
        exact hinfinity.cons (by decide) (by decide)
      · rw [String.toList_append]
        exact hinfinity

end ApiOutline.Decimal
