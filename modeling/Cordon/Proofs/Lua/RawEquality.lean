import Cordon.Lua.Value

/-!
# Raw equality

Two values that can be keys are raw equal if and only if they stand for the same key. Strings and objects
are compared as they are, and numbers by value: an integer equals the doubles of its value, of which there
is one, or two if it is zero.
-/

namespace Cordon.Lua

namespace Double

variable {x y : Double} {i : Int}

/-! ## Doubles that are integers -/

theorem quotient_eq_iff (num : Nat) {den : Nat} (hden : 0 < den) (i : Int) :
    (num % den = 0 ∧ ((num / den : Nat) : Int) = i) ↔ i * den = num := by
  constructor
  · rintro ⟨hmod, rfl⟩
    rw [← Int.natCast_mul, Nat.div_mul_cancel (Nat.dvd_of_mod_eq_zero hmod)]
  · intro h
    have hi : 0 ≤ i := by
      refine Int.nonneg_of_mul_nonneg_left ?_ (Int.natCast_pos.mpr hden)
      rw [h]
      exact Int.natCast_nonneg num
    obtain ⟨n, rfl⟩ := Int.eq_ofNat_of_zero_le hi
    have hn : n * den = num := Int.ofNat_inj.mp h
    rw [← hn]
    exact ⟨Nat.mul_mod_left .., by rw [Nat.mul_div_cancel _ hden]⟩

theorem ratio_den_pos (x : Double) : 0 < x.ratio.2 := by
  unfold ratio
  dsimp only
  split
  · exact Nat.zero_lt_one
  · rw [Nat.shiftLeft_eq, Nat.one_mul]
    exact Nat.two_pow_pos _

/-- The numerator of the quotient that a double is, with its sign. -/
def numerator (x : Double) : Int := if x.negative then -(x.ratio.1 : Int) else x.ratio.1

theorem toInt?_eq_some_iff : x.toInt? = some i ↔ x.isFinite = true ∧ i * x.ratio.2 = x.numerator := by
  have hden := x.ratio_den_pos
  have hquotient : (x.ratio.1 % x.ratio.2 = 0 ∧
      (if x.negative then -((x.ratio.1 / x.ratio.2 : Nat) : Int) else (x.ratio.1 / x.ratio.2 : Nat)) = i) ↔
      i * x.ratio.2 = x.numerator := by
    unfold numerator
    cases x.negative with
    | false => exact quotient_eq_iff _ hden i
    | true =>
      have h := quotient_eq_iff x.ratio.1 hden (-i)
      rw [Int.neg_mul] at h
      simp only [if_true]
      rw [Int.neg_eq_comm, eq_comm (a := -i), h, Int.neg_eq_comm, eq_comm]
  rw [← hquotient]
  unfold toInt?
  dsimp only
  by_cases hf : x.isFinite = true
  · by_cases hmod : x.ratio.1 % x.ratio.2 = 0
    · rw [if_pos hf, if_pos hmod, Option.some_inj]
      exact ⟨fun h => ⟨hf, hmod, h⟩, fun h => h.2.2⟩
    · rw [if_pos hf, if_neg hmod]
      exact ⟨nofun, fun h => absurd h.2.1 hmod⟩
  · rw [if_neg hf]
    exact ⟨nofun, fun h => absurd h.1 hf⟩

theorem isFinite_iff : x.isFinite = true ↔ x.isNaN = false ∧ x.isInf = false := by
  by_cases he : x.exponentField = 2047 <;> by_cases hm : x.mantissaField = 0 <;>
    simp [isFinite, isNaN, isInf, he, hm]

/-- Comparing says that an integer and a double are equal where the double is that integer. -/
theorem compareInt?_eq_iff : compareInt? i x = some .eq ↔ x.toInt? = some i := by
  rw [toInt?_eq_some_iff, isFinite_iff]
  unfold compareInt? numerator
  cases hn : x.isNaN with
  | true => simp
  | false =>
    cases hi : x.isInf with
    | true => cases x.negative <;> simp
    | false =>
      simp only [Bool.false_eq_true, if_false, Option.some_inj, and_self, true_and]
      exact Std.LawfulEqOrd.compare_eq_iff_eq

/-! ## Doubles of one value -/

theorem mantissaField_lt (x : Double) : x.mantissaField < 0x10000000000000 :=
  Nat.mod_lt _ (by decide)

theorem isZero_iff : x.isZero = true ↔ x.exponentField = 0 ∧ x.mantissaField = 0 := by
  unfold isZero exponentField mantissaField
  rw [beq_iff_eq]
  omega

theorem negative_iff : x.negative = true ↔ 0x8000000000000000 ≤ x.bits.toNat :=
  decide_eq_true_iff.trans UInt64.le_iff_toNat_le

theorem ext_fields (hn : x.negative = y.negative) (he : x.exponentField = y.exponentField)
    (hm : x.mantissaField = y.mantissaField) : x = y := by
  have hx := x.bits.toNat_lt
  have hy := y.bits.toNat_lt
  rw [Bool.eq_iff_iff, negative_iff, negative_iff] at hn
  unfold exponentField at he
  unfold mantissaField at hm
  have hbits : x.bits.toNat = y.bits.toNat := by omega
  cases x
  cases y
  exact congrArg mk (UInt64.toNat_inj.mp hbits)

theorem eq_iff : x.eq y = true ↔
    x.isNaN = false ∧ y.isNaN = false ∧ (x.isZero = true ∧ y.isZero = true ∨ x = y) := by
  unfold eq compare?
  cases hx : x.isNaN with
  | true => simp
  | false =>
    cases hy : y.isNaN with
    | true => simp
    | false =>
      simp only [Bool.or_self, Bool.false_eq_true, if_false, true_and, beq_iff_eq]
      by_cases hz : x.isZero = true ∧ y.isZero = true
      · simp [hz]
      · simp only [Bool.and_eq_true, hz, if_false, false_or, Option.some_inj]
        have hbits : x = y ↔ x.bits = y.bits := by rw [mk.injEq]
        constructor
        · intro h
          split at h
          · cases h
          · cases h
          · exact hbits.mpr (Std.LawfulEqOrd.compare_eq_iff_eq.mp h)
          · exact hbits.mpr (Std.LawfulEqOrd.compare_eq_iff_eq.mp h).symm
        · rintro rfl
          cases x.negative <;> exact Std.ReflOrd.compare_self

/-- The absolute value, counted in the smallest positive double. -/
def units (x : Double) : Nat := x.magnitude.1 <<< x.magnitude.2

theorem units_ratio (x : Double) : x.ratio.1 <<< 1074 = x.units * x.ratio.2 := by
  unfold ratio units
  dsimp only
  split
  · next h => rw [← Nat.shiftLeft_add, Nat.sub_add_cancel h, Nat.mul_one]
  · next h =>
    rw [Nat.shiftLeft_eq 1, Nat.one_mul, ← Nat.shiftLeft_eq, ← Nat.shiftLeft_add]
    congr 1
    omega

theorem units_of_toInt? (h : x.toInt? = some i) : x.units = i.natAbs <<< 1074 := by
  obtain ⟨-, h⟩ := toInt?_eq_some_iff.mp h
  have hnum : i.natAbs * x.ratio.2 = x.ratio.1 := by
    have habs := congrArg Int.natAbs h
    rw [Int.natAbs_mul, Int.natAbs_natCast] at habs
    rw [habs]
    unfold numerator
    split <;> simp
  refine Nat.eq_of_mul_eq_mul_right x.ratio_den_pos ?_
  rw [← units_ratio, ← hnum, Nat.shiftLeft_eq, Nat.shiftLeft_eq, Nat.mul_right_comm]

/-- With the leading bit in place the scale decides what mantissas there can be. -/
theorem shift_inj {m m' e e' : Nat} (hm : m < 0x20000000000000) (hm' : m' < 0x20000000000000)
    (he : e = 0 ∨ 0x10000000000000 ≤ m) (he' : e' = 0 ∨ 0x10000000000000 ≤ m')
    (h : m <<< e = m' <<< e') : m = m' ∧ e = e' := by
  have hscale {m m' e d : Nat} (hm : m < 0x20000000000000) (hm' : 0x10000000000000 ≤ m') :
      m <<< e ≠ m' <<< (d + 1 + e) := by
    rw [Nat.shiftLeft_add, Nat.shiftLeft_eq _ e, Nat.shiftLeft_eq _ e, Nat.shiftLeft_eq]
    intro heq
    have := Nat.eq_of_mul_eq_mul_right (Nat.two_pow_pos e) heq
    have := Nat.mul_le_mul hm' (Nat.pow_le_pow_right (n := 2) (by decide) (Nat.le_add_left 1 d))
    omega
  rcases Nat.lt_trichotomy e e' with hlt | rfl | hlt
  · obtain ⟨d, rfl⟩ := Nat.exists_eq_add_of_lt hlt
    exact absurd (by rw [h]; congr 1; omega) (hscale (e := e) (d := d) hm (he'.resolve_left (by omega)))
  · refine ⟨?_, rfl⟩
    rw [Nat.shiftLeft_eq, Nat.shiftLeft_eq] at h
    exact Nat.eq_of_mul_eq_mul_right (Nat.two_pow_pos e) h
  · obtain ⟨d, rfl⟩ := Nat.exists_eq_add_of_lt hlt
    exact absurd (by rw [← h]; congr 1; omega) (hscale (e := e') (d := d) hm' (he.resolve_left (by omega)))

theorem magnitude_bounds (x : Double) : x.magnitude.1 < 0x20000000000000 ∧
    (x.magnitude.2 = 0 ∨ 0x10000000000000 ≤ x.magnitude.1) := by
  have := x.mantissaField_lt
  unfold magnitude
  split <;> dsimp only <;> omega

theorem fields_of_magnitude (h : x.magnitude = y.magnitude) :
    x.exponentField = y.exponentField ∧ x.mantissaField = y.mantissaField := by
  have hx := x.mantissaField_lt
  have hy := y.mantissaField_lt
  unfold magnitude at h
  split at h <;> split at h <;> rw [Prod.mk.injEq] at h <;> omega

theorem fields_of_units (h : x.units = y.units) :
    x.exponentField = y.exponentField ∧ x.mantissaField = y.mantissaField := by
  obtain ⟨hx, hx'⟩ := x.magnitude_bounds
  obtain ⟨hy, hy'⟩ := y.magnitude_bounds
  obtain ⟨hm, he⟩ := shift_inj hx hy hx' hy' h
  exact fields_of_magnitude (Prod.ext hm he)

theorem toInt?_of_isZero (h : x.isZero = true) : x.toInt? = some 0 := by
  obtain ⟨he, hm⟩ := isZero_iff.mp h
  have hnum : x.ratio.1 = 0 := by
    simp [ratio, magnitude, he, hm]
  rw [toInt?_eq_some_iff, isFinite, numerator, he, hnum]
  simp

theorem isZero_of_toInt? (h : x.toInt? = some 0) : x.isZero = true := by
  have hunits : x.units = zero.units := by
    rw [units_of_toInt? h]
    decide
  exact isZero_iff.mpr (fields_of_units hunits)

theorem negative_of_toInt? (h : x.toInt? = some i) (hi : i ≠ 0) : x.negative = decide (i < 0) := by
  obtain ⟨-, h⟩ := toInt?_eq_some_iff.mp h
  have hden : (0 : Int) < x.ratio.2 := Int.natCast_pos.mpr x.ratio_den_pos
  unfold numerator at h
  cases hn : x.negative with
  | true =>
    rw [hn, if_pos rfl] at h
    have : i ≤ 0 := Int.nonpos_of_mul_nonpos_left (by omega) hden
    exact (decide_eq_true (by omega)).symm
  | false =>
    rw [hn, if_neg Bool.false_ne_true] at h
    have : 0 ≤ i := Int.nonneg_of_mul_nonneg_left (by omega) hden
    exact (decide_eq_false (by omega)).symm

/-- The doubles of an integral value are equal to each other and to no other double. -/
theorem eq_iff_of_toInt? (hx : x.toInt? = some i) : x.eq y = true ↔ y.toInt? = some i := by
  rw [eq_iff]
  constructor
  · rintro ⟨-, -, ⟨hzx, hzy⟩ | rfl⟩
    · rw [toInt?_of_isZero hzy, ← hx, toInt?_of_isZero hzx]
    · exact hx
  · intro hy
    have hfx := (isFinite_iff.mp (toInt?_eq_some_iff.mp hx).1).1
    have hfy := (isFinite_iff.mp (toInt?_eq_some_iff.mp hy).1).1
    refine ⟨hfx, hfy, ?_⟩
    by_cases hi : i = 0
    · subst hi
      exact .inl ⟨isZero_of_toInt? hx, isZero_of_toInt? hy⟩
    · obtain ⟨he, hm⟩ := fields_of_units ((units_of_toInt? hx).trans (units_of_toInt? hy).symm)
      exact .inr (ext_fields ((negative_of_toInt? hx hi).trans (negative_of_toInt? hy hi).symm) he hm)

end Double

namespace Value

variable {a b : Value} {i : Int64} {x y : Double}

/-- A value that can be a key: any but nil and the undefined doubles. -/
def CanBeKey : Value → Prop
  | nil => False
  | float x => x.isNaN = false
  | _ => True

theorem floatToInt?_eq_some_iff : floatToInt? x = some i ↔ x.toInt? = some i.toInt := by
  have hlow := i.le_toInt
  have hhigh := i.toInt_lt
  unfold floatToInt?
  cases hx : x.toInt? with
  | none => exact ⟨nofun, nofun⟩
  | some j =>
    dsimp only
    rw [Option.some_inj]
    split
    · next h =>
      rw [Option.some_inj]
      constructor
      · rintro rfl
        rw [Int64.toInt_ofInt_of_le h.1 h.2]
      · rintro rfl
        exact Int64.ofInt_toInt i
    · next h =>
      refine ⟨nofun, fun hj => absurd ?_ h⟩
      rw [hj]
      exact ⟨hlow, hhigh⟩

theorem key?_float (x : Double) : (float x).key? = if x.isNaN then none
    else some (match floatToInt? x with | some i => .int i | none => .float x) := by
  show (if x.isNaN = true then none else match floatToInt? x with | some i => _ | none => _) = _
  cases floatToInt? x <;> rfl

theorem key?_defined (h : x.isNaN = false) :
    (float x).key? = some (match floatToInt? x with | some i => .int i | none => .float x) := by
  rw [key?_float, h, if_neg Bool.false_ne_true]

theorem canBeKey_iff : a.CanBeKey ↔ ∃ k, a.key? = some k := by
  cases a with
  | nil => exact ⟨nofun, nofun⟩
  | float x =>
    rw [key?_float]
    show x.isNaN = false ↔ _
    cases x.isNaN with
    | false => exact iff_of_true rfl ⟨_, rfl⟩
    | true => exact iff_of_false nofun nofun
  | _ => exact iff_of_true trivial ⟨_, rfl⟩

theorem rawEq_int_float (h : x.isNaN = false) :
    (int i).rawEq (float x) = true ↔ (float x).key? = some (.int i) := by
  have hcompare : (int i).rawEq (float x) = true ↔ floatToInt? x = some i := by
    rw [floatToInt?_eq_some_iff, ← Double.compareInt?_eq_iff, rawEq, beq_iff_eq]
  rw [hcompare, key?_defined h, Option.some_inj]
  cases floatToInt? x <;> simp

theorem key?_of_floatToInt? (h : floatToInt? x = some i) : (float x).key? = some (.int i) := by
  have hf := (Double.isFinite_iff.mp (Double.toInt?_eq_some_iff.mp (floatToInt?_eq_some_iff.mp h)).1).1
  rw [key?_defined hf, h]

theorem rawEq_float_float (hx : x.isNaN = false) (hy : y.isNaN = false) :
    (float x).rawEq (float y) = true ↔ (float x).key? = (float y).key? := by
  show x.eq y = true ↔ _
  cases hi : floatToInt? x with
  | some i =>
    rw [Double.eq_iff_of_toInt? (floatToInt?_eq_some_iff.mp hi), ← floatToInt?_eq_some_iff,
      key?_of_floatToInt? hi, key?_defined hy, Option.some_inj]
    cases floatToInt? y <;> simp [eq_comm]
  | none =>
    have hzero : x.isZero = false := by
      refine Bool.eq_false_iff.mpr fun hz => ?_
      rw [floatToInt?_eq_some_iff (i := 0) |>.mpr (Double.toInt?_of_isZero hz)] at hi
      cases hi
    rw [Double.eq_iff, key?_defined hx, key?_defined hy, hi, hzero]
    cases hj : floatToInt? y with
    | some j =>
      have hne : x ≠ y := by
        rintro rfl
        rw [hi] at hj
        cases hj
      simp [hne]
    | none => simp [hx, hy]

theorem beq_bytes (a b : Bytes) : (a == b) = true ↔ a = b := by
  show (a.data == b.data) = true ↔ _
  rw [beq_iff_eq]
  exact ⟨ByteArray.ext, congrArg _⟩

/-- Values are raw equal where they are one key. -/
theorem rawEq_iff (ha : a.CanBeKey) (hb : b.CanBeKey) : a.rawEq b = true ↔ a.key? = b.key? := by
  cases a with
  | nil => cases ha
  | int i =>
    cases b with
    | float y => exact (rawEq_int_float hb).trans eq_comm
    | _ => simp [rawEq, key?]
  | float x =>
    cases b with
    | nil => cases hb
    | int i => exact rawEq_int_float ha
    | float y => exact rawEq_float_float ha hb
    | _ =>
      rw [key?_defined ha]
      cases floatToInt? x <;> simp [rawEq, key?]
  | _ =>
    cases b with
    | nil => cases hb
    | float y =>
      rw [key?_defined hb]
      cases floatToInt? y <;> simp [rawEq, key?]
    | _ => simp [rawEq, key?, beq_bytes]

end Value

end Cordon.Lua
