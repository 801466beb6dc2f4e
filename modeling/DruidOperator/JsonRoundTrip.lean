import DruidOperator.Json
import Mathlib.Algebra.Order.Field.Power
import Mathlib.Data.String.Basic
import Mathlib.Tactic.IntervalCases
import Mathlib.Tactic.Linarith
import Mathlib.Tactic.NormNum

/-!
# Reading back what was written

`Marshal` followed by `Unmarshal` gives back the value it started from, for every value that
itself came out of `Unmarshal`.

* `toFloat64_idem` — rounding a number that was rounded already changes nothing.
* `Canonical` — keys in order and numbers rounded; what `decode` returns.
* `asWritten` — the document that the text of a value holds: the same, with its numbers as decimals.
* `Reads` — the text of a value is parsed to this document, which decodes to it.
* `unmarshal_toJsonString` — the round trip.
-/

namespace DruidOperator.Json

variable {q : ℚ} {rest : List Char} {k : String} {x : Json} {fs : List (String × Json)}

/-! ## Rounding -/

theorem roundEven_intCast (n : ℤ) : roundEven n = n := by
  simp [roundEven]

theorem roundEven_cases (q : ℚ) : roundEven q = ⌊q⌋ ∨ roundEven q = ⌊q⌋ + 1 := by
  unfold roundEven
  dsimp only
  split_ifs <;> simp

/-- A number inside integer bounds is rounded inside them. -/
theorem abs_roundEven_le {n : ℤ} (h : |q| < n) : |roundEven q| ≤ n := by
  obtain ⟨hlo, hhi⟩ := abs_lt.1 h
  have hf : ⌊q⌋ < n := Int.floor_lt.2 hhi
  have hf' : -n ≤ ⌊q⌋ := Int.le_floor.2 (by push_cast; linarith)
  rw [abs_le]
  rcases roundEven_cases q with hr | hr <;> omega

/-- The weight of the last bit of the `float64` nearest to `q`. -/
def ulpExp (q : ℚ) : ℤ := max (Int.log 2 |q| - 52) (-1074)

theorem toFloat64_eq_some {r : ℚ} (hq : q ≠ 0) :
    toFloat64 q = some r ↔ (roundEven (q / (2 : ℚ) ^ ulpExp q) * (2 : ℚ) ^ ulpExp q = r ∧
      |r| < (2 : ℚ) ^ (1024 : ℤ)) := by
  simp only [toFloat64, if_neg hq]
  rw [← ulpExp]
  split_ifs with h
  · simp only [false_iff, not_and, not_lt]
    rintro rfl
    exact h
  · simp only [Option.some.injEq]
    constructor
    · rintro rfl
      exact ⟨rfl, not_le.1 h⟩
    · exact fun h => h.1

theorem abs_lt_two_pow_ulpExp (q : ℚ) : |q| < (2 : ℚ) ^ (ulpExp q + 53) := by
  have h : |q| < (2 : ℚ) ^ (Int.log 2 |q| + 1) := Int.lt_zpow_succ_log_self (by norm_num) _
  refine h.trans_le (zpow_le_zpow_right₀ (by norm_num) ?_)
  unfold ulpExp
  omega

/-- An integer multiple of a power of two no finer than its own last bit is not rounded. -/
theorem toFloat64_of_multiple {r : ℚ} {m : ℤ} (hr : r = m * (2 : ℚ) ^ ulpExp r)
    (hlt : |r| < (2 : ℚ) ^ (1024 : ℤ)) : toFloat64 r = some r := by
  by_cases h0 : r = 0
  · simp [toFloat64, h0]
  · refine (toFloat64_eq_some h0).2 ⟨?_, hlt⟩
    have hdiv : r / (2 : ℚ) ^ ulpExp r = m := by
      rw [div_eq_iff (zpow_ne_zero _ (by norm_num))]
      exact hr
    rw [hdiv, roundEven_intCast]
    exact hr.symm

/-- **A rounded number is a `float64`.** -/
theorem toFloat64_idem {r : ℚ} (h : toFloat64 q = some r) : toFloat64 r = some r := by
  by_cases hq : q = 0
  · simp_all [toFloat64]
  obtain ⟨hr, hlt⟩ := (toFloat64_eq_some hq).1 h
  by_cases hr0 : r = 0
  · simp [toFloat64, hr0]
  set e := ulpExp q with he
  set m := roundEven (q / (2 : ℚ) ^ e) with hm
  have hpos : (0 : ℚ) < (2 : ℚ) ^ e := zpow_pos (by norm_num) _
  have hmle : |m| ≤ 2 ^ 53 := by
    refine abs_roundEven_le ?_
    rw [abs_div, abs_of_pos hpos, div_lt_iff₀ hpos]
    have := abs_lt_two_pow_ulpExp q
    rw [← he, zpow_add₀ (by norm_num), mul_comm] at this
    exact_mod_cast this
  have habs : |r| = |m| * (2 : ℚ) ^ e := by
    rw [← hr, abs_mul, abs_of_pos hpos]
    norm_cast
  rcases hmle.lt_or_eq with hmlt | hmeq
  · -- the result has no more than 53 bits, so its own last bit is no coarser
    have hle : ulpExp r ≤ e := by
      have hlog : Int.log 2 |r| < e + 53 := by
        rw [← Int.lt_zpow_iff_log_lt (by norm_num) (abs_pos.2 hr0), habs]
        rw [zpow_add₀ (by norm_num), mul_comm]
        have : ((|m| : ℤ) : ℚ) < 2 ^ 53 := by exact_mod_cast hmlt
        exact mul_lt_mul_of_pos_left (by exact_mod_cast this) hpos
      have : (-1074 : ℤ) ≤ e := le_max_right ..
      unfold ulpExp
      omega
    obtain ⟨k, hk⟩ := Int.eq_ofNat_of_zero_le (sub_nonneg.2 hle)
    refine toFloat64_of_multiple (m := m * 2 ^ k) ?_ hlt
    rw [← hr]
    have : e = k + ulpExp r := by omega
    nth_rewrite 1 [this]
    rw [zpow_add₀ (by norm_num)]
    push_cast
    rw [zpow_natCast, mul_assoc, hr]
  · -- rounding up reached the next power of two
    have hulp : ulpExp r = e + 1 := by
      have hlog : Int.log 2 |r| = e + 53 := by
        have hpow : |r| = ((2 : ℕ) : ℚ) ^ (e + 53) := by
          rw [habs, hmeq, zpow_add₀ (by norm_num), mul_comm]
          norm_num
        rw [hpow, Int.log_zpow (by norm_num)]
      have : (-1074 : ℤ) ≤ e := le_max_right ..
      unfold ulpExp
      omega
    obtain ⟨k, hk⟩ : (2 : ℤ) ∣ m := by
      rw [← dvd_abs, hmeq]
      exact dvd_pow_self 2 (by norm_num)
    refine toFloat64_of_multiple (m := k) ?_ hlt
    rw [hulp, zpow_add₀ (by norm_num), zpow_one, ← hr, hk]
    push_cast
    ring

/-- The exact value of a `float64` ends after at most 1074 decimal places. -/
theorem float64_mul_pow_isInt (h : toFloat64 q = some q) :
    ∃ n : ℤ, q * (10 : ℚ) ^ (1074 : ℤ) = n := by
  by_cases hq : q = 0
  · exact ⟨0, by simp [hq]⟩
  obtain ⟨hr, -⟩ := (toFloat64_eq_some hq).1 h
  have hle : (-1074 : ℤ) ≤ ulpExp q := le_max_right ..
  obtain ⟨k, hk⟩ := Int.eq_ofNat_of_zero_le (show 0 ≤ ulpExp q + 1074 by omega)
  refine ⟨roundEven (q / (2 : ℚ) ^ ulpExp q) * 2 ^ k * 5 ^ 1074, ?_⟩
  have hten : (10 : ℚ) ^ (1074 : ℤ) = (2 : ℚ) ^ (1074 : ℤ) * (5 : ℚ) ^ (1074 : ℕ) := by
    rw [← zpow_natCast (5 : ℚ) 1074, Nat.cast_ofNat, ← mul_zpow]
    norm_num
  nth_rewrite 1 [← hr]
  rw [hten, ← mul_assoc, mul_assoc _ ((2 : ℚ) ^ ulpExp q), ← zpow_add₀ (by norm_num), hk]
  simp only [Int.cast_mul, Int.cast_pow, Int.cast_ofNat, zpow_natCast]

theorem roundEven_neg (q : ℚ) : roundEven (-q) = -roundEven q := by
  by_cases hint : (⌊q⌋ : ℚ) = q
  · rw [← hint, ← Int.cast_neg, roundEven_intCast, roundEven_intCast]
  have hlt : (⌊q⌋ : ℚ) < q := lt_of_le_of_ne (Int.floor_le q) hint
  have hlt' : q < ⌊q⌋ + 1 := Int.lt_floor_add_one q
  -- between two integers the fraction of `-q` is what is missing from that of `q`
  have hfloor : ⌊-q⌋ = -⌊q⌋ - 1 := by
    rw [Int.floor_eq_iff]
    push_cast
    constructor <;> linarith
  have hfrac : -q - ((-⌊q⌋ - 1 : ℤ) : ℚ) = 1 - (q - ⌊q⌋) := by
    push_cast
    ring
  simp only [roundEven, hfloor, hfrac]
  rcases lt_trichotomy (q - ⌊q⌋) (1 / 2) with h | h | h
  · rw [if_neg (by linarith), if_pos (by linarith), if_pos h]
    omega
  · have hhalf : (1 : ℚ) - 1 / 2 = 1 / 2 := by norm_num
    simp only [h, hhalf, lt_irrefl, if_false]
    split_ifs <;> omega
  · rw [if_pos (by linarith), if_neg (by linarith), if_pos h]
    omega

theorem toFloat64_neg (q : ℚ) : toFloat64 (-q) = (toFloat64 q).map (-·) := by
  by_cases hq : q = 0
  · simp [hq, toFloat64]
  · simp only [toFloat64, neg_eq_zero, if_neg hq, abs_neg, neg_div, roundEven_neg, Int.cast_neg,
      neg_mul]
    split_ifs <;> rfl

/-! ## Decimals -/

theorem shortestDecimal_reads (hq : toFloat64 q = some q) (hpos : 0 < q) :
    toFloat64 ((shortestDecimal q).1 * (10 : ℚ) ^ (shortestDecimal q).2) = some q := by
  unfold shortestDecimal
  split
  · rename_i d hd
    obtain ⟨n, -, hfound⟩ := List.exists_of_findSome?_eq_some hd
    have hreads : readsBack q d = true := List.find?_some hfound
    exact of_decide_eq_true hreads
  · obtain ⟨n, hn⟩ := float64_mul_pow_isInt hq
    have hn0 : 0 ≤ n := by
      have : (0 : ℚ) ≤ n := hn ▸ (mul_pos hpos (zpow_pos (by norm_num) _)).le
      exact_mod_cast this
    have hval : ((⌊q * (10 : ℚ) ^ (1074 : ℤ)⌋.toNat : ℕ) : ℚ) = q * (10 : ℚ) ^ (1074 : ℤ) := by
      rw [hn, Int.floor_intCast]
      exact_mod_cast Int.toNat_of_nonneg hn0
    rw [hval, mul_assoc, ← zpow_add₀ (by norm_num)]
    simpa using hq

theorem stripZeros_value (fuel d : ℕ) (e : ℤ) :
    ((stripZeros fuel d e).1 : ℚ) * (10 : ℚ) ^ (stripZeros fuel d e).2 = d * (10 : ℚ) ^ e := by
  induction fuel generalizing d e with
  | zero => rfl
  | succ fuel ih =>
      unfold stripZeros
      split
      · rename_i h
        rw [ih, zpow_add₀ (by norm_num), zpow_one]
        have hd : (d : ℚ) = (d / 10 : ℕ) * 10 := by
          exact_mod_cast (Nat.div_mul_cancel (Nat.dvd_of_mod_eq_zero h.1)).symm
        rw [hd]
        ring
      · rfl

theorem decimal_reads (hq : toFloat64 q = some q) (hpos : 0 < q) :
    toFloat64 ((decimal q).1 * (10 : ℚ) ^ (decimal q).2) = some q := by
  rw [decimal, stripZeros_value]
  exact shortestDecimal_reads hq hpos

theorem decimal_pos (hq : toFloat64 q = some q) (hpos : 0 < q) : 0 < (decimal q).1 := by
  rw [Nat.pos_iff_ne_zero]
  intro h
  have := decimal_reads hq hpos
  simp only [h, Nat.cast_zero, zero_mul, toFloat64, if_true, Option.some.injEq] at this
  exact hpos.ne this

/-- The value of the decimal that is written for a positive number. -/
def decimalValue (q : ℚ) : ℚ := (decimal q).1 * (10 : ℚ) ^ (decimal q).2

/-- The number that is written for a `float64`. -/
def written (q : ℚ) : ℚ :=
  if q = 0 then 0 else if q < 0 then -decimalValue (-q) else decimalValue q

theorem float64_neg (hq : toFloat64 q = some q) : toFloat64 (-q) = some (-q) := by
  rw [toFloat64_neg, hq]
  rfl

theorem toFloat64_written (hq : toFloat64 q = some q) : toFloat64 (written q) = some q := by
  unfold written
  split_ifs with h0 hneg
  · rw [h0]
    rfl
  · rw [toFloat64_neg, decimalValue, decimal_reads (float64_neg hq) (neg_pos.2 hneg)]
    simp
  · exact decimal_reads hq (lt_of_le_of_ne (not_lt.1 hneg) (Ne.symm h0))

/-! ## Numbers -/

/-- What may follow a value inside a document. -/
def Ends (rest : List Char) : Prop :=
  ∀ c ∈ rest.head?, c = ',' ∨ c = ']' ∨ c = '\x7d'

theorem takeDigits_append {ds : List Char} (hds : ∀ c ∈ ds, c.isDigit = true)
    (hrest : ∀ c ∈ rest.head?, c.isDigit = false) : takeDigits (ds ++ rest) = (ds, rest) := by
  unfold takeDigits
  rw [List.takeWhile_append_of_pos hds, List.dropWhile_append_of_pos hds]
  cases rest with
  | nil => simp
  | cons c cs => simp [hrest c rfl]

theorem Ends.not_digit (h : Ends rest) : ∀ c ∈ rest.head?, c.isDigit = false := by
  intro c hc
  rcases h c hc with rfl | rfl | rfl <;> rfl

theorem parseFrac_ends (h : ∀ c ∈ rest.head?, c ≠ '.') : parseFrac rest = some ([], rest) := by
  cases rest with
  | nil => rfl
  | cons c cs => simp [parseFrac, h c rfl]

theorem parseFrac_dot {frac : List Char} (hne : frac ≠ []) (hfrac : ∀ c ∈ frac, c.isDigit = true)
    (hrest : ∀ c ∈ rest.head?, c.isDigit = false) :
    parseFrac ('.' :: (frac ++ rest)) = some (frac, rest) := by
  simp [parseFrac, takeDigits_append hfrac hrest, hne]

theorem parseExp_ends (h : Ends rest) : parseExp rest = some (0, rest) := by
  cases rest with
  | nil => rfl
  | cons c cs => rcases h c rfl with rfl | rfl | rfl <;> rfl

theorem parseExp_e {xs : List Char} (neg : Bool) (hne : xs ≠ []) (hxs : ∀ c ∈ xs, c.isDigit = true)
    (hrest : Ends rest) :
    parseExp ('e' :: (if neg then '-' else '+') :: (xs ++ rest)) =
      some ((if neg then -1 else 1) * (digitsValue xs : ℤ), rest) := by
  cases neg <;> simp [parseExp, parseSign, takeDigits_append hxs hrest.not_digit, hne]

theorem parseUnsigned_eq {int tail frac mid : List Char} {exp : ℤ}
    (hint : ∀ c ∈ int, c.isDigit = true) (hne : int ≠ [])
    (hzero : int.head? ≠ some '0' ∨ int.length = 1) (htail : ∀ c ∈ tail.head?, c.isDigit = false)
    (hfrac : parseFrac tail = some (frac, mid)) (hexp : parseExp mid = some (exp, rest)) :
    parseUnsigned (int ++ tail) =
      some (digitsValue (int ++ frac) * (10 : ℚ) ^ (exp - frac.length), rest) := by
  have hlead : ¬ (int = [] ∨ (int.head? = some '0' ∧ int.length ≠ 1)) := by
    rintro (h | ⟨h₁, h₂⟩)
    · exact hne h
    · exact hzero.elim (· h₁) h₂
  simp only [parseUnsigned, takeDigits_append hint htail, if_neg hlead, hfrac, Option.bind_eq_bind,
    Option.bind_some, hexp]
  rfl

theorem digitsValue_toDigits (d : ℕ) : digitsValue (Nat.toDigits 10 d) = d :=
  Nat.ofDigitChars_ten_toDigits

theorem isDigit_toDigits (d : ℕ) : ∀ c ∈ Nat.toDigits 10 d, c.isDigit = true :=
  fun _ hc => Nat.isDigit_of_mem_toDigits (by norm_num) (by norm_num) hc

theorem isDigit_zeros (k : ℕ) : ∀ c ∈ List.replicate k '0', c.isDigit = true := by
  intro c hc
  rw [(List.mem_replicate.1 hc).2]
  rfl

theorem isDigit_append {l m : List Char} (hl : ∀ c ∈ l, c.isDigit = true)
    (hm : ∀ c ∈ m, c.isDigit = true) : ∀ c ∈ l ++ m, c.isDigit = true :=
  fun c hc => (List.mem_append.1 hc).elim (hl c) (hm c)

/-- The digits of a positive number do not start with a zero. -/
theorem toDigits_head_ne_zero {d : ℕ} (hd : 0 < d) : (Nat.toDigits 10 d).head? ≠ some '0' := by
  induction d using Nat.strongRecOn with
  | _ d ih =>
      by_cases hlt : d < 10
      · rw [Nat.toDigits_of_lt_base hlt]
        interval_cases d <;> decide
      · rw [Nat.toDigits_of_base_le (by norm_num) (by omega),
          List.head?_append_of_ne_nil _ Nat.toDigits_ne_nil]
        exact ih (d / 10) (by omega) (by omega)

theorem digitsValue_append_zeros (ds : List Char) (k : ℕ) :
    digitsValue (ds ++ List.replicate k '0') = 10 ^ k * digitsValue ds := by
  rw [digitsValue, Nat.ofDigitChars_append, Nat.ofDigitChars_replicate_zero]
  rfl

theorem digitsValue_zeros_append (k : ℕ) (ds : List Char) :
    digitsValue (List.replicate k '0' ++ ds) = digitsValue ds := by
  rw [digitsValue, Nat.ofDigitChars_append, Nat.ofDigitChars_replicate_zero, Nat.mul_zero]
  rfl

/-- `strconv`'s fixed notation reads back exactly. -/
theorem parseUnsigned_formatFixed {d : ℕ} (hd : 0 < d) (e : ℤ) (hrest : Ends rest) :
    parseUnsigned (formatFixed d e ++ rest) = some (d * (10 : ℚ) ^ e, rest) := by
  have hdot : ∀ c ∈ rest.head?, c ≠ '.' := by
    intro c hc
    rcases hrest c hc with rfl | rfl | rfl <;> decide
  have hdigits := isDigit_toDigits d
  unfold formatFixed
  dsimp only
  split_ifs with he hk
  · -- no fraction
    rw [parseUnsigned_eq (isDigit_append hdigits (isDigit_zeros _)) (by simp [Nat.toDigits_ne_nil])
      (.inl ?_) hrest.not_digit (parseFrac_ends hdot) (parseExp_ends hrest)]
    · rw [List.append_nil, digitsValue_append_zeros, digitsValue_toDigits]
      have hpow : (10 : ℚ) ^ e = (10 : ℚ) ^ e.toNat := by
        rw [← zpow_natCast, Int.toNat_of_nonneg he]
      rw [hpow]
      simp [mul_comm]
    · rw [List.head?_append_of_ne_nil _ Nat.toDigits_ne_nil]
      exact toDigits_head_ne_zero hd
  · -- the point falls inside the digits
    set ds := Nat.toDigits 10 d with hds
    set n := ds.length - (-e).toNat with hn
    have hlen : (ds.drop n).length = (-e).toNat := by
      rw [List.length_drop]
      omega
    have htake : ds.take n ≠ [] := by
      rw [← List.length_pos_iff, List.length_take]
      omega
    rw [List.append_assoc, List.cons_append,
      parseUnsigned_eq (fun c hc => hdigits c (List.mem_of_mem_take hc)) htake (.inl ?_) ?_
        (parseFrac_dot ?_ (fun c hc => hdigits c (List.mem_of_mem_drop hc)) hrest.not_digit)
        (parseExp_ends hrest)]
    · rw [List.take_append_drop, hlen, hds, digitsValue_toDigits]
      congr 4
      omega
    · rw [List.head?_take, if_neg (by omega)]
      exact toDigits_head_ne_zero hd
    · intro c hc
      cases hc
      rfl
    · rw [← List.length_pos_iff, hlen]
      omega
  · -- only a fraction
    set ds := Nat.toDigits 10 d with hds
    have hfrac := isDigit_append (isDigit_zeros ((-e).toNat - ds.length)) hdigits
    have hlen : (List.replicate ((-e).toNat - ds.length) '0' ++ ds).length = (-e).toNat := by
      rw [List.length_append, List.length_replicate]
      omega
    have hshape : '0' :: '.' :: List.replicate ((-e).toNat - ds.length) '0' ++ ds ++ rest =
        List.replicate 1 '0' ++
          '.' :: ((List.replicate ((-e).toNat - ds.length) '0' ++ ds) ++ rest) := by simp
    rw [hshape, parseUnsigned_eq (isDigit_zeros 1) (by decide) (.inr rfl) ?_
      (parseFrac_dot ?_ hfrac hrest.not_digit) (parseExp_ends hrest)]
    · rw [hlen, ← List.append_assoc, List.replicate_append_replicate,
        digitsValue_zeros_append, hds, digitsValue_toDigits]
      congr 4
      omega
    · intro c hc
      cases hc
      rfl
    · rw [← List.length_pos_iff, hlen]
      omega

theorem parseExp_format (x : ℤ) (hrest : Ends rest) :
    parseExp ('e' :: (if x < 0 then '-' else '+') ::
      ((if x < 0 ∨ 2 ≤ (Nat.toDigits 10 x.natAbs).length then Nat.toDigits 10 x.natAbs
        else '0' :: Nat.toDigits 10 x.natAbs) ++ rest)) = some (x, rest) := by
  set xs := if x < 0 ∨ 2 ≤ (Nat.toDigits 10 x.natAbs).length then Nat.toDigits 10 x.natAbs
    else '0' :: Nat.toDigits 10 x.natAbs with hxs
  have hdigits := isDigit_toDigits x.natAbs
  have hall : ∀ c ∈ xs, c.isDigit = true := by
    rw [hxs]
    split_ifs
    · exact hdigits
    · exact isDigit_append (isDigit_zeros 1) hdigits
  have hne : xs ≠ [] := by
    rw [hxs]
    split_ifs
    · exact Nat.toDigits_ne_nil
    · simp
  have hval : digitsValue xs = x.natAbs := by
    rw [hxs]
    split_ifs
    · exact digitsValue_toDigits _
    · exact (digitsValue_zeros_append 1 _).trans (digitsValue_toDigits _)
  have := parseExp_e (decide (x < 0)) hne hall hrest
  simp only [decide_eq_true_eq] at this
  rw [this, hval]
  congr 2
  split_ifs <;> omega

/-- `strconv`'s scientific notation reads back exactly. -/
theorem parseUnsigned_formatExp (d : ℕ) (e : ℤ) (hrest : Ends rest) :
    parseUnsigned (formatExp d e ++ rest) = some (d * (10 : ℚ) ^ e, rest) := by
  have hdigits := isDigit_toDigits d
  have hvalue := digitsValue_toDigits d
  unfold formatExp
  dsimp only
  cases hds : Nat.toDigits 10 d with
  | nil => exact absurd hds Nat.toDigits_ne_nil
  | cons c cs =>
      rw [hds] at hdigits hvalue
      have hc : ∀ x ∈ [c], x.isDigit = true := fun x hx =>
        hdigits x (by simp_all)
      have hexp := parseExp_format (e + ((c :: cs).length - 1)) hrest
      cases cs with
      | nil =>
          simp only [List.cons_append, List.nil_append]
          rw [← List.singleton_append, parseUnsigned_eq hc (by simp) (.inr rfl) ?_
            (parseFrac_ends ?_) hexp]
          · simp [hvalue]
          · rintro x ⟨⟩
            rfl
          · rintro x ⟨⟩
            decide
      | cons c' cs =>
          simp only [List.append_assoc, List.cons_append]
          change parseUnsigned ([c] ++ '.' :: ((c' :: cs) ++ _)) = _
          rw [parseUnsigned_eq hc (by simp) (.inr rfl) ?_
            (parseFrac_dot (by simp) (fun x hx => hdigits x (List.mem_cons_of_mem _ hx)) ?_) hexp]
          · rw [List.singleton_append, hvalue]
            simp
          · rintro x ⟨⟩
            rfl
          · rintro x ⟨⟩
            rfl

theorem parseUnsigned_formatPositive (hq : toFloat64 q = some q) (hpos : 0 < q)
    (hrest : Ends rest) :
    parseUnsigned (formatPositive q ++ rest) =
      some ((decimal q).1 * (10 : ℚ) ^ (decimal q).2, rest) := by
  unfold formatPositive
  split_ifs
  · exact parseUnsigned_formatExp _ _ hrest
  · exact parseUnsigned_formatFixed (decimal_pos hq hpos) _ hrest

theorem parseNumber_of_parseUnsigned {cs : List Char} {r : ℚ × List Char}
    (h : parseUnsigned cs = some r) : parseNumber cs = some r := by
  cases cs with
  | nil => cases h
  | cons c cs =>
      have hc : c ≠ '-' := by
        rintro rfl
        cases h
      rw [parseNumber, if_neg hc, h]

/-- **A written `float64` is read as its decimal.** -/
theorem parseNumber_formatFloat (hq : toFloat64 q = some q) (hrest : Ends rest) :
    parseNumber (formatFloat q ++ rest) = some (written q, rest) := by
  unfold formatFloat written
  split_ifs with h0 hneg
  · refine parseNumber_of_parseUnsigned ?_
    have hdot : ∀ c ∈ rest.head?, c ≠ '.' := by
      intro c hc
      rcases hrest c hc with rfl | rfl | rfl <;> decide
    have := parseUnsigned_eq (isDigit_zeros 1) (by decide) (.inr rfl) hrest.not_digit
      (parseFrac_ends hdot) (parseExp_ends hrest)
    simpa [digitsValue, Nat.ofDigitChars_cons] using this
  · rw [List.cons_append, parseNumber, if_pos rfl,
      parseUnsigned_formatPositive (float64_neg hq) (neg_pos.2 hneg) hrest]
    rfl
  · have hpos : 0 < q := lt_of_le_of_ne (not_lt.1 hneg) (Ne.symm h0)
    exact parseNumber_of_parseUnsigned (parseUnsigned_formatPositive hq hpos hrest)

/-! ## Strings -/

theorem hexDigit_hexChar {n : ℕ} (h : n < 16) : hexDigit (hexChar n) = some n := by
  have : ∀ n < 16, hexDigit (hexChar n) = some n := by decide
  exact this n h

theorem hex4_hexChar {n : ℕ} (h : n < 65536) :
    hex4 (hexChar (n / 4096)) (hexChar (n / 256 % 16)) (hexChar (n / 16 % 16))
      (hexChar (n % 16)) = some n := by
  simp only [hex4, hexDigit_hexChar (show n / 4096 < 16 by omega),
    hexDigit_hexChar (show n / 256 % 16 < 16 by omega),
    hexDigit_hexChar (show n / 16 % 16 < 16 by omega), hexDigit_hexChar (show n % 16 < 16 by omega)]
  have : 4096 * (n / 4096) + 256 * (n / 256 % 16) + 16 * (n / 16 % 16) + n % 16 = n := by omega
  simp [this]

/-- The characters `Marshal` writes as `\uXXXX`. -/
def isUnit (c : Char) : Bool :=
  c ≠ '\n' && c ≠ '\r' && c ≠ '\t' && decide (c.toNat < 0x20 ∨ c = '<' ∨ c = '>' ∨ c = '&' ∨
    c.toNat = 0x2028 ∨ c.toNat = 0x2029)

/-- How an escaped character is read. -/
def pieceOf (c : Char) : Piece := if isUnit c then .unit c.toNat else .char c

/-- The two halves of the `do` blocks of `parsePieces`. -/
theorem parsePieces_bind (rest : List Char) (p : Piece) :
    (do
      let (ps, rest) ← parsePieces rest
      return (p :: ps, rest)) = (parsePieces rest).map fun r => (p :: r.1, r.2) := by
  cases parsePieces rest <;> rfl

theorem parsePieces_escapeChar (c : Char) (rest : List Char) :
    parsePieces (escapeChar c ++ rest) =
      (parsePieces rest).map fun r => (pieceOf c :: r.1, r.2) := by
  have hescape : ∀ e : Char, e ≠ 'u' → ∀ x, unescape e = some x → pieceOf x = .char x →
      parsePieces (['\\', e] ++ rest) =
        (parsePieces rest).map fun r => (pieceOf x :: r.1, r.2) := by
    intro e he x hx hpiece
    rw [hpiece, ← parsePieces_bind, List.cons_append, List.singleton_append, parsePieces.eq_def]
    simp [he, hx]
  unfold escapeChar
  split
  · exact hescape '"' (by decide) _ rfl rfl
  · exact hescape '\\' (by decide) _ rfl rfl
  · exact hescape 'n' (by decide) _ rfl rfl
  · exact hescape 'r' (by decide) _ rfl rfl
  · exact hescape 't' (by decide) _ rfl rfl
  · rename_i hquote hback hn hr ht
    dsimp only
    split_ifs with hunit
    · have hpiece : pieceOf c = .unit c.toNat := by
        simp only [pieceOf, isUnit, decide_eq_true hunit]
        simp [show c ≠ '\n' from hn, show c ≠ '\r' from hr, show c ≠ '\t' from ht]
      have hlt : c.toNat < 65536 := by
        rcases hunit with h | rfl | rfl | rfl | h | h
        · omega
        · decide
        · decide
        · decide
        · omega
        · omega
      rw [hpiece, ← parsePieces_bind]
      simp [parsePieces, hex4_hexChar hlt]
    · have hpiece : pieceOf c = .char c := by
        simp [pieceOf, isUnit, hunit]
      have hctrl : ¬ c.toNat < 0x20 := fun h => hunit (.inl h)
      rw [hpiece, ← parsePieces_bind, List.singleton_append, parsePieces.eq_def]
      simp [show c ≠ '"' from hquote, show c ≠ '\\' from hback, hctrl]

theorem parsePieces_flatMap (cs rest : List Char) :
    parsePieces (cs.flatMap escapeChar ++ '"' :: rest) = some (cs.map pieceOf, rest) := by
  induction cs with
  | nil =>
      rw [List.flatMap_nil, List.nil_append, parsePieces.eq_def]
      rfl
  | cons c cs ih =>
      rw [List.flatMap_cons, List.append_assoc, parsePieces_escapeChar, ih]
      rfl

theorem joinPieces_unit {n : ℕ} (h : n < 0xD800) (ps : List Piece) :
    joinPieces (.unit n :: ps) = Char.ofNat n :: joinPieces ps := by
  have hesc : escapedChar n = Char.ofNat n := by
    rw [escapedChar, if_neg (by omega)]
  cases ps with
  | nil => simp [joinPieces, hesc]
  | cons p ps =>
      cases p with
      | char c => simp [joinPieces, hesc]
      | unit lo =>
          have hpair : isSurrogatePair n lo = false := by
            rw [isSurrogatePair, decide_eq_false_iff_not]
            omega
          simp [joinPieces, hesc, hpair]

theorem joinPieces_pieceOf (cs : List Char) : joinPieces (cs.map pieceOf) = cs := by
  induction cs with
  | nil => rfl
  | cons c cs ih =>
      rw [List.map_cons, pieceOf]
      split_ifs with h
      · have hlt : c.toNat < 0xD800 := by
          simp only [isUnit, Bool.and_eq_true, decide_eq_true_eq] at h
          rcases h.2 with h | rfl | rfl | rfl | h | h
          · omega
          · decide
          · decide
          · decide
          · omega
          · omega
        rw [joinPieces_unit hlt, Char.ofNat_toNat, ih]
      · rw [joinPieces, ih]

theorem parseString_marshal (s : String) (rest : List Char) :
    parseString (s.toList.flatMap escapeChar ++ '"' :: rest) = some (s, rest) := by
  rw [parseString, parsePieces_flatMap]
  simp [joinPieces_pieceOf]

/-! ## Canonical values -/

mutual

/-- Numbers are rounded and the keys of every map are in order. -/
def Canonical : Json → Prop
  | .null => True
  | .bool _ => True
  | .num q => toFloat64 q = some q
  | .str _ => True
  | .arr xs => CanonicalList xs
  | .obj fs => fs.Pairwise (·.1 < ·.1) ∧ CanonicalFields fs

def CanonicalList : List Json → Prop
  | [] => True
  | x :: xs => Canonical x ∧ CanonicalList xs

def CanonicalFields : List (String × Json) → Prop
  | [] => True
  | (_, x) :: fs => Canonical x ∧ CanonicalFields fs

end

theorem mem_setField {f : String × Json} (hf : f ∈ setField k x fs) : f = (k, x) ∨ f ∈ fs := by
  induction fs with
  | nil => simpa [setField] using hf
  | cons g fs ih =>
      obtain ⟨l, y⟩ := g
      unfold setField at hf
      split_ifs at hf
      · rcases List.mem_cons.1 hf with h | h
        · exact .inl h
        · exact .inr (List.mem_cons_of_mem _ h)
      · rcases List.mem_cons.1 hf with h | h
        · exact .inl h
        · exact .inr h
      · rcases List.mem_cons.1 hf with h | h
        · exact .inr (h ▸ List.mem_cons_self)
        · exact (ih h).imp_right (List.mem_cons_of_mem _)

theorem setField_sorted (k : String) (x : Json) (h : fs.Pairwise (·.1 < ·.1)) :
    (setField k x fs).Pairwise (·.1 < ·.1) := by
  induction fs with
  | nil => simp [setField]
  | cons g fs ih =>
      obtain ⟨l, y⟩ := g
      obtain ⟨hl, hfs⟩ := List.pairwise_cons.1 h
      unfold setField
      split_ifs with heq hlt
      · subst heq
        exact List.pairwise_cons.2 ⟨hl, hfs⟩
      · refine List.pairwise_cons.2 ⟨fun f hf => ?_, h⟩
        rcases List.mem_cons.1 hf with rfl | hf
        · exact hlt
        · exact lt_trans hlt (hl f hf)
      · refine List.pairwise_cons.2 ⟨fun f hf => ?_, ih hfs⟩
        rcases mem_setField hf with rfl | hf
        · exact lt_of_le_of_ne (not_lt.1 hlt) (Ne.symm heq)
        · exact hl f hf

theorem canonicalFields_setField (hx : Canonical x) (h : CanonicalFields fs) :
    CanonicalFields (setField k x fs) := by
  induction fs with
  | nil => exact ⟨hx, trivial⟩
  | cons g fs ih =>
      obtain ⟨l, y⟩ := g
      unfold setField
      split_ifs
      · exact ⟨hx, h.2⟩
      · exact ⟨hx, h⟩
      · exact ⟨h.1, ih h.2⟩

theorem setField_of_lt (x : Json) (h : ∀ f ∈ fs, f.1 < k) : setField k x fs = fs ++ [(k, x)] := by
  induction fs with
  | nil => rfl
  | cons g fs ih =>
      obtain ⟨l, y⟩ := g
      have hl : l < k := h _ List.mem_cons_self
      unfold setField
      rw [if_neg hl.ne', if_neg hl.asymm, ih fun f hf => h f (List.mem_cons_of_mem _ hf)]
      rfl

mutual

theorem canonical_of_decode : ∀ {x y : Json}, decode x = some y → Canonical y
  | .null, y, h => by
      cases h
      trivial
  | .bool b, y, h => by
      cases h
      trivial
  | .num q, y, h => by
      obtain ⟨r, hr, rfl⟩ := Option.map_eq_some_iff.1 h
      exact toFloat64_idem hr
  | .str s, y, h => by
      cases h
      trivial
  | .arr xs, y, h => by
      obtain ⟨ys, hys, rfl⟩ := Option.map_eq_some_iff.1 h
      exact canonicalList_of_decode hys
  | .obj fs, y, h => by
      obtain ⟨gs, hgs, rfl⟩ := Option.map_eq_some_iff.1 h
      exact canonicalFields_of_decode hgs ⟨List.Pairwise.nil, trivial⟩

theorem canonicalList_of_decode : ∀ {xs ys : List Json},
    decodeElements xs = some ys → CanonicalList ys
  | [], ys, h => by
      cases h
      trivial
  | x :: xs, ys, h => by
      obtain ⟨y, hy, h⟩ := Option.bind_eq_some_iff.1 h
      obtain ⟨ys, hys, h⟩ := Option.bind_eq_some_iff.1 h
      cases h
      exact ⟨canonical_of_decode hy, canonicalList_of_decode hys⟩

theorem canonicalFields_of_decode : ∀ {acc fs gs : List (String × Json)},
    decodeFields acc fs = some gs → acc.Pairwise (·.1 < ·.1) ∧ CanonicalFields acc →
    gs.Pairwise (·.1 < ·.1) ∧ CanonicalFields gs
  | acc, [], gs, h, hacc => by
      cases h
      exact hacc
  | acc, (k, x) :: fs, gs, h, hacc => by
      obtain ⟨y, hy, h⟩ := Option.bind_eq_some_iff.1 h
      exact canonicalFields_of_decode h ⟨setField_sorted k y hacc.1,
        canonicalFields_setField (canonical_of_decode hy) hacc.2⟩

end

/-! ## Documents with other numbers -/

mutual

/-- The document with `f` applied to its numbers. -/
def mapNumbers (f : ℚ → ℚ) : Json → Json
  | .null => .null
  | .bool b => .bool b
  | .num q => .num (f q)
  | .str s => .str s
  | .arr xs => .arr (mapElements f xs)
  | .obj fs => .obj (mapFields f fs)

def mapElements (f : ℚ → ℚ) : List Json → List Json
  | [] => []
  | x :: xs => mapNumbers f x :: mapElements f xs

def mapFields (f : ℚ → ℚ) : List (String × Json) → List (String × Json)
  | [] => []
  | (k, x) :: fs => (k, mapNumbers f x) :: mapFields f fs

end

/-- The document that the text of a decoded value holds. -/
def asWritten (v : Json) : Json := mapNumbers written v

/-! ## The round trip -/

theorem skipSpace_cons {c : Char} (hc : isSpace c = false) (cs : List Char) :
    skipSpace (c :: cs) = c :: cs := by
  simp [skipSpace, hc]

/-- A number starts with a digit or a sign, so it cannot be taken for anything else. -/
theorem parseNumber_head {c : Char} {cs : List Char} {r : ℚ × List Char}
    (h : parseNumber (c :: cs) = some r) : c = '-' ∨ c.isDigit = true := by
  by_cases hc : c = '-'
  · exact .inl hc
  · right
    rw [parseNumber, if_neg hc] at h
    by_contra hd
    have hint : takeDigits (c :: cs) = ([], c :: cs) := by
      simp [takeDigits, hd]
    simp [parseUnsigned, hint] at h

/-- The first character of a value: neither a space nor the end of a list. -/
def Starts (c : Char) : Prop := isSpace c = false ∧ c ≠ ']'

theorem starts_of_number {c : Char} (h : c = '-' ∨ c.isDigit = true) :
    Starts c ∧ c ≠ '"' ∧ c ≠ '[' ∧ c ≠ '\x7b' ∧ c ≠ 'n' ∧ c ≠ 't' ∧ c ≠ 'f' := by
  refine ⟨⟨?_, ?_⟩, ?_, ?_, ?_, ?_, ?_, ?_⟩
  · rw [← Bool.not_eq_true, isSpace]
    intro hs
    simp only [Bool.or_eq_true, beq_iff_eq] at hs
    rcases hs with ((rfl | rfl) | rfl) | rfl <;> revert h <;> decide
  all_goals
    rintro rfl
    revert h
    decide

theorem parseValue_number {cs : List Char} {p : ℚ} (fuel : ℕ)
    (h : parseNumber cs = some (p, rest)) :
    parseValue (fuel + 1) cs = some (.num p, rest) := by
  cases cs with
  | nil => cases h
  | cons c cs =>
      obtain ⟨⟨hs, -⟩, h₁, h₂, h₃, h₄, h₅, h₆⟩ := starts_of_number (parseNumber_head h)
      simp [parseValue, skipSpace_cons hs, h₁, h₂, h₃, h₄, h₅, h₆, h]

theorem marshalChars_starts : ∀ {v : Json}, Canonical v →
    ∃ c cs, marshalChars v = c :: cs ∧ Starts c
  | .null, _ => ⟨_, _, rfl, rfl, by decide⟩
  | .bool true, _ => ⟨_, _, rfl, rfl, by decide⟩
  | .bool false, _ => ⟨_, _, rfl, rfl, by decide⟩
  | .str s, _ => ⟨_, _, rfl, rfl, by decide⟩
  | .arr xs, _ => ⟨_, _, rfl, rfl, by decide⟩
  | .obj fs, _ => ⟨_, _, rfl, rfl, by decide⟩
  | .num q, h => by
      have hp := parseNumber_formatFloat h (show Ends [] by simp [Ends])
      rw [List.append_nil] at hp
      cases hq : formatFloat q with
      | nil =>
          rw [hq] at hp
          cases hp
      | cons c cs =>
          rw [hq] at hp
          exact ⟨c, cs, hq, (starts_of_number (parseNumber_head hp)).1⟩

theorem ends_cons {c : Char} (h : c = ',' ∨ c = ']' ∨ c = '\x7d') (rest : List Char) :
    Ends (c :: rest) := by
  rintro _ ⟨⟩
  exact h

/-- The written value is parsed to a document that decodes to it. -/
def Reads (v : Json) : Prop :=
  decode (asWritten v) = some v ∧ ∀ fuel rest, 2 * (marshalChars v).length ≤ fuel → Ends rest →
    parseValue fuel (marshalChars v ++ rest) = some (asWritten v, rest)

def ReadsElements (xs : List Json) : Prop :=
  decodeElements (mapElements written xs) = some xs ∧
    ∀ fuel rest, 2 * (marshalElements xs).length + 1 ≤ fuel →
      parseElements fuel (marshalElements xs ++ ']' :: rest) = some (mapElements written xs, rest)

/-- Fields are decoded into a map that already holds smaller keys. -/
def ReadsFields (fs : List (String × Json)) : Prop :=
  (∀ acc, (∀ a ∈ acc, ∀ g ∈ fs, a.1 < g.1) →
      decodeFields acc (mapFields written fs) = some (acc ++ fs)) ∧
    ∀ fuel rest, 2 * (marshalFields fs).length + 1 ≤ fuel →
      parseFields fuel (marshalFields fs ++ '\x7d' :: rest) = some (mapFields written fs, rest)

/-- A value whose text is `c :: cs` and is read by the branch of `parseValue` for `c`. -/
theorem reads_of_cons {v : Json} (c : Char) (cs : List Char) (hv : marshalChars v = c :: cs)
    (hdecode : decode (asWritten v) = some v)
    (hparse : ∀ fuel rest, 2 * cs.length + 1 ≤ fuel → Ends rest →
      parseValue (fuel + 1) (c :: (cs ++ rest)) = some (asWritten v, rest)) : Reads v := by
  refine ⟨hdecode, fun fuel rest hfuel hrest => ?_⟩
  rw [hv, List.length_cons] at hfuel
  obtain ⟨fuel, rfl⟩ : ∃ f, fuel = f + 1 := ⟨fuel - 1, by omega⟩
  rw [hv, List.cons_append]
  exact hparse fuel rest (by omega) hrest

theorem reads_null : Reads .null :=
  reads_of_cons 'n' ['u', 'l', 'l'] rfl rfl fun fuel rest _ _ => by
    simp [parseValue, skipSpace, isSpace, expect, asWritten, mapNumbers]

theorem reads_bool : ∀ b : Bool, Reads (.bool b)
  | true => reads_of_cons 't' ['r', 'u', 'e'] rfl rfl fun fuel rest _ _ => by
      simp [parseValue, skipSpace, isSpace, expect, asWritten, mapNumbers]
  | false => reads_of_cons 'f' ['a', 'l', 's', 'e'] rfl rfl fun fuel rest _ _ => by
      simp [parseValue, skipSpace, isSpace, expect, asWritten, mapNumbers]

theorem reads_num (h : toFloat64 q = some q) : Reads (.num q) := by
  obtain ⟨c, cs, hq, -⟩ := marshalChars_starts (v := .num q) h
  have hdecode : decode (asWritten (.num q)) = some (.num q) := by
    rw [asWritten, mapNumbers, decode, toFloat64_written h]
    rfl
  refine reads_of_cons c cs hq hdecode fun fuel rest _ hrest => parseValue_number fuel ?_
  rw [← List.cons_append, ← hq]
  exact parseNumber_formatFloat h hrest

theorem reads_str (s : String) : Reads (.str s) := by
  refine reads_of_cons '"' (s.toList.flatMap escapeChar ++ ['"']) rfl rfl fun fuel rest _ _ => ?_
  rw [List.append_assoc, List.singleton_append]
  simp [parseValue, skipSpace, isSpace, parseString_marshal s rest, asWritten, mapNumbers]

theorem marshalElements_starts (h : Canonical x) (xs : List Json) :
    ∃ c cs, marshalElements (x :: xs) = c :: cs ∧ Starts c := by
  obtain ⟨c, cs, hx, hc⟩ := marshalChars_starts h
  cases xs with
  | nil => exact ⟨c, cs, hx, hc⟩
  | cons y ys =>
      refine ⟨c, cs ++ ',' :: marshalElements (y :: ys), ?_, hc⟩
      simp [marshalElements, hx]

theorem reads_arr : ∀ {xs : List Json}, CanonicalList xs → (xs ≠ [] → ReadsElements xs) →
    Reads (.arr xs)
  | [], _, _ => reads_of_cons '[' [']'] rfl rfl fun fuel rest _ _ => by
      simp [parseValue, skipSpace, isSpace, asWritten, mapNumbers, mapElements]
  | x :: xs, hx, h => by
      obtain ⟨hdecode, hread⟩ := h (by simp)
      obtain ⟨c, cs, hcs, hspace, hc⟩ := marshalElements_starts hx.1 xs
      refine reads_of_cons '[' (marshalElements (x :: xs) ++ [']']) rfl
        (by rw [asWritten, mapNumbers, decode, hdecode]; rfl) fun fuel rest hfuel _ => ?_
      rw [List.length_append, List.length_singleton] at hfuel
      have := hread fuel rest (by omega)
      rw [List.append_assoc, List.singleton_append, asWritten, mapNumbers]
      rw [hcs, List.cons_append] at this ⊢
      simp [parseValue, skipSpace_cons (c := '[') rfl, skipSpace_cons hspace, hc, this]

theorem readsElements_singleton (h : Reads x) : ReadsElements [x] := by
  obtain ⟨hdecode, hread⟩ := h
  rw [asWritten] at hdecode hread
  refine ⟨by simp [mapElements, decodeElements, hdecode], fun fuel rest hfuel => ?_⟩
  obtain ⟨fuel, rfl⟩ : ∃ f, fuel = f + 1 := ⟨fuel - 1, by omega⟩
  simp only [marshalElements] at hfuel ⊢
  have := hread fuel (']' :: rest) (by omega) (ends_cons (by simp) rest)
  simp [parseElements, this, skipSpace_cons (c := ']') rfl, mapElements]

theorem marshalElements_cons (x : Json) {xs : List Json} (h : xs ≠ []) :
    marshalElements (x :: xs) = marshalChars x ++ ',' :: marshalElements xs := by
  cases xs with
  | nil => exact absurd rfl h
  | cons y ys => rfl

theorem marshalFields_cons (k : String) (x : Json) (h : fs ≠ []) :
    marshalFields ((k, x) :: fs) =
      marshalString k ++ ':' :: marshalChars x ++ ',' :: marshalFields fs := by
  cases fs with
  | nil => exact absurd rfl h
  | cons f fs => rfl

theorem readsElements_cons {xs : List Json} (hne : xs ≠ []) (h : Reads x) (hs : ReadsElements xs) :
    ReadsElements (x :: xs) := by
  obtain ⟨hdecode, hread⟩ := h
  obtain ⟨hdecodes, hreads⟩ := hs
  rw [asWritten] at hdecode hread
  refine ⟨by simp [mapElements, decodeElements, hdecode, hdecodes], fun fuel rest hfuel => ?_⟩
  obtain ⟨fuel, rfl⟩ : ∃ f, fuel = f + 1 := ⟨fuel - 1, by omega⟩
  rw [marshalElements_cons x hne] at hfuel ⊢
  simp only [List.length_append, List.length_cons] at hfuel
  have hx := hread fuel (',' :: (marshalElements xs ++ ']' :: rest)) (by omega)
    (ends_cons (by simp) _)
  have hxs := hreads fuel rest (by omega)
  simp [parseElements, hx, hxs, skipSpace_cons (c := ',') rfl, mapElements]

/-- The part of `parseFields` that reads one field. -/
theorem parseFields_field {y : Json} {text : List Char} {fuel : ℕ}
    (h : parseValue fuel (text ++ rest) = some (y, rest)) :
    parseFields (fuel + 1) (marshalString k ++ ':' :: text ++ rest) =
      match skipSpace rest with
      | [] => none
      | c :: cs =>
          if c = '\x7d' then some ([(k, y)], cs)
          else if c = ',' then (parseFields fuel cs).map fun r => ((k, y) :: r.1, r.2)
          else none := by
  have hshape : marshalString k ++ ':' :: text ++ rest =
      '"' :: (k.toList.flatMap escapeChar ++ '"' :: (':' :: (text ++ rest))) := by
    simp [marshalString]
  have hexpect : ∀ (c : Char) (cs : List Char), expect [c] (c :: cs) = some cs := by
    intro c cs
    simp [expect]
  simp only [hshape, parseFields, skipSpace_cons (c := '"') rfl, hexpect, Option.bind_eq_bind,
    Option.bind_some, parseString_marshal, skipSpace_cons (c := ':') rfl, h]
  cases skipSpace rest with
  | nil => rfl
  | cons c cs =>
      dsimp only
      split_ifs
      · rfl
      · cases parseFields fuel cs <;> rfl
      · rfl

theorem decodeFields_field {y : Json} {acc gs : List (String × Json)} (hy : decode y = some x)
    (hacc : ∀ a ∈ acc, a.1 < k) :
    decodeFields acc ((k, y) :: gs) = decodeFields (acc ++ [(k, x)]) gs := by
  simp [decodeFields, hy, setField_of_lt x hacc]

theorem readsFields_singleton (k : String) (h : Reads x) : ReadsFields [(k, x)] := by
  obtain ⟨hdecode, hread⟩ := h
  rw [asWritten] at hdecode hread
  refine ⟨fun acc hacc => ?_, fun fuel rest hfuel => ?_⟩
  · rw [mapFields, decodeFields_field hdecode fun a ha => hacc a ha _ List.mem_cons_self]
    rfl
  · obtain ⟨fuel, rfl⟩ : ∃ f, fuel = f + 1 := ⟨fuel - 1, by omega⟩
    simp only [marshalFields, List.length_append, List.length_cons] at hfuel ⊢
    rw [parseFields_field (hread fuel ('\x7d' :: rest) (by omega) (ends_cons (by simp) rest))]
    rfl

theorem readsFields_cons (hne : fs ≠ []) (hsorted : ∀ f ∈ fs, k < f.1) (h : Reads x)
    (hs : ReadsFields fs) : ReadsFields ((k, x) :: fs) := by
  obtain ⟨hdecode, hread⟩ := h
  obtain ⟨hdecodes, hreads⟩ := hs
  rw [asWritten] at hdecode hread
  refine ⟨fun acc hacc => ?_, fun fuel rest hfuel => ?_⟩
  · rw [mapFields, decodeFields_field hdecode fun a ha => hacc a ha _ List.mem_cons_self, hdecodes]
    · simp
    · intro a ha f hf
      rcases List.mem_append.1 ha with ha | ha
      · exact hacc a ha f (List.mem_cons_of_mem _ hf)
      · rw [List.mem_singleton.1 ha]
        exact hsorted f hf
  · obtain ⟨fuel, rfl⟩ : ∃ f, fuel = f + 1 := ⟨fuel - 1, by omega⟩
    rw [marshalFields_cons k x hne] at hfuel ⊢
    simp only [List.length_append, List.length_cons] at hfuel
    rw [List.append_assoc, List.cons_append,
      parseFields_field (hread fuel _ (by omega) (ends_cons (by simp) _)),
      skipSpace_cons (c := ',') rfl]
    simp [hreads fuel rest (by omega), mapFields]

theorem reads_obj : ∀ {fs : List (String × Json)}, (fs ≠ [] → ReadsFields fs) → Reads (.obj fs)
  | [], _ => reads_of_cons '\x7b' ['\x7d'] rfl rfl fun fuel rest _ _ => by
      simp [parseValue, skipSpace, isSpace, asWritten, mapNumbers, mapFields]
  | (k, x) :: fs, h => by
      obtain ⟨hdecodes, hread⟩ := h (by simp)
      have hdecode : decode (asWritten (.obj ((k, x) :: fs))) = some (.obj ((k, x) :: fs)) := by
        rw [asWritten, mapNumbers, decode, hdecodes [] (by simp)]
        rfl
      obtain ⟨cs, hcs⟩ : ∃ cs, marshalFields ((k, x) :: fs) = '"' :: cs := by
        cases fs <;> exact ⟨_, rfl⟩
      refine reads_of_cons '\x7b' (marshalFields ((k, x) :: fs) ++ ['\x7d']) rfl hdecode
        fun fuel rest hfuel _ => ?_
      rw [List.length_append, List.length_singleton] at hfuel
      have := hread fuel rest (by omega)
      rw [List.append_assoc, List.singleton_append, asWritten, mapNumbers]
      rw [hcs, List.cons_append] at this ⊢
      simp [parseValue, skipSpace_cons (c := '\x7b') rfl, skipSpace_cons (c := '"') rfl, this]

mutual

theorem reads_of_canonical : ∀ {v : Json}, Canonical v → Reads v
  | .null, _ => reads_null
  | .bool b, _ => reads_bool b
  | .num _, h => reads_num h
  | .str s, _ => reads_str s
  | .arr _, h => reads_arr h (readsElements_of_canonical h)
  | .obj _, h => reads_obj (readsFields_of_canonical h.1 h.2)

theorem readsElements_of_canonical : ∀ {xs : List Json}, CanonicalList xs → xs ≠ [] →
    ReadsElements xs
  | [], _, hne => absurd rfl hne
  | [_], h, _ => readsElements_singleton (reads_of_canonical h.1)
  | _ :: x' :: xs, h, _ => readsElements_cons (by simp) (reads_of_canonical h.1)
      (@readsElements_of_canonical (x' :: xs) h.2 (by simp))

theorem readsFields_of_canonical : ∀ {fs : List (String × Json)}, fs.Pairwise (·.1 < ·.1) →
    CanonicalFields fs → fs ≠ [] → ReadsFields fs
  | [], _, _, hne => absurd rfl hne
  | [(k, _)], _, h, _ => readsFields_singleton k (reads_of_canonical h.1)
  | (_, _) :: f' :: fs, hsorted, h, _ =>
      readsFields_cons (by simp) (List.pairwise_cons.1 hsorted).1 (reads_of_canonical h.1)
        (@readsFields_of_canonical (f' :: fs) (List.pairwise_cons.1 hsorted).2 h.2 (by simp))

end

theorem canonical_of_unmarshal {src : String} (h : unmarshal src = some x) : Canonical x := by
  obtain ⟨d, -, hd⟩ := Option.bind_eq_some_iff.1 h
  exact canonical_of_decode hd

theorem parse_toJsonString (hx : Canonical x) : parse (toJsonString x) = some (asWritten x) := by
  have hlen : (toJsonString x).length = (marshalChars x).length := by
    simp [toJsonString]
  have hparse : parseValue (2 * (toJsonString x).length + 1) (toJsonString x).toList =
      some (asWritten x, []) := by
    have := (reads_of_canonical hx).2 (2 * (marshalChars x).length + 1) []
        (by omega) (by simp [Ends])
    rw [hlen]
    simpa [toJsonString] using this
  rw [parse, hparse]
  simp [skipSpace]

/-- **The round trip.** A canonical value is written to a text that decodes to it. -/
theorem unmarshal_of_canonical (hx : Canonical x) : unmarshal (toJsonString x) = some x := by
  rw [unmarshal, parse_toJsonString hx, Option.bind_some]
  exact (reads_of_canonical hx).1

theorem unmarshal_toJsonString {src : String} (h : unmarshal src = some x) :
    unmarshal (toJsonString x) = some x :=
  unmarshal_of_canonical (canonical_of_unmarshal h)

/-! ## Documents by membership -/

/-- Induction over a document, with a hypothesis for every element of an array and every field of an
object. -/
@[elab_as_elim] theorem induct {P : Json → Prop} (null : P .null) (bool : ∀ b, P (.bool b))
    (num : ∀ q, P (.num q)) (str : ∀ s, P (.str s))
    (arr : ∀ xs, (∀ x ∈ xs, P x) → P (.arr xs))
    (obj : ∀ fs, (∀ f ∈ fs, P f.2) → P (.obj fs)) (x : Json) : P x :=
  @Json.rec P (fun xs => ∀ x ∈ xs, P x) (fun fs => ∀ f ∈ fs, P f.2) (fun f => P f.2)
    null bool num str arr obj (List.forall_mem_nil _)
    (fun _ _ hx hxs => List.forall_mem_cons.2 ⟨hx, hxs⟩) (List.forall_mem_nil _)
    (fun _ _ hf hfs => List.forall_mem_cons.2 ⟨hf, hfs⟩) (fun _ _ hx => hx) x

theorem canonicalList_iff {xs : List Json} : CanonicalList xs ↔ ∀ x ∈ xs, Canonical x := by
  induction xs with
  | nil => simp [CanonicalList]
  | cons x xs ih => simp [CanonicalList, ih]

theorem canonicalFields_iff : CanonicalFields fs ↔ ∀ f ∈ fs, Canonical f.2 := by
  induction fs with
  | nil => simp [CanonicalFields]
  | cons f fs ih => simp [CanonicalFields, ih]

theorem Canonical.sorted (h : Canonical (.obj fs)) :
    fs.Pairwise (·.1 < ·.1) := h.1

theorem Canonical.field (h : Canonical (.obj fs)) {f : String × Json} (hf : f ∈ fs) :
    Canonical f.2 := canonicalFields_iff.1 h.2 f hf

theorem mem_of_lookup (h : fs.lookup k = some x) : (k, x) ∈ fs := by
  obtain ⟨l₁, l₂, rfl, -⟩ := List.lookup_eq_some_iff.1 h
  simp

theorem lookup_of_mem (hsorted : fs.Pairwise (·.1 < ·.1)) {f : String × Json} (hf : f ∈ fs) :
    fs.lookup f.1 = some f.2 := by
  induction fs with
  | nil => cases hf
  | cons g fs ih =>
      obtain ⟨hlt, hfs⟩ := List.pairwise_cons.1 hsorted
      rw [lookup_cons_eq]
      rcases List.mem_cons.1 hf with rfl | hf
      · exact if_pos rfl
      · rw [if_neg (hlt f hf).ne']
        exact ih hfs hf

end DruidOperator.Json
