import DruidOperator.IngestionProof

/-!
# The numbers of a spec

`getSpecJson` decodes the spec a user wrote and encodes it again. Keys may come in another order,
but the value should be the one that was written. Numbers go through `float64` on the way: they are
rounded, and then written as the shortest decimal that rounds to the same `float64`.

* `denote` — the value a document stands for, with its numbers exactly as written.
* `Kept` — a number that is the shortest decimal of the `float64` nearest to it.
* `spec_unchanged_iff` — the text that is submitted denotes the value of the spec exactly if all its
  numbers are kept.
* `kept_of_lt` — integers below `2 ^ 53` are.
-/

namespace DruidOperator

variable {q : ℚ} {fs : List (String × Json)} {n : ℕ}

namespace Json

/-! ## Values -/

mutual

/-- The value of a document: the last of a repeated key counts, and the keys have no order. -/
def denote : Json → Json
  | .null => .null
  | .bool b => .bool b
  | .num q => .num q
  | .str s => .str s
  | .arr xs => .arr (denoteElements xs)
  | .obj fs => .obj (denoteFields [] fs)

def denoteElements : List Json → List Json
  | [] => []
  | x :: xs => denote x :: denoteElements xs

def denoteFields (acc : List (String × Json)) : List (String × Json) → List (String × Json)
  | [] => acc
  | (k, x) :: fs => denoteFields (setField k (denote x) acc) fs

end

mutual

/-- The numbers of a document, at any depth. -/
def numbers : Json → List ℚ
  | .null => []
  | .bool _ => []
  | .num q => [q]
  | .str _ => []
  | .arr xs => elementNumbers xs
  | .obj fs => fieldNumbers fs

def elementNumbers : List Json → List ℚ
  | [] => []
  | x :: xs => numbers x ++ elementNumbers xs

def fieldNumbers : List (String × Json) → List ℚ
  | [] => []
  | (_, x) :: fs => numbers x ++ fieldNumbers fs

end

/-- The `float64` a number is decoded to. -/
def nearest (q : ℚ) : ℚ := (toFloat64 q).getD q

/-- The number is written back as it was. -/
def Kept (q : ℚ) : Prop := written (nearest q) = q

instance : DecidablePred Kept := fun _ => inferInstanceAs (Decidable (_ = _))

/-! ## Lists of elements and of fields -/

theorem map_eq_self_iff {α : Type} {f : α → α} {xs : List α} : xs.map f = xs ↔
    ∀ x ∈ xs, f x = x := by
  conv_lhs => rw [← List.map_id xs, List.map_map]
  exact List.map_inj_left

theorem mapElements_eq_map (f : ℚ → ℚ) (xs : List Json) :
    mapElements f xs = xs.map (mapNumbers f) := by
  induction xs with
  | nil => rfl
  | cons x xs ih => rw [mapElements, ih, List.map_cons]

theorem mapFields_eq_map (f : ℚ → ℚ) (fs : List (String × Json)) :
    mapFields f fs = fs.map fun p => (p.1, mapNumbers f p.2) := by
  induction fs with
  | nil => rfl
  | cons p fs ih => rw [mapFields, ih, List.map_cons]

theorem denoteElements_eq_map (xs : List Json) : denoteElements xs = xs.map denote := by
  induction xs with
  | nil => rfl
  | cons x xs ih => rw [denoteElements, ih, List.map_cons]

theorem mem_elementNumbers {xs : List Json} : q ∈ elementNumbers xs ↔ ∃ x ∈ xs, q ∈ numbers x := by
  induction xs with
  | nil => simp [elementNumbers]
  | cons x xs ih => simp [elementNumbers, ih]

theorem mem_fieldNumbers : q ∈ fieldNumbers fs ↔ ∃ p ∈ fs, q ∈ numbers p.2 := by
  induction fs with
  | nil => simp [fieldNumbers]
  | cons p fs ih => simp [fieldNumbers, ih]

theorem mapFields_setField (f : ℚ → ℚ) (k : String) (x : Json) (fs : List (String × Json)) :
    mapFields f (setField k x fs) = setField k (mapNumbers f x) (mapFields f fs) := by
  induction fs with
  | nil => rfl
  | cons p fs ih =>
      obtain ⟨l, y⟩ := p
      rw [mapFields, setField, setField]
      split_ifs
      · rfl
      · rfl
      · rw [mapFields, ih]

/-! ## Numbers and values -/

theorem mapNumbers_mapNumbers (f g : ℚ → ℚ) (x : Json) :
    mapNumbers f (mapNumbers g x) = mapNumbers (f ∘ g) x := by
  induction x using Json.induct with
  | arr xs ih =>
      simp only [mapNumbers, mapElements_eq_map, List.map_map, arr.injEq]
      exact List.map_congr_left ih
  | obj fs ih =>
      simp only [mapNumbers, mapFields_eq_map, List.map_map, obj.injEq]
      refine List.map_congr_left fun p hp => ?_
      show (p.1, mapNumbers f (mapNumbers g p.2)) = _
      rw [ih p hp]
  | _ => rfl

/-- The document stays as it is exactly if all its numbers do. -/
theorem mapNumbers_eq_self_iff (f : ℚ → ℚ) (x : Json) :
    mapNumbers f x = x ↔ ∀ q ∈ numbers x, f q = q := by
  induction x using Json.induct with
  | num q => simp [mapNumbers, numbers]
  | arr xs ih =>
      simp only [mapNumbers, mapElements_eq_map, arr.injEq, map_eq_self_iff, numbers,
        mem_elementNumbers]
      constructor
      · rintro h q ⟨x, hx, hq⟩
        exact (ih x hx).1 (h x hx) q hq
      · intro h x hx
        exact (ih x hx).2 fun q hq => h q ⟨x, hx, hq⟩
  | obj fs ih =>
      simp only [mapNumbers, mapFields_eq_map, obj.injEq, map_eq_self_iff, Prod.ext_iff,
        true_and, numbers,
        mem_fieldNumbers]
      constructor
      · rintro h q ⟨p, hp, hq⟩
        exact (ih p hp).1 (h p hp) q hq
      · intro h p hp
        exact (ih p hp).2 fun q hq => h q ⟨p, hp, hq⟩
  | _ => simp [mapNumbers, numbers]

theorem written_nearest_iff {x : Json} :
    mapNumbers (written ∘ nearest) x = x ↔ ∀ q ∈ numbers x, Kept q := mapNumbers_eq_self_iff _ x

theorem denoteFields_mapFields {f : ℚ → ℚ}
    (h : ∀ p ∈ fs, denote (mapNumbers f p.2) = mapNumbers f (denote p.2))
    (acc : List (String × Json)) :
    denoteFields (mapFields f acc) (mapFields f fs) = mapFields f (denoteFields acc fs) := by
  induction fs generalizing acc with
  | nil => rfl
  | cons p fs ih =>
      obtain ⟨k, x⟩ := p
      rw [mapFields, denoteFields, denoteFields, h (k, x) List.mem_cons_self, ← mapFields_setField]
      exact ih (fun p hp => h p (List.mem_cons_of_mem _ hp)) _

theorem denote_mapNumbers (f : ℚ → ℚ) (x : Json) :
    denote (mapNumbers f x) = mapNumbers f (denote x) := by
  induction x using Json.induct with
  | arr xs ih =>
      simp only [mapNumbers, denote, mapElements_eq_map, denoteElements_eq_map,
        List.map_map, arr.injEq]
      exact List.map_congr_left ih
  | obj fs ih =>
      rw [mapNumbers, denote, denote, mapNumbers]
      exact congrArg obj (denoteFields_mapFields ih [])
  | _ => rfl

theorem denoteFields_of_sorted (hsorted : fs.Pairwise (·.1 < ·.1)) (h : ∀ p ∈ fs, denote p.2 = p.2)
    {acc : List (String × Json)} (hacc : ∀ a ∈ acc, ∀ p ∈ fs, a.1 < p.1) :
    denoteFields acc fs = acc ++ fs := by
  induction fs generalizing acc with
  | nil => simp [denoteFields]
  | cons p fs ih =>
      obtain ⟨k, x⟩ := p
      obtain ⟨hlt, hfs⟩ := List.pairwise_cons.1 hsorted
      rw [denoteFields, h (k, x) List.mem_cons_self,
        setField_of_lt x fun a ha => hacc a ha _ List.mem_cons_self,
        ih hfs fun p hp => h p (List.mem_cons_of_mem _ hp)]
      · simp
      · intro a ha p hp
        rcases List.mem_append.1 ha with ha | ha
        · exact hacc a ha p (List.mem_cons_of_mem _ hp)
        · rw [List.mem_singleton.1 ha]
          exact hlt p hp

theorem denote_of_canonical (x : Json) (hx : Canonical x) : denote x = x := by
  induction x using Json.induct with
  | arr xs ih =>
      rw [denote, denoteElements_eq_map, arr.injEq]
      exact map_eq_self_iff.2 fun x hmem => ih x hmem (canonicalList_iff.1 hx x hmem)
  | obj fs ih =>
      rw [denote, denoteFields_of_sorted hx.sorted (fun p hp => ih p hp (hx.field hp)) (by simp)]
      rfl
  | _ => rfl

theorem decodeElements_eq {xs : List Json}
    (h : ∀ x ∈ xs, decode x = some (mapNumbers nearest (denote x))) :
    decodeElements xs = some (mapElements nearest (denoteElements xs)) := by
  induction xs with
  | nil => rfl
  | cons x xs ih =>
      rw [decodeElements, h x List.mem_cons_self, ih fun y hy => h y (List.mem_cons_of_mem _ hy)]
      rfl

theorem decodeFields_eq (h : ∀ p ∈ fs, decode p.2 = some (mapNumbers nearest (denote p.2)))
    (acc : List (String × Json)) :
    decodeFields (mapFields nearest acc) fs = some (mapFields nearest (denoteFields acc fs)) := by
  induction fs generalizing acc with
  | nil => rfl
  | cons p fs ih =>
      obtain ⟨k, x⟩ := p
      rw [decodeFields, h (k, x) List.mem_cons_self, Option.bind_eq_bind, Option.bind_some,
        ← mapFields_setField, denoteFields]
      exact ih (fun p hp => h p (List.mem_cons_of_mem _ hp)) _

/-- **Decoding rounds.** A document without numbers that are too large is decoded to its value, with
the numbers rounded. -/
theorem decode_eq (x : Json) (hx : ∀ q ∈ numbers x, (toFloat64 q).isSome = true) :
    decode x = some (mapNumbers nearest (denote x)) := by
  induction x using Json.induct with
  | num q =>
      obtain ⟨r, hr⟩ := Option.isSome_iff_exists.1 (hx q List.mem_cons_self)
      simp [decode, denote, mapNumbers, nearest, hr]
  | arr xs ih =>
      have hxs : ∀ x ∈ xs, decode x = some (mapNumbers nearest (denote x)) := by
        intro x hmem
        exact ih x hmem fun q hq => hx q (mem_elementNumbers.2 ⟨x, hmem, hq⟩)
      rw [decode, decodeElements_eq hxs]
      rfl
  | obj fs ih =>
      have hfs : ∀ p ∈ fs, decode p.2 = some (mapNumbers nearest (denote p.2)) := by
        intro p hp
        exact ih p hp fun q hq => hx q (mem_fieldNumbers.2 ⟨p, hp, hq⟩)
      have hnil := decodeFields_eq hfs []
      rw [mapFields] at hnil
      rw [decode, hnil]
      rfl
  | _ => rfl

/-- **What is written denotes** the value of the document with every number rounded and written
back. -/
theorem denote_asWritten {x y : Json} (hx : ∀ q ∈ numbers x, (toFloat64 q).isSome = true)
    (hy : decode x = some y) : denote (asWritten y) = mapNumbers (written ∘ nearest)
      (denote x) := by
  have heq : y = mapNumbers nearest (denote x) := Option.some.inj (hy.symm.trans (decode_eq x hx))
  rw [asWritten, denote_mapNumbers, denote_of_canonical y (canonical_of_decode hy), heq,
    mapNumbers_mapNumbers]

/-! ## Integers -/

/-- The rounded number of units in the last place. -/
theorem abs_roundEven_ulp (q : ℚ) : |roundEven (q / (2 : ℚ) ^ ulpExp q)| ≤ 2 ^ 53 := by
  have hpos : (0 : ℚ) < (2 : ℚ) ^ ulpExp q := zpow_pos (by norm_num) _
  refine abs_roundEven_le ?_
  rw [abs_div, abs_of_pos hpos, div_lt_iff₀ hpos]
  have hlt := abs_lt_two_pow_ulpExp q
  rw [zpow_add₀ (by norm_num), mul_comm] at hlt
  exact_mod_cast hlt

/-- The unit in the last place of a number with few binary digits before the point. -/
theorem ulpExp_le (h0 : q ≠ 0) {k : ℤ} (hk : -1074 ≤ k) (hlt : |q| < 2 ^ (k + 53)) :
    ulpExp q ≤ k := by
  have hlog : Int.log 2 |q| < k + 53 := by
    rw [← Int.lt_zpow_iff_log_lt (by norm_num) (abs_pos.2 h0)]
    exact_mod_cast hlt
  unfold ulpExp
  omega

theorem toFloat64_isSome (hq : |q| ≤ 2 ^ 64) : (toFloat64 q).isSome = true := by
  by_cases h0 : q = 0
  · simp [toFloat64, h0]
  have hulp : ulpExp q ≤ 12 := ulpExp_le h0 (by norm_num) (hq.trans_lt (by norm_num))
  refine Option.isSome_iff_exists.2 ⟨_, (toFloat64_eq_some h0).2 ⟨rfl, ?_⟩⟩
  have hm : ((|roundEven (q / (2 : ℚ) ^ ulpExp q)| : ℤ) : ℚ) ≤ 2 ^ 53 := by
    exact_mod_cast abs_roundEven_ulp q
  have hunit : (0 : ℚ) < (2 : ℚ) ^ ulpExp q := zpow_pos (by norm_num) _
  have hpow : (2 : ℚ) ^ ulpExp q ≤ 2 ^ (12 : ℤ) := zpow_le_zpow_right₀ (by norm_num) hulp
  calc |(roundEven (q / (2 : ℚ) ^ ulpExp q) : ℚ) * (2 : ℚ) ^ ulpExp q|
      = ((|roundEven (q / (2 : ℚ) ^ ulpExp q)| : ℤ) : ℚ) * (2 : ℚ) ^ ulpExp q := by
        rw [abs_mul, abs_of_pos hunit]
        norm_cast
    _ ≤ 2 ^ 53 * 2 ^ (12 : ℤ) := mul_le_mul hm hpow hunit.le (by norm_num)
    _ = 2 ^ (65 : ℤ) := by norm_num
    _ < 2 ^ (1024 : ℤ) := zpow_lt_zpow_right₀ (by norm_num) (by norm_num)

theorem toFloat64_intCast {n : ℤ} (hn : |n| < 2 ^ 53) : toFloat64 (n : ℚ) = some (n : ℚ) := by
  by_cases h0 : n = 0
  · simp [toFloat64, h0]
  have habs : |(n : ℚ)| < 2 ^ (53 : ℤ) := by
    rw [← Int.cast_abs]
    exact_mod_cast hn
  have hulp : ulpExp n ≤ 0 := ulpExp_le (Int.cast_ne_zero.2 h0) (by norm_num) habs
  obtain ⟨k, hk⟩ := Int.eq_ofNat_of_zero_le (neg_nonneg.2 hulp)
  refine toFloat64_of_multiple (m := n * 2 ^ k) ?_
    (habs.trans (zpow_lt_zpow_right₀ (by norm_num) (by norm_num)))
  rw [← neg_neg (ulpExp n), hk]
  push_cast
  rw [zpow_neg, zpow_natCast, mul_assoc, mul_inv_cancel₀ (by positivity), mul_one]

theorem toFloat64_natCast (hn : n < 2 ^ 53) : toFloat64 (n : ℚ) = some (n : ℚ) := by
  have hint := toFloat64_intCast (n := n) (by rw [Nat.abs_cast]; exact_mod_cast hn)
  exact_mod_cast hint

/-- Nothing from `2 ^ 53` on is rounded below it. -/
theorem le_of_toFloat64 {p r : ℚ} (hp : 2 ^ 53 ≤ p) (h : toFloat64 p = some r) : 2 ^ 53 ≤ r := by
  have hpos : 0 < p := lt_of_lt_of_le (by norm_num) hp
  obtain ⟨hr, -⟩ := (toFloat64_eq_some hpos.ne').1 h
  have hlog : 53 ≤ Int.log 2 |p| := by
    rw [← Int.zpow_le_iff_le_log (by norm_num) (abs_pos.2 hpos.ne'), abs_of_pos hpos]
    exact_mod_cast hp
  have hulp : ulpExp p = Int.log 2 |p| - 52 := by
    unfold ulpExp
    omega
  have hunit : (0 : ℚ) < (2 : ℚ) ^ ulpExp p := zpow_pos (by norm_num) _
  -- at least `2 ^ 52` units, each of them at least two
  have hm : (2 : ℤ) ^ 52 ≤ roundEven (p / (2 : ℚ) ^ ulpExp p) := by
    have hfloor : (2 : ℤ) ^ 52 ≤ ⌊p / (2 : ℚ) ^ ulpExp p⌋ := by
      rw [Int.le_floor, le_div_iff₀ hunit]
      have hself : ((2 : ℕ) : ℚ) ^ Int.log 2 |p| ≤ |p| :=
        Int.zpow_log_le_self (by norm_num) (abs_pos.2 hpos.ne')
      rw [abs_of_pos hpos] at hself hulp
      have hsplit : Int.log 2 p = 52 + ulpExp p := by omega
      rw [hsplit, Nat.cast_ofNat, zpow_add₀ (by norm_num)] at hself
      exact_mod_cast hself
    rcases roundEven_cases (p / (2 : ℚ) ^ ulpExp p) with heq | heq <;> omega
  have htwo : (2 : ℚ) ≤ (2 : ℚ) ^ ulpExp p := by
    have := zpow_le_zpow_right₀ (show (1 : ℚ) ≤ 2 by norm_num) (show 1 ≤ ulpExp p by omega)
    simpa using this
  have hm' : (2 : ℚ) ^ 52 ≤ roundEven (p / (2 : ℚ) ^ ulpExp p) := by exact_mod_cast hm
  calc (2 : ℚ) ^ 53 = 2 ^ 52 * 2 := by norm_num
    _ ≤ roundEven (p / (2 : ℚ) ^ ulpExp p) * (2 : ℚ) ^ ulpExp p :=
        mul_le_mul hm' htwo (by norm_num) (le_trans (by norm_num) hm')
    _ = r := hr

theorem mem_decimalsOf_digits (n : ℕ) : (n, 0) ∈ decimalsOf n (Nat.log 10 n + 1) := by
  have he : Int.log 10 (n : ℚ) - (((Nat.log 10 n + 1 : ℕ) : ℤ) - 1) = 0 := by
    rw [Int.log_natCast]
    push_cast
    omega
  have hround : roundEven (n : ℚ) = n := roundEven_intCast n
  simp [decimalsOf, hround]

theorem exponent_of_mem_decimalsOf {d : ℕ × ℤ} (hd : d ∈ decimalsOf q n) :
    d.2 = Int.log 10 q - (n - 1) := by
  simp only [decimalsOf, List.mem_cons, List.not_mem_nil, or_false] at hd
  rcases hd with rfl | rfl <;> rfl

/-- If a decimal with `n` digits reads back, the shortest one has no more. -/
theorem exists_shortestDecimal (hn : 1 ≤ n ∧ n ≤ 17) {d : ℕ × ℤ} (hd : d ∈ decimalsOf q n)
    (hreads : readsBack q d = true) :
    ∃ k ≤ n, shortestDecimal q ∈ decimalsOf q k ∧ readsBack q (shortestDecimal q) = true := by
  have hmem : n ∈ List.range' 1 17 := by
    simp only [List.mem_range'_1]
    omega
  have hfound : (decimalsOf q n).find? (readsBack q) ≠ none := by
    intro hnone
    exact absurd hreads (List.find?_eq_none.1 hnone d hd)
  rw [shortestDecimal]
  cases hfirst : (List.range' 1 17).findSome? fun n => (decimalsOf q n).find? (readsBack q) with
  | none => exact absurd (List.findSome?_eq_none_iff.1 hfirst n hmem) hfound
  | some first =>
      obtain ⟨before, k, after, hrange, hk, hbefore⟩ := List.findSome?_eq_some_iff.1 hfirst
      refine ⟨k, ?_, List.mem_of_find?_eq_some hk, List.find?_some hk⟩
      -- the lengths before `k` have no such decimal
      have hsorted := List.pairwise_lt_range' (s := 1) (n := 17)
      rw [hrange] at hmem hsorted
      rcases List.mem_append.1 hmem with hless | hmore
      · exact absurd (hbefore n hless) hfound
      · rcases List.mem_cons.1 hmore with rfl | hafter
        · exact le_rfl
        · exact (List.rel_of_pairwise_cons (List.pairwise_append.1 hsorted).2.1 hafter).le

/-- The shortest decimal of an integer below `2 ^ 53` is the integer: as long as it has no more
digits, a decimal is an integer itself, and two integers do not round to the same `float64`. -/
theorem decimalValue_natCast (hn : 0 < n) (hlt : n < 2 ^ 53) : decimalValue (n : ℚ) = n := by
  have hself : toFloat64 (n : ℚ) = some (n : ℚ) := toFloat64_natCast hlt
  have hdigits : Nat.log 10 n < 16 := Nat.log_lt_of_lt_pow hn.ne' (hlt.trans (by norm_num))
  have hreads : readsBack n (n, 0) = true := by simp [readsBack, hself]
  obtain ⟨k, hle, hk, hshortest⟩ :=
    exists_shortestDecimal (by omega) (mem_decimalsOf_digits n) hreads
  rw [decimalValue, decimal, stripZeros_value]
  generalize shortestDecimal (n : ℚ) = d at hk hshortest
  have hfloat := of_decide_eq_true hshortest
  -- with so few digits the exponent is not negative
  obtain ⟨e, he⟩ := Int.eq_ofNat_of_zero_le (show 0 ≤ d.2 by
    rw [exponent_of_mem_decimalsOf hk, Int.log_natCast]
    omega)
  simp only [he, zpow_natCast] at hfloat ⊢
  have hcast : (d.1 : ℚ) * (10 : ℚ) ^ e = ((d.1 * 10 ^ e : ℕ) : ℚ) := by push_cast; rfl
  rw [hcast] at hfloat ⊢
  by_cases hsmall : d.1 * 10 ^ e < 2 ^ 53
  · rw [toFloat64_natCast hsmall] at hfloat
    exact Option.some.inj hfloat
  · have hge := le_of_toFloat64 (by exact_mod_cast not_lt.1 hsmall) hfloat
    exact absurd (show 2 ^ 53 ≤ n by exact_mod_cast hge) (not_le.2 hlt)

theorem written_neg (q : ℚ) : written (-q) = -written q := by
  rcases lt_trichotomy q 0 with hneg | rfl | hpos
  · simp [written, hneg, hneg.ne, hneg.le, not_lt]
  · simp [written]
  · simp [written, hpos, hpos.ne', hpos.le, not_lt]

theorem written_natCast (hlt : n < 2 ^ 53) : written (n : ℚ) = n := by
  by_cases h0 : n = 0
  · simp [written, h0]
  · have hneg : ¬ (n : ℚ) < 0 := not_lt.2 (Nat.cast_nonneg n)
    rw [written, if_neg (Nat.cast_ne_zero.2 h0), if_neg hneg]
    exact decimalValue_natCast (Nat.pos_of_ne_zero h0) hlt

/-- **Small integers are kept.** -/
theorem kept_of_lt {n : ℤ} (hn : |n| < 2 ^ 53) : Kept (n : ℚ) := by
  have hwritten : written (n : ℚ) = n := by
    obtain ⟨k, rfl | rfl⟩ := n.eq_nat_or_neg
    · exact_mod_cast written_natCast (by simpa using hn)
    · rw [Int.cast_neg, written_neg, Int.cast_natCast, written_natCast (by simpa using hn)]
  rw [Kept, nearest, toFloat64_intCast hn, Option.getD_some, hwritten]

end Json

namespace Ingestion

open Json

/-! ## Specs -/

/-- The spec a user wrote: the native one, or the text if there is none. -/
def specText (di : DruidIngestion) : String :=
  if di.ingestion.nativeSpec.isSet then di.ingestion.nativeSpec.raw else di.ingestion.spec

/-- An integer in the range of 64 bits with a sign. -/
def IsInt64 (q : ℚ) : Prop := ∃ n : ℤ, q = n ∧ -2 ^ 63 ≤ n ∧ n < 2 ^ 63

theorem IsInt64.toFloat64_isSome (hq : IsInt64 q) : (toFloat64 q).isSome = true := by
  obtain ⟨n, rfl, hlo, hhi⟩ := hq
  have habs : |n| ≤ 2 ^ 64 := abs_le.2 ⟨by omega, by omega⟩
  refine Json.toFloat64_isSome ?_
  rw [← Int.cast_abs]
  exact_mod_cast habs

/-- A spec that can be read is the one that `getSpec` takes. -/
theorem getSpec_of_specText {di : DruidIngestion} {x : Json}
    (h : unmarshalMap (specText di) = some x) :
    getSpec di = .ok x := by
  unfold specText at h
  unfold getSpec
  split_ifs at h ⊢ with hnative hspec
  · rw [h]
  · rw [h]
  · rw [not_not] at hspec
    rw [hspec] at h
    cases h

/-- **The spec is submitted unchanged.** For a spec whose numbers are integers of 64 bits, the text
that is submitted and remembered denotes the same value exactly if every number in it is the
shortest decimal of the `float64` nearest to it. -/
theorem spec_unchanged_iff {di : DruidIngestion} {fs : List (String × Json)}
    (hspec : parse (specText di) = some (.obj fs)) (hint : ∀ q ∈ numbers (.obj fs), IsInt64 q) :
    (∃ text doc, getSpecJson di = .ok text ∧ parse text = some doc ∧
      denote doc = denote (.obj fs)) ↔
      ∀ q ∈ numbers (denote (.obj fs)), Kept q := by
  have hfloat : ∀ q ∈ numbers (.obj fs), (toFloat64 q).isSome = true := fun q hq =>
    (hint q hq).toFloat64_isSome
  have hdecode := decode_eq (.obj fs) hfloat
  have hread : unmarshal (specText di) = some (mapNumbers nearest (denote (.obj fs))) := by
    rw [unmarshal, hspec, Option.bind_some, hdecode]
  have hmap : unmarshalMap (specText di) = some (mapNumbers nearest (denote (.obj fs))) := by
    rw [unmarshalMap, hread]
    rfl
  have htext : getSpecJson di = .ok (toJsonString (mapNumbers nearest (denote (.obj fs)))) := by
    rw [getSpecJson, getSpec_of_specText hmap]
    rfl
  have hparse := parse_toJsonString (canonical_of_decode hdecode)
  rw [← written_nearest_iff, ← denote_asWritten hfloat hdecode]
  constructor
  · rintro ⟨text, doc, hget, hdoc, hsame⟩
    rw [htext] at hget
    cases hget
    rw [hparse] at hdoc
    cases hdoc
    exact hsame
  · intro hsame
    exact ⟨_, _, htext, hparse, hsame⟩

/-- A spec with one number in it. -/
def numberedWiki (digits : String) : DruidIngestion :=
  { wiki with ingestion := { spec := "\x7b\"n\":" ++ digits ++ "\x7d" } }

theorem spec_unchanged_small : ∃ text doc, getSpecJson (numberedWiki "-1500000000000") = .ok text ∧
    parse text = some doc ∧ denote doc = denote (.obj [("n", .num (-1500000000000))]) := by
  have hspec : parse (specText (numberedWiki "-1500000000000")) =
      some (.obj [("n", .num (-1500000000000))]) := by decide +kernel
  have hnum : ∀ q ∈ [(-1500000000000 : ℚ)], q = ((-1500000000000 : ℤ) : ℚ) := by simp
  refine (spec_unchanged_iff hspec fun q hq => ?_).2 fun q hq => ?_
  · exact ⟨-1500000000000, hnum q hq, by norm_num, by norm_num⟩
  · rw [hnum q hq]
    exact kept_of_lt (by norm_num)

/-- The first integer that is no `float64` is submitted as its neighbour; and a power of two is
submitted with zeros for its last digits. -/
theorem large_integers_change :
    getSpecJson (numberedWiki "9007199254740993") = .ok "\x7b\"n\":9007199254740992\x7d" ∧
    getSpecJson (numberedWiki "4611686018427387904") = .ok "\x7b\"n\":4611686018427388000\x7d" ∧
    parse (specText (numberedWiki "9007199254740993")) = some
      (.obj [("n", .num 9007199254740993)]) ∧
    parse "\x7b\"n\":9007199254740992\x7d" = some (.obj [("n", .num 9007199254740992)]) ∧
    denote (.obj [("n", .num 9007199254740992)]) ≠ denote
      (.obj [("n", .num 9007199254740993)]) := by
  decide +kernel

end Ingestion

end DruidOperator
