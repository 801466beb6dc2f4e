import Mathlib.Data.Rat.Floor
import Mathlib.Data.Int.Log

/-!
# `encoding/json`: values and their texts

What the operator uses of Go's `encoding/json`. A text is first *parsed* into a document, which
keeps the fields of an object in the order they are written and numbers exactly as written.
`Unmarshal` into an `interface{}` then makes a value of it: a repeated key keeps its last
occurrence, keys are held in order, and every number becomes a `float64`.

A value with its keys in order is a canonical form, so `reflect.DeepEqual` on decoded values is
equality of `Json`, and `Marshal`, which writes the keys of a map in order, just walks it.

A `float64` is represented by the rational it stands for, so that `-0`, which `Marshal` writes with
its sign, is `0` here. `DeepEqual` does not tell the two apart either.
-/

namespace DruidOperator

/-- A JSON document, or the value decoded from one. -/
inductive Json where
  | null
  | bool (b : Bool)
  | num (q : ℚ)
  | str (s : String)
  | arr (xs : List Json)
  | obj (fields : List (String × Json))

namespace Json

/-! ## Equality -/

mutual

/-- `reflect.DeepEqual` on decoded values. -/
def beq : Json → Json → Bool
  | .null, .null => true
  | .bool a, .bool b => a == b
  | .num p, .num q => p == q
  | .str s, .str t => s == t
  | .arr xs, .arr ys => beqList xs ys
  | .obj fs, .obj gs => beqFields fs gs
  | _, _ => false

def beqList : List Json → List Json → Bool
  | [], [] => true
  | x :: xs, y :: ys => beq x y && beqList xs ys
  | _, _ => false

def beqFields : List (String × Json) → List (String × Json) → Bool
  | [], [] => true
  | (k, x) :: fs, (l, y) :: gs => k == l && beq x y && beqFields fs gs
  | _, _ => false

end

mutual

theorem eq_of_beq : ∀ {a b : Json}, beq a b = true → a = b
  | .null, .null, _ => rfl
  | .bool a, .bool b, h => by simpa [beq] using h
  | .num p, .num q, h => by simpa [beq] using h
  | .str s, .str t, h => by simpa [beq] using h
  | .arr xs, .arr ys, h => by rw [@eq_of_beqList xs ys (by simpa [beq] using h)]
  | .obj fs, .obj gs, h => by
      rw [@eq_of_beqFields fs gs (by simpa [beq] using h)]

theorem eq_of_beqList : ∀ {xs ys : List Json}, beqList xs ys = true → xs = ys
  | [], [], _ => rfl
  | x :: xs, y :: ys, h => by
      simp only [beqList, Bool.and_eq_true] at h
      rw [eq_of_beq h.1, eq_of_beqList h.2]

theorem eq_of_beqFields : ∀ {fs gs : List (String × Json)}, beqFields fs gs = true → fs = gs
  | [], [], _ => rfl
  | (k, x) :: fs, (l, y) :: gs, h => by
      simp only [beqFields, Bool.and_eq_true, beq_iff_eq] at h
      rw [h.1.1, eq_of_beq h.1.2, eq_of_beqFields h.2]

end

mutual

theorem beq_self : ∀ a : Json, beq a a = true
  | .null => rfl
  | .bool a => by simp [beq]
  | .num q => by simp [beq]
  | .str s => by simp [beq]
  | .arr xs => by simp [beq, beqList_self xs]
  | .obj fs => by simp [beq, beqFields_self fs]

theorem beqList_self : ∀ xs : List Json, beqList xs xs = true
  | [] => rfl
  | x :: xs => by simp [beqList, beq_self x, beqList_self xs]

theorem beqFields_self : ∀ fs : List (String × Json), beqFields fs fs = true
  | [] => rfl
  | (k, x) :: fs => by simp [beqFields, beq_self x, beqFields_self fs]

end

instance : DecidableEq Json := fun a b =>
  decidable_of_iff (beq a b = true) ⟨eq_of_beq, fun h => h ▸ beq_self a⟩

/-! ## Reading a text -/

def isSpace (c : Char) : Bool := c == ' ' || c == '\t' || c == '\n' || c == '\r'

def skipSpace (cs : List Char) : List Char := cs.dropWhile isSpace

def hexDigit (c : Char) : Option Nat :=
  if '0' ≤ c ∧ c ≤ '9' then some (c.toNat - '0'.toNat)
  else if 'a' ≤ c ∧ c ≤ 'f' then some (c.toNat - 'a'.toNat + 10)
  else if 'A' ≤ c ∧ c ≤ 'F' then some (c.toNat - 'A'.toNat + 10)
  else none

def hex4 (a b c d : Char) : Option Nat := do
  let a ← hexDigit a
  let b ← hexDigit b
  let c ← hexDigit c
  let d ← hexDigit d
  return 4096 * a + 256 * b + 16 * c + d

/-- A `\uXXXX` escape that is half of a surrogate pair stands for U+FFFD on its own. -/
def escapedChar (n : Nat) : Char :=
  if 0xD800 ≤ n ∧ n ≤ 0xDFFF then '�' else Char.ofNat n

def isSurrogatePair (hi lo : Nat) : Bool :=
  decide (0xD800 ≤ hi ∧ hi < 0xDC00 ∧ 0xDC00 ≤ lo ∧ lo ≤ 0xDFFF)

/-- What stands between the quotes of a string literal: characters, and the code units of
`\uXXXX` escapes. -/
inductive Piece where
  | char (c : Char)
  | unit (n : Nat)

def unescape (c : Char) : Option Char :=
  if c = '"' ∨ c = '\\' ∨ c = '/' then some c
  else if c = 'b' then some '\x08'
  else if c = 'f' then some '\x0c'
  else if c = 'n' then some '\n'
  else if c = 'r' then some '\r'
  else if c = 't' then some '\t'
  else none

/-- The rest of a string literal, after its opening quote. -/
def parsePieces : List Char → Option (List Piece × List Char)
  | [] => none
  | c :: cs =>
      if c = '"' then some ([], cs)
      else if c = '\\' then
        match cs with
        | [] => none
        | e :: cs =>
            if e = 'u' then
              match cs with
              | h₁ :: h₂ :: h₃ :: h₄ :: cs => do
                  let n ← hex4 h₁ h₂ h₃ h₄
                  let (ps, rest) ← parsePieces cs
                  return (.unit n :: ps, rest)
              | _ => none
            else do
              let x ← unescape e
              let (ps, rest) ← parsePieces cs
              return (.char x :: ps, rest)
      -- a control character must be escaped
      else if c.toNat < 0x20 then none
      else do
        let (ps, rest) ← parsePieces cs
        return (.char c :: ps, rest)

/-- Join the two halves of a surrogate pair; a half on its own stands for U+FFFD. -/
def joinPieces : List Piece → List Char
  | [] => []
  | .char c :: ps => c :: joinPieces ps
  | .unit hi :: .unit lo :: ps =>
      if isSurrogatePair hi lo then
        Char.ofNat (0x10000 + (hi - 0xD800) * 1024 + (lo - 0xDC00)) :: joinPieces ps
      else escapedChar hi :: joinPieces (.unit lo :: ps)
  | .unit n :: ps => escapedChar n :: joinPieces ps

def parseString (cs : List Char) : Option (String × List Char) :=
  (parsePieces cs).map fun (ps, rest) => (String.ofList (joinPieces ps), rest)

def takeDigits (cs : List Char) : List Char × List Char :=
  (cs.takeWhile Char.isDigit, cs.dropWhile Char.isDigit)

def digitsValue (ds : List Char) : ℕ := Nat.ofDigitChars 10 ds 0

/-- The optional fraction of a number: its digits. -/
def parseFrac (cs : List Char) : Option (List Char × List Char) :=
  match cs with
  | [] => some ([], [])
  | c :: ds =>
      if c = '.' then
        let (frac, rest) := takeDigits ds
        if frac = [] then none else some (frac, rest)
      else some ([], c :: ds)

/-- The sign of an exponent. -/
def parseSign (cs : List Char) : ℤ × List Char :=
  match cs with
  | [] => (1, [])
  | c :: ds => if c = '-' then (-1, ds) else if c = '+' then (1, ds) else (1, c :: ds)

/-- The optional exponent of a number. -/
def parseExp (cs : List Char) : Option (ℤ × List Char) :=
  match cs with
  | [] => some (0, [])
  | c :: ds =>
      if c = 'e' ∨ c = 'E' then
        let (sign, ds) := parseSign ds
        let (exp, rest) := takeDigits ds
        if exp = [] then none else some (sign * digitsValue exp, rest)
      else some (0, c :: ds)

/-- A number literal without its sign, exactly as written: an integer part without leading
zeros, then an optional fraction and an optional exponent. -/
def parseUnsigned (cs : List Char) : Option (ℚ × List Char) := do
  let (int, cs) := takeDigits cs
  if int = [] ∨ (int.head? = some '0' ∧ int.length ≠ 1) then none else
  let (frac, cs) ← parseFrac cs
  let (exp, cs) ← parseExp cs
  return (digitsValue (int ++ frac) * (10 : ℚ) ^ (exp - frac.length), cs)

def parseNumber (cs : List Char) : Option (ℚ × List Char) :=
  match cs with
  | [] => none
  | c :: ds =>
      if c = '-' then (parseUnsigned ds).map fun (q, rest) => (-q, rest)
      else parseUnsigned (c :: ds)

/-- Drop the characters `w`, which the text must go on with. -/
def expect (w cs : List Char) : Option (List Char) :=
  if w.isPrefixOf cs then some (cs.drop w.length) else none

mutual

/-- One value. The fuel bounds the nesting and the number of elements; the length of the text
is always enough of it. -/
def parseValue : Nat → List Char → Option (Json × List Char)
  | 0, _ => none
  | fuel + 1, cs =>
      match skipSpace cs with
      | [] => none
      | c :: cs =>
          if c = '"' then (parseString cs).map fun (s, rest) => (.str s, rest)
          else if c = '[' then
            match skipSpace cs with
            | [] => none
            | d :: ds =>
                if d = ']' then some (.arr [], ds)
                else (parseElements fuel (d :: ds)).map fun (xs, rest) => (.arr xs, rest)
          else if c = '\x7b' then
            match skipSpace cs with
            | [] => none
            | d :: ds =>
                if d = '\x7d' then some (.obj [], ds)
                else (parseFields fuel (d :: ds)).map fun (fs, rest) => (.obj fs, rest)
          else if c = 'n' then (expect ['u', 'l', 'l'] cs).map fun rest => (.null, rest)
          else if c = 't' then (expect ['r', 'u', 'e'] cs).map fun rest => (.bool true, rest)
          else if c = 'f' then
            (expect ['a', 'l', 's', 'e'] cs).map fun rest => (.bool false, rest)
          else (parseNumber (c :: cs)).map fun (q, rest) => (.num q, rest)

def parseElements : Nat → List Char → Option (List Json × List Char)
  | 0, _ => none
  | fuel + 1, cs => do
      let (x, cs) ← parseValue fuel cs
      match skipSpace cs with
      | [] => none
      | c :: cs =>
          if c = ']' then return ([x], cs)
          else if c = ',' then
            let (xs, cs) ← parseElements fuel cs
            return (x :: xs, cs)
          else none

def parseFields : Nat → List Char → Option (List (String × Json) × List Char)
  | 0, _ => none
  | fuel + 1, cs => do
      let cs ← expect ['"'] (skipSpace cs)
      let (k, cs) ← parseString cs
      let cs ← expect [':'] (skipSpace cs)
      let (x, cs) ← parseValue fuel cs
      match skipSpace cs with
      | [] => none
      | c :: cs =>
          if c = '\x7d' then return ([(k, x)], cs)
          else if c = ',' then
            let (fs, cs) ← parseFields fuel cs
            return ((k, x) :: fs, cs)
          else none

end

/-- The document a text holds, if it holds exactly one. -/
def parse (text : String) : Option Json :=
  match parseValue (2 * text.length + 1) text.toList with
  | some (x, rest) => if skipSpace rest = [] then some x else none
  | none => none

/-! ## `float64` -/

/-- Round to an integer, ties to even. -/
def roundEven (q : ℚ) : ℤ :=
  let f := ⌊q⌋
  let d := q - f
  if d < 1 / 2 then f
  else if 1 / 2 < d then f + 1
  else if f % 2 = 0 then f else f + 1

/-- The `float64` nearest to a number, ties to even; `none` where it overflows. -/
def toFloat64 (q : ℚ) : Option ℚ :=
  if q = 0 then some 0 else
  -- the weight of the last of 53 bits, no less than that of a subnormal
  let e : ℤ := max (Int.log 2 |q| - 52) (-1074)
  let r : ℚ := roundEven (q / (2 : ℚ) ^ e) * (2 : ℚ) ^ e
  if (2 : ℚ) ^ (1024 : ℤ) ≤ |r| then none else some r

/-- The numbers next to `q` with `n` significant decimal digits, as `d * 10 ^ e`, the nearest
first. -/
def decimalsOf (q : ℚ) (n : Nat) : List (ℕ × ℤ) :=
  let e : ℤ := Int.log 10 q - (n - 1)
  let x := q / (10 : ℚ) ^ e
  let far := if roundEven x = ⌊x⌋ then ⌊x⌋ + 1 else ⌊x⌋
  [((roundEven x).toNat, e), (far.toNat, e)]

def readsBack (q : ℚ) (d : ℕ × ℤ) : Bool := decide (toFloat64 (d.1 * (10 : ℚ) ^ d.2) = some q)

/-- The shortest decimal that reads back as the positive `float64` `q`, and of the shortest the
nearest. Next to a power of two the nearest decimal of a length may be the one that does not read
back. Seventeen digits always do; the expansion of `q` itself, which ends after at most 1074 places,
stands in for a proof of that. -/
def shortestDecimal (q : ℚ) : ℕ × ℤ :=
  match (List.range' 1 17).findSome? fun n => (decimalsOf q n).find? (readsBack q) with
  | some d => d
  | none => (⌊q * (10 : ℚ) ^ (1074 : ℤ)⌋.toNat, -1074)

def stripZeros : Nat → ℕ → ℤ → ℕ × ℤ
  | 0, d, e => (d, e)
  | fuel + 1, d, e => if d % 10 = 0 ∧ d ≠ 0 then stripZeros fuel (d / 10) (e + 1) else (d, e)

/-- `strconv.AppendFloat(_, q, 'f', -1, 64)` on a positive number. -/
def formatFixed (d : ℕ) (e : ℤ) : List Char :=
  let ds := Nat.toDigits 10 d
  if 0 ≤ e then ds ++ List.replicate e.toNat '0'
  else
    let k := (-e).toNat
    if k < ds.length then ds.take (ds.length - k) ++ '.' :: ds.drop (ds.length - k)
    else '0' :: '.' :: List.replicate (k - ds.length) '0' ++ ds

/-- `strconv.AppendFloat(_, q, 'e', -1, 64)` on a positive number, with `e-09` cleaned up to
`e-9`. -/
def formatExp (d : ℕ) (e : ℤ) : List Char :=
  let ds := Nat.toDigits 10 d
  let x : ℤ := e + (ds.length - 1)
  let mantissa := match ds with
    | [] => []
    | [c] => [c]
    | c :: cs => c :: '.' :: cs
  let xs := Nat.toDigits 10 x.natAbs
  let xs := if x < 0 ∨ 2 ≤ xs.length then xs else '0' :: xs
  mantissa ++ 'e' :: (if x < 0 then '-' else '+') :: xs

/-- The shortest decimal without trailing zeros. -/
def decimal (q : ℚ) : ℕ × ℤ := stripZeros 20 (shortestDecimal q).1 (shortestDecimal q).2

/-- The `float64` of the constant `1e-6`, which is a little less. -/
def micro : ℚ := 4722366482869645 / 2 ^ 72

example : toFloat64 (1 / 1000000) = some micro := by decide +kernel

/-- A positive `float64`. -/
def formatPositive (q : ℚ) : List Char :=
  if q < micro ∨ (10 : ℚ) ^ 21 ≤ q then formatExp (decimal q).1 (decimal q).2
  else formatFixed (decimal q).1 (decimal q).2

def formatFloat (q : ℚ) : List Char :=
  if q = 0 then ['0'] else if q < 0 then '-' :: formatPositive (-q) else formatPositive q

example : formatFloat micro = "0.000001".toList := by decide +kernel

-- a power of two: the decimal that ends in 801 is nearer, but reads back as another number
example : formatFloat (1 / 2 ^ 44) = "5.684341886080802e-14".toList := by decide +kernel

/-! ## Writing a text -/

def hexChar (n : Nat) : Char :=
  if n < 10 then Char.ofNat ('0'.toNat + n) else Char.ofNat ('a'.toNat + (n - 10))

/-- A character inside a string literal, with the HTML characters escaped as `Marshal` does. -/
def escapeChar (c : Char) : List Char :=
  match c with
  | '"' => ['\\', '"']
  | '\\' => ['\\', '\\']
  | '\n' => ['\\', 'n']
  | '\r' => ['\\', 'r']
  | '\t' => ['\\', 't']
  | c =>
      let n := c.toNat
      if n < 0x20 ∨ c = '<' ∨ c = '>' ∨ c = '&' ∨ n = 0x2028 ∨ n = 0x2029 then
        ['\\', 'u', hexChar (n / 4096), hexChar (n / 256 % 16), hexChar (n / 16 % 16),
          hexChar (n % 16)]
      else [c]

def marshalString (s : String) : List Char :=
  '"' :: s.toList.flatMap escapeChar ++ ['"']

mutual

/-- `json.Marshal` on a decoded value. -/
def marshalChars : Json → List Char
  | .null => ['n', 'u', 'l', 'l']
  | .bool true => ['t', 'r', 'u', 'e']
  | .bool false => ['f', 'a', 'l', 's', 'e']
  | .num q => formatFloat q
  | .str s => marshalString s
  | .arr xs => '[' :: marshalElements xs ++ [']']
  | .obj fs => '\x7b' :: marshalFields fs ++ ['\x7d']

def marshalElements : List Json → List Char
  | [] => []
  | [x] => marshalChars x
  | x :: xs => marshalChars x ++ ',' :: marshalElements xs

def marshalFields : List (String × Json) → List Char
  | [] => []
  | [(k, x)] => marshalString k ++ ':' :: marshalChars x
  | (k, x) :: fs => marshalString k ++ ':' :: marshalChars x ++ ',' :: marshalFields fs

end

/-- `util.ToJsonString`. -/
def toJsonString (x : Json) : String := String.ofList (marshalChars x)

/-! ## Decoding into an `interface{}` -/

/-- Set a key of a map whose keys are held in order. -/
def setField (k : String) (x : Json) : List (String × Json) → List (String × Json)
  | [] => [(k, x)]
  | (l, y) :: fs =>
      if k = l then (k, x) :: fs
      else if k < l then (k, x) :: (l, y) :: fs
      else (l, y) :: setField k x fs

mutual

/-- The value a document decodes to. Only a number too large for a `float64` fails. -/
def decode : Json → Option Json
  | .null => some .null
  | .bool b => some (.bool b)
  | .num q => (toFloat64 q).map .num
  | .str s => some (.str s)
  | .arr xs => (decodeElements xs).map .arr
  | .obj fs => (decodeFields [] fs).map .obj

def decodeElements : List Json → Option (List Json)
  | [] => some []
  | x :: xs => do
      let y ← decode x
      let ys ← decodeElements xs
      return y :: ys

/-- Fields are stored in the order they are written, so the last of a repeated key stays. -/
def decodeFields (acc : List (String × Json)) : List (String × Json) → Option (List (String × Json))
  | [] => some acc
  | (k, x) :: fs => do
      let y ← decode x
      decodeFields (setField k y acc) fs

end

/-- `json.Unmarshal` into an `interface{}`. -/
def unmarshal (text : String) : Option Json := (parse text).bind decode

/-- `json.Unmarshal` into a `map[string]interface{}`: an object, or `null` for the nil map. -/
def unmarshalMap (text : String) : Option Json :=
  match unmarshal text with
  | some (.obj fs) => some (.obj fs)
  | some .null => some .null
  | _ => none

/-! ## Decoding into a struct -/

/-- The folding of the names of fields: besides the two cases of a letter, U+017F stands for `s` and
U+212A, the Kelvin sign, for `k`. -/
def foldChar (c : Char) : Char :=
  if c = '\u017f' then 's' else if c = '\u212a' then 'k' else c.toLower

def foldName (s : String) : List Char := s.toList.map foldChar

example : foldName "TA\u017f\u212a" = "task".toList := by decide +kernel

/-! ## Entries -/

/-- The entries of a decoded map; the nil map has none. -/
def fields : Json → List (String × Json)
  | .obj fs => fs
  | _ => []

/-- `m[k]` of a decoded map. -/
def get? (x : Json) (k : String) : Option Json := x.fields.lookup k

theorem lookup_cons_eq {α : Type} (k : String) (x : α) (fs : List (String × α)) (l : String) :
    ((k, x) :: fs).lookup l = if l = k then some x else fs.lookup l := by
  by_cases hl : l = k
  · simp [hl]
  · simp [List.lookup_cons, beq_false_of_ne hl, hl]

theorem lookup_of_notMem {α : Type} {fs : List (String × α)} {k : String}
    (hk : k ∉ fs.map Prod.fst) : fs.lookup k = none := by
  refine List.lookup_eq_none_iff.2 fun f hf => ?_
  simp only [bne_iff_ne, ne_eq]
  intro heq
  exact hk (heq ▸ List.mem_map_of_mem hf)

theorem lookup_setField (k : String) (x : Json) (fs : List (String × Json)) (l : String) :
    (setField k x fs).lookup l = if l = k then some x else fs.lookup l := by
  induction fs with
  | nil => exact lookup_cons_eq k x [] l
  | cons f fs ih =>
      obtain ⟨k', y⟩ := f
      unfold setField
      by_cases hk : k = k'
      · subst hk
        rw [if_pos rfl, lookup_cons_eq, lookup_cons_eq]
        split_ifs <;> rfl
      · rw [if_neg hk]
        by_cases hlt : k < k'
        · rw [if_pos hlt, lookup_cons_eq]
        · rw [if_neg hlt, lookup_cons_eq, lookup_cons_eq, ih]
          by_cases hl : l = k
          · rw [if_pos hl, if_pos hl, if_neg (hl ▸ hk)]
          · rw [if_neg hl, if_neg hl]

/-- Two texts of different kinds of value differ already in their first character. -/
theorem toJsonString_arr_ne_map {xs : List Json} {x : Json}
    (hx : x = .null ∨ ∃ fs, x = .obj fs) : toJsonString (.arr xs) ≠ toJsonString x := by
  intro h
  have h' : marshalChars (.arr xs) = marshalChars x := by
    have := congrArg String.toList h
    simpa [toJsonString] using this
  rcases hx with rfl | ⟨fs, rfl⟩ <;> simp [marshalChars] at h'

theorem toJsonString_map_ne_empty {x : Json} (hx : x = .null ∨ ∃ fs, x = .obj fs) :
    toJsonString x ≠ "" := by
  intro h
  have h' : marshalChars x = [] := by
    have := congrArg String.toList h
    simpa [toJsonString] using this
  rcases hx with rfl | ⟨fs, rfl⟩ <;> simp [marshalChars] at h'

theorem unmarshalMap_cases {text : String} {x : Json} (h : unmarshalMap text = some x) :
    x = .null ∨ ∃ fs, x = .obj fs := by
  unfold unmarshalMap at h
  split at h
  · exact .inr ⟨_, (Option.some.inj h).symm⟩
  · exact .inl (Option.some.inj h).symm
  · cases h

end Json

end DruidOperator
