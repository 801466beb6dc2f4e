import DruidOperator.Basic

/-!
# `fmt.Sprintf` on strings

The loop of `fmt` over a format whose operands are all strings: flags, explicit argument indexes,
width, precision and the verb, with what is written for a directive that does not fit. A string is
the list of its characters, as the format comes out of a decoded resource.

`strconv.IsPrint`, which `%q` asks, is exact on Latin-1; beyond it every character counts as
printable.
-/

namespace DruidOperator.Fmt

/-! ## Formatting one operand -/

/-- The flags of a directive, its width and its precision. `sharpV` is `%#v`. -/
structure Flags where
  wid : Option ℕ := none
  prec : Option ℕ := none
  sharp : Bool := false
  plus : Bool := false
  minus : Bool := false
  zero : Bool := false
  space : Bool := false
  sharpV : Bool := false

namespace Flags

def isFlag (c : Char) : Bool := ['#', '0', '+', '-', ' '].contains c

def set (f : Flags) (c : Char) : Flags :=
  if c = '#' then { f with sharp := true }
  -- zeros only ever pad on the left
  else if c = '0' then { f with zero := !f.minus }
  else if c = '+' then { f with plus := true }
  else if c = '-' then { f with minus := true, zero := false }
  else { f with space := true }

/-- `padString`: up to the width, on the right with the flag `-`. -/
def pad (f : Flags) (s : List Char) : List Char :=
  let padding := List.replicate (f.wid.getD 0 - s.length) (if f.zero then '0' else ' ')
  if f.minus then s ++ padding else padding ++ s

/-- `truncateString`: the precision counts characters. -/
def truncate (f : Flags) (s : List Char) : List Char := f.prec.elim s s.take

def fmtS (f : Flags) (s : List Char) : List Char := f.pad (f.truncate s)

/-- `fmtSbx`: the bytes of the string in hexadecimal; here the precision counts bytes. -/
def fmtSx (f : Flags) (upper : Bool) (s : List Char) : List Char :=
  let digit (n : ℕ) := if upper then (Nat.digitChar n).toUpper else Nat.digitChar n
  let encoded (b : UInt8) := [digit (b.toNat / 16), digit (b.toNat % 16)]
  let leading := if f.sharp then ['0', if upper then 'X' else 'x'] else []
  let bytes := s.flatMap String.utf8EncodeChar
  let bytes := f.prec.elim bytes bytes.take
  f.pad (if bytes = [] then []
    else if f.space then [' '].intercalate (bytes.map fun b => leading ++ encoded b)
    else leading ++ bytes.flatMap encoded)

/-- `strconv.CanBackquote`. -/
def canBackquote (s : List Char) : Bool :=
  s.all fun c => !(c.toNat < 0x20 && c != '\t' || c.toNat == 0x60 || c.toNat == 0x7F ||
    c.toNat == 0xFEFF)

def isPrint (c : Char) : Bool :=
  let n := c.toNat
  0x20 ≤ n && n < 0x7F || 0xA1 ≤ n && n != 0xAD

/-- The last `k` hexadecimal digits of a number. -/
def hexDigits (k n : ℕ) : List Char :=
  (List.range k).reverse.map fun i => Nat.digitChar (n / 16 ^ i % 16)

/-- `appendEscapedRune`. -/
def escapeRune (asciiOnly : Bool) (c : Char) : List Char :=
  let n := c.toNat
  if c = '"' ∨ c = '\\' then ['\\', c]
  else if isPrint c && !(asciiOnly && 0x80 ≤ n) then [c]
  else if n = 7 then ['\\', 'a']
  else if n = 8 then ['\\', 'b']
  else if n = 12 then ['\\', 'f']
  else if n = 10 then ['\\', 'n']
  else if n = 13 then ['\\', 'r']
  else if n = 9 then ['\\', 't']
  else if n = 11 then ['\\', 'v']
  else if n < 0x20 ∨ n = 0x7F then '\\' :: 'x' :: hexDigits 2 n
  else if n < 0x10000 then '\\' :: 'u' :: hexDigits 4 n
  else '\\' :: 'U' :: hexDigits 8 n

def fmtQ (f : Flags) (s : List Char) : List Char :=
  let s := f.truncate s
  if f.sharp && canBackquote s then f.pad ('\x60' :: s ++ ['\x60'])
  else f.pad ('"' :: s.flatMap (escapeRune f.plus) ++ ['"'])

/-- `printArg` with the verb `v`. -/
def fmtV (f : Flags) (s : List Char) : List Char := if f.sharpV then f.fmtQ s else f.fmtS s

/-- `printArg` on a string. A verb that strings do not have is reported with the string, which is
padded and cut as the directive says. -/
def printArg (f : Flags) (s : List Char) (verb : Char) : List Char :=
  if verb = 'T' then f.fmtS "string".toList
  else if verb = 'v' then f.fmtV s
  else if verb = 's' then f.fmtS s
  else if verb = 'x' then f.fmtSx false s
  else if verb = 'X' then f.fmtSx true s
  else if verb = 'q' then f.fmtQ s
  else "%!".toList ++ verb :: "(string=".toList ++ f.fmtV s ++ [')']

end Flags

/-! ## One directive -/

/-- Where the loop stands inside a directive. -/
structure Cursor where
  rest : List Char
  argNum : ℕ
  reordered : Bool
  goodArgNum : Bool := true
  afterIndex : Bool := false
  flags : Flags := {}
  out : List Char := []

/-- `parsenum`: a number, if there is one, and what follows; one that is too large takes all the
rest with it. -/
def parsenum (num : Option ℕ) : List Char → Option ℕ × List Char
  | [] => (num, [])
  | c :: cs =>
      if c.isDigit then
        if 1000000 < num.getD 0 then (none, [])
        else parsenum (some (num.getD 0 * 10 + (c.toNat - '0'.toNat))) cs
      else (num, c :: cs)

/-- `parseArgNumber`, on a text that starts with `[`: the number inside the brackets, if it is
one, and how many characters to skip. -/
def parseArgNumber (format : List Char) : Option ℕ × ℕ :=
  let inside := format.tail.takeWhile (· ≠ ']')
  if format.length < 3 ∨ inside.length = format.tail.length then (none, 1)
  else match parsenum none inside with
    | (some n, []) => (some n, inside.length + 2)
    | _ => (none, inside.length + 2)

namespace Cursor

/-- `argNumber`: an explicit argument index, counted from one. -/
def argNumber (numArgs : ℕ) (c : Cursor) : Cursor :=
  if c.rest.head? = some '[' then
    let (index, skipped) := parseArgNumber c.rest
    let c := { c with rest := c.rest.drop skipped, reordered := true, afterIndex := index.isSome }
    match index with
    | some (n + 1) => if n < numArgs then { c with argNum := n } else { c with goodArgNum := false }
    | _ => { c with goodArgNum := false }
  else { c with afterIndex := false }

/-- A `*`, for which `intFromArg` takes an operand; no string is a number. -/
def star (numArgs : ℕ) (bad : String) (c : Cursor) : Cursor :=
  { c with
    rest := c.rest.tail
    argNum := if c.argNum < numArgs then c.argNum + 1 else c.argNum
    afterIndex := false
    out := c.out ++ bad.toList }

def width (numArgs : ℕ) (c : Cursor) : Cursor :=
  if c.rest.head? = some '*' then c.star numArgs "%!(BADWIDTH)"
  else
    let (wid, rest) := parsenum none c.rest
    { c with
      rest := rest
      flags := { c.flags with wid := wid }
      -- as in `%[3]2d`
      goodArgNum := c.goodArgNum && !(c.afterIndex && wid.isSome) }

def precision (numArgs : ℕ) (c : Cursor) : Cursor :=
  if c.rest.head? = some '.' then
    -- as in `%[3].2d`
    let c := argNumber numArgs
      { c with rest := c.rest.tail, goodArgNum := c.goodArgNum && !c.afterIndex }
    if c.rest.head? = some '*' then c.star numArgs "%!(BADPREC)"
    else
      let (prec, rest) := parsenum none c.rest
      { c with rest := rest, flags := { c.flags with prec := some (prec.getD 0) } }
  else c

def verb (args : List (List Char)) (c : Cursor) : Cursor :=
  match c.rest with
  | [] => { c with out := c.out ++ "%!(NOVERB)".toList }
  | verb :: rest =>
      let c := { c with rest := rest }
      if verb = '%' then { c with out := c.out ++ ['%'] }
      else if !c.goodArgNum then
        { c with out := c.out ++ "%!".toList ++ verb :: "(BADINDEX)".toList }
      else match args[c.argNum]? with
        | none => { c with out := c.out ++ "%!".toList ++ verb :: "(MISSING)".toList }
        | some arg =>
            let flags := if verb = 'v' ∨ verb = 'w' then
                { c.flags with sharpV := c.flags.sharp, sharp := false, plus := false }
              else c.flags
            { c with argNum := c.argNum + 1, out := c.out ++ flags.printArg arg verb }

/-- A directive, from behind its `%` on. -/
def directive (args : List (List Char)) (c : Cursor) : Cursor :=
  let c := { c with
    flags := (c.rest.takeWhile Flags.isFlag).foldl Flags.set {}
    rest := c.rest.dropWhile Flags.isFlag }
  let c := ((c.argNumber args.length).width args.length).precision args.length
  (if c.afterIndex then c else c.argNumber args.length).verb args

end Cursor

/-! ## The loop -/

/-- Operands that no verb has used are reported, unless some directive had an index. -/
def extra (args : List (List Char)) (argNum : ℕ) (reordered : Bool) : List Char :=
  if !reordered && argNum < args.length then
    "%!(EXTRA ".toList ++
      ", ".toList.intercalate ((args.drop argNum).map fun arg => "string=".toList ++ arg) ++ [')']
  else []

/-- `doPrintf`: the first argument counts the characters that the last directive has read. -/
def doPrintf (args : List (List Char)) : ℕ → ℕ → Bool → List Char → List Char
  | _, argNum, reordered, [] => extra args argNum reordered
  | skip + 1, argNum, reordered, _ :: cs => doPrintf args skip argNum reordered cs
  | 0, argNum, reordered, c :: cs =>
      if c = '%' then
        let d := Cursor.directive args { rest := cs, argNum := argNum, reordered := reordered }
        d.out ++ doPrintf args (cs.length - d.rest.length) d.argNum d.reordered cs
      else c :: doPrintf args 0 argNum reordered cs

/-- `fmt.Sprintf`. -/
def sprintf (format : String) (args : List String) : String :=
  String.ofList (doPrintf (args.map String.toList) 0 0 false format.toList)

example : sprintf "%.5s-router" ["druid-c-r"] = "druid-router" := by decide +kernel

example : sprintf "%-4s|%04d|%%%[1]q%s" ["ab"] =
    "ab  |%!d(MISSING)|%\"ab\"%!s(MISSING)" := by decide +kernel

end DruidOperator.Fmt
