import DruidOperator.DruidApi
import DruidOperator.Json
import DruidOperator.Lib.Segments
import Mathlib.Data.List.TakeWhile

/-!
# What the paths of the Druid API name

The segments of an API path come from users and from Druid: data sources, task ids. `makePath` joins
them one at a time with `path.Join`, which reads a segment as a path of its own.

* `pathSegments` — the segments a server reads off a URL: cut at the slashes, then unescaped.
* `Plain` — a segment that `path.Join` leaves alone.
* `makePath_exact_iff` — the URL names the segments that were asked for, and no other list of
  segments has the same URL, exactly if all of them are plain.
-/

namespace DruidOperator.DruidApi

open Segments

variable {c : Char} {s : List Char} {segs : List (List Char)} {adds : List String}

/-! ## Reading a URL -/

/-- The bytes of a text. -/
def bytes (cs : List Char) : List UInt8 := cs.flatMap String.utf8EncodeChar

/-- `url.PathUnescape`, in bytes. -/
def unescapePath : List Char → Option (List UInt8)
  | [] => some []
  | c :: cs =>
      if c = '%' then
        match cs with
        | h :: l :: rest => do
            let a ← Json.hexDigit h
            let b ← Json.hexDigit l
            let bs ← unescapePath rest
            return UInt8.ofNat (16 * a + b) :: bs
        | _ => none
      else do
        let bs ← unescapePath cs
        return String.utf8EncodeChar c ++ bs

/-- The path of a URL: what follows the authority, up to a query or a fragment. -/
def urlPath (url : String) : List Char :=
  (((url.toList.drop "http://".length).dropWhile (· ≠ '/')).drop 1).takeWhile
    fun c => c ≠ '?' ∧ c ≠ '#'

/-- The segments a server reads off a URL; `none` stands for one it cannot read. -/
def pathSegments (url : String) : List (Option (List UInt8)) :=
  ((urlPath url).splitOn '/').map unescapePath

/-- The segments that are asked for. -/
def wantedSegments (componentType apiType : String) (additionalPaths : List String) :
    List (List Char) :=
  (["druid", componentType, "v1", apiType] ++ additionalPaths).map String.toList

/-- A base URL `http://host:port`: the host is a name, an IPv4 address or an IPv6 address in
brackets. -/
structure BaseURL where
  host : List Char
  port : List Char
  host_valid : host.all (fun c => c.isAlphanum || ['-', '_', '.', '~'].contains c) = true ∨
    ∃ addr : List Char, host = '[' :: addr ++ [']'] ∧
      addr.all (fun c => (Json.hexDigit c).isSome || [':', '.'].contains c) = true
  port_valid : port.all Char.isDigit = true

def BaseURL.text (base : BaseURL) : String :=
  "http://" ++ String.ofList base.host ++ ":" ++ String.ofList base.port

/-! ## Escaping -/

theorem bytes_inj {cs ds : List Char} (h : bytes cs = bytes ds) : cs = ds := by
  refine String.ofList_injective (String.toByteArray_inj.1 ?_)
  exact congrArg List.toByteArray h

theorem hexUpper_spec : ∀ n < 16, Json.hexDigit (hexUpper n) = some n ∧
    (hexUpper n).isAlphanum = true := by
  decide

/-- An escape consists of a percent sign and letters or digits. -/
theorem mem_escapeByte {b : UInt8} (hc : c ∈ escapeByte b) : c = '%' ∨ c.isAlphanum = true := by
  have hb : b.toNat < 256 := b.toNat_lt
  simp only [escapeByte, List.mem_cons, List.not_mem_nil, or_false] at hc
  rcases hc with rfl | rfl | rfl
  · exact .inl rfl
  · exact .inr (hexUpper_spec _ (by omega)).2
  · exact .inr (hexUpper_spec _ (by omega)).2

theorem unescapePath_cons (hc : c ≠ '%') (cs : List Char) :
    unescapePath (c :: cs) = (unescapePath cs).map (String.utf8EncodeChar c ++ ·) := by
  rw [unescapePath.eq_def]
  simp only [if_neg hc]
  cases unescapePath cs <;> rfl

theorem unescapePath_escapeByte (b : UInt8) (cs : List Char) :
    unescapePath (escapeByte b ++ cs) = (unescapePath cs).map (b :: ·) := by
  have hb : b.toNat < 256 := b.toNat_lt
  have hhi := (hexUpper_spec (b.toNat / 16) (by omega)).1
  have hlo := (hexUpper_spec (b.toNat % 16) (by omega)).1
  have hvalue : UInt8.ofNat (16 * (b.toNat / 16) + b.toNat % 16) = b := by
    rw [Nat.div_add_mod]
    exact UInt8.ofNat_toNat
  simp only [escapeByte, List.cons_append, List.nil_append, unescapePath, if_true, hhi, hlo,
    Option.bind_eq_bind, Option.bind_some, hvalue]
  cases unescapePath cs <;> rfl

theorem unescapePath_escapeBytes (bs : List UInt8) (cs : List Char) :
    unescapePath (bs.flatMap escapeByte ++ cs) = (unescapePath cs).map (bs ++ ·) := by
  induction bs with
  | nil => simp
  | cons b bs ih =>
      rw [List.flatMap_cons, List.append_assoc, unescapePath_escapeByte, ih, Option.map_map]
      rfl

/-- How one character is written. -/
def escapePathChar (c : Char) : List Char :=
  if isPathChar c then [c] else (String.utf8EncodeChar c).flatMap escapeByte

theorem escapePath_eq_flatMap (cs : List Char) : escapePath cs = cs.flatMap escapePathChar := rfl

theorem mem_escapePathChar {d : Char} (hd : d ∈ escapePathChar c) :
    (d = c ∧ isPathChar c = true) ∨ d = '%' ∨ d.isAlphanum = true := by
  unfold escapePathChar at hd
  split_ifs at hd with hc
  · exact .inl ⟨List.mem_singleton.1 hd, hc⟩
  · obtain ⟨b, -, hb⟩ := List.mem_flatMap.1 hd
    exact .inr (mem_escapeByte hb)

/-- Escapes are read as the characters they stand for. -/
theorem unescapePath_escapePath (cs : List Char) :
    unescapePath (escapePath cs) = some (bytes cs) := by
  induction cs with
  | nil => rfl
  | cons c cs ih =>
      rw [escapePath_eq_flatMap, List.flatMap_cons, ← escapePath_eq_flatMap, escapePathChar]
      split_ifs with hc
      · have hne : c ≠ '%' := by
          intro heq
          rw [heq] at hc
          exact absurd hc (by decide)
        rw [List.singleton_append, unescapePath_cons hne, ih]
        rfl
      · rw [unescapePath_escapeBytes, ih]
        rfl

theorem splitOn_escapePath (cs : List Char) :
    (escapePath cs).splitOn '/' = (cs.splitOn '/').map escapePath := by
  refine splitOn_flatMap (f := escapePathChar) rfl (fun c hc => ?_) cs
  rcases mem_escapePathChar hc with ⟨heq, -⟩ | heq | halnum
  · exact heq.symm
  · exact absurd heq (by decide)
  · exact absurd halnum (by decide)

/-- A path is read segment by segment as it was before it was escaped. -/
theorem segments_escapedPath (path : List Char) :
    ((escapedPath path).splitOn '/').map unescapePath = (path.splitOn '/').map (some ∘ bytes) := by
  unfold escapedPath
  split_ifs with hstar
  · rw [hstar]
    rfl
  · rw [splitOn_escapePath, List.map_map]
    refine List.map_congr_left fun s _ => ?_
    exact unescapePath_escapePath s

theorem escapedPath_noQuery {path : List Char} (hc : c ∈ escapedPath path) : c ≠ '?' ∧ c ≠ '#' := by
  unfold escapedPath at hc
  split_ifs at hc with hstar
  · rw [hstar, List.mem_singleton] at hc
    rw [hc]
    decide
  · obtain ⟨x, -, hx⟩ := List.mem_flatMap.1 hc
    have hpath : isPathChar c = true ∨ c = '%' := by
      rcases mem_escapePathChar hx with ⟨rfl, h⟩ | h | h
      · exact .inl h
      · exact .inr h
      · exact .inl (by simp [isPathChar, h])
    constructor
    · intro heq
      rw [heq] at hpath
      exact absurd hpath (by decide)
    · intro heq
      rw [heq] at hpath
      exact absurd hpath (by decide)

/-! ## The path of a URL -/

theorem notMem_of_all {p : Char → Bool} {cs : List Char} (h : cs.all p = true) (hc : p c = false) :
    c ∉ cs := by
  intro hmem
  have hp := List.all_eq_true.1 h c hmem
  rw [hc] at hp
  cases hp

theorem BaseURL.noSlash (base : BaseURL) : '/' ∉ base.host ++ ':' :: base.port := by
  have hhost : '/' ∉ base.host := by
    rcases base.host_valid with hname | ⟨addr, haddr, hvalid⟩
    · exact notMem_of_all hname (by decide)
    · have hslash : '/' ∉ addr := notMem_of_all hvalid (by decide)
      rw [haddr]
      simp [hslash]
  have hport : '/' ∉ base.port := notMem_of_all base.port_valid (by decide)
  simp [hhost, hport]

theorem urlPath_append (base : BaseURL) {path : List Char} (hpath : ∀ c ∈ path, c ≠ '?' ∧ c ≠ '#') :
    urlPath (base.text ++ "/" ++ String.ofList path) = path := by
  have htext : (base.text ++ "/" ++ String.ofList path).toList =
      "http://".toList ++ ((base.host ++ ':' :: base.port) ++ '/' :: path) := by
    simp [BaseURL.text]
  have hdrop : ((base.host ++ ':' :: base.port) ++ '/' :: path).dropWhile (· ≠ '/') =
      '/' :: path := by
    have hall : ∀ c ∈ base.host ++ ':' :: base.port, decide (c ≠ '/') = true := by
      intro c hc
      exact decide_eq_true fun heq => base.noSlash (heq ▸ hc)
    rw [List.dropWhile_append_of_pos hall]
    simp
  rw [urlPath, htext, List.drop_left' (by decide), hdrop, List.drop_one, List.tail_cons]
  refine List.takeWhile_eq_self_iff.2 fun c hc => ?_
  simpa using hpath c hc

/-- The path that `makePath` puts together. -/
def apiPath (componentType apiType : String) (additionalPaths : List String) : List Char :=
  additionalPaths.foldl (fun path p => joinPath [path, p.toList])
    (joinPath ["druid".toList, componentType.toList, "v1".toList, apiType.toList])

/-- The segments of a URL are those of the path that was put together. -/
theorem pathSegments_makePath (base : BaseURL) (componentType apiType : String)
    (adds : List String) :
    pathSegments (makePath base.text componentType apiType adds) =
      ((apiPath componentType apiType adds).splitOn '/').map (some ∘ bytes) := by
  have hmake : makePath base.text componentType apiType adds =
      base.text ++ "/" ++ String.ofList (escapedPath (apiPath componentType apiType adds)) := rfl
  rw [pathSegments, hmake, urlPath_append base fun _ => escapedPath_noQuery, segments_escapedPath]

/-! ## Cleaning a path -/

/-- A segment that names something in the directory before it. -/
def Plain (seg : List Char) : Prop := seg ≠ [] ∧ '/' ∉ seg ∧ seg ≠ ['.'] ∧ seg ≠ ['.', '.']

instance : DecidablePred Plain := fun _ => inferInstanceAs (Decidable (_ ∧ _ ∧ _ ∧ _))

theorem cleanSegments_push (rooted : Bool) (acc : List (List Char)) (hskip : ¬ (s = [] ∨ s = ['.']))
    (hdots : s ≠ ['.', '.']) (segs : List (List Char)) :
    cleanSegments rooted acc (s :: segs) = cleanSegments rooted (s :: acc) segs := by
  rw [cleanSegments.eq_def]
  simp only [if_neg hskip, if_neg hdots]

theorem cleanSegments_plain (rooted : Bool) (hsegs : ∀ s ∈ segs, Plain s) (acc : List (List Char)) :
    cleanSegments rooted acc segs = acc.reverse ++ segs := by
  induction segs generalizing acc with
  | nil => simp [cleanSegments]
  | cons s segs ih =>
      obtain ⟨hne, -, hdot, hdots⟩ := hsegs s List.mem_cons_self
      rw [cleanSegments_push _ _ (by simp [hne, hdot]) hdots,
        ih fun t ht => hsegs t (List.mem_cons_of_mem _ ht)]
      simp

theorem head_intercalate_plain (hne : segs ≠ []) (hsegs : ∀ s ∈ segs, Plain s) :
    ∃ c cs, ['/'].intercalate segs = c :: cs ∧ c ≠ '/' := by
  cases segs with
  | nil => exact absurd rfl hne
  | cons s segs =>
      obtain ⟨hs, hslash, -⟩ := hsegs s List.mem_cons_self
      obtain ⟨c, cs, rfl⟩ := List.exists_cons_of_ne_nil hs
      have hc : c ≠ '/' := fun heq => hslash (heq ▸ List.mem_cons_self)
      cases segs with
      | nil => exact ⟨c, cs, by simp, hc⟩
      | cons t segs => exact ⟨c, _, by rw [List.intercalate_cons_cons, List.append_assoc]; rfl, hc⟩

theorem splitOn_intercalate_plain (hne : segs ≠ []) (hsegs : ∀ s ∈ segs, Plain s) :
    (['/'].intercalate segs).splitOn '/' = segs :=
  List.splitOn_intercalate '/' (fun s hs => (hsegs s hs).2.1) hne

theorem cleanPath_plain (hne : segs ≠ []) (hsegs : ∀ s ∈ segs, Plain s) :
    cleanPath (['/'].intercalate segs) = ['/'].intercalate segs := by
  obtain ⟨c, cs, hcons, hc⟩ := head_intercalate_plain hne hsegs
  have hrooted : ((['/'].intercalate segs).head? == some '/') = false := by
    rw [hcons]
    simpa using hc
  rw [cleanPath, hrooted, splitOn_intercalate_plain hne hsegs, cleanSegments_plain _ hsegs]
  simp [hne]

theorem joinPath_of_nonempty {elems : List (List Char)} (hne : elems ≠ [])
    (h : ∀ e ∈ elems, e ≠ []) :
    joinPath elems = cleanPath (['/'].intercalate elems) := by
  have hfilter : elems.filter (· ≠ []) = elems :=
    List.filter_eq_self.2 fun e he => by simpa using h e he
  unfold joinPath
  rw [hfilter]
  cases elems with
  | nil => exact absurd rfl hne
  | cons e elems => rfl

theorem joinPath_plain (hne : segs ≠ []) (hsegs : ∀ s ∈ segs, Plain s) :
    joinPath segs = ['/'].intercalate segs := by
  rw [joinPath_of_nonempty hne fun s hs => (hsegs s hs).1]
  exact cleanPath_plain hne hsegs

theorem joinPath_concat (hne : segs ≠ []) (hsegs : ∀ t ∈ segs ++ [s], Plain t) :
    joinPath [['/'].intercalate segs, s] = ['/'].intercalate (segs ++ [s]) := by
  obtain ⟨c, cs, hcons, -⟩ := head_intercalate_plain hne fun t ht =>
    hsegs t (List.mem_append_left _ ht)
  have hs : s ≠ [] := (hsegs s (by simp)).1
  rw [joinPath_of_nonempty (by simp) (by simp [hcons, hs]), intercalate_concat _ hne]
  exact cleanPath_plain (by simp) hsegs

theorem foldl_joinPath_plain (hne : segs ≠ [])
    (hsegs : ∀ s ∈ segs ++ adds.map String.toList, Plain s) :
    adds.foldl (fun path p => joinPath [path, p.toList]) (['/'].intercalate segs) =
      ['/'].intercalate (segs ++ adds.map String.toList) := by
  induction adds generalizing segs with
  | nil => simp
  | cons p adds ih =>
      have hsplit : segs ++ (p :: adds).map String.toList =
          segs ++ [p.toList] ++ adds.map String.toList := by simp
      rw [hsplit] at hsegs ⊢
      rw [List.foldl_cons, joinPath_concat hne fun t ht => hsegs t (List.mem_append_left _ ht)]
      exact ih (by simp) hsegs

theorem splitOn_apiPath {componentType apiType : String}
    (h : ∀ s ∈ wantedSegments componentType apiType adds, Plain s) :
    (apiPath componentType apiType adds).splitOn '/' =
      wantedSegments componentType apiType adds := by
  have hwanted : wantedSegments componentType apiType adds =
      ["druid".toList, componentType.toList, "v1".toList, apiType.toList] ++
        adds.map String.toList := rfl
  rw [hwanted] at h ⊢
  rw [apiPath, joinPath_plain (by simp) fun s hs => h s (List.mem_append_left _ hs),
    foldl_joinPath_plain (by simp) h]
  exact splitOn_intercalate_plain (by simp) h

/-! ## What a cleaned path looks like -/

/-- Segments of a cleaned path: those that lead up, then plain ones. -/
structure Tidy (segs : List (List Char)) : Prop where
  each : ∀ s ∈ segs, Plain s ∨ s = ['.', '.']
  up : segs.Pairwise fun a b => b = ['.', '.'] → a = ['.', '.']

theorem Tidy.nil : Tidy [] := ⟨by simp, .nil⟩

theorem Tidy.concat (h : Tidy segs) (hs : Plain s ∨ s = ['.', '.'] ∧ ∀ t ∈ segs, t = ['.', '.']) :
    Tidy (segs ++ [s]) := by
  constructor
  · intro t ht
    rcases List.mem_append.1 ht with ht | ht
    · exact h.each t ht
    · rw [List.mem_singleton.1 ht]
      exact hs.imp_right And.left
  · refine List.pairwise_append.2 ⟨h.up, List.pairwise_singleton _ _, fun a ha b hb hdots => ?_⟩
    rw [List.mem_singleton.1 hb] at hdots
    rcases hs with hs | ⟨-, hall⟩
    · exact absurd hdots hs.2.2.2
    · exact hall a ha

theorem Tidy.of_concat (h : Tidy (segs ++ [s])) : Tidy segs :=
  ⟨fun t ht => h.each t (List.mem_append_left _ ht), (List.pairwise_append.1 h.up).1⟩

/-- Below a segment that leads up there are only such. -/
theorem Tidy.up_of_last (h : Tidy (segs ++ [['.', '.']])) :
    ∀ t ∈ segs, t = ['.', '.'] := fun t ht =>
  (List.pairwise_append.1 h.up).2.2 t ht _ List.mem_cons_self rfl

/-- A path that starts with a plain segment has no other segments. -/
theorem Tidy.plain (h : Tidy (s :: segs)) (hs : Plain s) : ∀ t ∈ s :: segs, Plain t := by
  intro t ht
  refine (h.each t ht).resolve_right fun hdots => ?_
  rcases List.mem_cons.1 ht with heq | ht
  · exact hs.2.2.2 (heq ▸ hdots)
  · exact hs.2.2.2 ((List.pairwise_cons.1 h.up).1 t ht hdots)

/-- What `..` makes of the segments before it. -/
def leaveTop (rooted : Bool) : List (List Char) → List (List Char)
  | [] => if rooted then [] else [['.', '.']]
  | top :: rest => if top = ['.', '.'] then ['.', '.'] :: top :: rest else rest

theorem cleanSegments_up (rooted : Bool) (acc segs : List (List Char)) :
    cleanSegments rooted acc (['.', '.'] :: segs) = cleanSegments rooted
      (leaveTop rooted acc) segs := by
  cases acc with
  | nil => rfl
  | cons top rest =>
      rw [leaveTop, cleanSegments.eq_def]
      by_cases htop : top = ['.', '.']
      · simp [htop]
      · simp [htop]

theorem cleanSegments_skip (rooted : Bool) (acc : List (List Char)) (hskip : s = [] ∨ s = ['.'])
    (segs : List (List Char)) :
    cleanSegments rooted acc (s :: segs) = cleanSegments rooted acc segs := by
  rw [cleanSegments.eq_def]
  simp only [if_pos hskip]

theorem tidy_leaveTop (rooted : Bool) {acc : List (List Char)} (hacc : Tidy acc.reverse) :
    Tidy (leaveTop rooted acc).reverse := by
  cases acc with
  | nil =>
      cases rooted with
      | true => exact .nil
      | false => exact Tidy.nil.concat (.inr ⟨rfl, by simp⟩)
  | cons top rest =>
      rw [List.reverse_cons] at hacc
      rw [leaveTop]
      split_ifs with htop
      · rw [htop] at hacc ⊢
        rw [List.reverse_cons, List.reverse_cons]
        refine hacc.concat (.inr ⟨rfl, fun t ht => ?_⟩)
        rcases List.mem_append.1 ht with ht | ht
        · exact hacc.up_of_last t ht
        · exact List.mem_singleton.1 ht
      · exact hacc.of_concat

theorem tidy_cleanSegments (rooted : Bool) (hsegs : ∀ s ∈ segs, '/' ∉ s) {acc : List (List Char)}
    (hacc : Tidy acc.reverse) : Tidy (cleanSegments rooted acc segs) := by
  induction segs generalizing acc with
  | nil => exact hacc
  | cons s segs ih =>
      have hrest : ∀ {acc : List (List Char)}, Tidy acc.reverse →
          Tidy (cleanSegments rooted acc segs) := ih fun t ht => hsegs t (List.mem_cons_of_mem _ ht)
      by_cases hskip : s = [] ∨ s = ['.']
      · rw [cleanSegments_skip rooted acc hskip]
        exact hrest hacc
      by_cases hdots : s = ['.', '.']
      · rw [hdots, cleanSegments_up]
        exact hrest (tidy_leaveTop rooted hacc)
      · rw [cleanSegments_push rooted acc hskip hdots]
        refine hrest ?_
        rw [List.reverse_cons]
        rw [not_or] at hskip
        exact hacc.concat (.inl ⟨hskip.1, hsegs s List.mem_cons_self, hskip.2, hdots⟩)

/-- A cleaned path that starts with a plain segment consists of plain segments. -/
theorem plain_of_cleanPath {path : List Char} (hsplit : (cleanPath path).splitOn '/' = s :: segs)
    (hs : Plain s) : ∀ t ∈ s :: segs, Plain t := by
  have htidy : Tidy (cleanSegments (path.head? == some '/') [] (path.splitOn '/')) :=
    tidy_cleanSegments _ (fun _ => notMem_of_mem_splitOn) .nil
  simp only [cleanPath] at hsplit
  split_ifs at hsplit with hrooted hempty
  · -- a rooted path starts with an empty segment
    rw [List.splitOn_cons_eq_if_modifyHead] at hsplit
    cases hsplit
    exact absurd rfl hs.1
  · cases hsplit
    exact absurd rfl hs.2.2.1
  · rw [List.splitOn_intercalate '/' (fun t ht => ?_) hempty] at hsplit
    · rw [hsplit] at htidy
      exact htidy.plain hs
    · rcases htidy.each t ht with hplain | hdots
      · exact hplain.2.1
      · rw [hdots]
        decide

theorem plain_of_joinPath {elems : List (List Char)}
    (hsplit : (joinPath elems).splitOn '/' = s :: segs) (hs : Plain s) :
    ∀ t ∈ s :: segs, Plain t := by
  unfold joinPath at hsplit
  split at hsplit
  · cases hsplit
    exact absurd rfl hs.1
  · exact plain_of_cleanPath hsplit hs

theorem exists_joinPath (componentType apiType : String) (adds : List String) :
    ∃ elems, apiPath componentType apiType adds = joinPath elems := by
  rcases List.eq_nil_or_concat adds with rfl | ⟨init, last, rfl⟩
  · exact ⟨["druid".toList, componentType.toList, "v1".toList, apiType.toList], rfl⟩
  · refine ⟨[apiPath componentType apiType init, last.toList], ?_⟩
    rw [apiPath, List.concat_eq_append, List.foldl_append]
    rfl

/-! ## Exact paths -/

theorem plain_druid : Plain "druid".toList := by decide

theorem plain_v1 : Plain "v1".toList := by decide

theorem forall_wantedSegments {componentType apiType : String} :
    (∀ s ∈ wantedSegments componentType apiType adds, Plain s) ↔
      Plain componentType.toList ∧ Plain apiType.toList ∧ ∀ s ∈ adds, Plain s.toList := by
  simp only [wantedSegments, List.cons_append, List.nil_append, List.map_cons, List.forall_mem_cons,
    List.forall_mem_map, plain_druid, plain_v1, true_and]

theorem wantedSegments_injective {componentType apiType : String} {adds' : List String}
    (h : wantedSegments componentType apiType adds = wantedSegments componentType apiType adds') :
    ["druid", componentType, "v1", apiType] ++ adds =
      ["druid", componentType, "v1", apiType] ++ adds' :=
  List.map_injective_iff.2 (fun _ _ => String.toList_inj.1) h

theorem segments_injective : Function.Injective (List.map (some ∘ bytes)) :=
  List.map_injective_iff.2 ((Option.some_injective _).comp fun _ _ => bytes_inj)

/-- The path has the segments that were asked for exactly if these are plain. -/
theorem pathSegments_iff (base : BaseURL) (componentType apiType : String) (adds : List String) :
    pathSegments (makePath base.text componentType apiType adds) =
        (wantedSegments componentType apiType adds).map (some ∘ bytes) ↔
      Plain componentType.toList ∧ Plain apiType.toList ∧ ∀ s ∈ adds, Plain s.toList := by
  rw [pathSegments_makePath, ← forall_wantedSegments]
  constructor
  · intro h
    have hsplit := segments_injective h
    obtain ⟨elems, helems⟩ := exists_joinPath componentType apiType adds
    rw [helems] at hsplit
    exact plain_of_joinPath hsplit plain_druid
  · intro h
    rw [splitOn_apiPath h]

/-- **Exact paths.** Two lists of additional segments: both URLs name what was asked for, and they
are different if the lists are, exactly if the names and the segments of both are plain. -/
theorem makePath_exact_iff (base : BaseURL) (componentType apiType : String)
    (adds adds' : List String) :
    (pathSegments (makePath base.text componentType apiType adds) =
          (wantedSegments componentType apiType adds).map (some ∘ bytes) ∧
        pathSegments (makePath base.text componentType apiType adds') =
          (wantedSegments componentType apiType adds').map (some ∘ bytes) ∧
        (adds ≠ adds' → makePath base.text componentType apiType adds ≠
          makePath base.text componentType apiType adds')) ↔
      Plain componentType.toList ∧ Plain apiType.toList ∧ ∀ s ∈ adds ++ adds', Plain s.toList := by
  rw [pathSegments_iff, pathSegments_iff]
  constructor
  · rintro ⟨⟨hcomp, hapi, hadds⟩, ⟨-, -, hadds'⟩, -⟩
    exact ⟨hcomp, hapi, List.forall_mem_append.2 ⟨hadds, hadds'⟩⟩
  · rintro ⟨hcomp, hapi, hall⟩
    obtain ⟨hadds, hadds'⟩ := List.forall_mem_append.1 hall
    refine ⟨⟨hcomp, hapi, hadds⟩, ⟨hcomp, hapi, hadds'⟩, fun hne heq => hne ?_⟩
    have hsegs := (pathSegments_iff base componentType apiType adds).2 ⟨hcomp, hapi, hadds⟩
    have hsegs' := (pathSegments_iff base componentType apiType adds').2 ⟨hcomp, hapi, hadds'⟩
    have hwanted := segments_injective (hsegs.symm.trans ((congrArg pathSegments heq).trans hsegs'))
    exact List.append_cancel_left (wantedSegments_injective hwanted)

theorem router_valid :
    "r".toList.all (fun c => c.isAlphanum || ['-', '_', '.', '~'].contains c) = true ∧
    "8088".toList.all Char.isDigit = true := by
  decide

/-- A router, as the operator addresses it. -/
def routerBase : BaseURL := ⟨"r".toList, "8088".toList, .inl router_valid.1, router_valid.2⟩

/-- A data source may lead out of its endpoint: the rules of this one would go where compaction
settings go. And one segment with a slash is two. -/
theorem dataSource_escapes :
    pathSegments (makePath routerBase.text "coordinator" "rules" ["../config/compaction"]) ≠
      (wantedSegments "coordinator" "rules" ["../config/compaction"]).map (some ∘ bytes) ∧
    makePath routerBase.text "coordinator" "rules" ["../config/compaction"] =
      makePath routerBase.text "coordinator" "config" ["compaction"] ∧
    makePath routerBase.text "indexer" "task" ["a/b"] =
      makePath routerBase.text "indexer" "task" ["a", "b"] := by
  refine ⟨by decide +kernel, by decide +kernel, by decide +kernel⟩

end DruidOperator.DruidApi
