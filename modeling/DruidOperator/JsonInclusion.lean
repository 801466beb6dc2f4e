import DruidOperator.IngestionSettled
import Mathlib.Data.Set.Finite.Lattice

/-!
# When settings include the desired ones

Compaction settings and dynamic configurations are posted only if the current ones do not include
the desired ones. `includes` compares maps key by key at every depth, but of an array it only asks
that each desired element is somewhere in the current one, as it is. Both halves of that rule matter
here.

* `Json.overlay` — the settings that posting the desired ones asks for.
* `up_to_date_iff` — settings that include the desired ones are up to date exactly if they hold the
  same arrays.
* `includes_preorder` — inclusion is reflexive and transitive.
* `Json.Extends` — settings with keys added to objects, at any depth.
* `tolerates_defaults_iff` — inclusion survives added keys exactly if no array of the desired
  settings holds an object.
-/

namespace DruidOperator

variable {k : String} {ds cs : List (String × Json)} {c : Json}

namespace Json

/-! ## Overlaying -/

theorem setField_lookup {x : Json} {fs : List (String × Json)} (hsorted : fs.Pairwise (·.1 < ·.1))
    (h : fs.lookup k = some x) : setField k x fs = fs := by
  induction fs with
  | nil => cases h
  | cons f fs ih =>
      obtain ⟨l, y⟩ := f
      obtain ⟨hlt, hfs⟩ := List.pairwise_cons.1 hsorted
      rw [lookup_cons_eq] at h
      unfold setField
      by_cases hk : k = l
      · rw [if_pos hk] at h
        cases h
        rw [if_pos hk, hk]
      · rw [if_neg hk] at h
        have hl : l < k := hlt _ (mem_of_lookup h)
        rw [if_neg hk, if_neg hl.asymm, ih hfs h]

mutual

/-- `d` over `c`: objects are merged key by key, any other value of `d` replaces that of `c`. -/
def overlay (c : Json) : Json → Json
  | .obj ds =>
      match c with
      | .obj cs => .obj (overlayFields cs ds)
      | _ => .obj ds
  | d => d

/-- A value over none is as over `null`. -/
def overlayFields (cs : List (String × Json)) : List (String × Json) → List (String × Json)
  | [] => cs
  | (k, d) :: ds => overlayFields (setField k (overlay ((cs.lookup k).getD .null) d) cs) ds

end

theorem lookup_overlayFields_of_notMem (hk : k ∉ ds.map Prod.fst) (cs : List (String × Json)) :
    (overlayFields cs ds).lookup k = cs.lookup k := by
  induction ds generalizing cs with
  | nil => rw [overlayFields]
  | cons f ds ih =>
      obtain ⟨l, d⟩ := f
      simp only [List.map_cons, List.mem_cons, not_or] at hk
      rw [overlayFields, ih hk.2, lookup_setField, if_neg hk.1]

theorem lookup_overlayFields (hsorted : ds.Pairwise (·.1 < ·.1)) (cs : List (String × Json))
    {f : String × Json} (hf : f ∈ ds) :
    (overlayFields cs ds).lookup f.1 = some (overlay ((cs.lookup f.1).getD .null) f.2) := by
  induction ds generalizing cs with
  | nil => cases hf
  | cons g ds ih =>
      obtain ⟨hlt, hds⟩ := List.pairwise_cons.1 hsorted
      rw [overlayFields]
      rcases List.mem_cons.1 hf with rfl | hf
      · have hnot : f.1 ∉ ds.map Prod.fst := by
          intro hmem
          obtain ⟨e, he, hkey⟩ := List.mem_map.1 hmem
          exact (hlt e he).ne' hkey
        rw [lookup_overlayFields_of_notMem hnot, lookup_setField, if_pos rfl]
      · rw [ih hds _ hf, lookup_setField, if_neg (hlt f hf).ne']

theorem overlayFields_of_fixed (hsorted : cs.Pairwise (·.1 < ·.1))
    (h : ∀ f ∈ ds, ∃ c, cs.lookup f.1 = some c ∧ overlay c f.2 = c) : overlayFields cs ds = cs := by
  induction ds with
  | nil => rw [overlayFields]
  | cons f ds ih =>
      obtain ⟨c, hc, hover⟩ := h f List.mem_cons_self
      rw [overlayFields, hc, Option.getD_some, hover, setField_lookup hsorted hc]
      exact ih fun g hg => h g (List.mem_cons_of_mem _ hg)

/-- An overlay that finds every key changes nothing exactly if it changes no value. -/
theorem overlayFields_eq_self_iff (hcs : cs.Pairwise (·.1 < ·.1)) (hds : ds.Pairwise (·.1 < ·.1))
    (hkeys : ∀ f ∈ ds, ∃ c, cs.lookup f.1 = some c) :
    overlayFields cs ds = cs ↔
      ∀ f ∈ ds, ∀ c, cs.lookup f.1 = some c → overlay c f.2 = c := by
  constructor
  · intro h f hf c hc
    have hlookup := lookup_overlayFields hds cs hf
    rw [h, hc] at hlookup
    exact (Option.some.inj hlookup).symm
  · intro h
    refine overlayFields_of_fixed hcs fun f hf => ?_
    obtain ⟨c, hc⟩ := hkeys f hf
    exact ⟨c, hc, h f hf c hc⟩

/-- Wherever `d` has an array, reached through objects only, `c` has the same one. -/
inductive ArraysAgree : Json → Json → Prop
  | null (c : Json) : ArraysAgree c .null
  | bool (c : Json) (b : Bool) : ArraysAgree c (.bool b)
  | num (c : Json) (q : ℚ) : ArraysAgree c (.num q)
  | str (c : Json) (s : String) : ArraysAgree c (.str s)
  | arr (xs : List Json) : ArraysAgree (.arr xs) (.arr xs)
  | obj {cs ds : List (String × Json)}
      (h : ∀ f ∈ ds, ∀ c, cs.lookup f.1 = some c → ArraysAgree c f.2) :
      ArraysAgree (.obj cs) (.obj ds)

theorem arraysAgree_arr {xs : List Json} : ArraysAgree c (.arr xs) ↔ .arr xs = c := by
  constructor
  · intro h
    cases h
    rfl
  · intro h
    subst h
    exact .arr xs

theorem arraysAgree_obj : ArraysAgree (.obj cs) (.obj ds) ↔
    ∀ f ∈ ds, ∀ c, cs.lookup f.1 = some c → ArraysAgree c f.2 := by
  constructor
  · intro h
    cases h with
    | obj h => exact h
  · exact .obj

/-! ## Added keys -/

/-- `c'` is `c` with keys added to objects, at any depth. -/
inductive Extends : Json → Json → Prop
  | null : Extends .null .null
  | bool (b : Bool) : Extends (.bool b) (.bool b)
  | num (q : ℚ) : Extends (.num q) (.num q)
  | str (s : String) : Extends (.str s) (.str s)
  | arr {xs ys : List Json} (h : List.Forall₂ Extends xs ys) : Extends (.arr xs) (.arr ys)
  | obj {cs cs' : List (String × Json)}
      (hkeys : ∀ k, (cs.lookup k).isSome = true → (cs'.lookup k).isSome = true)
      (hvalues : ∀ k x y, cs.lookup k = some x → cs'.lookup k = some y → Extends x y) :
      Extends (.obj cs) (.obj cs')

theorem Extends.lookup {cs' : List (String × Json)} (h : Extends (.obj cs) (.obj cs')) {x : Json}
    (hx : cs.lookup k = some x) : ∃ y, cs'.lookup k = some y ∧ Extends x y := by
  cases h with
  | obj hkeys hvalues =>
      obtain ⟨y, hy⟩ := Option.isSome_iff_exists.1 (hkeys k (by rw [hx]; rfl))
      exact ⟨y, hy, hvalues k x y hx hy⟩

theorem Extends.nil (cs' : List (String × Json)) : Extends (.obj []) (.obj cs') :=
  .obj (fun _ h => by cases h) (fun _ _ _ h => by cases h)

theorem Extends.cons {cs' : List (String × Json)} {x y : Json} (hxy : Extends x y)
    (h : Extends (.obj cs) (.obj cs')) : Extends (.obj ((k, x) :: cs)) (.obj ((k, y) :: cs')) := by
  cases h with
  | obj hkeys hvalues =>
      refine .obj (fun l => ?_) (fun l a b => ?_)
      · rw [lookup_cons_eq, lookup_cons_eq]
        by_cases hl : l = k
        · simp [hl]
        · rw [if_neg hl, if_neg hl]
          exact hkeys l
      · rw [lookup_cons_eq, lookup_cons_eq]
        by_cases hl : l = k
        · rw [if_pos hl, if_pos hl]
          intro ha hb
          cases ha
          cases hb
          exact hxy
        · rw [if_neg hl, if_neg hl]
          exact hvalues l a b

/-- No object at any depth. -/
inductive ObjectFree : Json → Prop
  | null : ObjectFree .null
  | bool (b : Bool) : ObjectFree (.bool b)
  | num (q : ℚ) : ObjectFree (.num q)
  | str (s : String) : ObjectFree (.str s)
  | arr {xs : List Json} (h : ∀ x ∈ xs, ObjectFree x) : ObjectFree (.arr xs)

/-- No array holds an object. -/
inductive ScalarArrays : Json → Prop
  | null : ScalarArrays .null
  | bool (b : Bool) : ScalarArrays (.bool b)
  | num (q : ℚ) : ScalarArrays (.num q)
  | str (s : String) : ScalarArrays (.str s)
  | arr {xs : List Json} (h : ∀ x ∈ xs, ObjectFree x) : ScalarArrays (.arr xs)
  | obj {fs : List (String × Json)} (h : ∀ f ∈ fs, ScalarArrays f.2) : ScalarArrays (.obj fs)

theorem exists_mem_of_forall₂ {α : Type} {R : α → α → Prop} {xs ys : List α}
    (h : List.Forall₂ R xs ys) {x : α} (hx : x ∈ xs) : ∃ y ∈ ys, R x y := by
  induction h with
  | nil => cases hx
  | cons hxy _ ih =>
      rcases List.mem_cons.1 hx with rfl | hx
      · exact ⟨_, List.mem_cons_self, hxy⟩
      · obtain ⟨y, hy, hR⟩ := ih hx
        exact ⟨y, List.mem_cons_of_mem _ hy, hR⟩

theorem eq_of_extends (x : Json) : ∀ y, ObjectFree x → Extends x y → x = y := by
  induction x using Json.induct with
  | null => intro y _ h; cases h; rfl
  | bool b => intro y _ h; cases h; rfl
  | num q => intro y _ h; cases h; rfl
  | str s => intro y _ h; cases h; rfl
  | arr xs ih =>
      intro y hfree h
      cases hfree with
      | arr hfree =>
        cases h with
        | arr h =>
          have heq : List.Forall₂ (· = ·) xs _ := List.forall₂_iff_zip.2 ⟨h.length_eq, fun hmem =>
            have hx := (List.of_mem_zip hmem).1
            ih _ hx _ (hfree _ hx) (List.forall₂_zip h hmem)⟩
          rw [List.forall₂_eq_eq_eq] at heq
          rw [heq]
  | obj fs _ => intro y hfree; cases hfree

/-- A key of some object of the value. -/
inductive HasKey (k : String) : Json → Prop
  | here {fs : List (String × Json)} (h : k ∈ fs.map Prod.fst) : HasKey k (.obj fs)
  | field {fs : List (String × Json)} {f : String × Json} (hf : f ∈ fs) (h : HasKey k f.2) :
      HasKey k (.obj fs)
  | element {xs : List Json} {x : Json} (hx : x ∈ xs) (h : HasKey k x) : HasKey k (.arr xs)

theorem finite_hasKey (x : Json) : {k | HasKey k x}.Finite := by
  induction x using Json.induct with
  | arr xs ih =>
      have hsub : {k | HasKey k (.arr xs)} ⊆ ⋃ x ∈ {x | x ∈ xs}, {k | HasKey k x} := by
        intro k hk
        cases hk with
        | element hx h => exact Set.mem_biUnion hx h
      exact (xs.finite_toSet.biUnion fun x hx => ih x hx).subset hsub
  | obj fs ih =>
      have hsub : {k | HasKey k (.obj fs)} ⊆
          {k | k ∈ fs.map Prod.fst} ∪ ⋃ f ∈ {f | f ∈ fs}, {k | HasKey k f.2} := by
        intro k hk
        cases hk with
        | here h => exact .inl h
        | field hf h => exact .inr (Set.mem_biUnion hf h)
      exact ((fs.map Prod.fst).finite_toSet.union
        (fs.finite_toSet.biUnion fun f hf => ih f hf)).subset hsub
  | _ => exact Set.finite_empty.subset fun k hk => by cases hk

theorem exists_fresh_key (x : Json) : ∃ k, ¬ HasKey k x :=
  (finite_hasKey x).infinite_compl.nonempty

mutual

/-- The value with the key `k` added to every object. -/
def grow (k : String) : Json → Json
  | .arr xs => .arr (growElements k xs)
  | .obj fs => .obj (setField k .null (growFields k fs))
  | x => x

def growElements (k : String) : List Json → List Json
  | [] => []
  | x :: xs => grow k x :: growElements k xs

def growFields (k : String) : List (String × Json) → List (String × Json)
  | [] => []
  | (l, x) :: fs => (l, grow k x) :: growFields k fs

end

theorem growElements_eq_map (k : String) (xs : List Json) :
    growElements k xs = xs.map (grow k) := by
  induction xs with
  | nil => rfl
  | cons x xs ih => rw [growElements, ih, List.map_cons]

theorem growFields_eq_map (k : String) (fs : List (String × Json)) :
    growFields k fs = fs.map fun f => (f.1, grow k f.2) := by
  induction fs with
  | nil => rfl
  | cons f fs ih => rw [growFields, ih, List.map_cons]

theorem lookup_growFields (k l : String) (fs : List (String × Json)) :
    (growFields k fs).lookup l = (fs.lookup l).map (grow k) := by
  induction fs with
  | nil => rfl
  | cons f fs ih =>
      rw [growFields, lookup_cons_eq, lookup_cons_eq, ih]
      split_ifs <;> rfl

theorem canonical_grow (k : String) (x : Json) (h : Canonical x) : Canonical (grow k x) := by
  induction x using Json.induct with
  | arr xs ih =>
      rw [grow, growElements_eq_map]
      refine canonicalList_iff.2 fun y hy => ?_
      obtain ⟨x, hx, rfl⟩ := List.mem_map.1 hy
      exact ih x hx (canonicalList_iff.1 h x hx)
  | obj fs ih =>
      rw [grow, growFields_eq_map]
      refine ⟨setField_sorted _ _ ?_, canonicalFields_setField trivial (canonicalFields_iff.2 ?_)⟩
      · exact List.pairwise_map.2 h.sorted
      · intro g hg
        obtain ⟨f, hf, rfl⟩ := List.mem_map.1 hg
        exact ih f hf (h.field hf)
  | _ => exact h

theorem extends_grow (x : Json) (hk : ¬ HasKey k x) : Extends x (grow k x) := by
  induction x using Json.induct with
  | null => exact .null
  | bool b => exact .bool b
  | num q => exact .num q
  | str s => exact .str s
  | arr xs ih =>
      rw [grow, growElements_eq_map]
      refine .arr (List.forall₂_map_right_iff.2 (List.forall₂_same.2 fun x hx => ?_))
      exact ih x hx fun h => hk (.element hx h)
  | obj fs ih =>
      have hlookup : ∀ l x, fs.lookup l = some x →
          (setField k .null (growFields k fs)).lookup l = some (grow k x) := by
        intro l x hl
        have hne : l ≠ k := by
          intro heq
          subst heq
          exact hk (.here (List.mem_map_of_mem (mem_of_lookup hl)))
        rw [lookup_setField, if_neg hne, lookup_growFields, hl]
        rfl
      rw [grow]
      refine .obj (fun l hl => ?_) (fun l x y hx hy => ?_)
      · obtain ⟨x, hx⟩ := Option.isSome_iff_exists.1 hl
        rw [hlookup l x hx]
        rfl
      · cases (hlookup l x hx).symm.trans hy
        have hf := mem_of_lookup hx
        exact ih _ hf fun h => hk (.field hf h)

/-- Only a value without objects grows to one that lacks the key. -/
theorem objectFree_of_grow (x : Json) (h : ¬ HasKey k (grow k x)) : ObjectFree x := by
  induction x using Json.induct with
  | null => exact .null
  | bool b => exact .bool b
  | num q => exact .num q
  | str s => exact .str s
  | arr xs ih =>
      rw [grow, growElements_eq_map] at h
      exact .arr fun x hx => ih x hx fun hkey => h (.element (List.mem_map_of_mem hx) hkey)
  | obj fs _ =>
      rw [grow] at h
      refine absurd (HasKey.here ?_) h
      have hfound : (setField k .null (growFields k fs)).lookup k = some .null := by
        rw [lookup_setField, if_pos rfl]
      exact List.mem_map_of_mem (mem_of_lookup hfound)

/-- An object as `json.Unmarshal` gives it: keys in order, numbers rounded. -/
structure JsonObject where
  fields : List (String × Json)
  canonical : Canonical (.obj fields)

end Json

namespace Ingestion

open Json

/-! ## What inclusion asks for -/

theorem includesFields_iff : includesFields cs ds = true ↔
    ∀ f ∈ ds, ∃ c, cs.lookup f.1 = some c ∧ includesValue c f.2 = true := by
  induction ds with
  | nil => simp [includesFields]
  | cons f ds ih =>
      rw [includesFields, List.forall_mem_cons, ← ih]
      cases cs.lookup f.1 with
      | none => simp
      | some c => simp

theorem includesValue_arr {ds : List Json} : includesValue c (.arr ds) = true ↔
    ∃ xs, c = .arr xs ∧ ∀ d ∈ ds, d ∈ xs := by
  cases c with
  | arr xs =>
      simp only [includesValue, Bool.or_eq_true, decide_eq_true_eq, List.all_eq_true,
        List.any_eq_true, exists_eq_right', arr.injEq, exists_eq_left']
      constructor
      · rintro (rfl | h)
        · exact fun d hd => hd
        · exact h
      · exact .inr
  | _ => simp [includesValue]

theorem includesValue_obj (hds : ds.Pairwise (·.1 < ·.1)) :
    includesValue c (.obj ds) = true ↔ ∃ cs, c = .obj cs ∧ includesFields cs ds = true := by
  cases c with
  | obj cs =>
      simp only [includesValue, Bool.or_eq_true, decide_eq_true_eq, obj.injEq, exists_eq_left']
      constructor
      · rintro (rfl | h)
        · exact includesFields_of_lookup fun f hf => lookup_of_mem hds hf
        · exact h
      · exact .inr
  | _ => simp [includesValue]

/-- Settings that include the desired ones are the overlay exactly if the arrays agree. -/
theorem overlay_eq_self_iff (d : Json) : ∀ c : Json, Canonical c → Canonical d →
    includesValue c d = true → (overlay c d = c ↔ ArraysAgree c d) := by
  induction d using Json.induct with
  | null => intro c _ _ h; simp_all [includesValue, overlay, ArraysAgree.null]
  | bool b => intro c _ _ h; simp_all [includesValue, overlay, ArraysAgree.bool]
  | num q => intro c _ _ h; simp_all [includesValue, overlay, ArraysAgree.num]
  | str s => intro c _ _ h; simp_all [includesValue, overlay, ArraysAgree.str]
  | arr xs _ =>
      intro c _ _ _
      rw [overlay, arraysAgree_arr]
      simp
  | obj ds ih =>
      intro c hcan hdcan h
      obtain ⟨cs, rfl, hfields⟩ := (includesValue_obj hdcan.sorted).1 h
      have hfound := includesFields_iff.1 hfields
      have hkeys : ∀ f ∈ ds, ∃ x, cs.lookup f.1 = some x := fun f hf =>
        (hfound f hf).imp fun _ hx => hx.1
      rw [overlay, obj.injEq, arraysAgree_obj,
        overlayFields_eq_self_iff hcan.sorted hdcan.sorted hkeys]
      refine forall₂_congr fun f hf => forall₂_congr fun x hx => ?_
      obtain ⟨x', hx', hincl⟩ := hfound f hf
      cases hx.symm.trans hx'
      exact ih f hf x (hcan.field (mem_of_lookup hx)) (hdcan.field hf) hincl

/-! ## Settings that are up to date -/

/-- **Up to date.** Settings found to include the desired ones, so that nothing is posted, are what
an overlay of the desired ones gives exactly if every array of the desired ones, reached through
objects, is the current one. -/
theorem up_to_date_iff {currentJson desiredJson : String} {cs ds : List (String × Json)}
    (hcurrent : Json.unmarshal currentJson = some (.obj cs))
    (hdesired : Json.unmarshal desiredJson = some (.obj ds))
    (hincl : includesJson currentJson desiredJson = .ok true) :
    overlay (.obj cs) (.obj ds) = .obj cs ↔ ArraysAgree (.obj cs) (.obj ds) := by
  have hcan := canonical_of_unmarshal hcurrent
  have hdcan := canonical_of_unmarshal hdesired
  have hfields : includesFields cs ds = true := by
    simpa [includesJson, unmarshalMap, hcurrent, hdesired, Json.fields] using hincl
  exact overlay_eq_self_iff _ _ hcan hdcan
    ((includesValue_obj hdcan.sorted).2 ⟨cs, rfl, hfields⟩)

/-- The dynamic configuration of a coordinator that decommissions the servers given. -/
def decommissioning (servers : List Json) : List (String × Json) :=
  [("decommissioningNodes", .arr servers)]

theorem up_to_date_iff_decommissioned :
    includesJson "\x7b\"decommissioningNodes\":[\"a\"]\x7d"
      "\x7b\"decommissioningNodes\":[\"a\"]\x7d"
      = .ok true ∧
    (overlay (.obj (decommissioning [.str "a"])) (.obj (decommissioning [.str "a"])) =
      .obj (decommissioning [.str "a"]) ↔
      ArraysAgree (.obj (decommissioning [.str "a"])) (.obj (decommissioning [.str "a"]))) := by
  have hread : Json.unmarshal "\x7b\"decommissioningNodes\":[\"a\"]\x7d" =
      some (.obj (decommissioning [.str "a"])) := by decide +kernel
  have hincl : includesJson "\x7b\"decommissioningNodes\":[\"a\"]\x7d"
      "\x7b\"decommissioningNodes\":[\"a\"]\x7d" = .ok true := by decide +kernel
  exact ⟨hincl, up_to_date_iff hread hread hincl⟩

/-- A server taken off the list of those to decommission is not noticed: nothing is posted, and
Druid keeps it on its list. -/
theorem recommissioned_unnoticed :
    Json.unmarshal "\x7b\"decommissioningNodes\":[\"a\",\"b\"]\x7d" =
      some (.obj (decommissioning [.str "a", .str "b"])) ∧
    Json.unmarshal "\x7b\"decommissioningNodes\":[\"a\"]\x7d" =
      some (.obj (decommissioning [.str "a"])) ∧
    includesJson "\x7b\"decommissioningNodes\":[\"a\",\"b\"]\x7d"
      "\x7b\"decommissioningNodes\":[\"a\"]\x7d" = .ok true ∧
    overlay (.obj (decommissioning [.str "a", .str "b"])) (.obj (decommissioning [.str "a"])) ≠
      .obj (decommissioning [.str "a", .str "b"]) := by
  refine ⟨by decide +kernel, by decide +kernel, by decide +kernel, by decide +kernel⟩

/-! ## Inclusion as an order -/

/-- `includes` on decoded objects. -/
def includes (current desired : JsonObject) : Bool := includesFields current.fields desired.fields

theorem includes_self (d : JsonObject) : includes d d = true :=
  includesFields_of_lookup fun _ hf => lookup_of_mem d.canonical.sorted hf

theorem includes_iff {c d : JsonObject} :
    includes c d = true ↔ includesValue (.obj c.fields) (.obj d.fields) = true := by
  simp [includesValue_obj d.canonical.sorted, includes]

/-- What a value includes is included wherever the value is: objects key by key, arrays by their
elements, anything else by being the same. -/
theorem includesValue_trans (c : Json) (hc : Canonical c) : ∀ a b : Json, Canonical b →
    includesValue a b = true → includesValue b c = true → includesValue a c = true := by
  induction c using Json.induct with
  | arr cs _ =>
      intro a b _ hab hbc
      obtain ⟨bs, rfl, hbs⟩ := includesValue_arr.1 hbc
      obtain ⟨xs, rfl, hxs⟩ := includesValue_arr.1 hab
      exact includesValue_arr.2 ⟨xs, rfl, fun d hd => hxs d (hbs d hd)⟩
  | obj cs ih =>
      intro a b hb hab hbc
      obtain ⟨bs, rfl, hbs⟩ := (includesValue_obj hc.sorted).1 hbc
      obtain ⟨xs, rfl, hxs⟩ := (includesValue_obj hb.sorted).1 hab
      refine (includesValue_obj hc.sorted).2 ⟨xs, rfl, includesFields_iff.2 fun f hf => ?_⟩
      -- the key is found in the middle object, and with it in the outer one
      obtain ⟨y, hy, hyf⟩ := includesFields_iff.1 hbs f hf
      obtain ⟨x, hx, hxy⟩ := includesFields_iff.1 hxs _ (mem_of_lookup hy)
      exact ⟨x, hx, ih f hf (hc.field hf) x y (hb.field (mem_of_lookup hy)) hxy hyf⟩
  | _ =>
      intro a b _ hab hbc
      have heq := hbc
      simp only [includesValue, decide_eq_true_eq] at heq
      rwa [heq] at hab

/-- **A preorder.** Settings include themselves, and what is included in included settings is
included. -/
theorem includes_preorder : (∀ a : JsonObject, includes a a = true) ∧
    ∀ a b c : JsonObject, includes a b = true → includes b c = true → includes a c = true := by
  refine ⟨includes_self, fun a b c hab hbc => ?_⟩
  rw [includes_iff] at hab hbc ⊢
  exact includesValue_trans _ c.canonical _ _ b.canonical hab hbc

/-! ## Settings with added keys -/

theorem includesValue_of_objectFree {c' d : Json} (hfree : ObjectFree d) (heq : c = d)
    (hext : Json.Extends c c') : includesValue c' d = true := by
  subst heq
  rw [← eq_of_extends c c' hfree hext]
  exact includesValue_self c

/-- Without objects in its arrays a desired value stays included. -/
theorem includesValue_extends (d : Json) (hd : Canonical d) (hscalar : ScalarArrays d) :
    ∀ c c' : Json, includesValue c d = true → Json.Extends c c' → includesValue c' d = true := by
  induction d using Json.induct with
  | null =>
      intro c c' h hext
      exact includesValue_of_objectFree .null (by simpa [includesValue] using h) hext
  | bool b =>
      intro c c' h hext
      exact includesValue_of_objectFree (.bool b) (by simpa [includesValue] using h) hext
  | num q =>
      intro c c' h hext
      exact includesValue_of_objectFree (.num q) (by simpa [includesValue] using h) hext
  | str s =>
      intro c c' h hext
      exact includesValue_of_objectFree (.str s) (by simpa [includesValue] using h) hext
  | arr ds _ =>
      intro c c' h hext
      obtain ⟨xs, rfl, hmem⟩ := includesValue_arr.1 h
      cases hscalar with
      | arr hfree =>
        cases hext with
        | @arr _ ys hext =>
          refine includesValue_arr.2 ⟨ys, rfl, fun d hd => ?_⟩
          obtain ⟨y, hy, hdy⟩ := exists_mem_of_forall₂ hext (hmem d hd)
          rw [eq_of_extends d y (hfree d hd) hdy]
          exact hy
  | obj ds ih =>
      intro c c' h hext
      obtain ⟨cs, rfl, hfields⟩ := (includesValue_obj hd.sorted).1 h
      cases hscalar with
      | obj hscalar =>
        cases hext with
        | @obj _ cs' hkeys hvalues =>
          refine (includesValue_obj hd.sorted).2 ⟨cs', rfl, includesFields_iff.2 fun f hf => ?_⟩
          obtain ⟨x, hx, hincl⟩ := includesFields_iff.1 hfields f hf
          obtain ⟨y, hy, hxy⟩ := (Json.Extends.obj hkeys hvalues).lookup hx
          exact ⟨y, hy, ih f hf (hd.field hf) (hscalar f hf) x y hincl hxy⟩

/-- A value that stays included when every object gets a new key has no object in an array. -/
theorem scalarArrays_of_includes_grow (d : Json) (hd : Canonical d) (hk : ¬ HasKey k d)
    (h : includesValue (grow k d) d = true) : ScalarArrays d := by
  induction d using Json.induct with
  | null => exact .null
  | bool b => exact .bool b
  | num q => exact .num q
  | str s => exact .str s
  | arr ds _ =>
      rw [grow, growElements_eq_map] at h
      obtain ⟨xs, hxs, hmem⟩ := includesValue_arr.1 h
      cases hxs
      refine .arr fun d hdmem => ?_
      -- an element of the grown array without the key has not grown
      obtain ⟨x, hx, hgrow⟩ := List.mem_map.1 (hmem d hdmem)
      have hnokey : ¬ HasKey k (grow k x) := fun hkey => hk (.element hdmem (hgrow ▸ hkey))
      have hfree := objectFree_of_grow x hnokey
      have heq := eq_of_extends x _ hfree (extends_grow x fun hkey => hk (.element hx hkey))
      rw [← hgrow, ← heq]
      exact hfree
  | obj ds ih =>
      rw [grow] at h
      obtain ⟨cs, hcs, hfields⟩ := (includesValue_obj hd.sorted).1 h
      cases hcs
      refine .obj fun f hf => ?_
      obtain ⟨x, hx, hincl⟩ := includesFields_iff.1 hfields f hf
      have hne : f.1 ≠ k := fun heq => hk (.here (heq ▸ List.mem_map_of_mem hf))
      rw [lookup_setField, if_neg hne, lookup_growFields, lookup_of_mem hd.sorted hf] at hx
      cases hx
      exact ih f hf (hd.field hf) (fun hkey => hk (.field hf hkey)) hincl

/-- **Defaults of the server.** Settings keep including the desired ones whatever keys are added to
their objects, exactly if no array of the desired ones holds an object. -/
theorem tolerates_defaults_iff (d : JsonObject) :
    (∀ c c' : JsonObject, includes c d = true → Json.Extends (.obj c.fields) (.obj c'.fields) →
      includes c' d = true) ↔ ScalarArrays (.obj d.fields) := by
  constructor
  · intro h
    obtain ⟨k, hk⟩ := exists_fresh_key (.obj d.fields)
    have hgrown := h d ⟨setField k .null (growFields k d.fields), canonical_grow k _ d.canonical⟩
      (includes_self d) (extends_grow _ hk)
    exact scalarArrays_of_includes_grow _ d.canonical hk (includes_iff.1 hgrown)
  · intro hscalar c c' hincl hext
    exact includes_iff.2 (includesValue_extends _ d.canonical hscalar _ _
      (includes_iff.1 hincl) hext)

/-- One metric of a compaction's `metricsSpec`, under its name and with the other keys given. -/
def namedMetric (rest : List (String × Json)) : List (String × Json) :=
  [("metricsSpec", .arr [.obj (("name", .str "n") :: rest)])]

theorem canonical_namedMetric : Canonical (.obj (namedMetric [])) := by
  simp [namedMetric, Canonical, CanonicalFields, CanonicalList]

theorem canonical_namedMetric_typed : Canonical (.obj (namedMetric [("type", .str "count")])) := by
  have hlt : "name" < "type" := String.lt_iff_toList_lt.2 (by decide)
  simpa [namedMetric, Canonical, CanonicalFields, CanonicalList] using hlt

/-- A metric that Druid stores with one more key is posted again. -/
theorem defaulted_metric_posted :
    Json.Extends (.obj (namedMetric [])) (.obj (namedMetric [("type", .str "count")])) ∧
    includes ⟨namedMetric [], canonical_namedMetric⟩
      ⟨namedMetric [], canonical_namedMetric⟩ = true ∧
    includes ⟨namedMetric [("type", .str "count")], canonical_namedMetric_typed⟩
      ⟨namedMetric [], canonical_namedMetric⟩ = false := by
  refine ⟨?_, by decide +kernel, by decide +kernel⟩
  have hmetric : Json.Extends (.obj [("name", .str "n")])
      (.obj [("name", .str "n"), ("type", .str "count")]) := (Json.Extends.str "n").cons (.nil _)
  exact (Json.Extends.arr (.cons hmetric .nil)).cons (.nil _)

end Ingestion

end DruidOperator
