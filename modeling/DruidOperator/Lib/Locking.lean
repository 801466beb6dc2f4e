import DruidOperator.Lib.Replica

/-!
# Optimistic locking

One object that many write and a client reads through a cache. Every write is given a new number,
and an update is refused unless it is made from the version that is stored.

* `Register α` — the versions of the object, some of them deletions, and the last number given out.
* `Known num s a` — nothing but `a` itself is stored under the number of `a`, now and later.
* `Numbered num s` — every version in sight is known.

So an update that is not refused is made from the very object it replaces, however long ago the
client has read it: `Known.eq_of_stored`.
-/

/-- An object with its cached copy, and the last number given out. -/
structure Register (α : Type) where
  object : Replica (Option α)
  version : ℕ := 0

namespace Register

variable {α : Type} {num : α → ℕ} {s : Register α} {a b : α}

/-- The version that is stored. -/
def stored (s : Register α) : Option α := s.object.latest

/-- Store a version, or delete the object. -/
def put (s : Register α) (v : Option α) : Register α where
  object := s.object.put v
  version := s.version + 1

/-- The cache catches up by `n` versions. -/
def sync (s : Register α) (n : ℕ) : Register α := { s with object := s.object.sync n }

@[simp] theorem stored_put (s : Register α) (v : Option α) : (s.put v).stored = v :=
  Replica.latest_put _ _

@[simp] theorem stored_sync (s : Register α) (n : ℕ) : (s.sync n).stored = s.stored :=
  Replica.latest_sync _ _

/-- Nothing else is stored under the number of `a`, and none will be. -/
structure Known (num : α → ℕ) (s : Register α) (a : α) : Prop where
  given : num a ≤ s.version
  same : ∀ b, s.stored = some b → num b = num a → b = a

/-- Every version in sight is known. -/
def Numbered (num : α → ℕ) (s : Register α) : Prop :=
  ∀ a, some a ∈ s.object.versions → Known num s a

/-- A new version has the next number. -/
def Fresh (num : α → ℕ) (s : Register α) (v : Option α) : Prop := ∀ a, v = some a →
    num a = s.version + 1

/-- **What was read is what is stored**, if their numbers agree. -/
theorem Known.eq_of_stored (h : Known num s a) (hstored : s.stored = some b)
    (hnum : num a = num b) :
    s.stored = some a := by
  rw [hstored, h.same b hstored hnum.symm]

theorem Known.put {v : Option α} (h : Known num s a) (hv : Fresh num s v) :
    Known num (s.put v) a where
  given := Nat.le_succ_of_le h.given
  same b hb hnum := by
    rw [stored_put] at hb
    have hnew := hv b hb
    have hold := h.given
    omega

theorem Known.sync (h : Known num s a) (n : ℕ) : Known num (s.sync n) a where
  given := h.given
  same b hb := h.same b (by rwa [stored_sync] at hb)

theorem Numbered.put {v : Option α} (h : Numbered num s) (hv : Fresh num s v) :
    Numbered num (s.put v) := by
  intro a ha
  have ha : some a ∈ s.object.versions ++ [v] := ha
  rcases List.mem_append.1 ha with hold | hnew
  · exact (h a hold).put hv
  · have hnew : some a = v := List.mem_singleton.1 hnew
    refine ⟨Nat.le_of_eq (hv a hnew.symm), fun b hb _ => ?_⟩
    rw [stored_put, ← hnew] at hb
    exact (Option.some.inj hb).symm

theorem Numbered.sync (h : Numbered num s) (n : ℕ) : Numbered num (s.sync n) :=
  fun a ha => (h a ((Replica.versions_sync n s.object).subset ha)).sync n

/-- What the cache shows is known. -/
theorem Numbered.seen (h : Numbered num s) (hseen : s.object.seen = some a) : Known num s a :=
  h a (hseen ▸ s.object.seen_mem)

end Register
