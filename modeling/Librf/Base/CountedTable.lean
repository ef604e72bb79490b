import Mathlib.Logic.Function.Basic

/-!
# Tables of counted objects

An entry leaves the table with its last reference. Entries may name a parent; the chain of parents
is followed through the table, so that it breaks at an entry that is gone.
-/

namespace Librf.CountedTable

variable {β : Type*} {references : β → Nat} {parent : β → Option Nat} {table : Nat → Option β}

def put (references : β → Nat) (table : Nat → Option β) (n : Nat) (entry : β) : Nat → Option β :=
  Function.update table n (if references entry = 0 then none else some entry)

theorem put_self {n : Nat} {entry : β} (held : references entry ≠ 0) :
    put references table n entry n = some entry := by
  simp [put, held]

theorem put_of_ne {n n' : Nat} {entry : β} (other : n' ≠ n) :
    put references table n entry n' = table n' :=
  Function.update_of_ne other _ _

theorem eq_of_put_self {n : Nat} {entry found : β}
    (lookup : put references table n entry n = some found) : found = entry := by
  by_cases gone : references entry = 0
  · simp [put, gone] at lookup
  · simpa [put, gone] using lookup.symm

/-- Follow the parents of `n`; `none` if an entry on the way is gone. -/
def rootFrom (parent : β → Option Nat) (table : Nat → Option β) : Nat → Nat → Option Nat
  | 0, _ => none
  | fuel + 1, n => match table n with
      | none => none
      | some entry => match parent entry with
          | none => some n
          | some p => rootFrom parent table fuel p

inductive RootOf (parent : β → Option Nat) (table : Nat → Option β) : Nat → Nat → Prop
  | here {n entry} : table n = some entry → parent entry = none → RootOf parent table n n
  | up {n entry p r} : table n = some entry → parent entry = some p → RootOf parent table p r →
      RootOf parent table n r

theorem rootOf_of_rootFrom {fuel n r : Nat} (found : rootFrom parent table fuel n = some r) :
    RootOf parent table n r := by
  induction fuel generalizing n with
  | zero => cases found
  | succ fuel ih =>
      unfold rootFrom at found
      cases lookup : table n with
      | none => simp [lookup] at found
      | some entry =>
          cases link : parent entry with
          | none =>
              simp only [lookup, link, Option.some.injEq] at found
              exact found ▸ .here lookup link
          | some p =>
              simp only [lookup, link] at found
              exact .up lookup link (ih found)

theorem RootOf.rootFrom
    (older : ∀ n entry p, table n = some entry → parent entry = some p → p < n)
    {n r : Nat} (rootOf : RootOf parent table n r) {fuel : Nat} (enough : n < fuel) :
    rootFrom parent table fuel n = some r := by
  induction rootOf generalizing fuel with
  | here lookup link =>
      cases fuel with
      | zero => exact absurd enough (Nat.not_lt_zero _)
      | succ fuel => simp [CountedTable.rootFrom, lookup, link]
  | up lookup link _ ih =>
      cases fuel with
      | zero => exact absurd enough (Nat.not_lt_zero _)
      | succ fuel =>
          have below := older _ _ _ lookup link
          have rest := ih (Nat.lt_of_lt_of_le below (Nat.le_of_lt_succ enough))
          simpa [CountedTable.rootFrom, lookup, link] using rest

theorem RootOf.root {n r : Nat} (rootOf : RootOf parent table n r) :
    ∃ entry, table r = some entry ∧ parent entry = none := by
  induction rootOf with
  | here lookup link => exact ⟨_, lookup, link⟩
  | up _ _ _ ih => exact ih

theorem RootOf.along {P : Nat → Prop}
    (up : ∀ n entry p, P n → table n = some entry → parent entry = some p → P p)
    {n r : Nat} (rootOf : RootOf parent table n r) (start : P n) : P r := by
  induction rootOf with
  | here _ _ => exact start
  | up lookup link _ ih => exact ih (up _ _ _ start lookup link)

theorem RootOf.keep {P : Nat → Prop} {after : Nat → Option β}
    (up : ∀ n entry p, P n → table n = some entry → parent entry = some p → P p)
    (kept : ∀ n entry, P n → table n = some entry →
      ∃ entry', after n = some entry' ∧ parent entry' = parent entry)
    {n r : Nat} (rootOf : RootOf parent table n r) (start : P n) : RootOf parent after n r := by
  induction rootOf with
  | here lookup link =>
      obtain ⟨entry', lookup', link'⟩ := kept _ _ start lookup
      exact .here lookup' (link'.trans link)
  | up lookup link _ ih =>
      obtain ⟨entry', lookup', link'⟩ := kept _ _ start lookup
      exact .up lookup' (link'.trans link) (ih (up _ _ _ start lookup link))

end Librf.CountedTable
