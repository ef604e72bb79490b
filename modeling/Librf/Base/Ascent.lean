import Mathlib.Data.List.Basic
import Mathlib.Data.List.Perm.Subperm
import Librf.Base.CountedTable

/-!
# The way up from an element

`up` is followed until it ends. That there is such a list says that the way ends, so it passes no
element twice.
-/

namespace Librf

/-- The elements on the way from `a`, which is the first of them. -/
inductive Ascent {β : Type*} (up : β → Option β) : β → List β → Prop
  | top {a} : up a = none → Ascent up a [a]
  | next {a b l} : up a = some b → Ascent up b l → Ascent up a (a :: l)

namespace Ascent

variable {β : Type*} {up : β → Option β} {a b : β} {l l' : List β}

theorem unique (ascent : Ascent up a l) (other : Ascent up a l') : l = l' := by
  induction ascent generalizing l' with
  | top ends =>
      cases other with
      | top _ => rfl
      | next link _ => simp [ends] at link
  | @next a b l link _ ih =>
      cases other with
      | top ends => simp [ends] at link
      | next link' rest =>
          obtain rfl : b = _ := Option.some.inj (link.symm.trans link')
          rw [ih rest]

theorem exists_suffix (ascent : Ascent up a l) (passed : b ∈ l) : ∃ l', Ascent up b l' ∧ l' <:+ l := by
  induction ascent with
  | top ends =>
      obtain rfl := List.mem_singleton.1 passed
      exact ⟨_, .top ends, List.suffix_rfl⟩
  | next link rest ih =>
      rcases List.mem_cons.1 passed with rfl | later
      · exact ⟨_, .next link rest, List.suffix_rfl⟩
      · obtain ⟨l', ascent', suffix⟩ := ih later
        exact ⟨l', ascent', suffix.trans (List.suffix_cons _ _)⟩

theorem nodup (ascent : Ascent up a l) : l.Nodup := by
  induction ascent with
  | top _ => exact List.pairwise_singleton ..
  | @next a b l link rest ih =>
      refine List.nodup_cons.2 ⟨fun again => ?_, ih⟩
      -- The way from the second `a` would be shorter than the one from the first.
      obtain ⟨l', ascent', suffix⟩ := rest.exists_suffix again
      have same : a :: l = l' := (Ascent.next link rest).unique ascent'
      have short := suffix.length_le
      rw [← same, List.length_cons] at short
      exact absurd short (Nat.not_succ_le_self _)

theorem mem_start (ascent : Ascent up a l) : a ∈ l := by
  cases ascent <;> exact List.mem_cons_self

theorem exists_last (ascent : Ascent up a l) : ∃ r, l.getLast? = some r ∧ up r = none := by
  induction ascent with
  | top ends => exact ⟨_, rfl, ends⟩
  | @next a b l _ rest ih =>
      obtain ⟨r, last, ends⟩ := ih
      refine ⟨r, ?_, ends⟩
      rw [List.getLast?_cons, last]
      rfl

theorem mem_up (ascent : Ascent up a l) (passed : b ∈ l) {c : β} (link : up b = some c) : c ∈ l := by
  obtain ⟨l', ascent', suffix⟩ := ascent.exists_suffix passed
  cases ascent' with
  | top ends => simp [ends] at link
  | next link' rest =>
      obtain rfl : c = _ := Option.some.inj (link.symm.trans link')
      exact suffix.subset (List.mem_cons_of_mem _ rest.mem_start)

theorem exists_below (ascent : Ascent up a l) (passed : b ∈ l) :
    b = a ∨ ∃ c ∈ l, c ≠ b ∧ up c = some b := by
  induction ascent with
  | top _ => exact .inl (List.mem_singleton.1 passed)
  | @next a b' l link rest ih =>
      have nodup := (Ascent.next link rest).nodup
      rcases List.mem_cons.1 passed with rfl | later
      · exact .inl rfl
      · right
        rcases ih later with rfl | ⟨c, below, other, link'⟩
        · refine ⟨a, List.mem_cons_self, ?_, link⟩
          rintro rfl
          exact (List.nodup_cons.1 nodup).1 later
        · exact ⟨c, List.mem_cons_of_mem _ below, other, link'⟩

theorem forall_mem {K : β → Prop} (ascent : Ascent up a l) (start : K a)
    (next : ∀ c d, K c → up c = some d → K d) : ∀ c ∈ l, K c := by
  induction ascent with
  | top _ => exact fun c passed => List.mem_singleton.1 passed ▸ start
  | next link _ ih =>
      intro c passed
      rcases List.mem_cons.1 passed with rfl | later
      · exact start
      · exact ih (next _ _ start link) c later

theorem congr {up' : β → Option β} (ascent : Ascent up a l) (same : ∀ c ∈ l, up' c = up c) :
    Ascent up' a l := by
  induction ascent with
  | top ends => exact .top ((same _ List.mem_cons_self).trans ends)
  | next link _ ih =>
      exact .next ((same _ List.mem_cons_self).trans link)
        (ih fun c passed => same c (List.mem_cons_of_mem _ passed))

theorem length_le {up : Nat → Option Nat} {n bound : Nat} {l : List Nat} (ascent : Ascent up n l)
    (below : ∀ m ∈ l, m < bound) : l.length ≤ bound := by
  have within : l ⊆ List.range bound := fun m passed => List.mem_range.2 (below m passed)
  calc
    l.length ≤ (List.range bound).length := (ascent.nodup.subperm within).length_le
    _ = bound := List.length_range

theorem rootFrom {γ : Type*} {parent : γ → Option Nat} {table : Nat → Option γ}
    {up : Nat → Option Nat} {n r fuel : Nat} {l : List Nat} (ascent : Ascent up n l)
    (there : ∀ m ∈ l, ∃ entry, table m = some entry ∧ parent entry = up m)
    (last : l.getLast? = some r) (enough : l.length ≤ fuel) :
    CountedTable.rootFrom parent table fuel n = some r := by
  induction ascent generalizing fuel with
  | @top a ends =>
      obtain ⟨entry, lookup, link⟩ := there a List.mem_cons_self
      cases fuel with
      | zero => cases enough
      | succ fuel => simpa [CountedTable.rootFrom, lookup, link, ends] using last
  | @next a b l link rest ih =>
      obtain ⟨entry, lookup, here⟩ := there a List.mem_cons_self
      obtain ⟨r', last', -⟩ := rest.exists_last
      have same : r' = r := by simpa [List.getLast?_cons, last'] using last
      cases fuel with
      | zero => cases enough
      | succ fuel =>
          have above := ih (fun m passed => there m (List.mem_cons_of_mem _ passed)) (same ▸ last')
            (Nat.le_of_succ_le_succ enough)
          simpa [CountedTable.rootFrom, lookup, here, link] using above

end Ascent

end Librf
