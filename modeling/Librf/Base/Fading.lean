import Mathlib.Data.Set.Finite.Lattice
import Mathlib.Order.OrderIsoNat
import Librf.Base.Transition

/-!
# Runs without end

A measure that no step raises falls only finitely often in them.
-/

namespace Librf.Transition

variable {σ ε β : Type*} {M : System σ ε} {allowed : σ → ε → Prop} {s : σ}

theorem finite_falls [PartialOrder β] [WellFoundedLT β] {f : Nat → β} (falls : ∀ i, f (i + 1) ≤ f i) :
    {i | f (i + 1) < f i}.Finite := by
  obtain ⟨n, still⟩ := WellFoundedGT.monotone_chain_condition (α := βᵒᵈ)
    ⟨fun i => OrderDual.toDual (f i), monotone_nat_of_le_succ falls⟩
  refine (Set.finite_lt_nat n).subset fun i fall => ?_
  by_contra late
  have here : f n = f i := still i (Nat.le_of_not_lt late)
  have next : f n = f (i + 1) := still (i + 1) (Nat.le_succ_of_le (Nat.le_of_not_lt late))
  exact (ne_of_lt fall) (next.symm.trans here)

/-- A run without end from `s` on, all of whose steps are allowed. -/
structure System.Endless (M : System σ ε) (allowed : σ → ε → Prop) (s : σ) where
  states : Nat → σ
  events : Nat → ε
  start : states 0 = s
  permitted : ∀ i, allowed (states i) (events i)
  step : ∀ i, M.step (states i) (events i) = some (states (i + 1))

theorem System.Endless.reachable (run : M.Endless allowed s) (reached : M.ReachableBy allowed s)
    (i : Nat) : M.ReachableBy allowed (run.states i) := by
  induction i with
  | zero => rwa [run.start]
  | succ i ih => exact ih.next (run.events i) (run.step i) (run.permitted i)

theorem System.Endless.finite [PartialOrder β] [WellFoundedLT β] (run : M.Endless allowed s)
    (measure : σ → β) (marked : ε → Prop) (reached : M.ReachableBy allowed s)
    (falls : ∀ s e t, M.ReachableBy allowed s → allowed s e → M.step s e = some t →
      measure t ≤ measure s ∧ (marked e → measure t < measure s)) :
    {i | marked (run.events i)}.Finite := by
  have step (i : Nat) := falls _ _ _ (run.reachable reached i) (run.permitted i) (run.step i)
  refine (finite_falls (f := fun i => measure (run.states i)) fun i => (step i).1).subset ?_
  exact fun i member => (step i).2 member

theorem System.exists_endless (M : System σ ε) (allowed : σ → ε → Prop) {I : σ → Prop} (e : ε)
    (start : I s)
    (goesOn : ∀ s, I s → allowed s e ∧ ∃ t, M.step s e = some t ∧ I t) :
    ∃ run : M.Endless allowed s, ∀ i, run.events i = e := by
  choose next step kept using fun s : {s // I s} => (goesOn s.1 s.2).2
  let advance (s : {s // I s}) : {s // I s} := ⟨next s, kept s⟩
  refine ⟨⟨fun i => (advance^[i] ⟨s, start⟩).1, fun _ => e, rfl, fun i => ?_, fun i => ?_⟩, fun _ => rfl⟩
  · exact (goesOn _ (advance^[i] ⟨s, start⟩).2).1
  · rw [Function.iterate_succ_apply']
    exact step _

end Librf.Transition
