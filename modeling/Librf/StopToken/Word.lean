import Mathlib.Data.Nat.Notation

/-!
# The packed word of `stop_state`

Bit 0 says that a stop has been requested, bit 1 is the lock, and two counters of 31 bits count the
references of tokens and of sources. `WordOps` lists what the code does with the word: once as it
computes with 64 bits, once on the four fields.
-/

namespace Librf.StopToken

/-- What `stop_state` does with `state_`. A release tells also whether the code deletes. -/
structure WordOps (W : Type) where
  initial : W
  isLocked : W → Bool
  isStopRequested : W → Bool
  isStopRequestable : W → Bool
  -- `old_state | kLockedFlag` and `old_state | kLockAndStopedFlag`
  locking : W → W
  stopping : W → W
  unlock : W → W
  unlockAndIncrementTokenRefCount : W → W
  unlockAndDecrementTokenRefCount : W → W × Bool
  addTokenReference : W → W
  removeTokenReference : W → W × Bool
  addSourceReference : W → W
  removeSourceReference : W → W × Bool

/-! ## 64 bits -/

def kStopRequestedFlag : UInt64 := 1
def kLockedFlag : UInt64 := 2
def kTokenRefIncrement : UInt64 := 4
def kSourceRefIncrement : UInt64 := (1 : UInt64) <<< 33

def kZeroRef : UInt64 := kTokenRefIncrement + kSourceRefIncrement
def kLockedAndZeroRef : UInt64 := kZeroRef + kZeroRef
def kLockAndStopedFlag : UInt64 := kStopRequestedFlag ||| kLockedFlag
def kUnlockAndTokenRefIncrement : UInt64 := kLockedFlag - kTokenRefIncrement
def klockAndTokenRefIncrement : UInt64 := kLockedFlag + kTokenRefIncrement

theorem toNat_kTokenRefIncrement : kTokenRefIncrement.toNat = 4 := rfl

theorem toNat_kSourceRefIncrement : kSourceRefIncrement.toNat = 8589934592 := rfl

theorem toNat_kZeroRef : kZeroRef.toNat = 8589934596 := rfl

theorem toNat_kLockedAndZeroRef : kLockedAndZeroRef.toNat = 17179869192 := rfl

theorem toNat_klockAndTokenRefIncrement : klockAndTokenRefIncrement.toNat = 6 := rfl

def packedOps : WordOps UInt64 where
  initial := kSourceRefIncrement
  isLocked state := state &&& kLockedFlag != 0
  isStopRequested state := state &&& kStopRequestedFlag != 0
  isStopRequestable state := state &&& kStopRequestedFlag != 0 || decide (kSourceRefIncrement ≤ state)
  locking old := old ||| kLockedFlag
  stopping old := old ||| kLockAndStopedFlag
  unlock old := old - kLockedFlag
  unlockAndIncrementTokenRefCount old := old - kUnlockAndTokenRefIncrement
  unlockAndDecrementTokenRefCount old :=
    (old - klockAndTokenRefIncrement, decide (old < kLockedAndZeroRef))
  addTokenReference old := old + kTokenRefIncrement
  removeTokenReference old := (old - kTokenRefIncrement, decide (old < kZeroRef))
  addSourceReference old := old + kSourceRefIncrement
  removeSourceReference old := (old - kSourceRefIncrement, decide (old < kZeroRef))

/-! ## Fields -/

@[ext]
structure Fields where
  requested : Bool
  locked : Bool
  tokens : Nat
  sources : Nat
  deriving DecidableEq, Repr

namespace Fields

def value (f : Fields) : Nat :=
  f.requested.toNat + 2 * f.locked.toNat + 4 * f.tokens + 8589934592 * f.sources

def pack (f : Fields) : UInt64 := UInt64.ofNat f.value

/-- Both counters fit into 31 bits. -/
def Fits (f : Fields) : Prop := f.tokens < 2147483648 ∧ f.sources < 2147483648

instance (f : Fields) : Decidable f.Fits := inferInstanceAs (Decidable (_ ∧ _))

def ops : WordOps Fields where
  initial := ⟨false, false, 0, 1⟩
  isLocked := locked
  isStopRequested := requested
  isStopRequestable f := f.requested || decide (f.sources ≠ 0)
  locking f := { f with locked := true }
  stopping f := { f with requested := true, locked := true }
  unlock f := { f with locked := false }
  unlockAndIncrementTokenRefCount f := { f with locked := false, tokens := f.tokens + 1 }
  unlockAndDecrementTokenRefCount f :=
    ({ f with locked := false, tokens := f.tokens - 1 },
      decide (f.sources ≤ 1 ∨ f.sources = 2 ∧ f.tokens ≤ 1))
  addTokenReference f := { f with tokens := f.tokens + 1 }
  removeTokenReference f :=
    ({ f with tokens := f.tokens - 1 }, decide (f.sources = 0 ∨ f.sources = 1 ∧ f.tokens = 0))
  addSourceReference f := { f with sources := f.sources + 1 }
  removeSourceReference f :=
    ({ f with sources := f.sources - 1 }, decide (f.sources = 0 ∨ f.sources = 1 ∧ f.tokens = 0))

variable {f g : Fields}

theorem Fits.value_lt (fits : f.Fits) : f.value < 18446744073709551616 := by
  obtain ⟨tokens, sources⟩ := fits
  have requested := f.requested.toNat_lt
  have locked := f.locked.toNat_lt
  unfold value
  omega

theorem Fits.toNat_pack (fits : f.Fits) : f.pack.toNat = f.value :=
  Nat.mod_eq_of_lt fits.value_lt

/-! Every field is read off the word by division. -/

theorem Fits.sources_eq (fits : f.Fits) : f.sources = f.value / 8589934592 := by
  obtain ⟨tokens, -⟩ := fits
  have requested := f.requested.toNat_lt
  have locked := f.locked.toNat_lt
  unfold value
  omega

theorem Fits.tokens_eq (fits : f.Fits) : f.tokens = f.value / 4 % 2147483648 := by
  obtain ⟨tokens, -⟩ := fits
  have requested := f.requested.toNat_lt
  have locked := f.locked.toNat_lt
  unfold value
  omega

theorem locked_eq (f : Fields) : f.locked = f.value.testBit 1 := by
  have requested := f.requested.toNat_lt
  rw [Nat.testBit_succ, Nat.testBit_zero]
  cases locked : f.locked with
  | false => exact (decide_eq_false (by rw [value, locked, Bool.toNat_false]; omega)).symm
  | true => exact (decide_eq_true (by rw [value, locked, Bool.toNat_true]; omega)).symm

theorem requested_eq (f : Fields) : f.requested = f.value.testBit 0 := by
  rw [Nat.testBit_zero]
  cases requested : f.requested with
  | false => exact (decide_eq_false (by rw [value, requested, Bool.toNat_false]; omega)).symm
  | true => exact (decide_eq_true (by rw [value, requested, Bool.toNat_true]; omega)).symm

theorem Fits.pack_inj (fits : f.Fits) (fits' : g.Fits) (same : f.pack = g.pack) : f = g := by
  have values : f.value = g.value := by
    rw [← fits.toNat_pack, same, fits'.toNat_pack]
  apply Fields.ext
  · rw [f.requested_eq, values, ← g.requested_eq]
  · rw [f.locked_eq, values, ← g.locked_eq]
  · rw [fits.tokens_eq, values, ← fits'.tokens_eq]
  · rw [fits.sources_eq, values, ← fits'.sources_eq]

/-! ## The 64 bits compute on the fields -/

theorem or_flags (x flags : Nat) (small : flags < 4) :
    x ||| flags = 4 * (x / 4) + (x % 4 ||| flags) := by
  have split := Nat.div_add_mod (x ||| flags) (2 ^ 2)
  rw [Nat.or_div_two_pow, Nat.or_mod_two_pow, Nat.div_eq_of_lt (by omega : flags < 2 ^ 2),
    Nat.mod_eq_of_lt (by omega : flags < 2 ^ 2), Nat.or_zero] at split
  exact split.symm

theorem and_flags (x flags : Nat) (small : flags < 4) : x &&& flags = x % 4 &&& flags := by
  have bound : x &&& flags ≤ flags := Nat.and_le_right
  have low := Nat.and_mod_two_pow (a := x) (b := flags) (n := 2)
  rw [Nat.mod_eq_of_lt (by omega : x &&& flags < 2 ^ 2),
    Nat.mod_eq_of_lt (by omega : flags < 2 ^ 2)] at low
  exact low

theorem value_mod (f : Fields) : f.value % 4 = f.requested.toNat + 2 * f.locked.toNat := by
  have requested := f.requested.toNat_lt
  have locked := f.locked.toNat_lt
  unfold value
  omega

theorem value_div (f : Fields) : f.value / 4 = f.tokens + 2147483648 * f.sources := by
  have requested := f.requested.toNat_lt
  have locked := f.locked.toNat_lt
  unfold value
  omega

theorem Fits.and_pack (fits : f.Fits) {flags : UInt64} (small : flags.toNat < 4) :
    (f.pack &&& flags).toNat = (f.requested.toNat + 2 * f.locked.toNat) &&& flags.toNat := by
  rw [UInt64.toNat_and, fits.toNat_pack, and_flags _ _ small, value_mod]

theorem Fits.or_pack (fits : f.Fits) {flags : UInt64} (small : flags.toNat < 4)
    (same : g.tokens = f.tokens ∧ g.sources = f.sources)
    (low : g.requested.toNat + 2 * g.locked.toNat =
      (f.requested.toNat + 2 * f.locked.toNat) ||| flags.toNat) : f.pack ||| flags = g.pack := by
  have fits' : g.Fits := by simpa only [Fits, same] using fits
  apply UInt64.toNat.inj
  rw [fits'.toNat_pack, UInt64.toNat_or, fits.toNat_pack, or_flags _ _ small, value_mod, value_div, ← low, value,
    same.1, same.2]
  omega

theorem Fits.pack_sub (fits : f.Fits) {word : UInt64} (same : word.toNat + g.value = f.value) :
    f.pack - word = g.pack := by
  have bound := fits.value_lt
  have result : g.pack.toNat = g.value := Nat.mod_eq_of_lt (by omega)
  have below : word ≤ f.pack := by
    rw [UInt64.le_iff_toNat_le, fits.toNat_pack]
    omega
  apply UInt64.toNat.inj
  rw [UInt64.toNat_sub_of_le _ _ below, fits.toNat_pack, result]
  omega

theorem pack_add {word : UInt64} (same : g.value = f.value + word.toNat) :
    f.pack + word = g.pack := by
  apply UInt64.toNat.inj
  rw [UInt64.toNat_add, pack, pack, same]
  simp

theorem Fits.bne_pack (fits : f.Fits) {flags : UInt64} (small : flags.toNat < 4) :
    (f.pack &&& flags != 0) =
      ((f.requested.toNat + 2 * f.locked.toNat) &&& flags.toNat != 0) := by
  rw [Bool.eq_iff_iff, bne_iff_ne, bne_iff_ne, ← fits.and_pack small]
  exact not_congr UInt64.toNat_inj.symm

section Operations

variable (fits : f.Fits)

include fits

theorem isLocked_pack : packedOps.isLocked f.pack = f.locked := by
  change (f.pack &&& kLockedFlag != 0) = _
  rw [fits.bne_pack (by decide)]
  cases f.requested <;> cases f.locked <;> rfl

theorem isStopRequested_pack : packedOps.isStopRequested f.pack = f.requested := by
  change (f.pack &&& kStopRequestedFlag != 0) = _
  rw [fits.bne_pack (by decide)]
  cases f.requested <;> cases f.locked <;> rfl

theorem isStopRequestable_pack :
    packedOps.isStopRequestable f.pack = ops.isStopRequestable f := by
  have sources : kSourceRefIncrement ≤ f.pack ↔ f.sources ≠ 0 := by
    rw [UInt64.le_iff_toNat_le, fits.toNat_pack, fits.sources_eq]
    rw [toNat_kSourceRefIncrement]
    omega
  change (packedOps.isStopRequested f.pack || _) = (f.requested || _)
  rw [isStopRequested_pack fits, decide_eq_decide.2 sources]

theorem locking_pack : packedOps.locking f.pack = (ops.locking f).pack := by
  apply fits.or_pack (g := ops.locking f) (by decide) ⟨rfl, rfl⟩
  change f.requested.toNat + 2 = _
  cases f.requested <;> cases f.locked <;> rfl

theorem stopping_pack : packedOps.stopping f.pack = (ops.stopping f).pack := by
  apply fits.or_pack (g := ops.stopping f) (by decide) ⟨rfl, rfl⟩
  change 3 = _
  cases f.requested <;> cases f.locked <;> rfl

theorem unlock_pack (locked : f.locked = true) : packedOps.unlock f.pack = (ops.unlock f).pack := by
  apply fits.pack_sub
  change 2 + (ops.unlock f).value = f.value
  rw [value, value, locked]
  simp only [ops, Bool.toNat_true, Bool.toNat_false]
  omega

omit fits in
/-- The decrement wraps around to an increment. -/
theorem unlockAndIncrement_pack (locked : f.locked = true) :
    packedOps.unlockAndIncrementTokenRefCount f.pack =
      (ops.unlockAndIncrementTokenRefCount f).pack := by
  change f.pack - kUnlockAndTokenRefIncrement = _
  rw [UInt64.sub_eq_add_neg]
  apply pack_add
  change _ = f.value + 2
  rw [value, value, locked]
  simp only [ops, Bool.toNat_true, Bool.toNat_false]
  omega

omit fits in
theorem addToken_pack : packedOps.addTokenReference f.pack = (ops.addTokenReference f).pack := by
  apply pack_add
  change _ = f.value + 4
  simp only [value, ops]
  omega

omit fits in
theorem addSource_pack : packedOps.addSourceReference f.pack = (ops.addSourceReference f).pack := by
  apply pack_add
  change _ = f.value + 8589934592
  simp only [value, ops]
  omega

theorem lt_kZeroRef : f.pack < kZeroRef ↔ f.sources = 0 ∨ f.sources = 1 ∧ f.tokens = 0 := by
  rw [UInt64.lt_iff_toNat_lt, fits.toNat_pack, toNat_kZeroRef]
  obtain ⟨tokens, sources⟩ := fits
  have requested := f.requested.toNat_lt
  have locked := f.locked.toNat_lt
  unfold value
  omega

theorem unlockAndDecrement_pack (locked : f.locked = true) (counted : f.tokens ≠ 0) :
    packedOps.unlockAndDecrementTokenRefCount f.pack =
      ((ops.unlockAndDecrementTokenRefCount f).1.pack,
        (ops.unlockAndDecrementTokenRefCount f).2) := by
  have less : f.pack < kLockedAndZeroRef ↔ f.sources ≤ 1 ∨ f.sources = 2 ∧ f.tokens ≤ 1 := by
    rw [UInt64.lt_iff_toNat_lt, fits.toNat_pack, toNat_kLockedAndZeroRef]
    obtain ⟨tokens, sources⟩ := fits
    have requested := f.requested.toNat_lt
    rw [value, locked, Bool.toNat_true]
    omega
  apply Prod.ext
  · apply fits.pack_sub
    rw [toNat_klockAndTokenRefIncrement, value, value, locked]
    simp only [ops, Bool.toNat_true, Bool.toNat_false]
    omega
  · exact decide_eq_decide.2 less

theorem removeToken_pack (counted : f.tokens ≠ 0) :
    packedOps.removeTokenReference f.pack =
      ((ops.removeTokenReference f).1.pack, (ops.removeTokenReference f).2) := by
  apply Prod.ext
  · apply fits.pack_sub
    rw [toNat_kTokenRefIncrement, value, value]
    simp only [ops]
    omega
  · exact decide_eq_decide.2 (lt_kZeroRef fits)

theorem removeSource_pack (counted : f.sources ≠ 0) :
    packedOps.removeSourceReference f.pack =
      ((ops.removeSourceReference f).1.pack, (ops.removeSourceReference f).2) := by
  apply Prod.ext
  · apply fits.pack_sub
    rw [toNat_kSourceRefIncrement, value, value]
    simp only [ops]
    omega
  · exact decide_eq_decide.2 (lt_kZeroRef fits)

end Operations

end Fields

end Librf.StopToken
