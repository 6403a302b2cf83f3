import LatteRs.Checked
import Mathlib.Order.Lattice
import Mathlib.Order.Defs.LinearOrder

/-!
# Points in time and durations

`SystemTime` as on Unix: signed 64-bit seconds since the epoch with
nanoseconds, here one number of nanoseconds that carries its bounds.  A
`Duration` is a number of nanoseconds.

* `SystemTime.add`, `SystemTime.sub`, which panic outside the range;
* `SystemTime.durationSince`, an error when the other point is later;
* `unixToSystemTime`, and `unixSecs`, the whole seconds since the epoch that
  the certificate checks compare with (0 before it).
-/

namespace LatteRs

/-- A duration, in nanoseconds. -/
abbrev Duration := ℕ

/-- `Duration::from_secs`. -/
def Duration.fromSecs (secs : ℕ) : Duration := secs * 10 ^ 9

/-- `Duration` as `{:?}` prints it, for whole seconds: the only durations that reach a
message here come from `Duration.fromSecs`. -/
def Duration.debug (d : Duration) : String := toString (d / 10 ^ 9) ++ "s"

/-- A point in time, in nanoseconds since the Unix epoch. -/
@[ext] structure SystemTime where
  nanos : ℤ
  le_nanos : -2 ^ 63 * 10 ^ 9 ≤ nanos
  nanos_lt : nanos < 2 ^ 63 * 10 ^ 9
  deriving DecidableEq

namespace SystemTime

theorem nanos_injective : Function.Injective nanos := fun _ _ h => SystemTime.ext h

instance : LinearOrder SystemTime := LinearOrder.lift' nanos nanos_injective

theorem le_def {s t : SystemTime} : s ≤ t ↔ s.nanos ≤ t.nanos := Iff.rfl
theorem lt_def {s t : SystemTime} : s < t ↔ s.nanos < t.nanos := Iff.rfl

/-- `SystemTime::UNIX_EPOCH`. -/
def unixEpoch : SystemTime := ⟨0, by norm_num, by norm_num⟩

variable {ε : Type}

/-- The point `nanos` nanoseconds from the epoch; a panic when it is out of range. -/
def ofNanos (nanos : ℤ) : Checked ε SystemTime :=
  if h : -2 ^ 63 * 10 ^ 9 ≤ nanos ∧ nanos < 2 ^ 63 * 10 ^ 9 then .ok ⟨nanos, h.1, h.2⟩
  else Checked.panic

def add (t : SystemTime) (d : Duration) : Checked ε SystemTime := ofNanos (t.nanos + d)
def sub (t : SystemTime) (d : Duration) : Checked ε SystemTime := ofNanos (t.nanos - d)

/-- `self.duration_since(earlier)`, `none` for the error. -/
def durationSince (t earlier : SystemTime) : Option Duration :=
  if earlier ≤ t then some (t.nanos - earlier.nanos).toNat else none

@[simp] theorem ofNanos_eq_ok {n : ℤ} {t : SystemTime} :
    (ofNanos n : Checked ε SystemTime) = .ok t ↔ t.nanos = n := by
  unfold ofNanos
  split_ifs with h
  · simp only [Except.ok.injEq]
    constructor
    · rintro rfl; rfl
    · rintro rfl; rfl
  · simp only [Checked.panic_ne_ok, false_iff]
    rintro rfl
    exact h ⟨t.le_nanos, t.nanos_lt⟩

@[simp] theorem ofNanos_eq_panic {n : ℤ} :
    (ofNanos n : Checked ε SystemTime) = .error .panic ↔
      ¬ (-2 ^ 63 * 10 ^ 9 ≤ n ∧ n < 2 ^ 63 * 10 ^ 9) := by
  unfold ofNanos
  by_cases h : -2 ^ 63 * 10 ^ 9 ≤ n ∧ n < 2 ^ 63 * 10 ^ 9
  · rw [dif_pos h]
    exact iff_of_false (Checked.ok_ne_panic _) (not_not.2 h)
  · rw [dif_neg h]
    exact iff_of_true rfl h

theorem durationSince_getD (t earlier : SystemTime) :
    (t.durationSince earlier).getD 0 = (t.nanos - earlier.nanos).toNat := by
  unfold durationSince
  split_ifs with h
  · rfl
  · rw [le_def] at h
    exact (Int.toNat_eq_zero.2 (by omega)).symm

/-- Whole seconds since the epoch, 0 for a time before it: what `check_time_claims`
compares the claims of a certificate with. -/
def unixSecs (now : SystemTime) : ℤ :=
  ((now.durationSince unixEpoch).map fun d => ((d / 10 ^ 9 : ℕ) : ℤ)).getD 0

theorem unixSecs_eq (now : SystemTime) : now.unixSecs = max now.nanos 0 / 10 ^ 9 := by
  unfold unixSecs durationSince
  split_ifs with h
  · rw [le_def] at h
    simp only [unixEpoch, sub_zero, Option.map_some, Option.getD_some] at *
    omega
  · rw [le_def] at h
    simp only [unixEpoch, Option.map_none, Option.getD_none] at *
    omega

theorem unixSecs_mono {s t : SystemTime} (h : s ≤ t) : s.unixSecs ≤ t.unixSecs := by
  rw [unixSecs_eq, unixSecs_eq]
  rw [le_def] at h
  omega

theorem unixSecs_inI64 (now : SystemTime) : Checked.InI64 now.unixSecs := by
  have := now.nanos_lt
  rw [unixSecs_eq]
  unfold Checked.InI64 Binary64.i64Min Binary64.i64Max
  omega

end SystemTime

/-- The point `secs` seconds from the epoch.  Panics on the least `i64`, whose negation
does not fit. -/
def unixToSystemTime {ε : Type} (secs : ℤ) : Checked ε SystemTime :=
  if 0 ≤ secs then SystemTime.unixEpoch.add (Duration.fromSecs secs.toNat)
  else do
    let back ← Checked.i64Neg secs
    SystemTime.unixEpoch.sub (Duration.fromSecs back.toNat)

/-- On an `i64` other than the least, the point exists and lies where it should. -/
theorem unixToSystemTime_eq_ok {ε : Type} {secs : ℤ} (hs : Checked.InI64 secs)
    {t : SystemTime} :
    (unixToSystemTime secs : Checked ε SystemTime) = .ok t ↔
      secs ≠ Binary64.i64Min ∧ t.nanos = secs * 10 ^ 9 := by
  unfold Checked.InI64 at hs
  unfold unixToSystemTime SystemTime.add SystemTime.sub Checked.i64Neg Duration.fromSecs
  have hmin : Binary64.i64Min = -2 ^ 63 := rfl
  have hmax : Binary64.i64Max = 2 ^ 63 - 1 := rfl
  split_ifs with h
  · simp only [SystemTime.ofNanos_eq_ok, SystemTime.unixEpoch]
    omega
  · simp only [Checked.bind_eq_ok, Checked.i64Result_eq_ok, SystemTime.ofNanos_eq_ok,
      SystemTime.unixEpoch, Checked.InI64]
    constructor
    · rintro ⟨b, ⟨hb, rfl⟩, ht⟩
      omega
    · rintro ⟨hne, ht⟩
      exact ⟨-secs, ⟨by omega, rfl⟩, by omega⟩

/-- The least `i64` is the only one that panics. -/
theorem unixToSystemTime_eq_panic {ε : Type} {secs : ℤ} (hs : Checked.InI64 secs) :
    (unixToSystemTime secs : Checked ε SystemTime) = .error .panic ↔
      secs = Binary64.i64Min := by
  unfold Checked.InI64 at hs
  unfold unixToSystemTime SystemTime.add SystemTime.sub Checked.i64Neg Duration.fromSecs
  have hmin : Binary64.i64Min = -2 ^ 63 := rfl
  have hmax : Binary64.i64Max = 2 ^ 63 - 1 := rfl
  split_ifs with h
  · simp only [SystemTime.ofNanos_eq_panic, SystemTime.unixEpoch]
    omega
  · simp only [Checked.bind_eq_error, Checked.i64Result_eq_panic, Checked.i64Result_eq_ok,
      SystemTime.ofNanos_eq_panic, SystemTime.unixEpoch, Checked.InI64]
    constructor
    · rintro (hneg | ⟨b, ⟨hb, rfl⟩, hout⟩)
      · omega
      · omega
    · intro heq
      exact Or.inl (by omega)

end LatteRs
