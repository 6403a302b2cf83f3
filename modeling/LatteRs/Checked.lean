import LatteRs.Binary64

/-!
# Computations that may fail or panic

A Rust function that returns `Result<T, E>` ends in one of three ways: with a
value, with an error, or in a panic.  `Checked ε α` is the type of such
computations.  A panic here is always an arithmetic overflow: of `i64`
arithmetic (as built with overflow checks), or of an addition to a point in
time.

* `Halt`, `Checked`, `fail`, `panic`, `ensure`, `mapErr`;
* `bind_eq_ok`, `ensure_eq_ok` and their kin take a computation that returned
  a value apart;
* `i64Neg`, `i64Add`, `i64Sub`, `i64Mul`: the checked operations on `i64`, whose values
  are integers here.
-/

/-- How a computation that returns no value ends. -/
inductive Halt (ε : Type)
  | err (e : ε)
  | panic
  deriving DecidableEq

/-- A computation that returns a value, fails with an error, or panics. -/
abbrev Checked (ε α : Type) := Except (Halt ε) α

namespace Checked

variable {ε ε' α β : Type}

/-- Return the error `e`. -/
def fail (e : ε) : Checked ε α := .error (.err e)

/-- Panic. -/
def panic : Checked ε α := .error .panic

/-- Go on if `p` holds, and return the error `e` otherwise. -/
def ensure (p : Prop) [Decidable p] (e : ε) : Checked ε Unit := if p then .ok () else fail e

/-- `Result::map_err`. -/
def mapErr (f : ε → ε') : Checked ε α → Checked ε' α
  | .ok a => .ok a
  | .error (.err e) => fail (f e)
  | .error .panic => panic

/-- `Option::ok_or`. -/
def okOr (e : ε) : Option α → Checked ε α
  | some a => .ok a
  | none => fail e

/-- The result of a function that cannot panic, with its error mapped. -/
def ofExcept (f : ε → ε') : Except ε α → Checked ε' α
  | .ok a => .ok a
  | .error e => fail (f e)

@[simp] theorem ok_bind (a : α) (f : α → Checked ε β) :
    ((.ok a : Checked ε α) >>= f) = f a := rfl
@[simp] theorem error_bind (e : Halt ε) (f : α → Checked ε β) :
    ((.error e : Checked ε α) >>= f) = .error e := rfl

theorem bind_eq_ok {x : Checked ε α} {f : α → Checked ε β} {b : β} :
    (x >>= f) = .ok b ↔ ∃ a, x = .ok a ∧ f a = .ok b := by
  cases x with
  | ok a => simp
  | error e => simp

theorem bind_eq_error {x : Checked ε α} {f : α → Checked ε β} {h : Halt ε} :
    (x >>= f) = .error h ↔ x = .error h ∨ ∃ a, x = .ok a ∧ f a = .error h := by
  cases x with
  | ok a => simp
  | error e => simp

theorem map_bind {γ : Type} (f : β → γ) (x : Checked ε α) (g : α → Checked ε β) :
    (x >>= g).map f = x >>= fun a => (g a).map f := by
  cases x <;> rfl

@[simp] theorem fail_ne_ok (e : ε) (a : α) : (fail e : Checked ε α) ≠ .ok a := by
  simp [fail]

@[simp] theorem panic_ne_ok (a : α) : (panic : Checked ε α) ≠ .ok a := by
  simp [panic]

@[simp] theorem ensure_eq_ok {p : Prop} [Decidable p] {e : ε} {u : Unit} :
    ensure p e = .ok u ↔ p := by
  unfold ensure
  split_ifs with h <;> simp [h]

@[simp] theorem ensure_eq_error {p : Prop} [Decidable p] {e : ε} {h : Halt ε} :
    ensure p e = .error h ↔ ¬ p ∧ h = .err e := by
  unfold ensure
  split_ifs with hp <;> simp [hp, fail, eq_comm]

@[simp] theorem mapErr_eq_ok {f : ε → ε'} {x : Checked ε α} {a : α} :
    mapErr f x = .ok a ↔ x = .ok a := by
  match x with
  | .ok b => simp [mapErr]
  | .error (.err e) => simp [mapErr]
  | .error .panic => simp [mapErr]

@[simp] theorem okOr_eq_ok {e : ε} {o : Option α} {a : α} :
    okOr e o = .ok a ↔ o = some a := by
  cases o <;> simp [okOr]

@[simp] theorem ofExcept_eq_ok {f : ε → ε'} {x : Except ε α} {a : α} :
    ofExcept f x = .ok a ↔ x = .ok a := by
  cases x <;> simp [ofExcept]

/-! ### Computations that do not panic -/

@[simp] theorem ok_ne_panic (a : α) : (.ok a : Checked ε α) ≠ .error .panic := by simp

@[simp] theorem fail_ne_panic (e : ε) : (fail e : Checked ε α) ≠ .error .panic := by simp [fail]

@[simp] theorem ensure_ne_panic (p : Prop) [Decidable p] (e : ε) :
    ensure p e ≠ .error .panic := by
  unfold ensure
  split_ifs <;> simp

@[simp] theorem okOr_ne_panic (e : ε) (o : Option α) : okOr e o ≠ .error .panic := by
  cases o <;> simp [okOr]

@[simp] theorem ofExcept_ne_panic (f : ε → ε') (x : Except ε α) :
    ofExcept f x ≠ .error .panic := by
  cases x <;> simp [ofExcept]

@[simp] theorem mapErr_eq_panic {f : ε → ε'} {x : Checked ε α} :
    mapErr f x = .error .panic ↔ x = .error .panic := by
  match x with
  | .ok b => simp [mapErr]
  | .error (.err e) => simp [mapErr]
  | .error .panic => simp [mapErr, panic]

theorem bind_ne_panic {x : Checked ε α} {f : α → Checked ε β} (hx : x ≠ .error .panic)
    (hf : ∀ a, f a ≠ .error .panic) : (x >>= f) ≠ .error .panic := by
  cases x with
  | ok a => exact hf a
  | error e => simpa using hx

/-! ### Arithmetic on `i64` -/

open Binary64 (i64Min i64Max)

/-- The integers an `i64` holds. -/
def InI64 (z : ℤ) : Prop := i64Min ≤ z ∧ z ≤ i64Max

instance (z : ℤ) : Decidable (InI64 z) := inferInstanceAs (Decidable (_ ∧ _))

/-- The result of an `i64` operation, a panic when it does not fit. -/
def i64Result (z : ℤ) : Checked ε ℤ := if InI64 z then .ok z else panic

def i64Neg (a : ℤ) : Checked ε ℤ := i64Result (-a)
def i64Add (a b : ℤ) : Checked ε ℤ := i64Result (a + b)
def i64Sub (a b : ℤ) : Checked ε ℤ := i64Result (a - b)
def i64Mul (a b : ℤ) : Checked ε ℤ := i64Result (a * b)

@[simp] theorem i64Result_eq_ok {z v : ℤ} :
    (i64Result z : Checked ε ℤ) = .ok v ↔ InI64 z ∧ z = v := by
  unfold i64Result
  split_ifs with h <;> simp [h]

@[simp] theorem i64Result_eq_panic {z : ℤ} :
    (i64Result z : Checked ε ℤ) = .error .panic ↔ ¬ InI64 z := by
  unfold i64Result
  split_ifs with h <;> simp [h, panic]

theorem inI64_of_le {z : ℤ} (h : -10 ^ 18 ≤ z ∧ z ≤ 10 ^ 18) : InI64 z := by
  unfold InI64 i64Min i64Max
  omega

theorem i64Result_of {z : ℤ} (h : InI64 z) : (i64Result z : Checked ε ℤ) = .ok z := if_pos h

theorem i64Result_of_le {z : ℤ} (h : -10 ^ 18 ≤ z ∧ z ≤ 10 ^ 18) :
    (i64Result z : Checked ε ℤ) = .ok z := i64Result_of (inI64_of_le h)

end Checked
