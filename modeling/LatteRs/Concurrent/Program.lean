import Mathlib.Logic.Relation
import Mathlib.Data.Nat.Notation

/-!
# Programs of threads that share a state under one lock

The threads of a system run programs over a signature of effects.  An effect is
one atomic operation of the environment that returns an answer; besides it a
program may take the lock, try to take it, release it, start another thread and
panic.  Which answers an effect may get is not fixed here.

* `Signature`, `Event`, `Past`;
* `Program`, a monad, with the simp lemmas that push a bind to its leaves;
* `Program.Goes`: how an event takes a program on.
-/

namespace Concurrent

/-- The operations of a family of programs, the tasks that threads run and what the tasks
return. -/
structure Signature where
  Effect : Type
  Answer : Effect → Type
  Task : Type
  Out : Type

/-- What one operation of a thread did. -/
inductive Event (S : Signature)
  | did (e : S.Effect) (answer : S.Answer e)
  | locked
  | triedLock (got : Bool)
  | unlocked
  | forked (task : S.Task) (started : Bool)

/-- The events of a thread, the latest one first. -/
abbrev Past (S : Signature) := List (Event S)

/-- A program of a thread. -/
inductive Program (S : Signature) (α : Type) : Type
  | ret (a : α)
  | act (e : S.Effect) (next : S.Answer e → Program S α)
  /-- Wait for the lock and take it. -/
  | lock (next : Program S α)
  /-- Take the lock if it is free; `next` gets whether it was. -/
  | tryLock (next : Bool → Program S α)
  | unlock (next : Program S α)
  /-- Start a thread that runs `task`; `next` gets whether that succeeded. -/
  | fork (task : S.Task) (next : Bool → Program S α)
  /-- Panic. -/
  | abort

namespace Program

variable {S : Signature} {α β γ : Type}

/-- Run `p`, then `f` on what it returned. -/
def bind : Program S α → (α → Program S β) → Program S β
  | ret a, f => f a
  | act e next, f => act e fun r => (next r).bind f
  | lock next, f => lock (next.bind f)
  | tryLock next, f => tryLock fun got => (next got).bind f
  | unlock next, f => unlock (next.bind f)
  | fork task next, f => fork task fun started => (next started).bind f
  | abort, _ => abort

instance : Monad (Program S) where
  pure := ret
  bind := bind

/-- One effect, returning its answer. -/
def perform (e : S.Effect) : Program S (S.Answer e) := act e ret

def acquire : Program S Unit := lock (ret ())
def tryAcquire : Program S Bool := tryLock ret
def release : Program S Unit := unlock (ret ())
def start (task : S.Task) : Program S Bool := fork task ret

@[simp] theorem ret_bind (a : α) (f : α → Program S β) : (ret a >>= f) = f a := rfl
@[simp] theorem act_bind (e : S.Effect) (next : S.Answer e → Program S α)
    (f : α → Program S β) : (act e next >>= f) = act e fun r => next r >>= f := rfl
@[simp] theorem lock_bind (next : Program S α) (f : α → Program S β) :
    (lock next >>= f) = lock (next >>= f) := rfl
@[simp] theorem tryLock_bind (next : Bool → Program S α) (f : α → Program S β) :
    (tryLock next >>= f) = tryLock fun got => next got >>= f := rfl
@[simp] theorem unlock_bind (next : Program S α) (f : α → Program S β) :
    (unlock next >>= f) = unlock (next >>= f) := rfl
@[simp] theorem fork_bind (task : S.Task) (next : Bool → Program S α) (f : α → Program S β) :
    (fork task next >>= f) = fork task fun started => next started >>= f := rfl
@[simp] theorem abort_bind (f : α → Program S β) : ((abort : Program S α) >>= f) = abort := rfl

theorem bind_bind (p : Program S α) (f : α → Program S β) (g : β → Program S γ) :
    (p >>= f >>= g) = p >>= fun a => f a >>= g := by
  induction p with
  | ret a => rfl
  | act e next ih => simp only [act_bind, ih]
  | lock next ih => simp only [lock_bind, ih]
  | tryLock next ih => simp only [tryLock_bind, ih]
  | unlock next ih => simp only [unlock_bind, ih]
  | fork task next ih => simp only [fork_bind, ih]
  | abort => rfl

/-- What `p` goes on with after an event, whose answer `admits` allows. -/
inductive Goes (admits : (e : S.Effect) → S.Answer e → Prop) :
    Program S α → Event S → Program S α → Prop
  | act (e : S.Effect) (next : S.Answer e → Program S α) (r : S.Answer e) (hr : admits e r) :
      Goes admits (act e next) (.did e r) (next r)
  | lock (next : Program S α) : Goes admits (lock next) .locked next
  | tryLock (next : Bool → Program S α) (got : Bool) :
      Goes admits (tryLock next) (.triedLock got) (next got)
  | unlock (next : Program S α) : Goes admits (unlock next) .unlocked next
  | fork (task : S.Task) (next : Bool → Program S α) (started : Bool) :
      Goes admits (fork task next) (.forked task started) (next started)

/-- The value of a program that has nothing left to do. -/
def result? : Program S α → Option α
  | ret a => some a
  | _ => none

theorem result?_eq_some {p : Program S α} {a : α} : p.result? = some a ↔ p = ret a := by
  cases p <;> simp [result?]

theorem Goes.result? {admits : (e : S.Effect) → S.Answer e → Prop} {p p' : Program S α}
    {ev : Event S} (h : Goes admits p ev p') : p.result? = none := by
  cases h <;> rfl

end Program

end Concurrent
