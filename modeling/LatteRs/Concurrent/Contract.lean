import LatteRs.Concurrent.Pool

/-!
# Contracts

A contract says what each thread guarantees: which effects it performs in which
situation, which threads it starts, in which state it releases the lock, and
what is known of its events when it returns.  It holds of a program as a weakest
precondition, where a thread that holds the lock knows the shared state exactly
and one that does not knows nothing of it; so the effects that change the shared
state must be performed under the lock.

* `Contract`, `wp`, `wp_bind`;
* `Contract.Sound`: every body and every handler keeps the contract;
* `Contract.Kept.step`: then every step keeps it, of every thread, whatever the
  others do, and `Contract.Kept.act` and its kin read off what a step guarantees.
-/

namespace Concurrent

variable {S : Signature}

/-- What the threads of a system guarantee. -/
structure Contract (sys : System S) where
  /-- The effects that may change the shared state. -/
  writes : S.Effect → Prop
  /-- What holds of the shared state at all times. -/
  Inv : sys.Shared → Prop
  /-- What holds when a thread with the given task and past performs an effect that gets the
  given answer. -/
  Guar : S.Task → Past S → (e : S.Effect) → S.Answer e → sys.Shared → Prop
  /-- What holds when such a thread starts another one. -/
  Start : S.Task → Past S → S.Task → sys.Shared → Prop
  /-- What holds when such a thread releases the lock. -/
  Release : S.Task → Past S → sys.Shared → Prop
  /-- What holds when such a thread panics by itself. -/
  Abort : S.Task → Past S → Prop
  /-- What holds when such a thread returns. -/
  Post : S.Task → Past S → S.Out → Prop

variable {sys : System S} (k : Contract sys)

/-- Program `p` of a thread that runs `t` keeps the contract, and ends in `Q`.  The last two
arguments are the past of the thread and the shared state, `none` while it does not hold the
lock. -/
def wp {α : Type} (t : S.Task) :
    Program S α → (Past S → Option sys.Shared → α → Prop) → Past S → Option sys.Shared → Prop
  | .ret a, Q, h, g => Q h g a
  | .act e next, Q, h, none => ¬ k.writes e ∧ ∀ s w r, k.Inv s → sys.admits e s w r →
      k.Guar t h e r s ∧ wp t (next r) Q (.did e r :: h) none
  | .act e next, Q, h, some s => ∀ w r, sys.admits e s w r →
      k.Guar t h e r s ∧ wp t (next r) Q (.did e r :: h) (some (sys.write e r s))
  | .lock next, Q, h, none => ∀ s, k.Inv s → wp t next Q (.locked :: h) (some s)
  | .tryLock next, Q, h, none =>
      (∀ s, k.Inv s → wp t (next true) Q (.triedLock true :: h) (some s)) ∧
        wp t (next false) Q (.triedLock false :: h) none
  | .unlock next, Q, h, some s => k.Release t h s ∧ wp t next Q (.unlocked :: h) none
  | .fork c next, Q, h, some s => k.Start t h c s ∧
      wp t (next true) Q (.forked c true :: h) (some (sys.forked c s)) ∧
      wp t (next false) Q (.forked c false :: h) (some s)
  | .abort, _, h, _ => k.Abort t h
  | _, _, _, _ => False

section
variable {k}
variable {α β : Type} {t : S.Task}

/-- The rule for a sequence of two programs. -/
theorem wp_bind {p : Program S α} {f : α → Program S β}
    {Q : Past S → Option sys.Shared → β → Prop} {h : Past S} {g : Option sys.Shared} :
    wp k t (p >>= f) Q h g ↔ wp k t p (fun h' g' a => wp k t (f a) Q h' g') h g := by
  induction p generalizing h g with
  | ret a => exact Iff.rfl
  | act e next ih => cases g <;> simp only [Program.act_bind, wp, ih]
  | lock next ih => cases g <;> simp only [Program.lock_bind, wp, ih]
  | tryLock next ih => cases g <;> simp only [Program.tryLock_bind, wp, ih]
  | unlock next ih => cases g <;> simp only [Program.unlock_bind, wp, ih]
  | fork c next ih => cases g <;> simp only [Program.fork_bind, wp, ih]
  | abort => cases g <;> exact Iff.rfl

end

/-! ### Soundness -/

namespace Contract

variable {k}

/-- The program of a thread keeps the contract to its end. -/
def Holds (k : Contract sys) (th : Thread S) (g : Option sys.Shared) : Prop :=
  wp k th.task th.prog (fun h g' a => g' = none ∧ k.Post th.task h a) th.past g

/-- Every task keeps the contract. -/
structure Sound (k : Contract sys) : Prop where
  quiet : ∀ e r s, ¬ k.writes e → sys.write e r s = s
  act : ∀ t h e r s w, k.Inv s → sys.admits e s w r → k.Guar t h e r s → k.Inv (sys.write e r s)
  start : ∀ t h c s, k.Inv s → k.Start t h c s → k.Inv (sys.forked c s)
  body : ∀ t, k.Holds (sys.fresh t) none
  handler : ∀ t h, sys.mayPanic t ∨ k.Abort t h → k.Holds ⟨t, h, sys.handler t, true⟩ none

end Contract

/-- What thread `i` knows of the shared state: everything, while it holds the lock. -/
def Config.known (c : Config sys) (i : ℕ) : Option sys.Shared :=
  if c.holder = some i then some c.shared else none

namespace Contract

variable {k}

/-- Every thread of the configuration keeps the contract from here on. -/
structure Kept (k : Contract sys) (c : Config sys) : Prop where
  inv : k.Inv c.shared
  holds : ∀ i th, c.threads[i]? = some th → k.Holds th (c.known i)
  holder : ∀ i, c.holder = some i → i < c.threads.length

theorem Kept.init {shared : sys.Shared} {world : sys.World} (h : k.Inv shared) :
    k.Kept (Config.init shared world) where
  inv := h
  holds i th hi := by cases hi
  holder i hi := by cases hi

theorem Config.known_of_ne {c : Config sys} {i j : ℕ} (hi : c.holder = some i) (hji : j ≠ i) :
    c.known j = none := by
  unfold Config.known
  rw [if_neg]
  rw [hi]
  simpa using Ne.symm hji

theorem Config.known_of_free {c : Config sys} (h : c.holder = none) (j : ℕ) :
    c.known j = none := by
  unfold Config.known
  rw [h]
  simp

/-- A thread that knows the shared state holds the lock. -/
theorem Config.known_eq_some {c : Config sys} {i : ℕ} {s : sys.Shared} :
    c.known i = some s ↔ c.holder = some i ∧ c.shared = s := by
  unfold Config.known
  by_cases h : c.holder = some i <;> simp [h]

/-- A step of thread `i` alone: the other threads, and what they know, stay. -/
theorem Kept.update {c c' : Config sys} (hk : k.Kept c) {i : ℕ} {th th' : Thread S}
    (hi : c.threads[i]? = some th) (hthreads : c'.threads = (c.set i th').threads)
    (hinv : k.Inv c'.shared) (hth : k.Holds th' (c'.known i))
    (hknown : ∀ j, j ≠ i → c'.known j = c.known j)
    (hholder : ∀ j, j ≠ i → c'.holder = some j → c.holder = some j) : k.Kept c' where
  inv := hinv
  holds j thj hj := by
    rw [hthreads] at hj
    by_cases hji : j = i
    · subst hji
      rw [Config.set_threads_self hi] at hj
      cases hj
      exact hth
    · rw [c.set_threads_of_ne _ hji] at hj
      rw [hknown j hji]
      exact hk.holds j thj hj
  holder j hj := by
    have hlen : c'.threads.length = c.threads.length := by
      rw [hthreads]
      exact List.length_set
    rw [hlen]
    by_cases hji : j = i
    · subst hji
      exact (List.getElem?_eq_some_iff.1 hi).1
    · exact hk.holder j (hholder j hji hj)

/-- Thread `i` goes on, and nothing else changes. -/
theorem Kept.stay {c : Config sys} (hk : k.Kept c) {i : ℕ} {th th' : Thread S}
    (hi : c.threads[i]? = some th) (hth : k.Holds th' (c.known i)) : k.Kept (c.set i th') :=
  hk.update hi rfl hk.inv hth (fun _ _ => rfl) (fun _ _ h => h)

/-- Thread `i` takes the lock, and knows the shared state from then on. -/
theorem Kept.take {c : Config sys} (hk : k.Kept c) {i : ℕ} {th th' : Thread S}
    (hi : c.threads[i]? = some th) (hfree : c.holder = none)
    (hth : k.Holds th' (some c.shared)) : k.Kept { c.set i th' with holder := some i } := by
  refine hk.update hi rfl hk.inv ?_ ?_ ?_
  · rw [Config.known_eq_some.2 ⟨rfl, rfl⟩]
    exact hth
  · intro j hj
    rw [Config.known_of_free hfree]
    exact Config.known_of_ne rfl hj
  · intro j hj h
    exact absurd (Option.some.inj h).symm hj

/-- Thread `i` gives up the lock, if it holds it, and knows nothing from then on. -/
theorem Kept.leave {c : Config sys} (hk : k.Kept c) {i : ℕ} {th th' : Thread S}
    (hi : c.threads[i]? = some th) (hth : k.Holds th' none) :
    k.Kept { c.set i th' with holder := if c.holder = some i then none else c.holder } := by
  by_cases hmine : c.holder = some i
  · rw [if_pos hmine]
    refine hk.update hi rfl hk.inv ?_ ?_ ?_
    · rw [Config.known_of_free rfl]
      exact hth
    · intro j hj
      rw [Config.known_of_free rfl, Config.known_of_ne hmine hj]
    · intro j hj h
      cases h
  · rw [if_neg hmine]
    refine hk.update hi rfl hk.inv ?_ (fun _ _ => rfl) (fun _ _ h => h)
    have hnone : Config.known { c.set i th' with holder := c.holder } i = none := if_neg hmine
    rw [hnone]
    exact hth

/-- A new thread keeps the contract. -/
theorem Kept.spawn {c : Config sys} (hs : k.Sound) (hk : k.Kept c) (t : S.Task) :
    k.Kept (c.spawn t) where
  inv := hk.inv
  holds j th hj := by
    have hknown : (c.spawn t).known j = c.known j := rfl
    rw [hknown]
    rcases Config.spawn_threads.1 hj with hj | ⟨rfl, rfl⟩
    · exact hk.holds j th hj
    · have hfree : c.known c.threads.length = none :=
        if_neg fun h => absurd (hk.holder _ h) (Nat.lt_irrefl _)
      rw [hfree]
      exact hs.body t
  holder j hj := by
    have hlen : (c.spawn t).threads.length = c.threads.length + 1 := by simp [Config.spawn]
    have := hk.holder j hj
    omega

/-- Thread `i` performs an effect: its guarantee, and the contract from there on. -/
theorem Kept.holds_act {c : Config sys} (hs : k.Sound) (hk : k.Kept c) {i : ℕ} {th : Thread S}
    (hi : c.threads[i]? = some th) {e : S.Effect} {next : S.Answer e → Program S S.Out}
    (hp : th.prog = .act e next) {r : S.Answer e} (hr : sys.admits e c.shared c.world r) :
    k.Guar th.task th.past e r c.shared ∧
      (c.holder ≠ some i → sys.write e r c.shared = c.shared) ∧
      k.Holds (th.did (.did e r) (next r))
        (if c.holder = some i then some (sys.write e r c.shared) else none) := by
  have hth := hk.holds i th hi
  unfold Holds at hth
  rw [hp] at hth
  by_cases hmine : c.holder = some i
  · rw [Config.known, if_pos hmine] at hth
    obtain ⟨hguar, hnext⟩ := hth c.world r hr
    rw [if_pos hmine]
    exact ⟨hguar, fun h => absurd hmine h, hnext⟩
  · rw [Config.known, if_neg hmine] at hth
    obtain ⟨hguar, hnext⟩ := hth.2 c.shared c.world r hk.inv hr
    rw [if_neg hmine]
    exact ⟨hguar, fun _ => hs.quiet e r c.shared hth.1, hnext⟩

/-- Thread `i` starts another one. -/
theorem Kept.holds_fork {c : Config sys} (hk : k.Kept c) {i : ℕ} {th : Thread S}
    (hi : c.threads[i]? = some th) {t : S.Task} {next : Bool → Program S S.Out}
    (hp : th.prog = .fork t next) :
    c.holder = some i ∧ k.Start th.task th.past t c.shared ∧
      k.Holds (th.did (.forked t true) (next true)) (some (sys.forked t c.shared)) ∧
      k.Holds (th.did (.forked t false) (next false)) (some c.shared) := by
  have hth := hk.holds i th hi
  unfold Holds at hth
  rw [hp] at hth
  cases hg : c.known i with
  | none =>
    rw [hg] at hth
    exact hth.elim
  | some s =>
    rw [hg] at hth
    obtain ⟨hmine, rfl⟩ := Config.known_eq_some.1 hg
    exact ⟨hmine, hth⟩

/-- **Every step of every thread keeps the contract.** -/
theorem Kept.step {c c' : Config sys} {l : Label S} (hs : k.Sound) (hk : k.Kept c)
    (hstep : Step c l c') : k.Kept c' := by
  cases hstep with
  | call ht => exact hk.spawn hs _
  | @act i th e next r hi hp hr =>
    obtain ⟨hguar, hquiet, hnext⟩ := hk.holds_act hs hi hp hr
    refine hk.update hi rfl (hs.act _ _ _ _ _ _ hk.inv hr hguar) hnext ?_ (fun _ _ h => h)
    intro j hj
    by_cases hmine : c.holder = some i
    · rw [Config.known_of_ne hmine hj]
      exact Config.known_of_ne hmine hj
    · simp only [Config.known, Config.set_holder, hquiet hmine]
  | @lock i th next hi hp hfree =>
    have hth := hk.holds i th hi
    unfold Holds at hth
    rw [hp, Config.known_of_free hfree] at hth
    exact hk.take hi hfree (hth c.shared hk.inv)
  | @tryLockFree i th next hi hp hfree =>
    have hth := hk.holds i th hi
    unfold Holds at hth
    rw [hp, Config.known_of_free hfree] at hth
    exact hk.take hi hfree (hth.1 c.shared hk.inv)
  | @tryLockHeld i th next hi hp hheld =>
    have hth := hk.holds i th hi
    unfold Holds at hth
    rw [hp] at hth
    refine hk.stay hi ?_
    cases hg : c.known i with
    | none =>
      rw [hg] at hth
      exact hth.2
    | some s =>
      rw [hg] at hth
      exact hth.elim
  | @unlock i th next hi hp hmine =>
    have hth := hk.holds i th hi
    unfold Holds at hth
    rw [hp, Config.known_eq_some.2 ⟨hmine, rfl⟩] at hth
    have hleft := hk.leave hi (show k.Holds (th.did .unlocked next) none from hth.2)
    rwa [if_pos hmine] at hleft
  | @fork i th t next hi hp =>
    obtain ⟨hmine, hstart, hnext, -⟩ := hk.holds_fork hi hp
    have hk' : k.Kept { c.set i (th.did (.forked t true) (next true)) with
        shared := sys.forked t c.shared } := by
      refine hk.update hi rfl (hs.start _ _ _ _ hk.inv hstart) ?_ ?_ (fun _ _ h => h)
      · show k.Holds _ (if c.holder = some i then some (sys.forked t c.shared) else none)
        rw [if_pos hmine]
        exact hnext
      · intro j hj
        rw [Config.known_of_ne hmine hj]
        exact Config.known_of_ne hmine hj
    exact hk'.spawn hs t
  | @forkFail i th t next hi hp =>
    obtain ⟨hmine, -, -, hnext⟩ := hk.holds_fork hi hp
    refine hk.stay hi ?_
    rw [Config.known_eq_some.2 ⟨hmine, rfl⟩]
    exact hnext
  | @panic i th hi hlive hrun hp =>
    refine hk.leave hi (hs.handler th.task th.past (hp.symm.imp_right fun habort => ?_))
    have hth := hk.holds i th hi
    unfold Holds at hth
    rw [habort] at hth
    cases hg : c.known i with
    | none =>
      rw [hg] at hth
      exact hth
    | some s =>
      rw [hg] at hth
      exact hth

/-- What the contract guarantees of a step in which a thread performs an effect. -/
theorem Kept.guar {c c' : Config sys} (hs : k.Sound) (hk : k.Kept c) {i : ℕ} {e : S.Effect}
    {r : S.Answer e} (hstep : Step c (.op i (.did e r)) c') :
    ∃ th, c.threads[i]? = some th ∧ k.Guar th.task th.past e r c.shared := by
  obtain ⟨th, next, hi, hp, hr, -⟩ := hstep.did_inv
  exact ⟨th, hi, (hk.holds_act hs hi hp hr).1⟩

/-- Only the holder of the lock performs an effect that may change the shared state. -/
theorem Kept.writer {c c' : Config sys} (hk : k.Kept c) {i : ℕ} {e : S.Effect} {r : S.Answer e}
    (hstep : Step c (.op i (.did e r)) c') (he : k.writes e) : c.holder = some i := by
  obtain ⟨th, next, hi, hp, -, -⟩ := hstep.did_inv
  refine Decidable.byContradiction fun hmine => ?_
  have hth := hk.holds i th hi
  unfold Holds at hth
  rw [hp, Config.known, if_neg hmine] at hth
  exact hth.1 he

/-- Only the holder of the lock starts a thread. -/
theorem Kept.starter {c c' : Config sys} (hk : k.Kept c) {i : ℕ} {t : S.Task} {started : Bool}
    (hstep : Step c (.op i (.forked t started)) c') : c.holder = some i := by
  cases hstep with
  | fork hi hp => exact (hk.holds_fork hi hp).1
  | forkFail hi hp => exact (hk.holds_fork hi hp).1

/-- What the contract guarantees of a step in which a thread releases the lock. -/
theorem Kept.released {c c' : Config sys} (hk : k.Kept c) {i : ℕ}
    (hstep : Step c (.op i .unlocked) c') :
    ∃ th, c.threads[i]? = some th ∧ k.Release th.task th.past c.shared := by
  cases hstep with
  | @unlock i th next hi hp hmine =>
    have hth := hk.holds i th hi
    unfold Holds at hth
    rw [hp, Config.known_eq_some.2 ⟨hmine, rfl⟩] at hth
    exact ⟨th, hi, hth.1⟩

/-- What the contract guarantees of a step in which a thread starts another one. -/
theorem Kept.started {c c' : Config sys} (hk : k.Kept c) {i : ℕ} {t : S.Task}
    (hstep : Step c (.op i (.forked t true)) c') :
    ∃ th, c.threads[i]? = some th ∧ k.Start th.task th.past t c.shared := by
  cases hstep with
  | @fork i th t next hi hp => exact ⟨th, hi, (hk.holds_fork hi hp).2.1⟩

/-- What the contract guarantees of a thread that has returned. -/
theorem Kept.post {c : Config sys} (hk : k.Kept c) {i : ℕ} {th : Thread S} {a : S.Out}
    (hi : c.threads[i]? = some th) (hp : th.prog = .ret a) : k.Post th.task th.past a := by
  have hth := hk.holds i th hi
  unfold Holds at hth
  rw [hp] at hth
  exact hth.2

/-- Every configuration that a run reaches keeps the contract. -/
theorem Kept.run {c c' : Config sys} {P : Config sys → Label S → Config sys → Prop}
    (hs : k.Sound) (hk : k.Kept c) (hrun : Run P c c') : k.Kept c' :=
  hrun.preserves (fun _ _ _ hk hstep _ => hk.step hs hstep) hk

end Contract

end Concurrent
