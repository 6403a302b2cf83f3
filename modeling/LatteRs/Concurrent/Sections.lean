import LatteRs.Concurrent.Contract

/-!
# Sections under the lock

How long a thread keeps the lock, counted in its operations, and what it does
meanwhile.

* `lockedPast`, the events of the section that is running;
* `Program.Brief`, programs with short sections, and `brief_bind`;
* `Timely`, `timely_step`: the holder of the lock is in such a section, whatever
  the other threads do.
-/

namespace Concurrent

variable {S : Signature}

/-- The events since the thread took the lock, `none` when it has released it since. -/
def lockedPast : Past S → Option (Past S)
  | [] => none
  | .locked :: _ => some []
  | .triedLock true :: _ => some []
  | .unlocked :: _ => none
  | ev :: h => (lockedPast h).map (ev :: ·)

namespace Program

variable {α β : Type} (ok : Event S → Prop) (limit : ℕ)

/-- In each section under the lock the program performs at most `limit` operations before it
releases the lock, and all of them satisfy `ok`.  The last argument is how many of the section
are left, `none` outside of sections. -/
def Brief : Program S α → (Option ℕ → α → Prop) → Option ℕ → Prop
  | ret a, Q, g => Q g a
  | act _ next, Q, none => ∀ r, (next r).Brief Q none
  | act e next, Q, some m => 0 < m ∧ ∀ r, ok (.did e r) ∧ (next r).Brief Q (some (m - 1))
  | lock next, Q, none => next.Brief Q (some limit)
  | tryLock next, Q, none => (next true).Brief Q (some limit) ∧ (next false).Brief Q none
  | unlock next, Q, some _ => next.Brief Q none
  | fork _ next, Q, none => ∀ started, (next started).Brief Q none
  | fork t next, Q, some m =>
    0 < m ∧ ∀ started, ok (.forked t started) ∧ (next started).Brief Q (some (m - 1))
  | abort, _, _ => True
  | _, _, _ => False

variable {ok limit}

/-- The rule for a sequence of two programs. -/
theorem brief_bind {p : Program S α} {f : α → Program S β} {Q : Option ℕ → β → Prop}
    {g : Option ℕ} :
    (p >>= f).Brief ok limit Q g ↔
      p.Brief ok limit (fun g' a => (f a).Brief ok limit Q g') g := by
  induction p generalizing g with
  | ret a => exact Iff.rfl
  | act e next ih => cases g <;> simp only [act_bind, Brief, ih]
  | lock next ih => cases g <;> simp only [lock_bind, Brief, ih]
  | tryLock next ih => cases g <;> simp only [tryLock_bind, Brief, ih]
  | unlock next ih => cases g <;> simp only [unlock_bind, Brief, ih]
  | fork t next ih => cases g <;> simp only [fork_bind, Brief, ih]
  | abort => cases g <;> exact Iff.rfl

section
variable {Q : Option ℕ → Unit → Prop}

theorem brief_acquire (hq : Q (some limit) ()) :
    (acquire : Program S Unit).Brief ok limit Q none := hq

theorem brief_release {m : ℕ} (hq : Q none ()) :
    (release : Program S Unit).Brief ok limit Q (some m) := hq

end

theorem brief_tryAcquire {Q : Option ℕ → Bool → Prop} (htrue : Q (some limit) true)
    (hfalse : Q none false) : (tryAcquire : Program S Bool).Brief ok limit Q none :=
  ⟨htrue, hfalse⟩

/-- An operation outside of sections. -/
theorem brief_outside {e : S.Effect} {Q : Option ℕ → S.Answer e → Prop} (hq : ∀ r, Q none r) :
    (perform e : Program S (S.Answer e)).Brief ok limit Q none := hq

/-- An operation in a section. -/
theorem brief_inside {e : S.Effect} {Q : Option ℕ → S.Answer e → Prop} {m : ℕ}
    (hok : ∀ r, ok (.did e r)) (hq : ∀ r, Q (some m) r) :
    (perform e : Program S (S.Answer e)).Brief ok limit Q (some (m + 1)) :=
  ⟨Nat.succ_pos m, fun r => ⟨hok r, hq r⟩⟩

theorem brief_start {t : S.Task} {Q : Option ℕ → Bool → Prop} {m : ℕ}
    (hok : ∀ started, ok (.forked t started)) (hq : ∀ started, Q (some m) started) :
    (start t : Program S Bool).Brief ok limit Q (some (m + 1)) :=
  ⟨Nat.succ_pos m, fun started => ⟨hok started, hq started⟩⟩

end Program

/-! ### Soundness -/

variable {sys : System S} (ok : Event S → Prop) (limit : ℕ)

/-- Where a thread is: outside of sections, or `lockedPast` is the beginning of a short one. -/
def Timely (holds : Prop) (th : Thread S) : Prop :=
  (¬ holds ∧ th.prog.Brief ok limit (fun g _ => g = none) none) ∨
    (holds ∧ ∃ sec m, lockedPast th.past = some sec ∧ sec.length + m ≤ limit ∧
      (∀ ev ∈ sec, ok ev) ∧ th.prog.Brief ok limit (fun g _ => g = none) (some m))

variable {ok limit}

/-- A thread that does not hold the lock is outside of sections. -/
theorem Timely.outside {holds : Prop} {th : Thread S} (h : Timely ok limit holds th)
    (hnot : ¬ holds) : th.prog.Brief ok limit (fun g _ => g = none) none := by
  rcases h with ⟨-, hbrief⟩ | ⟨hyes, -⟩
  · exact hbrief
  · exact absurd hyes hnot

/-- The holder of the lock is in a short section. -/
theorem Timely.inside {holds : Prop} {th : Thread S} (h : Timely ok limit holds th)
    (hyes : holds) : ∃ sec m, lockedPast th.past = some sec ∧ sec.length + m ≤ limit ∧
      (∀ ev ∈ sec, ok ev) ∧ th.prog.Brief ok limit (fun g _ => g = none) (some m) := by
  rcases h with ⟨hnot, -⟩ | ⟨-, hbrief⟩
  · exact absurd hyes hnot
  · exact hbrief

/-- After an operation that neither takes nor releases the lock. -/
theorem Timely.did {holds : Prop} {th : Thread S} (h : Timely ok limit holds th) {ev : Event S}
    {p : Program S S.Out} (hpast : ∀ h, lockedPast (ev :: h) = (lockedPast h).map (ev :: ·))
    (hinside : ∀ m, th.prog.Brief ok limit (fun g _ => g = none) (some m) →
      0 < m ∧ ok ev ∧ p.Brief ok limit (fun g _ => g = none) (some (m - 1)))
    (houtside : th.prog.Brief ok limit (fun g _ => g = none) none →
      p.Brief ok limit (fun g _ => g = none) none) : Timely ok limit holds (th.did ev p) := by
  rcases h with ⟨hnot, hbrief⟩ | ⟨hyes, sec, m, hsec, hlen, hold, hbrief⟩
  · exact Or.inl ⟨hnot, houtside hbrief⟩
  · obtain ⟨hpos, hev, hnext⟩ := hinside m hbrief
    refine Or.inr ⟨hyes, ev :: sec, m - 1, ?_, ?_, ?_, hnext⟩
    · show lockedPast (ev :: th.past) = some (ev :: sec)
      rw [hpast, hsec]
      rfl
    · show sec.length + 1 + (m - 1) ≤ limit
      omega
    · intro ev' hev'
      rcases List.mem_cons.1 hev' with rfl | hmem
      · exact hev
      · exact hold ev' hmem

/-- The tasks whose bodies and handlers have short sections. -/
structure BriefTasks (sys : System S) (ok : Event S → Prop) (limit : ℕ) : Prop where
  body : ∀ t, (sys.body t).Brief ok limit (fun g _ => g = none) none
  handler : ∀ t, (sys.handler t).Brief ok limit (fun g _ => g = none) none

/-- **Every step leaves the holder of the lock in a short section.** -/
theorem timely_step {k : Contract sys} (hb : BriefTasks sys ok limit) {c c' : Config sys}
    {l : Label S} (hk : k.Kept c) (hstep : Step c l c')
    (hc : ∀ (i : ℕ) (th : Thread S), c.threads[i]? = some th →
      Timely ok limit (c.holder = some i) th) :
    ∀ (i : ℕ) (th : Thread S), c'.threads[i]? = some th →
      Timely ok limit (c'.holder = some i) th := by
  intro i th' hi'
  by_cases hl : l.thread = some i
  · -- the thread that made the step
    cases hstep with
    | call ht => cases hl
    | @act j th e next r hj hp hr =>
      cases hl
      cases Option.some.inj (hi'.symm.trans (Config.set_threads_self hj _))
      refine (hc _ _ hj).did (fun _ => rfl) (fun m hbrief => ?_) (fun hbrief => ?_) <;>
        rw [hp] at hbrief
      · exact ⟨hbrief.1, hbrief.2 r⟩
      · exact hbrief r
    | @lock j th next hj hp hfree =>
      cases hl
      cases Option.some.inj (hi'.symm.trans (Config.set_threads_self hj _))
      have hbrief := (hc _ _ hj).outside (by simp [hfree])
      rw [hp] at hbrief
      exact Or.inr ⟨rfl, [], limit, rfl, by simp, by simp, hbrief⟩
    | @tryLockFree j th next hj hp hfree =>
      cases hl
      cases Option.some.inj (hi'.symm.trans (Config.set_threads_self hj _))
      have hbrief := (hc _ _ hj).outside (by simp [hfree])
      rw [hp] at hbrief
      exact Or.inr ⟨rfl, [], limit, rfl, by simp, by simp, hbrief.1⟩
    | @tryLockHeld j th next hj hp hheld =>
      cases hl
      cases Option.some.inj (hi'.symm.trans (Config.set_threads_self hj _))
      refine (hc _ _ hj).did (fun _ => rfl) (fun m hbrief => ?_) (fun hbrief => ?_) <;>
        rw [hp] at hbrief
      · exact hbrief.elim
      · exact hbrief.2
    | @unlock j th next hj hp hmine =>
      cases hl
      cases Option.some.inj (hi'.symm.trans (Config.set_threads_self hj _))
      obtain ⟨sec, m, -, -, -, hbrief⟩ := (hc _ _ hj).inside hmine
      rw [hp] at hbrief
      exact Or.inl ⟨by simp, hbrief⟩
    | @fork j th t next hj hp =>
      cases hl
      cases Option.some.inj (hi'.symm.trans
        (Config.spawn_threads.2 (Or.inl (Config.set_threads_self hj _))))
      refine (hc _ _ hj).did (fun _ => rfl) (fun m hbrief => ?_) (fun hbrief => ?_) <;>
        rw [hp] at hbrief
      · exact ⟨hbrief.1, hbrief.2 true⟩
      · exact hbrief true
    | @forkFail j th t next hj hp =>
      cases hl
      cases Option.some.inj (hi'.symm.trans (Config.set_threads_self hj _))
      refine (hc _ _ hj).did (fun _ => rfl) (fun m hbrief => ?_) (fun hbrief => ?_) <;>
        rw [hp] at hbrief
      · exact ⟨hbrief.1, hbrief.2 false⟩
      · exact hbrief false
    | @panic j th hj hlive hrun hp =>
      cases hl
      cases Option.some.inj (hi'.symm.trans (Config.set_threads_self hj _))
      refine Or.inl ⟨?_, hb.handler th.task⟩
      by_cases hmine : c.holder = some i <;> simp [hmine]
  · -- the others, and a new one
    rcases hstep.thread_cases hi' with
      ⟨t, hlen, rfl, -⟩ | ⟨th, hi, rfl | ⟨ev, p, rfl, -⟩ | ⟨rfl, -⟩⟩
    · refine Or.inl ⟨fun hmine => ?_, hb.body t⟩
      have hbefore := (hstep.holder_of_ne hl).1 hmine
      have hlt := hk.holder i hbefore
      omega
    · rw [hstep.holder_of_ne hl]
      exact hc i _ hi
    · exact absurd rfl hl
    · exact absurd rfl hl

end Concurrent
