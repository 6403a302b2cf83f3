import LatteRs.Concurrent.Pool

/-!
# Schedules

Runs that are there: those in which one thread goes on for a while, and those
computed from a list of moves, which say which thread goes next and what the
environment answers it.

* `Proceeds`, the stretches of one program, and `Proceeds.bind`;
* `Proceeds.run`, `exists_called`: a thread, or a new one, runs such a stretch;
* `Oracle`, `Move`, `Config.next`, `play`;
* `play_run`, `play_step`: what `play` computes is a run.
-/

namespace Concurrent

variable {S : Signature} {sys : System S}

/-! ### Stretches -/

/-- By effects that satisfy `ok`, a program goes on to the second one, and takes the shared state
and the world with it. -/
inductive Proceeds (sys : System S) (ok : Event S → Prop) {α : Type} :
    Program S α → sys.Shared → sys.World → Program S α → sys.Shared → sys.World → Prop
  | refl (p : Program S α) (s : sys.Shared) (w : sys.World) : Proceeds sys ok p s w p s w
  | act {e : S.Effect} {next : S.Answer e → Program S α} {r : S.Answer e} {s s' : sys.Shared}
      {w w' : sys.World} {p' : Program S α} (hr : sys.admits e s w r) (hok : ok (.did e r))
      (h : Proceeds sys ok (next r) (sys.write e r s) (sys.advance e r w) p' s' w') :
      Proceeds sys ok (.act e next) s w p' s' w'

section
variable {ok : Event S → Prop} {α β : Type} {s s' s'' : sys.Shared} {w w' w'' : sys.World}

theorem Proceeds.trans {p p' p'' : Program S α} (h : Proceeds sys ok p s w p' s' w')
    (h' : Proceeds sys ok p' s' w' p'' s'' w'') : Proceeds sys ok p s w p'' s'' w'' := by
  induction h with
  | refl => exact h'
  | act hr hok _ ih => exact .act hr hok (ih h')

/-- A stretch of the first of two programs. -/
theorem Proceeds.bind {p p' : Program S α} (h : Proceeds sys ok p s w p' s' w')
    (f : α → Program S β) : Proceeds sys ok (p >>= f) s w (p' >>= f) s' w' := by
  induction h with
  | refl => exact .refl _ _ _
  | act hr hok _ ih => exact .act hr hok ih

/-- A thread runs a stretch of its program, and the others do nothing. -/
theorem Proceeds.run {p p' : Program S S.Out} (h : Proceeds sys ok p s w p' s' w')
    {c : Config sys} {i : ℕ} {th : Thread S} (hi : c.threads[i]? = some th) (hp : th.prog = p)
    (hs : c.shared = s) (hw : c.world = w) :
    ∃ c' th', Run (fun _ l _ => l.Sat ok) c c' ∧ c'.threads[i]? = some th' ∧ th'.prog = p' ∧
      c'.shared = s' ∧ c'.world = w' ∧ c'.threads.length = c.threads.length ∧
      ∀ j, j ≠ i → c'.threads[j]? = c.threads[j]? := by
  induction h generalizing c th with
  | refl p s w => exact ⟨c, th, .refl c, hi, hp, hs, hw, rfl, fun _ _ => rfl⟩
  | @act e next r s s' w w' p' hr hok _ ih =>
    subst hs hw
    let c₁ : Config sys := { c.set i (th.did (.did e r) (next r)) with
      shared := sys.write e r c.shared
      world := sys.advance e r c.world }
    have hstep : Step c (.op i (.did e r)) c₁ := .act hi hp hr
    have hi₁ : c₁.threads[i]? = some (th.did (.did e r) (next r)) := Config.set_threads_self hi _
    obtain ⟨c', th', hrun, hi', hp', hs', hw', hlen, hothers⟩ := ih hi₁ rfl rfl rfl
    refine ⟨c', th', .head hstep hok hrun, hi', hp', hs', hw', hlen.trans List.length_set, ?_⟩
    intro j hj
    exact (hothers j hj).trans (c.set_threads_of_ne _ hj)

/-- A new thread runs a stretch of its task. -/
theorem exists_called {c : Config sys} {t : S.Task} (ht : sys.callable t) {p' : Program S S.Out}
    (h : Proceeds sys ok (sys.body t) c.shared c.world p' s' w') :
    ∃ c' th', Run (fun _ l _ => l.Sat ok) c c' ∧ c'.threads[c.threads.length]? = some th' ∧
      th'.prog = p' ∧ c'.shared = s' ∧ c'.world = w' ∧
      c'.threads.length = c.threads.length + 1 ∧
      ∀ j < c.threads.length, c'.threads[j]? = c.threads[j]? := by
  have hi : (c.spawn t).threads[c.threads.length]? = some (sys.fresh t) :=
    Config.spawn_threads.2 (Or.inr ⟨rfl, rfl⟩)
  obtain ⟨c', th', hrun, hi', hp', hs', hw', hlen, hothers⟩ := h.run hi rfl rfl rfl
  refine ⟨c', th', .head (.call ht) trivial hrun, hi', hp', hs', hw', ?_, fun j hj => ?_⟩
  · rw [hlen]
    simp [Config.spawn]
  · rw [hothers j (Nat.ne_of_lt hj)]
    exact List.getElem?_append_left hj

end

/-! ### Moves -/

/-- What the environment answers, whatever it is asked. -/
abbrev Oracle (sys : System S) := (e : S.Effect) → sys.Shared → sys.World → S.Answer e

/-- A call of a task, or the next step of thread `i`. -/
inductive Move (sys : System S)
  | call (t : S.Task)
  | go (i : ℕ) (oracle : Oracle sys)

variable [∀ e s w r, Decidable (sys.admits e s w r)] [DecidablePred sys.callable]

/-- The step that a move asks for, if it can be made.  Moves start threads successfully and
never make one panic. -/
def Config.next (c : Config sys) : Move sys → Option (Label S × Config sys)
  | .call t => if sys.callable t then some (.call t, c.spawn t) else none
  | .go i oracle =>
    match c.threads[i]? with
    | none => none
    | some th =>
      match th.prog with
      | .ret _ => none
      | .act e next =>
        let r := oracle e c.shared c.world
        if sys.admits e c.shared c.world r then
          some (.op i (.did e r),
            { c.set i (th.did (.did e r) (next r)) with
              shared := sys.write e r c.shared
              world := sys.advance e r c.world })
        else none
      | .lock next =>
        if c.holder = none then
          some (.op i .locked, { c.set i (th.did .locked next) with holder := some i })
        else none
      | .tryLock next =>
        if c.holder = none then
          some (.op i (.triedLock true),
            { c.set i (th.did (.triedLock true) (next true)) with holder := some i })
        else
          some (.op i (.triedLock false), c.set i (th.did (.triedLock false) (next false)))
      | .unlock next =>
        if c.holder = some i then
          some (.op i .unlocked, { c.set i (th.did .unlocked next) with holder := none })
        else none
      | .fork t next =>
        some (.op i (.forked t true),
          { (c.set i (th.did (.forked t true) (next true))).spawn t with
            shared := sys.forked t c.shared })
      | .abort => none

theorem Config.next_step {c c' : Config sys} {m : Move sys} {l : Label S}
    (h : c.next m = some (l, c')) : Step c l c' := by
  cases m with
  | call t =>
    simp only [Config.next] at h
    split at h
    · rename_i ht
      cases h
      exact .call ht
    · cases h
  | go i oracle =>
    simp only [Config.next] at h
    split at h
    · cases h
    · rename_i th hi
      split at h
      · cases h
      · rename_i e next hp
        split at h
        · rename_i hr
          cases h
          exact .act hi hp hr
        · cases h
      · rename_i next hp
        split at h
        · rename_i hfree
          cases h
          exact .lock hi hp hfree
        · cases h
      · rename_i next hp
        split at h
        · rename_i hfree
          cases h
          exact .tryLockFree hi hp hfree
        · rename_i hheld
          cases h
          exact .tryLockHeld hi hp hheld
      · rename_i next hp
        split at h
        · rename_i hmine
          cases h
          exact .unlock hi hp hmine
        · cases h
      · rename_i t next hp
        cases h
        exact .fork hi hp
      · cases h

variable {P : Config sys → Label S → Config sys → Prop} [∀ c l c', Decidable (P c l c')]

/-- The configuration after the moves, if all of them can be made by steps that satisfy `P`. -/
def play (P : Config sys → Label S → Config sys → Prop) [∀ c l c', Decidable (P c l c')] :
    Config sys → List (Move sys) → Option (Config sys)
  | c, [] => some c
  | c, m :: ms =>
    match c.next m with
    | none => none
    | some (l, c') => if P c l c' then play P c' ms else none

theorem play_run {c c' : Config sys} {ms : List (Move sys)} (h : play P c ms = some c') :
    Run P c c' := by
  induction ms generalizing c with
  | nil =>
    cases h
    exact Run.refl _
  | cons m ms ih =>
    unfold play at h
    split at h
    · cases h
    · rename_i l c₁ hnext
      split at h
      · rename_i hp
        exact Run.head (Config.next_step hnext) hp (ih h)
      · cases h

/-- A computed run with one more step. -/
theorem play_step {c c' : Config sys} {ms : List (Move sys)} (h : play P c ms = some c')
    {m : Move sys} {Q : Config sys → Label S → Config sys → Prop}
    [∀ c l c', Decidable (Q c l c')]
    (hm : (c'.next m).any (fun s => Q c' s.1 s.2) = true) :
    ∃ l c'', Run P c c' ∧ Step c' l c'' ∧ Q c' l c'' := by
  obtain ⟨⟨l, c''⟩, hnext, hq⟩ := (Option.any_eq_true _ _).1 hm
  exact ⟨l, c'', play_run h, Config.next_step hnext, of_decide_eq_true hq⟩

end Concurrent
