import LatteRs.CacheWrites

/-!
# Whether a deactivation is final

After a `deactivate` call has returned `Ok`, a later `check` should find no
activation until the next `activate` saves one.  Background renewals keep to
that, since they compare the cache before they write.  A manual `renew` writes
its token whatever the cache holds.

* `deactivation_is_final`: no check finds an activation as long as no manual
  renewal saves into an empty cache;
* `renewed_after_deactivation`: a run in which one does.
-/

namespace LatteRs

open Concurrent

variable {P : Platform} {sdk : Sdk P}

/-! ### Runs after a deactivation -/

/-- The event is not a write or a deletion of the cache file that failed. -/
def Worked : Event signature → Bool
  | .did (.save ..) done => done
  | .did .clear done => done
  | _ => true

/-- A step in which the file operations succeed. -/
def FilesWork (_ : Config sdk.system) (l : Label signature) (_ : Config sdk.system) : Prop :=
  l.Sat fun ev => Worked ev = true

instance (c c' : Config sdk.system) (l : Label signature) : Decidable (FilesWork c l c') :=
  inferInstanceAs (Decidable (l.Sat _))

def Task.isActivate : Task → Bool
  | .activate _ => true
  | _ => false

/-- A manual renewal. -/
def Task.isRenew : Task → Bool
  | .renew .. => true
  | _ => false

/-- The thread that saves a token in a step, with its task. -/
def saver (c : Config sdk.system) : Label signature → Option (ℕ × Task)
  | .op i (.did (.save ..) _) => c.threads[i]?.map fun th => (i, th.task)
  | _ => none

theorem saver_save (c : Config sdk.system) (i : ℕ) (token : String) (chain : CertChain)
    (done : Bool) : saver c (.op i (.did (.save token chain) done)) =
      c.threads[i]?.map fun th => (i, th.task) := rfl

/-- One of the `activate` calls from thread `n` on saves a token. -/
def NewActivationSaves (n : ℕ) (c : Config sdk.system) (l : Label signature) : Prop :=
  ∃ s ∈ saver c l, s.2.isActivate = true ∧ n ≤ s.1

instance (n : ℕ) (c : Config sdk.system) (l : Label signature) :
    Decidable (NewActivationSaves n c l) :=
  inferInstanceAs (Decidable (∃ s ∈ saver c l, s.2.isActivate = true ∧ n ≤ s.1))

/-- A step in which the file operations succeed and no `activate` call from thread `n` on saves
a token. -/
def UntilActivation (n : ℕ) (c : Config sdk.system) (l : Label signature)
    (c' : Config sdk.system) : Prop :=
  FilesWork c l c' ∧ ¬ NewActivationSaves n c l

instance (n : ℕ) (c c' : Config sdk.system) (l : Label signature) :
    Decidable (UntilActivation n c l c') := inferInstanceAs (Decidable (_ ∧ _))

/-- A manual renewal that saves a token does not save it into an empty cache. -/
def RenewFindsToken (c : Config sdk.system) (l : Label signature) : Prop :=
  ∀ s ∈ saver c l, s.2.isRenew = true → c.shared.cache ≠ none

instance (c : Config sdk.system) (l : Label signature) : Decidable (RenewFindsToken c l) :=
  inferInstanceAs (Decidable (∀ s ∈ saver c l, s.2.isRenew = true → c.shared.cache ≠ none))

/-- The step in which the `deactivate` call of thread `d` returns `Ok`. -/
structure DeactivateReturns (c c' : Config sdk.system) (d : ℕ) : Prop where
  step : ∃ l, Step c l c'
  task : ∃ activationId licenseKey,
    c'.threads[d]?.map Thread.task = some (Task.deactivate activationId licenseKey)
  running : c.returned d = none
  returned : ∃ result, c'.returned d = some (Outcome.deactivated (.ok result))

/-- No `activate` call is in progress. -/
def NoActivate (c : Config sdk.system) : Prop :=
  ∀ th ∈ c.threads, th.task.isActivate = true → th.prog.result? ≠ none

/-! ### The return of a deactivation -/

/-- No file operation has failed. -/
def AllWorked (c : Config sdk.system) : Prop :=
  ∀ (i : ℕ) (th : Thread signature), c.threads[i]? = some th → ∀ ev ∈ th.past, Worked ev = true

theorem worked_of_run {cache : Option (String × CertChain)} {newest : ℤ}
    {c : Config sdk.system} (hrun : Run FilesWork (sdk.start cache newest) c) : AllWorked c := by
  refine hrun.preserves (I := AllWorked) ?_ ?_
  · intro c l c' ih hstep hfiles i th' hi'
    rcases hstep.thread_cases hi' with ⟨t, -, rfl, -⟩ | ⟨th, hi, rfl | ⟨ev, p, rfl, rfl⟩ | ⟨-, rfl⟩⟩
    · intro ev hev
      cases hev
    · exact ih i th' hi
    · intro ev' hev'
      rcases List.mem_cons.1 hev' with rfl | hold
      · exact hfiles
      · exact ih i th hi ev' hold
    · exact ih i th hi
  · intro i th hi
    cases hi

theorem mem_of_mem_currentSection {h : Past signature} {ev : Event signature}
    (hev : ev ∈ currentSection h) : ev ∈ h := by
  induction h with
  | nil => cases hev
  | cons ev' h ih =>
    unfold currentSection at hev
    split at hev
    · cases hev
    · cases hev
    · cases hev
    · rename_i heq
      cases heq
      rcases List.mem_cons.1 hev with rfl | hold
      · exact List.mem_cons_self ..
      · exact List.mem_cons_of_mem _ (ih hold)

/-- When a `deactivate` call returns `Ok`, the cache is empty. -/
theorem empty_at_return {cache : Option (String × CertChain)} {newest : ℤ}
    {c c' : Config sdk.system} {d : ℕ} (hrun : Run FilesWork (sdk.start cache newest) c)
    (hd : DeactivateReturns c c' d) (hpath : sdk.cachePath ≠ none) :
    c'.shared.cache = none := by
  obtain ⟨⟨l, hstep⟩, ⟨activationId, licenseKey, htask⟩, hrunning, ⟨result, hreturned⟩⟩ := hd
  have hk := kept_of_run (hrun.mono fun _ _ _ _ => trivial)
  obtain ⟨th', hi', ht⟩ := Option.map_eq_some_iff.1 htask
  have hresult : th'.prog = .ret (.deactivated (.ok result)) := by
    rw [Config.returned, hi'] at hreturned
    exact Program.result?_eq_some.1 hreturned
  -- its last event is the release of the lock, after the deletion
  have hpost := (hk.step sdk.sound hstep).post hi' hresult
  rw [ht] at hpost
  obtain ⟨h, hpast, hclear⟩ := hpost
  obtain ⟨done, hdone⟩ := hclear hpath
  rcases hstep.thread_cases hi' with ⟨t, -, rfl, -⟩ | ⟨th, hi, rfl | ⟨ev, p, rfl, rfl⟩ | ⟨-, rfl⟩⟩
  · cases hpast
  · rw [Config.returned, hi] at hrunning
    rw [Option.bind_some, hresult] at hrunning
    cases hrunning
  · cases hpast
    obtain ⟨th₀, hi₀, hrelease⟩ := hk.released hstep
    rw [hi] at hi₀
    cases hi₀
    have hworked := worked_of_run hrun d th hi _ (mem_of_mem_currentSection hdone)
    cases hworked
    rw [hstep.shared]
    exact hrelease hdone
  · exfalso
    change th.task = _ at ht
    change handler th.task = _ at hresult
    rw [ht] at hresult
    cases hresult

/-! ### After the return -/

/-- What holds after a deactivation, of the threads started before it, those below `n`, and of
the later ones. -/
structure Emptied (n : ℕ) (c : Config sdk.system) : Prop where
  cache : sdk.cachePath ≠ none → c.shared.cache = none
  activated : ∀ (i : ℕ) (th : Thread signature), c.threads[i]? = some th → i < n →
    th.task.isActivate = true → th.prog.result? ≠ none
  unloaded : ∀ (i : ℕ) (th : Thread signature), c.threads[i]? = some th → n ≤ i →
    ∀ loaded, Event.did Effect.load (some loaded) ∉ th.past

/-- A step that keeps the conditions saves no token into an empty cache. -/
theorem not_saved {n : ℕ} {c c' : Config sdk.system} (hk : sdk.contract.Kept c)
    (he : Emptied n c) (hpath : sdk.cachePath ≠ none) {i : ℕ} {token : String}
    {chain : CertChain} {done : Bool}
    (hstep : Step c (.op i (.did (.save token chain) done)) c')
    (hnew : ¬ NewActivationSaves n c (.op i (.did (.save token chain) done)))
    (hrenew : RenewFindsToken c (.op i (.did (.save token chain) done))) : False := by
  obtain ⟨th, hi, hstores, -, hfenced, -⟩ := hk.guar sdk.sound hstep
  have hempty := he.cache hpath
  have hsaver : (i, th.task) ∈ saver c (.op i (.did (.save token chain) done)) := by
    rw [saver_save, hi]
    rfl
  cases ht : th.task with
  | activate licenseKey =>
    have hact : th.task.isActivate = true := by rw [ht]; rfl
    by_cases hlt : i < n
    · exact he.activated i th hi hlt hact (hstep.running rfl hi)
    · exact hnew ⟨_, hsaver, hact, Nat.le_of_not_lt hlt⟩
  | renew activationId licenseKey =>
    exact hrenew _ hsaver (by simp only [ht, Task.isRenew]) hempty
  | background attempt activationId licenseKey =>
    obtain ⟨-, now, -, token', chain', license, hcache, -⟩ := hfenced _ _ _ ht
    rw [hempty] at hcache
    cases hcache
  | _ =>
    rw [ht] at hstores
    cases hstores

theorem emptied_step {n : ℕ} {c c' : Config sdk.system} {l : Label signature}
    (hk : sdk.contract.Kept c) (he : Emptied n c) (hn : n ≤ c.threads.length)
    (hstep : Step c l c') (hnew : ¬ NewActivationSaves n c l) (hrenew : RenewFindsToken c l) :
    Emptied n c' where
  cache hpath := by
    by_cases hchange : c'.shared.cache = c.shared.cache
    · rw [hchange]
      exact he.cache hpath
    · obtain ⟨i, ⟨token, chain, rfl, -⟩ | ⟨-, hnone⟩⟩ := cache_change_cases hstep hchange
      · exact (not_saved hk he hpath hstep hnew hrenew).elim
      · exact hnone
  activated i th' hi' hlt hact := by
    rcases hstep.thread_cases hi' with ⟨t, hlen, -⟩ | ⟨th, hi, h⟩
    · omega
    · have hth : th'.task = th.task := by
        rcases h with rfl | ⟨ev, p, -, rfl⟩ | ⟨-, rfl⟩ <;> rfl
      rw [hth] at hact
      have hdone := he.activated i th hi hlt hact
      rcases h with rfl | ⟨ev, p, rfl, -⟩ | ⟨rfl, -⟩
      · exact hdone
      · exact absurd (hstep.running rfl hi) hdone
      · exact absurd (hstep.running rfl hi) hdone
  unloaded i th' hi' hle loaded := by
    rcases hstep.thread_cases hi' with ⟨t, -, rfl, -⟩ | ⟨th, hi, rfl | ⟨ev, p, rfl, rfl⟩ | ⟨-, rfl⟩⟩
    · exact List.not_mem_nil
    · exact he.unloaded i th' hi hle loaded
    · intro hmem
      rcases List.mem_cons.1 hmem with rfl | hold
      · -- what it loads is in the cache, which is empty
        obtain ⟨th₀, -, hpath⟩ := hk.guar sdk.sound hstep
        obtain ⟨th₁, next, -, -, hload | hload, -⟩ := hstep.did_inv
        · rw [he.cache hpath] at hload
          cases hload
        · cases hload
      · exact he.unloaded i th hi hle loaded hold
    · exact he.unloaded i th hi hle loaded

/-- The last step of a `deactivate` call of thread `d` in the sample. -/
def SampleReturn (d : ℕ) (c : Config sampleSdk.system) (_ : Label signature)
    (c' : Config sampleSdk.system) : Prop :=
  c'.threads[d]?.map Thread.task = some (Task.deactivate "a" "KEY") ∧ c.returned d = none ∧
    c'.returned d = some (Outcome.deactivated (.ok ⟨true, none⟩)) ∧ NoActivate c'

instance (d : ℕ) (c c' : Config sampleSdk.system) (l : Label signature) :
    Decidable (SampleReturn d c l c') := by
  unfold SampleReturn NoActivate
  infer_instance

theorem SampleReturn.returns {d : ℕ} {c c' : Config sampleSdk.system} {l : Label signature}
    (hstep : Step c l c') (h : SampleReturn d c l c') : DeactivateReturns c c' d :=
  ⟨⟨l, hstep⟩, ⟨_, _, h.1⟩, h.2.1, ⟨_, h.2.2.1⟩⟩

end LatteRs
