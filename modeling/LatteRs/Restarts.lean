import LatteRs.CacheFile
import LatteRs.OnDisk

/-!
# Restarts

Processes that run one after the other on one cache file, each of which may be
killed at any point, in the middle of a save too.

* `Accounted`, `accounted_of_run`: where the content of the cache comes from in
  one process;
* `Lives`, `left`: processes one after the other, and the files they leave;
* `activation_survives`: an activation outlives them all, unless some call got an
  answer on which the cache is emptied.
-/

namespace LatteRs

open Concurrent

variable {P : Platform} {sdk : Sdk P}

/-! ### One process -/

/-- A thread of the configuration has a past that satisfies `Q`. -/
def Someone (Q : Past signature → Prop) (c : Config sdk.system) : Prop :=
  ∃ (i : ℕ) (th : Thread signature), c.threads[i]? = some th ∧ Q th.past

/-- What a thread knows from its request it does not forget. -/
theorem someone_step {Q : Past signature → Prop} (hsent : ∀ h, Q h → sent h ≠ none)
    (hlater : ∀ h h', Later h h' → Q h → Q h') {c c' : Config sdk.system} {l : Label signature}
    (hk : sdk.contract.Kept c) (hstep : Step c l c') (h : Someone Q c) : Someone Q c' := by
  obtain ⟨i, th, hi, hq⟩ := h
  obtain ⟨th', hi', hl⟩ := later_of_step hk hstep hi (hsent _ hq)
  exact ⟨i, th', hi', hlater _ _ hl hq⟩

/-- The server returned this token to a call that verified it. -/
def Obtained (sdk : Sdk P) (token : String) (chain : CertChain) (h : Past signature) : Prop :=
  Returned sdk h token chain ∧ Verified sdk h token chain

/-- The server answered 404, 403 or 401 to an `activate` or a `renew`, or released an activation,
whichever it was. -/
def GivenUp (sdk : Sdk P) (h : Past signature) : Prop := Rejected sdk h ∨ Released sdk h

theorem Obtained.sent_ne_none {token : String} {chain : CertChain} {h : Past signature}
    (hobt : Obtained sdk token chain h) : sent h ≠ none := by
  obtain ⟨⟨_, _, ⟨q, hq, -⟩, -⟩, -⟩ := hobt
  simp [hq]

theorem GivenUp.sent_ne_none {h : Past signature} (hgiven : GivenUp sdk h) : sent h ≠ none := by
  rcases hgiven with ⟨_, _, ⟨q, hq, -⟩, -⟩ | ⟨q, _, _, _, hq, -⟩
  · simp [hq]
  · simp [hq]

/-- The cache is what it was at first, a token that was obtained, or empty when some call was
answered with a rejection or a release. -/
def Accounted (cache : Option (String × CertChain)) (c : Config sdk.system) : Prop :=
  c.shared.cache = cache ∨
    (∃ token chain, c.shared.cache = some (token, chain) ∧ Someone (Obtained sdk token chain) c) ∨
      c.shared.cache = none ∧ Someone (GivenUp sdk) c

theorem accounted_step {cache : Option (String × CertChain)} {c c' : Config sdk.system}
    {l : Label signature} (hk : sdk.contract.Kept c) (hc : Accounted cache c)
    (hstep : Step c l c') : Accounted cache c' := by
  have obtained : ∀ {token : String} {chain : CertChain}, Someone (Obtained sdk token chain) c →
      Someone (Obtained sdk token chain) c' :=
    someone_step (fun _ h => h.sent_ne_none)
      (fun _ _ hl h => ⟨h.1.later sdk hl, h.2.later sdk hl⟩) hk hstep
  have givenUp : Someone (GivenUp sdk) c → Someone (GivenUp sdk) c' :=
    someone_step (fun _ h => h.sent_ne_none)
      (fun _ _ hl h => h.imp (fun h => h.later sdk hl) (fun h => h.later sdk hl)) hk hstep
  by_cases hchange : c'.shared.cache = c.shared.cache
  · unfold Accounted
    rw [hchange]
    rcases hc with hsame | ⟨token, chain, hcache, hsome⟩ | ⟨hnone, hsome⟩
    · exact Or.inl hsame
    · exact Or.inr (Or.inl ⟨token, chain, hcache, obtained hsome⟩)
    · exact Or.inr (Or.inr ⟨hnone, givenUp hsome⟩)
  · rcases cache_change_cases hstep hchange with ⟨i, ⟨token, chain, rfl, hsaved⟩ | ⟨rfl, hnone⟩⟩
    · obtain ⟨th, hi, -, -, -, hret, hver⟩ := hk.guar sdk.sound hstep
      exact Or.inr (Or.inl ⟨token, chain, hsaved, obtained ⟨i, th, hi, hret, hver⟩⟩)
    · obtain ⟨th, hi, -, -, hgiven⟩ := hk.guar sdk.sound hstep
      exact Or.inr (Or.inr ⟨hnone, givenUp ⟨i, th, hi, hgiven⟩⟩)

theorem accounted_of_run {cache : Option (String × CertChain)} {newest : ℤ}
    {c : Config sdk.system} (hrun : AnyRun (sdk.start cache newest) c) : Accounted cache c := by
  have hboth : sdk.contract.Kept c ∧ Accounted cache c := by
    refine hrun.preserves (I := fun c => sdk.contract.Kept c ∧ Accounted cache c) ?_
      ⟨Contract.Kept.init (invariant_new cache), Or.inl rfl⟩
    rintro c l c' ⟨hk, hc⟩ hstep -
    exact ⟨hk.step sdk.sound hstep, accounted_step hk hc hstep⟩
  exact hboth.2

/-! ### What is seen of a past -/

/-- Requests are seen. -/
theorem sent_uncachedPast (h : Past signature) : sent (uncachedPast h) = sent h := by
  induction h with
  | nil => rfl
  | cons ev h ih =>
    cases ev with
    | did e r =>
      cases e with
      | request client url body => rfl
      | _ => exact ih
    | _ => exact ih

/-- Clock readings are seen. -/
theorem clock_mem_uncachedPast {h : Past signature} {now : SystemTime}
    (hnow : Event.did Effect.clock now ∈ h) : Event.did Effect.clock now ∈ uncachedPast h := by
  induction h with
  | nil => cases hnow
  | cons ev h ih =>
    rcases List.mem_cons.1 hnow with rfl | hmem
    · exact List.mem_cons_self
    · have hrest := ih hmem
      cases ev with
      | did e r => cases e <;> first | exact hrest | exact List.mem_cons_of_mem _ hrest
      | _ => exact hrest

theorem Obtained.seen {token : String} {chain : CertChain} {h : Past signature}
    (hobt : Obtained sdk token chain h) : Obtained sdk token chain (uncachedPast h) := by
  obtain ⟨hret, now, lic, hnow, hlic⟩ := hobt
  refine ⟨?_, now, lic, clock_mem_uncachedPast hnow, hlic⟩
  unfold Returned TokenReply at hret ⊢
  rw [sent_uncachedPast]
  exact hret

theorem GivenUp.seen {h : Past signature} (hgiven : GivenUp sdk h) :
    GivenUp sdk (uncachedPast h) := by
  unfold GivenUp Rejected Released TokenReply at hgiven ⊢
  rw [sent_uncachedPast]
  exact hgiven

/-! ### Processes one after the other -/

variable {codec : Storage.Codec}

/-- What the cache file decodes to. -/
def Sdk.cachedIn (sdk : Sdk P) (codec : Storage.Codec) (files : String → Option (List UInt8)) :
    Option (String × CertChain) := Storage.decoded codec (files sdk.cacheName)

/-- The files after processes that ended in these configurations, the latest first. -/
def left (files : String → Option (List UInt8)) :
    List (Config (sdk.diskSystem codec)) → String → Option (List UInt8)
  | [] => files
  | c :: _ => c.shared.disk.files

/-- Processes one after the other, each on the files that the one before it left, with the
configurations in which they ended, the latest first: a process may end in every configuration
that it reaches. -/
inductive Lives (sdk : Sdk P) (codec : Storage.Codec) (files : String → Option (List UInt8)) :
    List (Config (sdk.diskSystem codec)) → Prop
  | none : Lives sdk codec files []
  | next {cs : List (Config (sdk.diskSystem codec))} {c : Config (sdk.diskSystem codec)}
      (h : Lives sdk codec files cs) (pid : ℕ) (newest : ℤ)
      (hrun : Run (fun _ _ _ => True) (sdk.diskStart codec (left files cs) pid newest) c) :
      Lives sdk codec files (c :: cs)

/-- A thread of one of the processes has seen what satisfies `Q`. -/
def SomeoneOf (Q : Past signature → Prop) (cs : List (Config (sdk.diskSystem codec))) : Prop :=
  ∃ c ∈ cs, ∃ (i : ℕ) (th : Thread diskSignature), c.threads[i]? = some th ∧ Q (sdkPast th.past)

/-- One process on some files: what it leaves is accounted for. -/
theorem accounted_life {files : String → Option (List UInt8)} {pid : ℕ} {newest : ℤ}
    {c : Config (sdk.diskSystem codec)}
    (hrun : Run (fun _ _ _ => True) (sdk.diskStart codec files pid newest) c) :
    sdk.cachedIn codec c.shared.disk.files = sdk.cachedIn codec files ∨
      (∃ token chain, sdk.cachedIn codec c.shared.disk.files = some (token, chain) ∧
        SomeoneOf (Obtained sdk token chain) [c]) ∨
      sdk.cachedIn codec c.shared.disk.files = none ∧ SomeoneOf (GivenUp sdk) [c] := by
  have hstart : (sdk.levels codec).Related (sdk.diskStart codec files pid newest)
      (sdk.start (Storage.decoded codec (files sdk.cacheName)) newest) :=
    related_start files pid newest
  obtain ⟨a, hrun', hrel⟩ := hstart.run (Q := fun _ _ _ => True)
    (fun _ _ _ _ _ _ _ _ _ _ => trivial) levels_sound hrun
  have hlooks := looks_of_related hrel
  have hcache : a.shared.cache = sdk.cachedIn codec c.shared.disk.files := by
    rw [hlooks.shared]
    rfl
  -- the same thread of the process over the files
  have someoneOf : ∀ {Q : Past signature → Prop}, (∀ h, Q h → Q (uncachedPast h)) →
      Someone Q a → SomeoneOf Q [c] := by
    rintro Q hseen ⟨i, th', hi', hq⟩
    obtain ⟨hlt, -⟩ := List.getElem?_eq_some_iff.1 hi'
    rw [hlooks.length] at hlt
    obtain ⟨th'', hi'', -, hpast⟩ := hlooks.thread i _ (List.getElem?_eq_getElem hlt)
    cases Option.some.inj (hi'.symm.trans hi'')
    refine ⟨c, List.mem_singleton.2 rfl, i, _, List.getElem?_eq_getElem hlt, ?_⟩
    rw [← hpast]
    exact hseen _ hq
  have hacc := accounted_of_run hrun'
  unfold Accounted at hacc
  rw [hcache] at hacc
  rcases hacc with hsame | ⟨token, chain, hsome, hobt⟩ | ⟨hnone, hgiven⟩
  · exact Or.inl hsame
  · exact Or.inr (Or.inl ⟨token, chain, hsome, someoneOf (fun _ h => h.seen) hobt⟩)
  · exact Or.inr (Or.inr ⟨hnone, someoneOf (fun _ h => h.seen) hgiven⟩)

/-- **The activation survives restarts.**  However often the process ends, at whatever point of
its calls and of their writes, the cache file holds what it held at first or a token that the
server returned to one of the calls, which verified it; and an activation that was there is gone
only if one of the calls got a rejection or a release, be it for this activation or for
another. -/
theorem activation_survives {files : String → Option (List UInt8)}
    {cs : List (Config (sdk.diskSystem codec))} (h : Lives sdk codec files cs) :
    (∀ token chain, sdk.cachedIn codec (left files cs) = some (token, chain) →
      sdk.cachedIn codec files = some (token, chain) ∨ SomeoneOf (Obtained sdk token chain) cs) ∧
    (sdk.cachedIn codec files ≠ none → sdk.cachedIn codec (left files cs) = none →
      SomeoneOf (GivenUp sdk) cs) := by
  -- a life more does not change what happened in the others
  have earlier : ∀ {Q : Past signature → Prop} {cs : List (Config (sdk.diskSystem codec))}
      (c : Config (sdk.diskSystem codec)), SomeoneOf Q cs → SomeoneOf Q (c :: cs) :=
    fun c ⟨c', hmem, h⟩ => ⟨c', List.mem_cons_of_mem c hmem, h⟩
  have last : ∀ {Q : Past signature → Prop} {cs : List (Config (sdk.diskSystem codec))}
      {c : Config (sdk.diskSystem codec)}, SomeoneOf Q [c] → SomeoneOf Q (c :: cs) := by
    rintro Q cs c ⟨c', hmem, h⟩
    rw [List.mem_singleton.1 hmem] at h
    exact ⟨c, List.mem_cons_self, h⟩
  induction h with
  | none => exact ⟨fun token chain hcache => Or.inl hcache, fun hne hnone => absurd hnone hne⟩
  | @next cs c _ pid newest hrun ih =>
    obtain ⟨ihsome, ihnone⟩ := ih
    show (∀ token chain, sdk.cachedIn codec c.shared.disk.files = some (token, chain) → _) ∧
      (_ → sdk.cachedIn codec c.shared.disk.files = none → _)
    rcases accounted_life hrun with hsame | ⟨token, chain, hsome, hobt⟩ | ⟨hnone, hgiven⟩
    · rw [hsame]
      exact ⟨fun token chain hcache => (ihsome token chain hcache).imp_right (earlier c),
        fun hne hnone => earlier c (ihnone hne hnone)⟩
    · rw [hsome]
      refine ⟨fun token' chain' heq => ?_, fun _ hnone => by cases hnone⟩
      cases heq
      exact Or.inr (last hobt)
    · rw [hnone]
      exact ⟨fun _ _ hsome => absurd hsome.symm (Option.some_ne_none _), fun _ _ => last hgiven⟩

/-! ### A process that is killed -/

/-- What the sample codec writes for the sample token. -/
def sampleRecord : Storage.CachedActivation := .of .unixEpoch "h.t.4t" sampleChain

def shortToVec (record : Storage.CachedActivation) : List UInt8 :=
  if record = sampleRecord then [1]
  else 0 :: List.replicate (Storage.codes.encode record.code) 0

def shortFromSlice (data : List UInt8) : Option Storage.CachedActivation :=
  if data = [1] then some sampleRecord
  else match data with
  | [] => none
  | _ :: rest => (Storage.codes.decode rest.length).map Storage.CachedActivation.ofCode

theorem shortFromSlice_toVec (record : Storage.CachedActivation) :
    shortFromSlice (shortToVec record) = some record := by
  unfold shortToVec
  split_ifs with hrecord
  · rw [hrecord]
    exact if_pos rfl
  · have hdata : ∀ n, (0 :: List.replicate n 0 : List UInt8) ≠ [1] := by
      intro n h
      have hhead := (List.cons.inj h).1
      exact absurd hhead (by decide)
    refine (if_neg (hdata _)).trans ?_
    show (Storage.codes.decode (List.replicate _ _).length).map Storage.CachedActivation.ofCode =
      some record
    rw [List.length_replicate, Storage.codes.encodek, Option.map_some, Storage.ofCode_code]

/-- A codec that writes the sample record in one byte. -/
def shortCodec : Storage.Codec :=
  ⟨shortToVec, shortFromSlice, fun record _ => shortFromSlice_toVec record⟩

instance (d : Storage.Disk) (proc : ℕ) : Decidable (d.Alive proc) :=
  inferInstanceAs (Decidable (_ = _))

instance (e : Storage.Effect) (d : Storage.Disk) (r : Storage.Answer e) :
    Decidable (Storage.Disk.admits e d r) := by
  cases e <;> unfold Storage.Disk.admits <;> infer_instance

instance (e : Storage.Effect) (d : Storage.Disk) (r : Storage.Answer e) :
    Decidable (FileAdmits e d r) := by
  cases e <;> unfold FileAdmits <;> infer_instance

instance (e : DiskEffect) (s : Installed) (newest : ℤ) (r : DiskAnswer e) :
    Decidable ((sampleSdk.diskSystem shortCodec).admits e s newest r) :=
  match e, r with
  | .sdk e, r => inferInstanceAs (Decidable (sampleSdk.admits e _ newest r))
  | .file e, r => inferInstanceAs (Decidable (FileAdmits e s.disk r))

/-- A file system that works, at the epoch. -/
def workingFiles : (e : Storage.Effect) → Storage.Disk → Storage.Answer e
  | .boot _, _ => false
  | .kill _, _ => ()
  | .createDirAll _, _ => true
  | .clock _, _ => .unixEpoch
  | .processId proc, d => (d.procs[proc]?.map Storage.Process.pid).getD 0
  | .fetchAdd proc, d => (d.procs[proc]?.map Storage.Process.counter).getD 0
  | .createNew .., _ => true
  | .append .., _ => true
  | .rename .., _ => true
  | .remove .., _ => .removed
  | .read _ name, d => d.files name

/-- The sample server and a file system that works. -/
def workingOracle (reply : Reply) : Oracle (sampleSdk.diskSystem shortCodec)
  | .sdk e, s, newest => sampleOracle sampleNow reply e (s.shared sampleSdk shortCodec) newest
  | .file e, s, _ => workingFiles e s.disk

/-- A process that is killed right after the rename of its save, and one that is killed in the
middle of the next save. -/
theorem activation_survives_sample :
    ∃ (c c' : Config (sampleSdk.diskSystem shortCodec)),
      Lives sampleSdk shortCodec (fun _ => none) [c', c] ∧
        c'.shared.disk.files (Storage.tmpName "cache" 2 0) = some [] ∧
        sampleSdk.cachedIn shortCodec c'.shared.disk.files = some ("h.t.4t", sampleChain) ∧
        SomeoneOf (Obtained sampleSdk "h.t.4t" sampleChain) [c', c] := by
  have hplay : (play (fun _ _ _ => True) (sampleSdk.diskStart shortCodec (fun _ => none) 1 0)
      (.call (.activate "KEY") :: List.replicate 12 (.go 0 (workingOracle (sampleReply 116))))).any
      (fun c => (play (fun _ _ _ => True)
        (sampleSdk.diskStart shortCodec c.shared.disk.files 2 0)
        (.call (.renew "a" "KEY") ::
          List.replicate 19 (.go 0 (workingOracle (sampleReply 116))))).any fun c' =>
        decide (c'.shared.disk.files (Storage.tmpName "cache" 2 0) = some [] ∧
          sampleSdk.cachedIn shortCodec c'.shared.disk.files = some ("h.t.4t", sampleChain))) =
      true := by decide +kernel
  obtain ⟨c, hc, hplay⟩ := (Option.any_eq_true _ _).1 hplay
  obtain ⟨c', hc', hlast⟩ := (Option.any_eq_true _ _).1 hplay
  obtain ⟨htmp, hcached⟩ := of_decide_eq_true hlast
  have hlives : Lives sampleSdk shortCodec (fun _ => none) [c', c] :=
    .next (.next .none 1 0 (play_run hc)) 2 0 (play_run hc')
  refine ⟨c, c', hlives, htmp, hcached, ?_⟩
  refine ((activation_survives hlives).1 _ _ hcached).resolve_left fun hempty => ?_
  cases hempty

end LatteRs
