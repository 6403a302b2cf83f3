import LatteRs.Concurrent.Events
import LatteRs.Concurrent.Progress
import LatteRs.HttpPost

/-!
# Calls of `Http::post` and their helpers

What holds of every run of calls and helpers, whichever of them is slow, panics
or goes on when the other has given up.

* `forked_cases`, `recv_cases`, …: what each step is about;
* `Owned`, `owned_step`: channels, calls and helpers belong together;
* `Delivered`, `delivered_step`: what is in the channels, and what was received;
* `post_result`: what a call returns is the response to its own request, or what
  kept it from getting one;
* `exchanges_once`: a call makes one exchange at most;
* `post_goes_on`: a call waits for nothing but its helper, and not past its
  deadline.
-/

namespace LatteRs.HttpPost

open Concurrent Program

/-! ### Inversion of the steps -/

section
variable {c c' : Config system} {i ch : ℕ}

/-- What has been done at the time of an operation, in terms of the past of its thread. -/
theorem exists_does (hk : habits.Kept c) {ev : Event signature} (hstep : Step c (.op i ev) c') :
    ∃ t h, c.Runs i t ∧ (∀ ev', c.Has i ev' ↔ ev' ∈ h) ∧ habits.Does t h ev := by
  obtain ⟨th, hi, hdoes⟩ := hk.does hstep
  exact ⟨th.task, th.past, ⟨th, hi, rfl⟩, fun ev' => Config.has_iff hi, hdoes⟩

theorem forked_cases (hk : habits.Kept c) {t : Task} {ok : Bool}
    (hstep : Step c (.op i (.forked t ok)) c') :
    ∃ ch timeout url body, t = .helper ch url body ∧ c.Runs i (.post timeout url body) ∧
      ∀ ev, c.Has i ev ↔ ev = .did .channel ch := by
  obtain ⟨task, h, hruns, hhas, hdoes⟩ := exists_does hk hstep
  cases task with
  | post timeout url body =>
    cases hdoes with
    | start ch => exact ⟨ch, timeout, url, body, rfl, hruns, fun ev => by simp [hhas, opened]⟩
  | helper ch url body => cases hdoes
  | pass d => cases hdoes

theorem recv_cases (hk : habits.Kept c) {dl : Option ℕ} {received : Received}
    (hstep : Step c (.op i (.did (.recv ch dl) received)) c') :
    c.Has i (.did .channel ch) ∧ (∀ ch' dl' r, ¬ c.Has i (.did (.recv ch' dl') r)) ∧
      Admits (.recv ch dl) c.shared c.world received ∧
      c'.shared = write (.recv ch dl) received c.shared := by
  have hshared : c'.shared = write (.recv ch dl) received c.shared := hstep.shared
  obtain ⟨-, -, -, -, hadmits, -⟩ := hstep.did_inv
  obtain ⟨task, h, hruns, hhas, hdoes⟩ := exists_does hk hstep
  cases task with
  | post timeout url body =>
    cases hdoes with
    | recv ch t wait hwait received =>
      refine ⟨(hhas _).2 (by simp [started, opened]), fun ch' dl' r hbefore => ?_, hadmits,
        hshared⟩
      simpa [started, opened] using (hhas _).1 hbefore
  | helper ch url body => cases hdoes
  | pass d => cases hdoes

theorem opens_first (hk : habits.Kept c) (hstep : Step c (.op i (.did .channel ch)) c') :
    ∀ ev, ¬ c.Has i ev := by
  obtain ⟨task, h, hruns, hhas, hdoes⟩ := exists_does hk hstep
  cases task with
  | post timeout url body =>
    cases hdoes with
    | channel => exact fun ev hev => by simpa using (hhas ev).1 hev
  | helper ch url body => cases hdoes
  | pass d => cases hdoes

theorem exchange_cases (hk : habits.Kept c) {url : String} {body : Bytes} {reply : Reply}
    (hstep : Step c (.op i (.did (.exchange url body) reply)) c') :
    ∃ ch, c.Runs i (.helper ch url body) := by
  obtain ⟨task, h, hruns, hhas, hdoes⟩ := exists_does hk hstep
  cases task with
  | post timeout url body => cases hdoes
  | helper ch url body =>
    cases hdoes with
    | exchange => exact ⟨ch, hruns⟩
  | pass d => cases hdoes

theorem send_cases (hk : habits.Kept c) {reply : Reply}
    (hstep : Step c (.op i (.did (.send ch reply) ())) c') :
    ∃ url body, c.Runs i (.helper ch url body) ∧ c.Has i (.did (.exchange url body) reply) ∧
      (∀ ev, c.Has i ev → ev = .did (.exchange url body) reply) ∧
      c'.shared = write (.send ch reply) () c.shared := by
  have hshared : c'.shared = write (.send ch reply) () c.shared := hstep.shared
  obtain ⟨task, h, hruns, hhas, hdoes⟩ := exists_does hk hstep
  cases task with
  | post timeout url body => cases hdoes
  | helper ch url body =>
    cases hdoes with
    | send =>
      exact ⟨url, body, hruns, by simp [hhas], fun ev hev => by simpa [hhas] using hev, hshared⟩
  | pass d => cases hdoes

theorem drop_cases (hk : habits.Kept c) (hstep : Step c (.op i (.did (.dropSender ch) ())) c') :
    (∃ url body, c.Runs i (.helper ch url body)) ∧
      c'.shared = write (.dropSender ch) () c.shared := by
  have hshared : c'.shared = write (.dropSender ch) () c.shared := hstep.shared
  obtain ⟨task, h, hruns, hhas, hdoes⟩ := exists_does hk hstep
  cases task with
  | post timeout url body => cases hdoes
  | helper ch url body =>
    cases hdoes with
    | drop => exact ⟨⟨url, body, hruns⟩, hshared⟩
  | pass d => cases hdoes

end

/-! ### Callers, channels and helpers -/

/-- Whose channels and helpers are whose. -/
structure Owned (c : Config system) : Prop where
  opened : ∀ i ch, c.Has i (.did .channel ch) → ch < c.shared.length
  own : ∀ i j ch, c.Has i (.did .channel ch) → c.Has j (.did .channel ch) → i = j
  one : ∀ i ch ch', c.Has i (.did .channel ch) → c.Has i (.did .channel ch') → ch = ch'
  forked : ∀ i t ok, c.Has i (.forked t ok) → ∃ ch timeout url body, t = .helper ch url body ∧
    c.Runs i (.post timeout url body) ∧ c.Has i (.did .channel ch)
  spawned : ∀ i t, c.Has i (.forked t true) → ∃ j, c.Runs j t
  parent : ∀ j ch url body, c.Runs j (.helper ch url body) →
    ∃ i, c.Has i (.forked (.helper ch url body) true)
  single : ∀ i j ch url body url' body', c.Runs i (.helper ch url body) →
    c.Runs j (.helper ch url' body') → i = j
  recv : ∀ i ch dl r, c.Has i (.did (.recv ch dl) r) → c.Has i (.did .channel ch)
  exchanges : ∀ j url body reply, c.Has j (.did (.exchange url body) reply) →
    ∃ ch, c.Runs j (.helper ch url body)
  sends : ∀ j ch reply, c.Has j (.did (.send ch reply) ()) → ∃ url body,
    c.Runs j (.helper ch url body) ∧ c.Has j (.did (.exchange url body) reply)
  drops : ∀ j ch, c.Has j (.did (.dropSender ch) ()) → ∃ url body, c.Runs j (.helper ch url body)

theorem owned_initial (now : ℕ) : Owned (initial now) := by
  have hnone : ∀ i ev, ¬ (initial now).Has i ev := by
    rintro i ev ⟨th, hi, -⟩
    cases hi
  refine ⟨fun i _ h => absurd h (hnone i _), fun i _ _ h => absurd h (hnone i _),
    fun i _ _ h => absurd h (hnone i _), fun i _ _ h => absurd h (hnone i _),
    fun i _ h => absurd h (hnone i _), ?_, ?_, fun i _ _ _ h => absurd h (hnone i _),
    fun i _ _ _ h => absurd h (hnone i _), fun i _ _ h => absurd h (hnone i _),
    fun i _ h => absurd h (hnone i _)⟩
  · rintro j ch url body ⟨th, hi, -⟩
    cases hi
  · rintro i j ch url body url' body' ⟨th, hi, -⟩
    cases hi

/-- Channels stay. -/
theorem length_shared_le {c c' : Config system} {l : Label signature} (hstep : Step c l c') :
    c.shared.length ≤ c'.shared.length := by
  rw [hstep.shared]
  unfold System.after
  cases l with
  | op i ev =>
    cases ev with
    | did e r =>
      cases e with
      | recv ch dl => cases r <;> simp [write, update]
      | _ => simp [write, update]
    | forked t ok => cases ok <;> exact le_refl _
    | _ => exact le_refl _
  | _ => exact le_refl _

/-- A new channel. -/
theorem channel_cases {c c' : Config system} {i ch : ℕ}
    (hstep : Step c (.op i (.did .channel ch)) c') :
    ch = c.shared.length ∧ c'.shared = c.shared ++ [⟨[], true⟩] := by
  obtain ⟨-, -, -, -, hadmits, rfl⟩ := hstep.did_inv
  exact ⟨hadmits, rfl⟩

/-- A thread that is new after a step was called, or started by the step. -/
theorem helper_cases {c c' : Config system} {l : Label signature} (hstep : Step c l c') {j ch : ℕ}
    {url : String} {body : Bytes} (h : c'.Runs j (.helper ch url body)) :
    c.Runs j (.helper ch url body) ∨
      j = c.threads.length ∧ ∃ i, l = .op i (.forked (.helper ch url body) true) := by
  rcases runs_cases hstep h with hold | ⟨hlen, rfl | hfork⟩
  · exact Or.inl hold
  · cases hstep with
    | call ht => cases ht
  · exact Or.inr ⟨hlen, hfork⟩

theorem owned_step {c c' : Config system} {l : Label signature} (hk : habits.Kept c)
    (ho : Owned c) (hstep : Step c l c') : Owned c' where
  opened i ch h := by
    rcases has_cases hstep h with hold | rfl
    · exact Nat.lt_of_lt_of_le (ho.opened i ch hold) (length_shared_le hstep)
    · obtain ⟨rfl, hshared⟩ := channel_cases hstep
      rw [hshared]
      simp
  own i j ch hi hj := by
    rcases has_cases hstep hi with hi | rfl
    · rcases has_cases hstep hj with hj | rfl
      · exact ho.own i j ch hi hj
      · obtain ⟨rfl, -⟩ := channel_cases hstep
        exact absurd (ho.opened i _ hi) (Nat.lt_irrefl _)
    · rcases has_cases hstep hj with hj | heq
      · obtain ⟨rfl, -⟩ := channel_cases hstep
        exact absurd (ho.opened j _ hj) (Nat.lt_irrefl _)
      · cases heq
        rfl
  one i ch ch' h h' := by
    rcases has_cases hstep h with h | rfl
    · rcases has_cases hstep h' with h' | rfl
      · exact ho.one i ch ch' h h'
      · exact absurd h ((opens_first hk hstep) _)
    · rcases has_cases hstep h' with h' | heq
      · exact absurd h' ((opens_first hk hstep) _)
      · cases heq
        rfl
  forked i t ok h := by
    rcases has_cases hstep h with hold | rfl
    · obtain ⟨ch, timeout, url, body, ht, hruns, hhas⟩ := ho.forked i t ok hold
      exact ⟨ch, timeout, url, body, ht, runs_step hstep hruns, has_step hstep hhas⟩
    · obtain ⟨ch, timeout, url, body, ht, hruns, hhas⟩ := forked_cases hk hstep
      exact ⟨ch, timeout, url, body, ht, runs_step hstep hruns,
        has_step hstep ((hhas _).2 rfl)⟩
  spawned i t h := by
    rcases has_cases hstep h with hold | rfl
    · obtain ⟨j, hruns⟩ := ho.spawned i t hold
      exact ⟨j, runs_step hstep hruns⟩
    · exact ⟨_, runs_of_forked hstep⟩
  parent j ch url body h := by
    rcases helper_cases hstep h with hold | ⟨-, i, rfl⟩
    · obtain ⟨i, hhas⟩ := ho.parent j ch url body hold
      exact ⟨i, has_step hstep hhas⟩
    · exact ⟨i, has_of_op hstep⟩
  single i j ch url body url' body' hi hj := by
    -- a channel whose helper is being started has none yet
    have fresh : ∀ {k k' : ℕ} {url url' : String} {body body' : Bytes},
        l = .op k (.forked (.helper ch url body) true) → ¬ c.Runs k' (.helper ch url' body') := by
      rintro k k' url url' body body' rfl hruns
      obtain ⟨ch', timeout, _, _, ht, -, hhas⟩ := forked_cases hk hstep
      cases ht
      obtain ⟨k₀, hforked⟩ := ho.parent k' ch url' body' hruns
      obtain ⟨ch₀, _, _, _, ht₀, -, hchannel⟩ := ho.forked k₀ _ _ hforked
      cases ht₀
      have hsame := ho.own k₀ k ch hchannel ((hhas _).2 rfl)
      subst hsame
      cases (hhas _).1 hforked
    rcases helper_cases hstep hi with hi | ⟨hlen, k, hk₁⟩
    · rcases helper_cases hstep hj with hj | ⟨-, k, hk₁⟩
      · exact ho.single i j ch url body url' body' hi hj
      · exact absurd hi (fresh hk₁)
    · rcases helper_cases hstep hj with hj | ⟨hlen', -⟩
      · exact absurd hj (fresh hk₁)
      · rw [hlen, hlen']
  recv i ch dl r h := by
    rcases has_cases hstep h with hold | rfl
    · exact has_step hstep (ho.recv i ch dl r hold)
    · exact has_step hstep (recv_cases hk hstep).1
  exchanges j url body reply h := by
    rcases has_cases hstep h with hold | rfl
    · obtain ⟨ch, hruns⟩ := ho.exchanges j url body reply hold
      exact ⟨ch, runs_step hstep hruns⟩
    · obtain ⟨ch, hruns⟩ := exchange_cases hk hstep
      exact ⟨ch, runs_step hstep hruns⟩
  sends j ch reply h := by
    rcases has_cases hstep h with hold | rfl
    · obtain ⟨url, body, hruns, hhas⟩ := ho.sends j ch reply hold
      exact ⟨url, body, runs_step hstep hruns, has_step hstep hhas⟩
    · obtain ⟨url, body, hruns, hhas, -⟩ := send_cases hk hstep
      exact ⟨url, body, runs_step hstep hruns, has_step hstep hhas⟩
  drops j ch h := by
    rcases has_cases hstep h with hold | rfl
    · obtain ⟨url, body, hruns⟩ := ho.drops j ch hold
      exact ⟨url, body, runs_step hstep hruns⟩
    · obtain ⟨⟨url, body, hruns⟩, -⟩ := drop_cases hk hstep
      exact ⟨url, body, runs_step hstep hruns⟩

/-! ### Messages -/

/-- What a step leaves of channel `ch`. -/
def Channel.after (ch : ℕ) : Label signature → Channel → Channel
  | .op _ (.did (.recv ch' _) (.reply _)), chan =>
    if ch' = ch then { chan with queue := chan.queue.tail } else chan
  | .op _ (.did (.send ch' reply) _), chan =>
    if ch' = ch then { chan with queue := chan.queue ++ [reply] } else chan
  | .op _ (.did (.dropSender ch') _), chan =>
    if ch' = ch then { chan with connected := false } else chan
  | _, chan => chan

section
variable {c c' : Config system} {l : Label signature} {ch : ℕ}

theorem channel_after (hstep : Step c l c') (hlt : ch < c.shared.length) :
    c'.shared[ch]? = c.shared[ch]?.map (Channel.after ch l) := by
  have hid : ∀ o : Option Channel, o.map (fun chan => chan) = o := fun o => by cases o <;> rfl
  rw [hstep.shared]
  unfold System.after
  cases l with
  | op i ev =>
    cases ev with
    | did e r =>
      cases e with
      | channel =>
        show (c.shared ++ [⟨[], true⟩])[ch]? = _
        rw [List.getElem?_append_left hlt]
        exact (hid _).symm
      | recv ch' dl =>
        cases r with
        | reply reply => exact List.getElem?_modify ..
        | _ => exact (hid _).symm
      | send ch' reply => exact List.getElem?_modify ..
      | dropSender ch' => exact List.getElem?_modify ..
      | _ => exact (hid _).symm
    | forked t ok => cases ok <;> exact (hid _).symm
    | _ => exact (hid _).symm
  | _ => exact (hid _).symm

/-- A channel that is there after a step was there, or is new. -/
theorem exists_channel {chan' : Channel} (hstep : Step c l c')
    (h : c'.shared[ch]? = some chan') :
    (∃ chan, c.shared[ch]? = some chan ∧ chan' = Channel.after ch l chan) ∨
      ch = c.shared.length ∧ chan' = ⟨[], true⟩ := by
  by_cases hlt : ch < c.shared.length
  · rw [channel_after hstep hlt] at h
    obtain ⟨chan, hchan, heq⟩ := Option.map_eq_some_iff.1 h
    exact Or.inl ⟨chan, hchan, heq.symm⟩
  · -- only a new channel makes the list longer
    have hlen : c'.shared.length ≤ c.shared.length ∨ c'.shared = c.shared ++ [⟨[], true⟩] := by
      rw [hstep.shared]
      unfold System.after
      cases l with
      | op i ev =>
        cases ev with
        | did e r =>
          cases e with
          | channel => exact Or.inr rfl
          | recv ch' dl => cases r <;> simp [write, update]
          | _ => simp [write, update]
        | forked t ok => cases ok <;> exact Or.inl (le_refl _)
        | _ => exact Or.inl (le_refl _)
      | _ => exact Or.inl (le_refl _)
    obtain ⟨hlt', -⟩ := List.getElem?_eq_some_iff.1 h
    rcases hlen with hle | heq
    · omega
    · rw [heq] at h hlt'
      have hlast : ch = c.shared.length := by
        simp only [List.length_append, List.length_singleton] at hlt'
        omega
      subst hlast
      simp only [List.getElem?_concat_length, Option.some.injEq] at h
      exact Or.inr ⟨rfl, h.symm⟩

theorem mem_queue_after {chan : Channel} {reply : Reply}
    (h : reply ∈ (Channel.after ch l chan).queue) :
    reply ∈ chan.queue ∨ ∃ i, l = .op i (.did (.send ch reply) ()) := by
  unfold Channel.after at h
  split at h
  · split_ifs at h
    · exact Or.inl (List.mem_of_mem_tail h)
    · exact Or.inl h
  · split_ifs at h with heq
    · subst heq
      rcases List.mem_append.1 h with hold | hnew
      · exact Or.inl hold
      · rw [List.mem_singleton.1 hnew]
        exact Or.inr ⟨_, rfl⟩
    · exact Or.inl h
  · split_ifs at h <;> exact Or.inl h
  · exact Or.inl h

theorem connected_after {chan : Channel} :
    (Channel.after ch l chan).connected = false ↔
      chan.connected = false ∨ ∃ i, l = .op i (.did (.dropSender ch) ()) := by
  unfold Channel.after
  split
  · split_ifs <;> simp
  · split_ifs <;> simp
  · split_ifs with heq
    · simp [heq]
    · simp [heq]
  next hother =>
    constructor
    · exact Or.inl
    · rintro (hclosed | ⟨i, rfl⟩)
      · exact hclosed
      · exact absurd rfl (hother i ch ())

/-- A message stays in its channel until it is received. -/
theorem queue_after {chan : Channel} {reply : Reply} (hstep : Step c l c')
    (hchan : c.shared[ch]? = some chan) (h : reply ∈ chan.queue) :
    reply ∈ (Channel.after ch l chan).queue ∨
      ∃ i dl, l = .op i (.did (.recv ch dl) (.reply reply)) := by
  unfold Channel.after
  split
  · rename_i i ch' dl reply'
    split_ifs with heq
    · subst heq
      obtain ⟨-, -, -, -, ⟨rest, connected, hhead⟩, -⟩ := hstep.did_inv
      rw [hchan] at hhead
      cases hhead
      rcases List.mem_cons.1 h with rfl | hrest
      · exact Or.inr ⟨i, dl, rfl⟩
      · exact Or.inl hrest
    · exact Or.inl h
  · split_ifs
    · exact Or.inl (List.mem_append_left _ h)
    · exact Or.inl h
  · split_ifs <;> exact Or.inl h
  · exact Or.inl h

/-- Time does not go back. -/
theorem world_le (hstep : Step c l c') : c.world ≤ c'.world := by
  rw [hstep.world]
  unfold System.afterWorld
  cases l with
  | op i ev =>
    cases ev with
    | did e r => cases e <;> simp [advance]
    | _ => exact le_refl _
  | _ => exact le_refl _

end

/-- What is in the channels, and what callers have received. -/
structure Delivered (c : Config system) : Prop where
  queue : ∀ ch chan reply, c.shared[ch]? = some chan → reply ∈ chan.queue →
    ∃ j, c.Has j (.did (.send ch reply) ())
  closed : ∀ ch chan, c.shared[ch]? = some chan →
    (chan.connected = false ↔ ∃ j, c.Has j (.did (.dropSender ch) ()))
  sent : ∀ j ch reply chan, c.shared[ch]? = some chan → c.Has j (.did (.send ch reply) ()) →
    reply ∈ chan.queue ∨ ∃ i dl, c.Has i (.did (.recv ch dl) (.reply reply))
  received : ∀ i ch dl reply, c.Has i (.did (.recv ch dl) (.reply reply)) →
    ∃ j, c.Has j (.did (.send ch reply) ())
  disconnected : ∀ i ch dl, c.Has i (.did (.recv ch dl) .disconnected) →
    ∃ j, c.Has j (.did (.dropSender ch) ()) ∧ ∀ reply, ¬ c.Has j (.did (.send ch reply) ())
  timedOut : ∀ i ch dl, c.Has i (.did (.recv ch dl) .timeout) → ∃ d, dl = some d ∧ d ≤ c.world

theorem delivered_initial (now : ℕ) : Delivered (initial now) := by
  have hnone : ∀ i ev, ¬ (initial now).Has i ev := by
    rintro i ev ⟨th, hi, -⟩
    cases hi
  refine ⟨?_, ?_, ?_, fun i _ _ _ h => absurd h (hnone i _), fun i _ _ h => absurd h (hnone i _),
    fun i _ _ h => absurd h (hnone i _)⟩
  · intro ch chan reply h
    cases h
  · intro ch chan h
    cases h
  · intro j ch reply chan h
    cases h

/-- No thread sends to a channel, or drops its sender, before it is opened. -/
theorem Owned.helper_lt {c : Config system} (ho : Owned c) {j ch : ℕ} {url : String} {body : Bytes}
    (h : c.Runs j (.helper ch url body)) : ch < c.shared.length := by
  obtain ⟨i, hforked⟩ := ho.parent j ch url body h
  obtain ⟨ch', _, _, _, ht, -, hchannel⟩ := ho.forked i _ _ hforked
  cases ht
  exact ho.opened i ch hchannel

theorem delivered_step {c c' : Config system} {l : Label signature} (hk : habits.Kept c)
    (ho : Owned c) (hd : Delivered c) (hstep : Step c l c') : Delivered c' where
  queue ch chan reply hchan hmem := by
    rcases exists_channel hstep hchan with ⟨chan₀, hchan₀, rfl⟩ | ⟨-, rfl⟩
    · rcases mem_queue_after hmem with hold | ⟨i, rfl⟩
      · obtain ⟨j, hj⟩ := hd.queue ch chan₀ reply hchan₀ hold
        exact ⟨j, has_step hstep hj⟩
      · exact ⟨i, has_of_op hstep⟩
    · cases hmem
  closed ch chan hchan := by
    rcases exists_channel hstep hchan with ⟨chan₀, hchan₀, rfl⟩ | ⟨rfl, rfl⟩
    · rw [connected_after, hd.closed ch chan₀ hchan₀]
      constructor
      · rintro (⟨j, hj⟩ | ⟨i, rfl⟩)
        · exact ⟨j, has_step hstep hj⟩
        · exact ⟨i, has_of_op hstep⟩
      · rintro ⟨j, hj⟩
        exact (has_cases hstep hj).imp (fun hold => ⟨j, hold⟩) (fun hl => ⟨j, hl⟩)
    · -- a new channel has a sender, and no helper yet
      refine ⟨fun h => Bool.noConfusion (show true = false from h), ?_⟩
      rintro ⟨j, hj⟩
      have hruns : ∃ url body, c.Runs j (.helper c.shared.length url body) := by
        rcases has_cases hstep hj with hold | rfl
        · exact ho.drops j _ hold
        · exact (drop_cases hk hstep).1
      obtain ⟨url, body, hruns⟩ := hruns
      exact absurd (ho.helper_lt hruns) (Nat.lt_irrefl _)
  sent j ch reply chan hchan hj := by
    rcases exists_channel hstep hchan with ⟨chan₀, hchan₀, rfl⟩ | ⟨rfl, rfl⟩
    · rcases has_cases hstep hj with hold | rfl
      · rcases hd.sent j ch reply chan₀ hchan₀ hold with hmem | ⟨i, dl, hi⟩
        · rcases queue_after hstep hchan₀ hmem with hstays | ⟨i, dl, rfl⟩
          · exact Or.inl hstays
          · exact Or.inr ⟨i, dl, has_of_op hstep⟩
        · exact Or.inr ⟨i, dl, has_step hstep hi⟩
      · refine Or.inl ?_
        unfold Channel.after
        simp
    · have hruns : ∃ url body, c.Runs j (.helper c.shared.length url body) := by
        rcases has_cases hstep hj with hold | rfl
        · obtain ⟨url, body, hruns, -⟩ := ho.sends j _ reply hold
          exact ⟨url, body, hruns⟩
        · obtain ⟨url, body, hruns, -⟩ := send_cases hk hstep
          exact ⟨url, body, hruns⟩
      obtain ⟨url, body, hruns⟩ := hruns
      exact absurd (ho.helper_lt hruns) (Nat.lt_irrefl _)
  received i ch dl reply h := by
    rcases has_cases hstep h with hold | rfl
    · obtain ⟨j, hj⟩ := hd.received i ch dl reply hold
      exact ⟨j, has_step hstep hj⟩
    · obtain ⟨-, -, ⟨rest, connected, hchan⟩, -⟩ := recv_cases hk hstep
      obtain ⟨j, hj⟩ := hd.queue ch _ reply hchan List.mem_cons_self
      exact ⟨j, has_step hstep hj⟩
  disconnected i ch dl h := by
    rcases has_cases hstep h with hold | rfl
    · obtain ⟨j, hdrop, hnot⟩ := hd.disconnected i ch dl hold
      refine ⟨j, has_step hstep hdrop, fun reply hsend => ?_⟩
      rcases has_cases hstep hsend with hsent | rfl
      · exact hnot reply hsent
      · -- nothing is sent once the sender is dropped
        obtain ⟨url, body, -, -, honly, -⟩ := send_cases hk hstep
        cases honly _ hdrop
    · obtain ⟨hchannel, hfirst, hchan, -⟩ := recv_cases hk hstep
      obtain ⟨j, hdrop⟩ := (hd.closed ch _ hchan).1 rfl
      refine ⟨j, has_step hstep hdrop, fun reply hsend => ?_⟩
      rcases has_cases hstep hsend with hsent | heq
      · rcases hd.sent j ch reply _ hchan hsent with hmem | ⟨i', dl', hrecv⟩
        · cases hmem
        · cases ho.own i' i ch (ho.recv i' ch dl' _ hrecv) hchannel
          exact hfirst ch dl' _ hrecv
      · cases heq
  timedOut i ch dl h := by
    have hle := world_le hstep
    rcases has_cases hstep h with hold | rfl
    · obtain ⟨d, hdl, hd'⟩ := hd.timedOut i ch dl hold
      exact ⟨d, hdl, le_trans hd' hle⟩
    · obtain ⟨-, -, ⟨d, hdl, hd'⟩, -⟩ := recv_cases hk hstep
      exact ⟨d, hdl, le_trans hd' hle⟩

/-! ### Calls -/

theorem patience_eq {timeout wait : Duration} (h : patience timeout = some wait) :
    wait = timeout + abandonAfter := by
  unfold patience at h
  split_ifs at h
  cases h
  exact Nat.add_comm _ _

theorem kept_of_run {now : ℕ} {c : Config system} (hrun : Run (fun _ _ _ => True) (initial now) c) :
    habits.Kept c ∧ Owned c ∧ Delivered c := by
  refine hrun.preserves (I := fun c => habits.Kept c ∧ Owned c ∧ Delivered c) ?_
    ⟨Habits.Kept.init _ _, owned_initial now, delivered_initial now⟩
  rintro c l c' ⟨hk, ho, hd⟩ hstep -
  exact ⟨hk.step habits_sound hstep, owned_step hk ho hstep, delivered_step hk ho hd hstep⟩

/-- Thread `j` is the helper that thread `i` started for its request. -/
def HelperOf (c : Config system) (i j : ℕ) (url : String) (body : Bytes) : Prop :=
  ∃ ch, c.Has i (.forked (.helper ch url body) true) ∧ c.Runs j (.helper ch url body)

/-- Why a call of `post` returns what it returns. -/
inductive Explains (c : Config system) (i : ℕ) (timeout : Duration) (url : String) (body : Bytes) :
    Except LatteError (ℕ × Except String Bytes) → Prop
  /-- It is the response to its own request, or the error of its own exchange. -/
  | reply (j : ℕ) (reply : Reply) (hj : HelperOf c i j url body)
    (hreply : c.Has j (.did (.exchange url body) reply)) :
    Explains c i timeout url body (outcome timeout (.reply reply))
  /-- It has waited for its timeout and a second. -/
  | timeout (t : ℕ) (ht : c.Has i (.did .instant t))
    (hlate : t + timeout + abandonAfter ≤ c.world) :
    Explains c i timeout url body (outcome timeout .timeout)
  /-- Its helper has ended without a reply. -/
  | disconnected (j ch : ℕ) (hj : HelperOf c i j url body)
    (hdrop : c.Has j (.did (.dropSender ch) ()))
    (hsend : ∀ ch reply, ¬ c.Has j (.did (.send ch reply) ())) :
    Explains c i timeout url body (outcome timeout .disconnected)
  /-- There was no helper, and so no exchange. -/
  | spawnError (text : String) (hnone : ∀ j, ¬ HelperOf c i j url body) :
    Explains c i timeout url body (.error (.network text))

/-- The helper of a call is the thread that runs for its channel. -/
theorem helperOf_of_runs {c : Config system} (ho : Owned c) {i j ch : ℕ} {url : String}
    {body : Bytes} (hfork : c.Has i (.forked (.helper ch url body) true))
    (h : ∃ url body, c.Runs j (.helper ch url body)) : HelperOf c i j url body := by
  obtain ⟨url', body', hruns⟩ := h
  obtain ⟨j', hruns'⟩ := ho.spawned i _ hfork
  cases ho.single j j' ch _ _ _ _ hruns hruns'
  exact ⟨ch, hfork, hruns'⟩

/-- **What a call returns is about its own request.**  It is the response that the helper of this
very call got for this URL and body, or the error of that exchange; or the timeout and a second
have passed since the call began to wait; or its helper has ended without a reply; or no helper
could be started.  No other call's response is ever mixed in, however late it comes. -/
theorem post_result {now : ℕ} {c : Config system}
    (hrun : Run (fun _ _ _ => True) (initial now) c) {i : ℕ} {timeout : Duration} {url : String}
    {body : Bytes} {result : Except LatteError (ℕ × Except String Bytes)}
    (hpost : c.Runs i (.post timeout url body)) (hret : c.returned i = some (.posted result)) :
    Explains c i timeout url body result := by
  obtain ⟨hk, ho, hd⟩ := kept_of_run hrun
  obtain ⟨th, hi, htask⟩ := hpost
  have hresult : th.prog.result? = some (Outcome.posted result) := by
    unfold Config.returned at hret
    rw [hi] at hret
    exact hret
  have hreturns := hk.returns hi hresult
  have hhas : ∀ ev, c.Has i ev ↔ ev ∈ th.past := fun ev => Config.has_iff hi
  rw [htask] at hreturns
  generalize hpast : th.past = past at hreturns hhas
  cases hreturns with
  | failed ch text =>
    refine .spawnError text ?_
    rintro j ⟨ch', hfork, -⟩
    simpa [started, opened] using (hhas _).1 hfork
  | received ch t wait hwait received =>
    have hfork : c.Has i (.forked (.helper ch url body) true) :=
      (hhas _).2 (by simp [started])
    have hrecv : c.Has i (.did (.recv ch (deadline t wait)) received) := (hhas _).2 (by simp)
    have hinstant : c.Has i (.did .instant t) := (hhas _).2 (by simp)
    cases received with
    | reply reply =>
      obtain ⟨j, hsend⟩ := hd.received i ch _ reply hrecv
      obtain ⟨url', body', hruns, hexchange⟩ := ho.sends j ch reply hsend
      obtain ⟨ch', hfork', hruns'⟩ := helperOf_of_runs ho hfork ⟨url', body', hruns⟩
      cases hruns.unique hruns'
      exact .reply j reply ⟨ch, hfork', hruns'⟩ hexchange
    | timeout =>
      obtain ⟨d, hdl, hle⟩ := hd.timedOut i ch _ hrecv
      unfold deadline at hdl
      split_ifs at hdl
      cases hdl
      refine .timeout t hinstant ?_
      rw [Nat.add_assoc, ← patience_eq hwait]
      exact hle
    | disconnected =>
      obtain ⟨j, hdrop, hnot⟩ := hd.disconnected i ch _ hrecv
      have hhelper := helperOf_of_runs ho hfork (ho.drops j ch hdrop)
      refine .disconnected j ch hhelper hdrop fun ch' reply hsend => ?_
      -- it could only send to its own channel
      obtain ⟨url', body', hruns, -⟩ := ho.sends j ch' reply hsend
      obtain ⟨url'', body'', hruns''⟩ := ho.drops j ch hdrop
      cases hruns.unique hruns''
      exact hnot reply hsend

/-- Two calls at once; the reply to the second comes first. -/
theorem post_result_sample : ∃ c : Config system,
    c.Runs 0 (.post 5 "u" [1]) ∧ c.returned 0 = some (.posted (.ok (200, .ok [3]))) ∧
      Explains c 0 5 "u" [1] (.ok (200, .ok [3])) := by
  have hplay : (play (fun _ _ _ => True) (initial 0)
      (.call (.post 5 "u" [1]) :: .call (.post 5 "u" [2]) ::
        sampleMoves 2 0 (.error "") ++ sampleMoves 2 1 (.error "") ++
        sampleMoves 2 3 (.ok (200, .ok [4])) ++ sampleMoves 2 2 (.ok (200, .ok [3])) ++
        sampleMoves 2 0 (.error ""))).any
      (fun c => decide (c.threads[0]?.map Thread.task = some (Task.post 5 "u" [1]) ∧
        c.returned 0 = some (.posted (.ok (200, .ok [3]))))) = true := by decide +kernel
  obtain ⟨c, hc, hlast⟩ := (Option.any_eq_true _ _).1 hplay
  obtain ⟨htask, hret⟩ := of_decide_eq_true hlast
  obtain ⟨th, hi, hpost⟩ := Option.map_eq_some_iff.1 htask
  exact ⟨c, ⟨th, hi, hpost⟩, hret, post_result (play_run hc) ⟨th, hi, hpost⟩ hret⟩

/-- An exchange with the server. -/
def isExchange : Event signature → Bool
  | .did (.exchange ..) _ => true
  | _ => false

/-- No thread makes a second exchange. -/
theorem count_exchange_step {c c' : Config system} {l : Label signature} (hk : habits.Kept c)
    (hstep : Step c l c')
    (hc : ∀ (j : ℕ) (th : Thread signature), c.threads[j]? = some th →
      th.past.countP isExchange ≤ 1) :
    ∀ (j : ℕ) (th : Thread signature), c'.threads[j]? = some th →
      th.past.countP isExchange ≤ 1 := by
  intro j th' hj'
  rcases hstep.thread_cases hj' with
    ⟨t, -, rfl, -⟩ | ⟨th, hj, rfl | ⟨ev, p, rfl, rfl⟩ | ⟨-, rfl⟩⟩
  · exact Nat.zero_le 1
  · exact hc j _ hj
  · obtain ⟨th₀, hj₀, hdoes⟩ := hk.does hstep
    cases Option.some.inj (hj.symm.trans hj₀)
    show (ev :: th.past).countP isExchange ≤ 1
    by_cases hev : isExchange ev = true
    · -- an exchange is the first thing that a helper does
      have hpast : th.past = [] := by
        obtain ⟨task, past, prog, dead⟩ := th
        cases task with
        | post timeout url body => cases hdoes <;> cases hev
        | helper ch url body =>
          cases hdoes with
          | exchange reply => rfl
          | _ => cases hev
        | pass d =>
          cases hdoes
          cases hev
      rw [hpast]
      exact List.countP_le_length
    · rw [List.countP_cons_of_neg hev]
      exact hc j th hj
  · exact hc j th hj

/-- **A call makes one exchange at most.**  Every exchange is made by the helper of a call, for its
URL and body; a call has one helper and a helper one call; and a helper makes one exchange. -/
theorem exchanges_once {now : ℕ} {c : Config system}
    (hrun : Run (fun _ _ _ => True) (initial now) c) :
    (∀ j url body reply, c.Has j (.did (.exchange url body) reply) →
      ∃ i timeout, c.Runs i (.post timeout url body) ∧ HelperOf c i j url body) ∧
    (∀ i i' j j' url body url' body', HelperOf c i j url body → HelperOf c i' j' url' body' →
      (i = i' ↔ j = j')) ∧
    ∀ (j : ℕ) (th : Thread signature), c.threads[j]? = some th →
      th.past.countP isExchange ≤ 1 := by
  obtain ⟨hk, ho, hd⟩ := kept_of_run hrun
  refine ⟨fun j url body reply hexchange => ?_, ?_, ?_⟩
  · obtain ⟨ch, hruns⟩ := ho.exchanges j url body reply hexchange
    obtain ⟨i, hfork⟩ := ho.parent j ch url body hruns
    obtain ⟨ch', timeout, url', body', ht, hpost, -⟩ := ho.forked i _ _ hfork
    cases ht
    exact ⟨i, timeout, hpost, ch, hfork, hruns⟩
  · rintro i i' j j' url body url' body' ⟨ch, hfork, hruns⟩ ⟨ch', hfork', hruns'⟩
    obtain ⟨_, _, _, _, ht, -, hchannel⟩ := ho.forked i _ _ hfork
    obtain ⟨_, _, _, _, ht', -, hchannel'⟩ := ho.forked i' _ _ hfork'
    cases ht
    cases ht'
    constructor
    · rintro rfl
      cases ho.one i ch ch' hchannel hchannel'
      exact ho.single j j' ch _ _ _ _ hruns hruns'
    · rintro rfl
      cases hruns.unique hruns'
      exact ho.own i i' ch hchannel hchannel'
  · have hboth : habits.Kept c ∧ ∀ (j : ℕ) (th : Thread signature), c.threads[j]? = some th →
        th.past.countP isExchange ≤ 1 := by
      refine hrun.preserves (I := fun c => habits.Kept c ∧ ∀ (j : ℕ) (th : Thread signature),
        c.threads[j]? = some th → th.past.countP isExchange ≤ 1) ?_
        ⟨Habits.Kept.init _ _, fun j th hj => by cases hj⟩
      rintro c l c' ⟨hk, hc⟩ hstep -
      exact ⟨hk.step habits_sound hstep, count_exchange_step hk hstep hc⟩
    exact hboth.2

def isExchangeOf (url : String) (body : Bytes) (reply : Reply) : Event signature → Bool
  | .did (.exchange url' body') reply' => decide (url' = url ∧ body' = body ∧ reply' = reply)
  | _ => false

/-- A call whose helper has sent the reply. -/
theorem exchanges_once_sample : ∃ (c : Config system) (th : Thread signature),
    c.threads[1]? = some th ∧ c.Has 1 (.did (.exchange "u" [1]) (.ok (200, .ok [3]))) ∧
      (∃ i timeout, c.Runs i (.post timeout "u" [1]) ∧ HelperOf c i 1 "u" [1]) ∧
      th.past.countP isExchange ≤ 1 := by
  have hplay : (play (fun _ _ _ => True) (initial 0)
      (.call (.post 5 "u" [1]) :: sampleMoves 2 0 (.error "") ++
        sampleMoves 2 1 (.ok (200, .ok [3])))).any
      (fun c => c.threads[1]?.any fun th =>
        th.past.any (isExchangeOf "u" [1] (.ok (200, .ok [3])))) = true := by decide +kernel
  obtain ⟨c, hc, hlast⟩ := (Option.any_eq_true _ _).1 hplay
  obtain ⟨th, hi, hany⟩ := (Option.any_eq_true _ _).1 hlast
  obtain ⟨ev, hmem, hev⟩ := List.any_eq_true.1 hany
  have hhas : c.Has 1 (.did (.exchange "u" [1]) (.ok (200, .ok [3]))) := by
    refine ⟨th, hi, ?_⟩
    cases ev with
    | did e r =>
      cases e with
      | exchange url body =>
        obtain ⟨rfl, rfl, rfl⟩ := of_decide_eq_true hev
        exact hmem
      | _ => cases hev
    | _ => cases hev
  have honce := exchanges_once (play_run hc)
  exact ⟨c, th, hi, hhas, honce.1 _ _ _ _ hhas, honce.2.2 1 th hi⟩

/-! ### Waiting -/

/-- What calls and helpers cost. -/
def bounds : Bounds system where
  cost
    | .post .. => 10
    | .helper .. => 5
    | .pass _ => 2
  unwind
    | .helper .. => 1
    | _ => 0
  body t := by
    cases t with
    | post timeout url bytes =>
      refine within_seq (m := 9) ?_ (fun _ => trivial) (by decide : 9 + 0 ≤ 10 - 0 - 1)
      unfold post
      refine within_seq (within_perform _) (fun ch => ?_) (by decide : 1 + 8 ≤ 9)
      refine within_seq (m := 6) (within_start (show 5 < 6 by decide)) (fun ok => ?_)
        (by decide : 6 + 2 ≤ 8)
      cases ok with
      | false => exact within_seq (within_perform _) (fun _ => trivial) (by decide : 1 + 0 ≤ 2)
      | true =>
        show Within _ _ (await timeout ch) _
        unfold await
        cases patience timeout with
        | none => trivial
        | some wait =>
          refine within_seq (within_perform _) (fun t => ?_) (by decide : 1 + 1 ≤ 2)
          exact within_seq (within_perform _) (fun _ => trivial) (by decide : 1 + 0 ≤ 1)
    | helper ch url bytes =>
      refine within_seq (m := 3) ?_ (fun _ => trivial) (by decide : 3 + 0 ≤ 5 - 1 - 1)
      refine within_seq (within_perform _) (fun reply => ?_) (by decide : 1 + 2 ≤ 3)
      refine within_seq (within_perform _) (fun _ => ?_) (by decide : 1 + 1 ≤ 2)
      exact within_seq (within_perform _) (fun _ => trivial) (by decide : 1 + 0 ≤ 1)
    | pass d =>
      exact within_seq (within_perform _) (fun _ => trivial) (by decide : 1 + 0 ≤ 2 - 0 - 1)
  handler t := by
    cases t with
    | helper ch url bytes =>
      exact within_seq (within_perform _) (fun _ => trivial) (by decide : 1 + 0 ≤ 1)
    | _ => trivial
  lt t := by cases t <;> simp

theorem owed_step {c c' : Config system} {l : Label signature}
    (hc : ∃ n, Owed bounds c.threads n) (hstep : Step c l c') :
    ∃ n, Owed bounds c'.threads n := by
  obtain ⟨n, howed⟩ := hc
  have inside : Inside c l c' → ∃ n, Owed bounds c'.threads n := fun hl => by
    obtain ⟨n', -, howed'⟩ := howed.step hstep hl
    exact ⟨n', howed'⟩
  cases l with
  | call t =>
    cases hstep with
    | call ht => exact ⟨_, howed.append (owes_fresh t)⟩
  | op i ev => exact inside (by simp [Inside, Label.thread])
  | panic i => exact inside (by simp [Inside, Label.thread])

/-- A thread that has panicked does not panic again. -/
theorem ne_abort_of_dead {now : ℕ} {c : Config system}
    (hrun : Run (fun _ _ _ => True) (initial now) c) {i : ℕ} {th : Thread signature}
    (hi : c.threads[i]? = some th) (hdead : th.dead = true) : th.prog ≠ .abort := by
  obtain ⟨n, howed⟩ := hrun.preserves (I := fun c => ∃ n, Owed bounds c.threads n)
    (fun _ _ _ hc hstep _ => owed_step hc hstep) ⟨0, trivial⟩
  exact howed.ne_abort hi hdead

/-- **A call waits for nothing but its own helper, and not past its deadline.**  Until it has
returned it can go on now, or it is waiting for a helper of its own that still runs, and its
timeout and a second have not passed since it began to wait (a wait too long for the clock has no
end). -/
theorem post_goes_on {now : ℕ} {c : Config system}
    (hrun : Run (fun _ _ _ => True) (initial now) c) {i : ℕ} {timeout : Duration} {url : String}
    {body : Bytes} (hpost : c.Runs i (.post timeout url body)) (hleft : c.returned i = none) :
    (∃ l c', Step c l c' ∧ l.thread = some i) ∨
      ∃ j t, HelperOf c i j url body ∧ c.returned j = none ∧ c.Has i (.did .instant t) ∧
        (t + timeout + abandonAfter < 2 ^ 63 * 10 ^ 9 → c.world < t + timeout + abandonAfter) := by
  obtain ⟨hk, ho, hd⟩ := kept_of_run hrun
  obtain ⟨th, hi, htask⟩ := hpost
  have hrunning : th.prog.result? = none := by
    unfold Config.returned at hleft
    rw [hi] at hleft
    exact hleft
  have htraced := hk i th hi
  unfold Habits.Holds at htraced
  have hhas : ∀ ev, c.Has i ev ↔ ev ∈ th.past := fun ev => Config.has_iff hi
  rw [htask] at htraced
  cases hp : th.prog with
  | ret a =>
    rw [hp] at hrunning
    cases hrunning
  | act e next =>
    cases e with
    | recv ch dl =>
      rw [hp] at htraced
      have hdoes := (htraced .timeout).1
      generalize hpast : th.past = past at hdoes hhas
      cases hdoes with
      | recv ch t wait hwait =>
        have hfork : c.Has i (.forked (.helper ch url body) true) := (hhas _).2 (by simp [started])
        have hchannel : c.Has i (.did .channel ch) := (hhas _).2 (by simp [started, opened])
        obtain ⟨⟨queue, connected⟩, hchan⟩ : ∃ chan, c.shared[ch]? = some chan :=
          ⟨_, List.getElem?_eq_getElem (ho.opened i ch hchannel)⟩
        -- an answer is there, or the helper still runs
        by_cases hlate : ∃ d, deadline t wait = some d ∧ d ≤ c.world
        · have hadmits : system.admits (.recv ch (deadline t wait)) c.shared c.world .timeout :=
            hlate
          exact Or.inl ⟨_, _, .act hi hp hadmits, rfl⟩
        · cases queue with
          | cons reply rest =>
            have hadmits : system.admits (.recv ch (deadline t wait)) c.shared c.world
                (.reply reply) := ⟨rest, connected, hchan⟩
            exact Or.inl ⟨_, _, .act hi hp hadmits, rfl⟩
          | nil =>
            cases connected with
            | false =>
              have hadmits : system.admits (.recv ch (deadline t wait)) c.shared c.world
                  .disconnected := hchan
              exact Or.inl ⟨_, _, .act hi hp hadmits, rfl⟩
            | true =>
              obtain ⟨j, hruns⟩ := ho.spawned i _ hfork
              refine Or.inr ⟨j, t, ⟨ch, hfork, hruns⟩, ?_, (hhas _).2 (by simp), ?_⟩
              · -- a helper that has returned has dropped its sender
                obtain ⟨thj, hj, htaskj⟩ := hruns
                unfold Config.returned
                rw [hj]
                show thj.prog.result? = none
                cases hret : thj.prog.result? with
                | none => rfl
                | some out =>
                  have hdrop := hk.returns hj hret
                  rw [htaskj] at hdrop
                  have hclosed := (hd.closed ch _ hchan).2 ⟨j, thj, hj, hdrop⟩
                  cases hclosed
              · intro hlt
                refine Nat.lt_of_not_le fun hle => hlate ⟨_, ?_, hle⟩
                rw [Nat.add_assoc, ← patience_eq hwait] at hlt ⊢
                exact if_pos hlt
    | channel =>
      have hadmits : system.admits .channel c.shared c.world c.shared.length := rfl
      exact Or.inl ⟨_, _, .act hi hp hadmits, rfl⟩
    | spawnError => exact Or.inl ⟨_, _, .act (r := "") hi hp trivial, rfl⟩
    | instant =>
      have hadmits : system.admits .instant c.shared c.world c.world := rfl
      exact Or.inl ⟨_, _, .act hi hp hadmits, rfl⟩
    | exchange url body =>
      exact Or.inl ⟨_, _, .act (r := (.error "" : Reply)) hi hp trivial, rfl⟩
    | send ch reply => exact Or.inl ⟨_, _, .act (r := ()) hi hp trivial, rfl⟩
    | dropSender ch => exact Or.inl ⟨_, _, .act (r := ()) hi hp trivial, rfl⟩
    | pass d => exact Or.inl ⟨_, _, .act (r := ()) hi hp trivial, rfl⟩
  | lock next =>
    rw [hp] at htraced
    generalize th.past = past at htraced
    cases htraced.1
  | tryLock next =>
    rw [hp] at htraced
    generalize th.past = past at htraced
    cases (htraced true).1
  | unlock next =>
    rw [hp] at htraced
    generalize th.past = past at htraced
    cases htraced.1
  | fork t next => exact Or.inl ⟨_, _, .fork hi hp, rfl⟩
  | abort =>
    cases hdead : th.dead with
    | false => exact Or.inl ⟨_, _, .panic hi hdead hrunning (Or.inl hp), rfl⟩
    | true => exact absurd hp (ne_abort_of_dead hrun hi hdead)

/-- A call that waits for a helper which has not begun. -/
theorem post_goes_on_sample : ∃ c : Config system,
    c.Runs 0 (.post 5 "u" [1]) ∧ c.returned 0 = none ∧
      ((∃ l c', Step c l c' ∧ l.thread = some 0) ∨
        ∃ j t, HelperOf c 0 j "u" [1] ∧ c.returned j = none ∧ c.Has 0 (.did .instant t) ∧
          (t + 5 + abandonAfter < 2 ^ 63 * 10 ^ 9 → c.world < t + 5 + abandonAfter)) := by
  have hplay : (play (fun _ _ _ => True) (initial 0)
      (.call (.post 5 "u" [1]) :: sampleMoves 3 0 (.error ""))).any
      (fun c => decide (c.threads[0]?.map Thread.task = some (Task.post 5 "u" [1]) ∧
        c.returned 0 = none)) = true := by decide +kernel
  obtain ⟨c, hc, hlast⟩ := (Option.any_eq_true _ _).1 hplay
  obtain ⟨htask, hleft⟩ := of_decide_eq_true hlast
  obtain ⟨th, hi, hpost⟩ := Option.map_eq_some_iff.1 htask
  exact ⟨c, ⟨th, hi, hpost⟩, hleft, post_goes_on (play_run hc) ⟨th, hi, hpost⟩ hleft⟩

end LatteRs.HttpPost
