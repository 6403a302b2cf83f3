import LatteRs.Concurrent.Schedule
import LatteRs.Concurrent.Traces
import LatteRs.Http
import LatteRs.Time

/-!
# The helper thread of a request

`Http::post` of `http.rs`: a caller opens a channel, starts a helper thread that
exchanges the request for a response and sends it, and waits for it until a
deadline.  Any number of calls run at once; a helper may be slow, may panic, and
goes on when its caller has given up.

* `post`, `helper`, `system`: the programs, the channels and the clock;
* `sampleAnswers`: a server with one answer;
* `habits`, `habits_sound`: what a caller and its helper have done at each point.
-/

namespace LatteRs.HttpPost

open Concurrent Program

/-! ### Programs -/

/-- What `recv_timeout` returns. -/
inductive Received
  | reply (reply : Reply)
  | timeout
  | disconnected
  deriving DecidableEq

inductive Effect
  /-- `mpsc::channel`. -/
  | channel
  /-- The text of the error with which a thread could not be started. -/
  | spawnError
  /-- `Instant::now`, in nanoseconds. -/
  | instant
  /-- Wait for a message until `deadline`, without a limit if there is none. -/
  | recv (ch : ℕ) (deadline : Option ℕ)
  /-- `agent.post(&url)...send(&body[..])`, and reading the response. -/
  | exchange (url : String) (body : Bytes)
  | send (ch : ℕ) (reply : Reply)
  /-- The sender of the channel goes out of scope. -/
  | dropSender (ch : ℕ)
  /-- Time goes by. -/
  | pass (d : Duration)
  deriving DecidableEq

@[reducible] def Answer : Effect → Type
  | .channel => ℕ
  | .spawnError => String
  | .instant => ℕ
  | .recv .. => Received
  | .exchange .. => Reply
  | .send .. => Unit
  | .dropSender _ => Unit
  | .pass _ => Unit

inductive Task
  | post (timeout : Duration) (url : String) (body : Bytes)
  | helper (ch : ℕ) (url : String) (body : Bytes)
  | pass (d : Duration)
  deriving DecidableEq

inductive Outcome
  | posted (result : Except LatteError (ℕ × Except String Bytes))
  | ended
  | panicked
  deriving DecidableEq

@[reducible] def signature : Signature := ⟨Effect, Answer, Task, Outcome⟩

abbrev Act (α : Type) := Program signature α

def perform (e : Effect) : Act (Answer e) := Program.perform (S := signature) e

/-- `ABANDON_AFTER`. -/
def abandonAfter : Duration := Duration.fromSecs 1

/-- The decimals of `n` of `10 ^ width`, with the dot before them; nothing for 0. -/
def decimals (n width : ℕ) : String :=
  let digits := Nat.toDigits 10 n
  match ((List.replicate (width - digits.length) '0' ++ digits).reverse.dropWhile
    (· = '0')).reverse with
  | [] => ""
  | ds => String.ofList ('.' :: ds)

/-- A duration as `{:?}` prints it. -/
def debugDuration (d : Duration) : String :=
  let secs := d / 10 ^ 9
  let nanos := d % 10 ^ 9
  if 0 < secs then toString secs ++ decimals nanos 9 ++ "s"
  else if 10 ^ 6 ≤ nanos then toString (nanos / 10 ^ 6) ++ decimals (nanos % 10 ^ 6) 6 ++ "ms"
  else if 10 ^ 3 ≤ nanos then toString (nanos / 10 ^ 3) ++ decimals (nanos % 10 ^ 3) 3 ++ "µs"
  else toString nanos ++ "ns"

/-- What `post` makes of what it received. -/
def outcome (timeout : Duration) : Received → Except LatteError (ℕ × Except String Bytes)
  | .reply (.ok response) => .ok response
  | .reply (.error text) => .error (.network text)
  | .timeout => .error (.network s!"no response within {debugDuration timeout}")
  | .disconnected => .error (.network "request thread failed")

/-- The deadline of `recv_timeout`; none when an `Instant` does not reach that far. -/
def deadline (now : ℕ) (wait : Duration) : Option ℕ :=
  if now + wait < 2 ^ 63 * 10 ^ 9 then some (now + wait) else none

/-- `self.timeout + ABANDON_AFTER`, none when it overflows. -/
def patience (timeout : Duration) : Option Duration :=
  if abandonAfter + timeout < 2 ^ 64 * 10 ^ 9 then some (abandonAfter + timeout) else none

/-- `rx.recv_timeout(self.timeout + ABANDON_AFTER)` and what follows it.  The sum panics when it
overflows. -/
def await (timeout : Duration) (ch : ℕ) : Act (Except LatteError (ℕ × Except String Bytes)) :=
  match patience timeout with
  | none => .abort
  | some wait => do
    let now ← perform .instant
    let received ← perform (.recv ch (deadline now wait))
    .ret (outcome timeout received)

def post (timeout : Duration) (url : String) (body : Bytes) :
    Act (Except LatteError (ℕ × Except String Bytes)) := do
  let ch ← perform .channel
  match ← start (S := signature) (.helper ch url body) with
  | false => do
    let text ← perform .spawnError
    .ret (.error (.network text))
  | true => await timeout ch

/-- The closure that the helper thread runs.  Whether the caller still listens is not looked
at. -/
def helper (ch : ℕ) (url : String) (body : Bytes) : Act Unit := do
  let reply ← perform (.exchange url body)
  let _ ← perform (.send ch reply)
  let _ ← perform (.dropSender ch)
  .ret ()

def body : Task → Act Outcome
  | .post timeout url body => do .ret (.posted (← post timeout url body))
  | .helper ch url body => do
    helper ch url body
    .ret .ended
  | .pass d => do
    let _ ← perform (.pass d)
    .ret .ended

/-- What unwinding does: a helper drops its sender. -/
def handler : Task → Act Outcome
  | .helper ch _ _ => do
    let _ ← perform (.dropSender ch)
    .ret .panicked
  | _ => .ret .panicked

/-! ### Channels -/

/-- A channel: the messages that nobody has received yet, and whether it has a sender. -/
structure Channel where
  queue : List Reply
  connected : Bool
  deriving DecidableEq

/-- The channel `ch` changed by `f`. -/
def update (s : List Channel) (ch : ℕ) (f : Channel → Channel) : List Channel := s.modify ch f

/-- The answers an operation may get.  A wait may end at its deadline even when a message has just
come. -/
def Admits : (e : Effect) → List Channel → ℕ → Answer e → Prop
  | .channel, s, _, ch => ch = s.length
  | .instant, _, now, t => t = now
  | .recv ch _, s, _, .reply reply => ∃ rest connected, s[ch]? = some ⟨reply :: rest, connected⟩
  | .recv _ dl, _, now, .timeout => ∃ d, dl = some d ∧ d ≤ now
  | .recv ch _, s, _, .disconnected => s[ch]? = some ⟨[], false⟩
  | _, _, _, _ => True

def write : (e : Effect) → Answer e → List Channel → List Channel
  | .channel, _, s => s ++ [⟨[], true⟩]
  | .recv ch _, .reply _, s => update s ch fun chan => { chan with queue := chan.queue.tail }
  | .send ch reply, _, s => update s ch fun chan => { chan with queue := chan.queue ++ [reply] }
  | .dropSender ch, _, s => update s ch fun chan => { chan with connected := false }
  | _, _, s => s

def advance : (e : Effect) → Answer e → ℕ → ℕ
  | .pass d, _, now => now + d
  | _, _, now => now

def Task.isHelper : Task → Bool
  | .helper .. => true
  | _ => false

/-- Calls and their helpers over the channels between them. -/
@[reducible] def system : System signature where
  Shared := List Channel
  World := ℕ
  admits := Admits
  write := write
  advance := advance
  forked _ s := s
  body := body
  handler := handler
  callable t := t.isHelper = false
  -- anything may happen in the client library
  mayPanic t := t.isHelper = true

/-- No call has been made, at the time `now`. -/
def initial (now : ℕ) : Config system := Config.init [] now

/-- What a wait gets from a channel, when it does not wait long. -/
def received (chan : Option Channel) : Received :=
  match chan with
  | some ⟨reply :: _, _⟩ => .reply reply
  | some ⟨[], false⟩ => .disconnected
  | _ => .timeout

instance (e : Effect) (s : List Channel) (now : ℕ) (r : Answer e) :
    Decidable (Admits e s now r) :=
  match e, r with
  | .channel, ch => inferInstanceAs (Decidable (ch = s.length))
  | .spawnError, _ => isTrue trivial
  | .instant, t => inferInstanceAs (Decidable (t = now))
  | .recv ch _, .reply reply =>
    decidable_of_iff ((s[ch]?.bind fun chan => chan.queue.head?) = some reply) (by
      constructor
      · intro h
        obtain ⟨⟨queue, connected⟩, hchan, hhead⟩ := Option.bind_eq_some_iff.1 h
        obtain ⟨rest, rfl⟩ := List.head?_eq_some_iff.1 hhead
        exact ⟨rest, connected, hchan⟩
      · rintro ⟨rest, connected, hchan⟩
        rw [hchan]
        rfl)
  | .recv _ dl, .timeout => decidable_of_iff (dl.any (fun d => d ≤ now) = true) (by
      simp [Admits, Option.any_eq_true])
  | .recv ch _, .disconnected => inferInstanceAs (Decidable (s[ch]? = some ⟨[], false⟩))
  | .exchange .., _ => isTrue trivial
  | .send .., _ => isTrue trivial
  | .dropSender _, _ => isTrue trivial
  | .pass _, _ => isTrue trivial

/-- A server that answers every exchange with `reply`. -/
def sampleAnswers (reply : Reply) : Oracle system
  | .channel, s, _ => s.length
  | .spawnError, _, _ => ""
  | .instant, _, now => now
  | .recv ch _, s, _ => received s[ch]?
  | .exchange .., _, _ => reply
  | .send .., _, _ => ()
  | .dropSender _, _, _ => ()
  | .pass _, _, _ => ()

/-- `n` moves of thread `i`. -/
def sampleMoves (n i : ℕ) (reply : Reply) : List (Move system) :=
  List.replicate n (.go i (sampleAnswers reply))

/-! ### What callers and helpers have done -/

/-- The events of a call up to the start of its helper, and after it. -/
def opened (ch : ℕ) : Past signature := [.did .channel ch]

def started (ch : ℕ) (url : String) (body : Bytes) (ok : Bool) : Past signature :=
  .forked (.helper ch url body) ok :: opened ch

/-- The next event of a call with the given past. -/
inductive PostDoes (timeout : Duration) (url : String) (body : Bytes) :
    Past signature → Event signature → Prop
  | channel (ch : ℕ) : PostDoes timeout url body [] (.did .channel ch)
  | start (ch : ℕ) (ok : Bool) :
    PostDoes timeout url body (opened ch) (.forked (.helper ch url body) ok)
  | failed (ch : ℕ) (text : String) :
    PostDoes timeout url body (started ch url body false) (.did .spawnError text)
  | instant (ch t : ℕ) :
    PostDoes timeout url body (started ch url body true) (.did .instant t)
  | recv (ch t : ℕ) (wait : Duration) (hwait : patience timeout = some wait)
    (received : Received) :
    PostDoes timeout url body (.did .instant t :: started ch url body true)
      (.did (.recv ch (deadline t wait)) received)

/-- The next event of a helper with the given past; it drops its sender when it panics. -/
inductive HelperDoes (ch : ℕ) (url : String) (body : Bytes) :
    Past signature → Event signature → Prop
  | exchange (reply : Reply) : HelperDoes ch url body [] (.did (.exchange url body) reply)
  | send (reply : Reply) : HelperDoes ch url body [.did (.exchange url body) reply]
    (.did (.send ch reply) ())
  | drop (h : Past signature) : HelperDoes ch url body h (.did (.dropSender ch) ())

/-- The past of a call that has returned. -/
inductive PostReturns (timeout : Duration) (url : String) (body : Bytes) :
    Past signature → Outcome → Prop
  | failed (ch : ℕ) (text : String) : PostReturns timeout url body
    (.did .spawnError text :: started ch url body false) (.posted (.error (.network text)))
  | received (ch t : ℕ) (wait : Duration) (hwait : patience timeout = some wait)
    (received : Received) : PostReturns timeout url body
    (.did (.recv ch (deadline t wait)) received ::
      .did .instant t :: started ch url body true) (.posted (outcome timeout received))
  | panicked (h : Past signature) : PostReturns timeout url body h .panicked

@[reducible] def habits : Habits signature where
  Does
    | .post timeout url body => PostDoes timeout url body
    | .helper ch url body => HelperDoes ch url body
    | .pass d => fun _ ev => ev = .did (.pass d) ()
  Aborts
    | .post .. => fun _ => True
    | _ => fun _ => False
  Returns
    | .post timeout url body => PostReturns timeout url body
    | .helper ch _ _ => fun h _ => Event.did (Effect.dropSender ch) () ∈ h
    | .pass _ => fun _ _ => True

theorem traced_await (timeout : Duration) (ch : ℕ) (url : String) (bytes : Bytes) :
    traced habits (.post timeout url bytes) (await timeout ch)
      (fun h result => PostReturns timeout url bytes h (.posted result))
      (started ch url bytes true) := by
  unfold await
  cases hwait : patience timeout with
  | none => trivial
  | some wait =>
    exact fun t => ⟨.instant ch t, fun received =>
      ⟨.recv ch t wait hwait received, .received ch t wait hwait received⟩⟩

theorem traced_post (timeout : Duration) (url : String) (bytes : Bytes) :
    traced habits (.post timeout url bytes) (body (.post timeout url bytes))
      (PostReturns timeout url bytes) [] := by
  refine traced_bind.2 (traced_bind.2 fun ch => ⟨.channel ch, ?_⟩)
  refine traced_bind.2 fun ok => ⟨.start ch ok, ?_⟩
  cases ok with
  | false => exact traced_bind.2 fun text => ⟨.failed ch text, .failed ch text⟩
  | true => exact traced_await timeout ch url bytes

theorem traced_helper (ch : ℕ) (url : String) (bytes : Bytes) :
    traced habits (.helper ch url bytes) (body (.helper ch url bytes))
      (fun h _ => Event.did (Effect.dropSender ch) () ∈ h) [] := by
  show traced habits _ (helper ch url bytes >>= _) _ []
  refine traced_bind.2 fun reply =>
    ⟨.exchange reply, fun _ => ⟨.send reply, fun _ => ⟨.drop _, ?_⟩⟩⟩
  exact List.mem_cons_self

/-- Every thread has the habits. -/
theorem habits_sound : habits.Sound system where
  body t := by
    cases t with
    | post timeout url bytes => exact traced_post timeout url bytes
    | helper ch url bytes => exact traced_helper ch url bytes
    | pass d => exact fun _ => ⟨rfl, trivial⟩
  handler t h habort := by
    cases t with
    | post timeout url bytes => exact .panicked h
    | helper ch url bytes => exact fun _ => ⟨.drop h, List.mem_cons_self⟩
    | pass d => trivial

end LatteRs.HttpPost
