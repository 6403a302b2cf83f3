import LatteRs.Records
import LatteRs.Rfc3339
import LatteRs.Runtime

/-!
# The body of an error reply

What `serde` makes of the JSON of an error reply, and what becomes of the
server's message.  The record is decoded as a whole: one member that cannot be
decoded costs all of it, and the caller goes on with the defaults.

* `Json`, `deserializeStruct`, `ErrorResponse.deserialize`: a document, and the
  derived decoder;
* `Decodes`, `deserialize_object`: when the members of an object can be decoded;
* `Exchange`: what becomes of a response on its way to `Sdk::call`;
* `message_survives_iff`: when the error of `Sdk::call` carries the message, and
  `null_reason_loses_message`, where it does not.
-/

namespace LatteRs

open Records

/-! ### Documents -/

/-- A JSON string: its text, or the bytes between its quotes where these stand for no text, as an
unpaired surrogate does. -/
inductive JsonString
  | text (s : String)
  | broken (raw : Bytes)
  deriving DecidableEq

def JsonString.isText : JsonString → Bool
  | text _ => true
  | broken _ => false

/-- A JSON document as `serde_json` reads it from a slice.  Numbers are numerals here: the decoder
skips what it does not ask for without looking at its value. -/
inductive Json
  | null
  | bool (b : Bool)
  | number (numeral : Bytes)
  | string (s : JsonString)
  | array (xs : List Json)
  | object (members : List (JsonString × Json))

/-- `String::deserialize`. -/
def deString : Json → Option String
  | .string (.text s) => some s
  | _ => none

/-- `de_opt_time`; that `parse_rfc3339` does not panic is `parseRfc3339_ne_panic`. -/
def deOptTime : Json → Option (Option SystemTime)
  | .null => some none
  | .string (.text s) =>
    match parseRfc3339 s with
    | .error _ => none
    | .ok t => some (some t)
  | _ => none

/-- The decoder that is derived for a struct.  An object may have other members, but no name that
is no text and no field twice; an array gives the fields in their order. -/
def deserializeStruct {α : Type} (r : Record JsonString Json α) : Json → Option α
  | .object members => r.ofMembers JsonString.isText members
  | .array xs => r.ofElements xs
  | _ => none

/-- A field that must be there. -/
def required {α : Type} (name : String) (de : Json → Option α) : Record JsonString Json α :=
  .field (.text name) none de

/-- A field with `#[serde(default)]`. -/
def optional {α : Type} (name : String) (default : α) (de : Json → Option α) :
    Record JsonString Json α :=
  .field (.text name) (some default) de

def errorResponse : Record JsonString Json ErrorResponse :=
  ((optional "error" "" deString).and
    ((optional "reason" "" deString).and (optional "available_at" none deOptTime))).map
      fun (error, reason, availableAt) => ⟨error, reason, availableAt⟩

def ErrorResponse.deserialize : Json → Option ErrorResponse := deserializeStruct errorResponse

/-- `serde_json::from_slice`, where `parse` reads the document; nobody looks at the error. -/
def ErrorResponse.fromSlice (parse : Bytes → Option Json) (bytes : Bytes) :
    Except String ErrorResponse :=
  match (parse bytes).bind deserialize with
  | none => .error ""
  | some err => .ok err

/-- The platform with this decoder of error replies. -/
def Platform.readingErrors (P : Platform) (parse : Bytes → Option Json) : Platform :=
  { P with errorResponse := ErrorResponse.fromSlice parse }

/-! ### What can be decoded -/

/-- The members of an object but `error` can be decoded: their names are texts, `reason` is a text
if it is there, and `available_at` is null or a time stamp if it is. -/
structure Decodes (members : List (JsonString × Json)) : Prop where
  names : ∀ m ∈ members, m.1.isText = true
  reason : ∀ v ∈ members.lookup (.text "reason"), ∃ s, v = .string (.text s)
  availableAt : ∀ v ∈ members.lookup (.text "available_at"),
    v = .null ∨ ∃ st : Stamp, v = .string (.text st.text)

theorem deString_eq_some {v : Json} {s : String} :
    deString v = some s ↔ v = .string (.text s) := by
  unfold deString
  split <;> simp_all

theorem exists_deOptTime {v : Json} :
    (∃ t, deOptTime v = some t) ↔ v = .null ∨ ∃ st : Stamp, v = .string (.text st.text) := by
  constructor
  · rintro ⟨t, ht⟩
    unfold deOptTime at ht
    split at ht
    · exact Or.inl rfl
    · rename_i s
      cases hs : parseRfc3339 s with
      | error e =>
        rw [hs] at ht
        cases ht
      | ok time =>
        obtain ⟨st, rfl, -⟩ := parseRfc3339_eq_ok.1 hs
        exact Or.inr ⟨st, rfl⟩
    · cases ht
  · rintro (rfl | ⟨st, rfl⟩)
    · exact ⟨none, rfl⟩
    · exact ⟨some st.time, by simp only [deOptTime, parseRfc3339_eq_ok.2 ⟨st, rfl, rfl⟩]⟩

/-- A field that may be absent has a value exactly if its member, if there is one, has. -/
theorem exists_elim {α : Type} (absent : α) {field : Option Json} {de : Json → Option α} :
    (∃ a, field.elim (some absent) de = some a) ↔ ∀ v ∈ field, ∃ a, de v = some a := by
  cases field with
  | none => simp
  | some v => simp

theorem build_errorResponse {look : JsonString → Option Json} {err : ErrorResponse} :
    errorResponse.build look = some err ↔
      (look (.text "error")).elim (some "") deString = some err.error ∧
      (look (.text "reason")).elim (some "") deString = some err.reason ∧
      (look (.text "available_at")).elim (some none) deOptTime = some err.availableAt := by
  unfold errorResponse
  rw [Record.build_map_eq_some]
  constructor
  · rintro ⟨fields, hfields, rfl⟩
    rw [Record.build_and_eq_some, Record.build_and_eq_some] at hfields
    exact hfields
  · intro hfields
    refine ⟨(err.error, err.reason, err.availableAt), ?_, rfl⟩
    rw [Record.build_and_eq_some, Record.build_and_eq_some]
    exact hfields

section
variable {members : List (JsonString × Json)} {e : String}

theorem deserialize_object (hnames : (members.map Prod.fst).Nodup) :
    ErrorResponse.deserialize (.object members) =
      if members.all (fun m => m.1.isText) then
        errorResponse.build fun name => members.lookup name
      else none := by
  have hcount : ∀ name ∈ errorResponse.names, (members.map Prod.fst).count name ≤ 1 :=
    fun name _ => List.nodup_iff_count_le_one.1 hnames name
  exact if_congr (and_iff_left hcount) rfl rfl

/-- Whatever can be decoded of an object has its message. -/
theorem error_of_deserialize (hnames : (members.map Prod.fst).Nodup)
    (herror : members.lookup (.text "error") = some (.string (.text e))) {err : ErrorResponse}
    (herr : ErrorResponse.deserialize (.object members) = some err) : err.error = e := by
  rw [deserialize_object hnames] at herr
  split_ifs at herr
  obtain ⟨hmessage, -, -⟩ := build_errorResponse.1 herr
  rw [herror] at hmessage
  exact (Option.some.inj hmessage).symm

/-- An object that has a message can be decoded exactly if its other members can. -/
theorem exists_deserialize (hnames : (members.map Prod.fst).Nodup)
    (herror : members.lookup (.text "error") = some (.string (.text e))) :
    (∃ err, ErrorResponse.deserialize (.object members) = some err) ↔ Decodes members := by
  rw [deserialize_object hnames]
  constructor
  · rintro ⟨err, herr⟩
    split_ifs at herr with htext
    obtain ⟨-, hreason, htime⟩ := build_errorResponse.1 herr
    refine ⟨List.all_eq_true.1 htext, fun v hv => ?_, fun v hv => ?_⟩
    · obtain ⟨s, hs⟩ := (exists_elim "").1 ⟨_, hreason⟩ v hv
      exact ⟨s, deString_eq_some.1 hs⟩
    · exact exists_deOptTime.1 ((exists_elim none).1 ⟨_, htime⟩ v hv)
  · rintro ⟨htext, hreason, htime⟩
    obtain ⟨r, hr⟩ := (exists_elim "").2 fun v hv =>
      (hreason v hv).imp fun s hs => deString_eq_some.2 hs
    obtain ⟨t, ht⟩ := (exists_elim none).2 fun v hv =>
      exists_deOptTime.2 (htime v hv)
    refine ⟨⟨e, r, t⟩, ?_⟩
    rw [if_pos (List.all_eq_true.2 htext), build_errorResponse, herror]
    exact ⟨rfl, hr, ht⟩

end

/-! ### Responses -/

/-- The response of the server to a request, or to the last of the redirects that the agent
follows. -/
structure Response where
  status : ℕ
  headers : List (String × String)
  body : Bytes

/-- What the exchange of `Http::post` makes of a response, which is up to the agent of `ureq`. -/
structure Exchange where
  /-- The text of the error with which it ends when it does not hand the response over, as for a
  redirect that names no location. -/
  refuses : Response → Option String
  /-- The text of the error that cuts reading the body short. -/
  cuts : Response → Option String

namespace Exchange

def reply (exchange : Exchange) (response : Response) : Reply :=
  match exchange.refuses response with
  | some text => .error text
  | none =>
    match exchange.cuts response with
    | some text => .ok (response.status, .error text)
    | none => .ok (response.status, .ok response.body)

/-- The response is handed over with its whole body. -/
def Delivers (exchange : Exchange) (response : Response) : Prop :=
  exchange.refuses response = none ∧ exchange.cuts response = none

end Exchange

/-! ### The message -/

/-- The answer of a call carries the message `e`, if the error for this status has room for one. -/
def Survives {T : Type} (e path : String) (status : ℕ) (answer : Except LatteError T) : Prop :=
  (status = 409 ∧ path = "/v1/deactivate" → ∃ reason availableAt,
    answer = .error (.deactivationBlocked e reason availableAt)) ∧
  (status ≠ 401 ∧ status ≠ 403 ∧ status ≠ 404 ∧ status ≠ 409 → answer = .error (.server e))

section
variable {P : Platform} {T : Type} {parse : Bytes → Option Json} {path : String} {status : ℕ}
  {bytes : Bytes} {members : List (JsonString × Json)} {e : String}

theorem statusError_server (h : status ≠ 401 ∧ status ≠ 403 ∧ status ≠ 404 ∧ status ≠ 409)
    (err : ErrorResponse) : statusError P path status err =
      .server (if err.error = "" then "HTTP " ++ P.displayStatus status else err.error) := by
  obtain ⟨h401, h403, h404, h409⟩ := h
  unfold statusError
  rw [if_neg h404, if_neg h403, if_neg (fun h => h409 h.1), if_neg h409, if_neg h401]

/-- What the caller gets of an object with a message: the message, or the default for it. -/
theorem errorBody_error (hparse : parse bytes = some (.object members))
    (hnames : (members.map Prod.fst).Nodup)
    (herror : members.lookup (.text "error") = some (.string (.text e))) :
    Decodes members ∧ (errorBody (P.readingErrors parse) (.ok bytes)).error = e ∨
      ¬ Decodes members ∧ (errorBody (P.readingErrors parse) (.ok bytes)).error = "" := by
  have hread : (P.readingErrors parse).errorResponse bytes =
      ErrorResponse.fromSlice parse bytes := rfl
  have hexists := exists_deserialize hnames herror
  unfold errorBody
  simp only [hread, ErrorResponse.fromSlice, hparse, Option.bind_some]
  cases hdes : ErrorResponse.deserialize (.object members) with
  | none =>
    refine Or.inr ⟨fun hdecodes => ?_, rfl⟩
    obtain ⟨err, herr⟩ := hexists.2 hdecodes
    rw [hdes] at herr
    cases herr
  | some err => exact Or.inl ⟨hexists.1 ⟨err, hdes⟩, error_of_deserialize hnames herror hdes⟩

/-- The error for a status, when the record that it is made of has the message exactly if `A`. -/
theorem survives_statusError {A : Prop} {err : ErrorResponse} (he : e ≠ "")
    (herr : A ∧ err.error = e ∨ ¬ A ∧ err.error = "") :
    Survives e path status (.error (statusError P path status err) : Except LatteError T) ↔
      (status = 409 ∧ path = "/v1/deactivate" → A) ∧
      (status ≠ 401 ∧ status ≠ 403 ∧ status ≠ 404 ∧ status ≠ 409 →
        A ∨ e = "HTTP " ++ P.displayStatus status) := by
  refine and_congr (imp_congr_right ?_) (imp_congr_right fun hroom => ?_)
  · rintro ⟨rfl, rfl⟩
    constructor
    · rintro ⟨reason, availableAt, heq⟩
      have hmessage : err.error = e := by
        cases heq
        rfl
      rcases herr with ⟨hA, -⟩ | ⟨-, hempty⟩
      · exact hA
      · exact absurd (hmessage.symm.trans hempty) he
    · intro hA
      rcases herr with ⟨-, hmessage⟩ | ⟨hnot, -⟩
      · rw [← hmessage]
        exact ⟨_, _, rfl⟩
      · exact absurd hA hnot
  · rw [statusError_server hroom, Except.error.injEq, LatteError.server.injEq]
    rcases herr with ⟨hA, hmessage⟩ | ⟨hnot, hempty⟩
    · rw [hmessage, if_neg he]
      exact iff_of_true rfl (Or.inl hA)
    · rw [if_pos hempty, or_iff_right hnot, eq_comm]

/-- A failure to get a response has no room for a message. -/
theorem survives_network {text : String} :
    Survives e path status (.error (.network text) : Except LatteError T) ↔
      ¬ (status = 409 ∧ path = "/v1/deactivate") ∧
        ¬ (status ≠ 401 ∧ status ≠ 403 ∧ status ≠ 404 ∧ status ≠ 409) := by
  unfold Survives
  simp only [Except.error.injEq, reduceCtorEq, exists_false, imp_false]

/-- **When the server's message survives.**  An error response whose body is an object with a
message keeps it exactly if it is handed over with its whole body and the other members can be
decoded, where the error has room for it; without the record a message may only happen to be the
text that names the status. -/
theorem message_survives_iff (P : Platform) (decode : Bytes → Except String T) (path : String)
    (exchange : Exchange) {response : Response} (hstatus : ¬ isSuccess response.status)
    (hparse : parse response.body = some (.object members)) (hnames : (members.map Prod.fst).Nodup)
    (herror : members.lookup (.text "error") = some (.string (.text e))) (he : e ≠ "") :
    Survives e path response.status
        (readReply (P.readingErrors parse) path decode (exchange.reply response)) ↔
      (response.status = 409 ∧ path = "/v1/deactivate" →
        exchange.Delivers response ∧ Decodes members) ∧
      (response.status ≠ 401 ∧ response.status ≠ 403 ∧ response.status ≠ 404 ∧
          response.status ≠ 409 →
        exchange.Delivers response ∧ Decodes members ∨ exchange.refuses response = none ∧
          e = "HTTP " ++ P.displayStatus response.status) := by
  -- a response that is handed over ends in the error for its status
  have hread : ∀ body, readReply (P.readingErrors parse) path decode (.ok (response.status, body)) =
      .error (statusError P path response.status (errorBody (P.readingErrors parse) body)) :=
    fun body => if_neg hstatus
  unfold Exchange.reply Exchange.Delivers
  cases hrefuses : exchange.refuses response with
  | some text =>
    simp only [reduceCtorEq, false_and, or_false, imp_false]
    exact survives_network
  | none =>
    cases hcuts : exchange.cuts response with
    | some text =>
      have hempty : (errorBody (P.readingErrors parse) (.error text)).error = "" := rfl
      simp only [hread, reduceCtorEq, and_false, false_and, true_and]
      exact survives_statusError he (Or.inr ⟨not_false, hempty⟩)
    | none =>
      simp only [hread, true_and]
      exact survives_statusError he (errorBody_error hparse hnames herror)

end

/-! ### Two responses -/

/-- The sample platform with the text of the status 500. -/
def replyPlatform : Platform :=
  { samplePlatform with displayStatus := fun _ => "500 Internal Server Error" }

/-- A parser that reads this text as this document. -/
def reads (text : String) (document : Json) (bytes : Bytes) : Option Json :=
  if bytes = asBytes text then some document else none

/-- An exchange that fails on redirects without a location. -/
def replyExchange : Exchange where
  refuses response :=
    if 300 ≤ response.status ∧ response.status < 400 ∧ response.status ≠ 304 ∧
      response.headers.lookup "location" = none then some "no location" else none
  cuts _ := none

/-- What an activation makes of a response with this text and the status 500. -/
def answerTo (text : String) (document : Json) : Except LatteError TokenResponse :=
  readReply (replyPlatform.readingErrors (reads text document)) "/v1/activate"
    replyPlatform.tokenResponse (replyExchange.reply ⟨500, [], asBytes text⟩)

/-- A message alone survives. -/
theorem message_survives_iff_sample :
    Survives "something broke" "/v1/activate" 500
      (answerTo "\x7b\"error\":\"something broke\"\x7d"
        (.object [(.text "error", .string (.text "something broke"))])) := by
  have hdecodes : Decodes [(.text "error", .string (.text "something broke"))] := by
    refine ⟨by decide, fun v hv => ?_, fun v hv => ?_⟩ <;> cases hv
  have hdelivers : ∀ body, replyExchange.Delivers ⟨500, [], body⟩ := fun _ => ⟨rfl, rfl⟩
  exact (message_survives_iff replyPlatform _ "/v1/activate" replyExchange (by decide)
    (if_pos rfl) (by decide) rfl (by decide)).2
    ⟨fun _ => ⟨hdelivers _, hdecodes⟩, fun _ => Or.inl ⟨hdelivers _, hdecodes⟩⟩

/-- A message and a reason that is null. -/
def nullReason : List (JsonString × Json) :=
  [(.text "error", .string (.text "something broke")), (.text "reason", .null)]

/-- **A reason that is null loses the message.** -/
theorem null_reason_loses_message : (nullReason.map Prod.fst).Nodup ∧
    nullReason.lookup (.text "error") = some (.string (.text "something broke")) ∧
    ¬ Survives "something broke" "/v1/activate" 500
      (answerTo "\x7b\"error\":\"something broke\",\"reason\":null\x7d" (.object nullReason)) := by
  refine ⟨by decide, rfl, ?_⟩
  rintro ⟨-, hserver⟩
  have hanswer : answerTo "\x7b\"error\":\"something broke\",\"reason\":null\x7d"
      (.object nullReason) = .error (.server "HTTP 500 Internal Server Error") := by
    decide +kernel
  exact absurd (hanswer.symm.trans (hserver (by decide))) (by decide)

end LatteRs
