import LatteRs.Validate

/-!
# Requests and replies

The wire data of `http.rs`: the bodies of the requests, and what `Sdk::call`
makes of a reply.

* `Platform`: the functions of other crates, JSON decoders included, as
  arbitrary functions;
* `readReply`: the status mapping and the decoding of `Sdk::call`;
* `readReply_ok` and `readReply_invalidates`: what a decoded answer, and an
  invalidating one, say about the reply.
-/

namespace LatteRs

/-! ### Requests -/

/-- Which SDK made a request. -/
structure SdkInfo where
  language : String
  version : String
  deriving DecidableEq

def sdkInfo : SdkInfo := ⟨"rust", "0.6.0"⟩

structure ActivateRequest where
  projectKey : String
  licenseKey : String
  machineId : String
  machineName : Option String
  sdk : SdkInfo
  deriving DecidableEq

/-- Renew's body, which deactivate, machines and rename share. -/
structure CredentialsRequest where
  activationId : String
  licenseKey : String
  machineId : String
  machineName : Option String
  sdk : SdkInfo
  deriving DecidableEq

inductive Body
  | activate (r : ActivateRequest)
  | credentials (r : CredentialsRequest)
  deriving DecidableEq

/-! ### Replies -/

structure TokenResponse where
  token : String
  chain : CertChain
  deriving DecidableEq

/-- What `Sdk::deactivate` reports. -/
structure DeactivateResult where
  released : Bool
  seatFreeAt : Option SystemTime
  deriving DecidableEq

/-- One machine holding a seat on the licence. -/
structure Machine where
  name : Option String
  fingerprint : String
  activatedAt : SystemTime
  lastSeenAt : SystemTime
  seatFreeAt : Option SystemTime
  current : Bool
  deriving DecidableEq

structure ErrorResponse where
  error : String
  reason : String
  availableAt : Option SystemTime
  deriving DecidableEq

/-- `ErrorResponse::default()`. -/
def ErrorResponse.empty : ErrorResponse := ⟨"", "", none⟩

/-- What a request ends in: no response, or a status with the body or with the error that cut
reading it short. -/
abbrev Reply := Except String (ℕ × Except String Bytes)

/-- The functions of other crates that the `Sdk` calls: the JSON decoders with their error
texts, Unicode uppercasing, and the text of a status. -/
structure Platform extends Crypto where
  toUppercase : String → String
  displayStatus : ℕ → String
  tokenResponse : Bytes → Except String TokenResponse
  deactivateResult : Bytes → Except String DeactivateResult
  machinesResponse : Bytes → Except String (List Machine)
  renameResponse : Bytes → Except String String
  errorResponse : Bytes → Except String ErrorResponse

/-- `status.is_success()`. -/
def isSuccess (status : ℕ) : Prop := 200 ≤ status ∧ status < 300

instance (status : ℕ) : Decidable (isSuccess status) := inferInstanceAs (Decidable (_ ∧ _))

/-- The body of an error reply; the defaults when it cannot be read or decoded. -/
def errorBody (P : Platform) (body : Except String Bytes) : ErrorResponse :=
  match body with
  | .error _ => ErrorResponse.empty
  | .ok bytes =>
    match P.errorResponse bytes with
    | .error _ => ErrorResponse.empty
    | .ok err => err

/-- The error for a status other than 2xx. -/
def statusError (P : Platform) (path : String) (status : ℕ) (err : ErrorResponse) : LatteError :=
  if status = 404 then .licenseNotFound
  else if status = 403 then .licenseExpired
  -- a 409 here is the seller's deactivation policy, never a seat limit
  else if status = 409 ∧ path = "/v1/deactivate" then
    .deactivationBlocked err.error err.reason err.availableAt
  else if status = 409 then .seatLimit
  else if status = 401 then .invalidProjectKey
  else .server (if err.error = "" then "HTTP " ++ P.displayStatus status else err.error)

/-- The decoding of a 2xx body. -/
def decodeBody {T : Type} (decode : Bytes → Except String T) (body : Except String Bytes) :
    Except LatteError T :=
  match body with
  | .error e => .error (.server s!"decode response: {e}")
  | .ok bytes =>
    match decode bytes with
    | .error e => .error (.server s!"decode response: {e}")
    | .ok t => .ok t

/-- What `Sdk::call` makes of the reply to a request to `path`. -/
def readReply {T : Type} (P : Platform) (path : String) (decode : Bytes → Except String T)
    (reply : Reply) : Except LatteError T :=
  match reply with
  | .error e => .error (.network e)
  | .ok (status, body) =>
    if isSuccess status then decodeBody decode body
    else .error (statusError P path status (errorBody P body))

/-- What `Sdk::post` makes of a decoded token response. -/
def checkTokenResponse (result : TokenResponse) : Except LatteError (String × CertChain) :=
  if result.token = "" then .error (.server "server returned empty token")
  else if result.chain.daily = "" ∨ result.chain.project = "" ∨ result.chain.submaster = "" then
    .error (.server "server returned empty chain")
  else .ok (result.token, result.chain)

/-- What `Sdk::post` makes of the reply to a request to `path`. -/
def readToken (P : Platform) (path : String) (reply : Reply) :
    Except LatteError (String × CertChain) :=
  match readReply P path P.tokenResponse reply with
  | .error e => .error e
  | .ok result => checkTokenResponse result

/-! ### What an answer says about the reply -/

theorem decodeBody_eq_ok {T : Type} {decode : Bytes → Except String T}
    {body : Except String Bytes} {t : T} :
    decodeBody decode body = .ok t ↔ ∃ bytes, body = .ok bytes ∧ decode bytes = .ok t := by
  unfold decodeBody
  cases body with
  | error e => simp
  | ok bytes =>
    cases h : decode bytes <;> simp [h]

theorem decodeBody_not_invalidates {T : Type} {decode : Bytes → Except String T}
    {body : Except String Bytes} {e : LatteError} (h : decodeBody decode body = .error e) :
    e.invalidates = false := by
  unfold decodeBody at h
  cases body with
  | error e' =>
    cases h
    rfl
  | ok bytes =>
    cases hd : decode bytes with
    | error e' =>
      simp only [hd, Except.error.injEq] at h
      subst h
      rfl
    | ok t => simp [hd] at h

/-- A decoded answer comes from a 2xx reply. -/
theorem readReply_eq_ok {T : Type} {P : Platform} {path : String}
    {decode : Bytes → Except String T} {reply : Reply} {t : T} :
    readReply P path decode reply = .ok t ↔
      ∃ status bytes, reply = .ok (status, .ok bytes) ∧ isSuccess status ∧
        decode bytes = .ok t := by
  unfold readReply
  cases reply with
  | error e => simp
  | ok sb =>
    obtain ⟨status, body⟩ := sb
    by_cases hs : isSuccess status
    · simp only [hs, if_true, decodeBody_eq_ok]
      constructor
      · rintro ⟨bytes, rfl, hd⟩
        exact ⟨status, bytes, rfl, hs, hd⟩
      · rintro ⟨status', bytes, heq, -, hd⟩
        cases heq
        exact ⟨bytes, rfl, hd⟩
    · simp only [hs, if_false, reduceCtorEq, false_iff]
      rintro ⟨status', bytes, heq, hs', -⟩
      cases heq
      exact hs hs'

/-- The error that invalidates an activation is exactly that of a 404, a 403 or a 401. -/
theorem statusError_invalidates {P : Platform} {path : String} {status : ℕ}
    {err : ErrorResponse} :
    (statusError P path status err).invalidates = true ↔
      status = 404 ∨ status = 403 ∨ status = 401 := by
  unfold statusError
  split_ifs <;> simp_all [LatteError.invalidates]

/-- An answer that invalidates the activation is a 404, a 403 or a 401. -/
theorem readReply_invalidates {T : Type} {P : Platform} {path : String}
    {decode : Bytes → Except String T} {reply : Reply} {e : LatteError}
    (h : readReply P path decode reply = .error e) (he : e.invalidates = true) :
    ∃ status body, reply = .ok (status, body) ∧ (status = 404 ∨ status = 403 ∨ status = 401) := by
  unfold readReply at h
  cases reply with
  | error e' =>
    cases h
    cases he
  | ok sb =>
    obtain ⟨status, body⟩ := sb
    by_cases hs : isSuccess status
    · simp only [hs, if_true] at h
      rw [decodeBody_not_invalidates h] at he
      cases he
    · simp only [hs, if_false, Except.error.injEq] at h
      subst h
      exact ⟨status, body, rfl, statusError_invalidates.1 he⟩

/-- A 404, a 403 or a 401 invalidates the activation. -/
theorem readReply_of_invalidating {T : Type} (P : Platform) (path : String)
    (decode : Bytes → Except String T) {status : ℕ} (body : Except String Bytes)
    (h : status = 404 ∨ status = 403 ∨ status = 401) :
    ∃ e, readReply P path decode (.ok (status, body)) = .error e ∧ e.invalidates = true := by
  have hs : ¬ isSuccess status := by
    unfold isSuccess
    omega
  exact ⟨statusError P path status (errorBody P body), if_neg hs, statusError_invalidates.2 h⟩

/-- A token that `Sdk::post` returns is the one that was decoded. -/
theorem checkTokenResponse_ok {result : TokenResponse} {token : String} {chain : CertChain}
    (h : checkTokenResponse result = .ok (token, chain)) : result = ⟨token, chain⟩ := by
  unfold checkTokenResponse at h
  split_ifs at h
  cases h
  rfl

theorem checkTokenResponse_not_invalidates {result : TokenResponse} {e : LatteError}
    (h : checkTokenResponse result = .error e) : e.invalidates = false := by
  unfold checkTokenResponse at h
  split_ifs at h <;> cases h <;> rfl

/-- A token comes from the body of a 2xx reply. -/
theorem readToken_ok {P : Platform} {path : String} {reply : Reply} {token : String}
    {chain : CertChain} (h : readToken P path reply = .ok (token, chain)) :
    ∃ status bytes, reply = .ok (status, .ok bytes) ∧ isSuccess status ∧
      P.tokenResponse bytes = .ok ⟨token, chain⟩ := by
  unfold readToken at h
  cases hr : readReply P path P.tokenResponse reply with
  | error e => simp [hr] at h
  | ok result =>
    simp only [hr] at h
    obtain ⟨status, bytes, hreply, hs, hd⟩ := readReply_eq_ok.1 hr
    rw [checkTokenResponse_ok h] at hd
    exact ⟨status, bytes, hreply, hs, hd⟩

/-- A token request is invalidated exactly by a 404, a 403 or a 401. -/
theorem readToken_invalidates {P : Platform} {path : String} {reply : Reply} :
    (∃ e, readToken P path reply = .error e ∧ e.invalidates = true) ↔
      ∃ status body, reply = .ok (status, body) ∧
        (status = 404 ∨ status = 403 ∨ status = 401) := by
  unfold readToken
  constructor
  · rintro ⟨e, h, he⟩
    cases hr : readReply P path P.tokenResponse reply with
    | error e' =>
      simp only [hr, Except.error.injEq] at h
      subst h
      exact readReply_invalidates hr he
    | ok result =>
      simp only [hr] at h
      rw [checkTokenResponse_not_invalidates h] at he
      cases he
  · rintro ⟨status, body, rfl, hs⟩
    obtain ⟨e, h, he⟩ := readReply_of_invalidating P path P.tokenResponse body hs
    exact ⟨e, by simp [h], he⟩

end LatteRs
