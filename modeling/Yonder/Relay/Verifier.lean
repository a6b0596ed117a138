import Yonder.Lib.Effect
import Yonder.Relay.Callback

/-!
# Verification of an enterprise member

`verify_member` asks the provider of the callback who authorised it and whether that member is
active. The application token comes from a cache that all verifications share; a token that the
provider calls invalid is replaced once per verification, in whichever call that happens.

The transport, the other users of the cache and the clock are functions of what happened so far, so
that they can answer anything at any time. JSON is read by parameters, one for each response type,
and a request is what is put into its URL, bearer and body.
-/

namespace Yonder.Relay

open Lib

/-! ## Requests and responses -/

inductive ProviderRequest where
  | wecomToken (corpId appSecret : Bytes)
  | wecomUserInfo (accessToken code : Bytes)
  | wecomUser (accessToken userid : Bytes)
  | feishuOAuth (clientId clientSecret code redirectUri : Bytes)
  | feishuUserInfo (bearer : Bytes)
  | feishuTenantToken (appId appSecret : Bytes)
  | feishuUser (bearer userId : Bytes)
deriving DecidableEq

structure ExchangeResponse where
  status : Nat
  body : Bytes
deriving DecidableEq

def ExchangeResponse.isSuccess (r : ExchangeResponse) : Bool := 200 ≤ r.status && r.status < 300

inductive ExchangeError where
  | transport
  | responseTooLarge
deriving DecidableEq

inductive ProviderCallFailure where
  | tokenInvalid
  | rejected
  | platform
  | responseTooLarge
deriving DecidableEq

/-- `From<ProviderCallFailure> for VerifyError`. -/
def VerifyError.ofFailure : ProviderCallFailure → VerifyError
  | .rejected => .rejected
  | .responseTooLarge => .responseTooLarge
  | .tokenInvalid => .platform
  | .platform => .platform

def mapExchangeError : ExchangeError → ProviderCallFailure
  | .responseTooLarge => .responseTooLarge
  | .transport => .platform

/-- `MAX_EXCHANGE_RESPONSE_BYTES`. -/
def maxExchangeResponseBytes : Nat := 64 * 1024

/-- `MAX_AUTHORIZATION_CODE_BYTES`. -/
def maxAuthorizationCodeBytes : Nat := 512

def checkedResponse (r : ExchangeResponse) : Except ProviderCallFailure ExchangeResponse :=
  if r.body.length > maxExchangeResponseBytes then .error .responseTooLarge else .ok r

/-- `WECOM_TOKEN_INVALID`. -/
def wecomTokenInvalid : List Int := [40014, 42001]

/-- `WECOM_OAUTH_CODE_REJECTED`. -/
def wecomOauthCodeRejected : List Int := [40029, 42003, 42022]

/-- `WECOM_MEMBER_REJECTED`. -/
def wecomMemberRejected : List Int := [60021, 60111]

/-- `FEISHU_TENANT_TOKEN_INVALID`. -/
def feishuTenantTokenInvalid : List Int := [99991663, 99991665]

/-- `FEISHU_MEMBER_REJECTED`. -/
def feishuMemberRejected : List Int := [20008, 20010, 20021, 20022, 20023]

/-- `WeComTokenResponse`, and `FeishuTenantTokenResponse` with its own field names. -/
structure TokenResponse where
  errcode : Int
  accessToken : Bytes
  expiresIn : Nat

structure WeComUserInfoResponse where
  errcode : Int
  userid : Option Bytes

structure WeComMemberResponse where
  errcode : Int
  status : Option Int

structure FeishuOAuthResponse where
  code : Option Int
  accessToken : Bytes
  expiresIn : Nat
  error : Option Bytes

structure FeishuUserInfo where
  userId : Bytes
  tenantKey : Bytes

structure FeishuUserInfoEnvelope where
  code : Int
  data : Option FeishuUserInfo

structure FeishuMemberStatus where
  isActivated : Option Bool
  isFrozen : Option Bool
  isResigned : Option Bool
  isExited : Option Bool
  isUnjoin : Option Bool

def FeishuMemberStatus.isActive (s : FeishuMemberStatus) : Bool :=
  s.isActivated == some true && s.isFrozen == some false && s.isResigned == some false &&
    s.isExited == some false && s.isUnjoin == some false

/-- `FeishuMemberEnvelope`, with `data.user.status` in one. -/
structure FeishuMemberEnvelope where
  code : Int
  status : Option FeishuMemberStatus

/-! ## The token cache -/

structure CachedProviderToken where
  value : Bytes
  usableUntil : Nat
deriving DecidableEq

abbrev ProviderTokenCache : Type := Option CachedProviderToken

/-- `Duration::from_secs`, in nanoseconds. -/
def fromSecs (seconds : Nat) : Nat := seconds * 1000000000

/-- `MAX_PROVIDER_TOKEN_BYTES`. -/
def maxProviderTokenBytes : Nat := 4 * 1024

/-- `MAX_PROVIDER_TOKEN_TTL`. -/
def maxProviderTokenTtl : Nat := fromSecs (24 * 60 * 60)

/-- `MAX_TOKEN_REFRESH_MARGIN`. -/
def maxTokenRefreshMargin : Nat := fromSecs (5 * 60)

namespace ProviderTokenCache

def fresh (cache : ProviderTokenCache) (now : Nat) : Option Bytes × ProviderTokenCache :=
  let cache := if cache.any (now ≥ ·.usableUntil) then none else cache
  (cache.map (·.value), cache)

/-- `store`; `lastInstant` is the last instant that can be represented. -/
def store (lastInstant : Nat) (value : Bytes) (expiresIn now : Nat) : Option ProviderTokenCache :=
  if expiresIn = 0 ∨ expiresIn > maxProviderTokenTtl then none
  else
    let margin := min (expiresIn / 10) maxTokenRefreshMargin
    let usableUntil := now + (expiresIn - margin)
    if usableUntil ≤ lastInstant then some (some ⟨value, usableUntil⟩) else none

def invalidateIf (cache : ProviderTokenCache) (failed : Bytes) : ProviderTokenCache :=
  if cache.any (·.value = failed) then none else cache

end ProviderTokenCache

/-! ## Surroundings -/

/-- What happens in a verification: an exchange with the provider, a token that was obtained from
the cache or from the provider, and the replacement of a token. -/
inductive VerifyEvent where
  | exchange (request : ProviderRequest) (answer : Except ExchangeError ExchangeResponse)
  | token (value : Bytes)
  | refresh (failed : Bytes)

/-- The transport, what other verifications made of a cache by the time it is locked, the clock, and
the library functions on strings and JSON. -/
structure Surroundings where
  transport : List VerifyEvent → ProviderRequest → Except ExchangeError ExchangeResponse
  others : List VerifyEvent → EnterpriseProvider → ProviderTokenCache → ProviderTokenCache
  now : List VerifyEvent → Nat
  lastInstant : Nat
  hasWhitespace : Bytes → Bool
  wecomToken : Bytes → Option TokenResponse
  wecomUserInfo : Bytes → Option WeComUserInfoResponse
  wecomMember : Bytes → Option WeComMemberResponse
  feishuOAuth : Bytes → Option FeishuOAuthResponse
  feishuUserInfo : Bytes → Option FeishuUserInfoEnvelope
  feishuTenantToken : Bytes → Option TokenResponse
  feishuMember : Bytes → Option FeishuMemberEnvelope

structure WeComCredentials where
  corpId : Bytes
  appSecret : Bytes

structure FeishuCredentials where
  appId : Bytes
  appSecret : Bytes
  tenantKey : Bytes

structure ProviderCredentials where
  wecom : Option WeComCredentials
  feishu : Option FeishuCredentials
  feishuRedirectUri : Bytes

/-- The caches of the credentials and what happened so far. -/
structure Verification where
  caches : EnterpriseProvider → ProviderTokenCache
  log : List VerifyEvent

namespace Verification

def setCache (v : Verification) (provider : EnterpriseProvider) (cache : ProviderTokenCache) :
    Verification :=
  { v with caches := Function.update v.caches provider cache }

def record (v : Verification) (event : VerifyEvent) : Verification :=
  { v with log := v.log ++ [event] }

end Verification

abbrev ProviderCall (α : Type) : Type := Effect Verification ProviderCallFailure α

namespace Surroundings

variable (w : Surroundings)

/-! ## Reading the responses -/

def tokenLifetime (seconds : Nat) : Except ProviderCallFailure Nat :=
  if fromSecs seconds = 0 ∨ fromSecs seconds > maxProviderTokenTtl then .error .platform
  else .ok (fromSecs seconds)

/-- `provider_token`. -/
def providerToken (value : Bytes) : Except ProviderCallFailure Bytes :=
  if value = [] ∨ value.length > maxProviderTokenBytes ∨ w.hasWhitespace value then .error .platform
  else .ok value

/-- The response of `fetch_wecom_token` and of `fetch_feishu_tenant_token`. -/
def readToken (parse : Bytes → Option TokenResponse) (r : ExchangeResponse) :
    Except ProviderCallFailure (Bytes × Nat) :=
  match parse r.body with
  | none => .error .platform
  | some parsed =>
    if !r.isSuccess || parsed.errcode ≠ 0 then .error .platform
    else do
      let token ← w.providerToken parsed.accessToken
      let lifetime ← tokenLifetime parsed.expiresIn
      return (token, lifetime)

/-- The response of `wecom_member_userid`. -/
def readWecomUserid (r : ExchangeResponse) : Except ProviderCallFailure Bytes :=
  match w.wecomUserInfo r.body with
  | none => .error .platform
  | some parsed =>
    if parsed.errcode ∈ wecomTokenInvalid then .error .tokenInvalid
    else if parsed.errcode ∈ wecomOauthCodeRejected ∨ parsed.errcode ∈ wecomMemberRejected then
      .error .rejected
    else if !r.isSuccess then .error .platform
    else if parsed.errcode = 0 then
      match parsed.userid with
      | some userid => if userid = [] then .error .rejected else .ok userid
      | none => .error .rejected
    else .error .platform

/-- The response of `wecom_active_member_status`. -/
def readWecomStatus (r : ExchangeResponse) : Except ProviderCallFailure Unit :=
  match w.wecomMember r.body with
  | none => .error .platform
  | some parsed =>
    if parsed.errcode ∈ wecomTokenInvalid then .error .tokenInvalid
    else if parsed.errcode ∈ wecomMemberRejected then .error .rejected
    else if !r.isSuccess then .error .platform
    else if parsed.errcode = 0 then
      if parsed.status = some 1 then .ok () else .error .rejected
    else .error .platform

/-- The response of `feishu_user_token`; the text is `invalid_grant`. -/
def readFeishuUserToken (r : ExchangeResponse) : Except ProviderCallFailure Bytes :=
  match w.feishuOAuth r.body with
  | none => .error .platform
  | some parsed =>
    if !r.isSuccess then
      if parsed.error = some "invalid_grant".toUTF8.toList then .error .rejected
      else .error .platform
    else if parsed.code.any (· ≠ 0) then .error .platform
    else do
      let token ← w.providerToken parsed.accessToken
      let _ ← tokenLifetime parsed.expiresIn
      return token

/-- The response of `feishu_employee_id`. -/
def readFeishuEmployee (tenantKey : Bytes) (r : ExchangeResponse) :
    Except ProviderCallFailure Bytes :=
  match w.feishuUserInfo r.body with
  | none => .error .platform
  | some parsed =>
    if !r.isSuccess then .error .platform
    else if parsed.code ≠ 0 then
      if parsed.code = 99991668 then .error .rejected else .error .platform
    else
      match parsed.data with
      | none => .error .platform
      | some data =>
        if data.tenantKey ≠ tenantKey then .error .rejected
        else if data.userId = [] then .error .rejected
        else .ok data.userId

/-- The response of `feishu_active_employee_status`. -/
def readFeishuStatus (r : ExchangeResponse) : Except ProviderCallFailure Unit :=
  match w.feishuMember r.body with
  | none => .error .platform
  | some parsed =>
    if parsed.code ∈ feishuTenantTokenInvalid then .error .tokenInvalid
    else if parsed.code ∈ feishuMemberRejected then .error .rejected
    else if !r.isSuccess then .error .platform
    else if parsed.code ≠ 0 then .error .platform
    else
      match parsed.status with
      | none => .error .rejected
      | some status => if status.isActive then .ok () else .error .rejected

/-! ## Calls -/

/-- What a call makes of the answer of the transport. -/
def outcome {α : Type} (read : ExchangeResponse → Except ProviderCallFailure α)
    (answer : Except ExchangeError ExchangeResponse) : Except ProviderCallFailure α := do
  let response ← answer.mapError mapExchangeError
  let response ← checkedResponse response
  read response

/-- One call of the provider. -/
def call {α : Type} (request : ProviderRequest)
    (read : ExchangeResponse → Except ProviderCallFailure α) : ProviderCall α := fun v =>
  let answer := w.transport v.log request
  (outcome read answer, v.record (.exchange request answer))

/-- `wecom_access_token` and `feishu_tenant_access_token`: the fresh token of the cache, or one that
is fetched and stored while the cache is locked. -/
def accessToken (provider : EnterpriseProvider) (request : ProviderRequest)
    (parse : Bytes → Option TokenResponse) : ProviderCall Bytes := fun v =>
  match (w.others v.log provider (v.caches provider)).fresh (w.now v.log) with
  | (some token, cache) => (.ok token, (v.setCache provider cache).record (.token token))
  | (none, cache) =>
    match w.call request (w.readToken parse) (v.setCache provider cache) with
    | (.error e, v) => (.error e, v)
    | (.ok (token, lifetime), v) =>
      let storedAt := w.now v.log
      match ProviderTokenCache.store w.lastInstant token lifetime storedAt with
      | none => (.error .platform, v)
      | some cache =>
        match cache.fresh storedAt with
        | (some token, cache) => (.ok token, (v.setCache provider cache).record (.token token))
        | (none, cache) => (.error .platform, v.setCache provider cache)

/-- `invalidate_wecom_token` and `invalidate_feishu_tenant_token`. -/
def invalidate (provider : EnterpriseProvider) (failed : Bytes) : ProviderCall Unit := fun v =>
  let cache := w.others v.log provider (v.caches provider)
  (.ok (), (v.setCache provider (cache.invalidateIf failed)).record (.refresh failed))

def wecomAccessToken (wecom : WeComCredentials) : ProviderCall Bytes :=
  w.accessToken .weCom (.wecomToken wecom.corpId wecom.appSecret) w.wecomToken

def feishuTenantAccessToken (feishu : FeishuCredentials) : ProviderCall Bytes :=
  w.accessToken .feishu (.feishuTenantToken feishu.appId feishu.appSecret) w.feishuTenantToken

def wecomMemberUserid (token code : Bytes) : ProviderCall Bytes :=
  w.call (.wecomUserInfo token code) w.readWecomUserid

def wecomActiveMemberStatus (token userid : Bytes) : ProviderCall Unit :=
  w.call (.wecomUser token userid) w.readWecomStatus

def feishuUserToken (credentials : ProviderCredentials) (feishu : FeishuCredentials)
    (code : Bytes) : ProviderCall Bytes :=
  w.call (.feishuOAuth feishu.appId feishu.appSecret code credentials.feishuRedirectUri)
    w.readFeishuUserToken

def feishuEmployeeId (feishu : FeishuCredentials) (userToken : Bytes) : ProviderCall Bytes :=
  w.call (.feishuUserInfo userToken) (w.readFeishuEmployee feishu.tenantKey)

def feishuActiveEmployeeStatus (tenantToken userId : Bytes) : ProviderCall Unit :=
  w.call (.feishuUser tenantToken userId) w.readFeishuStatus

/-- The loop around a call that needs the application token: it ends with the result, the token and
the flag `refreshed`. An invalid token is replaced when the flag is not set, and no error goes round
the loop once it is. -/
def withToken {α : Type} (provider : EnterpriseProvider) (access : ProviderCall Bytes)
    (call : Bytes → ProviderCall α) (refreshed : Bool) (token : Bytes) :
    ProviderCall (α × Bytes × Bool) := do
  match ← (call token).result with
  | .ok a => return (a, token, refreshed)
  | .error e =>
    if e = .tokenInvalid ∧ refreshed = false then
      w.invalidate provider token
      let token ← access
      let a ← call token
      return (a, token, true)
    else .ofExcept (.error e)

def memberIdentity (userId : Bytes) : Except VerifyError MemberIdentity :=
  if h : 0 < userId.length ∧ userId.length ≤ 256 then .ok ⟨userId, h.1, h.2⟩ else .error .platform

def verifyWecom (credentials : ProviderCredentials) (code : Bytes) :
    Effect Verification VerifyError MemberIdentity :=
  match credentials.wecom with
  | none => .ofExcept (.error .platform)
  | some wecom => do
    let access := w.wecomAccessToken wecom
    let token ← access.mapError VerifyError.ofFailure
    let (userid, token, refreshed) ←
      (w.withToken .weCom access (w.wecomMemberUserid · code) false token).mapError
        VerifyError.ofFailure
    let _ ← (w.withToken .weCom access (w.wecomActiveMemberStatus · userid) refreshed
      token).mapError VerifyError.ofFailure
    .ofExcept (memberIdentity userid)

def verifyFeishu (credentials : ProviderCredentials) (code : Bytes) :
    Effect Verification VerifyError MemberIdentity :=
  match credentials.feishu with
  | none => .ofExcept (.error .platform)
  | some feishu => do
    let userToken ← (w.feishuUserToken credentials feishu code).mapError VerifyError.ofFailure
    let userId ← (w.feishuEmployeeId feishu userToken).mapError VerifyError.ofFailure
    let access := w.feishuTenantAccessToken feishu
    let tenantToken ← access.mapError VerifyError.ofFailure
    let _ ← (w.withToken .feishu access (w.feishuActiveEmployeeStatus · userId) false
      tenantToken).mapError VerifyError.ofFailure
    .ofExcept (memberIdentity userId)

def verifyMember (provider : EnterpriseProvider) (code : Bytes)
    (credentials : ProviderCredentials) : Effect Verification VerifyError MemberIdentity :=
  if code = [] ∨ code.length > maxAuthorizationCodeBytes then .ofExcept (.error .invalidCode)
  else
    match provider with
    | .weCom => w.verifyWecom credentials code
    | .feishu => w.verifyFeishu credentials code

/-! ## What the calls add to the log -/

/-- What obtaining a token adds. -/
inductive Acquired (request : ProviderRequest) :
    Except ProviderCallFailure Bytes → List VerifyEvent → Prop
  | cached (token : Bytes) : Acquired request (.ok token) [.token token]
  | fetched (token : Bytes) (answer : Except ExchangeError ExchangeResponse) :
      Acquired request (.ok token) [.exchange request answer, .token token]
  | failed (e : ProviderCallFailure) (answer : Except ExchangeError ExchangeResponse) :
      Acquired request (.error e) [.exchange request answer]

theorem emits_accessToken (provider : EnterpriseProvider) (request : ProviderRequest)
    (parse : Bytes → Option TokenResponse) :
    Emits Verification.log (w.accessToken provider request parse) (Acquired request) := by
  intro v
  unfold accessToken
  dsimp only
  split
  case h_1 token cache _ => exact ⟨_, rfl, .cached token⟩
  case h_2 cache _ =>
    have hlog : (w.call request (w.readToken parse) (v.setCache provider cache)).2.log =
        v.log ++ [.exchange request (w.transport v.log request)] := rfl
    rcases hcall : w.call request (w.readToken parse) (v.setCache provider cache) with
      ⟨e | ⟨token, lifetime⟩, v'⟩
    all_goals rw [hcall] at hlog
    · exact ⟨_, hlog, .failed e _⟩
    · dsimp only at hlog ⊢
      split
      · exact ⟨_, hlog, .failed _ _⟩
      · split
        · refine ⟨_, ?_, .fetched _ (w.transport v.log request)⟩
          show v'.log ++ [_] = _
          rw [hlog, List.append_assoc]
          rfl
        · exact ⟨_, hlog, .failed _ _⟩

/-- What the loop around a call adds: one exchange, or one whose answer called the token invalid,
the replacement of the token and, when there is a new one, a second exchange. -/
inductive Attempted {α : Type} (access : ProviderRequest) (request : Bytes → ProviderRequest)
    (read : ExchangeResponse → Except ProviderCallFailure α) (token : Bytes) :
    Bool → Except ProviderCallFailure (α × Bytes × Bool) → List VerifyEvent → Prop
  | done (refreshed : Bool) (answer : Except ExchangeError ExchangeResponse) :
      Attempted access request read token refreshed
        ((outcome read answer).map (·, token, refreshed)) [.exchange (request token) answer]
  | unrenewed {e : ProviderCallFailure} {l : List VerifyEvent}
      (answer : Except ExchangeError ExchangeResponse) (h : Acquired access (.error e) l) :
      Attempted access request read token false (.error e)
        (.exchange (request token) answer :: .refresh token :: l)
  | renewed {token' : Bytes} {l : List VerifyEvent}
      (answer answer' : Except ExchangeError ExchangeResponse)
      (h : Acquired access (.ok token') l) :
      Attempted access request read token false ((outcome read answer').map (·, token', true))
        (.exchange (request token) answer :: .refresh token :: l ++
          [.exchange (request token') answer'])

/-- Every call is one exchange. -/
theorem emits_call {α : Type} (request : ProviderRequest)
    (read : ExchangeResponse → Except ProviderCallFailure α) :
    Emits Verification.log (w.call request read) fun r l =>
      ∃ answer, r = outcome read answer ∧ l = [.exchange request answer] :=
  fun v => ⟨_, rfl, w.transport v.log request, rfl, rfl⟩

theorem emits_withToken {α : Type} {provider : EnterpriseProvider} {access : ProviderCall Bytes}
    {tokenRequest : ProviderRequest}
    (haccess : Emits Verification.log access (Acquired tokenRequest))
    (request : Bytes → ProviderRequest) (read : ExchangeResponse → Except ProviderCallFailure α)
    (refreshed : Bool) (token : Bytes) :
    Emits Verification.log
      (w.withToken provider access (fun t => w.call (request t) read) refreshed token)
      (Attempted tokenRequest request read token refreshed) := by
  have hcall := fun t => w.emits_call (request t) read
  refine (hcall token).result.bind
    (Q := fun r r' l' => ∀ answer, r = outcome read answer →
      Attempted tokenRequest request read token refreshed r'
        (.exchange (request token) answer :: l')) ?_ ?_ ?_
  case refine_2 =>
    rintro e l ⟨r', he, -⟩
    cases he
  case refine_3 =>
    rintro r l r' l' ⟨_, hr, answer, houtcome, rfl⟩ h
    exact h answer ((Except.ok.inj hr).trans houtcome)
  rintro (e | a)
  · dsimp only
    split
    case isTrue hrefresh =>
      obtain ⟨-, rfl⟩ := hrefresh
      -- the token is replaced and the call made again with the new one
      have hinvalidate : Emits Verification.log (w.invalidate provider token) fun r l =>
          r = .ok () ∧ l = [.refresh token] := fun v => ⟨_, rfl, rfl, rfl⟩
      refine hinvalidate.bind (Q := fun _ r' l' => ∀ answer,
        Attempted tokenRequest request read token false r'
          (.exchange (request token) answer :: .refresh token :: l')) (fun _ => ?_) ?_ ?_
      · refine haccess.bind (Q := fun token' r' l' => ∃ answer',
          r' = (outcome read answer').map (·, token', true) ∧
            l' = [.exchange (request token') answer']) (fun token' => ?_) ?_ ?_
        · refine (hcall token').bind (Q := fun a r' l' => r' = .ok (a, token', true) ∧ l' = [])
            (fun a => Emits.pure ⟨rfl, rfl⟩) ?_ ?_
          · rintro e' l ⟨answer', he, rfl⟩
            exact ⟨answer', by rw [← he]; rfl, rfl⟩
          · rintro a l r' l' ⟨answer', ha, rfl⟩ ⟨rfl, rfl⟩
            exact ⟨answer', by rw [← ha]; rfl, rfl⟩
        · exact fun e' l h answer => .unrenewed answer h
        · rintro token' l r' l' h ⟨answer', rfl, rfl⟩ answer
          exact .renewed answer answer' h
      · rintro e' l ⟨h, -⟩
        cases h
      · rintro _ l r' l' ⟨-, rfl⟩ h answer _
        exact h answer
    case isFalse =>
      refine Emits.ofExcept fun answer he => ?_
      have h : Attempted tokenRequest request read token refreshed _ _ := .done refreshed answer
      rwa [← he] at h
  · refine Emits.pure fun answer ha => ?_
    have h : Attempted tokenRequest request read token refreshed _ _ := .done refreshed answer
    rwa [← ha] at h

/-! ## Counting -/

def exchanges (l : List VerifyEvent) : Nat := l.countP fun
  | .exchange _ _ => true
  | _ => false

def refreshes (l : List VerifyEvent) : Nat := l.countP fun
  | .refresh _ => true
  | _ => false

theorem exchanges_append (l l' : List VerifyEvent) :
    exchanges (l ++ l') = exchanges l + exchanges l' := List.countP_append

theorem refreshes_append (l l' : List VerifyEvent) :
    refreshes (l ++ l') = refreshes l + refreshes l' := List.countP_append

/-- At most `n` exchanges and one replacement of the token. -/
def Within (n : Nat) (l : List VerifyEvent) : Prop := exchanges l ≤ n ∧ refreshes l ≤ 1

theorem Acquired.counts {request : ProviderRequest} {r : Except ProviderCallFailure Bytes}
    {l : List VerifyEvent} (h : Acquired request r l) : exchanges l ≤ 1 ∧ refreshes l = 0 := by
  cases h with
  | cached => exact ⟨Nat.zero_le _, rfl⟩
  | fetched => exact ⟨le_rfl, rfl⟩
  | failed => exact ⟨le_rfl, rfl⟩

section Attempt

variable {w} {α : Type} {access : ProviderRequest} {request : Bytes → ProviderRequest}
  {read : ExchangeResponse → Except ProviderCallFailure α} {token token' : Bytes}
  {refreshed refreshed' : Bool} {l l' : List VerifyEvent}

/-- What is left of the one replacement after a call, and what the call took. -/
theorem Attempted.counts {r : Except ProviderCallFailure (α × Bytes × Bool)}
    (h : Attempted access request read token refreshed r l) :
    ∃ spent : Bool, exchanges l + 2 * (!spent).toNat ≤ 1 + 2 * (!refreshed).toNat ∧
      refreshes l + (!spent).toNat ≤ (!refreshed).toNat ∧
      ∀ a token' refreshed', r = .ok (a, token', refreshed') → refreshed' = spent := by
  cases h with
  | done refreshed answer =>
    refine ⟨refreshed, le_rfl, (Nat.zero_add _).le, fun a token' refreshed' hr => ?_⟩
    cases houtcome : outcome read answer <;> rw [houtcome] at hr <;> cases hr
    rfl
  | unrenewed answer h =>
    obtain ⟨hexchanges, hrefreshes⟩ := h.counts
    refine ⟨true, ?_, ?_, nofun⟩
    · show exchanges ([_, _] ++ _) + 0 ≤ 3
      rw [exchanges_append]
      show 1 + _ + 0 ≤ 3
      omega
    · show refreshes ([_, _] ++ _) + 0 ≤ 1
      rw [refreshes_append, hrefreshes]
      rfl
  | renewed answer answer' h =>
    obtain ⟨hexchanges, hrefreshes⟩ := h.counts
    refine ⟨true, ?_, ?_, fun a token' refreshed' hr => ?_⟩
    · show exchanges ([_, _] ++ _ ++ [_]) + 0 ≤ 3
      rw [exchanges_append, exchanges_append]
      show 1 + _ + 1 + 0 ≤ 3
      omega
    · show refreshes ([_, _] ++ _ ++ [_]) + 0 ≤ 1
      rw [refreshes_append, refreshes_append, hrefreshes]
      rfl
    · cases houtcome : outcome read answer' <;> rw [houtcome] at hr <;> cases hr
      rfl

/-- A call that succeeds ends with an exchange under the token that it ends with: the one it started
with, or one that was obtained just before. -/
theorem Attempted.last_exchange {a : α}
    (h : Attempted access request read token refreshed (.ok (a, token', refreshed')) l) :
    ∃ front answer, l = front ++ [.exchange (request token') answer] ∧
      outcome read answer = .ok a ∧
      (front = [] ∧ token' = token ∨ ∃ older, front = older ++ [.token token']) := by
  generalize hr : Except.ok (a, token', refreshed') = r at h
  cases h with
  | done refreshed answer =>
    cases houtcome : outcome read answer <;> rw [houtcome] at hr <;> cases hr
    exact ⟨[], answer, rfl, houtcome, .inl ⟨rfl, rfl⟩⟩
  | unrenewed => cases hr
  | renewed answer answer' h =>
    cases houtcome : outcome read answer' <;> rw [houtcome] at hr <;> cases hr
    refine ⟨_, answer', rfl, houtcome, .inr ?_⟩
    cases h with
    | cached => exact ⟨[_, _], rfl⟩
    | fetched _ answer => exact ⟨[_, _, _], rfl⟩

end Attempt

/-! ## Tokens that were reported invalid -/

/-- The response to a request with `token` says that the token is invalid. -/
def ReportsInvalid (token : Bytes) : VerifyEvent → Prop
  | .exchange (.wecomUserInfo t _) (.ok r) =>
    t = token ∧ ∃ parsed, w.wecomUserInfo r.body = some parsed ∧ parsed.errcode ∈ wecomTokenInvalid
  | .exchange (.wecomUser t _) (.ok r) =>
    t = token ∧ ∃ parsed, w.wecomMember r.body = some parsed ∧ parsed.errcode ∈ wecomTokenInvalid
  | .exchange (.feishuUser t _) (.ok r) =>
    t = token ∧ ∃ parsed, w.feishuMember r.body = some parsed ∧
      parsed.code ∈ feishuTenantTokenInvalid
  | _ => False

/-- The token was obtained and has not been reported invalid since. -/
def Holds (token : Bytes) (l : List VerifyEvent) : Prop :=
  ∃ older since, l = older ++ .token token :: since ∧ ∀ e ∈ since, ¬ w.ReportsInvalid token e

/-- The token is held, and `n` exchanges are enough for what happened and for its replacement. -/
structure Held (n : Nat) (token : Bytes) (refreshed : Bool) (l : List VerifyEvent) : Prop where
  holds : w.Holds token l
  exchanges : exchanges l + 2 * (!refreshed).toNat ≤ n
  refreshes : refreshes l + (!refreshed).toNat ≤ 1

section Attempt

variable {w} {α : Type} {access : ProviderRequest} {request : Bytes → ProviderRequest}
  {read : ExchangeResponse → Except ProviderCallFailure α} {token token' : Bytes}
  {refreshed refreshed' : Bool} {l l' : List VerifyEvent} {n : Nat}

/-- A token that has just been obtained. -/
theorem Acquired.held (h : Acquired access (.ok token) l')
    (hexchanges : Surroundings.exchanges l ≤ n)
    (hrefreshes : Surroundings.refreshes l = 0) : w.Held (n + 3) token false (l ++ l') := by
  obtain ⟨hexchanges', hrefreshes'⟩ := h.counts
  refine ⟨?_, ?_, ?_⟩
  · have hnone : ∀ e ∈ ([] : List VerifyEvent), ¬ w.ReportsInvalid token e :=
      fun e he => absurd he List.not_mem_nil
    cases h with
    | cached => exact ⟨l, [], rfl, hnone⟩
    | fetched _ answer =>
      exact ⟨l ++ [.exchange access answer], [], by rw [List.append_assoc]; rfl, hnone⟩
  · rw [exchanges_append, Bool.not_false, Bool.toNat_true]
    omega
  · rw [refreshes_append, Bool.not_false, Bool.toNat_true]
    omega

theorem Held.within (h : w.Held n token refreshed l)
    {r : Except ProviderCallFailure (α × Bytes × Bool)}
    (hattempt : Attempted access request read token refreshed r l') : Within (n + 1) (l ++ l') := by
  obtain ⟨spent, hexchanges, hrefreshes, -⟩ := hattempt.counts
  have hexchanges' := h.exchanges
  have hrefreshes' := h.refreshes
  rw [Within, exchanges_append, refreshes_append]
  omega

/-- A call that succeeds: its last exchange is made under a held token, which stays held when the
response does not say that it is invalid. -/
theorem Held.attempted (h : w.Held n token refreshed l) {a : α}
    (hattempt : Attempted access request read token refreshed (.ok (a, token', refreshed')) l') :
    ∃ front answer, l ++ l' = front ++ [.exchange (request token') answer] ∧
      outcome read answer = .ok a ∧ w.Holds token' front ∧
      (¬ w.ReportsInvalid token' (.exchange (request token') answer) →
        w.Held (n + 1) token' refreshed' (l ++ l')) := by
  obtain ⟨front, answer, rfl, houtcome, hfront⟩ := hattempt.last_exchange
  have hholds : w.Holds token' (l ++ front) := by
    rcases hfront with ⟨rfl, rfl⟩ | ⟨older, rfl⟩
    · rw [List.append_nil]
      exact h.holds
    · exact ⟨l ++ older, [], List.append_assoc .. |>.symm, fun e he => absurd he List.not_mem_nil⟩
  refine ⟨l ++ front, answer, (List.append_assoc ..).symm, houtcome, hholds, fun hvalid => ?_⟩
  obtain ⟨spent, hexchanges, hrefreshes, hspent⟩ := hattempt.counts
  obtain rfl := hspent _ _ _ rfl
  have hexchanges' := h.exchanges
  have hrefreshes' := h.refreshes
  refine ⟨?_, ?_, ?_⟩
  · obtain ⟨older, since, hlog, hsince⟩ := hholds
    refine ⟨older, since ++ [.exchange (request token') answer], ?_, fun e he => ?_⟩
    · rw [← List.append_assoc, hlog, List.append_assoc]
      rfl
    · rcases List.mem_append.1 he with he | he
      · exact hsince e he
      · rwa [List.mem_singleton.1 he]
  · rw [exchanges_append]
    omega
  · rw [refreshes_append]
    omega

end Attempt

/-! ## What a success rests on -/

/-- The request for the status of a member. -/
def statusRequest : EnterpriseProvider → Bytes → Bytes → ProviderRequest
  | .weCom => .wecomUser
  | .feishu => .feishuUser

/-- The response to a request for the status of a member says that the member is active. -/
def SaysActive (r : ExchangeResponse) : EnterpriseProvider → Prop
  | .weCom => r.isSuccess = true ∧ ∃ parsed, w.wecomMember r.body = some parsed ∧
      parsed.errcode = 0 ∧ parsed.status = some 1
  | .feishu => r.isSuccess = true ∧ ∃ parsed status, w.feishuMember r.body = some parsed ∧
      parsed.code = 0 ∧ parsed.status = some status ∧ status.isActive = true

/-- The code was exchanged for the user. With Feishu it is exchanged for the token of the user, and
what that token gives carries the configured tenant key. -/
def ExchangedFor (credentials : ProviderCredentials) (code user : Bytes) (l : List VerifyEvent) :
    EnterpriseProvider → Prop
  | .weCom => ∃ token r parsed, .exchange (.wecomUserInfo token code) (.ok r) ∈ l ∧
      r.isSuccess = true ∧ w.wecomUserInfo r.body = some parsed ∧ parsed.errcode = 0 ∧
      parsed.userid = some user
  | .feishu => ∃ feishu oauth granted r parsed data, credentials.feishu = some feishu ∧
      .exchange (.feishuOAuth feishu.appId feishu.appSecret code credentials.feishuRedirectUri)
        (.ok oauth) ∈ l ∧
      oauth.isSuccess = true ∧ w.feishuOAuth oauth.body = some granted ∧
      .exchange (.feishuUserInfo granted.accessToken) (.ok r) ∈ l ∧
      r.isSuccess = true ∧ w.feishuUserInfo r.body = some parsed ∧ parsed.code = 0 ∧
      parsed.data = some data ∧ data.tenantKey = feishu.tenantKey ∧ data.userId = user

/-- The verification ended with a response that says, under a token that is held, that the member
for whom the code was exchanged is active. -/
def Granted (provider : EnterpriseProvider) (credentials : ProviderCredentials) (code user : Bytes)
    (l : List VerifyEvent) : Prop :=
  w.ExchangedFor credentials code user l provider ∧
    ∃ front token r, l = front ++ [.exchange (statusRequest provider token user) (.ok r)] ∧
      w.Holds token front ∧ w.SaysActive r provider

structure Verified (provider : EnterpriseProvider) (credentials : ProviderCredentials)
    (code : Bytes) (r : Except VerifyError MemberIdentity) (l : List VerifyEvent) : Prop where
  within : Within 6 l
  granted : ∀ identity, r = .ok identity → w.Granted provider credentials code identity.bytes l

section Read

variable {w} {r : ExchangeResponse}

theorem outcome_eq_ok {α : Type} {read : ExchangeResponse → Except ProviderCallFailure α}
    {answer : Except ExchangeError ExchangeResponse} {a : α} (h : outcome read answer = .ok a) :
    ∃ r, answer = .ok r ∧ read r = .ok a := by
  cases answer with
  | error e => cases h
  | ok r =>
    refine ⟨r, rfl, ?_⟩
    change (checkedResponse r >>= read) = .ok a at h
    unfold checkedResponse at h
    split at h
    · cases h
    · exact h

theorem readWecomUserid_eq_ok {userid : Bytes} (h : w.readWecomUserid r = .ok userid) :
    r.isSuccess = true ∧ ∃ parsed, w.wecomUserInfo r.body = some parsed ∧ parsed.errcode = 0 ∧
      parsed.userid = some userid := by
  unfold readWecomUserid at h
  split at h
  case h_1 => cases h
  case h_2 parsed hparsed =>
    split_ifs at h with _ _ hsuccess herrcode
    split at h
    case h_2 => cases h
    case h_1 found hfound =>
      split at h
      · cases h
      · cases h
        exact ⟨Bool.not_eq_false _ ▸ fun hfalse => hsuccess (by rw [hfalse]; rfl), parsed, hparsed,
          herrcode, hfound⟩

theorem readWecomStatus_eq_ok (h : w.readWecomStatus r = .ok ()) : w.SaysActive r .weCom := by
  unfold readWecomStatus at h
  split at h
  case h_1 => cases h
  case h_2 parsed hparsed =>
    split_ifs at h with _ _ hsuccess herrcode hstatus
    refine ⟨?_, parsed, hparsed, herrcode, hstatus⟩
    simpa using hsuccess

theorem readFeishuUserToken_eq_ok {token : Bytes} (h : w.readFeishuUserToken r = .ok token) :
    r.isSuccess = true ∧ ∃ granted, w.feishuOAuth r.body = some granted ∧
      granted.accessToken = token := by
  unfold readFeishuUserToken at h
  split at h
  case h_1 => cases h
  case h_2 granted hgranted =>
    split_ifs at h with hsuccess _ hcode
    refine ⟨by simpa using hsuccess, granted, hgranted, ?_⟩
    unfold providerToken tokenLifetime at h
    split_ifs at h <;> cases h
    rfl

theorem readFeishuEmployee_eq_ok {tenantKey userId : Bytes}
    (h : w.readFeishuEmployee tenantKey r = .ok userId) :
    r.isSuccess = true ∧ ∃ parsed data, w.feishuUserInfo r.body = some parsed ∧ parsed.code = 0 ∧
      parsed.data = some data ∧ data.tenantKey = tenantKey ∧ data.userId = userId := by
  unfold readFeishuEmployee at h
  split at h
  case h_1 => cases h
  case h_2 parsed hparsed =>
    split_ifs at h with hsuccess hcode
    split at h
    case h_1 => cases h
    case h_2 data hdata =>
      split_ifs at h with hkey hid
      cases h
      exact ⟨by simpa using hsuccess, parsed, data, hparsed, not_not.1 hcode, hdata, not_not.1 hkey,
        rfl⟩

theorem readFeishuStatus_eq_ok (h : w.readFeishuStatus r = .ok ()) : w.SaysActive r .feishu := by
  unfold readFeishuStatus at h
  split at h
  case h_1 => cases h
  case h_2 parsed hparsed =>
    split_ifs at h with _ _ hsuccess hcode
    split at h
    case h_1 => cases h
    case h_2 status hstatus =>
      split at h
      case isTrue hactive =>
        exact ⟨by simpa using hsuccess, parsed, status, hparsed, not_not.1 hcode, hstatus, hactive⟩
      case isFalse => cases h

end Read

theorem memberIdentity_bytes {userId : Bytes} {identity : MemberIdentity}
    (h : memberIdentity userId = .ok identity) : identity.bytes = userId := by
  unfold memberIdentity at h
  split at h <;> cases h
  rfl

/-! ## The verifications -/

theorem Verified.failed {provider : EnterpriseProvider} {credentials : ProviderCredentials}
    {code : Bytes} {e : VerifyError} {l : List VerifyEvent} {n : Nat} (h : Within n l)
    (hn : n ≤ 6) : w.Verified provider credentials code (.error e) l :=
  ⟨⟨h.1.trans hn, h.2⟩, nofun⟩

theorem ExchangedFor.append {provider : EnterpriseProvider} {credentials : ProviderCredentials}
    {code user : Bytes} {l : List VerifyEvent}
    (h : w.ExchangedFor credentials code user l provider) (l' : List VerifyEvent) :
    w.ExchangedFor credentials code user (l ++ l') provider := by
  cases provider with
  | weCom =>
    obtain ⟨token, r, parsed, hmem, hr⟩ := h
    exact ⟨token, r, parsed, List.mem_append_left _ hmem, hr⟩
  | feishu =>
    obtain ⟨feishu, oauth, granted, r, parsed, data, hfeishu, hoauth, hsuccess, hgranted, hmem,
      hr⟩ := h
    exact ⟨feishu, oauth, granted, r, parsed, data, hfeishu, List.mem_append_left _ hoauth,
      hsuccess, hgranted, List.mem_append_left _ hmem, hr⟩

/-- The last part of both verifications, after the code was exchanged for the user. -/
theorem emits_status {provider : EnterpriseProvider} (credentials : ProviderCredentials)
    (code user : Bytes) {access : ProviderCall Bytes} {tokenRequest : ProviderRequest}
    (haccess : Emits Verification.log access (Acquired tokenRequest))
    {read : ExchangeResponse → Except ProviderCallFailure Unit}
    (hread : ∀ r, read r = .ok () → w.SaysActive r provider) (refreshed : Bool) (token : Bytes) :
    Emits Verification.log
      (do
        let _ ← (w.withToken provider access
          (fun t => w.call (statusRequest provider t user) read) refreshed token).mapError
            VerifyError.ofFailure
        Effect.ofExcept (memberIdentity user))
      fun r l' => ∀ l, w.Held 5 token refreshed l →
        w.ExchangedFor credentials code user l provider →
        w.Verified provider credentials code r (l ++ l') := by
  refine (w.emits_withToken haccess (statusRequest provider · user) read refreshed
    token).mapError_bind (Q := fun _ r l' => r = memberIdentity user ∧ l' = [])
    (fun _ => Emits.ofExcept ⟨rfl, rfl⟩) ?_ ?_
  · intro e l' h l hheld _
    exact .failed w (hheld.within h) le_rfl
  · rintro ⟨_, token', refreshed'⟩ l' r _ h ⟨rfl, rfl⟩ l hheld hexchanged
    rw [List.append_nil]
    refine ⟨hheld.within h, fun identity hidentity => ?_⟩
    obtain ⟨front, answer, hlog, houtcome, hholds, -⟩ := hheld.attempted h
    obtain ⟨status, rfl, hstatus⟩ := outcome_eq_ok houtcome
    rw [memberIdentity_bytes hidentity]
    exact ⟨hexchanged.append w l', front, token', status, hlog, hholds, hread status hstatus⟩

theorem emits_verifyWecom (credentials : ProviderCredentials) (code : Bytes) :
    Emits Verification.log (w.verifyWecom credentials code)
      (w.Verified .weCom credentials code) := by
  unfold verifyWecom
  split
  case h_1 => exact Emits.ofExcept (.failed w (n := 0) ⟨le_rfl, Nat.zero_le _⟩ (Nat.zero_le _))
  case h_2 wecom _ =>
  have haccess := w.emits_accessToken .weCom (.wecomToken wecom.corpId wecom.appSecret) w.wecomToken
  refine haccess.mapError_bind (Q := fun token r l' => ∀ l, w.Held 3 token false l →
    w.Verified .weCom credentials code r (l ++ l')) (fun token => ?_) ?_ ?_
  case refine_2 =>
    intro e l h
    exact .failed w (n := 1) ⟨h.counts.1, h.counts.2 ▸ Nat.zero_le _⟩ (by decide)
  case refine_3 =>
    exact fun token l r l' h hrest => hrest l (h.held (l := []) (n := 0) le_rfl rfl)
  refine (w.emits_withToken haccess (.wecomUserInfo · code) w.readWecomUserid false
    token).mapError_bind (Q := fun x r l' => ∀ l, w.Held 5 x.2.1 x.2.2 l →
      w.ExchangedFor credentials code x.1 l .weCom → w.Verified .weCom credentials code r (l ++ l'))
    ?_ ?_ ?_
  · rintro ⟨userid, token', refreshed⟩
    exact w.emits_status credentials code userid haccess (fun _ => readWecomStatus_eq_ok) refreshed
      token'
  · intro e l' h l hheld
    exact .failed w (hheld.within h) (by decide)
  · rintro ⟨userid, token', refreshed⟩ l' r l'' h hrest l hheld
    obtain ⟨front, answer, hlog, houtcome, -, hnext⟩ := hheld.attempted h
    obtain ⟨info, rfl, hinfo⟩ := outcome_eq_ok houtcome
    obtain ⟨hsuccess, parsed, hparsed, herrcode, huserid⟩ := readWecomUserid_eq_ok hinfo
    have hvalid :
        ¬ w.ReportsInvalid token' (.exchange (.wecomUserInfo token' code) (.ok info)) := by
      rintro ⟨-, parsed', hparsed', hinvalid⟩
      cases hparsed.symm.trans hparsed'
      rw [herrcode] at hinvalid
      revert hinvalid
      decide
    obtain ⟨hholds, hexchanges, hrefreshes⟩ := hnext hvalid
    rw [← List.append_assoc]
    refine hrest (l ++ l') ⟨hholds, hexchanges.trans (by decide), hrefreshes⟩ ?_
    refine ⟨token', info, parsed, ?_, hsuccess, hparsed, herrcode, huserid⟩
    rw [hlog]
    exact List.mem_append_right _ List.mem_cons_self

theorem emits_verifyFeishu (credentials : ProviderCredentials) (code : Bytes) :
    Emits Verification.log (w.verifyFeishu credentials code)
      (w.Verified .feishu credentials code) := by
  unfold verifyFeishu
  split
  case h_1 => exact Emits.ofExcept (.failed w (n := 0) ⟨le_rfl, Nat.zero_le _⟩ (Nat.zero_le _))
  case h_2 feishu hfeishu =>
  refine (w.emits_call _ w.readFeishuUserToken).mapError_bind (Q := fun token r l' => ∀ oauth,
    w.readFeishuUserToken oauth = .ok token → w.Verified .feishu credentials code r
      (.exchange (.feishuOAuth feishu.appId feishu.appSecret code credentials.feishuRedirectUri)
        (.ok oauth) :: l')) (fun userToken => ?_) ?_ ?_
  case refine_2 =>
    rintro e l ⟨answer, -, rfl⟩
    exact .failed w (n := 1) ⟨le_rfl, Nat.zero_le _⟩ (by decide)
  case refine_3 =>
    rintro token l r l' ⟨answer, houtcome, rfl⟩ hrest
    obtain ⟨oauth, rfl, hoauth⟩ := outcome_eq_ok houtcome.symm
    exact hrest oauth hoauth
  refine (w.emits_call _ (w.readFeishuEmployee feishu.tenantKey)).mapError_bind
    (Q := fun userId r l' => ∀ l, exchanges l ≤ 2 → refreshes l = 0 →
      w.ExchangedFor credentials code userId l .feishu →
      w.Verified .feishu credentials code r (l ++ l')) (fun userId => ?_) ?_ ?_
  case refine_2 =>
    rintro e l ⟨answer, -, rfl⟩ oauth _
    exact .failed w (n := 2) ⟨le_rfl, Nat.zero_le _⟩ (by decide)
  case refine_3 =>
    rintro userId l r l' ⟨answer, houtcome, rfl⟩ hrest oauth hoauth
    obtain ⟨info, rfl, hinfo⟩ := outcome_eq_ok houtcome.symm
    obtain ⟨hoauthSuccess, granted, hgranted, rfl⟩ := readFeishuUserToken_eq_ok hoauth
    obtain ⟨hsuccess, parsed, data, hparsed, hcode, hdata, hkey, huser⟩ :=
      readFeishuEmployee_eq_ok hinfo
    refine hrest [_, _] le_rfl rfl ⟨feishu, oauth, granted, info, parsed, data, hfeishu,
      List.mem_cons_self, hoauthSuccess, hgranted, List.mem_cons_of_mem _ List.mem_cons_self,
      hsuccess, hparsed, hcode, hdata, hkey, huser⟩
  have haccess := w.emits_accessToken .feishu (.feishuTenantToken feishu.appId feishu.appSecret)
    w.feishuTenantToken
  refine haccess.mapError_bind (Q := fun token r l' => ∀ l, w.Held 5 token false l →
      w.ExchangedFor credentials code userId l .feishu →
      w.Verified .feishu credentials code r (l ++ l'))
    (w.emits_status credentials code userId haccess (fun _ => readFeishuStatus_eq_ok) false) ?_ ?_
  · intro e l' h l hexchanges hrefreshes _
    refine .failed w (n := 3) ⟨?_, ?_⟩ (by decide)
    · rw [exchanges_append]
      exact Nat.add_le_add hexchanges h.counts.1
    · rw [refreshes_append, hrefreshes, h.counts.2]
      exact Nat.zero_le _
  · intro token l' r l'' h hrest l hexchanges hrefreshes hexchanged
    rw [← List.append_assoc]
    exact hrest (l ++ l') (h.held hexchanges hrefreshes) (hexchanged.append w l')

/-- Over everything the transport, the other users of the caches and the clock can do: a
verification replaces the token at most once and makes at most six exchanges; and when it succeeds, its last
exchange is a request for the status of the member for whom the code of this callback was exchanged
(with Feishu under the configured tenant key), made with a token that was not reported invalid since
it was obtained, and the response says that the member is active. -/
theorem member_verification (provider : EnterpriseProvider) (code : Bytes)
    (credentials : ProviderCredentials) (caches : EnterpriseProvider → ProviderTokenCache) :
    let (result, v) := w.verifyMember provider code credentials ⟨caches, []⟩
    refreshes v.log ≤ 1 ∧ exchanges v.log ≤ 6 ∧
      ∀ identity, result = .ok identity →
        w.Granted provider credentials code identity.bytes v.log := by
  have hemits : Emits Verification.log (w.verifyMember provider code credentials)
      (w.Verified provider credentials code) := by
    unfold verifyMember
    split
    · exact Emits.ofExcept (.failed w (n := 0) ⟨le_rfl, Nat.zero_le _⟩ (Nat.zero_le _))
    · cases provider with
      | weCom => exact w.emits_verifyWecom credentials code
      | feishu => exact w.emits_verifyFeishu credentials code
  obtain ⟨l, hlog, hverified⟩ := hemits ⟨caches, []⟩
  rw [List.nil_append] at hlog
  dsimp only
  rw [hlog]
  exact ⟨hverified.within.2, hverified.within.1, hverified.granted⟩

/-- A provider that calls its tenant token invalid once and then issues the same token again. Its
response about the member has one byte. -/
def reissuing : Surroundings where
  transport log
    | .feishuOAuth .. => .ok ⟨200, [1]⟩
    | .feishuUserInfo _ => .ok ⟨200, [2]⟩
    | .feishuTenantToken .. => .ok ⟨200, [3]⟩
    | .feishuUser .. => if refreshes log = 0 then .ok ⟨200, [4]⟩ else .ok ⟨200, [5]⟩
    | _ => .error .transport
  others _ _ cache := cache
  now _ := 0
  lastInstant := maxProviderTokenTtl
  hasWhitespace _ := false
  wecomToken _ := none
  wecomUserInfo _ := none
  wecomMember _ := none
  feishuOAuth _ := some ⟨none, [10], 7200, none⟩
  feishuUserInfo _ := some ⟨0, some ⟨[11], [20, 21]⟩⟩
  feishuTenantToken _ := some ⟨0, [12], 7200⟩
  feishuMember body :=
    if body = [4] then some ⟨99991663, none⟩
    else some ⟨0, some ⟨some true, some false, some false, some false, some false⟩⟩

/-- The tenant key is in the response about the user and not in the one about the member's status,
and that one is obtained with a token that was reported invalid before it was issued again. -/
theorem reissued_token_accepted :
    let credentials : ProviderCredentials := ⟨none, some ⟨[1], [2], [20, 21]⟩, [3]⟩
    let (result, v) := reissuing.verifyMember .feishu [9] credentials ⟨fun _ => none, []⟩
    result.map (·.bytes) = .ok [11] ∧
      ∃ before between, v.log =
          before ++ .exchange (.feishuUser [12] [11]) (.ok ⟨200, [4]⟩) :: between ++
            [.exchange (.feishuUser [12] [11]) (.ok ⟨200, [5]⟩)] ∧
        reissuing.ReportsInvalid [12] (.exchange (.feishuUser [12] [11]) (.ok ⟨200, [4]⟩)) ∧
        ¬ [20, 21] <:+: ([5] : Bytes) := by
  refine ⟨rfl, [.exchange (.feishuOAuth [1] [2] [9] [3]) (.ok ⟨200, [1]⟩),
    .exchange (.feishuUserInfo [10]) (.ok ⟨200, [2]⟩),
    .exchange (.feishuTenantToken [1] [2]) (.ok ⟨200, [3]⟩), .token [12]],
    [.refresh [12], .exchange (.feishuTenantToken [1] [2]) (.ok ⟨200, [3]⟩), .token [12]], rfl,
    ⟨rfl, _, rfl, by decide⟩, by decide⟩

end Surroundings

end Yonder.Relay
