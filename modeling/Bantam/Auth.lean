import Bantam.Schema

/-! Session tokens: which ones `AuthService` issues, and what it reads back from them. -/
namespace Bantam

/-- `ALLOWED_ROLES` -/
def allowedRoles : List Role :=
  [.aspisAdmin, .aspisAuditor, .bankAdmin, .complianceAuditor, .customer, .riskAnalyst]

/-- The claims of a token, with its times in seconds. -/
structure Claims where
  sub : String
  iss : String
  aud : List String
  iat : Int
  nbf : Int
  exp : Int
  jti : String
  role : String
  amr : List String
  mfaAt : Option Int
  customerId : Option String
  deriving DecidableEq

/-- The JWT library. `header` reads `alg` and `typ`; `decode` verifies the signature, the
times, the audience and the issuer at the given instant, and an exception is `none`. -/
structure Jwt where
  encode : Claims → String → String
  header : String → Option (String × String)
  decode : Instant → String → String → Option Claims

/-- The whole seconds of an instant, as the library writes a `datetime`. -/
def epochSeconds (t : Instant) : Int := t / seconds 1

/-- `datetime.fromtimestamp(n, UTC)` -/
def fromTimestamp (n : Int) : Instant := seconds n

/-- An instant as it comes back from a claim. -/
def wholeSeconds (t : Instant) : Instant := fromTimestamp (epochSeconds t)

/-- `int(t.timestamp())`, which cuts a fraction off towards 1970. -/
def timestampSeconds (t : Instant) : Int := Int.tdiv t (seconds 1)

/-- An instant as it comes back from the claim of the second factor. -/
def cutToSeconds (t : Instant) : Instant := fromTimestamp (timestampSeconds t)

theorem tdiv_near (t : Int) {b : Int} (hb : 0 < b) :
    Int.tdiv t b * b - t < b ∧ t - Int.tdiv t b * b < b := by
  have hsplit := Int.tdiv_mul_add_tmod t b
  have hbelow := Int.tmod_lt_of_pos t hb
  have habove := Int.lt_tmod_of_pos t hb
  omega

/-- The instant that comes back is less than a second away. -/
theorem cutToSeconds_near (t : Instant) :
    cutToSeconds t - t < seconds 1 ∧ t - cutToSeconds t < seconds 1 :=
  tdiv_near t (by decide)

theorem wholeSeconds_le (t : Instant) : wholeSeconds t ≤ t := by
  have h := Int.ediv_mul_le t (b := seconds 1) (by decide)
  simpa [wholeSeconds, fromTimestamp, epochSeconds, seconds] using h

/-- The instant lies between the not-before and the expiry claims. -/
def Claims.Current (c : Claims) (now : Instant) : Prop :=
  fromTimestamp c.iat ≤ now ∧ fromTimestamp c.nbf ≤ now ∧ now < fromTimestamp c.exp

/-- What the library documents of a token that it encoded from `c`: the header, a compact
text, and that `decode` is the inverse of `encode` while the claims are current. -/
structure Jwt.Carries (jwt : Jwt) (secret : String) (c : Claims) : Prop where
  header : jwt.header (jwt.encode c secret) = some ("HS256", "JWT")
  short : (jwt.encode c secret).length ≤ 4096
  decode : ∀ now, c.Current now → jwt.decode now (jwt.encode c secret) secret = some c

structure AuthService where
  secret : String
  ttl : Int

structure SessionRevocation where
  jti : Uuid
  userId : Uuid
  expiresAt : Instant
  deriving DecidableEq

structure ParsedAccessToken where
  principal : Principal
  jti : Uuid
  expiresAt : Instant
  authMethods : List String
  mfaAt : Option Instant
  deriving DecidableEq

/-- `pwd` with some of the known factors, none twice. -/
def validMethods (methods : List String) : Bool :=
  !methods.isEmpty && "pwd" ∈ methods && methods.all (· ∈ ["pwd", "webauthn", "otp"]) &&
  methods.Nodup

/-- `{"webauthn", "otp"} & set(auth_methods)` is not empty. -/
def hasFactor (methods : List String) : Bool := methods.any (· ∈ ["webauthn", "otp"])

namespace AuthService
variable (auth : AuthService) (jwt : Jwt)

/-- The claims that `issue` signs. -/
def claims (now : Instant) (tokenId : Uuid) (principal : Principal) (authMethods : List String)
    (mfaAt : Option Instant) : Claims where
  sub := Uuid.str principal.userId
  iss := "bantam-auth"
  aud := ["bantam-api"]
  iat := epochSeconds now
  nbf := epochSeconds now
  exp := epochSeconds (now + auth.ttl)
  jti := Uuid.str tokenId
  role := principal.role.str
  amr := authMethods
  mfaAt := mfaAt.map timestampSeconds
  customerId := principal.customerId.map Uuid.str

/-- `AuthService.issue`; the text of an error is that of its `ValueError`. -/
def issue (now : Instant) (tokenId : Uuid) (principal : Principal) (authMethods : List String)
    (mfaAt : Option Instant) : Except String (String × Instant) :=
  if principal.role ∉ allowedRoles then .error "unknown role"
  else if validMethods authMethods = false then .error "invalid authentication methods"
  else if mfaAt.isSome ∧ hasFactor authMethods = false then .error "invalid MFA timestamp"
  else .ok (jwt.encode (auth.claims now tokenId principal authMethods mfaAt) auth.secret,
    now + auth.ttl)

/-- The role of that name, when it is allowed. -/
def allowedRole (name : String) : Option Role := allowedRoles.find? fun role => role.str = name

/-- What `parse_with_claims` reads from decoded claims, if they pass its checks. -/
def readClaims (c : Claims) : Option ParsedAccessToken := do
  let role ← allowedRole c.role
  let mfaAt := c.mfaAt.map fromTimestamp
  let customer := c.customerId.bind fun text => if text = "" then none else some text
  if validMethods c.amr = false then none
  else if mfaAt.isNone ≠ !hasFactor c.amr then none
  else if (role = .customer) ≠ customer.isSome then none
  else do
    let userId ← Uuid.parse c.sub
    let customerId ← match customer with
      | none => some none
      | some text => (Uuid.parse text).map some
    let jti ← Uuid.parse c.jti
    return {
      principal := { userId := userId, role := role, customerId := customerId }
      jti := jti
      expiresAt := fromTimestamp c.exp
      authMethods := c.amr
      mfaAt := mfaAt }

/-- `_reject_revoked_token` raises. -/
def revoked (revocations : List SessionRevocation) (databaseNow : Instant) (jti : Uuid) : Bool :=
  revocations.any fun r => r.jti = jti && databaseNow < r.expiresAt

/-- `AuthService.parse_with_claims`; every failure is the one `ValueError`. -/
def parseWithClaims (revocations : List SessionRevocation) (now databaseNow : Instant)
    (rawToken : String) : Except String ParsedAccessToken :=
  if 4096 < rawToken.length then .error "invalid access token"
  else if jwt.header rawToken ≠ some ("HS256", "JWT") then .error "invalid access token"
  else
    match (jwt.decode now rawToken auth.secret).bind readClaims with
    | none => .error "invalid access token"
    | some parsed =>
      if revoked revocations databaseNow parsed.jti then .error "invalid access token"
      else .ok parsed

section
variable {auth : AuthService} {jwt : Jwt} {now later databaseNow : Instant} {tokenId : Uuid}
  {principal : Principal} {methods : List String} {mfaAt : Option Instant}
  {revocations : List SessionRevocation}

theorem allowedRole_str {role : Role} (h : role ∈ allowedRoles) :
    allowedRole role.str = some role := by
  revert h
  cases role <;> decide

theorem str_ne_empty (id : Uuid) : Uuid.str id ≠ "" := by
  intro h
  have hp := Uuid.parse_str id
  rw [h] at hp
  cases hp

/-- What is read back from issued claims, when they name a factor exactly with a time and a
customer exactly with a customer's role. -/
theorem readClaims_claims (auth : AuthService) (now : Instant) (tokenId : Uuid)
    (hrole : principal.role ∈ allowedRoles)
    (hmethods : validMethods methods = true) (hmfa : mfaAt.isSome = hasFactor methods)
    (howned : principal.role = .customer ↔ principal.customerId.isSome) :
    readClaims (auth.claims now tokenId principal methods mfaAt) = some {
      principal := principal
      jti := tokenId
      expiresAt := wholeSeconds (now + auth.ttl)
      authMethods := methods
      mfaAt := mfaAt.map cutToSeconds } := by
  have hnone : mfaAt.isNone = !hasFactor methods := by
    rw [← hmfa]
    cases mfaAt <;> rfl
  have hfind := allowedRole_str hrole
  obtain ⟨userId, role, customerId⟩ := principal
  cases customerId with
  | none =>
    have hcustomer : role ≠ .customer := by simpa using howned
    simp [readClaims, claims, hfind, hmethods, hnone, hcustomer, Uuid.parse_str]
    exact ⟨rfl, rfl⟩
  | some id =>
    have hcustomer : role = .customer := by simpa using howned
    have hid : Uuid.str id ≠ "" := str_ne_empty id
    subst hcustomer
    simp [readClaims, claims, hfind, hmethods, hnone, Uuid.parse_str, hid]
    exact ⟨rfl, rfl⟩

/-- An issued token is accepted while it is current and not revoked. -/
theorem parse_issued {token : String} {expiresAt : Instant}
    (hissue : auth.issue jwt now tokenId principal methods mfaAt = .ok (token, expiresAt))
    (hjwt : jwt.Carries auth.secret (auth.claims now tokenId principal methods mfaAt))
    (hmfa : mfaAt.isSome = hasFactor methods)
    (howned : principal.role = .customer ↔ principal.customerId.isSome)
    (hcurrent : (auth.claims now tokenId principal methods mfaAt).Current later)
    (hrevoked : revoked revocations databaseNow tokenId = false) :
    auth.parseWithClaims jwt revocations later databaseNow token = .ok {
      principal := principal
      jti := tokenId
      expiresAt := wholeSeconds (now + auth.ttl)
      authMethods := methods
      mfaAt := mfaAt.map cutToSeconds } := by
  unfold issue at hissue
  split_ifs at hissue with hrole hmethods hfactor
  obtain ⟨rfl, -⟩ := Prod.mk.inj (Except.ok.inj hissue)
  have hread := readClaims_claims auth now tokenId hrole (by simpa using hmethods) hmfa howned
  have hdecode := hjwt.decode later hcurrent
  simp only [parseWithClaims, if_neg (Nat.not_lt.mpr hjwt.short), hjwt.header, ne_eq,
    not_true_eq_false, if_false, hdecode, Option.bind_some, hread, hrevoked, Bool.false_eq_true]

/-- What `parse_with_claims` asks of a principal and of a second factor, and `issue` does not. -/
def Consistent (principal : Principal) (methods : List String) (mfaAt : Option Instant) : Prop :=
  (principal.role = .customer ↔ principal.customerId.isSome) ∧
    (hasFactor methods = true → mfaAt.isSome)

/-- Issued claims that are not consistent are not read. -/
theorem readClaims_inconsistent (auth : AuthService) (now : Instant) (tokenId : Uuid)
    (hrole : principal.role ∈ allowedRoles) (h : ¬Consistent principal methods mfaAt) :
    readClaims (auth.claims now tokenId principal methods mfaAt) = none := by
  have hfind := allowedRole_str hrole
  obtain ⟨userId, role, customerId⟩ := principal
  have hcustomer : (customerId.map Uuid.str).bind (fun text => if text = "" then none else some text)
      = customerId.map Uuid.str := by
    cases customerId with
    | none => rfl
    | some id => simp [str_ne_empty]
  simp only [readClaims, claims, hfind, hcustomer, Option.bind_eq_bind, Option.bind_some]
  by_cases hmethods : validMethods methods = false
  · rw [if_pos hmethods]
  · rw [if_neg hmethods]
    by_cases hmfa : ((mfaAt.map timestampSeconds).map fromTimestamp).isNone ≠ !hasFactor methods
    · rw [if_pos hmfa]
    · rw [if_neg hmfa]
      by_cases howned : (role = .customer) ≠ (customerId.map Uuid.str).isSome
      · rw [if_pos howned]
      · exfalso
        apply h
        rw [ne_eq, not_not] at hmfa howned
        constructor
        · rw [Option.isSome_map] at howned
          exact iff_of_eq howned
        · intro hfactor
          rw [hfactor, Option.isNone_map, Option.isNone_map] at hmfa
          cases mfaAt with
          | none => cases hmfa
          | some t => rfl

end
end AuthService
end Bantam
