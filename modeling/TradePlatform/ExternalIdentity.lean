/-
# `TradePlatform.ExternalIdentity` — verified sessions and stored mapping policies

`external_identity.py`: a mapping policy says which groups of an identity provider stand
for which operator role, and is bound to a hash of its content.  An authenticator checks
that hash before it looks at a session.  `append_policy` stores a policy once for its name
and version; `latest_enabled_policy` builds the policy again from the row, with the instant
of its approval as the database renders it.
-/
import TradePlatform.KnowledgeTime
import TradePlatform.Lib.Dict
import TradePlatform.Lib.IsoText
import TradePlatform.Lib.LastWriter
import TradePlatform.Lib.Run

namespace TradePlatform.ExternalIdentity

open IsoText (Stamp)
open KnowledgeTime (stripped)

/-! ## Roles and policies -/

inductive OperatorRole where
  | viewer | researcher | dataSteward | riskReviewer | auditor | operator
deriving DecidableEq, Repr

namespace OperatorRole

def all : List OperatorRole :=
  [viewer, researcher, dataSteward, riskReviewer, auditor, operator]

def value : OperatorRole → String
  | viewer => "viewer"
  | researcher => "researcher"
  | dataSteward => "data_steward"
  | riskReviewer => "risk_reviewer"
  | auditor => "auditor"
  | operator => "operator"

def parse (text : String) : Except Exn OperatorRole :=
  match all.find? fun role => decide (role.value = text) with
  | some role => .ok role
  | none => .error (.valueError s!"'{text}' is not a valid OperatorRole")

@[simp] theorem parse_value (role : OperatorRole) : parse role.value = .ok role := by
  cases role <;> rfl

theorem value_injective : Function.Injective value := by
  intro role other h
  exact Except.ok.inj (by rw [← parse_value role, h, parse_value])

end OperatorRole

/-- A `datetime` with the text of it: an aware one, or a naive one. -/
inductive ApprovalTime where
  | aware (stamp : Stamp)
  | naive (text : List Char)
deriving DecidableEq

def ApprovalTime.isoformat : ApprovalTime → List Char
  | .aware stamp => stamp.isoformat
  | .naive text => text

structure PolicyPayload where
  policyName : String
  version : String
  issuer : String
  audience : String
  /-- The groups in order, each with the text of its role. -/
  groupRoleMap : List (String × String)
  requiredAuthenticationMethods : List String
  maximumSessionAgeSeconds : ℤ
  approvedBy : String
  approvedAt : List Char
  enabled : Bool
deriving DecidableEq

structure ExternalIdentityMappingPolicy (Digest : Type) where
  policyId : UUID
  policyName : String
  version : String
  issuer : String
  audience : String
  groupRoleMap : Dict String OperatorRole
  requiredAuthenticationMethods : List String
  maximumSessionAgeSeconds : ℤ
  approvedBy : String
  approvedAt : ApprovalTime
  enabled : Bool
  contentHash : Digest

def roleTexts (roles : Dict String OperatorRole) : List (String × String) :=
  roles.rows.map fun item => (item.1, item.2.value)

def ExternalIdentityMappingPolicy.payload {Digest : Type}
    (policy : ExternalIdentityMappingPolicy Digest) : PolicyPayload where
  policyName := policy.policyName
  version := policy.version
  issuer := policy.issuer
  audience := policy.audience
  groupRoleMap := sortBy Prod.fst (roleTexts policy.groupRoleMap)
  requiredAuthenticationMethods := sortedSet id policy.requiredAuthenticationMethods
  maximumSessionAgeSeconds := policy.maximumSessionAgeSeconds
  approvedBy := policy.approvedBy
  approvedAt := policy.approvedAt.isoformat
  enabled := policy.enabled

structure SplitResult where
  scheme : String
  netloc : String
  username : Option String
  password : Option String
  query : String
  fragment : String
deriving DecidableEq

/-- A row of `external_identity_mapping_policies`: the mapping as a JSON object in the order
the database keeps it, the methods as an array, the approval as an instant. -/
structure ExternalIdentityPolicyRow (Digest : Type) where
  policyId : UUID
  policyName : String
  version : String
  issuer : String
  audience : String
  groupRoleMap : List (String × String)
  requiredAuthenticationMethods : List String
  maximumSessionAgeSeconds : ℤ
  approvedBy : String
  approvedAt : ℤ
  enabled : Bool
  contentHash : Digest

/-- What the module uses: the hash of a payload, `urlsplit`, and whether the columns and
their indexes take the values of a row (a text with a NUL character, or too long a one,
they do not). -/
structure Env (Digest : Type) where
  hash : PolicyPayload → Digest
  urlsplit : String → Except Exn SplitResult
  stores : ExternalIdentityPolicyRow Digest → Bool

variable {Digest : Type} [DecidableEq Digest]

/-! ## Validation -/

def policyInvalid : Exn := .externalIdentityError "external_identity_policy_invalid"

def hashMismatch : Exn := .externalIdentityError "external_identity_policy_hash_mismatch"

def ValidIssuer (issuer : String) (parsed : SplitResult) : Prop :=
  parsed.scheme = "https" ∧ parsed.netloc ≠ "" ∧ parsed.username = none ∧
  parsed.password = none ∧ parsed.query = "" ∧ parsed.fragment = "" ∧
  issuer.toList.getLast? ≠ some '/'

instance (issuer : String) (parsed : SplitResult) : Decidable (ValidIssuer issuer parsed) :=
  inferInstanceAs (Decidable (_ ∧ _))

/-- What `_validate_policy` asks for, except that the time of approval is aware. -/
def ExternalIdentityMappingPolicy.Valid (policy : ExternalIdentityMappingPolicy Digest)
    (parsed : SplitResult) : Prop :=
  blank policy.policyName = false ∧ blank policy.version = false ∧
  ValidIssuer policy.issuer parsed ∧ blank policy.audience = false ∧
  policy.groupRoleMap.rows ≠ [] ∧ (∀ item ∈ policy.groupRoleMap.rows, blank item.1 = false) ∧
  policy.requiredAuthenticationMethods ≠ [] ∧
  (∀ value ∈ policy.requiredAuthenticationMethods, blank value = false) ∧
  60 ≤ policy.maximumSessionAgeSeconds ∧ policy.maximumSessionAgeSeconds ≤ 86400 ∧
  blank policy.approvedBy = false

instance (policy : ExternalIdentityMappingPolicy Digest) (parsed : SplitResult) :
    Decidable (policy.Valid parsed) :=
  inferInstanceAs (Decidable (_ ∧ _))

/-- `_validate_policy`, with the time of approval that it found to be aware. -/
def validatePolicy (env : Env Digest) (policy : ExternalIdentityMappingPolicy Digest) :
    Except Exn Stamp := do
  let parsed ← env.urlsplit policy.issuer
  match policy.approvedAt with
  | .aware approvedAt => if policy.Valid parsed then .ok approvedAt else .error policyInvalid
  | .naive _ => .error policyInvalid

/-! ## Sessions -/

structure VerifiedExternalSession where
  issuer : String
  subject : String
  audiences : List String
  issuedAt : DateTime
  expiresAt : DateTime
  sessionId : String
  groups : List String
  authenticationMethods : List String

structure OperatorPrincipal where
  subject : String
  role : OperatorRole
  authenticationMethod : String
  sessionIdHash : String
  mappingPolicyId : UUID
  mappingPolicyVersion : String
deriving DecidableEq

/-- An authenticator without its policy: the verifier of tokens, the time its clock gives,
the skew it allows (in microseconds), `hashlib.sha256` of a text, and `is_revoked` where
there is a revocation store. -/
structure ExternalSessionAuthenticator where
  verifyToken : String → Except Exn VerifiedExternalSession
  now : DateTime
  clockSkew : ℤ
  sha256 : String → String
  isRevoked : Option (String → Except Exn Bool)

def deny {α : Type} (message : String) : Except Exn α := .error (.permissionError message)

/-- `authorization.partition(" ")`, as the scheme, whether there is a separator, and the rest. -/
def partitionSpace (text : String) : String × Bool × String :=
  match text.toList.dropWhile (· ≠ ' ') with
  | [] => (text, false, "")
  | _ :: tail => (String.ofList (text.toList.takeWhile (· ≠ ' ')), true, String.ofList tail)

def bearerToken : Option String → Except Exn String
  | none => deny "external_session_missing"
  | some authorization =>
      let (scheme, separator, token) := partitionSpace authorization
      if separator = false ∨ scheme ≠ "Bearer" ∨ token = "" ∨ stripped token ≠ token ∨
          ' ' ∈ token.toList then
        deny "external_session_malformed"
      else .ok token

namespace ExternalSessionAuthenticator

variable (authenticator : ExternalSessionAuthenticator)

/-- The checks of `_validate_session` on the policy and the three instants. -/
def validateTimes (policy : ExternalIdentityMappingPolicy Digest) (approvedAt : Stamp)
    (session : VerifiedExternalSession) (now issuedAt expiresAt : ℤ) : Except Exn Unit :=
  if policy.enabled = false then deny "external_identity_policy_disabled"
  else if approvedAt.instant > now + authenticator.clockSkew then
    deny "external_identity_policy_not_yet_approved"
  else if session.issuer ≠ policy.issuer ∨ policy.audience ∉ session.audiences then
    deny "external_session_trust_mismatch"
  else if blank session.subject = true ∨ blank session.sessionId = true then
    deny "external_session_identity_missing"
  else if issuedAt > now + authenticator.clockSkew ∨
      expiresAt ≤ now - authenticator.clockSkew then
    deny "external_session_time_invalid"
  else if now - issuedAt > policy.maximumSessionAgeSeconds * 10 ^ 6 + authenticator.clockSkew then
    deny "external_session_too_old"
  else if ∃ method ∈ policy.requiredAuthenticationMethods,
      method ∉ session.authenticationMethods then
    deny "external_session_authentication_method_insufficient"
  else .ok ()

def checkRevoked (session : VerifiedExternalSession) : Except Exn Unit :=
  match authenticator.isRevoked with
  | none => .ok ()
  | some isRevoked => do
      if ← isRevoked (authenticator.sha256 session.sessionId) then
        deny "external_session_revoked"

def validateSession (env : Env Digest) (policy : ExternalIdentityMappingPolicy Digest)
    (session : VerifiedExternalSession) : Except Exn Unit := do
  let approvedAt ← validatePolicy env policy
  if env.hash policy.payload ≠ policy.contentHash then
    deny "external_identity_policy_hash_mismatch"
  else
    match authenticator.now, session.issuedAt, session.expiresAt with
    | .aware now, .aware issuedAt, .aware expiresAt =>
        authenticator.validateTimes policy approvedAt session now issuedAt expiresAt
        authenticator.checkRevoked session
    | _, _, _ => deny "external_session_time_not_aware"

def mappedRoles (policy : ExternalIdentityMappingPolicy Digest)
    (session : VerifiedExternalSession) : List OperatorRole :=
  OperatorRole.all.filter fun role =>
    session.groups.any fun group => decide (Dict.get? policy.groupRoleMap group = some role)

def verify (env : Env Digest) (policy : ExternalIdentityMappingPolicy Digest)
    (authorization : Option String) : Except Exn OperatorPrincipal := do
  let token ← bearerToken authorization
  match authenticator.verifyToken token with
  | .error _ => deny "external_session_verification_failed"
  | .ok session =>
      authenticator.validateSession env policy session
      match mappedRoles policy session with
      | [role] =>
          return {
            subject := stripped session.subject
            role
            authenticationMethod := "verified_external_session"
            sessionIdHash := authenticator.sha256 session.sessionId
            mappingPolicyId := policy.policyId
            mappingPolicyVersion := policy.version }
      | [] => deny "external_session_role_unmapped"
      | _ :: _ :: _ => deny "external_session_role_ambiguous"

end ExternalSessionAuthenticator

/-! ## The store of policies -/

/-- The order in which `JSONB` keeps the keys of an object: by their length in bytes, then
by their bytes. -/
def jsonbOrder (items : List (String × String)) : List (String × String) :=
  sortBy (fun item => toLex (item.1.utf8ByteSize, item.1)) items

/-- What `INSERT` writes of a policy approved at `approvedAt`. -/
def ExternalIdentityMappingPolicy.row (policy : ExternalIdentityMappingPolicy Digest)
    (approvedAt : Stamp) : ExternalIdentityPolicyRow Digest where
  policyId := policy.policyId
  policyName := policy.policyName
  version := policy.version
  issuer := policy.issuer
  audience := policy.audience
  groupRoleMap := jsonbOrder (roleTexts policy.groupRoleMap)
  requiredAuthenticationMethods := sortedSet id policy.requiredAuthenticationMethods
  maximumSessionAgeSeconds := policy.maximumSessionAgeSeconds
  approvedBy := policy.approvedBy
  approvedAt := approvedAt.instant
  enabled := policy.enabled
  contentHash := policy.contentHash

def rolesFromItems (roles : Dict String OperatorRole) :
    List (String × String) → Except Exn (Dict String OperatorRole)
  | [] => .ok roles
  | item :: items => do
      let role ← OperatorRole.parse item.2
      rolesFromItems (roles.set item.1 role) items

/-- `_policy_from_row`.  An instant that no `datetime` is fails in the driver. -/
def policyFromRow (row : ExternalIdentityPolicyRow Digest) :
    Except Exn (ExternalIdentityMappingPolicy Digest) :=
  match Stamp.utc? row.approvedAt with
  | none => .error transactionFailed
  | some approvedAt => do
      let groupRoleMap ← rolesFromItems Dict.empty row.groupRoleMap
      return {
        policyId := row.policyId
        policyName := row.policyName
        version := row.version
        issuer := row.issuer
        audience := row.audience
        groupRoleMap
        requiredAuthenticationMethods := row.requiredAuthenticationMethods
        maximumSessionAgeSeconds := row.maximumSessionAgeSeconds
        approvedBy := row.approvedBy
        approvedAt := .aware approvedAt
        enabled := row.enabled
        contentHash := row.contentHash }

abbrev PolicyTable (Digest : Type) := Table (@ExternalIdentityPolicyRow.policyId Digest)

def lookup (table : PolicyTable Digest) (policyName version : String) :
    Option (ExternalIdentityPolicyRow Digest) :=
  table.rows.find? fun row => decide (row.policyName = policyName ∧ row.version = version)

def IssuerStored (issuer : String) : Prop :=
  "https://".toList.isPrefixOf issuer.toList = true ∧
  let rest := issuer.toList.drop 8
  2 ≤ rest.length ∧ '?' ∉ rest ∧ '#' ∉ rest ∧ rest.head? ≠ some '/' ∧ rest.getLast? ≠ some '/'

instance (issuer : String) : Decidable (IssuerStored issuer) :=
  inferInstanceAs (Decidable (_ ∧ _ ∧ _ ∧ _ ∧ _ ∧ _))

/-- The constraints of the table that `_validate_policy` has not checked already. -/
def Insertable (env : Env Digest) (table : PolicyTable Digest)
    (row : ExternalIdentityPolicyRow Digest) : Prop :=
  env.stores row = true ∧ IssuerStored row.issuer ∧
  table.find? row.policyId = none ∧
  (∀ other ∈ table.rows, other.contentHash ≠ row.contentHash)

instance (env : Env Digest) (table : PolicyTable Digest)
    (row : ExternalIdentityPolicyRow Digest) : Decidable (Insertable env table row) :=
  inferInstanceAs (Decidable (_ ∧ _))

/-- `except (ExternalIdentityError, PersistenceError): raise`, and any other error becomes a
`PersistenceError`. -/
def persisting {α : Type} (message : String) : Except Exn α → Except Exn α
  | .ok a => .ok a
  | .error (.externalIdentityError m) => .error (.externalIdentityError m)
  | .error (.persistenceError m) => .error (.persistenceError m)
  | .error _ => .error (.persistenceError message)

def insertPolicy (env : Env Digest) (table : PolicyTable Digest)
    (policy : ExternalIdentityMappingPolicy Digest) (approvedAt : Stamp) :
    Except Exn (ExternalIdentityMappingPolicy Digest × PolicyTable Digest) :=
  match lookup table policy.policyName policy.version with
  | some row => do
      let restored ← policyFromRow row
      if restored.contentHash ≠ policy.contentHash then
        .error (.externalIdentityError "external_identity_policy_version_conflict")
      else return (restored, table)
  | none =>
      if Insertable env table (policy.row approvedAt) then
        return (policy, table.put (policy.row approvedAt))
      else .error transactionFailed

def appendPolicy (env : Env Digest) (table : PolicyTable Digest)
    (policy : ExternalIdentityMappingPolicy Digest) :
    Except Exn (ExternalIdentityMappingPolicy Digest × PolicyTable Digest) := do
  let approvedAt ← validatePolicy env policy
  if env.hash policy.payload ≠ policy.contentHash then .error hashMismatch
  else
    persisting "external_identity_policy_persistence_uncertain"
      (insertPolicy env table policy approvedAt)

def latestEnabledRow (table : PolicyTable Digest) (policyName : String) :
    Option (ExternalIdentityPolicyRow Digest) :=
  LastWriter.best (fun row => toLex (row.approvedAt, row.policyId))
    (table.rows.filter fun row => decide (row.policyName = policyName ∧ row.enabled = true))

def latestEnabledPolicy (table : PolicyTable Digest) (policyName : String) :
    Except Exn (Option (ExternalIdentityMappingPolicy Digest)) :=
  if blank policyName = true then .error (.externalIdentityError "policy_name_required")
  else
    persisting "external_identity_policy_read_uncertain"
      (match latestEnabledRow table policyName with
        | none => .ok none
        | some row => some <$> policyFromRow row)

/-! ## Runs of the store -/

/-- The table, and the policies that `append_policy` accepted. -/
structure PolicyHistory (Digest : Type) where
  table : PolicyTable Digest
  accepted : List (ExternalIdentityMappingPolicy Digest)

def PolicyHistory.empty : PolicyHistory Digest := ⟨.empty _, []⟩

/-- One call of `append_policy`; a refused one is rolled back. -/
def step (env : Env Digest) (history : PolicyHistory Digest)
    (policy : ExternalIdentityMappingPolicy Digest) : PolicyHistory Digest :=
  match appendPolicy env history.table policy with
  | .ok (_, table) => ⟨table, history.accepted ++ [policy]⟩
  | .error _ => history

/-- The reloaded policy passes the hash check, and every authenticator accepts under it just
the sessions that it accepts under the appended one, with the same role. -/
def RoundTrips (env : Env Digest) (policy reloaded : ExternalIdentityMappingPolicy Digest) :
    Prop :=
  env.hash reloaded.payload = reloaded.contentHash ∧
  ∀ (authenticator : ExternalSessionAuthenticator) (authorization : Option String),
    (authenticator.verify env reloaded authorization).toOption.map OperatorPrincipal.role =
      (authenticator.verify env policy authorization).toOption.map OperatorPrincipal.role

def ExternalIdentityMappingPolicy.ApprovedInUtc
    (policy : ExternalIdentityMappingPolicy Digest) : Prop :=
  ∃ stamp, policy.approvedAt = .aware stamp ∧ stamp.offset = 0

end TradePlatform.ExternalIdentity
