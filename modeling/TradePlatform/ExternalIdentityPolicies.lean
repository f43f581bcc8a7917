/-
# `TradePlatform.ExternalIdentityPolicies` — what a reloaded mapping policy authenticates

Two policies of one content decide every session alike.  A row gives back the content of the
policy it was written for, but for the text of the approval, which is that of the instant in
UTC; so a stored policy is what was appended exactly when its clock was set to UTC, and
otherwise it fails its own hash and authenticates nobody.
-/
import TradePlatform.ExternalIdentity

namespace TradePlatform.ExternalIdentity

open IsoText (Stamp)

variable {Digest : Type} [DecidableEq Digest]

section Proofs

variable {env : Env Digest} {policy other reloaded : ExternalIdentityMappingPolicy Digest}
  {history : PolicyHistory Digest} {table table' : PolicyTable Digest}
  {row : ExternalIdentityPolicyRow Digest} {stamp : Stamp}

/-! ## Policies of one content -/

structure SameContent (policy other : ExternalIdentityMappingPolicy Digest) : Prop where
  payload : policy.payload = other.payload
  approvedAt : policy.approvedAt = other.approvedAt
  contentHash : policy.contentHash = other.contentHash

namespace SameContent

omit [DecidableEq Digest] in
theorem rows_perm (h : policy.payload = other.payload) :
    policy.groupRoleMap.rows.Perm other.groupRoleMap.rows := by
  have hsorted : sortBy Prod.fst (roleTexts policy.groupRoleMap) =
      sortBy Prod.fst (roleTexts other.groupRoleMap) := congrArg PolicyPayload.groupRoleMap h
  have htexts : (roleTexts policy.groupRoleMap).Perm (roleTexts other.groupRoleMap) :=
    ((sortBy_perm Prod.fst _).symm.trans (.of_eq hsorted)).trans (sortBy_perm _ _)
  refine (List.map_perm_map_iff fun a b hab => ?_).mp htexts
  rw [Prod.mk.injEq] at hab
  exact Prod.ext hab.1 (OperatorRole.value_injective hab.2)

omit [DecidableEq Digest] in
theorem get?_eq (h : policy.payload = other.payload) (group : String) :
    Dict.get? policy.groupRoleMap group = Dict.get? other.groupRoleMap group :=
  Dict.get?_of_perm (rows_perm h) group

omit [DecidableEq Digest] in
theorem mem_methods (h : policy.payload = other.payload) (method : String) :
    method ∈ policy.requiredAuthenticationMethods ↔
      method ∈ other.requiredAuthenticationMethods := by
  have hsorted : sortedSet id policy.requiredAuthenticationMethods =
      sortedSet id other.requiredAuthenticationMethods :=
    congrArg PolicyPayload.requiredAuthenticationMethods h
  have hmem : ∀ methods : List String, method ∈ sortedSet id methods ↔ method ∈ methods :=
    fun _ => mem_sortedSet
  rw [← hmem, hsorted, hmem]

omit [DecidableEq Digest] in
theorem valid_iff (h : policy.payload = other.payload) (parsed : SplitResult) :
    policy.Valid parsed ↔ other.Valid parsed := by
  have hname : policy.policyName = other.policyName := congrArg PolicyPayload.policyName h
  have hversion : policy.version = other.version := congrArg PolicyPayload.version h
  have hissuer : policy.issuer = other.issuer := congrArg PolicyPayload.issuer h
  have haudience : policy.audience = other.audience := congrArg PolicyPayload.audience h
  have hage : policy.maximumSessionAgeSeconds = other.maximumSessionAgeSeconds :=
    congrArg PolicyPayload.maximumSessionAgeSeconds h
  have hby : policy.approvedBy = other.approvedBy := congrArg PolicyPayload.approvedBy h
  have hrows : policy.groupRoleMap.rows = [] ↔ other.groupRoleMap.rows = [] := by
    rw [← List.length_eq_zero_iff, (rows_perm h).length_eq, List.length_eq_zero_iff]
  have hmethods : policy.requiredAuthenticationMethods = [] ↔
      other.requiredAuthenticationMethods = [] := by
    simp only [List.eq_nil_iff_forall_not_mem, mem_methods h]
  unfold ExternalIdentityMappingPolicy.Valid
  simp only [hname, hversion, hissuer, haudience, hage, hby, ne_eq, hrows, hmethods,
    (rows_perm h).mem_iff, mem_methods h]

omit [DecidableEq Digest] in
theorem validatePolicy_eq (h : SameContent policy other) :
    validatePolicy env policy = validatePolicy env other := by
  have hissuer : policy.issuer = other.issuer := congrArg PolicyPayload.issuer h.payload
  unfold validatePolicy
  simp only [hissuer, h.approvedAt, valid_iff h.payload]

variable {authenticator : ExternalSessionAuthenticator} {session : VerifiedExternalSession}

omit [DecidableEq Digest] in
theorem validateTimes_eq (h : policy.payload = other.payload) (now issuedAt expiresAt : ℤ) :
    authenticator.validateTimes policy stamp session now issuedAt expiresAt =
      authenticator.validateTimes other stamp session now issuedAt expiresAt := by
  have henabled : policy.enabled = other.enabled := congrArg PolicyPayload.enabled h
  have hissuer : policy.issuer = other.issuer := congrArg PolicyPayload.issuer h
  have haudience : policy.audience = other.audience := congrArg PolicyPayload.audience h
  have hage : policy.maximumSessionAgeSeconds = other.maximumSessionAgeSeconds :=
    congrArg PolicyPayload.maximumSessionAgeSeconds h
  unfold ExternalSessionAuthenticator.validateTimes
  simp only [henabled, hissuer, haudience, hage, mem_methods h]

theorem validateSession_eq (h : SameContent policy other) :
    authenticator.validateSession env policy session =
      authenticator.validateSession env other session := by
  unfold ExternalSessionAuthenticator.validateSession
  simp only [validatePolicy_eq h, h.payload, h.contentHash, validateTimes_eq h.payload]

omit [DecidableEq Digest] in
theorem mappedRoles_eq (h : policy.payload = other.payload) :
    ExternalSessionAuthenticator.mappedRoles policy session =
      ExternalSessionAuthenticator.mappedRoles other session := by
  unfold ExternalSessionAuthenticator.mappedRoles
  simp only [get?_eq h]

theorem role_verify (h : SameContent policy other) (authorization : Option String) :
    (authenticator.verify env policy authorization).toOption.map OperatorPrincipal.role =
      (authenticator.verify env other authorization).toOption.map OperatorPrincipal.role := by
  unfold ExternalSessionAuthenticator.verify
  cases bearerToken authorization with
  | error e => rfl
  | ok token =>
      simp only [Except.ok_bind]
      cases authenticator.verifyToken token with
      | error e => rfl
      | ok session =>
          simp only [validateSession_eq h, mappedRoles_eq h.payload]
          cases authenticator.validateSession env other session with
          | error e => rfl
          | ok _ =>
              simp only [Except.ok_bind]
              split <;> rfl

end SameContent

/-! ## Reading a row back -/

theorem rolesFromItems_texts {items : List (String × OperatorRole)} {roles : Dict String OperatorRole}
    (hnodup : ((roles.rows ++ items).map Prod.fst).Nodup) :
    ∃ roles', rolesFromItems roles (items.map fun item => (item.1, item.2.value)) = .ok roles' ∧
      roles'.rows = roles.rows ++ items := by
  induction items generalizing roles with
  | nil => exact ⟨roles, rfl, (List.append_nil _).symm⟩
  | cons item items ih =>
      have hnew : roles.find? item.1 = none := by
        refine Table.find?_eq_none.mpr fun kept hkept heq => ?_
        rw [List.map_append, List.nodup_append] at hnodup
        exact hnodup.2.2 _ (List.mem_map_of_mem hkept) _
          (List.mem_map_of_mem List.mem_cons_self) heq
      have hrows : (Dict.set roles item.1 item.2).rows = roles.rows ++ [item] :=
        Table.rows_put_of_none hnew
      have hnodup' : (((Dict.set roles item.1 item.2).rows ++ items).map Prod.fst).Nodup := by
        rw [hrows, List.append_assoc, List.singleton_append]
        exact hnodup
      obtain ⟨roles', hread, hroles⟩ := ih hnodup'
      refine ⟨roles', ?_, by rw [hroles, hrows, List.append_assoc, List.singleton_append]⟩
      rw [List.map_cons, rolesFromItems, OperatorRole.parse_value, Except.ok_bind]
      exact hread

theorem rolesFromItems_jsonb (roles : Dict String OperatorRole) :
    ∃ roles', rolesFromItems Dict.empty (jsonbOrder (roleTexts roles)) = .ok roles' ∧
      roles'.rows.Perm roles.rows := by
  let sorted := sortBy (fun item : String × OperatorRole =>
    toLex (item.1.utf8ByteSize, item.1)) roles.rows
  have htexts : jsonbOrder (roleTexts roles) =
      sorted.map fun item => (item.1, item.2.value) :=
    (map_sortBy _ (fun _ => rfl) roles.rows).symm
  have hperm : sorted.Perm roles.rows := sortBy_perm _ _
  have hnodup : (((Dict.empty : Dict String OperatorRole).rows ++ sorted).map Prod.fst).Nodup :=
    (hperm.map Prod.fst).nodup_iff.mpr roles.nodup
  obtain ⟨roles', hread, hrows⟩ := rolesFromItems_texts hnodup
  refine ⟨roles', htexts ▸ hread, ?_⟩
  rw [hrows]
  exact hperm

omit [DecidableEq Digest] in
theorem policyFromRow_row (policy : ExternalIdentityMappingPolicy Digest) {utc : Stamp}
    (hutc : Stamp.utc? stamp.instant = some utc) :
    ∃ reloaded, policyFromRow (policy.row stamp) = .ok reloaded ∧
      reloaded.approvedAt = .aware utc ∧ reloaded.contentHash = policy.contentHash ∧
      reloaded.payload = { policy.payload with approvedAt := utc.isoformat } := by
  obtain ⟨roles', hread, hperm⟩ := rolesFromItems_jsonb policy.groupRoleMap
  have hinstant : Stamp.utc? (policy.row stamp).approvedAt = some utc := hutc
  have hitems : rolesFromItems Dict.empty (policy.row stamp).groupRoleMap = .ok roles' := hread
  unfold policyFromRow
  rw [hinstant]
  simp only [hitems, Except.ok_bind]
  refine ⟨_, rfl, rfl, rfl, ?_⟩
  have hroles : sortBy Prod.fst (roleTexts roles') =
      sortBy Prod.fst (roleTexts policy.groupRoleMap) := by
    refine sortBy_congr ?_ (hperm.map _)
    intro a ha b hb hab
    have hnodup : ((roleTexts roles').map Prod.fst).Nodup := by
      rw [roleTexts, List.map_map]
      exact roles'.nodup
    exact List.inj_on_of_nodup_map hnodup ha hb hab
  have hmethods : sortedSet id (sortedSet id policy.requiredAuthenticationMethods) =
      sortedSet id policy.requiredAuthenticationMethods :=
    sortedSet_congr Function.injective_id fun _ => mem_sortedSet
  show PolicyPayload.mk _ _ _ _ _ _ _ _ _ _ = _
  simp only [ExternalIdentityMappingPolicy.row, hroles, hmethods, ApprovalTime.isoformat,
    ExternalIdentityMappingPolicy.payload]

omit [DecidableEq Digest] in
theorem contentHash_of_read (h : policyFromRow row = .ok reloaded) :
    reloaded.contentHash = row.contentHash := by
  unfold policyFromRow at h
  split at h
  · cases h
  · obtain ⟨roles, _, h⟩ := Except.bind_eq_ok.mp h
    cases h
    rfl

/-! ## What is stored of an accepted policy -/

theorem persisting_eq_ok {α : Type} {message : String} {x : Except Exn α} {a : α} :
    persisting message x = .ok a ↔ x = .ok a := by
  unfold persisting
  split <;> simp

omit [DecidableEq Digest] in
theorem of_validatePolicy (h : validatePolicy env policy = .ok stamp) :
    policy.approvedAt = .aware stamp ∧ blank policy.policyName = false := by
  obtain ⟨parsed, _, h⟩ := Except.bind_eq_ok.mp h
  split at h
  · rename_i approvedAt haware
    split at h
    · rename_i hvalid
      cases h
      exact ⟨haware, hvalid.1⟩
    · cases h
  · cases h

/-- All that an accepted call does: it finds the version stored with the hash of the policy,
or it inserts the row of the policy. -/
theorem appendPolicy_eq_ok {restored : ExternalIdentityMappingPolicy Digest}
    (h : appendPolicy env table policy = .ok (restored, table')) :
    ∃ stamp, validatePolicy env policy = .ok stamp ∧ env.hash policy.payload = policy.contentHash ∧
      ((∃ row ∈ table.rows, row.policyName = policy.policyName ∧ row.version = policy.version ∧
          row.contentHash = policy.contentHash ∧ table' = table) ∨
        lookup table policy.policyName policy.version = none ∧
          table'.rows = table.rows ++ [policy.row stamp]) := by
  obtain ⟨stamp, hvalid, h⟩ := Except.bind_eq_ok.mp h
  obtain ⟨hhash, h⟩ := Except.of_ite_error h
  have hinsert := persisting_eq_ok.mp h
  refine ⟨stamp, hvalid, not_not.mp hhash, ?_⟩
  unfold insertPolicy at hinsert
  split at hinsert
  · rename_i row hlookup
    obtain ⟨read, hread, hinsert⟩ := Except.bind_eq_ok.mp hinsert
    obtain ⟨hsame, hinsert⟩ := Except.of_ite_error hinsert
    cases hinsert
    have hkey : row.policyName = policy.policyName ∧ row.version = policy.version := by
      simpa using List.find?_some hlookup
    exact .inl ⟨row, List.mem_of_find?_eq_some hlookup, hkey.1, hkey.2,
      (contentHash_of_read hread).symm.trans (not_not.mp hsame), rfl⟩
  · rename_i hlookup
    split at hinsert
    · rename_i hfree
      cases hinsert
      exact .inr ⟨hlookup, Table.rows_put_of_none hfree.2.2.1⟩
    · cases hinsert

/-- The version of every accepted policy is stored with its hash, every row was inserted for
an accepted policy, and no version has two rows. -/
structure Recorded (env : Env Digest) (history : PolicyHistory Digest) : Prop where
  valid : ∀ policy ∈ history.accepted, ∃ stamp, validatePolicy env policy = .ok stamp
  hashed : ∀ policy ∈ history.accepted, env.hash policy.payload = policy.contentHash
  stored : ∀ policy ∈ history.accepted, ∃ row ∈ history.table.rows,
    row.policyName = policy.policyName ∧ row.version = policy.version ∧
      row.contentHash = policy.contentHash
  inserted : ∀ row ∈ history.table.rows, ∃ policy ∈ history.accepted, ∃ stamp,
    policy.approvedAt = .aware stamp ∧ row = policy.row stamp
  unique : ∀ row ∈ history.table.rows, ∀ other ∈ history.table.rows,
    row.policyName = other.policyName → row.version = other.version → row = other

theorem Recorded.step (h : Recorded env history)
    (policy : ExternalIdentityMappingPolicy Digest) : Recorded env (step env history policy) := by
  unfold ExternalIdentity.step
  split
  swap
  · exact h
  rename_i restored table' happend
  obtain ⟨stamp, hvalid, hhash, hcases⟩ := appendPolicy_eq_ok happend
  have hvalid' : ∀ p ∈ history.accepted ++ [policy], ∃ stamp, validatePolicy env p = .ok stamp :=
    List.forall_mem_append.mpr ⟨h.valid, List.forall_mem_singleton.mpr ⟨stamp, hvalid⟩⟩
  have hhash' : ∀ p ∈ history.accepted ++ [policy], env.hash p.payload = p.contentHash :=
    List.forall_mem_append.mpr ⟨h.hashed, List.forall_mem_singleton.mpr hhash⟩
  rcases hcases with ⟨row, hrow, hname, hversion, hsame, rfl⟩ | ⟨hlookup, hrows⟩
  · refine ⟨hvalid', hhash', ?_, fun row hrow => ?_, h.unique⟩
    · exact List.forall_mem_append.mpr ⟨h.stored,
        List.forall_mem_singleton.mpr ⟨row, hrow, hname, hversion, hsame⟩⟩
    · obtain ⟨p, hp, hrow⟩ := h.inserted row hrow
      exact ⟨p, List.mem_append_left _ hp, hrow⟩
  · have hnew : ∀ row ∈ history.table.rows, row.policyName = policy.policyName →
        row.version ≠ policy.version := by
      intro row hrow hname hversion
      have hnone := List.find?_eq_none.mp hlookup row hrow
      exact hnone (decide_eq_true ⟨hname, hversion⟩)
    have hmem : ∀ row, row ∈ table'.rows ↔ row ∈ history.table.rows ∨ row = policy.row stamp := by
      intro row
      rw [hrows, List.mem_append, List.mem_singleton]
    refine ⟨hvalid', hhash', fun p hp => ?_, fun row hrow => ?_, fun row hrow other hother => ?_⟩
    · rcases List.mem_append.mp hp with hp | hp
      · obtain ⟨row, hrow, hkey⟩ := h.stored p hp
        exact ⟨row, (hmem row).mpr (.inl hrow), hkey⟩
      · rw [List.mem_singleton.mp hp]
        exact ⟨policy.row stamp, (hmem _).mpr (.inr rfl), rfl, rfl, rfl⟩
    · rcases (hmem row).mp hrow with hrow | rfl
      · obtain ⟨p, hp, hrow⟩ := h.inserted row hrow
        exact ⟨p, List.mem_append_left _ hp, hrow⟩
      · exact ⟨policy, List.mem_append_right _ (List.mem_singleton_self _), stamp,
          (of_validatePolicy hvalid).1, rfl⟩
    · intro hname hversion
      rcases (hmem row).mp hrow with hrow | rfl <;> rcases (hmem other).mp hother with hother | rfl
      · exact h.unique row hrow other hother hname hversion
      · exact absurd hversion (hnew row hrow hname)
      · exact absurd hversion.symm (hnew other hother hname.symm)
      · rfl

theorem recorded_run (env : Env Digest) (calls : List (ExternalIdentityMappingPolicy Digest)) :
    Recorded env (Run.exec (step env) .empty calls) := by
  refine Run.exec_inv (fun history policy h => h.step policy) calls ⟨?_, ?_, ?_, ?_, ?_⟩
  all_goals exact fun _ h => absurd h List.not_mem_nil

/-! ## The reloaded policy -/

omit [DecidableEq Digest] in
theorem mem_of_latestEnabledRow {policyName : String}
    (h : latestEnabledRow table policyName = some row) :
    row ∈ table.rows ∧ row.policyName = policyName := by
  obtain ⟨hmem, hkey⟩ := List.mem_filter.mp (LastWriter.best_eq_some h).1
  exact ⟨hmem, (of_decide_eq_true hkey).1⟩

omit [DecidableEq Digest] in
theorem latestEnabledPolicy_eq_ok {policyName : String} (hname : blank policyName = false)
    (h : latestEnabledRow table policyName = some row) :
    latestEnabledPolicy table policyName = .ok (some reloaded) ↔
      policyFromRow row = .ok reloaded := by
  unfold latestEnabledPolicy
  rw [if_neg (by simp [hname]), persisting_eq_ok, h]
  show some <$> policyFromRow row = .ok (some reloaded) ↔ _
  rcases policyFromRow row with e | read
  · exact iff_of_false (fun h => nomatch h) (fun h => nomatch h)
  · exact ⟨fun h => congrArg Except.ok (Option.some.inj (Except.ok.inj h)),
      fun h => congrArg (Except.map some) h⟩

omit [DecidableEq Digest] in
theorem Recorded.row_eq (h : Recorded env history) (hinj : Function.Injective env.hash)
    (hp : policy ∈ history.accepted) (hrow : row ∈ history.table.rows)
    (hname : row.policyName = policy.policyName) (hversion : row.version = policy.version) :
    ∃ (origin : ExternalIdentityMappingPolicy Digest) (stamp : Stamp),
      row = origin.row stamp ∧ origin.payload = policy.payload ∧
      policy.approvedAt = .aware stamp ∧ origin.contentHash = policy.contentHash := by
  obtain ⟨kept, hkept, hkname, hkversion, hsame⟩ := h.stored policy hp
  obtain rfl := h.unique row hrow kept hkept (hname.trans hkname.symm)
    (hversion.trans hkversion.symm)
  obtain ⟨origin, horigin, stamp, haware, rfl⟩ := h.inserted row hrow
  obtain ⟨own, hvalid⟩ := h.valid policy hp
  have hcontent : origin.contentHash = policy.contentHash := hsame
  have hpayload : origin.payload = policy.payload :=
    hinj ((h.hashed origin horigin).trans (hcontent.trans (h.hashed policy hp).symm))
  have hown := (of_validatePolicy hvalid).1
  have htext : origin.approvedAt.isoformat = policy.approvedAt.isoformat :=
    congrArg PolicyPayload.approvedAt hpayload
  rw [haware, hown] at htext
  exact ⟨origin, stamp, rfl, hpayload, hown.trans (by rw [Stamp.isoformat_injective htext]),
    hcontent⟩

/-- After any calls of `append_policy`, an accepted policy whose version is the latest one is
reloaded as it was appended exactly when its clock was set to UTC. -/
theorem roundTrips_iff (hinj : Function.Injective env.hash)
    (calls : List (ExternalIdentityMappingPolicy Digest))
    (hp : policy ∈ (Run.exec (step env) .empty calls).accepted)
    (hrow : latestEnabledRow (Run.exec (step env) .empty calls).table policy.policyName =
      some row)
    (hversion : row.version = policy.version) :
    (∃ reloaded, latestEnabledPolicy (Run.exec (step env) .empty calls).table policy.policyName =
        .ok (some reloaded) ∧ RoundTrips env policy reloaded) ↔ policy.ApprovedInUtc := by
  have hrecorded := recorded_run env calls
  obtain ⟨own, hvalid⟩ := hrecorded.valid policy hp
  have hname := (of_validatePolicy hvalid).2
  obtain ⟨hmem, hrowName⟩ := mem_of_latestEnabledRow hrow
  obtain ⟨origin, stamp, rfl, hpayload, haware, hcontent⟩ :=
    hrecorded.row_eq hinj hp hmem hrowName hversion
  have hreload : ∀ reloaded, latestEnabledPolicy (Run.exec (step env) .empty calls).table
      policy.policyName = .ok (some reloaded) ↔ policyFromRow (origin.row stamp) = .ok reloaded :=
    fun reloaded => latestEnabledPolicy_eq_ok hname hrow
  simp only [hreload]
  have hstamp : policy.payload.approvedAt = stamp.isoformat :=
    congrArg ApprovalTime.isoformat haware
  constructor
  · rintro ⟨reloaded, hread, hhash, -⟩
    cases hutc : Stamp.utc? stamp.instant with
    | none =>
        have hinstant : Stamp.utc? (origin.row stamp).approvedAt = none := hutc
        unfold policyFromRow at hread
        rw [hinstant] at hread
        cases hread
    | some utc =>
        obtain ⟨read, hread', -, hreadHash, hreadPayload⟩ := policyFromRow_row origin hutc
        obtain rfl : read = reloaded := Except.ok.inj (hread'.symm.trans hread)
        have hsame : read.payload = policy.payload := by
          refine hinj (hhash.trans ?_)
          rw [hreadHash, hcontent, hrecorded.hashed policy hp]
        have htext : utc.isoformat = stamp.isoformat := by
          rw [← hstamp, ← hsame, hreadPayload]
        exact ⟨stamp, haware, Stamp.isoformat_injective htext ▸ (Stamp.utc?_eq_some hutc).1⟩
  · rintro ⟨stamp', haware', hoffset⟩
    obtain rfl : stamp = stamp' := ApprovalTime.aware.inj (haware.symm.trans haware')
    obtain ⟨reloaded, hread, hreadAt, hreadHash, hreadPayload⟩ :=
      policyFromRow_row origin (Stamp.utc?_instant hoffset)
    have hsame : reloaded.payload = policy.payload := by
      rw [hreadPayload, hpayload, ← hstamp]
    have hcontent' : SameContent reloaded policy :=
      ⟨hsame, hreadAt.trans haware.symm, hreadHash.trans hcontent⟩
    refine ⟨reloaded, hread, ?_, fun authenticator authorization => ?_⟩
    · rw [hsame, hcontent'.contentHash]
      exact hrecorded.hashed policy hp
    · exact hcontent'.role_verify authorization

theorem verify_mismatch (hhash : env.hash policy.payload ≠ policy.contentHash)
    (authenticator : ExternalSessionAuthenticator) (authorization : Option String) :
    (authenticator.verify env policy authorization).toOption = none := by
  unfold ExternalSessionAuthenticator.verify
  cases bearerToken authorization with
  | error e => rfl
  | ok token =>
      simp only [Except.ok_bind]
      cases authenticator.verifyToken token with
      | error e => rfl
      | ok session =>
          have hrefused : ∃ e, authenticator.validateSession env policy session = .error e := by
            unfold ExternalSessionAuthenticator.validateSession
            cases validatePolicy env policy with
            | error e => exact ⟨e, rfl⟩
            | ok approvedAt => exact ⟨_, if_pos hhash⟩
          obtain ⟨e, he⟩ := hrefused
          simp only [he, Except.error_bind]
          rfl

end Proofs

/-! ## One policy, by two clocks -/

def sampleEnv : Env PolicyPayload where
  hash := id
  urlsplit _ := .ok ⟨"https", "idp.example", none, none, "", ""⟩
  stores _ := true

def operatorsPolicy (stamp : Stamp) : ExternalIdentityMappingPolicy PolicyPayload where
  policyId := 1
  policyName := "operators"
  version := "1"
  issuer := "https://idp.example"
  audience := "platform"
  groupRoleMap := Dict.set Dict.empty "ops" .operator
  requiredAuthenticationMethods := ["mfa"]
  maximumSessionAgeSeconds := 3600
  approvedBy := "security"
  approvedAt := .aware stamp
  enabled := true
  contentHash := ⟨"operators", "1", "https://idp.example", "platform", [("ops", "operator")],
    ["mfa"], 3600, "security", stamp.isoformat, true⟩

/-- Noon of a day in July by a clock two hours ahead of UTC, and the same instant in UTC. -/
def summerNoon : Stamp := .ofShown 2026 7 1 12 0 0 0 (7200 * 10 ^ 6)

def utcTen : Stamp := .ofShown 2026 7 1 10 0 0 0 0

/-- A minute after the approval: a session of the group `ops`, issued then. -/
def opsAuthenticator : ExternalSessionAuthenticator where
  verifyToken _ := .ok {
    issuer := "https://idp.example"
    subject := "ada"
    audiences := ["platform"]
    issuedAt := .aware (utcTen.instant + 6 * 10 ^ 7)
    expiresAt := .aware (utcTen.instant + 36 * 10 ^ 8)
    sessionId := "s-1"
    groups := ["ops", "staff"]
    authenticationMethods := ["pwd", "mfa"] }
  now := .aware (utcTen.instant + 6 * 10 ^ 7)
  clockSkew := 6 * 10 ^ 7
  sha256 := id
  isRevoked := none

theorem payload_operatorsPolicy (stamp : Stamp) :
    (operatorsPolicy stamp).payload = (operatorsPolicy stamp).contentHash := rfl

theorem validatePolicy_operatorsPolicy (stamp : Stamp) :
    validatePolicy sampleEnv (operatorsPolicy stamp) = .ok stamp := by
  have hvalid : (operatorsPolicy utcTen).Valid ⟨"https", "idp.example", none, none, "", ""⟩ := by
    decide
  -- nothing that is checked depends on the time of approval
  exact if_pos (show (operatorsPolicy stamp).Valid _ from hvalid)

theorem exec_operatorsPolicy (stamp : Stamp) :
    Run.exec (step sampleEnv) .empty [operatorsPolicy stamp] =
      ⟨Table.put (.empty _) ((operatorsPolicy stamp).row stamp), [operatorsPolicy stamp]⟩ := by
  have happend : appendPolicy sampleEnv (.empty _) (operatorsPolicy stamp) =
      .ok (operatorsPolicy stamp, Table.put (.empty _) ((operatorsPolicy stamp).row stamp)) := by
    have hissuer : IssuerStored "https://idp.example" := by decide
    have hfree : Insertable sampleEnv (.empty _) ((operatorsPolicy stamp).row stamp) :=
      ⟨rfl, hissuer, rfl, fun _ h => absurd h List.not_mem_nil⟩
    have hhash : ¬ sampleEnv.hash (operatorsPolicy stamp).payload ≠
        (operatorsPolicy stamp).contentHash := not_not.mpr (payload_operatorsPolicy stamp)
    unfold appendPolicy
    rw [validatePolicy_operatorsPolicy, Except.ok_bind, if_neg hhash, persisting_eq_ok]
    exact if_pos hfree
  rw [Run.exec_cons, Run.exec_nil, step]
  simp only [PolicyHistory.empty, happend, List.nil_append]

theorem latestEnabledRow_operatorsPolicy (stamp : Stamp) :
    latestEnabledRow (Run.exec (step sampleEnv) .empty [operatorsPolicy stamp]).table "operators" =
      some ((operatorsPolicy stamp).row stamp) := by
  rw [exec_operatorsPolicy]
  rfl

theorem roundTrips_iff_operators :
    (∃ reloaded, latestEnabledPolicy
        (Run.exec (step sampleEnv) .empty [operatorsPolicy utcTen]).table
          (operatorsPolicy utcTen).policyName = .ok (some reloaded) ∧
        RoundTrips sampleEnv (operatorsPolicy utcTen) reloaded) ↔
      (operatorsPolicy utcTen).ApprovedInUtc := by
  have hinj : Function.Injective sampleEnv.hash := Function.injective_id
  have hmem : operatorsPolicy utcTen ∈
      (Run.exec (step sampleEnv) .empty [operatorsPolicy utcTen]).accepted := by
    rw [exec_operatorsPolicy]
    exact List.mem_singleton_self _
  have hrow : latestEnabledRow (Run.exec (step sampleEnv) .empty [operatorsPolicy utcTen]).table
      (operatorsPolicy utcTen).policyName = some ((operatorsPolicy utcTen).row utcTen) :=
    latestEnabledRow_operatorsPolicy utcTen
  have hversion : ((operatorsPolicy utcTen).row utcTen).version =
      (operatorsPolicy utcTen).version := rfl
  exact roundTrips_iff hinj [operatorsPolicy utcTen] hmem hrow hversion

/-- The policy approved at 12:00 by a clock two hours ahead of UTC is accepted, and admits an
operator.  The one that is reloaded fails its hash, and admits nobody. -/
theorem summer_policy_locks_out :
    let history := Run.exec (step sampleEnv) .empty [operatorsPolicy summerNoon]
    let reloaded : ExternalIdentityMappingPolicy PolicyPayload :=
      { operatorsPolicy summerNoon with approvedAt := .aware utcTen }
    history.accepted = [operatorsPolicy summerNoon] ∧
    latestEnabledPolicy history.table "operators" = .ok (some reloaded) ∧
    sampleEnv.hash reloaded.payload ≠ reloaded.contentHash ∧
    (opsAuthenticator.verify sampleEnv (operatorsPolicy summerNoon)
      (some "Bearer t")).toOption.map OperatorPrincipal.role = some .operator ∧
    opsAuthenticator.verify sampleEnv reloaded (some "Bearer t") =
      .error (.permissionError "external_identity_policy_hash_mismatch") ∧
    ∀ (authenticator : ExternalSessionAuthenticator) (authorization : Option String),
      (authenticator.verify sampleEnv reloaded authorization).toOption = none := by
  have hhash : sampleEnv.hash { operatorsPolicy summerNoon with
      approvedAt := .aware utcTen }.payload ≠ (operatorsPolicy summerNoon).contentHash := by
    decide +kernel
  have hutc : Stamp.utc? summerNoon.instant = some utcTen := by
    rw [show summerNoon.instant = utcTen.instant by decide]
    exact Stamp.utc?_instant rfl
  refine ⟨?_, ?_, hhash, ?_, ?_, verify_mismatch hhash⟩
  · rw [exec_operatorsPolicy]
  · refine (latestEnabledPolicy_eq_ok (by decide) (latestEnabledRow_operatorsPolicy _)).mpr ?_
    have hinstant : Stamp.utc? ((operatorsPolicy summerNoon).row summerNoon).approvedAt =
        some utcTen := hutc
    unfold policyFromRow
    rw [hinstant]
    rfl
  · decide +kernel
  · decide +kernel

end TradePlatform.ExternalIdentity
