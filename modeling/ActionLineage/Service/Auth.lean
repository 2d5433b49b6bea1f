import ActionLineage.Detection.RuleLoader
import ActionLineage.Py.Dict

/-!
# Service principals — `service/auth.py`

A bearer token names a principal or nobody. A principal has capabilities of its own and those of its
roles, and an endpoint asks for the ones it needs.
-/

namespace ActionLineage.Service

open Py

inductive ServiceRole
  | read | write | «export» | admin
deriving DecidableEq, Repr

def ServiceRole.text : ServiceRole → Str
  | read => lit "read"
  | write => lit "write"
  | «export» => lit "export"
  | admin => lit "admin"

/-- The roles in the order of their texts. -/
def ServiceRole.sorted : List ServiceRole := [admin, «export», read, write]

inductive ServiceCapability
  | eventsRead | eventsWrite | journalVerify | projectionsRebuild | detectionsRun | casesRead
  | casesExport | adminConfigure | tenantsManage
deriving DecidableEq, Repr

def ServiceCapability.text : ServiceCapability → Str
  | eventsRead => lit "events:read"
  | eventsWrite => lit "events:write"
  | journalVerify => lit "journal:verify"
  | projectionsRebuild => lit "projections:rebuild"
  | detectionsRun => lit "detections:run"
  | casesRead => lit "cases:read"
  | casesExport => lit "cases:export"
  | adminConfigure => lit "admin:configure"
  | tenantsManage => lit "tenants:manage"

def ServiceCapability.all : List ServiceCapability :=
  [eventsRead, eventsWrite, journalVerify, projectionsRebuild, detectionsRun, casesRead, casesExport,
   adminConfigure, tenantsManage]

def ROLE_CAPABILITIES : ServiceRole → Finset ServiceCapability
  | .read => {.eventsRead, .journalVerify, .casesRead}
  | .write => {.eventsWrite, .journalVerify, .projectionsRebuild}
  | .«export» => {.casesExport}
  | .admin => ServiceCapability.all.toFinset

structure ServicePrincipal where
  principalId : Str
  roles : Finset ServiceRole
  capabilities : Finset ServiceCapability := ∅

namespace ServicePrincipal

def effectiveCapabilities (p : ServicePrincipal) : Finset ServiceCapability :=
  p.capabilities ∪ p.roles.biUnion ROLE_CAPABILITIES

def hasCapability (p : ServicePrincipal) (required : ServiceCapability) : Bool :=
  decide (required ∈ p.effectiveCapabilities)

end ServicePrincipal

/-- What ends a request early. -/
inductive ServiceFailure
  /-- `ServiceAuthError`. -/
  | auth (message : Str)
  | raised (exc : PyError)
  /-- The answer to a journal that does not verify; no exception is behind it. -/
  | journalIntegrity

/-- `require_capability`. -/
def requireCapability (principal : ServicePrincipal) (capability : ServiceCapability) :
    Except ServiceFailure Unit :=
  if principal.hasCapability capability then .ok ()
  else .error (.auth (lit "service capability required: " ++ capability.text))

@[simp] theorem requireCapability_eq_ok {principal : ServicePrincipal}
    {capability : ServiceCapability} :
    requireCapability principal capability = .ok () ↔ principal.hasCapability capability = true := by
  unfold requireCapability
  split <;> simp_all

structure StaticTokenAuthenticator where
  tokens : Dict Str ServicePrincipal

def StaticTokenAuthenticator.authenticate (authenticator : StaticTokenAuthenticator)
    (token : Option Str) : Except ServiceFailure ServicePrincipal :=
  match token.bind authenticator.tokens.get? with
  | some principal => .ok principal
  | none => .error (.auth (lit "invalid service token"))

/-- `str.removeprefix`. -/
def removePrefix (start s : Str) : Str := if start.isPrefixOf s then s.drop start.length else s

/-- The token in an `Authorization` header. -/
def bearerToken (authorization : Option Str) : Option Str :=
  match authorization with
  | none | some [] => none
  | some header => some (strip (removePrefix (lit "Bearer ") header))

end ActionLineage.Service
