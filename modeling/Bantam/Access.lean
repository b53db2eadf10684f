import Bantam.Schema

/-! Who may call a route: the session check against the stored user, the role gates,
the administrator scopes and the idempotency header. -/
namespace Bantam
open Tables

/-- `isSuperAdmin` is the case-folded comparison with the configured super-administrator
address; it is false on every address when none is configured. -/
structure Settings where
  isSuperAdmin : String → Bool

def unauthenticated : BantamError :=
  ⟨"UNAUTHENTICATED", "session is no longer active", 401⟩
def roleForbidden : BantamError := ⟨"FORBIDDEN", "this role cannot perform the action", 403⟩
def scopeForbidden (scope : AdminScope) : BantamError :=
  ⟨"FORBIDDEN", "this administrator cannot access the " ++
    String.ofList (scope.str.toList.map fun c => if c = '_' then ' ' else c) ++ " workspace", 403⟩
def idempotencyKeyRequired : BantamError :=
  ⟨"IDEMPOTENCY_KEY_REQUIRED", "Idempotency-Key header is required", 400⟩
def invalidIdempotencyKey : BantamError :=
  ⟨"INVALID_IDEMPOTENCY_KEY", "Idempotency-Key must be 8-128 URL-safe characters", 400⟩

/-- `authenticated_principal`, from the parsed token's principal on. -/
def authenticatedPrincipal (principal : Principal) (db : Db) : Except Failure Unit :=
  match db.findUser principal.userId with
  | none => .error (.bantam unauthenticated)
  | some current =>
    if current.status ≠ .active ∨ current.role ≠ principal.role ∨
        current.customerId ≠ principal.customerId then
      .error (.bantam unauthenticated)
    else .ok ()

/-- `require_roles` -/
def requireRoles (roles : List Role) (principal : Principal) (db : Db) : Except Failure Unit := do
  authenticatedPrincipal principal db
  if principal.role ∈ roles then .ok () else .error (.bantam roleForbidden)

/-- `describe_admin_access` -/
def describeAdminAccess (settings : Settings) (principal : Principal) (db : Db) :
    Bool × List AdminScope :=
  if principal.role ≠ .bankAdmin then (false, [])
  else if db.users.any fun u => u.userId = principal.userId && u.role = .bankAdmin &&
      u.status = .active && settings.isSuperAdmin u.email then
    (true, adminPermissionScopes)
  else
    (false, (db.permissions.filter fun p => p.userId = principal.userId).map AdminPermission.scope)

/-- `require_admin_scope` -/
def requireAdminScope (settings : Settings) (principal : Principal) (scope : AdminScope)
    (db : Db) : Except Failure Unit :=
  if principal.role ≠ .bankAdmin then .ok ()
  else
    let (isSuperAdmin, scopes) := describeAdminAccess settings principal db
    if isSuperAdmin ∨ scope ∈ scopes then .ok () else .error (.bantam (scopeForbidden scope))

/-- One character of `[A-Za-z0-9._:-]`. -/
def isKeyChar (c : Char) : Bool :=
  ('A' ≤ c && c ≤ 'Z') || ('a' ≤ c && c ≤ 'z') || ('0' ≤ c && c ≤ '9') ||
  c = '.' || c = '_' || c = ':' || c = '-'

/-- `normalise_idempotency_key` under `require_idempotency_key`. -/
def requireIdempotencyKey (raw : Option String) : Except Failure String :=
  let value := Text.strip (raw.getD "")
  if value = "" then .error (.bantam idempotencyKeyRequired)
  else if 8 ≤ value.length ∧ value.length ≤ 128 ∧ value.toList.all isKeyChar then .ok value
  else .error (.bantam invalidIdempotencyKey)
end Bantam
