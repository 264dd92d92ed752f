/-
`RoleAdminService` and `FirstAdminBootstrapService` of the auth-service, with the registration and
the verification of `AuthLifecycleService` that run beside them.

Every method is a transaction.  Its writes go to the database when it commits, and an entity that
was changed is written back whole, as it was loaded apart from the change.  The token tables are
left out: a token may name any account.
-/
import InvestmentPlatform.Lib.JavaText
import InvestmentPlatform.Lib.ReadCommitted

namespace InvestmentPlatform.Auth

open JavaText

/-- The library functions that the services call on texts, and what is known of them. -/
class AuthLibrary (I : Type) where
  uuidToString : I → String
  toLowerCase : String → String
  toUpperCase : String → String
  equalsIgnoreCase : String → String → Bool
  /-- `passwordEncoder.encode`. -/
  encode : String → String
  trim_uuidToString : ∀ id, trim (uuidToString id) = uuidToString id
  equalsIgnoreCase_refl : ∀ text, equalsIgnoreCase text text = true
  normalize_normalize : ∀ text,
    toLowerCase (trim (toLowerCase (trim text))) = toLowerCase (trim text)

/-! ### Tables -/

abbrev Instant := Int

structure AppUserEntity (I : Type) where
  id : I
  issuer : String
  externalSubject : String
  email : Option String
  normalizedEmail : Option String
  passwordHash : Option String
  accountStatus : Option String
  emailVerifiedAt : Option Instant
  displayName : Option String
  deriving DecidableEq

structure AppUserRoleAuditEntity (I : Type) where
  userId : I
  targetEmail : Option String
  role : String
  action : String
  operator : String
  reason : String
  createdAt : Instant
  deriving DecidableEq

structure Database (I : Type) where
  users : List (AppUserEntity I)
  roles : List (I × String)
  audit : List (AppUserRoleAuditEntity I)

/-- What a transaction has to write. -/
inductive Change (I : Type)
  | insertUser (user : AppUserEntity I)
  /-- The whole row, as the session has it. -/
  | updateUser (user : AppUserEntity I)
  | insertRole (userId : I) (role : String)
  | deleteRole (userId : I) (role : String)
  | insertAudit (row : AppUserRoleAuditEntity I)

inductive AuthError
  | roleAdmin (message : String)
  | response (status : Nat) (message : String)
  | illegalArgument (message : String)
  /-- A constraint of the database, or a failure of it. -/
  | database
  deriving DecidableEq, Repr

inductive FirstAdminBootstrapOutcome
  | created
  | adminAlreadyPresent
  | existingUsersWithoutAdmin
  deriving DecidableEq, Repr

inductive Answer (I : Type)
  | done
  | registered (userId : I)
  | verified (userId : I)
  | bootstrap (outcome : FirstAdminBootstrapOutcome)

section

variable {I : Type}

namespace AppUserEntity

variable (user : AppUserEntity I)

/-- `ACTIVE` with a verified email. -/
def active : Bool := user.accountStatus = some "ACTIVE" && user.emailVerifiedAt.isSome

def activate (now : Instant) : AppUserEntity I :=
  { user with accountStatus := some "ACTIVE", emailVerifiedAt := some now }

def refreshPendingRegistration (email passwordHash displayName : String) : AppUserEntity I :=
  { user with
    email := some email, passwordHash := some passwordHash, displayName := some displayName }

/-- The constraints of `app_users` keep the two rows apart. -/
def clashes [DecidableEq I] (other : AppUserEntity I) : Bool :=
  user.id = other.id || (user.issuer = other.issuer && user.externalSubject = other.externalSubject)
    || (user.normalizedEmail.isSome && user.normalizedEmail = other.normalizedEmail)

end AppUserEntity

/-- `text.length()`, in units of UTF-16. -/
def utf16Length (text : String) : Nat :=
  text.toList.foldl (fun units c => if c.toNat < 0x10000 then units + 1 else units + 2) 0

/-- `AppUserEntity.local`. -/
def localUser (id : I) (externalSubject issuer email normalizedEmail passwordHash
    displayName : String) : AppUserEntity I where
  id := id
  issuer := issuer
  externalSubject := externalSubject
  email := some email
  normalizedEmail := some normalizedEmail
  passwordHash := some passwordHash
  accountStatus := some "EMAIL_VERIFICATION_PENDING"
  emailVerifiedAt := none
  displayName := some displayName

variable [DecidableEq I]

def Change.apply (db : Database I) : Change I → Except AuthError (Database I)
  | .insertUser user =>
    if db.users.any (user.clashes ·) then .error .database
    else .ok { db with users := db.users ++ [user] }
  | .updateUser user =>
    .ok { db with users := db.users.map fun row => if row.id = user.id then user else row }
  | .insertRole userId role =>
    if (userId, role) ∈ db.roles ∨ ¬ db.users.any (·.id = userId) then .error .database
    else .ok { db with roles := db.roles ++ [(userId, role)] }
  | .deleteRole userId role =>
    .ok { db with roles := db.roles.filter (· ≠ (userId, role)) }
  | .insertAudit row =>
    if row.targetEmail.isNone then .error .database
    else .ok { db with audit := db.audit ++ [row] }

/-- The writes of a commit, in their order, or none of them. -/
def applyAll (changes : List (Change I)) (db : Database I) : Except AuthError (Database I) :=
  changes.foldlM Change.apply db

/-! ### Statements -/

namespace Database

variable (db : Database I)

def findByNormalizedEmail (email : String) : Option (AppUserEntity I) :=
  db.users.find? (·.normalizedEmail = some email)

def findByIssuerAndExternalSubject (issuer subject : String) : Option (AppUserEntity I) :=
  db.users.find? fun user => user.issuer = issuer && user.externalSubject = subject

def findById (id : I) : Option (AppUserEntity I) := db.users.find? (·.id = id)

def existsByUserIdAndRole (userId : I) (role : String) : Bool := (userId, role) ∈ db.roles

def existsByRole (role : String) : Bool := db.roles.any (·.2 = role)

/-- The accounts that are active, verified and hold ADMIN. -/
def activeAdmins : List (AppUserEntity I) :=
  db.users.filter fun user => user.active && db.existsByUserIdAndRole user.id "ADMIN"

end Database

abbrev Transaction (I : Type) :=
  ReadCommitted.Prog (Database I) (List (Change I)) AuthError (Answer I)

open ReadCommitted.Prog (query)

/-! ### `RoleAdminService` -/

variable [AuthLibrary I]

variable (I) in
def normalize (value : String) : String := AuthLibrary.toLowerCase I (trim value)

def requireManagedRole (role : Option String) : Except AuthError String :=
  let normalized := AuthLibrary.toUpperCase I (trim (role.getD ""))
  if normalized = "ADMIN" then .ok normalized
  else .error (.roleAdmin "Only the ADMIN role can be provisioned through this procedure")

def requireOperator (operator : Option String) : Except AuthError String :=
  match operator with
  | none => .error (.roleAdmin "An operator identifier is required for audit purposes")
  | some operator =>
    if isBlank operator ∨ 240 < utf16Length operator then
      .error (.roleAdmin "An operator identifier is required for audit purposes")
    else .ok (trim operator)

def rejectSelfManagement (user : AppUserEntity I) (operator : String) : Except AuthError Unit :=
  let id := AuthLibrary.uuidToString user.id
  if AuthLibrary.equalsIgnoreCase I operator id ∨
      AuthLibrary.equalsIgnoreCase I operator ("user:" ++ id) ∨
      user.email.any fun email => normalize I email = normalize I operator then
    .error (.roleAdmin "An operator cannot grant or revoke their own role")
  else .ok ()

def requireReason (reason : Option String) : Except AuthError String :=
  match reason with
  | none => .error (.roleAdmin "A reason of 1 to 500 characters is required")
  | some reason =>
    if isBlank reason ∨ 500 < utf16Length reason then
      .error (.roleAdmin "A reason of 1 to 500 characters is required")
    else .ok (trim reason)

def requireActive (user : AppUserEntity I) : Except AuthError Unit :=
  if user.active then .ok ()
  else .error (.roleAdmin "ADMIN requires an active, verified account")

/-- What a change of roles is asked with, after its checks. -/
structure RoleChange where
  role : String
  operator : String
  reason : String

def checkChange (user : AppUserEntity I) (role operator reason : Option String) :
    Except AuthError RoleChange := do
  let role ← requireManagedRole (I := I) role
  let operator ← requireOperator operator
  rejectSelfManagement user operator
  let reason ← requireReason reason
  return ⟨role, operator, reason⟩

def auditRow (user : AppUserEntity I) (change : RoleChange) (action : String) (now : Instant) :
    AppUserRoleAuditEntity I where
  userId := user.id
  targetEmail := user.email
  role := change.role
  action := action
  operator := change.operator
  reason := change.reason
  createdAt := now

/-- `grantTo`, after the changes that the transaction has made before. -/
def grantTo (changes : List (Change I)) (answer : Answer I) (user : AppUserEntity I)
    (role operator reason : Option String) (now : Instant) : Transaction I :=
  match checkChange user role operator reason with
  | .error error => .throw error
  | .ok change =>
    match requireActive user with
    | .error error => .throw error
    | .ok () =>
      query (·.existsByUserIdAndRole user.id change.role) fun held =>
        if held then .commit changes answer
        else
          .commit (changes ++ [.insertRole user.id change.role,
            .insertAudit (auditRow user change "GRANT" now)]) answer

def revokeFrom (user : AppUserEntity I) (role operator reason : Option String) (now : Instant) :
    Transaction I :=
  match checkChange user role operator reason with
  | .error error => .throw error
  | .ok change =>
    query (·.existsByUserIdAndRole user.id change.role) fun held =>
      if ¬ held then .commit [] .done
      else
        query (·.activeAdmins.length) fun activeAdmins =>
          if user.active ∧ activeAdmins ≤ 1 then
            .throw (.roleAdmin "The last active administrator cannot be removed")
          else
            .commit [.deleteRole user.id change.role,
              .insertAudit (auditRow user change "REVOKE" now)] .done

def requireAccount (email : Option String) (next : AppUserEntity I → Transaction I) :
    Transaction I :=
  match email with
  | none => .throw (.roleAdmin "An account email is required")
  | some email =>
    if isBlank email then .throw (.roleAdmin "An account email is required")
    else
      query (·.findByNormalizedEmail (normalize I email)) fun found =>
        match found with
        | none => .throw (.roleAdmin ("No account exists for " ++ email))
        | some user => next user

def grantRole (email role operator reason : Option String) (now : Instant) : Transaction I :=
  .lock (requireAccount email fun user => grantTo [] .done user role operator reason now)

def revokeRole (email role operator reason : Option String) (now : Instant) : Transaction I :=
  .lock (requireAccount email fun user => revokeFrom user role operator reason now)

structure JwtClaims where
  issuer : String
  subject : String
  roles : List String

def requireAdministrator (claims : JwtClaims) (next : AppUserEntity I → Transaction I) :
    Transaction I :=
  let forbidden : Transaction I := .throw (.response 403 "Administrator access required")
  if "ADMIN" ∉ claims.roles then forbidden
  else
    query (·.findByIssuerAndExternalSubject claims.issuer claims.subject) fun found =>
      match found with
      | none => forbidden
      | some actor =>
        if ¬ actor.active then forbidden
        else
          query (·.existsByUserIdAndRole actor.id "ADMIN") fun held =>
            if ¬ held then forbidden else next actor

def changeRole (claims : JwtClaims) (targetId : I) (role reason : Option String) (grant : Bool)
    (now : Instant) : Transaction I :=
  .lock (requireAdministrator claims fun actor =>
    if actor.id = targetId then .throw (.response 403 "You cannot manage your own roles")
    else
      query (·.findById targetId) fun found =>
        match found with
        | none => .throw (.response 404 "User not found")
        | some target =>
          let operator := some ("user:" ++ AuthLibrary.uuidToString actor.id)
          if grant then grantTo [] .done target role operator reason now
          else revokeFrom target role operator reason now)

/-! ### `FirstAdminBootstrapService` -/

/-- A character of `\s`. -/
def isRegexSpace (c : Char) : Bool := c ∈ [' ', '\t', '\n', '\x0b', '\x0c', '\r']

/-- The whole text matches `^[^\s@]+@[^\s@]+\.[^\s@]+$`. -/
def matchesEmail (text : String) : Bool :=
  let name := text.toList.takeWhile (· ≠ '@')
  let domain := (text.toList.dropWhile (· ≠ '@')).drop 1
  name ≠ [] && '@' ∈ text.toList && '@' ∉ domain && text.toList.all (!isRegexSpace ·) &&
    '.' ∈ (domain.drop 1).dropLast

def requireValidEmail (email : Option String) : Except AuthError String :=
  match email with
  | none => .error (.illegalArgument "first-admin-bootstrap.email is required")
  | some email =>
    if isBlank email then .error (.illegalArgument "first-admin-bootstrap.email is required")
    else if matchesEmail (trim email) then .ok email
    else .error (.illegalArgument "first-admin-bootstrap.email is not a valid email address")

def requireValidPassword (password : Option String) : Except AuthError String :=
  match password with
  | none => .error (.illegalArgument "first-admin-bootstrap.password must be 12-200 characters")
  | some password =>
    if utf16Length password < 12 ∨ 200 < utf16Length password then
      .error (.illegalArgument "first-admin-bootstrap.password must be 12-200 characters")
    else .ok password

/-- The account that `bootstrap` makes, already activated. -/
def firstAdmin (issuer email password : String) (newId : I) (now : Instant) : AppUserEntity I :=
  (localUser newId (AuthLibrary.uuidToString newId) issuer (trim email) (normalize I email)
    (AuthLibrary.encode I password) "First Administrator").activate now

def bootstrap (issuer : String) (email password : Option String) (newId : I) (now : Instant) :
    Transaction I :=
  .lock (query (·.existsByRole "ADMIN") fun hasAdmin =>
    if hasAdmin then .commit [] (.bootstrap .adminAlreadyPresent)
    else
      query (·.users.length) fun count =>
        if 0 < count then .commit [] (.bootstrap .existingUsersWithoutAdmin)
        else
          match requireValidEmail email, requireValidPassword password with
          | .error error, _ => .throw error
          | _, .error error => .throw error
          | .ok email, .ok password =>
            let user := firstAdmin issuer email password newId now
            -- grantRole locks again, and finds the account that was just flushed
            .lock (grantTo [.insertUser user, .insertRole user.id "USER"] (.bootstrap .created)
              user (some "ADMIN") (some "system:first-admin-bootstrap")
              (some "Automatic first-admin bootstrap on fresh database (platform.ps1 up)") now))

/-! ### `AuthLifecycleService` -/

structure RegisterRequest where
  email : String
  password : String
  firstName : String
  lastName : String

def ensureBaseRole (userId : I) (changes : List (Change I)) : Transaction I :=
  query (·.existsByUserIdAndRole userId "USER") fun held =>
    .commit (if held then changes else changes ++ [.insertRole userId "USER"]) (.registered userId)

def register (issuer : String) (request : RegisterRequest) (newId : I) : Transaction I :=
  let normalized := normalize I request.email
  let displayName := trim (trim request.firstName ++ " " ++ trim request.lastName)
  let password := AuthLibrary.encode I request.password
  if ¬ matchesEmail normalized then .throw (.response 400 "Invalid email address")
  else
    query (·.findByNormalizedEmail normalized) fun found =>
      match found with
      | none =>
        ensureBaseRole newId [.insertUser (localUser newId (AuthLibrary.uuidToString newId) issuer
          (trim request.email) normalized password displayName)]
      | some existing =>
        if existing.accountStatus = some "ACTIVE" then
          .throw (.response 409
            "An account already exists for this email. Sign in or reset your password.")
        else if existing.accountStatus ≠ some "EMAIL_VERIFICATION_PENDING" then
          .throw (.response 409 "Unable to register account")
        else
          ensureBaseRole existing.id
            [.updateUser (existing.refreshPendingRegistration (trim request.email) password
              displayName)]

/-- `verify` with a token that is good for the account. -/
def verify (userId : I) (now : Instant) : Transaction I :=
  query (·.findById userId) fun found =>
    match found with
    | none => .throw (.response 400 "Invalid or expired verification token")
    | some user =>
      if user.accountStatus = some "DISABLED" then .throw (.response 403 "Account is disabled")
      else .commit [.updateUser (user.activate now)] (.verified user.id)

/-! ### All of them -/

inductive Operation (I : Type)
  | grantRole (email role operator reason : Option String) (now : Instant)
  | revokeRole (email role operator reason : Option String) (now : Instant)
  | changeRole (claims : JwtClaims) (targetId : I) (role reason : Option String) (grant : Bool)
      (now : Instant)
  | bootstrap (issuer : String) (email password : Option String) (newId : I) (now : Instant)
  | register (issuer : String) (request : RegisterRequest) (newId : I)
  | verify (userId : I) (now : Instant)

def Operation.transaction : Operation I → Transaction I
  | .grantRole email role operator reason now => Auth.grantRole email role operator reason now
  | .revokeRole email role operator reason now => Auth.revokeRole email role operator reason now
  | .changeRole claims targetId role reason grant now =>
    Auth.changeRole claims targetId role reason grant now
  | .bootstrap issuer email password newId now => Auth.bootstrap issuer email password newId now
  | .register issuer request newId => Auth.register issuer request newId
  | .verify userId now => Auth.verify userId now

/-- A database before the first administrator: what the constraints say of it, and no role but
USER. -/
structure Fresh (db : Database I) : Prop where
  apart : db.users.Pairwise fun user other => user.clashes other = false
  normalized : ∀ user ∈ db.users, ∀ normalized, user.normalizedEmail = some normalized →
    ∃ email, user.email = some email ∧ normalize I email = normalized
  noAdmin : ∀ id, (id, "ADMIN") ∉ db.roles
  noAudit : db.audit = []

/-- Any interleaving of the operations, one for each thread. -/
def machine {T : Type} [DecidableEq T] (operations : T → Operation I) :
    Machine (ReadCommitted.State (Database I) (List (Change I)) AuthError (Answer I) T)
      (ReadCommitted.Action AuthError T) :=
  ReadCommitted.machine applyAll Fresh fun t => (operations t).transaction

end

end InvestmentPlatform.Auth
