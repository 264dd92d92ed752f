/-
`AuthLifecycleService` of the auth-service, with the rows it reads and writes.

Every method is a transaction at READ COMMITTED.  An entity that was changed is written back
whole when the transaction commits, and the session keeps beside it the state it was loaded in;
a write to a row that is gone fails.  Writes go out as the session flushes them: inserts, then
updates, then deletes.  The roles of an account are left out.

The `history` is no table.  It lists what the committed transactions have done, for the claims
about them.
-/
import InvestmentPlatform.Auth.RoleAdmin

namespace InvestmentPlatform.Auth.Lifecycle

open JavaText
open ReadCommitted.Prog (query)

/-- The library functions that the service calls on texts and passwords. -/
class LifecycleLibrary (I : Type) where
  uuidToString : I → String
  toLowerCase : String → String
  /-- `passwordEncoder.encode`, with the salt it draws. -/
  encode : String → String → String
  passwordMatches : String → String → Bool
  /-- `hash`, SHA-256 in Base64. -/
  hash : String → String
  hash_injective : Function.Injective hash

/-! ### Rows -/

structure Account (I : Type) extends AppUserEntity I where
  lastLoginAt : Option Instant
  createdAt : Instant
  updatedAt : Instant
  deriving DecidableEq

/-- What a token row is made with. -/
structure TokenKey (I : Type) where
  id : I
  userId : I
  tokenHash : String
  deriving DecidableEq

/-- A row of `email_verification_tokens` or of `password_reset_tokens`. -/
structure TokenEntity (I : Type) extends TokenKey I where
  expiresAt : Instant
  consumedAt : Option Instant
  createdAt : Instant
  deriving DecidableEq

section
variable {I : Type}

namespace Account

variable (user : Account I)

def activate (now : Instant) : Account I :=
  { user with toAppUserEntity := user.toAppUserEntity.activate now, updatedAt := now }

def recordLogin (now : Instant) : Account I :=
  { user with lastLoginAt := some now, updatedAt := now }

def resetPassword (encodedPassword : String) (now : Instant) : Account I :=
  { user with passwordHash := some encodedPassword, updatedAt := now }

def refreshPendingRegistration (email passwordHash displayName : String) (now : Instant) :
    Account I :=
  { user with
    toAppUserEntity := user.toAppUserEntity.refreshPendingRegistration email passwordHash displayName
    updatedAt := now }

end Account

def TokenEntity.consume (token : TokenEntity I) (now : Instant) : TokenEntity I :=
  { token with consumedAt := some now }

/-- A token that may still be used. -/
def TokenEntity.live (token : TokenEntity I) (now : Instant) : Bool :=
  token.consumedAt.isNone && now < token.expiresAt

end

/-! ### The database -/

/-- What a committed transaction has done. -/
inductive Event (I : Type)
  | registered (token : TokenKey I) (passwordHash : String)
  | resent (token : TokenKey I)
  | verified (token : TokenKey I)
  | resetIssued (token : TokenKey I)
  | passwordReset (token : TokenKey I) (passwordHash : String)
  deriving DecidableEq

structure Database (I : Type) where
  users : List (Account I)
  tokens : List (TokenEntity I)
  resets : List (TokenEntity I)
  history : List (Event I)

inductive Change (I : Type)
  | insertUser (user : Account I)
  | insertToken (token : TokenEntity I)
  | insertReset (token : TokenEntity I)
  /-- The row as it was loaded, and as the session has it now. -/
  | updateUser (loaded user : Account I)
  | updateToken (loaded token : TokenEntity I)
  | updateReset (loaded token : TokenEntity I)
  | deleteToken (loaded : TokenEntity I)
  | note (event : Event I)

section
variable {I : Type} [DecidableEq I]

def insertRow (users : List (Account I)) (row : TokenEntity I) (rows : List (TokenEntity I)) :
    Except AuthError (List (TokenEntity I)) :=
  if (rows.any fun other => other.id = row.id || other.tokenHash = row.tokenHash) ||
      !users.any (·.id = row.userId) then .error .database
  else .ok (rows ++ [row])

def updateRow (row : TokenEntity I) (rows : List (TokenEntity I)) :
    Except AuthError (List (TokenEntity I)) :=
  if rows.any (·.id = row.id) then
    .ok (rows.map fun other => if other.id = row.id then row else other)
  else .error .database

def Change.apply (db : Database I) : Change I → Except AuthError (Database I)
  | .insertUser user =>
    if db.users.any (user.toAppUserEntity.clashes ·.toAppUserEntity) then .error .database
    else .ok { db with users := db.users ++ [user] }
  | .insertToken token => do return { db with tokens := ← insertRow db.users token db.tokens }
  | .insertReset token => do return { db with resets := ← insertRow db.users token db.resets }
  | .updateUser _ user =>
    if db.users.any (·.id = user.id) then
      .ok { db with users := db.users.map fun row => if row.id = user.id then user else row }
    else .error .database
  | .updateToken _ token => do return { db with tokens := ← updateRow token db.tokens }
  | .updateReset _ token => do return { db with resets := ← updateRow token db.resets }
  | .deleteToken loaded =>
    if db.tokens.any (·.id = loaded.id) then
      .ok { db with tokens := db.tokens.filter (·.id ≠ loaded.id) }
    else .error .database
  | .note event => .ok { db with history := db.history ++ [event] }

/-- The writes of a commit, or none of them. -/
def applyAll (changes : List (Change I)) (db : Database I) : Except AuthError (Database I) :=
  changes.foldlM Change.apply db

namespace Database

variable (db : Database I)

omit [DecidableEq I] in
def findByNormalizedEmail (email : String) : Option (Account I) :=
  db.users.find? (·.normalizedEmail = some email)

def findById (id : I) : Option (Account I) := db.users.find? (·.id = id)

omit [DecidableEq I] in
def findToken (tokenHash : String) : Option (TokenEntity I) :=
  db.tokens.find? (·.tokenHash = tokenHash)

omit [DecidableEq I] in
def findReset (tokenHash : String) : Option (TokenEntity I) :=
  db.resets.find? (·.tokenHash = tokenHash)

/-- The rows that `deleteByUserId` loads to remove them. -/
def tokensOf (userId : I) : List (TokenEntity I) := db.tokens.filter (·.userId = userId)

end Database

/-! ### Requests -/

inductive Answer (I : Type)
  | registration (userId : I)
  | verification (userId : I)
  | email (message : String)
  | token (userId : I)
  | done

abbrev Transaction (I : Type) :=
  ReadCommitted.Prog (Database I) (List (Change I)) AuthError (Answer I)

structure AuthProperties where
  issuer : String
  verificationTokenTtlSeconds : Int
  passwordResetTokenTtlSeconds : Int
  /-- `emailSender.isConfigured()`. -/
  emailConfigured : Bool

/-- What one request draws at random: two UUIDs, a raw token and a salt. -/
structure Draws (I : Type) where
  userId : I
  tokenId : I
  rawToken : String
  salt : String

inductive Request
  | register (request : RegisterRequest)
  | verify (raw : String)
  | resendVerification (email : String)
  | login (email password : String)
  | requestPasswordReset (email : String)
  | confirmPasswordReset (raw : String) (newPassword : Option String)

def plusSeconds (now : Instant) (seconds : Int) : Instant := now + seconds * 1000000

variable [LifecycleLibrary I]

variable (I) in
def normalize (email : String) : String := LifecycleLibrary.toLowerCase I (trim email)

/-- A token row for an account, with what the request drew. -/
def newToken (draws : Draws I) (userId : I) (now : Instant) (ttlSeconds : Int) : TokenEntity I where
  id := draws.tokenId
  userId := userId
  tokenHash := LifecycleLibrary.hash I draws.rawToken
  expiresAt := plusSeconds now ttlSeconds
  consumedAt := none
  createdAt := now

def invalidToken : AuthError := .response 400 "Invalid or expired verification token"

def badCredentials : AuthError := .response 401 "Invalid email or password"

/-! ### `AuthLifecycleService` -/

variable (properties : AuthProperties) (draws : Draws I) (now : Instant)

/-- `AppUserEntity.local`. -/
def newAccount (request : RegisterRequest) (normalized passwordHash displayName : String) :
    Account I where
  toAppUserEntity := localUser draws.userId (LifecycleLibrary.uuidToString draws.userId)
    properties.issuer (trim request.email) normalized passwordHash displayName
  lastLoginAt := none
  createdAt := now
  updatedAt := now

def register (request : RegisterRequest) : Transaction I :=
  let normalized := normalize I request.email
  let displayName := trim (trim request.firstName ++ " " ++ trim request.lastName)
  let password := LifecycleLibrary.encode I draws.salt request.password
  if ¬ matchesEmail normalized then .throw (.response 400 "Invalid email address")
  else
    query (·.findByNormalizedEmail normalized) fun found =>
      match found with
      | none =>
        let user := newAccount properties draws now request normalized password displayName
        let token := newToken draws user.id now properties.verificationTokenTtlSeconds
        .commit [.insertUser user, .insertToken token, .note (.registered token.toTokenKey password)]
          (.registration user.id)
      | some existing =>
        if existing.accountStatus = some "ACTIVE" then
          .throw (.response 409
            "An account already exists for this email. Sign in or reset your password.")
        else if existing.accountStatus ≠ some "EMAIL_VERIFICATION_PENDING" then
          .throw (.response 409 "Unable to register account")
        else
          query (·.tokensOf existing.id) fun old =>
            let token := newToken draws existing.id now properties.verificationTokenTtlSeconds
            .commit ([.insertToken token,
                .updateUser existing (existing.refreshPendingRegistration (trim request.email)
                  password displayName now)] ++ old.map .deleteToken ++
                [.note (.registered token.toTokenKey password)])
              (.registration existing.id)

def verify (raw : String) : Transaction I :=
  query (·.findToken (LifecycleLibrary.hash I raw)) fun found =>
    match found with
    | none => .throw invalidToken
    | some token =>
      if ¬ token.live now then .throw invalidToken
      else
        query (·.findById token.userId) fun found =>
          match found with
          | none => .throw invalidToken
          | some user =>
            if user.accountStatus = some "DISABLED" then
              .throw (.response 403 "Account is disabled")
            else
              .commit [.updateToken token (token.consume now), .updateUser user (user.activate now),
                .note (.verified token.toTokenKey)] (.verification user.id)

def resendVerification (email : String) : Transaction I :=
  let answer : Answer I :=
    .email "If the account is eligible, a new verification email has been sent."
  query (·.findByNormalizedEmail (normalize I email)) fun found =>
    match found.filter (·.accountStatus = some "EMAIL_VERIFICATION_PENDING") with
    | none => .commit [] answer
    | some user =>
      if ¬ properties.emailConfigured then .commit [] answer
      else
        query (·.tokensOf user.id) fun old =>
          let token := newToken draws user.id now properties.verificationTokenTtlSeconds
          .commit ([.insertToken token] ++ old.map .deleteToken ++
            [.note (.resent token.toTokenKey)]) answer

def login (email password : String) : Transaction I :=
  query (·.findByNormalizedEmail (normalize I email)) fun found =>
    match found with
    | none => .throw badCredentials
    | some user =>
      if ¬ user.passwordHash.any (LifecycleLibrary.passwordMatches I password) then
        .throw badCredentials
      else if user.accountStatus ≠ some "ACTIVE" then
        .throw (.response 403 "Email verification is required")
      else .commit [.updateUser user (user.recordLogin now)] (.token user.id)

def requestPasswordReset (email : String) : Transaction I :=
  let answer : Answer I := .email "If an eligible account exists, reset instructions will be sent."
  query (·.findByNormalizedEmail (normalize I email)) fun found =>
    match found.filter (·.accountStatus = some "ACTIVE") with
    | none => .commit [] answer
    | some user =>
      if ¬ properties.emailConfigured then .commit [] answer
      else
        let token := newToken draws user.id now properties.passwordResetTokenTtlSeconds
        .commit [.insertReset token, .note (.resetIssued token.toTokenKey)] answer

def confirmPasswordReset (raw : String) (newPassword : Option String) : Transaction I :=
  match newPassword with
  | none => .throw (.response 400 "Invalid password")
  | some newPassword =>
    if utf16Length newPassword < 12 ∨ 200 < utf16Length newPassword then
      .throw (.response 400 "Invalid password")
    else
      query (·.findReset (LifecycleLibrary.hash I raw)) fun found =>
        match found with
        | none => .throw invalidToken
        | some token =>
          if ¬ token.live now then .throw invalidToken
          else
            query (·.findById token.userId) fun found =>
              match found with
              | none => .throw invalidToken
              | some user =>
                if user.accountStatus ≠ some "ACTIVE" then .throw invalidToken
                else
                  let password := LifecycleLibrary.encode I draws.salt newPassword
                  .commit [.updateUser user (user.resetPassword password now),
                    .updateReset token (token.consume now),
                    .note (.passwordReset token.toTokenKey password)] .done

def Request.transaction : Request → Transaction I
  | .register request => Lifecycle.register properties draws now request
  | .verify raw => Lifecycle.verify now raw
  | .resendVerification email => Lifecycle.resendVerification properties draws now email
  | .login email password => Lifecycle.login now email password
  | .requestPasswordReset email => Lifecycle.requestPasswordReset properties draws now email
  | .confirmPasswordReset raw newPassword =>
    Lifecycle.confirmPasswordReset draws now raw newPassword

end

/-! ### All of them -/

/-- The requests of some threads.  Token ids and raw tokens are drawn at random, so no two
requests draw the same. -/
structure Traffic (T I : Type) where
  properties : AuthProperties
  request : T → Request
  now : T → Instant
  draws : T → Draws I
  tokenId_injective : Function.Injective fun t => (draws t).tokenId
  rawToken_injective : Function.Injective fun t => (draws t).rawToken

def emptyDatabase (I : Type) : Database I := ⟨[], [], [], []⟩

section
variable {T I : Type} [DecidableEq T] [DecidableEq I] [LifecycleLibrary I]

def Traffic.transaction (traffic : Traffic T I) (t : T) : Transaction I :=
  (traffic.request t).transaction traffic.properties (traffic.draws t) (traffic.now t)

abbrev State (T I : Type) :=
  ReadCommitted.State (Database I) (List (Change I)) AuthError (Answer I) T

/-- Any interleaving of the requests, from empty tables. -/
def machine (traffic : Traffic T I) : Machine (State T I) (ReadCommitted.Action AuthError T) :=
  ReadCommitted.machine applyAll (· = emptyDatabase I) traffic.transaction

end

end InvestmentPlatform.Auth.Lifecycle
