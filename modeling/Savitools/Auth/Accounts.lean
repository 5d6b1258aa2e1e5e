import Savitools.Stores.Keyed
import Savitools.Strings.CodeUnits
import Savitools.Transitions.Runs

namespace Savitools.Auth.Accounts

open Strings.CodeUnits Stores.Keyed Transitions.Runs

def emailVerificationTtlSeconds : Int := 24 * 60 * 60

def passwordResetTtlSeconds : Int := 30 * 60

structure User where
  id : Nat
  email : Text
  passwordHash : Option Text
  fluxaTenantId : Option Text
  emailVerified : Bool
  emailVerificationToken : Option Text
  emailVerificationExpiresAt : Option Int
  passwordResetToken : Option Text
  passwordResetExpiresAt : Option Int
deriving DecidableEq

/-- What Fluxa answers for an API key. -/
structure FluxaAccount where
  tenantId : Text
  email : Text

/-- `sha256` of a token, `toLowerCase`, and what `argon2.verify` says of a hash and a password. -/
structure Environment where
  hashToken : Text → Text
  toLowerCase : Text → Text
  verify : Text → Text → Bool

/-- A token that was made for a user, with the address that it goes to. -/
structure Issued where
  userId : Nat
  email : Text
  tokenHash : Text
  expiresAt : Int
deriving DecidableEq

inductive PasswordOrigin
  | registration
  | reset (tokenHash : Text) (now : Int)
deriving DecidableEq

inductive Confirmation
  | token (tokenHash : Text) (now : Int)
  | signup
deriving DecidableEq

inductive LinkOrigin
  | signup
  | confirmed
deriving DecidableEq

/-- What a session was opened for. -/
inductive Basis
  | verified (tokenHash : Text) (now : Int)
  | password (passwordHash password : Text)
  | tenant (tenantId : Text)
  | signedIn
deriving DecidableEq

/-- What a call is to do next, with the entity that it has. -/
inductive Phase
  | insertRegistered (user : User) (issued : Issued)
  | mailVerification (userId : Nat) (issued : Issued)
  | removeUser (userId : Nat)
  | saveVerified (user : User) (tokenHash : Text) (now : Int)
  | saveResetToken (user : User) (issued : Issued)
  | mailReset (issued : Issued)
  | savePassword (user : User) (passwordHash tokenHash : Text) (now : Int)
  | checkPassword (user : User) (password : Text)
  | findTenant (currentUser : Option User) (account : FluxaAccount) (confirmLink : Bool)
  | findEmail (account : FluxaAccount)
  | insertLinked (account : FluxaAccount)
  | saveLinked (user : User) (account : FluxaAccount) (confirmed : Bool) (basis : Basis)
  | issueSession (userId : Nat) (basis : Basis)
  | settled

/-- What was stored and sent for whom, in its order. -/
structure History where
  passwords : List (Nat × Text × PasswordOrigin) := []
  verifications : List Issued := []
  resets : List Issued := []
  confirmed : List (Nat × Confirmation) := []
  links : List (Nat × Text × LinkOrigin) := []
  mails : List (Text × Text) := []
  sessions : List (Nat × Basis) := []

structure State where
  users : KeyedRows User.id := ⟨[], List.nodup_nil⟩
  nextId : Nat := 0
  calls : List Phase := []
  history : History := {}

/-- A request, or the next step of a call, which throws if it is not `ok`. -/
inductive Act
  | register (email password passwordHash token : Text) (now : Int)
  | verifyEmail (token : Text) (now : Int)
  | requestPasswordReset (email token : Text) (now : Int)
  | resetPassword (token newPassword passwordHash : Text) (now : Int)
  | login (email password : Text)
  | fluxa (signedIn : Option Nat) (account : FluxaAccount) (confirmLink : Bool)
  | resume (call : Nat) (ok : Bool)

variable (env : Environment)

def State.start (s : State) (phase : Phase) : State := { s with calls := s.calls ++ [phase] }

def findUser (s : State) (p : User → Bool) : Option User := s.users.rows.find? p

/-- The unique indexes over the email and the tenant. -/
def clashes (s : State) (user : User) : Bool :=
  s.users.rows.any fun row => row.id ≠ user.id &&
    (row.email = user.email || user.fluxaTenantId.isSome && row.fluxaTenantId = user.fluxaTenantId)

def startRegister (s : State) (email passwordHash token : Text) (now : Int) : Option State :=
  let email := env.toLowerCase email
  if (findUser s fun row => row.email = email).isSome then none
  else
    let expiresAt := now + emailVerificationTtlSeconds * 1000
    let tokenHash := env.hashToken token
    some (s.start (.insertRegistered
      { id := 0
        email := email
        passwordHash := some passwordHash
        fluxaTenantId := none
        emailVerified := false
        emailVerificationToken := some tokenHash
        emailVerificationExpiresAt := some expiresAt
        passwordResetToken := none
        passwordResetExpiresAt := none }
      { userId := 0, email := email, tokenHash := tokenHash, expiresAt := expiresAt }))

def startVerifyEmail (s : State) (token : Text) (now : Int) : Option State := do
  let tokenHash := env.hashToken token
  let user ← findUser s fun row => row.emailVerificationToken = some tokenHash
  let expiresAt ← user.emailVerificationExpiresAt
  if expiresAt < now then none
  else
    some (s.start (.saveVerified
      { user with emailVerified := true, emailVerificationToken := none, emailVerificationExpiresAt := none } tokenHash now))

def startPasswordReset (s : State) (email token : Text) (now : Int) : Option State := do
  let user ← findUser s fun row => row.email = env.toLowerCase (trim email)
  let _ ← user.passwordHash
  let tokenHash := env.hashToken token
  let expiresAt := now + passwordResetTtlSeconds * 1000
  some (s.start (.saveResetToken { user with passwordResetToken := some tokenHash, passwordResetExpiresAt := some expiresAt }
    { userId := user.id, email := user.email, tokenHash := tokenHash, expiresAt := expiresAt }))

def startResetPassword (s : State) (token passwordHash : Text) (now : Int) : Option State := do
  let tokenHash := env.hashToken token
  let user ← findUser s fun row => row.passwordResetToken = some tokenHash
  let expiresAt ← user.passwordResetExpiresAt
  if expiresAt ≤ now then none
  else
    some (s.start (.savePassword
      { user with passwordResetToken := none, passwordResetExpiresAt := none, passwordHash := some passwordHash }
      passwordHash tokenHash now))

def startLogin (s : State) (email password : Text) : Option State := do
  let user ← findUser s fun row => row.email = env.toLowerCase email
  let _ ← user.passwordHash
  some (s.start (.checkPassword user password))

/-- `OptionalJwtAuthGuard` lets a user be signed in by a session that there was, and the controller loads the row. -/
def startFluxa (s : State) (signedIn : Option Nat) (account : FluxaAccount) (confirmLink : Bool) : Option State :=
  if account.tenantId = [] ∨ account.email = [] then none
  else
    match signedIn with
    | none => some (s.start (.findTenant none account confirmLink))
    | some userId =>
        if s.history.sessions.any fun session => session.1 = userId then
          some (s.start (.findTenant (findUser s fun row => row.id = userId) account confirmLink))
        else none

/-- The first part of `fluxaLink` behind the answer of Fluxa. The tenant of another user is refused, and so is a new
one that is not confirmed. -/
def findTenant (s : State) (currentUser : Option User) (account : FluxaAccount) (confirmLink : Bool) : Phase :=
  let existingTenantUser := findUser s fun row => row.fluxaTenantId = some account.tenantId
  match currentUser, existingTenantUser with
  | some user, some existing => if existing.id ≠ user.id then .settled else .saveLinked user account false .signedIn
  | some user, none => if !confirmLink then .settled else .saveLinked user account true .signedIn
  | none, some existing => .saveLinked existing account false (.tenant account.tenantId)
  | none, none => .findEmail account

def signupUser (id : Nat) (account : FluxaAccount) : User where
  id := id
  email := env.toLowerCase account.email
  passwordHash := none
  fluxaTenantId := some account.tenantId
  emailVerified := true
  emailVerificationToken := none
  emailVerificationExpiresAt := none
  passwordResetToken := none
  passwordResetExpiresAt := none

/-- The entity that is saved: it has the tenant, and an email. -/
def linked (user : User) (account : FluxaAccount) : User :=
  { user with
    fluxaTenantId := some account.tenantId
    email := if user.email = [] then env.toLowerCase account.email else user.email }

/-- `save` of the repository, and the call goes on, unless an index refuses the row. -/
def save (s : State) (i : Nat) (user : User) (history : History) (phase : Phase) : State :=
  if clashes s user then { s with calls := s.calls.set i .settled }
  else { s with users := s.users.put user, history := history, calls := s.calls.set i phase }

/-- A message goes out with a token, and the call goes on. -/
def send (s : State) (i : Nat) (issued : Issued) (phase : Phase) : State :=
  { s with
    history := { s.history with mails := s.history.mails ++ [(issued.email, issued.tokenHash)] }
    calls := s.calls.set i phase }

def resume (s : State) (i : Nat) : Phase → Option State
  | .insertRegistered user issued =>
      let user := { user with id := s.nextId }
      let issued := { issued with userId := s.nextId }
      some (save { s with nextId := s.nextId + 1 } i user
        { s.history with
          passwords := s.history.passwords ++ (user.passwordHash.map (user.id, ·, .registration)).toList
          verifications := s.history.verifications ++ [issued] }
        (.mailVerification user.id issued))
  | .mailVerification _ issued => some (send s i issued .settled)
  | .removeUser userId => some { s with users := s.users.delete userId, calls := s.calls.set i .settled }
  | .saveVerified user tokenHash now =>
      some (save s i user { s.history with confirmed := s.history.confirmed ++ [(user.id, .token tokenHash now)] }
        (.issueSession user.id (.verified tokenHash now)))
  | .saveResetToken user issued =>
      some (save s i user { s.history with resets := s.history.resets ++ [issued] } (.mailReset issued))
  | .mailReset issued => some (send s i issued .settled)
  | .savePassword user passwordHash tokenHash now =>
      some (save s i user
        { s.history with passwords := s.history.passwords ++ [(user.id, passwordHash, .reset tokenHash now)] } .settled)
  | .checkPassword user password =>
      match user.passwordHash.filter (env.verify · password) with
      | none => some { s with calls := s.calls.set i .settled }
      | some hash => some { s with calls := s.calls.set i (.issueSession user.id (.password hash password)) }
  | .findTenant currentUser account confirmLink =>
      some { s with calls := s.calls.set i (findTenant s currentUser account confirmLink) }
  | .findEmail account =>
      let emailOwner := findUser s fun row => row.email = env.toLowerCase account.email
      some { s with calls := s.calls.set i (if emailOwner.isSome then .settled else .insertLinked account) }
  | .insertLinked account =>
      let user := signupUser env s.nextId account
      some (save { s with nextId := s.nextId + 1 } i user
        { s.history with
          confirmed := s.history.confirmed ++ [(user.id, .signup)]
          links := s.history.links ++ [(user.id, account.tenantId, .signup)] }
        (.issueSession user.id (.tenant account.tenantId)))
  | .saveLinked user account confirmed basis =>
      some (save s i (linked env user account)
        { s.history with
          links := s.history.links ++ if confirmed then [(user.id, account.tenantId, .confirmed)] else [] }
        (.issueSession user.id basis))
  | .issueSession userId basis =>
      some { s with
        history := { s.history with sessions := s.history.sessions ++ [(userId, basis)] }
        calls := s.calls.set i .settled }
  | .settled => none

/-- A step that throws ends its call, except that a registration without a mail has its user removed. A mail may have
gone out all the same. -/
def fail (s : State) (i : Nat) : Phase → Option State
  | .mailVerification userId issued => some (send s i issued (.removeUser userId))
  | .mailReset issued => some (send s i issued .settled)
  | .settled => none
  | _ => some { s with calls := s.calls.set i .settled }

def step (s : State) : Act → Option State
  | .register email password passwordHash token now =>
      if env.verify passwordHash password then startRegister env s email passwordHash token now else none
  | .verifyEmail token now => startVerifyEmail env s token now
  | .requestPasswordReset email token now => startPasswordReset env s email token now
  | .resetPassword token newPassword passwordHash now =>
      if env.verify passwordHash newPassword then startResetPassword env s token passwordHash now else none
  | .login email password => startLogin env s email password
  | .fluxa signedIn account confirmLink => startFluxa s signedIn account confirmLink
  | .resume i ok => do
      let phase ← s.calls[i]?
      if ok then resume env s i phase else fail s i phase

end Savitools.Auth.Accounts
