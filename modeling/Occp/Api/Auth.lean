import Occp.Store.UserStore
import Occp.Text

/-!
# Access tokens (`api/auth.py`, `api/routes/auth.py`, `api/routes/oauth.py`)

A JWT is what it carries and the secret that it is signed with. Times are in seconds. The
user store is configured; audit entries and the requests to GitHub themselves are left out.
-/

namespace Occp.Api

open Store (UserStore PasswordHasher User)

/-- The settings and the environment that the routes read. -/
structure Settings where
  occpEnv : String := "development"
  jwtSecret : String
  jwtAlgorithm : String := "HS256"
  jwtExpireMinutes : Int := 1440
  adminUser : String := "admin"
  adminPassword : String := "changeme"
  /-- `OCCP_JWT_SECRET`. The secret is generated when it is not set. -/
  jwtSecretEnv : String := jwtSecret
  /-- `OCCP_OAUTH_STATE_SECRET`. -/
  oauthStateSecret : String := ""
  githubClientId : String := ""
  githubClientSecret : String := ""

def Settings.isProduction (s : Settings) : Bool := s.occpEnv = "production"

/-! ## JWTs -/

structure Jwt where
  payload : Dict Value
  secret : String
  algorithm : String

inductive JwtError where
  | expired
  | invalid (exc : String)

/-- `jwt.decode`, of a string that is a JWT or not even that. -/
def Jwt.decode (token : Except String Jwt) (secret algorithm : String) (now : Int) : Except JwtError (Dict Value) :=
  match token with
  | .error exc => .error (.invalid exc)
  | .ok jwt =>
    if jwt.algorithm ≠ algorithm then .error (.invalid "The specified alg value is not allowed")
    else if jwt.secret ≠ secret then .error (.invalid "Signature verification failed")
    else
      match jwt.payload.get? "exp" with
      | some (.int exp) => if exp ≤ now then .error .expired else .ok jwt.payload
      | some _ => .error (.invalid "Expiration Time claim (exp) must be an integer.")
      | none => .ok jwt.payload

def createAccessToken (subject : Value) (settings : Settings) (now : Int) (extra : Dict Value) : Jwt :=
  let payload : Dict Value := [("sub", subject), ("iat", .int now), ("exp", .int (now + settings.jwtExpireMinutes * 60))]
  { payload := payload.setAll extra, secret := settings.jwtSecret, algorithm := settings.jwtAlgorithm }

def decodeToken (token : Except String Jwt) (settings : Settings) (now : Int) : Except HTTPException (Dict Value) :=
  match Jwt.decode token settings.jwtSecret settings.jwtAlgorithm now with
  | .ok payload => .ok payload
  | .error .expired => .error { statusCode := 401, detail := "Token expired" }
  | .error (.invalid exc) => .error { statusCode := 401, detail := s!"Invalid token: {exc}" }

/-! ## Login, registration and refresh -/

/-- What the server answers when a route raises anything else. -/
def serverError : HTTPException := { statusCode := 500, detail := "Internal Server Error" }

structure LoginRequest where
  username : String
  password : String
  username_length : 1 ≤ username.length ∧ username.length ≤ 100
  password_length : 1 ≤ password.length ∧ password.length ≤ 200

structure SelfRegisterRequest where
  username : String
  password : String
  displayName : String := ""
  username_length : 1 ≤ username.length ∧ username.length ≤ 100
  password_length : 8 ≤ password.length ∧ password.length ≤ 200

structure AdminRegisterRequest extends SelfRegisterRequest where
  role : String := "viewer"
  role_pattern : role ∈ ["viewer", "operator", "org_admin", "system_admin"]

structure TokenResponse where
  accessToken : Jwt
  tokenType : String := "bearer"
  expiresIn : Int
  role : String := "viewer"

/-- The token that a route issues for a user, with the response around it. -/
def tokenResponse (settings : Settings) (now : Int) (user : User) : TokenResponse where
  accessToken := createAccessToken (.str user.username) settings now [("role", .str user.role)]
  expiresIn := settings.jwtExpireMinutes * 60
  role := user.role

/-- Credentials of the environment, outside production only. -/
def bootstrapAdmin (settings : Settings) (body : LoginRequest) : Option User :=
  if settings.isProduction = false ∧ body.username = settings.adminUser ∧ body.password = settings.adminPassword then
    some { username := settings.adminUser, role := "system_admin", displayName := "Admin" }
  else none

def login (ph : PasswordHasher) (settings : Settings) (store : UserStore) (salt : String) (body : LoginRequest)
    (now : Int) : Except HTTPException TokenResponse × UserStore :=
  let (user, store) := store.authenticate ph salt body.username body.password
  match user.or (bootstrapAdmin settings body) with
  | none => (.error { statusCode := 401, detail := "Invalid credentials" }, store)
  | some user => (.ok (tokenResponse settings now user), store)

/-- What both registrations do with their roles. -/
def register (ph : PasswordHasher) (settings : Settings) (store : UserStore) (salt : String)
    (body : SelfRegisterRequest) (role : String) (now : Int) : Except HTTPException TokenResponse × UserStore :=
  match store.getByUsername body.username with
  | some _ => (.error { statusCode := 409, detail := "Username already exists" }, store)
  | none =>
    let displayName := if body.displayName = "" then body.username else body.displayName
    match store.create ph salt body.username body.password role displayName none with
    | .error _ => (.error serverError, store)
    | .ok (user, store) => (.ok (tokenResponse settings now user), store)

def selfRegister (ph : PasswordHasher) (settings : Settings) (store : UserStore) (salt : String)
    (body : SelfRegisterRequest) (now : Int) : Except HTTPException TokenResponse × UserStore :=
  register ph settings store salt body "viewer" now

/-- `gate` is the answer of the permission check for `users:create`. -/
def adminRegisterUser (ph : PasswordHasher) (settings : Settings) (store : UserStore) (salt : String)
    (gate : Except HTTPException Unit) (body : AdminRegisterRequest) (now : Int) :
    Except HTTPException TokenResponse × UserStore :=
  match gate with
  | .error e => (.error e, store)
  | .ok () => register ph settings store salt body.toSelfRegisterRequest body.role now

/-- The subject and the role are those of the old token. A role that is no string fails the response model. -/
def refreshToken (settings : Settings) (token : Except String Jwt) (now : Int) : Except HTTPException TokenResponse := do
  let payload ← decodeToken token settings now
  let sub := (payload.get? "sub").getD (.str "")
  match (payload.get? "role").getD (.str "viewer") with
  | .str role => return {
      accessToken := createAccessToken sub settings now [("role", .str role)]
      expiresIn := settings.jwtExpireMinutes * 60
      role }
  | _ => throw serverError

/-! ## GitHub -/

def stateTokenExpiresSec : Int := 300

/-- `_config`: the client id and the secret are both set. -/
def githubConfigured (settings : Settings) : Bool := settings.githubClientId ≠ "" && settings.githubClientSecret ≠ ""

/-- `_state_secret`: by default the secret of the access tokens. -/
def stateSecret (settings : Settings) : Except HTTPException String :=
  if settings.oauthStateSecret ≠ "" then .ok settings.oauthStateSecret
  else if settings.jwtSecretEnv ≠ "" then .ok settings.jwtSecretEnv
  else .error serverError

def mintState (settings : Settings) (nonce : String) (now : Int) : Except HTTPException Jwt := do
  let secret ← stateSecret settings
  let payload : Dict Value := [("purpose", .str "oauth_state"), ("provider", .str "github"), ("nonce", .str nonce),
    ("iat", .int now), ("exp", .int (now + stateTokenExpiresSec))]
  return { payload, secret, algorithm := "HS256" }

def verifyState (settings : Settings) (state : Except String Jwt) (now : Int) : Except HTTPException Unit := do
  let secret ← stateSecret settings
  match Jwt.decode state secret "HS256" now with
  | .error .expired => throw { statusCode := 400, detail := "OAuth state expired; please restart the flow" }
  | .error (.invalid _) => throw { statusCode := 400, detail := "Invalid OAuth state token" }
  | .ok claims =>
    match claims.get? "purpose" with
    | some (.str "oauth_state") => return ()
    | _ => throw { statusCode := 400, detail := "State token purpose mismatch" }

def githubStart (settings : Settings) (nonce : String) (now : Int) : Except HTTPException Jwt :=
  if githubConfigured settings then mintState settings nonce now
  else .error {
    statusCode := 503
    detail := "GitHub OAuth not configured (missing OCCP_GITHUB_CLIENT_ID/SECRET)" }

/-- The profile that GitHub returns for the code. -/
structure GithubUser where
  login : String
  id : Int
  primaryEmail : Option String := none

structure OAuthTokenResponse where
  accessToken : Jwt
  tokenType : String := "bearer"
  expiresIn : Int
  role : String := "viewer"
  githubLogin : String
  githubId : Int
  email : Option String := none

/-- The login of a callback that GitHub and the state token vouch for. -/
def githubLogin (settings : Settings) (state : Except String Jwt) (profile : Except HTTPException GithubUser)
    (now : Int) : Except HTTPException (GithubUser × String) := do
  if githubConfigured settings = false then
    throw { statusCode := 503, detail := "GitHub OAuth not configured" }
  verifyState settings state now
  let user ← profile
  let login := String.ofList (Text.strip user.login.toList)
  if login = "" then
    throw { statusCode := 502, detail := "GitHub returned no login" }
  return (user, login)

/-- `github_callback`. The store has no method that would create the account. -/
def githubCallback (settings : Settings) (store : UserStore) (state : Except String Jwt)
    (profile : Except HTTPException GithubUser) (now : Int) : Except HTTPException OAuthTokenResponse := do
  let (user, login) ← githubLogin settings state profile now
  let username := "gh_" ++ login
  match store.getByUsername username with
  | none => throw { statusCode := 501, detail := "UserStore has no create_user method" }
  | some account => return {
      accessToken := createAccessToken (.str username) settings now [("role", .str account.role), ("provider", .str "github")]
      -- `occp_jwt_expire_minutes` is no setting, so its default counts.
      expiresIn := 60 * 60
      role := account.role
      githubLogin := login
      githubId := user.id
      email := user.primaryEmail }

end Occp.Api
