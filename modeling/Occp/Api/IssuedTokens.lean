import Occp.Api.Auth
import Occp.Lib.Except
import Occp.Lib.Runs

/-!
# What access tokens say when they are issued

Accounts are created, changed and deleted while people log in, register, refresh and come
back from GitHub. A refresh copies the claims of the old token, and the callback takes an
account as it finds it.
-/

namespace Occp.Api

open Lib (run Admitted)
open Store (UserStore PasswordHasher)

structure System where
  users : UserStore := []
  /-- Every JWT that the service has signed. -/
  signed : List Jwt := []

namespace System

inductive Request where
  | create (salt username password role displayName : String) (email : Option String)
  | updateRole (username newRole : String)
  | deactivate (username : String)
  | delete (username : String)
  | login (salt : String) (body : LoginRequest)
  | selfRegister (salt : String) (body : SelfRegisterRequest)
  | adminRegisterUser (salt : String) (gate : Except HTTPException Unit) (body : AdminRegisterRequest)
  | refreshToken (token : Except String Jwt)
  | githubStart (nonce : String)
  | githubCallback (state : Except String Jwt) (profile : Except HTTPException GithubUser)

structure Event where
  now : Int
  request : Request

variable (ph : PasswordHasher) (settings : Settings)

/-- A request leaves these accounts, and may issue an access token. -/
def serve (users : UserStore) (now : Int) : Request → Option Jwt × UserStore
  | .create salt username password role displayName email =>
    match users.create ph salt username password role displayName email with
    | .ok (_, users) => (none, users)
    | .error _ => (none, users)
  | .updateRole username newRole =>
    match users.updateRole username newRole with
    | .ok (_, users) => (none, users)
    | .error _ => (none, users)
  | .deactivate username => (none, (users.deactivate username).2)
  | .delete username => (none, (users.delete username).2)
  | .login salt body =>
    let (response, users) := login ph settings users salt body now
    (response.toOption.map (·.accessToken), users)
  | .selfRegister salt body =>
    let (response, users) := selfRegister ph settings users salt body now
    (response.toOption.map (·.accessToken), users)
  | .adminRegisterUser salt gate body =>
    let (response, users) := adminRegisterUser ph settings users salt gate body now
    (response.toOption.map (·.accessToken), users)
  | .refreshToken token => ((refreshToken settings token now).toOption.map (·.accessToken), users)
  | .githubStart _ => (none, users)
  | .githubCallback state profile =>
    ((githubCallback settings users state profile now).toOption.map (·.accessToken), users)

def step (s : System) (e : Event) : System :=
  let (token, users) := serve ph settings s.users e.now e.request
  let state := match e.request with
    | .githubStart nonce => (githubStart settings nonce e.now).toOption
    | _ => none
  { users, signed := token.toList ++ state.toList ++ s.signed }

/-- The token names an active account, and the role that it holds. -/
def Respects (users : UserStore) (token : Jwt) : Prop :=
  ∃ username role, token.payload.get? "sub" = some (.str username) ∧ token.payload.get? "role" = some (.str role) ∧
    users.Holds username role

/-- What a refresh and a callback rely on: the old token is still right about its account,
and the account of the GitHub login was not deactivated. -/
def UpToDate (s : System) (e : Event) : Prop :=
  match e.request with
  | .refreshToken token => ∀ payload role, decodeToken token settings e.now = .ok payload →
      (payload.get? "role").getD (.str "viewer") = .str role →
      ∃ username, (payload.get? "sub").getD (.str "") = .str username ∧ s.users.Holds username role
  | .githubCallback state profile => ∀ user login row, githubLogin settings state profile e.now = .ok (user, login) →
      s.users.get? ("gh_" ++ login) = some row → row.isActive = true
  | _ => True

variable {ph settings}

/-! ## Each route -/

theorem sub_createAccessToken (subject : Value) (now : Int) (role : String) {extra : Dict Value}
    (hsub : "sub" ∉ extra.keys) :
    (createAccessToken subject settings now (("role", .str role) :: extra)).payload.get? "sub" = some subject := by
  unfold createAccessToken
  dsimp only
  rw [Dict.setAll_cons, Dict.get?_setAll_of_notMem _ _ _ hsub, Dict.get?_set_of_ne _ _ _ _ (show "sub" ≠ "role" by decide)]
  rfl

theorem role_createAccessToken (subject : Value) (now : Int) (role : String) {extra : Dict Value}
    (hrole : "role" ∉ extra.keys) :
    (createAccessToken subject settings now (("role", .str role) :: extra)).payload.get? "role" = some (.str role) := by
  unfold createAccessToken
  dsimp only
  rw [Dict.setAll_cons, Dict.get?_setAll_of_notMem _ _ _ hrole, Dict.get?_set_self]

/-- A token respects the accounts when the subject and the role that it was made from do. -/
theorem respects_createAccessToken {users : UserStore} {subject : Value} {now : Int} {role : String} {extra : Dict Value}
    (hsub : "sub" ∉ extra.keys) (hrole : "role" ∉ extra.keys) :
    Respects users (createAccessToken subject settings now (("role", .str role) :: extra)) ↔
      ∃ username, subject = .str username ∧ users.Holds username role := by
  unfold Respects
  rw [sub_createAccessToken subject now role hsub, role_createAccessToken subject now role hrole]
  constructor
  · rintro ⟨username, role', hsubject, hrole', hholds⟩
    obtain rfl := Value.str.inj (Option.some.inj hrole')
    exact ⟨username, Option.some.inj hsubject, hholds⟩
  · rintro ⟨username, rfl, hholds⟩
    exact ⟨username, role, rfl, rfl, hholds⟩

theorem respects_tokenResponse {users : UserStore} {now : Int} {user : Store.User} {username : String}
    (h : user.username = username ∧ users.Holds username user.role) :
    Respects users (tokenResponse settings now user).accessToken :=
  (respects_createAccessToken (by simp [Dict.keys]) (by simp [Dict.keys])).mpr ⟨user.username, rfl, h.1 ▸ h.2⟩

theorem login_respects (hproduction : settings.isProduction = true) {users : UserStore} {salt : String}
    {body : LoginRequest} {now : Int} {response : TokenResponse}
    (h : (login ph settings users salt body now).1 = .ok response) :
    Respects (login ph settings users salt body now).2 response.accessToken := by
  have hnone : bootstrapAdmin settings body = none := by
    unfold bootstrapAdmin
    rw [if_neg]
    rintro ⟨hdev, -⟩
    rw [hproduction] at hdev
    cases hdev
  unfold login at h ⊢
  cases hauth : users.authenticate ph salt body.username body.password with
  | mk user store =>
    rw [hauth, hnone] at h
    rw [hnone]
    dsimp only at h ⊢
    rw [Option.or_none] at h ⊢
    cases user with
    | none => cases h
    | some user =>
      rw [← Except.ok.inj h]
      exact respects_tokenResponse (UserStore.authenticate_holds hauth)

theorem register_respects {users : UserStore} {salt role : String} {body : SelfRegisterRequest} {now : Int}
    {response : TokenResponse} (h : (register ph settings users salt body role now).1 = .ok response) :
    Respects (register ph settings users salt body role now).2 response.accessToken := by
  unfold register at h ⊢
  cases hget : users.getByUsername body.username with
  | some user =>
    rw [hget] at h
    cases h
  | none =>
    rw [hget] at h
    dsimp only at h ⊢
    split at h
    · cases h
    · next user store hcreate =>
      rw [← Except.ok.inj h]
      exact respects_tokenResponse (UserStore.create_holds hcreate)

/-- A refresh hands the old claims on, right or wrong. -/
theorem refresh_respects_iff {users : UserStore} {token : Except String Jwt} {now : Int} :
    (∀ response, refreshToken settings token now = .ok response → Respects users response.accessToken) ↔
      ∀ payload role, decodeToken token settings now = .ok payload →
        (payload.get? "role").getD (.str "viewer") = .str role →
        ∃ username, (payload.get? "sub").getD (.str "") = .str username ∧ users.Holds username role := by
  unfold refreshToken
  cases decodeToken token settings now with
  | error e =>
    refine iff_of_true (fun response h => ?_) fun payload role h => ?_
    · cases h
    · cases h
  | ok payload =>
    rw [Lib.Except.ok_bind]
    dsimp only
    split
    · next role hrole =>
      constructor
      · intro h payload' role' hpayload hrole'
        obtain rfl := Except.ok.inj hpayload
        rw [hrole] at hrole'
        obtain rfl := Value.str.inj hrole'
        exact (respects_createAccessToken (by simp [Dict.keys]) (by simp [Dict.keys])).mp (h _ rfl)
      · intro h response hresponse
        rw [← Except.ok.inj hresponse]
        exact (respects_createAccessToken (by simp [Dict.keys]) (by simp [Dict.keys])).mpr (h payload role rfl hrole)
    · next hnot =>
      refine iff_of_true (fun response h => ?_) fun payload' role hpayload hrole => ?_
      · cases h
      · obtain rfl := Except.ok.inj hpayload
        exact absurd hrole (hnot role)

/-- A callback signs in to the account that it finds, active or not. -/
theorem callback_respects_iff {users : UserStore} {state : Except String Jwt}
    {profile : Except HTTPException GithubUser} {now : Int} :
    (∀ response, githubCallback settings users state profile now = .ok response → Respects users response.accessToken) ↔
      ∀ user login row, githubLogin settings state profile now = .ok (user, login) →
        users.get? ("gh_" ++ login) = some row → row.isActive = true := by
  unfold githubCallback UserStore.getByUsername
  cases githubLogin settings state profile now with
  | error e => exact iff_of_true nofun nofun
  | ok found =>
    obtain ⟨user, login⟩ := found
    rw [Lib.Except.ok_bind]
    dsimp only
    cases hrow : users.get? ("gh_" ++ login) with
    | none =>
      refine iff_of_true nofun fun user' login' row hfound hget => ?_
      obtain ⟨rfl, rfl⟩ := Prod.mk.inj (Except.ok.inj hfound)
      rw [hrow] at hget
      cases hget
    | some row =>
      constructor
      · intro h user' login' row' hfound hget
        obtain ⟨rfl, rfl⟩ := Prod.mk.inj (Except.ok.inj hfound)
        obtain ⟨username, hname, row'', hget', hactive, -⟩ :=
          (respects_createAccessToken (by simp [Dict.keys]) (by simp [Dict.keys])).mp (h _ rfl)
        obtain rfl := Value.str.inj hname
        rw [hget] at hget'
        rw [Option.some.inj hget']
        exact hactive
      · intro h response hresponse
        rw [← Except.ok.inj hresponse]
        exact (respects_createAccessToken (by simp [Dict.keys]) (by simp [Dict.keys])).mpr
          ⟨_, rfl, row, hrow, h user login row rfl hrow, rfl⟩

/-! ## Every run -/

/-- The access token that a request issues, if any. -/
def issued (ph : PasswordHasher) (settings : Settings) (s : System) (e : Event) : Option Jwt :=
  (serve ph settings s.users e.now e.request).1

theorem users_step (s : System) (e : Event) :
    (s.step ph settings e).users = (serve ph settings s.users e.now e.request).2 := rfl

/-- The token of a response that is there. -/
theorem token_of_response {α : Type} {response : Except HTTPException α} {token : α → Jwt} {jwt : Jwt}
    (h : response.toOption.map token = some jwt) : ∃ a, response = .ok a ∧ token a = jwt := by
  cases response with
  | error e => cases h
  | ok a => exact ⟨a, rfl, Option.some.inj h⟩

/-- What a request issues respects the accounts exactly when what it relies on is up to date. -/
theorem issued_respects_iff (hproduction : settings.isProduction = true) (s : System) (e : Event) :
    (∀ token, s.issued ph settings e = some token → Respects (s.step ph settings e).users token) ↔
      s.UpToDate settings e := by
  rw [users_step]
  obtain ⟨now, request⟩ := e
  unfold issued serve UpToDate
  cases request with
  | create salt username password role displayName email =>
    dsimp only
    split
    · exact iff_of_true nofun trivial
    · exact iff_of_true nofun trivial
  | updateRole username newRole =>
    dsimp only
    split
    · exact iff_of_true nofun trivial
    · exact iff_of_true nofun trivial
  | deactivate username => exact iff_of_true nofun trivial
  | delete username => exact iff_of_true nofun trivial
  | login salt body =>
    refine iff_of_true (fun token htoken => ?_) trivial
    obtain ⟨response, hresponse, rfl⟩ := token_of_response htoken
    exact login_respects hproduction hresponse
  | selfRegister salt body =>
    refine iff_of_true (fun token htoken => ?_) trivial
    obtain ⟨response, hresponse, rfl⟩ := token_of_response htoken
    exact register_respects hresponse
  | adminRegisterUser salt gate body =>
    refine iff_of_true (fun token htoken => ?_) trivial
    obtain ⟨response, hresponse, rfl⟩ := token_of_response htoken
    cases gate with
    | error e => cases hresponse
    | ok u => exact register_respects hresponse
  | refreshToken token =>
    refine Iff.trans ⟨fun h response hresponse => ?_, fun h jwt hjwt => ?_⟩ refresh_respects_iff
    · exact h response.accessToken (congrArg (fun r => r.toOption.map (·.accessToken)) hresponse)
    · obtain ⟨response, hresponse, rfl⟩ := token_of_response hjwt
      exact h response hresponse
  | githubStart nonce => exact iff_of_true nofun trivial
  | githubCallback state profile =>
    refine Iff.trans ⟨fun h response hresponse => ?_, fun h jwt hjwt => ?_⟩ callback_respects_iff
    · exact h response.accessToken (congrArg (fun r => r.toOption.map (·.accessToken)) hresponse)
    · obtain ⟨response, hresponse, rfl⟩ := token_of_response hjwt
      exact h response hresponse

/-- **Every token of a run respects the accounts exactly when every refresh and every callback
of the run relies on what is up to date.** -/
theorem tokens_respect_accounts_iff (hproduction : settings.isProduction = true) (s : System) (events : List Event) :
    (∀ before e after, events = before ++ e :: after → ∀ token,
        (run (step ph settings) s before).issued ph settings e = some token →
          Respects ((run (step ph settings) s before).step ph settings e).users token) ↔
      Admitted (step ph settings) (UpToDate settings) s events := by
  rw [Lib.admitted_iff_forall]
  constructor
  · intro h before e after hsplit
    exact (issued_respects_iff hproduction _ e).mp (h before e after hsplit)
  · intro h before e after hsplit
    exact (issued_respects_iff hproduction _ e).mpr (h before e after hsplit)

/-! ## One account -/

/-- Hashes that can be checked by eye. -/
def readableHasher : PasswordHasher where
  hash salt password := salt ++ password
  verify passwordHash password := passwordHash = "salt" ++ password
  checkNeedsRehash _ := false

def production : Settings := {
  occpEnv := "production", jwtSecret := "secret", githubClientId := "id", githubClientSecret := "secret" }

def registerBob : SelfRegisterRequest where
  username := "gh_bob"
  password := "password"
  username_length := by decide
  password_length := by decide

def loginBob : LoginRequest where
  username := "gh_bob"
  password := "password"
  username_length := by decide
  password_length := by decide

/-- Registration and login rely on nothing. -/
theorem bob_is_respected :
    let registered := run (step readableHasher production) {} [⟨0, .selfRegister "salt" registerBob⟩]
    ∃ token, registered.issued readableHasher production ⟨1, .login "salt" loginBob⟩ = some token ∧
      Respects (registered.step readableHasher production ⟨1, .login "salt" loginBob⟩).users token :=
  ⟨_, rfl, (tokens_respect_accounts_iff (by decide) {}
    [⟨0, .selfRegister "salt" registerBob⟩, ⟨1, .login "salt" loginBob⟩]).mpr ⟨trivial, trivial, trivial⟩
    [⟨0, .selfRegister "salt" registerBob⟩] _ [] rfl _ rfl⟩

/-- A token outlives the account that it was issued for: after a promotion is taken back or the account is
deactivated, a refresh hands the old claims on, and the callback signs in to the deactivated account. A refresh
also takes the state token of a GitHub login, which has no subject. -/
theorem refresh_outlives_the_account :
    let promoted := run (step readableHasher production) {}
      [⟨0, .create "salt" "gh_bob" "password" "system_admin" "" none⟩, ⟨1, .login "salt" loginBob⟩, ⟨1, .githubStart "n"⟩]
    let demoted := promoted.step readableHasher production ⟨2, .updateRole "gh_bob" "viewer"⟩
    let deactivated := promoted.step readableHasher production ⟨2, .deactivate "gh_bob"⟩
    ∃ access state, promoted.signed = [state, access] ∧
      (∃ token, demoted.issued readableHasher production ⟨3, .refreshToken (.ok access)⟩ = some token ∧
        ¬ Respects demoted.users token) ∧
      (∃ token, deactivated.issued readableHasher production ⟨3, .refreshToken (.ok access)⟩ = some token ∧
        ¬ Respects deactivated.users token) ∧
      (∃ token, deactivated.issued readableHasher production ⟨3, .githubCallback (.ok state) (.ok ⟨"bob", 1, none⟩)⟩ =
        some token ∧ ¬ Respects deactivated.users token) ∧
      ∃ token, promoted.issued readableHasher production ⟨3, .refreshToken (.ok state)⟩ = some token ∧
        ¬ Respects promoted.users token := by
  refine ⟨_, _, rfl, ⟨_, rfl, ?_⟩, ⟨_, rfl, ?_⟩, ⟨_, rfl, ?_⟩, ⟨_, rfl, ?_⟩⟩
  · rintro ⟨username, role, hsub, hrole, row, hrow, -, hsame⟩
    cases hsub
    cases hrole
    cases hrow
    exact absurd hsame (by decide)
  · rintro ⟨username, role, hsub, -, row, hrow, hactive, -⟩
    cases hsub
    cases hrow
    cases hactive
  · rintro ⟨username, role, hsub, -, row, hrow, hactive, -⟩
    cases hsub
    cases hrow
    cases hactive
  · rintro ⟨username, role, hsub, -, row, hrow, -, -⟩
    cases hsub
    cases hrow

end System

end Occp.Api
