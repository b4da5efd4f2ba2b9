import Occp.Errors

/-!
# Accounts (`store/user_store.py`)

The table keeps one row for each username, which the database requires to be unique. Ids,
metadata and times are left out.
-/

namespace Occp.Store

structure UserRow where
  passwordHash : String
  role : String
  isActive : Bool := true
  displayName : String
  email : Option String := none

structure User where
  username : String
  role : String := "viewer"
  displayName : String := ""
  email : Option String := none
  isActive : Bool := true

def validRoles : List String := ["system_admin", "org_admin", "operator", "viewer"]

/-- `argon2.PasswordHasher`. A hash has a random salt. -/
structure PasswordHasher where
  hash : (salt password : String) → String
  verify : (passwordHash password : String) → Bool
  checkNeedsRehash : (passwordHash : String) → Bool

abbrev UserStore := Dict UserRow

namespace UserStore

def rowToUser (username : String) (row : UserRow) : User :=
  { username, role := row.role, displayName := row.displayName, email := row.email, isActive := row.isActive }

def create (ph : PasswordHasher) (store : UserStore) (salt username password role displayName : String)
    (email : Option String) : Except PyError (User × UserStore) :=
  if role ∈ validRoles then
    match store.get? username with
    | some _ => .error (.other "IntegrityError" "UNIQUE constraint failed: users.username")
    | none =>
      let displayName := if displayName = "" then username else displayName
      let row := { passwordHash := ph.hash salt password, role, displayName, email }
      .ok (rowToUser username row, store.set username row)
  else
    let roles := ", ".intercalate (validRoles.map reprString)
    .error (.valueError s!"Invalid role: {role}. Must be one of ({roles})")

def updateRole (store : UserStore) (username newRole : String) : Except PyError (Bool × UserStore) :=
  if newRole ∈ validRoles then
    match store.get? username with
    | none => .ok (false, store)
    | some row => .ok (true, store.set username { row with role := newRole })
  else .error (.valueError s!"Invalid role: {newRole}")

/-- A deactivated account keeps its row. -/
def deactivate (store : UserStore) (username : String) : Bool × UserStore :=
  match store.get? username with
  | none => (false, store)
  | some row => (true, store.set username { row with isActive := false })

def delete (store : UserStore) (username : String) : Bool × UserStore :=
  ((store.get? username).isSome, store.pop username)

def getByUsername (store : UserStore) (username : String) : Option User :=
  (store.get? username).map (rowToUser username)

/-- An active account whose password fits; its hash is renewed when argon2 asks for it. -/
def authenticate (ph : PasswordHasher) (store : UserStore) (salt username password : String) :
    Option User × UserStore :=
  match store.get? username with
  | none => (none, store)
  | some row =>
    if row.isActive ∧ ph.verify row.passwordHash password then
      let renewed := if ph.checkNeedsRehash row.passwordHash then { row with passwordHash := ph.hash salt password } else row
      (some (rowToUser username renewed), store.set username renewed)
    else (none, store)

/-! ## Accounts as an observer sees them -/

/-- The account is active and has this role. -/
def Holds (store : UserStore) (username role : String) : Prop :=
  ∃ row, store.get? username = some row ∧ row.isActive = true ∧ row.role = role

theorem create_holds {ph : PasswordHasher} {store store' : UserStore} {salt username password role displayName : String}
    {email : Option String} {user : User}
    (h : create ph store salt username password role displayName email = .ok (user, store')) :
    user.username = username ∧ Holds store' username user.role := by
  unfold create at h
  split at h
  · split at h
    · cases h
    · obtain ⟨rfl, rfl⟩ := Prod.mk.inj (Except.ok.inj h)
      exact ⟨rfl, _, Dict.get?_set_self .., rfl, rfl⟩
  · cases h

/-- Whoever is let in has an active account, with the role that the login reports. -/
theorem authenticate_holds {ph : PasswordHasher} {store store' : UserStore} {salt username password : String} {user : User}
    (h : authenticate ph store salt username password = (some user, store')) :
    user.username = username ∧ Holds store' username user.role := by
  unfold authenticate at h
  split at h
  · cases h
  · next row hrow =>
    split at h
    · next hlet =>
      obtain ⟨huser, rfl⟩ := Prod.mk.inj h
      obtain rfl := Option.some.inj huser
      refine ⟨rfl, _, Dict.get?_set_self .., ?_, rfl⟩
      split
      · exact hlet.1
      · exact hlet.1
    · cases h

end UserStore

end Occp.Store
