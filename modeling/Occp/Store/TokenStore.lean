import Occp.Lib.Rows
import Occp.Security.Encryption

/-!
# API tokens of users and organisations (`store/token_store.py`)

One table holds both; the rows of organisations have a reserved user id. Times are left out.
-/

namespace Occp.Store

open Lib (deleteRows replaceRows updateRows)
open Security (Primitives Randomness TokenEncryptor)

structure EncryptedTokenRow where
  id : String
  userId : String
  orgId : String := ""
  provider : String
  encryptedValue : List UInt8
  maskedValue : String
  label : String
  isActive : Bool := true

def maskToken (token : String) : String :=
  let cs := token.toList
  if cs.length ≤ 12 then "***"
  else String.ofList (cs.take 6) ++ "***" ++ String.ofList (cs.drop (cs.length - 4))

def orgUserId : String := "__org__"

def scalarOneOrNone {α : Type} : List α → Except PyError (Option α)
  | [] => .ok none
  | [row] => .ok (some row)
  | _ => .error (.other "MultipleResultsFound" "Multiple rows were found when one or none was required")

structure TokenStore where
  rows : List EncryptedTokenRow := []
  enc : TokenEncryptor

namespace TokenStore

/-- The rows of a user for a provider. -/
def ofUser (userId provider : String) (r : EncryptedTokenRow) : Bool := r.userId = userId ∧ r.provider = provider

/-- The rows of an organisation for a provider. -/
def ofOrg (orgId provider : String) (r : EncryptedTokenRow) : Bool :=
  r.userId = orgUserId ∧ r.orgId = orgId ∧ r.provider = provider

variable (c : Primitives)

/-- `id` is the random id of the new row. -/
def storeToken (s : TokenStore) (id : String) (random : Randomness) (userId provider token label : String) :
    EncryptedTokenRow × TokenStore :=
  let row := {
    id, userId, provider
    encryptedValue := s.enc.encrypt c random token
    maskedValue := maskToken token
    label := if label = "" then s!"{provider} API key" else label }
  (row, { s with rows := replaceRows (ofUser userId provider) row s.rows })

def storeOrgToken (s : TokenStore) (id : String) (random : Randomness) (orgId provider token label : String) :
    EncryptedTokenRow × TokenStore :=
  let row := {
    id, userId := orgUserId, orgId, provider
    encryptedValue := s.enc.encrypt c random token
    maskedValue := maskToken token
    label := if label = "" then s!"org-default {provider} key" else label }
  (row, { s with rows := replaceRows (ofOrg orgId provider) row s.rows })

/-- The user's active token, else that of the organisation when one is given. A token that
does not decrypt is only logged. -/
def getDecrypted (s : TokenStore) (userId provider orgId : String) : Except PyError (Option String) := do
  let own ← scalarOneOrNone ((s.rows.filter (ofUser userId provider)).filter (·.isActive))
  let row ← match own with
    | some row => pure (some row)
    | none =>
      if orgId = "" then pure none
      else scalarOneOrNone ((s.rows.filter (ofOrg orgId provider)).filter (·.isActive))
  match row with
  | none => return none
  | some row =>
    match s.enc.decrypt c row.encryptedValue with
    | .ok token => return some token
    | .error _ => return none

def revokeToken (s : TokenStore) (userId provider : String) : Except PyError (Bool × TokenStore) := do
  match ← scalarOneOrNone (s.rows.filter (ofUser userId provider)) with
  | none => return (false, s)
  | some _ =>
    return (true, { s with rows := updateRows (ofUser userId provider) (fun r => { r with isActive := false }) s.rows })

def deleteToken (s : TokenStore) (userId provider : String) : Bool × TokenStore :=
  (!(s.rows.filter (ofUser userId provider)).isEmpty, { s with rows := deleteRows (ofUser userId provider) s.rows })

/-- One row of `rotate_all`: as it was when something raises. -/
def rotateRow (enc new : TokenEncryptor) (fails : String → Bool) (random : String → Randomness) (r : EncryptedTokenRow) :
    Bool × EncryptedTokenRow :=
  match enc.decrypt c r.encryptedValue with
  | .error _ => (false, r)
  | .ok plaintext =>
    if fails r.id then (false, r) else (true, { r with encryptedValue := new.encrypt c (random r.id) plaintext })

/-- `fails` says which rows raise in their decryption or encryption. -/
def rotateAll (s : TokenStore) (new : TokenEncryptor) (fails : String → Bool) (random : String → Randomness) :
    Nat × TokenStore :=
  let rotate := rotateRow c s.enc new fails random
  let count := ((s.rows.filter (·.isActive)).filter fun r => (rotate r).1).length
  (count, { rows := updateRows (·.isActive) (fun r => (rotate r).2) s.rows, enc := new })

end TokenStore

end Occp.Store
