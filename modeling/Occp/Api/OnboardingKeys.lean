import Occp.Lib.Runs
import Occp.Text

/-!
# API keys (`api/routes/onboarding_keys.py`)

Times are in microseconds, and a request reads the clock once. `sha256` is the hex digest,
and `text` what `str` makes of a claim that is no string.
-/

namespace Occp.Api

open Lib (run Admitted)

structure KeyRecord where
  user : String
  hashed : String
  prefixShown : String
  createdAt : Int
  rotatedAt : Option Int := none
  graceUntil : Option Int := none

structure KeyStore where
  keyByHash : Dict KeyRecord := []
  latestByUser : Dict String := []
  graceByUser : Dict String := []

def apiKeyPrefixLive : String := "occp_live_sk_"

def rotationGraceSec : Int := 48 * 3600

def rotationGrace : Int := rotationGraceSec * 1000000

def base64Alphabet : List Char := "ABCDEFGHIJKLMNOPQRSTUVWXYZabcdefghijklmnopqrstuvwxyz0123456789-_".toList

def base64Char (n : Nat) : Char := (base64Alphabet[n]?).getD 'A'

/-- `urlsafe_b64encode` without its padding. -/
def base64url : List UInt8 → List Char
  | [] => []
  | [a] => [base64Char (a.toNat / 4), base64Char (a.toNat % 4 * 16)]
  | [a, b] => [base64Char (a.toNat / 4), base64Char (a.toNat % 4 * 16 + b.toNat / 16), base64Char (b.toNat % 16 * 4)]
  | a :: b :: c :: rest =>
    [base64Char (a.toNat / 4), base64Char (a.toNat % 4 * 16 + b.toNat / 16),
      base64Char (b.toNat % 16 * 4 + c.toNat / 64), base64Char (c.toNat % 64)] ++ base64url rest

/-- The key that `_mint_key` makes of random bytes. -/
def plainKey (raw : List UInt8) : String := apiKeyPrefixLive ++ String.ofList (base64url raw)

def prefixShown (plain : String) : String :=
  String.ofList (plain.toList.take (apiKeyPrefixLive.length + 6)) ++ "…"

structure FirstKeyResponse where
  key : String
  prefixShown : String
  createdAt : Int
  copyReminder : String := "This is the only time the key is shown. Store it in a password manager " ++
    "or your CI secrets. You can always rotate if lost."

structure RotateResponse where
  key : String
  prefixShown : String
  createdAt : Int
  previousGraceUntil : Int
  graceSeconds : Int := rotationGraceSec

def currentUser (text : Value → String) (payload : Dict Value) : Except HTTPException String :=
  let sub := (payload.get? "sub").getD .none
  let user := if sub.truthy then sub else (payload.get? "username").getD .none
  if user.truthy then .ok (Text.inserted text user)
  else .error { statusCode := 401, detail := "Authenticated user has no subject claim" }

namespace KeyStore

variable (sha256 : String → String)

/-- A new key becomes the latest of its user. -/
def issue (s : KeyStore) (user plain : String) (now : Int) : KeyStore :=
  let hashed := sha256 plain
  { s with
    keyByHash := s.keyByHash.set hashed { user, hashed, prefixShown := prefixShown plain, createdAt := now }
    latestByUser := s.latestByUser.set user hashed }

def firstApiKey (s : KeyStore) (user plain : String) (now : Int) : Except HTTPException FirstKeyResponse × KeyStore :=
  match s.latestByUser.get? user with
  | some _ =>
    (.error {
      statusCode := 409
      detail := "API key already generated. Use POST /onboarding/rotate-api-key instead." }, s)
  | none => (.ok { key := plain, prefixShown := prefixShown plain, createdAt := now }, s.issue sha256 user plain now)

/-- The key that was the latest gets its grace, in the one slot of its user. -/
def startGrace (s : KeyStore) (user oldHash : String) (now : Int) : KeyStore :=
  match s.keyByHash.get? oldHash with
  | some rec =>
    { s with
      keyByHash := s.keyByHash.set oldHash { rec with rotatedAt := some now, graceUntil := some (now + rotationGrace) }
      graceByUser := s.graceByUser.set user oldHash }
  | none => s

def rotateApiKey (s : KeyStore) (user plain : String) (now : Int) : Except HTTPException RotateResponse × KeyStore :=
  match s.latestByUser.get? user with
  | none =>
    (.error {
      statusCode := 404
      detail := "No existing API key to rotate. Call /onboarding/first-api-key first." }, s)
  | some oldHash =>
    let response := {
      key := plain, prefixShown := prefixShown plain, createdAt := now, previousGraceUntil := now + rotationGrace }
    (.ok response, (s.startGrace user oldHash now).issue sha256 user plain now)

/-- `if h and h in _KEY_BY_HASH: del _KEY_BY_HASH[h]`. -/
def drop (s : KeyStore) : Option String → KeyStore
  | some h => if h = "" then s else { s with keyByHash := s.keyByHash.pop h }
  | none => s

/-- A revocation without `confirm` is refused before the user is looked up. -/
def revokeApiKey (s : KeyStore) (user : Except HTTPException String) (confirm : Bool) :
    Except HTTPException String × KeyStore :=
  if confirm then
    match user with
    | .error e => (.error e, s)
    | .ok user =>
      let latest := s.latestByUser.get? user
      let s := { s with latestByUser := s.latestByUser.pop user }.drop latest
      let grace := s.graceByUser.get? user
      (.ok user, { s with graceByUser := s.graceByUser.pop user }.drop grace)
  else (.error { statusCode := 400, detail := "Set confirm=true to revoke" }, s)

/-- The key in an `Authorization` header. -/
def candidate (auth : Option String) : Option String := do
  let cs := (← auth).toList
  if "bearer ".toList.isPrefixOf (Text.lower cs) then
    let key := Text.strip ((cs.dropWhile (· ≠ ' ')).drop 1)
    if apiKeyPrefixLive.toList.isPrefixOf key then some (String.ofList key) else none
  else none

/-- The record, and the `X-Rotate-Grace-Until` of a key in its grace. -/
def validateApiKeyHeader (s : KeyStore) (auth : Option String) (now : Int) :
    Option (KeyRecord × Option Int) × KeyStore :=
  match candidate auth with
  | none => (none, s)
  | some key =>
    let hashed := sha256 key
    match s.keyByHash.get? hashed with
    | none => (none, s)
    | some rec =>
      match s.graceByUser.get? rec.user == some hashed, rec.graceUntil with
      | true, some graceUntil =>
        if now < graceUntil then (some (rec, some graceUntil), s)
        else (none, { s with keyByHash := s.keyByHash.pop hashed, graceByUser := s.graceByUser.pop rec.user })
      | _, _ => (some (rec, none), s)

end KeyStore

end Occp.Api
