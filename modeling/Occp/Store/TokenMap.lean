import Mathlib.Logic.Function.Basic
import Occp.Lib.Except
import Occp.Lib.Runs
import Occp.Store.TokenStore

/-!
# The token store as a map

What the store is for: each user and each organisation has at most one token for a
provider, and a user without one falls back on the organisation. The table keeps to it as
long as the reserved user id is left to the organisations, and no row fails a rotation.
-/

namespace Occp.Store

open Lib (run Admitted deleteRows replaceRows updateRows)
open Security (Primitives Randomness TokenEncryptor)

/-- Tokens by user and provider, and by organisation and provider. -/
structure TokenMap where
  users : String × String → Option String := fun _ => none
  orgs : String × String → Option String := fun _ => none

def TokenMap.lookup (m : TokenMap) (userId provider orgId : String) : Option String :=
  (m.users (userId, provider)).or (if orgId = "" then none else m.orgs (orgId, provider))

inductive TokenEvent where
  | storeToken (id : String) (random : Randomness) (userId provider token label : String)
  | storeOrgToken (id : String) (random : Randomness) (orgId provider token label : String)
  | revokeToken (userId provider : String)
  | deleteToken (userId provider : String)
  | rotateAll (new : TokenEncryptor) (fails : String → Bool) (random : String → Randomness)

/-- What a call means for the map. -/
def TokenMap.step (m : TokenMap) : TokenEvent → TokenMap
  | .storeToken _ _ userId provider token _ => { m with users := Function.update m.users (userId, provider) (some token) }
  | .storeOrgToken _ _ orgId provider token _ => { m with orgs := Function.update m.orgs (orgId, provider) (some token) }
  | .revokeToken userId provider | .deleteToken userId provider =>
    { m with users := Function.update m.users (userId, provider) none }
  | .rotateAll .. => m

variable (c : Primitives)

/-- What a call does to the table. A revocation that raises changes nothing. -/
def TokenStore.step (s : TokenStore) : TokenEvent → TokenStore
  | .storeToken id random userId provider token label => (s.storeToken c id random userId provider token label).2
  | .storeOrgToken id random orgId provider token label => (s.storeOrgToken c id random orgId provider token label).2
  | .revokeToken userId provider =>
    match s.revokeToken userId provider with
    | .ok (_, s) => s
    | .error _ => s
  | .deleteToken userId provider => (s.deleteToken userId provider).2
  | .rotateAll new fails random => (s.rotateAll c new fails random).2

/-- The call stores a token of an organisation for the provider. -/
def TokenEvent.StoresOrg (provider : String) : TokenEvent → Prop
  | .storeOrgToken _ _ _ p _ _ => p = provider
  | _ => False

/-- The call takes the reserved id for a user, for the provider. -/
def TokenEvent.UsesReserved (provider : String) : TokenEvent → Prop
  | .storeToken _ _ userId p _ _ | .revokeToken userId p | .deleteToken userId p => userId = orgUserId ∧ p = provider
  | _ => False

/-- A rotation fails on no active row. -/
def TokenStore.Rotates (s : TokenStore) : TokenEvent → Prop
  | .rotateAll _ fails _ => ∀ r ∈ s.rows, r.isActive = true → fails r.id = false
  | _ => True

/-! ## The table holds the map -/

/-- The rows of one key hold its token, in one row at most. -/
def Represents (enc : TokenEncryptor) (rows : List EncryptedTokenRow) : Option String → Prop
  | none => rows = [] ∨ ∃ row, rows = [row] ∧ row.isActive = false
  | some token => ∃ row, rows = [row] ∧ row.isActive = true ∧ enc.decrypt c row.encryptedValue = .ok token

/-- The table holds the map, where the providers of organisations are those of `orgProvider`. -/
structure Refines (orgProvider : String → Prop) (s : TokenStore) (m : TokenMap) : Prop where
  users : ∀ userId provider, (userId = orgUserId → ¬ orgProvider provider) →
    Represents c s.enc (s.rows.filter (TokenStore.ofUser userId provider)) (m.users (userId, provider))
  orgs : ∀ orgId provider, orgProvider provider →
    Represents c s.enc (s.rows.filter (TokenStore.ofOrg orgId provider)) (m.orgs (orgId, provider))
  apart : ∀ provider, ¬ orgProvider provider → (∀ orgId, m.orgs (orgId, provider) = none) ∧
    ∀ r ∈ s.rows, r.userId = orgUserId → r.provider = provider → r.orgId = ""

variable {c} {orgProvider : String → Prop} {s : TokenStore} {m : TokenMap}

theorem Represents.active {enc : TokenEncryptor} {rows : List EncryptedTokenRow} {token : Option String}
    (h : Represents c enc rows token) :
    (token = none ∧ rows.filter (·.isActive) = []) ∨
      ∃ row t, token = some t ∧ rows.filter (·.isActive) = [row] ∧ enc.decrypt c row.encryptedValue = .ok t := by
  cases token with
  | none =>
    rcases h with rfl | ⟨row, rfl, hinactive⟩
    · exact .inl ⟨rfl, rfl⟩
    · exact .inl ⟨rfl, by rw [List.filter_singleton, hinactive]; rfl⟩
  | some t =>
    obtain ⟨row, rfl, hactive, hdecrypt⟩ := h
    exact .inr ⟨row, t, rfl, by rw [List.filter_singleton, hactive]; rfl, hdecrypt⟩

theorem Represents.atMostOne {enc : TokenEncryptor} {rows : List EncryptedTokenRow} {token : Option String}
    (h : Represents c enc rows token) : rows = [] ∨ ∃ row, rows = [row] := by
  cases token with
  | none => exact h.imp_right fun ⟨row, hrow, _⟩ => ⟨row, hrow⟩
  | some t =>
    obtain ⟨row, hrow, -⟩ := h
    exact .inr ⟨row, hrow⟩

/-- The organisation that is looked up has at most one active row. -/
theorem Refines.orgRows (h : Refines c orgProvider s m) {orgId : String} (horg : orgId ≠ "") (provider : String) :
    Represents c s.enc (s.rows.filter (TokenStore.ofOrg orgId provider)) (m.orgs (orgId, provider)) := by
  by_cases hprovider : orgProvider provider
  · exact h.orgs orgId provider hprovider
  · obtain ⟨hnone, hempty⟩ := h.apart provider hprovider
    rw [hnone]
    refine .inl (List.filter_eq_nil_iff.mpr fun r hr hof => ?_)
    obtain ⟨huser, horg', hprovider'⟩ := of_decide_eq_true hof
    exact horg (horg'.symm.trans (hempty r hr huser hprovider'))

/-- A table that holds the map answers as the map does. -/
theorem Refines.getDecrypted (h : Refines c orgProvider s m) {userId provider : String}
    (huser : userId = orgUserId → ¬ orgProvider provider) (orgId : String) :
    s.getDecrypted c userId provider orgId = .ok (m.lookup userId provider orgId) := by
  unfold TokenStore.getDecrypted TokenMap.lookup
  rcases (h.users userId provider huser).active with ⟨hnone, hrows⟩ | ⟨row, t, hsome, hrows, hdecrypt⟩
  · rw [hnone, hrows, Option.none_or]
    simp only [scalarOneOrNone, Lib.Except.ok_bind]
    by_cases horg : orgId = ""
    · rw [if_pos horg, if_pos horg]
      rfl
    · rw [if_neg horg, if_neg horg]
      rcases (h.orgRows horg provider).active with ⟨hnone, hrows⟩ | ⟨row, t, hsome, hrows, hdecrypt⟩
      · rw [hnone, hrows]
        rfl
      · rw [hsome, hrows]
        simp only [Lib.Except.ok_bind, hdecrypt]
        rfl
  · rw [hsome, hrows, Option.some_or]
    simp only [scalarOneOrNone, Lib.Except.ok_bind, pure_bind, hdecrypt]
    rfl

/-! ## Keys that select different rows -/

def EncryptedTokenRow.key (r : EncryptedTokenRow) : String × String × String := (r.userId, r.orgId, r.provider)

theorem key_eq_iff {r r' : EncryptedTokenRow} :
    r.key = r'.key ↔ r.userId = r'.userId ∧ r.orgId = r'.orgId ∧ r.provider = r'.provider := by
  unfold EncryptedTokenRow.key
  rw [Prod.mk.injEq, Prod.mk.injEq]

theorem ofUser_iff {userId provider : String} {r : EncryptedTokenRow} :
    TokenStore.ofUser userId provider r = true ↔ r.userId = userId ∧ r.provider = provider := decide_eq_true_iff

theorem ofOrg_iff {orgId provider : String} {r : EncryptedTokenRow} :
    TokenStore.ofOrg orgId provider r = true ↔ r.userId = orgUserId ∧ r.orgId = orgId ∧ r.provider = provider :=
  decide_eq_true_iff

theorem ofUser_disjoint {u p u' p' : String} (h : (u', p') ≠ (u, p)) (r : EncryptedTokenRow)
    (hr : TokenStore.ofUser u' p' r = true) : TokenStore.ofUser u p r = false := by
  obtain ⟨rfl, rfl⟩ := ofUser_iff.mp hr
  refine decide_eq_false fun ⟨huser, hprovider⟩ => h ?_
  rw [huser, hprovider]

theorem ofOrg_disjoint {o p o' p' : String} (h : (o', p') ≠ (o, p)) (r : EncryptedTokenRow)
    (hr : TokenStore.ofOrg o' p' r = true) : TokenStore.ofOrg o p r = false := by
  obtain ⟨-, rfl, rfl⟩ := ofOrg_iff.mp hr
  refine decide_eq_false fun ⟨_, horg, hprovider⟩ => h ?_
  rw [horg, hprovider]

theorem ofOrg_ofUser_disjoint {o p u p' : String} (h : u = orgUserId → p ≠ p') (r : EncryptedTokenRow)
    (hr : TokenStore.ofOrg o p r = true) : TokenStore.ofUser u p' r = false := by
  obtain ⟨huser, -, rfl⟩ := ofOrg_iff.mp hr
  refine decide_eq_false fun ⟨huser', hprovider⟩ => h ?_ hprovider
  rw [← huser', huser]

theorem ofUser_ofOrg_disjoint {o p u p' : String} (h : u = orgUserId → p ≠ p') (r : EncryptedTokenRow)
    (hr : TokenStore.ofUser u p' r = true) : TokenStore.ofOrg o p r = false := by
  obtain ⟨rfl, rfl⟩ := ofUser_iff.mp hr
  exact decide_eq_false fun ⟨huser, _, hprovider⟩ => h huser hprovider.symm

/-! ## Every call keeps it -/

/-- A provider of organisations is not one for which a user has the reserved id. -/
theorem provider_ne {u p p' : String} (hu : u = orgUserId → ¬ orgProvider p) (hp' : orgProvider p') :
    u = orgUserId → p' ≠ p := by
  rintro huser rfl
  exact hu huser hp'

theorem Refines.storeToken (h : Refines c orgProvider s m) (hc : c.Correct) (id : String) (random : Randomness)
    {u p : String} (hu : u = orgUserId → ¬ orgProvider p) (token label : String) :
    Refines c orgProvider (s.step c (.storeToken id random u p token label))
      (m.step (.storeToken id random u p token label)) := by
  unfold TokenStore.step TokenStore.storeToken TokenMap.step
  refine ⟨fun u' p' hu' => ?_, fun o p' hp' => ?_, fun p' hnot => ?_⟩
  · by_cases heq : (u', p') = (u, p)
    · obtain ⟨rfl, rfl⟩ := Prod.mk.inj heq
      dsimp only
      rw [Function.update_self, Lib.filter_replaceRows_self]
      · exact ⟨_, rfl, rfl, TokenEncryptor.decrypt_encrypt hc s.enc random token⟩
      · exact ofUser_iff.mpr ⟨rfl, rfl⟩
    · dsimp only
      rw [Function.update_of_ne heq, Lib.filter_replaceRows_of_disjoint (ofUser_disjoint heq)]
      · exact h.users u' p' hu'
      · exact ofUser_disjoint (Ne.symm heq) _ (ofUser_iff.mpr ⟨rfl, rfl⟩)
  · have hne := provider_ne hu hp'
    dsimp only
    rw [Lib.filter_replaceRows_of_disjoint (ofOrg_ofUser_disjoint hne)]
    · exact h.orgs o p' hp'
    · exact ofUser_ofOrg_disjoint hne _ (ofUser_iff.mpr ⟨rfl, rfl⟩)
  · obtain ⟨hnone, hempty⟩ := h.apart p' hnot
    refine ⟨hnone, fun r hr hreserved hprovider => ?_⟩
    rcases List.mem_append.mp hr with hold | hnew
    · exact hempty r (List.mem_filter.mp hold).1 hreserved hprovider
    · rw [List.mem_singleton] at hnew
      rw [hnew]

theorem Refines.storeOrgToken (h : Refines c orgProvider s m) (hc : c.Correct) (id : String) (random : Randomness)
    {o p : String} (hp : orgProvider p) (token label : String) :
    Refines c orgProvider (s.step c (.storeOrgToken id random o p token label))
      (m.step (.storeOrgToken id random o p token label)) := by
  unfold TokenStore.step TokenStore.storeOrgToken TokenMap.step
  refine ⟨fun u p' hu => ?_, fun o' p' hp' => ?_, fun p' hnot => ?_⟩
  · have hne := provider_ne hu hp
    dsimp only
    rw [Lib.filter_replaceRows_of_disjoint (ofUser_ofOrg_disjoint hne)]
    · exact h.users u p' hu
    · exact ofOrg_ofUser_disjoint hne _ (ofOrg_iff.mpr ⟨rfl, rfl, rfl⟩)
  · by_cases heq : (o', p') = (o, p)
    · obtain ⟨rfl, rfl⟩ := Prod.mk.inj heq
      dsimp only
      rw [Function.update_self, Lib.filter_replaceRows_self]
      · exact ⟨_, rfl, rfl, TokenEncryptor.decrypt_encrypt hc s.enc random token⟩
      · exact ofOrg_iff.mpr ⟨rfl, rfl, rfl⟩
    · dsimp only
      rw [Function.update_of_ne heq, Lib.filter_replaceRows_of_disjoint (ofOrg_disjoint heq)]
      · exact h.orgs o' p' hp'
      · exact ofOrg_disjoint (Ne.symm heq) _ (ofOrg_iff.mpr ⟨rfl, rfl, rfl⟩)
  · obtain ⟨hnone, hempty⟩ := h.apart p' hnot
    refine ⟨fun o' => ?_, fun r hr hreserved hprovider => ?_⟩
    · dsimp only
      rw [Function.update_of_ne]
      · exact hnone o'
      · intro heq
        exact hnot ((Prod.mk.inj heq).2 ▸ hp)
    · rcases List.mem_append.mp hr with hold | hnew
      · exact hempty r (List.mem_filter.mp hold).1 hreserved hprovider
      · rw [List.mem_singleton] at hnew
        rw [hnew] at hprovider
        exact absurd (hprovider ▸ hp) hnot

/-- Once the rows of the key are gone or inactive, the map has nothing for it. -/
theorem Refines.clear (h : Refines c orgProvider s m) {u p : String} (hu : u = orgUserId → ¬ orgProvider p)
    {rows : List EncryptedTokenRow}
    (hself : Represents c s.enc (rows.filter (TokenStore.ofUser u p)) none)
    (hother : ∀ q : EncryptedTokenRow → Bool, (∀ r, q r = true → TokenStore.ofUser u p r = false) →
      (∀ r, q { r with isActive := false } = q r) → rows.filter q = s.rows.filter q)
    (hkeys : ∀ r ∈ rows, ∃ r' ∈ s.rows, r'.key = r.key) :
    Refines c orgProvider { s with rows } { m with users := Function.update m.users (u, p) none } := by
  refine ⟨fun u' p' hu' => ?_, fun o p' hp' => ?_, fun p' hnot => ?_⟩
  · by_cases heq : (u', p') = (u, p)
    · obtain ⟨rfl, rfl⟩ := Prod.mk.inj heq
      dsimp only
      rwa [Function.update_self]
    · dsimp only
      rw [Function.update_of_ne heq, hother _ (ofUser_disjoint heq) fun r => rfl]
      exact h.users u' p' hu'
  · dsimp only
    rw [hother _ (ofOrg_ofUser_disjoint (provider_ne hu hp')) fun r => rfl]
    exact h.orgs o p' hp'
  · obtain ⟨hnone, hempty⟩ := h.apart p' hnot
    refine ⟨hnone, fun r hr hreserved hprovider => ?_⟩
    obtain ⟨r', hr', hkey⟩ := hkeys r hr
    obtain ⟨huser, horg, hprovider'⟩ := key_eq_iff.mp hkey
    rw [← horg]
    exact hempty r' hr' (huser.trans hreserved) (hprovider'.trans hprovider)

theorem Refines.deleteToken (h : Refines c orgProvider s m) {u p : String} (hu : u = orgUserId → ¬ orgProvider p) :
    Refines c orgProvider (s.step c (.deleteToken u p)) (m.step (.deleteToken u p)) := by
  refine h.clear hu (.inl Lib.filter_deleteRows_self) (fun q hq _ => Lib.filter_deleteRows_of_disjoint hq) fun r hr => ?_
  exact ⟨r, (List.mem_filter.mp hr).1, rfl⟩

theorem Refines.revokeToken (h : Refines c orgProvider s m) {u p : String} (hu : u = orgUserId → ¬ orgProvider p) :
    Refines c orgProvider (s.step c (.revokeToken u p)) (m.step (.revokeToken u p)) := by
  rcases (h.users u p hu).atMostOne with hnone | ⟨row, hone⟩
  · have hstep : s.step c (.revokeToken u p) = s := by
      unfold TokenStore.step
      dsimp only
      unfold TokenStore.revokeToken
      rw [hnone]
      rfl
    rw [hstep]
    exact h.clear hu (.inl hnone) (fun _ _ _ => rfl) fun r hr => ⟨r, hr, rfl⟩
  · have hstep : s.step c (.revokeToken u p) =
        { s with rows := updateRows (TokenStore.ofUser u p) (fun r => { r with isActive := false }) s.rows } := by
      unfold TokenStore.step
      dsimp only
      unfold TokenStore.revokeToken
      rw [hone]
      rfl
    rw [hstep]
    refine h.clear hu ?_ (fun q hq hstable => ?_) fun r hr => ?_
    · have hstable (r : EncryptedTokenRow) : TokenStore.ofUser u p { r with isActive := false } = TokenStore.ofUser u p r :=
        rfl
      rw [Lib.filter_updateRows hstable, hone]
      have hmem : row ∈ s.rows.filter (TokenStore.ofUser u p) := by rw [hone]; exact List.mem_singleton_self row
      refine .inr ⟨{ row with isActive := false }, ?_, rfl⟩
      unfold updateRows
      rw [List.map_singleton, if_pos (List.mem_filter.mp hmem).2]
    · rw [Lib.filter_updateRows hstable]
      exact Lib.updateRows_of_forall_not fun r hr => hq r (List.mem_filter.mp hr).2
    · have hkey (r : EncryptedTokenRow) : EncryptedTokenRow.key { r with isActive := false } = r.key := rfl
      exact Lib.mem_updateRows hkey hr

/-- A row that does not fail has the same token under the new key. -/
theorem rotateRow_decrypts (hc : c.Correct) {enc new : TokenEncryptor} {fails : String → Bool}
    {random : String → Randomness} {r : EncryptedTokenRow} {token : String} (hfails : fails r.id = false)
    (h : enc.decrypt c r.encryptedValue = .ok token) :
    new.decrypt c (TokenStore.rotateRow c enc new fails random r).2.encryptedValue = .ok token := by
  unfold TokenStore.rotateRow
  rw [h]
  dsimp only
  rw [hfails, if_neg Bool.false_ne_true]
  exact TokenEncryptor.decrypt_encrypt hc new _ token

/-- A rotation leaves everything else of a row as it is. -/
theorem rotateRow_same (enc new : TokenEncryptor) (fails : String → Bool) (random : String → Randomness)
    (r : EncryptedTokenRow) :
    ∃ value, (TokenStore.rotateRow c enc new fails random r).2 = { r with encryptedValue := value } := by
  unfold TokenStore.rotateRow
  split
  · exact ⟨_, rfl⟩
  · split
    · exact ⟨_, rfl⟩
    · exact ⟨_, rfl⟩

/-- What the rows of a key hold, they hold under the new key. -/
theorem Represents.rotate (hc : c.Correct) {enc new : TokenEncryptor} {fails : String → Bool}
    {random : String → Randomness} {rows : List EncryptedTokenRow} {token : Option String}
    (h : Represents c enc rows token) (hfails : ∀ r ∈ rows, r.isActive = true → fails r.id = false) :
    Represents c new (updateRows (·.isActive) (fun r => (TokenStore.rotateRow c enc new fails random r).2) rows) token := by
  cases token with
  | none =>
    rcases h with rfl | ⟨row, rfl, hinactive⟩
    · exact .inl rfl
    · refine .inr ⟨row, Lib.updateRows_of_forall_not fun r hr => ?_, hinactive⟩
      rwa [List.mem_singleton.mp hr]
  | some t =>
    obtain ⟨row, rfl, hactive, hdecrypt⟩ := h
    obtain ⟨value, hsame⟩ := rotateRow_same (c := c) enc new fails random row
    have hrotated : updateRows (·.isActive) (fun r => (TokenStore.rotateRow c enc new fails random r).2) [row] =
        [(TokenStore.rotateRow c enc new fails random row).2] := by
      unfold updateRows
      rw [List.map_singleton, if_pos hactive]
    refine ⟨_, hrotated, ?_, rotateRow_decrypts hc (hfails row (List.mem_singleton_self row) hactive) hdecrypt⟩
    rw [hsame]
    exact hactive

theorem Refines.rotateAll (h : Refines c orgProvider s m) (hc : c.Correct) {new : TokenEncryptor}
    {fails : String → Bool} {random : String → Randomness} (hrotates : s.Rotates (.rotateAll new fails random)) :
    Refines c orgProvider (s.step c (.rotateAll new fails random)) (m.step (.rotateAll new fails random)) := by
  unfold TokenStore.step TokenStore.rotateAll TokenMap.step
  have hfails (q : EncryptedTokenRow → Bool) (r : EncryptedTokenRow) (hr : r ∈ s.rows.filter q)
      (hactive : r.isActive = true) : fails r.id = false := hrotates r (List.mem_filter.mp hr).1 hactive
  refine ⟨fun u p hu => ?_, fun o p hp => ?_, fun p hnot => ?_⟩
  · dsimp only
    rw [Lib.filter_updateRows fun r => ?_]
    · exact (h.users u p hu).rotate hc (hfails _)
    · obtain ⟨value, hsame⟩ := rotateRow_same (c := c) s.enc new fails random r
      rw [hsame]
      rfl
  · dsimp only
    rw [Lib.filter_updateRows fun r => ?_]
    · exact (h.orgs o p hp).rotate hc (hfails _)
    · obtain ⟨value, hsame⟩ := rotateRow_same (c := c) s.enc new fails random r
      rw [hsame]
      rfl
  · obtain ⟨hnone, hempty⟩ := h.apart p hnot
    refine ⟨hnone, fun r hr hreserved hprovider => ?_⟩
    have hstable (r : EncryptedTokenRow) : (TokenStore.rotateRow c s.enc new fails random r).2.key = r.key := by
      obtain ⟨value, hsame⟩ := rotateRow_same (c := c) s.enc new fails random r
      rw [hsame]
      rfl
    obtain ⟨r', hr', hkey⟩ := Lib.mem_updateRows hstable hr
    obtain ⟨huser, horg, hprovider'⟩ := key_eq_iff.mp hkey
    rw [← horg]
    exact hempty r' hr' (huser.trans hreserved) (hprovider'.trans hprovider)

/-- Every call keeps the table to the map. -/
theorem refines_step (h : Refines c orgProvider s m) (hc : c.Correct) {e : TokenEvent}
    (hreserved : ∀ provider, orgProvider provider → ¬ e.UsesReserved provider)
    (horg : ∀ provider, e.StoresOrg provider → orgProvider provider) (hrotates : s.Rotates e) :
    Refines c orgProvider (s.step c e) (m.step e) := by
  cases e with
  | storeToken id random u p token label => exact h.storeToken hc id random (fun hu hp => hreserved p hp ⟨hu, rfl⟩) token label
  | storeOrgToken id random o p token label => exact h.storeOrgToken hc id random (horg p rfl) token label
  | revokeToken u p => exact h.revokeToken fun hu hp => hreserved p hp ⟨hu, rfl⟩
  | deleteToken u p => exact h.deleteToken fun hu hp => hreserved p hp ⟨hu, rfl⟩
  | rotateAll new fails random => exact h.rotateAll hc hrotates

theorem refines_start (enc : TokenEncryptor) : Refines c orgProvider { enc } {} where
  users _ _ _ := .inl rfl
  orgs _ _ _ := .inl rfl
  apart _ _ := ⟨fun _ => rfl, fun _ hr => absurd hr List.not_mem_nil⟩

/-- A run keeps the table to the map. -/
theorem refines_run (hc : c.Correct) {events : List TokenEvent} (h : Refines c orgProvider s m)
    (hreserved : ∀ provider, orgProvider provider → ∀ e ∈ events, ¬ e.UsesReserved provider)
    (horg : ∀ provider, ∀ e ∈ events, e.StoresOrg provider → orgProvider provider)
    (hrotates : Admitted (TokenStore.step c) TokenStore.Rotates s events) :
    Refines c orgProvider (run (TokenStore.step c) s events) (run TokenMap.step m events) := by
  induction events generalizing s m with
  | nil => exact h
  | cons e events ih =>
    refine ih ?_ (fun p hp e' he' => hreserved p hp e' (List.mem_cons_of_mem _ he'))
      (fun p e' he' => horg p e' (List.mem_cons_of_mem _ he')) hrotates.2
    exact refines_step h hc (fun p hp => hreserved p hp e List.mem_cons_self)
      (fun p => horg p e List.mem_cons_self) hrotates.1

/-- **The store answers every lookup as the map does**, when no provider has both tokens of
organisations and a user with the reserved id, and no active row fails a rotation. -/
theorem getDecrypted_run (hc : c.Correct) (enc : TokenEncryptor) (events : List TokenEvent)
    (hapart : ∀ provider, ∀ e ∈ events, e.StoresOrg provider → ∀ e' ∈ events, ¬ e'.UsesReserved provider)
    (hrotates : Admitted (TokenStore.step c) TokenStore.Rotates { enc } events) :
    ∀ userId provider orgId, (userId = orgUserId → ∀ e ∈ events, ¬ e.StoresOrg provider) →
      (run (TokenStore.step c) { enc } events).getDecrypted c userId provider orgId =
        .ok ((run TokenMap.step {} events).lookup userId provider orgId) := by
  intro u p o hu
  have hrefines : Refines c (fun p => ∃ e ∈ events, e.StoresOrg p) (run (TokenStore.step c) { enc } events)
      (run TokenMap.step {} events) :=
    refines_run hc (refines_start enc) (fun p ⟨e, he, hstores⟩ => hapart p e he hstores)
      (fun p e he hstores => ⟨e, he, hstores⟩) hrotates
  exact hrefines.getDecrypted (fun huser ⟨e, he, hstores⟩ => hu huser e he hstores) o

/-! ## Two master keys -/

def zeros : Randomness where
  salt := List.replicate 16 0
  nonce := List.replicate 12 0
  salt_length := rfl
  nonce_length := rfl

def firstKey : TokenEncryptor := { master := List.replicate 32 0 }

def secondKey : TokenEncryptor := { master := List.replicate 32 1 }

def firstDek : List UInt8 := [213, 8, 6, 30, 251, 86, 215, 82, 160, 197, 8, 70, 174, 133, 231, 3, 155, 91, 113, 62, 251, 64,
  78, 92, 98, 191, 161, 67, 147, 19, 83, 136]

def secondDek : List UInt8 := [49, 29, 13, 161, 179, 241, 115, 177, 140, 27, 141, 179, 160, 84, 196, 45, 94, 172, 252, 25,
  60, 27, 220, 189, 149, 1, 200, 87, 199, 202, 7, 26]

/-- "sk" with its tag, under each key. -/
def sealed (key : List UInt8) : List UInt8 :=
  if key = firstDek then [206, 47, 226, 130, 254, 96, 162, 68, 255, 99, 137, 158, 112, 208, 232, 2, 200, 197]
  else [23, 11, 138, 182, 186, 59, 124, 112, 95, 251, 39, 214, 146, 227, 56, 137, 68, 68]

/-- The encryption of "sk" under the keys above, with nothing random. -/
def isSample (key nonce aad : List UInt8) : Bool :=
  (key = firstDek ∨ key = secondDek) ∧ nonce = zeros.nonce ∧ aad = Security.v1Prefix ++ zeros.salt

/-- AES-GCM and HKDF on these keys. Other plaintexts get a tag of zeros. -/
def samplePrimitives : Primitives where
  encrypt key nonce data aad :=
    if isSample key nonce aad ∧ data = [115, 107] then sealed key else data ++ List.replicate 16 0
  decrypt key nonce data aad :=
    if isSample key nonce aad ∧ data = sealed key then some [115, 107]
    else if data.drop (data.length - 16) = List.replicate 16 0 then some (data.take (data.length - 16))
    else none
  derive _ _ master := if master = firstKey.master then firstDek else secondDek

theorem drop_sealed (key : List UInt8) : (sealed key).drop ((sealed key).length - 16) ≠ List.replicate 16 0 := by
  unfold sealed
  split
  · decide
  · decide

theorem samplePrimitives_correct : samplePrimitives.Correct := by
  have hlength (key : List UInt8) : (sealed key).length = [(115 : UInt8), 107].length + 16 := by
    unfold sealed
    split
    · rfl
    · rfl
  exact Primitives.ofSample_correct hlength drop_sealed

def storeAndRotate : List TokenEvent :=
  [.storeToken "1" zeros "alice" "anthropic" "sk" "", .rotateAll secondKey (fun _ => false) fun _ => zeros]

/-- A token is read after a rotation. -/
theorem rotated_token_is_read :
    (run (TokenStore.step samplePrimitives) { enc := firstKey } storeAndRotate).getDecrypted samplePrimitives
      "alice" "anthropic" "acme" = .ok (some "sk") := by
  refine getDecrypted_run samplePrimitives_correct firstKey storeAndRotate ?_ ⟨trivial, fun _ _ _ => rfl, trivial⟩
    "alice" "anthropic" "acme" fun h => absurd h (by decide)
  simp [storeAndRotate, TokenEvent.StoresOrg]

/-- A user with the reserved id takes the organisation's token away. A row that fails a rotation
is not read under the new key. -/
theorem reserved_id_and_failed_row :
    let shared := run (TokenStore.step samplePrimitives) { enc := firstKey }
      [.storeOrgToken "1" zeros "acme" "anthropic" "sk" "", .storeToken "2" zeros "__org__" "anthropic" "sk" ""]
    let stored := run (TokenStore.step samplePrimitives) { enc := firstKey } [.storeToken "1" zeros "alice" "anthropic" "sk" ""]
    let rotated := stored.step samplePrimitives (.rotateAll secondKey (fun _ => true) fun _ => zeros)
    (run TokenMap.step {} [.storeOrgToken "1" zeros "acme" "anthropic" "sk" "",
        .storeToken "2" zeros "__org__" "anthropic" "sk" ""]).lookup "alice" "anthropic" "acme" = some "sk" ∧
      shared.getDecrypted samplePrimitives "alice" "anthropic" "acme" = .ok none ∧
      stored.getDecrypted samplePrimitives "alice" "anthropic" "" = .ok (some "sk") ∧
      rotated.getDecrypted samplePrimitives "alice" "anthropic" "" = .ok none := by
  refine ⟨?_, ?_, ?_, ?_⟩
  · rfl
  · rfl
  · rfl
  · rfl

end Occp.Store
