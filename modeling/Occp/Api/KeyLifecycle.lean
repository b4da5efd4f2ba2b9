import Occp.Api.OnboardingKeys

/-!
# The life of an API key

A key is issued, rotated away, and revoked; here every order of requests is followed, and
what an observer of them would note. A user has one grace slot, and a second rotation while
it is taken leaves the key of the first one in the store for good.
-/

namespace Occp.Api

open Lib (run Admitted)

structure Service where
  store : KeyStore := {}
  clock : Int
  /-- Users and the keys that they were given, newest first. -/
  issued : List (String × String) := []
  /-- Keys that were rotated away, and when. -/
  retired : List (String × Int) := []
  /-- Keys that were issued to a user before that user revoked. -/
  revoked : List String := []

namespace Service

inductive Request where
  | firstApiKey (payload : Dict Value) (raw : List UInt8)
  | rotateApiKey (payload : Dict Value) (raw : List UInt8)
  | revokeApiKey (payload : Dict Value) (confirm : Bool)
  | validateApiKeyHeader (auth : Option String)

structure Event where
  now : Int
  request : Request

/-- The key that the user was given last. -/
def held (s : Service) (user : String) : Option String := (s.issued.find? fun e => e.1 = user).map (·.2)

def isIssuedTo (s : Service) (user key : String) : Prop := (user, key) ∈ s.issued

variable (sha256 : String → String) (text : Value → String)

def noteIssue (s : Service) (user : String) (store : KeyStore) (key : String) : Service :=
  { s with store, issued := (user, key) :: s.issued }

def noteRotation (s : Service) (user : String) (now : Int) (store : KeyStore) (key : String) : Service :=
  { s.noteIssue user store key with retired := (s.held user).toList.map (fun old => (old, now)) ++ s.retired }

def noteRevocation (s : Service) (user : String) (store : KeyStore) : Service :=
  { s with store, revoked := (s.issued.filter fun e => e.1 = user).map (·.2) ++ s.revoked }

def serve (s : Service) (now : Int) : Request → Service
  | .firstApiKey payload raw =>
    match currentUser text payload with
    | .error _ => s
    | .ok user =>
      match s.store.firstApiKey sha256 user (plainKey raw) now with
      | (.error _, _) => s
      | (.ok response, store) => s.noteIssue user store response.key
  | .rotateApiKey payload raw =>
    match currentUser text payload with
    | .error _ => s
    | .ok user =>
      match s.store.rotateApiKey sha256 user (plainKey raw) now with
      | (.error _, _) => s
      | (.ok response, store) => s.noteRotation user now store response.key
  | .revokeApiKey payload confirm =>
    match s.store.revokeApiKey (currentUser text payload) confirm with
    | (.error _, _) => s
    | (.ok user, store) => s.noteRevocation user store
  | .validateApiKeyHeader auth => { s with store := (s.store.validateApiKeyHeader sha256 auth now).2 }

def step (s : Service) (e : Event) : Service := { s.serve sha256 text e.now e.request with clock := e.now }

/-- Time does not run back, and a new key differs from the earlier ones, by its digest. -/
def Possible (s : Service) (e : Event) : Prop :=
  s.clock ≤ e.now ∧
    match e.request with
    | .firstApiKey _ raw | .rotateApiKey _ raw => ∀ user key, s.isIssuedTo user key → sha256 (plainKey raw) ≠ sha256 key
    | _ => True

/-- A rotation finds the grace slot of its user free. -/
def SlotFree (s : Service) (e : Event) : Prop :=
  match e.request with
  | .rotateApiKey payload _ => ∀ user, currentUser text payload = .ok user → s.store.graceByUser.get? user = none
  | _ => True

/-- The key was rotated away 48 hours before, or revoked. -/
def Dead (s : Service) (key : String) (now : Int) : Prop :=
  (∃ t, (key, t) ∈ s.retired ∧ t + rotationGrace ≤ now) ∨ key ∈ s.revoked

/-! ## Where a stored key may be -/

structure Sound (s : Service) : Prop where
  distinct : ∀ user key user' key', s.isIssuedTo user key → s.isIssuedTo user' key' → sha256 key = sha256 key' →
    user = user' ∧ key = key'
  latest : ∀ user h, s.store.latestByUser.get? user = some h → ∃ key, s.held user = some key ∧ h = sha256 key
  grace : ∀ user h, s.store.graceByUser.get? user = some h → ∃ key, h = sha256 key
  owned : ∀ user key rec, s.isIssuedTo user key → s.store.keyByHash.get? (sha256 key) = some rec → rec.user = user
  /-- No key is stored that is neither the latest of its user nor in the grace slot. -/
  placed : ∀ h rec, s.store.keyByHash.get? h = some rec →
    s.store.latestByUser.get? rec.user = some h ∨ s.store.graceByUser.get? rec.user = some h
  retired : ∀ key t, (key, t) ∈ s.retired → (∃ user, s.isIssuedTo user key) ∧
    (∀ user, s.store.latestByUser.get? user ≠ some (sha256 key)) ∧
    ∀ rec, s.store.keyByHash.get? (sha256 key) = some rec → rec.graceUntil = some (t + rotationGrace)
  revoked : ∀ key ∈ s.revoked, (∃ user, s.isIssuedTo user key) ∧ s.store.keyByHash.get? (sha256 key) = none

variable {sha256 text}

theorem isIssuedTo_of_held {s : Service} {user key : String} (h : s.held user = some key) : s.isIssuedTo user key := by
  unfold held at h
  obtain ⟨⟨user', key'⟩, hfind, rfl⟩ := Option.map_eq_some_iff.mp h
  have huser := List.find?_some hfind
  rw [decide_eq_true_eq] at huser
  have hmem := List.mem_of_find?_eq_some hfind
  rwa [← huser]

/-- A sound store gives no dead key back. -/
theorem Sound.rejects {s : Service} (hs : s.Sound sha256) {key : String} {now : Int} (hdead : s.Dead key now)
    {auth : Option String} (hauth : KeyStore.candidate auth = some key) :
    (s.store.validateApiKeyHeader sha256 auth now).1 = none := by
  unfold KeyStore.validateApiKeyHeader
  rw [hauth]
  cases hrec : s.store.keyByHash.get? (sha256 key) with
  | none => simp only [hrec]
  | some rec =>
    rcases hdead with ⟨t, hretired, hle⟩ | hrevoked
    · obtain ⟨-, hlatest, hgrace⟩ := hs.retired key t hretired
      have hslot := (hs.placed _ rec hrec).resolve_left (hlatest rec.user)
      have hlate : ¬ now < t + rotationGrace := by omega
      simp only [hrec, hslot, hgrace rec hrec, beq_self_eq_true, if_neg hlate]
    · rw [(hs.revoked key hrevoked).2] at hrec
      cases hrec

/-- Soundness outlives the loss of entries, when every key that is left keeps its place. -/
theorem Sound.shrink {s : Service} (hs : s.Sound sha256) {store : KeyStore}
    (hkeys : ∀ h rec, store.keyByHash.get? h = some rec → s.store.keyByHash.get? h = some rec)
    (hlatest : ∀ user h, store.latestByUser.get? user = some h → s.store.latestByUser.get? user = some h)
    (hgrace : ∀ user h, store.graceByUser.get? user = some h → s.store.graceByUser.get? user = some h)
    (hplaced : ∀ h rec, store.keyByHash.get? h = some rec →
      store.latestByUser.get? rec.user = some h ∨ store.graceByUser.get? rec.user = some h) :
    ({ s with store } : Service).Sound sha256 where
  distinct := hs.distinct
  latest user h hget := hs.latest user h (hlatest user h hget)
  grace user h hget := hs.grace user h (hgrace user h hget)
  owned user key rec hissued hget := hs.owned user key rec hissued (hkeys _ rec hget)
  placed := hplaced
  retired key t hmem := by
    obtain ⟨hissued, hnot, huntil⟩ := hs.retired key t hmem
    exact ⟨hissued, fun user hget => hnot user (hlatest user _ hget), fun rec hget => huntil rec (hkeys _ rec hget)⟩
  revoked key hmem := by
    obtain ⟨hissued, hnone⟩ := hs.revoked key hmem
    refine ⟨hissued, Option.eq_none_iff_forall_ne_some.mpr fun rec hget => ?_⟩
    rw [hkeys _ rec hget] at hnone
    cases hnone

/-! ## What the requests keep -/

@[simp] theorem store_noteIssue (s : Service) (user : String) (store : KeyStore) (key : String) :
    (s.noteIssue user store key).store = store := rfl

@[simp] theorem store_noteRotation (s : Service) (user : String) (now : Int) (store : KeyStore) (key : String) :
    (s.noteRotation user now store key).store = store := rfl

theorem latestByUser_issue (store : KeyStore) (user plain : String) (now : Int) (other : String) :
    (store.issue sha256 user plain now).latestByUser.get? other =
      if other = user then some (sha256 plain) else store.latestByUser.get? other :=
  Dict.get?_set _ _ _ _

theorem keyByHash_issue (store : KeyStore) (user plain : String) (now : Int) (h : String) :
    (store.issue sha256 user plain now).keyByHash.get? h =
      if h = sha256 plain then
        some { user, hashed := sha256 plain, prefixShown := prefixShown plain, createdAt := now }
      else store.keyByHash.get? h :=
  Dict.get?_set _ _ _ _

@[simp] theorem graceByUser_issue (store : KeyStore) (user plain : String) (now : Int) :
    (store.issue sha256 user plain now).graceByUser = store.graceByUser := rfl

/-- A new key may be issued when the one it follows has a place in the grace slot, or none. -/
theorem Sound.issue {s : Service} (hs : s.Sound sha256) {user plain : String} {now : Int}
    (hnew : ∀ user' key, s.isIssuedTo user' key → sha256 plain ≠ sha256 key)
    (hpast : ∀ h rec, s.store.latestByUser.get? user = some h → s.store.keyByHash.get? h = some rec →
      s.store.graceByUser.get? user = some h) :
    (s.noteIssue user (s.store.issue sha256 user plain now) plain).Sound sha256 where
  distinct user₁ key₁ user₂ key₂ h₁ h₂ hsame := by
    rcases List.mem_cons.mp h₁ with heq₁ | hold₁
    · obtain ⟨rfl, rfl⟩ := Prod.mk.inj heq₁
      rcases List.mem_cons.mp h₂ with heq₂ | hold₂
      · obtain ⟨rfl, rfl⟩ := Prod.mk.inj heq₂
        exact ⟨rfl, rfl⟩
      · exact absurd hsame (hnew user₂ key₂ hold₂)
    · rcases List.mem_cons.mp h₂ with heq₂ | hold₂
      · obtain ⟨rfl, rfl⟩ := Prod.mk.inj heq₂
        exact absurd hsame.symm (hnew user₁ key₁ hold₁)
      · exact hs.distinct user₁ key₁ user₂ key₂ hold₁ hold₂ hsame
  latest user' h hget := by
    rw [store_noteIssue, latestByUser_issue] at hget
    unfold held noteIssue
    dsimp only
    split at hget
    · next heq =>
      rw [heq, List.find?_cons_of_pos (by simp)]
      exact ⟨plain, rfl, (Option.some.inj hget).symm⟩
    · next hne =>
      rw [List.find?_cons_of_neg (by simpa using Ne.symm hne)]
      exact hs.latest user' h hget
  grace := hs.grace
  owned user' key rec hissued hget := by
    rw [store_noteIssue, keyByHash_issue] at hget
    rcases List.mem_cons.mp hissued with heq | hold
    · obtain ⟨rfl, rfl⟩ := Prod.mk.inj heq
      rw [if_pos rfl] at hget
      rw [← Option.some.inj hget]
    · rw [if_neg (hnew user' key hold).symm] at hget
      exact hs.owned user' key rec hold hget
  placed h rec hget := by
    rw [store_noteIssue, keyByHash_issue] at hget
    rw [store_noteIssue, latestByUser_issue, graceByUser_issue]
    split at hget
    · next heq =>
      rw [← Option.some.inj hget, heq, if_pos rfl]
      exact .inl rfl
    · rcases hs.placed h rec hget with hlatest | hgrace
      · split
        · next hsame =>
          rw [hsame] at hlatest ⊢
          exact .inr (hpast h rec hlatest hget)
        · exact .inl hlatest
      · exact .inr hgrace
  retired key t hmem := by
    obtain ⟨⟨user', hissued⟩, hnot, huntil⟩ := hs.retired key t hmem
    refine ⟨⟨user', List.mem_cons_of_mem _ hissued⟩, fun user'' hget => ?_, fun rec hget => ?_⟩
    · rw [store_noteIssue, latestByUser_issue] at hget
      split at hget
      · exact hnew user' key hissued (Option.some.inj hget)
      · exact hnot user'' hget
    · rw [store_noteIssue, keyByHash_issue, if_neg (hnew user' key hissued).symm] at hget
      exact huntil rec hget
  revoked key hmem := by
    obtain ⟨⟨user', hissued⟩, hnone⟩ := hs.revoked key hmem
    refine ⟨⟨user', List.mem_cons_of_mem _ hissued⟩, ?_⟩
    rwa [store_noteIssue, keyByHash_issue, if_neg (hnew user' key hissued).symm]

@[simp] theorem latestByUser_startGrace (store : KeyStore) (user oldHash : String) (now : Int) :
    (store.startGrace user oldHash now).latestByUser = store.latestByUser := by
  unfold KeyStore.startGrace
  split
  · rfl
  · rfl

/-- A key that is stored when its grace starts is in the slot, with 48 hours to go. -/
theorem graced_startGrace {store : KeyStore} {user oldHash : String} {now : Int} {rec : KeyRecord}
    (h : (store.startGrace user oldHash now).keyByHash.get? oldHash = some rec) :
    rec.graceUntil = some (now + rotationGrace) ∧ (store.startGrace user oldHash now).graceByUser.get? user = some oldHash := by
  unfold KeyStore.startGrace at h ⊢
  split at h
  · dsimp only at h ⊢
    rw [Dict.get?_set_self] at h
    rw [← Option.some.inj h, Dict.get?_set_self]
    exact ⟨rfl, rfl⟩
  · next hnone =>
    rw [hnone] at h
    cases h

/-- The latest key goes into a free grace slot. -/
theorem Sound.startGrace {s : Service} (hs : s.Sound sha256) {user oldHash : String} {now : Int}
    (hold : s.store.latestByUser.get? user = some oldHash) (hfree : s.store.graceByUser.get? user = none) :
    ({ s with store := s.store.startGrace user oldHash now } : Service).Sound sha256 := by
  unfold KeyStore.startGrace
  split
  · next rec hrec =>
    obtain ⟨key, hheld, hhash⟩ := hs.latest user oldHash hold
    have huser : rec.user = user := hs.owned user key rec (isIssuedTo_of_held hheld) (hhash ▸ hrec)
    refine ⟨hs.distinct, hs.latest, fun user' h hget => ?_, fun user' key' rec' hissued hget => ?_,
      fun h rec' hget => ?_, fun key' t hmem => ?_, fun key' hmem => ?_⟩
    · rw [Dict.get?_set] at hget
      split at hget
      · exact ⟨key, (Option.some.inj hget).symm.trans hhash⟩
      · exact hs.grace user' h hget
    · rw [Dict.get?_set] at hget
      split at hget
      · next heq =>
        rw [← Option.some.inj hget]
        exact hs.owned user' key' rec hissued (heq ▸ hrec)
      · exact hs.owned user' key' rec' hissued hget
    · rw [Dict.get?_set] at hget ⊢
      split at hget
      · next heq =>
        rw [← Option.some.inj hget, heq, huser]
        exact .inl hold
      · rcases hs.placed h rec' hget with hlatest | hgrace
        · exact .inl hlatest
        · refine .inr ?_
          split
          · next hsame =>
            rw [hsame, hfree] at hgrace
            cases hgrace
          · exact hgrace
    · obtain ⟨hissued, hnot, huntil⟩ := hs.retired key' t hmem
      refine ⟨hissued, hnot, fun rec' hget => ?_⟩
      rw [Dict.get?_set] at hget
      split at hget
      · next heq => exact absurd (heq ▸ hold) (hnot user)
      · exact huntil rec' hget
    · obtain ⟨hissued, hnone⟩ := hs.revoked key' hmem
      refine ⟨hissued, ?_⟩
      rw [Dict.get?_set]
      split
      · next heq =>
        rw [heq, hrec] at hnone
        cases hnone
      · exact hnone
  · exact hs

theorem Sound.firstApiKey {s : Service} (hs : s.Sound sha256) {user plain : String} {now : Int}
    (hnew : ∀ user' key, s.isIssuedTo user' key → sha256 plain ≠ sha256 key)
    (hnone : s.store.latestByUser.get? user = none) :
    (s.noteIssue user (s.store.issue sha256 user plain now) plain).Sound sha256 := by
  refine hs.issue hnew fun h rec hlatest _ => ?_
  rw [hnone] at hlatest
  cases hlatest

/-- The key that a rotation replaces is retired with a grace of 48 hours. -/
theorem Sound.rotateApiKey {s : Service} (hs : s.Sound sha256) {user oldHash plain : String} {now : Int}
    (hnew : ∀ user' key, s.isIssuedTo user' key → sha256 plain ≠ sha256 key)
    (hold : s.store.latestByUser.get? user = some oldHash) (hfree : s.store.graceByUser.get? user = none) :
    (s.noteRotation user now ((s.store.startGrace user oldHash now).issue sha256 user plain now) plain).Sound sha256 := by
  obtain ⟨old, hheld, hhash⟩ := hs.latest user oldHash hold
  have hissued : s.isIssuedTo user old := isIssuedTo_of_held hheld
  have hgraced : ({ s with store := s.store.startGrace user oldHash now } : Service).Sound sha256 :=
    hs.startGrace hold hfree
  have hsound : (s.noteIssue user ((s.store.startGrace user oldHash now).issue sha256 user plain now) plain).Sound sha256 := by
    refine hgraced.issue hnew fun h rec hlatest hget => ?_
    dsimp only at hlatest hget ⊢
    rw [latestByUser_startGrace, hold] at hlatest
    obtain rfl := Option.some.inj hlatest
    exact (graced_startGrace hget).2
  refine { hsound with retired := fun key t hmem => ?_ }
  rcases List.mem_append.mp hmem with hthis | hthat
  · rw [hheld, Option.toList_some, List.map_singleton, List.mem_singleton] at hthis
    obtain ⟨rfl, rfl⟩ := Prod.mk.inj hthis
    refine ⟨⟨user, List.mem_cons_of_mem _ hissued⟩, fun user' hget => ?_, fun rec hget => ?_⟩
    · rw [store_noteRotation, latestByUser_issue] at hget
      split at hget
      · exact hnew user key hissued (Option.some.inj hget)
      · next hne =>
        rw [latestByUser_startGrace] at hget
        obtain ⟨key', hheld', hhash'⟩ := hs.latest user' _ hget
        exact hne (hs.distinct user' key' user key (isIssuedTo_of_held hheld') hissued hhash'.symm).1
    · rw [store_noteRotation, keyByHash_issue, if_neg (hnew user key hissued).symm, ← hhash] at hget
      exact (graced_startGrace hget).1
  · exact hsound.retired key t hthat

@[simp] theorem latestByUser_drop (store : KeyStore) (h : Option String) :
    (store.drop h).latestByUser = store.latestByUser := by
  unfold KeyStore.drop
  split
  · split
    · rfl
    · rfl
  · rfl

@[simp] theorem graceByUser_drop (store : KeyStore) (h : Option String) :
    (store.drop h).graceByUser = store.graceByUser := by
  unfold KeyStore.drop
  split
  · split
    · rfl
    · rfl
  · rfl

theorem keyByHash_drop (store : KeyStore) {h : Option String} (hne : h ≠ some "") (other : String) :
    (store.drop h).keyByHash.get? other = if h = some other then none else store.keyByHash.get? other := by
  unfold KeyStore.drop
  cases h with
  | none => rfl
  | some h =>
    have hh : h ≠ "" := fun heq => hne (congrArg some heq)
    simp only [hh, if_false, Dict.get?_pop, Option.some.injEq, eq_comm]

/-- What a confirmed revocation leaves. -/
theorem revokeApiKey_effect {store store' : KeyStore} {claimed : Except HTTPException String} {confirm : Bool}
    {user : String} (h : store.revokeApiKey claimed confirm = (.ok user, store'))
    (hlatest : store.latestByUser.get? user ≠ some "") (hgrace : store.graceByUser.get? user ≠ some "") :
    store'.latestByUser = store.latestByUser.pop user ∧ store'.graceByUser = store.graceByUser.pop user ∧
      ∀ h, store'.keyByHash.get? h =
        if store.graceByUser.get? user = some h then none
        else if store.latestByUser.get? user = some h then none else store.keyByHash.get? h := by
  unfold KeyStore.revokeApiKey at h
  split at h
  · cases claimed with
    | error e => cases h
    | ok claimed =>
      dsimp only at h
      obtain ⟨hok, rfl⟩ := Prod.mk.inj h
      obtain rfl := Except.ok.inj hok
      rw [graceByUser_drop]
      refine ⟨by simp, by simp, fun h => ?_⟩
      rw [keyByHash_drop _ hgrace]
      dsimp only
      rw [keyByHash_drop _ hlatest]
  · cases h

/-- No key of the user is left after a revocation. -/
theorem Sound.revokeApiKey {s : Service} (hs : s.Sound sha256) (hdigest : ∀ key, sha256 key ≠ "")
    {user : String} {claimed : Except HTTPException String} {confirm : Bool} {store : KeyStore}
    (h : s.store.revokeApiKey claimed confirm = (.ok user, store)) : (s.noteRevocation user store).Sound sha256 := by
  have hlatest_ne : s.store.latestByUser.get? user ≠ some "" := fun hget => by
    obtain ⟨key, -, hhash⟩ := hs.latest user "" hget
    exact hdigest key hhash.symm
  have hgrace_ne : s.store.graceByUser.get? user ≠ some "" := fun hget => by
    obtain ⟨key, hhash⟩ := hs.grace user "" hget
    exact hdigest key hhash.symm
  obtain ⟨hlatest, hgrace, hkeys⟩ := revokeApiKey_effect h hlatest_ne hgrace_ne
  have hleft : ∀ h rec, store.keyByHash.get? h = some rec → s.store.keyByHash.get? h = some rec ∧ rec.user ≠ user := by
    intro h rec hget
    rw [hkeys] at hget
    split at hget
    · cases hget
    · next hnotGrace =>
      split at hget
      · cases hget
      · next hnotLatest =>
        refine ⟨hget, fun huser => ?_⟩
        rcases hs.placed h rec hget with hl | hg
        · exact hnotLatest (huser ▸ hl)
        · exact hnotGrace (huser ▸ hg)
  have hsound : ({ s with store } : Service).Sound sha256 := by
    refine hs.shrink (fun h rec hget => (hleft h rec hget).1) (fun user' h hget => ?_) (fun user' h hget => ?_)
      fun h rec hget => ?_
    · rw [hlatest, Dict.get?_pop] at hget
      split at hget
      · cases hget
      · exact hget
    · rw [hgrace, Dict.get?_pop] at hget
      split at hget
      · cases hget
      · exact hget
    · obtain ⟨hget, hother⟩ := hleft h rec hget
      rw [hlatest, hgrace, Dict.get?_pop, Dict.get?_pop, if_neg hother, if_neg hother]
      exact hs.placed h rec hget
  refine { hsound with revoked := fun key hmem => ?_ }
  rcases List.mem_append.mp hmem with hthis | hthat
  · obtain ⟨⟨user', key'⟩, hentry, rfl⟩ := List.mem_map.mp hthis
    obtain ⟨hissued, huser⟩ := List.mem_filter.mp hentry
    rw [decide_eq_true_eq] at huser
    refine ⟨⟨user', hissued⟩, Option.eq_none_iff_forall_ne_some.mpr fun rec hget => ?_⟩
    obtain ⟨hbefore, hother⟩ := hleft _ rec hget
    exact hother ((hs.owned user' key' rec hissued hbefore).trans huser)
  · exact hsound.revoked key hthat

/-- A validation removes at most a key whose grace is over. -/
theorem Sound.validateApiKeyHeader {s : Service} (hs : s.Sound sha256) (auth : Option String) (now : Int) :
    ({ s with store := (s.store.validateApiKeyHeader sha256 auth now).2 } : Service).Sound sha256 := by
  unfold KeyStore.validateApiKeyHeader
  cases KeyStore.candidate auth with
  | none => exact hs
  | some key =>
    dsimp only
    split
    · exact hs
    · next rec hrec =>
      split
      · next hslot huntil =>
        split
        · exact hs
        · rw [beq_iff_eq] at hslot
          refine hs.shrink (fun h rec' hget => ?_) (fun user h hget => hget) (fun user h hget => ?_) fun h rec' hget => ?_
          · rw [Dict.get?_pop] at hget
            split at hget
            · cases hget
            · exact hget
          · rw [Dict.get?_pop] at hget
            split at hget
            · cases hget
            · exact hget
          · rw [Dict.get?_pop] at hget
            split at hget
            · cases hget
            · next hne =>
              refine (hs.placed h rec' hget).imp_right fun hgrace => ?_
              rw [Dict.get?_pop]
              split
              · next hsame =>
                rw [hsame, hslot] at hgrace
                exact absurd (Option.some.inj hgrace).symm hne
              · exact hgrace
      · exact hs

/-- A request keeps the store sound when a rotation finds the grace slot free. -/
theorem sound_step {s : Service} (hs : s.Sound sha256) (hdigest : ∀ key, sha256 key ≠ "") {e : Event}
    (hpossible : s.Possible sha256 e) (hfree : s.SlotFree text e) : (s.step sha256 text e).Sound sha256 := by
  suffices hserve : (s.serve sha256 text e.now e.request).Sound sha256 from { hserve with }
  obtain ⟨now, request⟩ := e
  cases request with
  | firstApiKey payload raw =>
    unfold serve KeyStore.firstApiKey
    dsimp only
    split
    · exact hs
    · next user huser =>
      split
      · exact hs
      · next response store heq =>
        split at heq
        · cases heq
        · next hnone =>
          obtain ⟨hresponse, rfl⟩ := Prod.mk.inj heq
          obtain rfl := Except.ok.inj hresponse
          exact hs.firstApiKey hpossible.2 hnone
  | rotateApiKey payload raw =>
    unfold serve KeyStore.rotateApiKey
    dsimp only
    split
    · exact hs
    · next user huser =>
      split
      · exact hs
      · next response store heq =>
        split at heq
        · cases heq
        · next oldHash hold =>
          obtain ⟨hresponse, rfl⟩ := Prod.mk.inj heq
          obtain rfl := Except.ok.inj hresponse
          exact hs.rotateApiKey hpossible.2 hold (hfree user huser)
  | revokeApiKey payload confirm =>
    unfold serve
    dsimp only
    split
    · exact hs
    · next user store heq => exact hs.revokeApiKey hdigest heq
  | validateApiKeyHeader auth => exact hs.validateApiKeyHeader auth now

theorem sound_start (clock : Int) : ({ clock } : Service).Sound sha256 where
  distinct _ _ _ _ h := absurd h List.not_mem_nil
  latest _ _ h := by cases h
  grace _ _ h := by cases h
  owned _ _ _ h := absurd h List.not_mem_nil
  placed _ _ h := by cases h
  retired _ _ h := absurd h List.not_mem_nil
  revoked _ h := absurd h List.not_mem_nil

/-- **No dead key validates in a run whose rotations find the grace slot free.** -/
theorem dead_key_never_validates (hdigest : ∀ key, sha256 key ≠ "") (clock : Int) (events : List Event)
    (h : Admitted (step sha256 text) (fun s e => s.Possible sha256 e ∧ s.SlotFree text e) { clock } events) :
    ∀ key now auth, (run (step sha256 text) { clock } events).Dead key now → KeyStore.candidate auth = some key →
      ((run (step sha256 text) { clock } events).store.validateApiKeyHeader sha256 auth now).1 = none := by
  intro key now auth hdead hauth
  have hsound : (run (step sha256 text) { clock } events).Sound sha256 :=
    h.invariant (Sound sha256) (sound_start clock) fun s e hs hok => sound_step hs hdigest hok.1 hok.2
  exact hsound.rejects hdead hauth

/-! ## Three keys of one user -/

/-- SHA-256 on the keys below. -/
def sampleDigest (key : String) : String :=
  if key = "occp_live_sk_AAAAAAAAAAAAAAAAAAAAAAAAAAAAAAAA" then
    "2dacb657496e940a10a32c0da16772969a884fd330d1af11cf60038c6b5ba9b5"
  else if key = "occp_live_sk_VVVVVVVVVVVVVVVVVVVVVVVVVVVVVVVV" then
    "36c4427593942cafc38a9bc1183c47997cdf4da78c8117d36a48cba1353c1498"
  else "fe5875529cc948f9455ee77e771b03c6b941faf581f920df91e3cd098cdcd399"

def alice : Dict Value := [("sub", .str "alice")]

def issueAndRotate : List Event :=
  [⟨0, .firstApiKey alice (List.replicate 24 0)⟩, ⟨1, .rotateApiKey alice (List.replicate 24 85)⟩]

/-- The service before the rotation. -/
def afterIssue : Service := step sampleDigest (fun _ => "") { clock := 0 } ⟨0, .firstApiKey alice (List.replicate 24 0)⟩

theorem sampleDigest_ne (key : String) : sampleDigest key ≠ "" := by
  unfold sampleDigest
  split
  · decide
  · split
    · decide
    · decide

/-- After one rotation the old key ends with its grace. -/
theorem rotated_key_ends :
    ((run (step sampleDigest fun _ => "") { clock := 0 } issueAndRotate).store.validateApiKeyHeader sampleDigest
      (some "Bearer occp_live_sk_AAAAAAAAAAAAAAAAAAAAAAAAAAAAAAAA") (1 + rotationGrace)).1 = none := by
  have hretired : ("occp_live_sk_AAAAAAAAAAAAAAAAAAAAAAAAAAAAAAAA", (1 : Int)) ∈
      (run (step sampleDigest fun _ => "") { clock := 0 } issueAndRotate).retired := by decide +kernel
  refine @dead_key_never_validates _ (fun _ => "") sampleDigest_ne 0 issueAndRotate ?_ _ _ _
    (.inl ⟨1, hretired, le_refl _⟩) (by decide +kernel)
  refine ⟨⟨⟨le_refl _, fun _ _ h => absurd h List.not_mem_nil⟩, trivial⟩, ⟨⟨by decide, ?_⟩, ?_⟩, trivial⟩
  · intro user key hissued
    have hone : afterIssue.issued = [("alice", "occp_live_sk_AAAAAAAAAAAAAAAAAAAAAAAAAAAAAAAA")] := by decide +kernel
    have hmem : (user, key) ∈ afterIssue.issued := hissued
    rw [hone, List.mem_singleton, Prod.mk.injEq] at hmem
    rw [hmem.2]
    decide +kernel
  · intro user huser
    have hfree : afterIssue.store.graceByUser.keys = [] := by decide +kernel
    have hnone : afterIssue.store.graceByUser.get? user = none := by
      rw [Dict.get?_eq_none_iff, hfree]
      exact List.not_mem_nil
    exact hnone

/-- After two, the first key validates beyond its grace and a revocation. -/
theorem second_rotation_strands_the_key :
    let rotated := run (step sampleDigest fun _ => "") { clock := 0 }
      (issueAndRotate ++ [⟨2, .rotateApiKey alice (List.replicate 24 255)⟩])
    let revoked := rotated.step sampleDigest (fun _ => "") ⟨3, .revokeApiKey alice true⟩
    let first := "occp_live_sk_AAAAAAAAAAAAAAAAAAAAAAAAAAAAAAAA"
    let validates (s : Service) (now : Int) : Bool :=
      (s.store.validateApiKeyHeader sampleDigest (some ("Bearer " ++ first)) now).1.isSome
    (first, 1) ∈ rotated.retired ∧ validates rotated (1 + rotationGrace) = true ∧
      first ∈ revoked.revoked ∧ validates revoked 4 = true := by
  decide +kernel

end Service

end Occp.Api
