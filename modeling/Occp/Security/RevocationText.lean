import Occp.JsonFields
import Occp.PyEq
import Occp.Security.PermanentRevocations

/-!
# Revocation lists as text (`to_json`, `from_json`)

A checker that is restored from its text answers as the one that was written.
-/

namespace Occp.Security

open Json

/-! ## What is written -/

/-- The dictionary of an entry. -/
def RevocationEntry.fields (e : RevocationEntry) : Dict Value :=
  [("artifactId", .str e.artifactId), ("reason", .str e.reason), ("revokedAt", .float e.revokedAt),
    ("revokedBy", .str e.revokedBy), ("severity", .str e.severity), ("expiresAt", .float e.expiresAt)]

def KillSwitchState.fields (k : KillSwitchState) : Dict Value :=
  [("active", .bool k.active), ("reason", .str k.reason), ("activatedAt", .float k.activatedAt),
    ("activatedBy", .str k.activatedBy), ("coreAllowlist", .list (k.coreAllowlist.map .str))]

namespace RevocationChecker

/-- The dictionary of a checker. The interval is an integer where it is the default, so it is given as the value that the
checker was made with. -/
def fields (poll : Value) (c : RevocationChecker) : Dict Value :=
  [("revocations", .dict (c.revocations.map fun e => (e.1, .dict e.2.fields))), ("killSwitch", .dict c.killSwitch.fields),
    ("lastSync", .float c.lastSync), ("pollInterval", poll)]

/-- `to_json`. -/
def toText (F : Floats) (poll : Value) (now : Rat) (c : RevocationChecker) : List Char × RevocationChecker :=
  let c := c.cleanExpired now
  (compact F.text (sortKeys (.dict (c.fields poll))), c)

end RevocationChecker

/-! ## What is read -/

def EntryData.ofValue (v : Value) : Option EntryData := do
  let data ← readDict v
  let artifactId ← requiredField readStr data "artifactId"
  let reason ← requiredField readStr data "reason"
  let revokedAt ← requiredField Value.num? data "revokedAt"
  let revokedBy ← optionalField readStr data "revokedBy"
  let severity ← optionalField readStr data "severity"
  let expiresAt ← optionalField Value.num? data "expiresAt"
  pure { artifactId, reason, revokedAt, revokedBy, severity, expiresAt }

def KillSwitchData.ofValue (v : Value) : Option KillSwitchData := do
  let data ← readDict v
  let active ← optionalField readBool data "active"
  let reason ← optionalField readStr data "reason"
  let activatedAt ← optionalField Value.num? data "activatedAt"
  let activatedBy ← optionalField readStr data "activatedBy"
  let coreAllowlist ← optionalField readStrs data "coreAllowlist"
  pure { active, reason, activatedAt, activatedBy, coreAllowlist }

def readEntries (v : Value) : Option (Dict EntryData) := do
  let data ← readDict v
  data.mapM fun e => (EntryData.ofValue e.2).map fun d => (e.1, d)

def CheckerData.ofValue (v : Value) : Option CheckerData := do
  let data ← readDict v
  let revocations ← optionalField readEntries data "revocations"
  let killSwitch ← optionalField KillSwitchData.ofValue data "killSwitch"
  let lastSync ← optionalField Value.num? data "lastSync"
  let pollInterval ← optionalField Value.num? data "pollInterval"
  pure { revocations, killSwitch, lastSync, pollInterval }

/-- `from_json`. -/
def RevocationChecker.ofText (F : Floats) (now : Rat) (text : List Char) : Option RevocationChecker :=
  (loads F text).bind fun v => (CheckerData.ofValue v).map (fromDict now)

/-! ## Written and read -/

theorem RevocationEntry.nodup_fields (e : RevocationEntry) : e.fields.keys.Nodup := by simp [fields, Dict.keys]

theorem ofValue_entry (e : RevocationEntry) : EntryData.ofValue (sortKeys (.dict e.fields)) = some e.toDict := by
  unfold EntryData.ofValue
  rw [sortKeys_dict]
  simp only [readDict, Option.bind_eq_bind, Option.bind_some, requiredField_sorted _ e.nodup_fields,
    optionalField_sorted _ e.nodup_fields]
  rfl

theorem KillSwitchState.nodup_fields (k : KillSwitchState) : k.fields.keys.Nodup := by simp [fields, Dict.keys]

theorem ofValue_killSwitch (k : KillSwitchState) : KillSwitchData.ofValue (sortKeys (.dict k.fields)) = some k.toDict := by
  unfold KillSwitchData.ofValue
  rw [sortKeys_dict]
  simp only [readDict, Option.bind_eq_bind, Option.bind_some, optionalField_sorted _ k.nodup_fields]
  simp only [optionalField, KillSwitchState.fields, Dict.get?, if_true, readStrs_map, String.reduceEq, if_false]
  rfl

theorem readEntries_sorted (revocations : Dict RevocationEntry) :
    readEntries (sortKeys (.dict (revocations.map fun e => (e.1, .dict e.2.fields)))) =
      some (Dict.sorted (revocations.map fun e => (e.1, e.2.toDict))) := by
  rw [sortKeys_dict, Dict.sorted_map, Dict.sorted_map fun e : RevocationEntry => Value.dict e.fields, List.map_map]
  change List.mapM _ _ = _
  rw [List.mapM_map]
  refine Lib.mapM_eq_some_map fun e _ => ?_
  simp only [Function.comp, ofValue_entry, Option.map_some]

namespace RevocationChecker

theorem nodup_fields (poll : Value) (c : RevocationChecker) : (c.fields poll).keys.Nodup := by simp [fields, Dict.keys]

theorem toJson_revocations {c : RevocationChecker} (hkeyed : c.WellKeyed) (now : Rat) :
    (c.toJson now).1.revocations =
      some (Dict.sorted ((c.cleanExpired now).revocations.map fun e => (e.1, e.2.toDict))) :=
  congrArg some (Dict.mergeSort_eq_sorted (hkeyed.toDict now).nodup)

/-- What is read from the text is what the calls of `to_dict` and `from_dict` hand over, with the keys sorted. -/
theorem ofValue_fields {poll : Value} {c : RevocationChecker} {now : Rat} (hkeyed : c.WellKeyed)
    (hpoll : poll.num? = some c.pollInterval) :
    CheckerData.ofValue (sortKeys (.dict ((c.cleanExpired now).fields poll))) = some (c.toJson now).1 := by
  have hnodup := nodup_fields poll (c.cleanExpired now)
  have hsorted : (sortKeys poll).num? = some c.pollInterval := by
    cases poll with
    | list items => cases hpoll
    | dict entries => cases hpoll
    | _ => exact hpoll
  unfold CheckerData.ofValue
  rw [sortKeys_dict]
  simp only [readDict, Option.bind_eq_bind, Option.bind_some, optionalField_sorted _ hnodup]
  simp only [optionalField, fields, Dict.get?, if_true, readEntries_sorted, ofValue_killSwitch, hsorted, String.reduceEq,
    if_false, ← toJson_revocations hkeyed]
  rfl

/-! ## The text is read -/

/-- The floats that a checker holds, its interval apart. -/
def floats (c : RevocationChecker) : List Rat :=
  c.lastSync :: c.killSwitch.activatedAt :: c.revocations.flatMap fun e => [e.2.revokedAt, e.2.expiresAt]

variable {F : Floats} {c : RevocationChecker} {poll : Value}

theorem readable_fields (hkeyed : c.WellKeyed) (hfloats : ∀ q ∈ c.floats, F.Reads q) (hpoll : Readable F poll) :
    Readable F (.dict (c.fields poll)) := by
  simp only [floats, List.forall_mem_cons, List.forall_mem_flatMap] at hfloats
  obtain ⟨hsync, hactivated, hentries⟩ := hfloats
  have hentry : ∀ e ∈ c.revocations, Readable F (.dict e.2.fields) := by
    intro e he
    obtain ⟨hrevoked, hexpires, -⟩ := hentries e he
    refine .dict e.2.nodup_fields ?_
    simp only [RevocationEntry.fields, List.forall_mem_cons]
    exact ⟨.str _, .str _, .float hrevoked, .str _, .str _, .float hexpires, nofun⟩
  have hswitch : Readable F (.dict c.killSwitch.fields) := by
    refine .dict c.killSwitch.nodup_fields ?_
    simp only [KillSwitchState.fields, List.forall_mem_cons]
    exact ⟨.bool _, .str _, .float hactivated, .str _, .list (List.forall_mem_map.mpr fun s _ => .str s), nofun⟩
  have hrevocations : Readable F (.dict (c.revocations.map fun e => (e.1, .dict e.2.fields))) := by
    refine .dict ?_ (List.forall_mem_map.mpr hentry)
    simpa [Dict.keys, List.map_map, Function.comp_def] using hkeyed.nodup
  refine .dict (nodup_fields poll c) ?_
  simp only [fields, List.forall_mem_cons]
  exact ⟨hrevocations, hswitch, .float hsync, hpoll, nofun⟩

theorem floats_cleanExpired (now : Rat) : (c.cleanExpired now).floats ⊆ c.floats := by
  refine List.cons_subset_cons _ (List.cons_subset_cons _ ?_)
  intro q hq
  obtain ⟨e, he, hq⟩ := List.mem_flatMap.mp hq
  exact List.mem_flatMap.mpr ⟨e, (List.mem_filter.mp he).1, hq⟩

theorem ofText_toText (hkeyed : c.WellKeyed) (hfloats : ∀ q ∈ c.floats, F.Reads q) (hpoll : Readable F poll)
    (hinterval : poll.num? = some c.pollInterval) (exported restored : Rat) :
    ofText F restored (c.toText F poll exported).1 = some (fromDict restored (c.toJson exported).1) := by
  have hreadable : Readable F (sortKeys (.dict ((c.cleanExpired exported).fields poll))) :=
    readable_sortKeys (readable_fields (hkeyed.cleanExpired exported)
      (fun q hq => hfloats q (floats_cleanExpired exported hq)) hpoll)
  have hloads : loads F (c.toText F poll exported).1 = some (sortKeys (.dict ((c.cleanExpired exported).fields poll))) := by
    rw [toText, ← write_compact _ 0]
    exact loads_write .compact hreadable
  rw [ofText, hloads, Option.bind_some, ofValue_fields hkeyed hinterval]
  rfl

/-! ## The answers -/

theorem restored_revocations (hkeyed : c.WellKeyed) (exported restored : Rat) :
    (fromDict restored (c.toJson exported).1).revocations =
      (c.cleanExpired exported).revocations.sorted.filter fun e => !e.2.isExpired restored := by
  obtain ⟨kept, hkept⟩ : ∃ kept, kept = (c.cleanExpired exported).revocations.sorted := ⟨_, rfl⟩
  have hsorted : Keyed RevocationEntry.artifactId kept := hkept ▸ (hkeyed.cleanExpired exported).perm (Dict.sorted_perm _)
  have hdata : (c.toJson exported).1.revocations = some (kept.map fun e => (e.1, e.2.toDict)) := by
    rw [hkept, ← Dict.sorted_map, toJson_revocations hkeyed]
  have hentries : (((c.toJson exported).1.revocations.getD []).map fun e => RevocationEntry.fromDict e.2) =
      kept.map Prod.snd := by
    rw [hdata, Option.getD_some, List.map_map]
    rfl
  have hfilter : ((kept.map Prod.snd).filter fun e => !e.isExpired restored).map (fun e => (e.artifactId, e)) =
      kept.filter fun e => !e.2.isExpired restored := by
    rw [List.filter_map, List.map_map]
    conv_rhs => rw [← List.map_id (kept.filter fun e => !e.2.isExpired restored)]
    refine List.map_congr_left fun e he => ?_
    exact Prod.ext (hsorted.id_eq e (List.mem_filter.mp he).1) rfl
  rw [fromDict]
  dsimp only
  rw [hentries, hfilter, ← hkept]
  exact Dict.setAll_of_nodup (hsorted.filter _).nodup

/-- The artifact stands in the list, and its entry has not expired. -/
def Listed (now : Rat) (artifactId : String) (c : RevocationChecker) : Prop :=
  ∃ e, (artifactId, e) ∈ c.revocations ∧ e.isExpired now = false

theorem isRevoked_iff (hkeyed : c.WellKeyed) (now : Rat) (artifactId : String) :
    (c.isRevoked now artifactId).1 = true ↔
      (c.killSwitch.active = true ∧ artifactId ∉ c.killSwitch.coreAllowlist) ∨ c.Listed now artifactId := by
  simp only [Listed, Dict.mem_iff_get? _ hkeyed.nodup]
  unfold isRevoked
  split
  · next h => simp [h]
  · next h =>
    rw [or_iff_right h]
    split
    · next hget => simp [hget]
    · next e hget =>
      split
      · next hexpired => simp [hget, hexpired]
      · next hexpired => simpa [hget] using hexpired

theorem isExpired_mono {e : RevocationEntry} {now later : Rat} (hle : now ≤ later) (h : e.isExpired later = false) :
    e.isExpired now = false := by
  unfold RevocationEntry.isExpired at h ⊢
  split
  · rfl
  · next hexpires =>
    rw [if_neg hexpires, decide_eq_false_iff_not, not_lt] at h
    exact decide_eq_false (not_lt.mpr (hle.trans h))

/-- What has expired when the text was written or read has expired later. -/
theorem listed_restored (hkeyed : c.WellKeyed) {exported restored queried : Rat} (hexported : exported ≤ restored)
    (hrestored : restored ≤ queried) (artifactId : String) :
    (fromDict restored (c.toJson exported).1).Listed queried artifactId ↔ c.Listed queried artifactId := by
  unfold Listed
  refine exists_congr fun e => and_congr_left fun hstanding => ?_
  have hread := isExpired_mono hrestored hstanding
  have hwritten := isExpired_mono hexported hread
  rw [restored_revocations hkeyed, List.mem_filter, (Dict.sorted_perm _).mem_iff, cleanExpired, List.mem_filter]
  simp [hread, hwritten]

theorem isRevoked_restored (hkeyed : c.WellKeyed) {exported restored queried : Rat} (hexported : exported ≤ restored)
    (hrestored : restored ≤ queried) (artifactId : String) :
    ((fromDict restored (c.toJson exported).1).isRevoked queried artifactId).1 = (c.isRevoked queried artifactId).1 := by
  rw [Bool.eq_iff_iff, isRevoked_iff hkeyed, isRevoked_iff (wellKeyed_fromDict restored _),
    listed_restored hkeyed hexported hrestored]
  rfl

/-- Writing drops what has expired, and no answer changes by it. -/
theorem isRevoked_toText (hkeyed : c.WellKeyed) {exported queried : Rat} (hexported : exported ≤ queried)
    (artifactId : String) :
    ((c.toText F poll exported).2.isRevoked queried artifactId).1 = (c.isRevoked queried artifactId).1 := by
  have hclean := isRevoked_iff (hkeyed.cleanExpired exported) queried artifactId
  rw [Bool.eq_iff_iff, isRevoked_iff hkeyed]
  refine hclean.trans (or_congr Iff.rfl (exists_congr fun e => and_congr_left fun hstanding => ?_))
  have hwritten := isExpired_mono hexported hstanding
  simp [cleanExpired, hwritten]

end RevocationChecker

namespace RevocationDesk

open RevocationChecker

/-- **A checker that is restored from its text gives the answers of the one that was written, at every later time.** -/
theorem restored_answers (F : Floats) (coreAllowlist : List String) (pollInterval : Rat) (calls : List RevocationCall)
    (c : RevocationChecker) (hc : c = (Lib.run step (start coreAllowlist pollInterval) calls).checker)
    (hfloats : ∀ q ∈ c.floats, F.Reads q) (poll : Value) (hpoll : Readable F poll)
    (hinterval : poll.num? = some c.pollInterval) (exported restored : Rat) (hexported : exported ≤ restored) :
    ∃ c', ofText F restored (c.toText F poll exported).1 = some c' ∧
      ∀ queried, restored ≤ queried → ∀ artifactId,
        (c'.isRevoked queried artifactId).1 = (c.isRevoked queried artifactId).1 ∧
          (c'.isRevoked queried artifactId).1 = ((c.toText F poll exported).2.isRevoked queried artifactId).1 := by
  have hkeyed : c.WellKeyed := hc ▸ (sound_run (sound_start coreAllowlist pollInterval) calls).checker
  refine ⟨_, ofText_toText hkeyed hfloats hpoll hinterval exported restored, fun queried hqueried artifactId => ?_⟩
  have hanswer := isRevoked_restored hkeyed hexported hqueried artifactId
  exact ⟨hanswer, hanswer.trans (isRevoked_toText hkeyed (hexported.trans hqueried) artifactId).symm⟩

def revokedAndKilled : List RevocationCall :=
  [.revoke 5 "tool" "CVE" "" "high" 0, .revoke 7 "other" "" "" "low" 60, .activateKillSwitch 9 "" "admin"]

theorem restored_answers_killed :
    ∃ c', ofText wholeFloats 50
        (RevocationChecker.toText wholeFloats (.int 300) 40 (Lib.run step (start ["core"] 300) revokedAndKilled).checker).1 =
        some c' ∧
      ∀ queried, 50 ≤ queried → ∀ artifactId,
        (c'.isRevoked queried artifactId).1 =
          ((Lib.run step (start ["core"] 300) revokedAndKilled).checker.isRevoked queried artifactId).1 ∧
        (c'.isRevoked queried artifactId).1 =
          ((RevocationChecker.toText wholeFloats (.int 300) 40
            (Lib.run step (start ["core"] 300) revokedAndKilled).checker).2.isRevoked queried artifactId).1 := by
  refine restored_answers wholeFloats ["core"] 300 revokedAndKilled _ rfl ?_ (.int 300) (.int 300) rfl 40 50 (by decide)
  have hfloats : (Lib.run step (start ["core"] 300) revokedAndKilled).checker.floats = [0, 9, 5, 0, 7, 67] := by decide +kernel
  rw [hfloats]
  intro q hq
  simp only [List.mem_cons, List.not_mem_nil, or_false] at hq
  rcases hq with rfl | rfl | rfl | rfl | rfl | rfl <;> exact ⟨by decide +kernel, by decide +kernel⟩

end RevocationDesk

end Occp.Security
