import Occp.Security.Revocation

/-!
# Permanent revocations

Nothing but `unrevoke` is meant to end a revocation without expiry. A later revocation for a time does it too.
-/

namespace Occp.Security

open RevocationEntry

/-! ## Keyed dictionaries -/

section Keyed

variable {α : Type}

/-- Every entry stands under the id that it names, and no id twice. -/
structure Keyed (idOf : α → String) (d : Dict α) : Prop where
  nodup : d.keys.Nodup
  id_eq : ∀ e ∈ d, idOf e.2 = e.1

variable {idOf : α → String} {d : Dict α}

theorem keyed_nil : Keyed idOf ([] : Dict α) := ⟨List.nodup_nil, by simp⟩

theorem Keyed.set (h : Keyed idOf d) {key : String} {v : α} (hv : idOf v = key) : Keyed idOf (d.set key v) := by
  refine ⟨Dict.nodup_keys_set d key v h.nodup, ?_⟩
  intro e he
  have hget := (Dict.mem_iff_get? _ (Dict.nodup_keys_set d key v h.nodup) e.1 e.2).mp he
  rw [Dict.get?_set] at hget
  split at hget
  · next hkey =>
    cases hget
    rw [hkey, hv]
  · exact h.id_eq e ((Dict.mem_iff_get? d h.nodup e.1 e.2).mpr hget)

theorem Keyed.filter (h : Keyed idOf d) (p : String × α → Bool) : Keyed idOf (d.filter p) :=
  ⟨h.nodup.sublist (List.filter_sublist.map _), fun e he => h.id_eq e (List.mem_filter.mp he).1⟩

theorem Keyed.pop (h : Keyed idOf d) (key : String) : Keyed idOf (d.pop key) := h.filter _

theorem Keyed.perm {d' : Dict α} (h : Keyed idOf d) (hperm : d'.Perm d) : Keyed idOf d' :=
  ⟨(hperm.map _).nodup_iff.mpr h.nodup, fun e he => h.id_eq e (hperm.mem_iff.mp he)⟩

theorem Keyed.map {β : Type} {idOf' : β → String} (h : Keyed idOf d) (f : α → β) (hf : ∀ v, idOf' (f v) = idOf v) :
    Keyed idOf' (d.map fun e => (e.1, f e.2)) := by
  refine ⟨?_, ?_⟩
  · simpa [Dict.keys, List.map_map, Function.comp_def] using h.nodup
  · intro e he
    obtain ⟨e', he', rfl⟩ := List.mem_map.mp he
    exact (hf e'.2).trans (h.id_eq e' he')

theorem get?_filter (h : Keyed idOf d) {p : String × α → Bool} {key : String} {v : α} (hget : d.get? key = some v)
    (hp : p (key, v) = true) : Dict.get? (d.filter p) key = some v := by
  rw [← Dict.mem_iff_get? _ (h.filter p).nodup]
  exact List.mem_filter.mpr ⟨(Dict.mem_iff_get? d h.nodup key v).mpr hget, hp⟩

/-- Entries that are put in one after the other, each under its id. -/
theorem keyed_setAll {entries : List α} (h : Keyed idOf d) :
    Keyed idOf (d.setAll (entries.map fun v => (idOf v, v))) := by
  induction entries generalizing d with
  | nil => exact h
  | cons v entries ih => exact ih (h.set rfl)

end Keyed

/-! ## Permanent entries -/

/-- The entries of an export. -/
def CheckerData.entries (data : CheckerData) : Dict EntryData := data.revocations.getD []

abbrev CheckerData.WellKeyed (data : CheckerData) : Prop := Keyed EntryData.artifactId data.entries

/-- An export that holds the artifact as revoked for good. -/
def CheckerData.Permanent (id : String) (data : CheckerData) : Prop :=
  ∃ d, data.entries.get? id = some d ∧ (fromDict d).expiresAt = 0

namespace RevocationChecker

variable {c : RevocationChecker} {id other : String} {now : Rat}

def Permanent (id : String) (c : RevocationChecker) : Prop :=
  ∃ e, c.revocations.get? id = some e ∧ e.expiresAt = 0

abbrev WellKeyed (c : RevocationChecker) : Prop := Keyed RevocationEntry.artifactId c.revocations

theorem Permanent.isRevoked (h : c.Permanent id) (now : Rat) : (c.isRevoked now id).1 = true := by
  obtain ⟨e, hget, hexpires⟩ := h
  unfold RevocationChecker.isRevoked
  split
  · rfl
  · simp [hget, isExpired_permanent hexpires]

/-- A query leaves the checker as it is, or forgets the entry that it finds expired. -/
def Queried (now : Rat) (other : String) (c c' : RevocationChecker) : Prop :=
  c' = c ∨ ∃ e, c.revocations.get? other = some e ∧ e.isExpired now = true ∧
    c' = { c with revocations := c.revocations.pop other }

theorem queried_isRevoked (c : RevocationChecker) (now : Rat) (other : String) :
    Queried now other c (c.isRevoked now other).2 := by
  unfold RevocationChecker.isRevoked
  split
  · exact .inl rfl
  · split
    · exact .inl rfl
    · next entry hget =>
      split
      · next hexpired => exact .inr ⟨entry, hget, hexpired, rfl⟩
      · exact .inl rfl

theorem queried_getRevocation (c : RevocationChecker) (now : Rat) (other : String) :
    Queried now other c (c.getRevocation now other).2 := by
  unfold getRevocation
  split
  · exact .inl rfl
  · next entry hget =>
    split
    · next hexpired => exact .inr ⟨entry, hget, hexpired, rfl⟩
    · exact .inl rfl

theorem Permanent.set_of_ne (h : c.Permanent id) (hne : id ≠ other) (entry : RevocationEntry) :
    Permanent id { c with revocations := c.revocations.set other entry } := by
  obtain ⟨e, hget, hexpires⟩ := h
  exact ⟨e, by rw [← hget]; exact Dict.get?_set_of_ne _ _ _ _ hne, hexpires⟩

theorem Permanent.pop_of_ne (h : c.Permanent id) (hne : id ≠ other) :
    Permanent id { c with revocations := c.revocations.pop other } := by
  obtain ⟨e, hget, hexpires⟩ := h
  exact ⟨e, by rw [Dict.get?_pop, if_neg hne, hget], hexpires⟩

theorem Permanent.queried {c' : RevocationChecker} (h : c.Permanent id) (hqueried : Queried now other c c') :
    c'.Permanent id := by
  rcases hqueried with rfl | ⟨entry, hother, hexpired, rfl⟩
  · exact h
  · refine h.pop_of_ne ?_
    rintro rfl
    obtain ⟨e, hget, hexpires⟩ := h
    rw [hget] at hother
    cases hother
    rw [isExpired_permanent hexpires] at hexpired
    cases hexpired

theorem Permanent.cleanExpired (h : c.Permanent id) (hkeyed : c.WellKeyed) (now : Rat) : (c.cleanExpired now).Permanent id := by
  obtain ⟨e, hget, hexpires⟩ := h
  exact ⟨e, get?_filter hkeyed hget (by simp [isExpired_permanent hexpires]), hexpires⟩

theorem WellKeyed.queried {c' : RevocationChecker} (h : c.WellKeyed) (hqueried : Queried now other c c') : c'.WellKeyed := by
  rcases hqueried with rfl | ⟨entry, -, -, rfl⟩
  · exact h
  · exact h.pop other

/-! ## Exports -/

theorem toDict_entries (c : RevocationChecker) (now : Rat) :
    (c.toDict now).1.entries = (c.cleanExpired now).revocations.map fun e => (e.1, e.2.toDict) :=
  rfl

theorem toJson_entries_perm (c : RevocationChecker) (now : Rat) : (c.toJson now).1.entries.Perm (c.toDict now).1.entries :=
  List.mergeSort_perm _ _

theorem WellKeyed.cleanExpired (h : c.WellKeyed) (now : Rat) : (c.cleanExpired now).WellKeyed := h.filter _

theorem WellKeyed.toDict (h : c.WellKeyed) (now : Rat) : (c.toDict now).1.WellKeyed :=
  Keyed.map (h.cleanExpired now) RevocationEntry.toDict fun _ => rfl

theorem WellKeyed.toJson (h : c.WellKeyed) (now : Rat) : (c.toJson now).1.WellKeyed :=
  (h.toDict now).perm (c.toJson_entries_perm now)

theorem Permanent.toDict (h : c.Permanent id) (hkeyed : c.WellKeyed) (now : Rat) : (c.toDict now).1.Permanent id := by
  obtain ⟨e, hget, hexpires⟩ := h.cleanExpired hkeyed now
  refine ⟨e.toDict, ?_, hexpires⟩
  rw [toDict_entries, Dict.get?_map, hget]
  rfl

theorem Permanent.toJson (h : c.Permanent id) (hkeyed : c.WellKeyed) (now : Rat) : (c.toJson now).1.Permanent id := by
  obtain ⟨d, hget, hexpires⟩ := h.toDict hkeyed now
  refine ⟨d, ?_, hexpires⟩
  rw [← Dict.mem_iff_get? _ (hkeyed.toJson now).nodup, (c.toJson_entries_perm now).mem_iff]
  exact (Dict.mem_iff_get? _ (hkeyed.toDict now).nodup _ _).mpr hget

/-- What is restored stands under its id, whatever the export says. -/
theorem wellKeyed_fromDict (now : Rat) (data : CheckerData) : (fromDict now data).WellKeyed := keyed_setAll keyed_nil

theorem permanent_fromDict {data : CheckerData} (h : data.Permanent id) (hkeyed : data.WellKeyed) (now : Rat) :
    (fromDict now data).Permanent id := by
  obtain ⟨d, hget, hexpires⟩ := h
  have hmem := (Dict.mem_iff_get? _ hkeyed.nodup _ _).mpr hget
  have hid : d.artifactId = id := hkeyed.id_eq _ hmem
  have hids : data.entries.map (fun e => e.2.artifactId) = data.entries.keys := List.map_congr_left hkeyed.id_eq
  refine ⟨RevocationEntry.fromDict d, Dict.get?_setAll_of_mem _ _ _ _ ?_ ?_, hexpires⟩
  · have hnodup : (data.entries.map fun e => e.2.artifactId).Nodup := hids ▸ hkeyed.nodup
    have hall : ((data.entries.map fun e => RevocationEntry.fromDict e.2).map RevocationEntry.artifactId).Nodup := by
      simpa [List.map_map, Function.comp_def] using hnodup
    simpa [List.map_map, Function.comp_def, CheckerData.entries] using hall.sublist (List.filter_sublist.map _)
  · refine List.mem_map.mpr ⟨RevocationEntry.fromDict d, List.mem_filter.mpr ⟨?_, ?_⟩, by simp [hid]⟩
    · exact List.mem_map.mpr ⟨(id, d), hmem, rfl⟩
    · simp [isExpired_permanent hexpires]

end RevocationChecker

/-! ## Runs -/

inductive RevocationCall where
  | revoke (now : Rat) (artifactId reason revokedBy severity : String) (ttlSeconds : Rat)
  | unrevoke (artifactId : String)
  | isRevoked (now : Rat) (artifactId : String)
  | getRevocation (now : Rat) (artifactId : String)
  | revokedArtifacts (now : Rat)
  | revocationCount (now : Rat)
  | activateKillSwitch (now : Rat) (reason activatedBy : String)
  | deactivateKillSwitch
  | markSynced (now : Rat)
  | toDict (now : Rat)
  | toJson (now : Rat)
  /-- `from_dict` or `from_json` of an earlier export; the run goes on with what is restored. -/
  | restore (now : Rat) (n : Nat)

/-- A checker, and the exports that have been made, the oldest first. -/
structure RevocationDesk where
  checker : RevocationChecker
  exports : List CheckerData := []

namespace RevocationDesk

open RevocationChecker

def step (s : RevocationDesk) : RevocationCall → RevocationDesk
  | .revoke now artifactId reason revokedBy severity ttlSeconds =>
    { s with checker := s.checker.revoke now artifactId reason revokedBy severity ttlSeconds }
  | .unrevoke artifactId => { s with checker := s.checker.unrevoke artifactId }
  | .isRevoked now artifactId => { s with checker := (s.checker.isRevoked now artifactId).2 }
  | .getRevocation now artifactId => { s with checker := (s.checker.getRevocation now artifactId).2 }
  | .revokedArtifacts now => { s with checker := (s.checker.revokedArtifacts now).2 }
  | .revocationCount now => { s with checker := (s.checker.revocationCount now).2 }
  | .activateKillSwitch now reason activatedBy => { s with checker := s.checker.activateKillSwitch now reason activatedBy }
  | .deactivateKillSwitch => { s with checker := s.checker.deactivateKillSwitch }
  | .markSynced now => { s with checker := s.checker.markSynced now }
  | .toDict now => { checker := (s.checker.toDict now).2, exports := s.exports ++ [(s.checker.toDict now).1] }
  | .toJson now => { checker := (s.checker.toJson now).2, exports := s.exports ++ [(s.checker.toJson now).1] }
  | .restore now n =>
    match s.exports[n]? with
    | some data => { s with checker := fromDict now data }
    | none => s

def start (coreAllowlist : List String) (pollInterval : Rat) : RevocationDesk where
  checker := .new coreAllowlist pollInterval

/-- All that is kept stands under its id. -/
structure Sound (s : RevocationDesk) : Prop where
  checker : s.checker.WellKeyed
  exports : ∀ data ∈ s.exports, data.WellKeyed

theorem sound_start (coreAllowlist : List String) (pollInterval : Rat) : (start coreAllowlist pollInterval).Sound :=
  ⟨keyed_nil, by simp [start]⟩

theorem Sound.grow {s : RevocationDesk} (h : s.Sound) {data : CheckerData} (hdata : data.WellKeyed)
    {checker : RevocationChecker} (hchecker : checker.WellKeyed) : Sound { checker, exports := s.exports ++ [data] } := by
  refine ⟨hchecker, fun other hother => ?_⟩
  rcases List.mem_append.mp hother with hother | hother
  · exact h.exports other hother
  · rw [List.mem_singleton.mp hother]
    exact hdata

theorem Sound.step {s : RevocationDesk} (h : s.Sound) (call : RevocationCall) : (s.step call).Sound := by
  obtain ⟨hchecker, hexports⟩ := h
  cases call with
  | revoke now artifactId reason revokedBy severity ttlSeconds => exact ⟨hchecker.set rfl, hexports⟩
  | unrevoke artifactId => exact ⟨hchecker.pop artifactId, hexports⟩
  | isRevoked now artifactId =>
    exact ⟨WellKeyed.queried hchecker (queried_isRevoked s.checker now artifactId), hexports⟩
  | getRevocation now artifactId =>
    exact ⟨WellKeyed.queried hchecker (queried_getRevocation s.checker now artifactId), hexports⟩
  | revokedArtifacts now => exact ⟨WellKeyed.cleanExpired hchecker now, hexports⟩
  | revocationCount now => exact ⟨WellKeyed.cleanExpired hchecker now, hexports⟩
  | activateKillSwitch now reason activatedBy => exact ⟨hchecker, hexports⟩
  | deactivateKillSwitch => exact ⟨hchecker, hexports⟩
  | markSynced now => exact ⟨hchecker, hexports⟩
  | toDict now =>
    exact Sound.grow ⟨hchecker, hexports⟩ (WellKeyed.toDict hchecker now) (WellKeyed.cleanExpired hchecker now)
  | toJson now =>
    exact Sound.grow ⟨hchecker, hexports⟩ (WellKeyed.toJson hchecker now) (WellKeyed.cleanExpired hchecker now)
  | restore now n =>
    unfold RevocationDesk.step
    dsimp only
    split
    · exact ⟨wellKeyed_fromDict _ _, hexports⟩
    · exact ⟨hchecker, hexports⟩

/-- The call leaves a permanent revocation alone: it does not lift it, does not put one for a time in its place, and
restores nothing older than the first `old` exports. -/
def Keeps (id : String) (old : Nat) : RevocationCall → Prop
  | .unrevoke artifactId => artifactId ≠ id
  | .revoke _ artifactId _ _ _ ttlSeconds => artifactId = id → ttlSeconds ≤ 0
  | .restore _ n => old ≤ n
  | _ => True

/-- The artifact is revoked for good, and in every export but the first `old` ones. -/
structure Held (id : String) (old : Nat) (s : RevocationDesk) : Prop where
  checker : s.checker.Permanent id
  old_le : old ≤ s.exports.length
  exports : ∀ n data, old ≤ n → s.exports[n]? = some data → data.Permanent id

theorem Held.grow {s : RevocationDesk} {id : String} {old : Nat} (h : s.Held id old) {data : CheckerData}
    (hdata : data.Permanent id) {checker : RevocationChecker} (hchecker : checker.Permanent id) :
    Held id old { checker, exports := s.exports ++ [data] } := by
  refine ⟨hchecker, by simp; exact Nat.le_succ_of_le h.old_le, ?_⟩
  intro n other hn hget
  rw [List.getElem?_append] at hget
  split at hget
  · exact h.exports n other hn hget
  · rw [List.mem_singleton.mp (List.mem_of_getElem? hget)]
    exact hdata

theorem Held.step {s : RevocationDesk} {id : String} {old : Nat} (hsound : s.Sound) (h : s.Held id old)
    {call : RevocationCall} (hkeeps : Keeps id old call) : (s.step call).Held id old := by
  obtain ⟨hchecker, hold, hexports⟩ := h
  have hkeyed := hsound.checker
  cases call with
  | revoke now artifactId reason revokedBy severity ttlSeconds =>
    refine ⟨?_, hold, hexports⟩
    by_cases hid : artifactId = id
    · subst hid
      exact ⟨_, Dict.get?_set_self _ _ _, by simp [not_lt.mpr (hkeeps rfl)]⟩
    · exact hchecker.set_of_ne (Ne.symm hid) _
  | unrevoke artifactId =>
    exact ⟨hchecker.pop_of_ne (Ne.symm hkeeps), hold, hexports⟩
  | isRevoked now artifactId =>
    exact ⟨hchecker.queried (queried_isRevoked s.checker now artifactId), hold, hexports⟩
  | getRevocation now artifactId =>
    exact ⟨hchecker.queried (queried_getRevocation s.checker now artifactId), hold, hexports⟩
  | revokedArtifacts now => exact ⟨hchecker.cleanExpired hkeyed now, hold, hexports⟩
  | revocationCount now => exact ⟨hchecker.cleanExpired hkeyed now, hold, hexports⟩
  | activateKillSwitch now reason activatedBy => exact ⟨hchecker, hold, hexports⟩
  | deactivateKillSwitch => exact ⟨hchecker, hold, hexports⟩
  | markSynced now => exact ⟨hchecker, hold, hexports⟩
  | toDict now =>
    exact Held.grow ⟨hchecker, hold, hexports⟩ (hchecker.toDict hkeyed now) (hchecker.cleanExpired hkeyed now)
  | toJson now =>
    exact Held.grow ⟨hchecker, hold, hexports⟩ (hchecker.toJson hkeyed now) (hchecker.cleanExpired hkeyed now)
  | restore now n =>
    unfold RevocationDesk.step
    dsimp only
    split
    · next data hget =>
      have hmem := List.mem_of_getElem? hget
      exact ⟨permanent_fromDict (hexports n data hkeeps hget) (hsound.exports data hmem) now, hold, hexports⟩
    · exact ⟨hchecker, hold, hexports⟩

theorem sound_run {s : RevocationDesk} (h : s.Sound) (calls : List RevocationCall) : (Lib.run step s calls).Sound :=
  Lib.run_invariant Sound (fun _ call hs => hs.step call) h calls

theorem held_run {s : RevocationDesk} {id : String} {old : Nat} (hsound : s.Sound) (h : s.Held id old)
    {calls : List RevocationCall} (hkeeps : ∀ call ∈ calls, Keeps id old call) : (Lib.run step s calls).Held id old := by
  induction calls generalizing s with
  | nil => exact h
  | cons call calls ih =>
    refine ih (hsound.step call) (h.step hsound (hkeeps call List.mem_cons_self)) ?_
    exact fun later hlater => hkeeps later (List.mem_cons_of_mem call hlater)

/-- **A revocation without expiry holds at any later time, in every run whose calls keep it.** -/
theorem permanent_revocation_holds (coreAllowlist : List String) (pollInterval : Rat) (before after : List RevocationCall)
    (now : Rat) (id reason revokedBy severity : String) (ttlSeconds : Rat) (httl : ttlSeconds ≤ 0)
    (hkeeps : ∀ call ∈ after, Keeps id (Lib.run step (start coreAllowlist pollInterval) before).exports.length call) :
    ∀ part, part <+: after → ∀ later : Rat,
      ((Lib.run step (start coreAllowlist pollInterval)
        (before ++ .revoke now id reason revokedBy severity ttlSeconds :: part)).checker.isRevoked later id).1 = true := by
  rintro part ⟨rest, rfl⟩ later
  have hsound := sound_run (sound_start coreAllowlist pollInterval) before
  rw [Lib.run_append, Lib.run_cons]
  refine Permanent.isRevoked (held_run (hsound.step _) ?_ fun call hcall => hkeeps call (List.mem_append_left rest hcall)).checker later
  refine ⟨⟨_, Dict.get?_set_self _ _ _, by simp [not_lt.mpr httl]⟩, le_refl _, fun n data hn hget => ?_⟩
  obtain ⟨hlt, -⟩ := List.getElem?_eq_some_iff.mp hget
  exact absurd hlt (not_lt.mpr hn)

theorem exported_revocation_holds :
    ((Lib.run step (start [] 300) ([] ++ .revoke 5 "tool" "CVE" "" "high" 0 ::
        [.revoke 7 "other" "" "" "high" 60, .toJson 8, .isRevoked 100 "other", .restore 200 0])).checker.isRevoked 1000000
          "tool").1 = true :=
  permanent_revocation_holds [] 300 [] _ 5 "tool" "CVE" "" "high" 0 (le_refl 0) (by simp [Keeps, Lib.run, start]) _
    (List.prefix_refl _) 1000000

/-- A second revocation, for a minute, ends the first. -/
theorem renewed_revocation_expires :
    ¬ ∀ (coreAllowlist : List String) (pollInterval : Rat) (before after : List RevocationCall) (now : Rat)
      (id reason revokedBy severity : String) (ttlSeconds : Rat), ttlSeconds ≤ 0 → .unrevoke id ∉ after →
        (∀ call ∈ after, ∀ time n, call ≠ .restore time n) → ∀ later : Rat,
          ((Lib.run step (start coreAllowlist pollInterval)
            (before ++ .revoke now id reason revokedBy severity ttlSeconds :: after)).checker.isRevoked later id).1 = true := by
  intro h
  have hrevoked := h [] 300 [] [.revoke 6 "tool" "" "" "high" 60] 5 "tool" "" "" "high" 0 (le_refl 0) (by simp) (by simp) 67
  revert hrevoked
  decide +kernel

end RevocationDesk

end Occp.Security
