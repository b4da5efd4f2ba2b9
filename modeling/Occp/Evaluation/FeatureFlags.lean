import Mathlib.Data.List.Induction
import Mathlib.Data.List.Sort
import Occp.Lib.Runs
import Occp.Text

/-!
# Feature flags (`evaluation/feature_flags.py`)

A file is what `json.loads` makes of its text; an empty one counts as an empty object. Times and
logs are left out: nothing reads the time that is stored.
-/

namespace Occp.Evaluation

structure FeatureFlag where
  key : String
  enabled : Bool := false
  rolloutPercent : Int := 0
  description : String := ""
  deriving DecidableEq

/-- The flags of `_seed_defaults`. -/
def defaultFlags : List FeatureFlag :=
  [{ key := "l6.observability.metrics_enabled", enabled := true,
     description := "Enable /observability/metrics endpoint emission" },
   { key := "l6.observability.tracing_enabled", description := "Enable distributed trace correlation (future)" },
   { key := "l6.rfc.auto_generation", description := "Allow Claude Code to auto-generate RFC drafts" },
   { key := "l6.canary.enabled", description := "Enable canary traffic splitting (future)" },
   { key := "l6.self_modifier.log_only", enabled := true,
     description := "Self-modifier runs in log-only mode (safe default)" },
   { key := "l6.evaluation.replay_harness", description := "Enable historical workflow replay testing" },
   { key := "l6.llm.prompt_caching",
     description := "Enable Anthropic prompt caching on stable system prompts (90% savings)" },
   { key := "l6.llm.tier_routing",
     description := "Route by risk: low→Haiku, medium→Sonnet, high→Opus (60% cost cut)" },
   { key := "l6.llm.batch_api", description := "Use Batch API for non-realtime tasks (50% discount)" },
   { key := "l6.autodev.enabled",
     description := "Enable /autodev/* endpoints. OFF by default — must be explicitly enabled." }]

structure FeatureFlagStore where
  flags : Dict FeatureFlag
  /-- The file of the store, if there is one. -/
  file : Option Payload

namespace FeatureFlagStore

def seedDefaults : Dict FeatureFlag := Dict.setAll [] (defaultFlags.map fun flag => (flag.key, flag))

/-! ## The file -/

/-- `int(v)`, where it does not raise. -/
def intOf? : Value → Option Int
  | .bool b => some (if b then 1 else 0)
  | .int n => some n
  | .float q => some (Text.truncate q)
  | .str s => Text.int? s
  | _ => none

/-- One entry of the file, and whether it was read to its end. A flag that is there already
keeps what was read before a percentage that is no number. -/
def loadEntry (text : Value → String) (flags : Dict FeatureFlag) (key : String) (payload : Dict Value) :
    Dict FeatureFlag × Bool :=
  match flags.get? key with
  | some existing =>
    let existing := { existing with enabled := (payload.get? "enabled").elim existing.enabled Value.truthy }
    match (payload.get? "rollout_percent").elim (some existing.rolloutPercent) intOf? with
    | none => (flags.set key existing, false)
    | some percent =>
      (flags.set key
        { existing with
          rolloutPercent := percent
          description := (payload.get? "description").elim existing.description (Text.inserted text) }, true)
  | none =>
    match (payload.get? "rollout_percent").elim (some 0) intOf? with
    | none => (flags, false)
    | some percent =>
      (flags.set key
        { key
          enabled := (payload.get? "enabled").elim false Value.truthy
          rolloutPercent := percent
          description := (payload.get? "description").elim "" (Text.inserted text) }, true)

/-- The loop of `_load_from_disk`; an exception ends it. -/
def loadEntries (text : Value → String) (flags : Dict FeatureFlag) : Dict Value → Dict FeatureFlag
  | [] => flags
  | (key, .dict payload) :: rest =>
    match loadEntry text flags key payload with
    | (flags, true) => loadEntries text flags rest
    | (flags, false) => flags
  | _ :: rest => loadEntries text flags rest

def loadFromDisk (text : Value → String) (flags : Dict FeatureFlag) : Option Payload → Dict FeatureFlag
  | some (some (.dict data)) => loadEntries text flags data
  | _ => flags

/-- A new store on the file. -/
def openStore (text : Value → String) (file : Option Payload) : FeatureFlagStore where
  flags := loadFromDisk text seedDefaults file
  file := file

/-- What is written for a flag; `json.dumps` sorts the keys. -/
def entry (flag : FeatureFlag) : Value :=
  .dict [("description", .str flag.description), ("enabled", .bool flag.enabled),
    ("rollout_percent", .int flag.rolloutPercent)]

def payload (flags : Dict FeatureFlag) : Dict Value :=
  (flags.map fun e => (e.1, entry e.2)).insertionSort fun e e' => e.1 ≤ e'.1

/-- `_persist_unlocked`. A write that fails leaves the file as it was. -/
def persist (s : FeatureFlagStore) (written : Bool) : FeatureFlagStore :=
  if written then { s with file := some (some (.dict (payload s.flags))) } else s

/-! ## The operations -/

/-- `written` says whether the write succeeds, where there is one. -/
inductive Op where
  | set (key : String) (enabled : Bool) (description : Option String) (rolloutPercent : Option Int) (written : Bool)
  | delete (key : String) (written : Bool)

def Op.key : Op → String
  | .set key _ _ _ _ => key
  | .delete key _ => key

def Op.written : Op → Bool
  | .set _ _ _ _ written => written
  | .delete _ written => written

def Op.isDelete : Op → Bool
  | .set _ _ _ _ _ => false
  | .delete _ _ => true

def clamped (rolloutPercent : Option Int) : Int := rolloutPercent.elim 0 fun n => max 0 (min 100 n)

/-- The flag that `set` leaves. -/
def updated (flag? : Option FeatureFlag) (key : String) (enabled : Bool) (description : Option String)
    (rolloutPercent : Option Int) : FeatureFlag :=
  match flag? with
  | none => { key, enabled, description := description.getD "", rolloutPercent := clamped rolloutPercent }
  | some flag =>
    { flag with
      enabled := enabled
      description := description.getD flag.description
      rolloutPercent := if rolloutPercent.isSome then clamped rolloutPercent else flag.rolloutPercent }

def step (s : FeatureFlagStore) : Op → FeatureFlagStore
  | .set key enabled description rolloutPercent written =>
    let flag := updated (s.flags.get? key) key enabled description rolloutPercent
    { s with flags := s.flags.set key flag }.persist written
  | .delete key written =>
    if (s.flags.get? key).isSome then { s with flags := s.flags.pop key }.persist written else s

def isEnabled (s : FeatureFlagStore) (key : String) (default : Bool) : Bool :=
  match s.flags.get? key with
  | none => default
  | some flag => flag.enabled

/-! ## What a new store reads -/

variable {text : Value → String}

theorem seedDefaults_eq : seedDefaults = defaultFlags.map fun flag => (flag.key, flag) := by decide +kernel

theorem keys_payload (flags : Dict FeatureFlag) (h : flags.keys.Nodup) : (payload flags).keys.Nodup := by
  have hperm : (payload flags).Perm (flags.map fun e => (e.1, entry e.2)) := List.perm_insertionSort _ _
  rw [Dict.keys, (hperm.map _).nodup_iff, List.map_map]
  exact h

theorem get?_payload (flags : Dict FeatureFlag) (h : flags.keys.Nodup) (key : String) :
    (payload flags).get? key = (flags.get? key).map entry := by
  have hperm : (payload flags).Perm (flags.map fun e => (e.1, entry e.2)) := List.perm_insertionSort _ _
  rw [← Dict.get?_map]
  refine Option.ext fun v => ?_
  have hkeys : Dict.keys (flags.map fun e => (e.1, entry e.2)) = flags.keys := by
    simp only [Dict.keys, List.map_map]
    rfl
  rw [← Dict.mem_iff_get? _ (keys_payload flags h), ← Dict.mem_iff_get? _ (by rwa [hkeys]), hperm.mem_iff]

/-- An entry that was written for a flag is read to its end. -/
theorem loadEntry_entry (flags : Dict FeatureFlag) (key : String) (flag : FeatureFlag) :
    ∃ read : FeatureFlag, read.enabled = flag.enabled ∧
      loadEntry text flags key [("description", .str flag.description), ("enabled", .bool flag.enabled),
        ("rollout_percent", .int flag.rolloutPercent)] = (flags.set key read, true) := by
  unfold loadEntry
  cases flags.get? key with
  | none =>
    refine ⟨_, ?_, rfl⟩
    rfl
  | some existing =>
    refine ⟨_, ?_, rfl⟩
    rfl

theorem enabled_loadEntries (flags : Dict FeatureFlag) (data : Dict Value) (hnodup : data.keys.Nodup)
    (hdata : ∀ e ∈ data, ∃ flag, e.2 = entry flag) (key : String) :
    ((loadEntries text flags data).get? key).map FeatureFlag.enabled =
      match data.get? key with
      | some (.dict payload) => (Dict.get? payload "enabled").map Value.truthy
      | _ => (flags.get? key).map FeatureFlag.enabled := by
  induction data generalizing flags with
  | nil => rfl
  | cons e data ih =>
    obtain ⟨k, v⟩ := e
    obtain ⟨flag, hflag⟩ := hdata (k, v) List.mem_cons_self
    obtain rfl : v = entry flag := hflag
    obtain ⟨read, hread, hload⟩ := @loadEntry_entry text flags k flag
    have hk : k ∉ Dict.keys data ∧ (Dict.keys data).Nodup := List.nodup_cons.mp hnodup
    rw [entry, loadEntries, hload]
    dsimp only
    rw [ih _ hk.2 fun e he => hdata e (List.mem_cons_of_mem _ he)]
    by_cases hkey : k = key
    · subst hkey
      rw [(Dict.get?_eq_none_iff data k).mpr hk.1]
      simp [Dict.get?, hread, Value.truthy]
    · rw [Dict.get?_set_of_ne _ _ _ _ (Ne.symm hkey), Dict.get?, if_neg hkey]

/-- A new store on what was written answers for every flag that was written, and for the
defaults otherwise. -/
theorem isEnabled_openStore (flags : Dict FeatureFlag) (h : flags.keys.Nodup) (key : String) (default : Bool) :
    (openStore text (some (some (.dict (payload flags))))).isEnabled key default =
      match flags.get? key with
      | some flag => flag.enabled
      | none => ((seedDefaults.get? key).map FeatureFlag.enabled).getD default := by
  have hread := @enabled_loadEntries text seedDefaults (payload flags) (keys_payload flags h) (fun e he => by
    obtain ⟨k, v⟩ := e
    rw [Dict.mem_iff_get? _ (keys_payload flags h), get?_payload flags h] at he
    obtain ⟨flag, -, hv⟩ := Option.map_eq_some_iff.mp he
    exact ⟨flag, hv.symm⟩) key
  have hanswer (s : FeatureFlagStore) :
      s.isEnabled key default = ((s.flags.get? key).map FeatureFlag.enabled).getD default := by
    unfold isEnabled
    cases s.flags.get? key <;> rfl
  rw [hanswer, openStore, loadFromDisk, hread, get?_payload flags h]
  cases flags.get? key <;> rfl

/-! ## Restarts -/

theorem nodup_keys_pop {α : Type} (d : Dict α) (key : String) (h : d.keys.Nodup) : (d.pop key).keys.Nodup :=
  (List.filter_sublist.map _).nodup h

/-- Loading sets flags and does nothing else. -/
theorem loadEntries_invariant {P : Dict FeatureFlag → Prop} (hset : ∀ flags key flag, P flags → P (flags.set key flag))
    {flags : Dict FeatureFlag} (h : P flags) (data : Dict Value) : P (loadEntries text flags data) := by
  have hentry (flags : Dict FeatureFlag) (key : String) (payload : Dict Value) (h : P flags) :
      P (loadEntry text flags key payload).1 := by
    unfold loadEntry
    split
    · dsimp only
      split <;> exact hset _ _ _ h
    · split
      · exact h
      · exact hset _ _ _ h
  induction flags, data using loadEntries.induct text with
  | case1 flags => exact h
  | case2 flags key payload rest flags' hload ih =>
    rw [loadEntries, hload]
    have hkept := hentry flags key payload h
    rw [hload] at hkept
    exact ih hkept
  | case3 flags key payload rest flags' hload =>
    rw [loadEntries, hload]
    have hkept := hentry flags key payload h
    rwa [hload] at hkept
  | case4 flags head rest hne ih =>
    rw [loadEntries]
    · exact ih h
    · exact hne

theorem openStore_invariant {P : Dict FeatureFlag → Prop} (hset : ∀ flags key flag, P flags → P (flags.set key flag))
    (h : P seedDefaults) (file : Option Payload) : P (openStore text file).flags := by
  unfold openStore loadFromDisk
  dsimp only
  split
  · exact loadEntries_invariant hset h _
  · exact h

theorem nodup_openStore (file : Option Payload) : (openStore text file).flags.keys.Nodup := by
  refine openStore_invariant (P := fun flags => flags.keys.Nodup) (fun flags key flag h => ?_) ?_ file
  · exact Dict.nodup_keys_set flags key flag h
  · rw [seedDefaults_eq]
    decide

/-- Loading takes no default away. -/
theorem default_openStore {flag : FeatureFlag} (h : flag ∈ defaultFlags) (file : Option Payload) :
    ((openStore text file).flags.get? flag.key).isSome := by
  refine openStore_invariant (P := fun flags => (flags.get? flag.key).isSome) (fun flags key new hkey => ?_) ?_ file
  · rw [Dict.get?_set]
    split
    · rfl
    · exact hkey
  · have hall : defaultFlags.all (fun flag => (seedDefaults.get? flag.key).isSome) = true := by
      rw [seedDefaults_eq]
      decide
    exact List.all_eq_true.mp hall flag h

/-- Whether the last of the operations on the key deletes it. -/
def deletedLast (key : String) (ops : List Op) : Bool := (ops.reverse.find? (·.key = key)).any Op.isDelete

theorem deletedLast_concat (key : String) (ops : List Op) (op : Op) :
    deletedLast key (ops ++ [op]) = if op.key = key then op.isDelete else deletedLast key ops := by
  rw [deletedLast, List.reverse_append, List.reverse_singleton, List.singleton_append, List.find?_cons]
  by_cases h : op.key = key <;> simp [h, deletedLast]

theorem step_flags (s : FeatureFlagStore) (op : Op) (key : String) :
    ((s.step op).flags.get? key).isSome = if op.key = key then !op.isDelete else (s.flags.get? key).isSome := by
  have hpersist (s : FeatureFlagStore) (written : Bool) : (s.persist written).flags = s.flags := by
    unfold persist
    split <;> rfl
  cases op with
  | set k enabled description rolloutPercent written =>
    unfold step
    dsimp only
    rw [hpersist, Dict.get?_set]
    by_cases hk : k = key
    · rw [if_pos hk.symm, if_pos (by exact hk)]
      rfl
    · rw [if_neg (Ne.symm hk), if_neg (by exact hk)]
  | delete k written =>
    unfold step
    dsimp only
    by_cases hk : k = key
    · subst hk
      rw [if_pos (show (Op.delete k written).key = k from rfl)]
      split
      · rw [hpersist, Dict.get?_pop, if_pos rfl]
        rfl
      · next hnone => simpa [Op.isDelete] using hnone
    · rw [if_neg (show (Op.delete k written).key ≠ key from hk)]
      split
      · rw [hpersist, Dict.get?_pop, if_neg (Ne.symm hk)]
      · rfl

/-- A flag that is there at first is there in the end unless it was deleted last. -/
theorem run_flags (s : FeatureFlagStore) (ops : List Op) (key : String) (h : (s.flags.get? key).isSome) :
    ((Lib.run step s ops).flags.get? key).isSome = !deletedLast key ops := by
  induction ops using List.reverseRecOn with
  | nil => simpa [deletedLast] using h
  | append_singleton ops op ih =>
    rw [Lib.run_append, Lib.run_cons, Lib.run_nil, step_flags, deletedLast_concat, ih]
    split <;> rfl

/-- Nothing has been written yet, or what was written last are the flags. -/
def Persisted (start s : FeatureFlagStore) : Prop :=
  s.flags.keys.Nodup ∧ (s = start ∨ s.file = some (some (.dict (payload s.flags))))

theorem persisted_step {start s : FeatureFlagStore} (h : Persisted start s) (op : Op) (hwritten : op.written = true) :
    Persisted start (s.step op) := by
  obtain ⟨hnodup, hfile⟩ := h
  cases op with
  | set key enabled description rolloutPercent written =>
    obtain rfl : written = true := hwritten
    exact ⟨Dict.nodup_keys_set _ _ _ hnodup, .inr rfl⟩
  | delete key written =>
    obtain rfl : written = true := hwritten
    unfold step
    dsimp only
    split
    · exact ⟨nodup_keys_pop _ _ hnodup, .inr rfl⟩
    · exact ⟨hnodup, hfile⟩

theorem persisted_run {start : FeatureFlagStore} (h : start.flags.keys.Nodup) (ops : List Op)
    (hwritten : ∀ op ∈ ops, op.written = true) : Persisted start (Lib.run step start ops) := by
  induction ops using List.reverseRecOn with
  | nil => exact ⟨h, .inl rfl⟩
  | append_singleton ops op ih =>
    rw [Lib.run_append]
    refine persisted_step (ih fun op' hop => hwritten op' (List.mem_append_left _ hop)) op ?_
    exact hwritten op (List.mem_append_right _ List.mem_cons_self)

/-- A store that is opened on the file of another one answers as that one does just when no flag
whose default differs from the answer for unknown flags was deleted last. -/
theorem restart_isEnabled_iff (text : Value → String) (file : Option Payload) (ops : List Op)
    (hwritten : ∀ op ∈ ops, op.written = true) (default : Bool) :
    (∀ key, (openStore text (Lib.run step (openStore text file) ops).file).isEnabled key default =
        (Lib.run step (openStore text file) ops).isEnabled key default) ↔
      ∀ flag ∈ defaultFlags, flag.enabled ≠ default → deletedLast flag.key ops = false := by
  have hthere (flag : FeatureFlag) (h : flag ∈ defaultFlags) :
      ((Lib.run step (openStore text file) ops).flags.get? flag.key).isSome = !deletedLast flag.key ops :=
    run_flags _ ops flag.key (default_openStore h file)
  have hseed : ∀ flag ∈ defaultFlags, seedDefaults.get? flag.key = some flag := by
    rw [seedDefaults_eq]
    decide
  obtain ⟨hnodup, hsame | hfile⟩ := persisted_run (@nodup_openStore text file) ops hwritten
  · -- Nothing was written, so the new store reads what the old one read.
    refine iff_of_true (fun key => by rw [hsame]; rfl) fun flag hflag _ => ?_
    have hkept := hthere flag hflag
    rw [hsame, default_openStore hflag file] at hkept
    simpa using hkept.symm
  · rw [hfile]
    simp only [isEnabled_openStore _ hnodup]
    constructor
    · intro h flag hflag hne
      by_contra hdeleted
      have hnone := hthere flag hflag
      rw [Bool.eq_true_of_not_eq_false hdeleted, Bool.not_true, Option.isSome_eq_false_iff, Option.isNone_iff_eq_none] at hnone
      have hkey := h flag.key
      rw [isEnabled, hnone, hseed flag hflag] at hkey
      exact hne hkey
    · intro h key
      unfold isEnabled
      cases hget : (Lib.run step (openStore text file) ops).flags.get? key with
      | some flag => rfl
      | none =>
        dsimp only
        cases hdefault : seedDefaults.get? key with
        | none => rfl
        | some flag =>
          have hin := Dict.mem_of_get? hdefault
          rw [seedDefaults_eq, List.mem_map] at hin
          obtain ⟨flag', hflag, heq⟩ := hin
          cases heq
          have hgone := hthere flag hflag
          rw [hget] at hgone
          by_contra hne
          simp [h flag hflag hne] at hgone

theorem restart_isEnabled_iff_set_again :
    let ops : List Op := [.delete "l6.self_modifier.log_only" true, .set "l6.self_modifier.log_only" true none none true,
      .delete "l6.rfc.auto_generation" true]
    (∀ op ∈ ops, op.written = true) ∧ ∀ key,
      (openStore (fun _ => "") (Lib.run step (openStore (fun _ => "") none) ops).file).isEnabled key false =
        (Lib.run step (openStore (fun _ => "") none) ops).isEnabled key false :=
  ⟨by decide, (restart_isEnabled_iff (fun _ => "") none _ (by decide) false).mpr (by decide +kernel)⟩

/-- The default that was deleted is back, and enabled. -/
theorem deleted_default_enabled_again :
    let s := Lib.run step (openStore (fun _ => "") none) [.delete "l6.self_modifier.log_only" true]
    s.isEnabled "l6.self_modifier.log_only" false = false ∧
      (openStore (fun _ => "") s.file).isEnabled "l6.self_modifier.log_only" false = true := by
  decide +kernel

end FeatureFlagStore

end Occp.Evaluation
