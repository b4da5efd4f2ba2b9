import Mathlib.Data.List.Sort
import Occp.Lib.PrefixCode
import Occp.Policy.AuditChain
import Occp.PyEq

/-!
# The policy hash and the decision

The hash names the policies and the ABAC rules that the engine last saw. It leaves out
how the ABAC decisions are combined, what an evaluator learns after it was attached,
and the type of a condition's value. Where these do not differ, one hash means one decision.
-/

namespace Occp.Policy

open Occp.Lib Occp.Lib.Except

def RuleAction.value : RuleAction → String
  | allow => "allow"
  | deny => "deny"
  | requireApproval => "require_approval"

/-! ## Configuration -/

namespace ABACEvaluator

def conditionData (py : PyLib) (c : ABACCondition) : Value :=
  .dict [("attr", .str c.attributeName), ("op", .str c.operator), ("val", .str (py.str c.value))]

def ruleData (py : PyLib) (r : ABACRule) : Value :=
  .dict [("id", .str r.id), ("effect", .str r.effect.value),
    ("conditions", .list (r.conditions.map (conditionData py))), ("priority", .int r.priority)]

def rulesData (py : PyLib) (ev : ABACEvaluator) : Value := .list (ev.rules.map (ruleData py))

def recomputeHash (py : PyLib) (ev : ABACEvaluator) : ABACEvaluator :=
  { ev with policyHash := py.sha256 (py.dumps (ev.rulesData py)) }

/-- `sort(key=priority, reverse=True)`, which keeps the order of equal priorities. -/
def sortByPriority (rules : List ABACRule) : List ABACRule :=
  rules.insertionSort fun r s => s.priority ≤ r.priority

def addRule (py : PyLib) (ev : ABACEvaluator) (rule : ABACRule) : ABACEvaluator :=
  { ev with rules := sortByPriority (ev.rules ++ [rule]) }.recomputeHash py

def loadRules (py : PyLib) (ev : ABACEvaluator) (rules : List ABACRule) : ABACEvaluator :=
  { ev with rules := sortByPriority (ev.rules ++ rules) }.recomputeHash py

def clear (ev : ABACEvaluator) : ABACEvaluator := { ev with rules := [], policyHash := "" }

inductive Edit where
  | addRule (rule : ABACRule)
  | loadRules (rules : List ABACRule)
  | clear

def edit (py : PyLib) (ev : ABACEvaluator) : Edit → ABACEvaluator
  | .addRule rule => ev.addRule py rule
  | .loadRules rules => ev.loadRules py rules
  | .clear => ev.clear

end ABACEvaluator

namespace PolicyEngine

def ruleData (r : PolicyRule) : Value :=
  .dict [("id", .str r.id), ("action", .str r.action.value), ("conditions", .dict r.conditions)]

/-- What `_recompute_policy_hash` serialises of a policy. -/
def policyData (p : Policy) : Value :=
  .dict [("name", .str p.name), ("version", .str p.version), ("rules", .list (p.rules.map ruleData))]

def hashParts (py : PyLib) (eng : PolicyEngine) : List String :=
  eng.policies.map (fun p => py.dumps (policyData p)) ++
    (match eng.abacEvaluator with
      | some ev => ["abac:" ++ ev.policyHash]
      | none => [])

def hashedText (py : PyLib) (eng : PolicyEngine) : String := "|".intercalate (eng.hashParts py)

def recomputePolicyHash (py : PyLib) (eng : PolicyEngine) : PolicyEngine :=
  { eng with policyHash := py.sha256 (eng.hashedText py) }

/-- `add_policy`; a JSON file ends here, too. -/
def addPolicy (py : PyLib) (eng : PolicyEngine) (policy : Policy) : PolicyEngine :=
  { eng with policies := eng.policies ++ [policy] }.recomputePolicyHash py

def setAbacEvaluator (py : PyLib) (eng : PolicyEngine) (ev : ABACEvaluator) : PolicyEngine :=
  { eng with abacEvaluator := some ev }.recomputePolicyHash py

/-- What a YAML file has: ABAC rules or not, where rules may be missing from the section, and
a policy, or one that fails to load. -/
structure YamlFile where
  abacRules : Option (Option (List ABACRule))
  policy : Option Policy

/-- `_load_yaml_policy`. The ABAC rules stay when the policy fails after them. -/
def loadYamlPolicy (py : PyLib) (eng : PolicyEngine) (file : YamlFile) : PolicyEngine :=
  let eng :=
    match file.abacRules with
    | none => eng
    | some rules? =>
      let ev := eng.abacEvaluator.getD {}
      { eng with abacEvaluator := some (match rules? with
          | some rules => ev.loadRules py rules
          | none => ev) }
  match file.policy with
  | some policy => eng.addPolicy py policy
  | none => eng

/-- A configuration call. An evaluator is built before it is set, and may be edited after. -/
inductive Config where
  | addPolicy (policy : Policy)
  | loadYamlPolicy (file : YamlFile)
  | setAbacEvaluator (algorithm : CombineAlgorithm) (defaultEffect : Effect) (edits : List ABACEvaluator.Edit)
  | edit (e : ABACEvaluator.Edit)

def configure (py : PyLib) (eng : PolicyEngine) : Config → PolicyEngine
  | .addPolicy policy => eng.addPolicy py policy
  | .loadYamlPolicy file => eng.loadYamlPolicy py file
  | .setAbacEvaluator algorithm defaultEffect edits =>
    eng.setAbacEvaluator py (edits.foldl (ABACEvaluator.edit py) { algorithm, defaultEffect })
  | .edit e => { eng with abacEvaluator := eng.abacEvaluator.map fun ev => ev.edit py e }

def configured (py : PyLib) (guards : List Guard) (calls : List Config) : PolicyEngine :=
  run (configure py) { guards } calls

/-- Whether the engine has taken in all there is of its evaluator. -/
def settledBy (settled : Bool) : Config → Bool
  | .addPolicy _ => true
  | .setAbacEvaluator .. => true
  | .loadYamlPolicy file => file.policy.isSome || (settled && file.abacRules.isNone)
  | .edit _ => false

/-- No evaluator was edited after the engine last computed its hash. -/
def settled (calls : List Config) : Bool := calls.foldl settledBy true

/-! ## What the hash covers -/

/-- The evaluator's hash is that of its rules, or it has none of both. -/
def Tracked (py : PyLib) (ev : ABACEvaluator) : Prop :=
  ev.policyHash = py.sha256 (py.dumps (ev.rulesData py)) ∨ (ev.rules = [] ∧ ev.policyHash = "")

/-- The engine's hash is the one of now, or nothing was ever configured. -/
def UpToDate (py : PyLib) (eng : PolicyEngine) : Prop :=
  (eng.hashParts py ≠ [] ∧ eng.policyHash = py.sha256 (eng.hashedText py)) ∨
    (eng.policies = [] ∧ eng.abacEvaluator = none ∧ eng.policyHash = "")

variable {py : PyLib}

theorem upToDate_addPolicy (eng : PolicyEngine) (policy : Policy) : UpToDate py (eng.addPolicy py policy) :=
  .inl ⟨by simp [addPolicy, recomputePolicyHash, hashParts], rfl⟩

theorem tracked_edit (ev : ABACEvaluator) (e : ABACEvaluator.Edit) : Tracked py (ev.edit py e) := by
  cases e with
  | addRule rule => exact .inl rfl
  | loadRules rules => exact .inl rfl
  | clear => exact .inr ⟨rfl, rfl⟩

theorem tracked_edits (algorithm : CombineAlgorithm) (defaultEffect : Effect) (edits : List ABACEvaluator.Edit) :
    Tracked py (edits.foldl (ABACEvaluator.edit py) { algorithm, defaultEffect }) := by
  have hall : ∀ ev, Tracked py ev → Tracked py (edits.foldl (ABACEvaluator.edit py) ev) := by
    induction edits with
    | nil => exact fun _ h => h
    | cons e edits ih => exact fun ev _ => ih _ (tracked_edit ev e)
  exact hall _ (.inr ⟨rfl, rfl⟩)

/-- What the configuration calls keep. -/
structure Consistent (py : PyLib) (guards : List Guard) (eng : PolicyEngine) (settled : Bool) : Prop where
  guards : eng.guards = guards
  tracked : ∀ ev, eng.abacEvaluator = some ev → Tracked py ev
  upToDate : settled = true → UpToDate py eng

theorem Consistent.configure {guards : List Guard} {eng : PolicyEngine} {settled : Bool}
    (h : Consistent py guards eng settled) (call : Config) :
    Consistent py guards (eng.configure py call) (settledBy settled call) := by
  cases call with
  | addPolicy policy => exact ⟨h.guards, h.tracked, fun _ => upToDate_addPolicy eng policy⟩
  | setAbacEvaluator algorithm defaultEffect edits =>
    refine ⟨h.guards, fun ev hev => ?_, fun _ => .inl ⟨?_, rfl⟩⟩
    · obtain rfl := Option.some_inj.mp hev
      exact tracked_edits algorithm defaultEffect edits
    · simp [PolicyEngine.configure, setAbacEvaluator, recomputePolicyHash, hashParts]
  | edit e =>
    refine ⟨h.guards, fun ev hev => ?_, fun hsettled => absurd hsettled Bool.false_ne_true⟩
    obtain ⟨ev', -, rfl⟩ := Option.map_eq_some_iff.mp hev
    exact tracked_edit ev' e
  | loadYamlPolicy file =>
    obtain ⟨abacRules, policy⟩ := file
    have hloaded : ∀ rules? : Option (List ABACRule), Tracked py (match rules? with
        | some rules => (eng.abacEvaluator.getD {}).loadRules py rules
        | none => eng.abacEvaluator.getD {}) := by
      intro rules?
      cases rules? with
      | some rules => exact .inl rfl
      | none =>
        cases hev : eng.abacEvaluator with
        | some ev => exact h.tracked ev hev
        | none => exact .inr ⟨rfl, rfl⟩
    cases abacRules with
    | none =>
      cases policy with
      | some policy => exact ⟨h.guards, h.tracked, fun _ => upToDate_addPolicy eng policy⟩
      | none => exact ⟨h.guards, h.tracked, fun hsettled => h.upToDate (by simpa [settledBy] using hsettled)⟩
    | some rules? =>
      cases policy with
      | some policy =>
        refine ⟨h.guards, fun ev hev => ?_, fun _ => upToDate_addPolicy _ policy⟩
        obtain rfl := Option.some_inj.mp hev
        exact hloaded rules?
      | none =>
        refine ⟨h.guards, fun ev hev => ?_, fun hsettled => by simp [settledBy] at hsettled⟩
        obtain rfl := Option.some_inj.mp hev
        exact hloaded rules?

theorem consistent_configured (guards : List Guard) (calls : List Config) :
    Consistent py guards (configured py guards calls) (settled calls) := by
  have hall : ∀ eng b, Consistent py guards eng b →
      Consistent py guards (run (configure py) eng calls) (calls.foldl settledBy b) := by
    induction calls with
    | nil => exact fun _ _ h => h
    | cons call calls ih => exact fun eng b h => ih _ _ (h.configure call)
  exact hall _ _ ⟨rfl, (fun _ h => by cases h), fun _ => .inr ⟨rfl, rfl, rfl⟩⟩

/-! ## One hash, one text -/

/-- The values whose JSON text is hashed. -/
def policyValues (py : PyLib) (eng : PolicyEngine) : List Value :=
  eng.policies.map policyData ++ (eng.abacEvaluator.map (·.rulesData py)).toList

def policyTexts (py : PyLib) (eng : PolicyEngine) : List String :=
  eng.hashedText py :: (eng.abacEvaluator.map fun ev => py.dumps (ev.rulesData py)).toList

/-- What is assumed of Python's library, about what two engines hash: no collision; one JSON text
only for equal values; the text of an object begins with a brace and ends where the object does. -/
structure LibraryReads (py : PyLib) (eng eng' : PolicyEngine) : Prop where
  hex : HexDigest py.sha256
  collisionFree : CollisionFree py.sha256 (eng.policyTexts py ++ eng'.policyTexts py)
  json : ∀ v ∈ eng.policyValues py, ∀ w ∈ eng'.policyValues py, py.dumps v = py.dumps w → v.pyEq w = true
  brace : ∀ p ∈ eng.policies ++ eng'.policies, (py.dumps (policyData p)).toList.head? = some (Char.ofNat 123)
  ends : ∀ p ∈ eng.policies, ∀ p' ∈ eng'.policies,
    (py.dumps (policyData p)).toList <+: (py.dumps (policyData p')).toList ∨
      (py.dumps (policyData p')).toList <+: (py.dumps (policyData p)).toList →
    py.dumps (policyData p) = py.dumps (policyData p')

/-- A part of the hashed text, with the bar that ends it. -/
def barred (part : String) : List Char := part.toList ++ ['|']

theorem barred_prefix {part part' : String} (h : barred part <+: barred part') :
    part = part' ∨ (part.toList ++ ['|']) <+: part'.toList := by
  rcases List.prefix_concat_iff.mp h with heq | hshort
  · exact .inl (String.toList_injective (List.append_cancel_right heq))
  · exact .inr hshort

theorem bar_notMem {ev : ABACEvaluator} (hhex : HexDigest py.sha256) (h : Tracked py ev) :
    '|' ∉ ev.policyHash.toList := by
  rcases h with h | ⟨-, h⟩
  · rw [h]
    intro hbar
    exact absurd (hhex.digits _ _ hbar) (by decide)
  · simp [h]

theorem mem_hashParts {eng : PolicyEngine} {part : String} (h : part ∈ eng.hashParts py) :
    (∃ p ∈ eng.policies, part = py.dumps (policyData p)) ∨
      ∃ ev, eng.abacEvaluator = some ev ∧ part = "abac:" ++ ev.policyHash := by
  rcases List.mem_append.mp h with h | h
  · obtain ⟨p, hp, rfl⟩ := List.mem_map.mp h
    exact .inl ⟨p, hp, rfl⟩
  · cases hev : eng.abacEvaluator with
    | none => simp [hev] at h
    | some ev => exact .inr ⟨ev, rfl, by simpa [hev] using h⟩

/-- The parts of the two texts do not begin one another. -/
theorem barred_eq_of_leading {eng eng' : PolicyEngine} (hreads : LibraryReads py eng eng')
    (htracked : ∀ ev, eng.abacEvaluator = some ev → Tracked py ev)
    (htracked' : ∀ ev, eng'.abacEvaluator = some ev → Tracked py ev) {part part' : String}
    (hpart : part ∈ eng.hashParts py) (hpart' : part' ∈ eng'.hashParts py)
    (h : barred part <+: barred part' ∨ barred part' <+: barred part) : part = part' := by
  have hhead : ∀ {part part' : String}, barred part <+: barred part' → (barred part).head? = (barred part').head? := by
    intro part part' hprefix
    obtain ⟨rest, hrest⟩ := hprefix
    rw [← hrest, List.head?_append_of_ne_nil _ (by simp [barred])]
  have hbrace : ∀ p ∈ eng.policies ++ eng'.policies,
      (barred (py.dumps (policyData p))).head? = some (Char.ofNat 123) := by
    intro p hp
    rw [barred, List.head?_append, hreads.brace p hp]
    rfl
  have habac : ∀ hash : String, (barred ("abac:" ++ hash)).head? = some 'a' := by
    intro hash
    simp [barred]
  have hsameHead : (barred part).head? = (barred part').head? := by
    rcases h with h | h
    · exact hhead h
    · exact (hhead h).symm
  have hbraceNe : Char.ofNat 123 ≠ 'a' := by decide
  rcases mem_hashParts hpart with ⟨p, hp, rfl⟩ | ⟨ev, hev, rfl⟩ <;>
    rcases mem_hashParts hpart' with ⟨p', hp', rfl⟩ | ⟨ev', hev', rfl⟩
  · rcases h with h | h
    · rcases barred_prefix h with heq | hshort
      · exact heq
      · exact hreads.ends p hp p' hp' (.inl ((List.prefix_append _ _).trans hshort))
    · rcases barred_prefix h with heq | hshort
      · exact heq.symm
      · exact hreads.ends p hp p' hp' (.inr ((List.prefix_append _ _).trans hshort))
  · rw [hbrace p (by simp [hp]), habac, Option.some_inj] at hsameHead
    exact absurd hsameHead hbraceNe
  · rw [hbrace p' (by simp [hp']), habac, Option.some_inj] at hsameHead
    exact absurd hsameHead.symm hbraceNe
  · have hbar : ∀ {hash hash' : String}, '|' ∉ hash'.toList →
        barred ("abac:" ++ hash) <+: barred ("abac:" ++ hash') → "abac:" ++ hash = "abac:" ++ hash' := by
      intro hash hash' hno hprefix
      rcases barred_prefix hprefix with heq | hshort
      · exact heq
      · exact absurd (hshort.subset (by simp : '|' ∈ _)) (by simpa using hno)
    rcases h with h | h
    · exact hbar (bar_notMem hreads.hex (htracked' ev' hev')) h
    · exact (hbar (bar_notMem hreads.hex (htracked ev hev)) h).symm

/-- The parts are read back from the hashed text. -/
theorem hashParts_eq {eng eng' : PolicyEngine} (hreads : LibraryReads py eng eng')
    (htracked : ∀ ev, eng.abacEvaluator = some ev → Tracked py ev)
    (htracked' : ∀ ev, eng'.abacEvaluator = some ev → Tracked py ev) (hne : eng.hashParts py ≠ [])
    (hne' : eng'.hashParts py ≠ []) (h : eng.hashedText py = eng'.hashedText py) :
    eng.hashParts py = eng'.hashParts py := by
  have hbarred : ∀ parts : List String, parts ≠ [] →
      (parts.map barred).flatten = ("|".intercalate parts).toList ++ ['|'] := by
    intro parts hparts
    have hwords : parts.map String.toList ≠ [] := by simpa using hparts
    have hflat := flatten_map_concat '|' hwords
    rw [List.map_map] at hflat
    rw [String.toList_intercalate]
    exact hflat
  have hwords : (eng.hashParts py).map barred = (eng'.hashParts py).map barred := by
    refine flatten_inj_of_prefix_free ?_ ?_ ?_
    · intro w hw
      rw [← List.map_append] at hw
      obtain ⟨part, -, rfl⟩ := List.mem_map.mp hw
      simp [barred]
    · intro w hw w' hw' hprefix
      obtain ⟨part, hpart, rfl⟩ := List.mem_map.mp hw
      obtain ⟨part', hpart', rfl⟩ := List.mem_map.mp hw'
      rw [barred_eq_of_leading hreads htracked htracked' hpart hpart' hprefix]
    · rw [hbarred _ hne, hbarred _ hne']
      exact congrArg (fun text => text.toList ++ ['|']) h
  refine List.map_injective_iff.mpr (fun part part' hpart => ?_) hwords
  exact String.toList_injective (List.append_cancel_right hpart)

theorem hashedText_eq {eng eng' : PolicyEngine} (hreads : LibraryReads py eng eng') (h : UpToDate py eng)
    (h' : UpToDate py eng') (hhash : eng.policyHash = eng'.policyHash) :
    (eng.policies = [] ∧ eng.abacEvaluator = none ∧ eng'.policies = [] ∧ eng'.abacEvaluator = none) ∨
      (eng.hashParts py ≠ [] ∧ eng'.hashParts py ≠ [] ∧ eng.hashedText py = eng'.hashedText py) := by
  rcases h with ⟨hne, h⟩ | ⟨hpolicies, hev, h⟩ <;> rcases h' with ⟨hne', h'⟩ | ⟨hpolicies', hev', h'⟩
  · rw [h, h'] at hhash
    refine .inr ⟨hne, hne', ?_⟩
    exact (hreads.collisionFree _ (by simp [policyTexts]) _ (by simp [policyTexts]) hhash)
  · rw [h, h'] at hhash
    exact absurd hhash (hreads.hex.ne_empty _)
  · rw [h, h'] at hhash
    exact absurd hhash.symm (hreads.hex.ne_empty _)
  · exact .inl ⟨hpolicies, hev, hpolicies', hev'⟩

def SameParts (py : PyLib) (eng eng' : PolicyEngine) : Prop :=
  List.Forall₂ (fun p p' => py.dumps (policyData p) = py.dumps (policyData p')) eng.policies eng'.policies ∧
    eng.abacEvaluator.map (·.policyHash) = eng'.abacEvaluator.map (·.policyHash)

theorem forall₂_of_map_eq {α β : Type} {f : α → β} {xs ys : List α} (h : xs.map f = ys.map f) :
    List.Forall₂ (fun x y => f x = f y) xs ys := by
  have hall : List.Forall₂ Eq (xs.map f) (ys.map f) := by
    rw [List.forall₂_eq_eq_eq]
    exact h
  exact List.forall₂_map_right_iff.mp (List.forall₂_map_left_iff.mp hall)

theorem sameParts_of_hash {eng eng' : PolicyEngine} (hreads : LibraryReads py eng eng')
    (htracked : ∀ ev, eng.abacEvaluator = some ev → Tracked py ev)
    (htracked' : ∀ ev, eng'.abacEvaluator = some ev → Tracked py ev) (h : UpToDate py eng) (h' : UpToDate py eng')
    (hhash : eng.policyHash = eng'.policyHash) : SameParts py eng eng' := by
  have habac : ∀ {e : PolicyEngine} {hash : String}, (∀ p ∈ e.policies, p ∈ eng.policies ++ eng'.policies) →
      "abac:" ++ hash ∉ e.policies.map fun p => py.dumps (policyData p) := by
    intro e hash hsub hmem
    obtain ⟨p, hp, htext⟩ := List.mem_map.mp hmem
    have hbrace := hreads.brace p (hsub p hp)
    rw [htext] at hbrace
    simp at hbrace
  rcases hashedText_eq hreads h h' hhash with ⟨hpolicies, hev, hpolicies', hev'⟩ | ⟨hne, hne', htext⟩
  · rw [SameParts, hpolicies, hpolicies', hev, hev']
    exact ⟨.nil, rfl⟩
  · have hparts := hashParts_eq hreads htracked htracked' hne hne' htext
    unfold hashParts at hparts
    rw [SameParts]
    cases hev : eng.abacEvaluator with
    | none =>
      cases hev' : eng'.abacEvaluator with
      | none => exact ⟨forall₂_of_map_eq (by simpa [hev, hev'] using hparts), rfl⟩
      | some ev' =>
        have hmem : "abac:" ++ ev'.policyHash ∈ eng.policies.map fun p => py.dumps (policyData p) := by
          simp only [hev, hev', List.append_nil] at hparts
          rw [hparts]
          simp
        exact absurd hmem (habac fun p hp => List.mem_append_left _ hp)
    | some ev =>
      cases hev' : eng'.abacEvaluator with
      | none =>
        have hmem : "abac:" ++ ev.policyHash ∈ eng'.policies.map fun p => py.dumps (policyData p) := by
          simp only [hev, hev', List.append_nil] at hparts
          rw [← hparts]
          simp
        exact absurd hmem (habac fun p hp => List.mem_append_right _ hp)
      | some ev' =>
        simp only [hev, hev'] at hparts
        obtain ⟨hmaps, hlast⟩ := List.append_inj' hparts rfl
        refine ⟨forall₂_of_map_eq hmaps, ?_⟩
        simpa using hlast

/-! ## One hash, one set of rules -/

/-- Rules with one id and action, and with conditions that are equal in Python. -/
def RulesAlike (r r' : PolicyRule) : Prop :=
  r.id = r'.id ∧ r.action = r'.action ∧ Value.pyEq (.dict r.conditions) (.dict r'.conditions) = true

/-- ABAC rules that the evaluator's hash does not tell apart. -/
def AbacRulesAlike (py : PyLib) (r r' : ABACRule) : Prop :=
  r.id = r'.id ∧ r.effect = r'.effect ∧
    List.Forall₂ (fun c c' => c.attributeName = c'.attributeName ∧ c.operator = c'.operator ∧
      py.str c.value = py.str c'.value) r.conditions r'.conditions

theorem RuleAction.value_inj {a b : RuleAction} (h : a.value = b.value) : a = b := by
  cases a <;> cases b <;> simp_all [RuleAction.value]

theorem Effect.value_inj {a b : Effect} (h : a.value = b.value) : a = b := by
  cases a <;> cases b <;> simp_all [Effect.value]

theorem forall₂_mem {α β : Type} {R : α → β → Prop} {xs : List α} {ys : List β} (h : List.Forall₂ R xs ys) :
    List.Forall₂ (fun x y => x ∈ xs ∧ y ∈ ys ∧ R x y) xs ys := by
  induction h with
  | nil => exact .nil
  | cons hxy _ ih =>
    refine .cons ⟨by simp, by simp, hxy⟩ (ih.imp fun x y h => ?_)
    exact ⟨List.mem_cons_of_mem _ h.1, List.mem_cons_of_mem _ h.2.1, h.2.2⟩

theorem forall₂_flatMap {α β : Type} {R : β → β → Prop} {f : α → List β} {xs ys : List α}
    (h : List.Forall₂ (fun x y => List.Forall₂ R (f x) (f y)) xs ys) :
    List.Forall₂ R (xs.flatMap f) (ys.flatMap f) := by
  induction h with
  | nil => exact .nil
  | cons hxy _ ih => exact List.rel_append hxy ih

theorem pyEq_list_map {α : Type} {f : α → Value} {xs ys : List α} :
    Value.pyEq (.list (xs.map f)) (.list (ys.map f)) = true ↔
      List.Forall₂ (fun x y => (f x).pyEq (f y) = true) xs ys := by
  rw [Value.pyEq, Value.pyEqList_iff, List.forall₂_map_left_iff, List.forall₂_map_right_iff]

theorem rulesAlike_of_ruleData {r r' : PolicyRule} (h : (ruleData r).pyEq (ruleData r') = true) : RulesAlike r r' := by
  have hconditions : ∀ d d' : Dict Value, (d.length == d'.length && Value.pyEqEntries d d') = true →
      Value.pyEq (.dict d) (.dict d') = true := fun _ _ h => by rwa [Value.pyEq]
  simp only [ruleData, Value.pyEq, Value.pyEqEntries, Dict.get?] at h
  simp at h
  refine ⟨h.1, RuleAction.value_inj h.2.1, hconditions _ _ ?_⟩
  simpa using h.2.2

theorem rulesAlike_of_policyData {p p' : Policy} (h : (policyData p).pyEq (policyData p') = true) :
    List.Forall₂ RulesAlike p.rules p'.rules := by
  simp only [policyData, Value.pyEq, Value.pyEqEntries, Dict.get?] at h
  simp at h
  have hrules := (Value.pyEqList_iff _ _).mp h.2.2
  rw [List.forall₂_map_left_iff, List.forall₂_map_right_iff] at hrules
  exact hrules.imp fun r r' => rulesAlike_of_ruleData

theorem abacRulesAlike_of_ruleData {r r' : ABACRule}
    (h : (ABACEvaluator.ruleData py r).pyEq (ABACEvaluator.ruleData py r') = true) : AbacRulesAlike py r r' := by
  simp only [ABACEvaluator.ruleData, Value.pyEq, Value.pyEqEntries, Dict.get?] at h
  simp at h
  refine ⟨h.1, Effect.value_inj h.2.1, ?_⟩
  have hconditions := (Value.pyEqList_iff _ _).mp h.2.2.1
  rw [List.forall₂_map_left_iff, List.forall₂_map_right_iff] at hconditions
  refine hconditions.imp fun c c' hc => ?_
  simpa [ABACEvaluator.conditionData, Value.pyEq, Value.pyEqEntries, Dict.get?] using hc

theorem rulesAlike_of_sameParts {eng eng' : PolicyEngine} (hreads : LibraryReads py eng eng')
    (h : SameParts py eng eng') : List.Forall₂ RulesAlike eng.rules eng'.rules := by
  refine forall₂_flatMap ((forall₂_mem h.1).imp fun p p' hp => ?_)
  refine rulesAlike_of_policyData (hreads.json _ ?_ _ ?_ hp.2.2)
  · exact List.mem_append_left _ (List.mem_map_of_mem hp.1)
  · exact List.mem_append_left _ (List.mem_map_of_mem hp.2.1)

theorem abacRulesAlike_of_sameParts {eng eng' : PolicyEngine} (hreads : LibraryReads py eng eng')
    (h : SameParts py eng eng') {ev ev' : ABACEvaluator} (hev : eng.abacEvaluator = some ev)
    (hev' : eng'.abacEvaluator = some ev') (htracked : Tracked py ev) (htracked' : Tracked py ev') :
    List.Forall₂ (AbacRulesAlike py) ev.rules ev'.rules := by
  have hhash : ev.policyHash = ev'.policyHash := by simpa [hev, hev'] using h.2
  rcases htracked with hsum | ⟨hnil, hempty⟩ <;> rcases htracked' with hsum' | ⟨hnil', hempty'⟩
  · rw [hsum, hsum'] at hhash
    have htext := hreads.collisionFree _ (by simp [policyTexts, hev]) _ (by simp [policyTexts, hev']) hhash
    have hdata := hreads.json _ (by simp [policyValues, hev]) _ (by simp [policyValues, hev']) htext
    rw [ABACEvaluator.rulesData, ABACEvaluator.rulesData, pyEq_list_map] at hdata
    exact hdata.imp fun r r' => abacRulesAlike_of_ruleData
  · rw [hsum, hempty'] at hhash
    exact absurd hhash (hreads.hex.ne_empty _)
  · rw [hempty, hsum'] at hhash
    exact absurd hhash.symm (hreads.hex.ne_empty _)
  · rw [hnil, hnil']
    exact .nil

/-! ## One set of rules, one decision -/

def ConditionsWellFormed (eng : PolicyEngine) : Prop := ∀ r ∈ eng.rules, Value.WellFormed (.dict r.conditions)

theorem ruleMatches_iff (r : PolicyRule) (payload : Dict Value) :
    ruleMatches r payload = true ↔
      ∀ e ∈ r.conditions, (((payload.get? e.1).getD .none).pyEq e.2) = true := by
  simp [ruleMatches, List.all_eq_true]

theorem ruleMatches_of_pyEq {r r' : PolicyRule} (hwf : Value.WellFormed (.dict r.conditions))
    (hwf' : Value.WellFormed (.dict r'.conditions))
    (h : Value.pyEq (.dict r'.conditions) (.dict r.conditions) = true) {payload : Dict Value}
    (hmatch : ruleMatches r payload = true) : ruleMatches r' payload = true := by
  rw [ruleMatches_iff] at hmatch ⊢
  intro e he
  obtain ⟨d, hd, -, hentries⟩ := (Value.pyEq_dict_iff _ _).mp h
  cases hd
  obtain ⟨w, hw, hew⟩ := hentries e he
  have hmem := Dict.mem_of_get? hw
  cases hwf with | dict _ hvalues =>
  cases hwf' with | dict _ hvalues' =>
  exact Value.pyEq_trans (hmatch (e.1, w) hmem) (Value.pyEq_symm (hvalues' e he) (hvalues (e.1, w) hmem) hew)

theorem ruleMatches_eq {r r' : PolicyRule} (hwf : Value.WellFormed (.dict r.conditions))
    (hwf' : Value.WellFormed (.dict r'.conditions)) (h : RulesAlike r r') (payload : Dict Value) :
    ruleMatches r payload = ruleMatches r' payload := by
  rw [Bool.eq_iff_iff]
  exact ⟨ruleMatches_of_pyEq hwf hwf' (Value.pyEq_symm hwf hwf' h.2.2), ruleMatches_of_pyEq hwf' hwf h.2.2⟩

theorem rules_agree {eng eng' : PolicyEngine} (h : List.Forall₂ RulesAlike eng.rules eng'.rules)
    (hwf : eng.ConditionsWellFormed) (hwf' : eng'.ConditionsWellFormed) (payload : Dict Value) :
    eng.violatedRules payload = eng'.violatedRules payload ∧
      eng.rulesRequireApproval payload = eng'.rulesRequireApproval payload := by
  unfold violatedRules rulesRequireApproval
  have hall : List.Forall₂ (fun r r' => r.id = r'.id ∧ r.action = r'.action ∧
      ruleMatches r payload = ruleMatches r' payload) eng.rules eng'.rules :=
    (forall₂_mem h).imp fun r r' ⟨hr, hr', halike⟩ =>
      ⟨halike.1, halike.2.1, ruleMatches_eq (hwf r hr) (hwf' r' hr') halike payload⟩
  clear h hwf hwf'
  generalize eng.rules = rules at hall ⊢
  generalize eng'.rules = rules' at hall ⊢
  induction hall with
  | nil => exact ⟨rfl, rfl⟩
  | cons hr _ ih =>
    obtain ⟨hid, haction, hmatch⟩ := hr
    refine ⟨?_, ?_⟩
    · rw [List.filter_cons, List.filter_cons, hmatch, haction]
      split
      · rw [List.map_cons, List.map_cons, ih.1, hid]
      · exact ih.1
    · rw [List.any_cons, List.any_cons, hmatch, haction, ih.2]

/-- How the operator uses the value of a condition itself, and not its text alone. -/
def ReadsValue (operator : String) : Prop := operator = "in" ∨ operator = "not_in" ∨ operator = "time_range"

/-- The hash leaves nothing out that tells the evaluators apart. -/
structure HashSaysAll (py : PyLib) (ev ev' : ABACEvaluator) : Prop where
  algorithm : ev.algorithm = ev'.algorithm
  defaultEffect : ev.defaultEffect = ev'.defaultEffect
  values : ∀ r ∈ ev.rules, ∀ c ∈ r.conditions, ∀ r' ∈ ev'.rules, ∀ c' ∈ r'.conditions, ReadsValue c.operator →
    py.str c.value = py.str c'.value → c.value = c'.value

theorem condition_matches_eq {c c' : ABACCondition} (hoperator : c.operator = c'.operator)
    (htext : py.str c.value = py.str c'.value) (hvalue : ReadsValue c.operator → c.value = c'.value)
    (actual : Option Attribute) : c.matches py actual = c'.matches py actual := by
  unfold ABACCondition.matches
  cases actual with
  | none => rfl
  | some a =>
    simp only [← hoperator, ← htext, ABACCondition.checkCidr]
    split
    · rfl
    · rfl
    · next h => rw [hvalue (.inl h)]
    · next h => rw [hvalue (.inr (.inl h))]
    · next h =>
      unfold ABACCondition.checkTimeRange
      rw [hvalue (.inr (.inr h))]
    · rfl
    · rfl
    · rfl

theorem rule_matches_eq {r r' : ABACRule} (h : AbacRulesAlike py r r')
    (hvalue : ∀ c ∈ r.conditions, ∀ c' ∈ r'.conditions, ReadsValue c.operator → py.str c.value = py.str c'.value →
      c.value = c'.value) (ctx : RequestContext) : r.matches py ctx = r'.matches py ctx := by
  unfold ABACRule.matches
  have hall : List.Forall₂ (fun c c' => c.matches py (ctx.getAttribute c.attributeName) =
      c'.matches py (ctx.getAttribute c'.attributeName)) r.conditions r'.conditions :=
    (forall₂_mem h.2.2).imp fun c c' ⟨hc, hc', hname, hoperator, htext⟩ => by
      rw [hname]
      exact condition_matches_eq hoperator htext (fun hreads => hvalue c hc c' hc' hreads htext) _
  clear h hvalue
  generalize r.conditions = conditions at hall ⊢
  generalize r'.conditions = conditions' at hall ⊢
  induction hall with
  | nil => rfl
  | cons hc _ ih => rw [List.allM_cons, List.allM_cons, hc, ih]

def decided (d : ABACDecision) : Effect × List String := (d.effect, d.matchedRules)

theorem matching_eq {ev ev' : ABACEvaluator} (h : List.Forall₂ (AbacRulesAlike py) ev.rules ev'.rules)
    (hhash : HashSaysAll py ev ev') (ctx : RequestContext) :
    (ABACEvaluator.matching py ctx ev.rules).map (·.map fun r => (r.id, r.effect)) =
      (ABACEvaluator.matching py ctx ev'.rules).map (·.map fun r => (r.id, r.effect)) := by
  have hall : List.Forall₂ (fun r r' => (r.id, r.effect) = (r'.id, r'.effect) ∧ r.matches py ctx = r'.matches py ctx)
      ev.rules ev'.rules :=
    (forall₂_mem h).imp fun r r' ⟨hr, hr', halike⟩ => by
      refine ⟨by rw [halike.1, halike.2.1], rule_matches_eq halike (fun c hc c' hc' => ?_) ctx⟩
      exact hhash.values r hr c hc r' hr' c' hc'
  clear h hhash
  generalize ev.rules = rules at hall ⊢
  generalize ev'.rules = rules' at hall ⊢
  induction hall with
  | nil => rfl
  | @cons r r' rest rest' hr _ ih =>
    obtain ⟨hid, hmatch⟩ := hr
    unfold ABACEvaluator.matching
    rw [hmatch]
    cases r'.matches py ctx with
    | error e => rfl
    | ok hit =>
      simp only [ok_bind]
      cases hrest : ABACEvaluator.matching py ctx rest <;> cases hrest' : ABACEvaluator.matching py ctx rest' <;>
        rw [hrest, hrest'] at ih <;> cases hit <;> simp_all [Except.map, bind, Except.bind, pure, Except.pure]

theorem combine_eq {ev ev' : ABACEvaluator} (h : ev.algorithm = ev'.algorithm) (h' : ev.defaultEffect = ev'.defaultEffect)
    (effects : List Effect) : ev.combine effects = ev'.combine effects := by
  unfold ABACEvaluator.combine
  rw [h, h']

theorem abac_evaluate_eq {ev ev' : ABACEvaluator} (h : List.Forall₂ (AbacRulesAlike py) ev.rules ev'.rules)
    (hhash : HashSaysAll py ev ev') (ctx : RequestContext) :
    (ev.evaluate py ctx).map decided = (ev'.evaluate py ctx).map decided := by
  have hmatching := matching_eq h hhash ctx
  unfold ABACEvaluator.evaluate
  cases hm : ABACEvaluator.matching py ctx ev.rules with
  | error e =>
    cases hm' : ABACEvaluator.matching py ctx ev'.rules with
    | error e' =>
      rw [hm, hm'] at hmatching
      simpa [Except.map, bind, Except.bind] using hmatching
    | ok matched' =>
      rw [hm, hm'] at hmatching
      simp [Except.map] at hmatching
  | ok matched =>
    cases hm' : ABACEvaluator.matching py ctx ev'.rules with
    | error e' =>
      rw [hm, hm'] at hmatching
      simp [Except.map] at hmatching
    | ok matched' =>
      rw [hm, hm'] at hmatching
      simp only [Except.map, Except.ok.injEq] at hmatching
      have hids : matched.map (·.id) = matched'.map (·.id) := by
        have hfst := congrArg (List.map Prod.fst) hmatching
        rwa [List.map_map, List.map_map] at hfst
      have heffects : matched.map (·.effect) = matched'.map (·.effect) := by
        have hsnd := congrArg (List.map Prod.snd) hmatching
        rwa [List.map_map, List.map_map] at hsnd
      have hempty : matched.isEmpty = matched'.isEmpty := by
        rw [← List.isEmpty_map (f := fun r : ABACRule => r.id), hids, List.isEmpty_map]
      simp only [ok_bind, hempty]
      cases matched'.isEmpty
      · simp [Except.map, pure, Except.pure, decided, hids, heffects,
          combine_eq hhash.algorithm hhash.defaultEffect]
      · simp [Except.map, pure, Except.pure, decided, hhash.defaultEffect]

def outcome (r : GateResult × PolicyEngine) : Bool × List String := (r.1.approved, r.1.violatedRules)

/-- The verdict reads no more off the ABAC decision than what was decided. -/
theorem verdict_outcome_eq {eng eng' : PolicyEngine} {payload : Dict Value} {abac abac' : Option ABACDecision}
    (hrules : eng.violatedRules payload = eng'.violatedRules payload ∧
      eng.rulesRequireApproval payload = eng'.rulesRequireApproval payload)
    (habac : abac.map decided = abac'.map decided) (guardResults : List GuardResult) :
    (eng.verdict payload guardResults abac).approved = (eng'.verdict payload guardResults abac').approved ∧
      (eng.verdict payload guardResults abac).violatedRules = (eng'.verdict payload guardResults abac').violatedRules := by
  have hviolations : abacViolations abac = abacViolations abac' ∧
      abacRequiresApproval abac = abacRequiresApproval abac' := by
    cases abac <;> cases abac' <;>
      simp_all [abacViolations, abacRequiresApproval, decided, ABACDecision.denied]
  unfold verdict
  simp only [hrules.1, hrules.2, hviolations.1, hviolations.2]
  split
  · exact ⟨rfl, rfl⟩
  · split <;> exact ⟨rfl, rfl⟩

/-- Where both engines have an evaluator with rules, the hash leaves nothing out. -/
def EvaluatorsSaidAll (py : PyLib) (eng eng' : PolicyEngine) : Prop :=
  ∀ ev ev', eng.abacEvaluator = some ev → eng'.abacEvaluator = some ev' → ev.rules ≠ [] → HashSaysAll py ev ev'

theorem abacDecide_eq {eng eng' : PolicyEngine} (hreads : LibraryReads py eng eng') (hparts : SameParts py eng eng')
    (htracked : ∀ ev, eng.abacEvaluator = some ev → Tracked py ev)
    (htracked' : ∀ ev, eng'.abacEvaluator = some ev → Tracked py ev) (hsaid : EvaluatorsSaidAll py eng eng') (t : Task)
    (now : Nat) :
    (eng.abacDecide py t now).map (·.map decided) = (eng'.abacDecide py t now).map (·.map decided) := by
  unfold abacDecide
  cases hev : eng.abacEvaluator with
  | none =>
    cases hev' : eng'.abacEvaluator with
    | none => rfl
    | some ev' =>
      have hnone := hparts.2
      simp [hev, hev'] at hnone
  | some ev =>
    cases hev' : eng'.abacEvaluator with
    | none =>
      have hnone := hparts.2
      simp [hev, hev'] at hnone
    | some ev' =>
      have halike := abacRulesAlike_of_sameParts hreads hparts hev hev' (htracked ev hev) (htracked' ev' hev')
      have hcount : ev.ruleCount = ev'.ruleCount := halike.length_eq
      simp only [hcount]
      split
      · next hpos =>
        have hne : ev.rules ≠ [] := by
          apply List.ne_nil_of_length_pos
          have : ev.ruleCount = ev.rules.length := rfl
          omega
        have heq := abac_evaluate_eq halike (hsaid ev ev' hev hev' hne) (.fromTask t now)
        cases he : ev.evaluate py (.fromTask t now) <;> cases he' : ev'.evaluate py (.fromTask t now) <;>
          rw [he, he'] at heq <;> simp_all [Except.map]
      · rfl

/-- **One hash, one decision**, where nothing was edited behind the engine's back and the hash
leaves nothing out that the evaluators differ in. -/
theorem same_hash_same_decision (py : PyLib) (guards : List Guard) (calls calls' : List Config)
    (hsettled : settled calls = true) (hsettled' : settled calls' = true)
    (hsaid : EvaluatorsSaidAll py (configured py guards calls) (configured py guards calls'))
    (hreads : LibraryReads py (configured py guards calls) (configured py guards calls'))
    (hwf : (configured py guards calls).ConditionsWellFormed) (hwf' : (configured py guards calls').ConditionsWellFormed)
    (hhash : (configured py guards calls).policyHash = (configured py guards calls').policyHash) (t : Task) (now : Nat)
    (entryId entryId' timestamp timestamp' : String) :
    ((configured py guards calls).evaluate py t now entryId timestamp).map outcome =
      ((configured py guards calls').evaluate py t now entryId' timestamp').map outcome := by
  have hconsistent : Consistent py guards (configured py guards calls) (settled calls) := consistent_configured guards calls
  have hconsistent' : Consistent py guards (configured py guards calls') (settled calls') :=
    consistent_configured guards calls'
  have hparts := sameParts_of_hash hreads hconsistent.tracked hconsistent'.tracked (hconsistent.upToDate hsettled)
    (hconsistent'.upToDate hsettled') hhash
  have habac := abacDecide_eq hreads hparts hconsistent.tracked hconsistent'.tracked hsaid t now
  have hrules := rules_agree (rulesAlike_of_sameParts hreads hparts) hwf hwf' (taskToPayload t)
  generalize configured py guards calls = eng at *
  generalize configured py guards calls' = eng' at *
  unfold evaluate
  dsimp only
  rw [hconsistent.guards, hconsistent'.guards]
  cases List.mapM (fun guard => guard (taskToPayload t)) guards with
  | error e => rfl
  | ok guardResults =>
    cases hd : eng.abacDecide py t now <;> cases hd' : eng'.abacDecide py t now <;> rw [hd, hd'] at habac
    · simpa [Except.map, bind, Except.bind] using habac
    · simp [Except.map] at habac
    · simp [Except.map] at habac
    · simp only [Except.map, Except.ok.injEq] at habac
      obtain ⟨happroved, hviolated⟩ := verdict_outcome_eq hrules habac guardResults
      simp only [ok_bind, Except.map, pure, Except.pure, outcome, happroved, hviolated]

/-! ## Samples -/

/-- The guards of a new engine, as a harmless task finds them. -/
def sampleGuards : List Guard :=
  ["pii_guard", "prompt_injection_guard", "resource_limit_guard", "output_sanitization_guard",
    "human_oversight_guard"].map fun guardName _ => .ok { passed := true, guardName }

def sampleRule : PolicyRule where
  id := "r1"
  action := .deny
  conditions := [("agent_type", .str "shell")]

def sampleAbacRule : ABACRule where
  id := "a1"
  effect := .allow
  conditions := [{ attributeName := "agent_type", operator := "in", value := .list [.str "general"] }]

/-- A policy, and an evaluator that allows general agents. -/
def sampleCalls : List Config :=
  [.addPolicy { name := "base", version := "1.0", rules := [sampleRule] },
    .setAbacEvaluator .denyOverrides .deny [.addRule sampleAbacRule]]

def sampleCalls' : List Config :=
  [.setAbacEvaluator .denyOverrides .deny [.loadRules [sampleAbacRule]],
    .addPolicy { name := "base", version := "1.0", rules := [sampleRule] }]

def sampleEdit : Config := .edit (.addRule { id := "d1", effect := .deny, conditions := [] })

theorem wellFormed_of_rules {eng : PolicyEngine} (h : eng.rules = [sampleRule]) : eng.ConditionsWellFormed := by
  intro r hr
  rw [h, List.mem_singleton] at hr
  rw [hr]
  refine .dict (by decide) fun e he => ?_
  rw [List.mem_singleton.mp he]
  exact .str _

theorem sample_same_decision :
    ((configured sampleLib sampleGuards sampleCalls).evaluate sampleLib shellTask 0 "e1" "t1").map outcome =
      ((configured sampleLib sampleGuards sampleCalls').evaluate sampleLib shellTask 0 "e2" "t2").map outcome :=
  same_hash_same_decision sampleLib sampleGuards sampleCalls sampleCalls' rfl rfl (by
      intro ev ev' hev hev' _
      obtain rfl := Option.some_inj.mp hev
      obtain rfl := Option.some_inj.mp hev'
      refine ⟨rfl, rfl, fun r hr c hc r' hr' c' hc' _ _ => ?_⟩
      rw [List.mem_singleton.mp hr] at hc
      rw [List.mem_singleton.mp hr'] at hc'
      rw [List.mem_singleton.mp hc, List.mem_singleton.mp hc'])
    ⟨sampleDigest_hex, by decide +kernel, by decide +kernel, by decide +kernel, by decide +kernel⟩
    (wellFormed_of_rules rfl) (wellFormed_of_rules rfl) (by decide +kernel) shellTask 0 "e1" "e2" "t1" "t2"

/-- A rule added to the evaluator changes the decision and not the hash. -/
theorem edited_evaluator_keeps_the_hash :
    ¬ ∀ (py : PyLib) (guards : List Guard) (calls calls' : List Config) (t : Task) (now : Nat) (entryId timestamp : String),
      (configured py guards calls).policyHash = (configured py guards calls').policyHash →
      ((configured py guards calls).evaluate py t now entryId timestamp).map outcome =
        ((configured py guards calls').evaluate py t now entryId timestamp).map outcome := by
  intro h
  have hsame := h sampleLib sampleGuards sampleCalls (sampleCalls ++ [sampleEdit]) shellTask 0 "e1" "t1" rfl
  revert hsame
  decide +kernel

end PolicyEngine

end Occp.Policy
