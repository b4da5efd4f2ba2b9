import Mathlib.Algebra.Ring.Parity
import Mathlib.Data.Rat.Defs
import Occp.Errors
import Occp.Lib.Digests
import Occp.Lib.Merkle

/-!
# Merkle roots over the audit trail (`store/audit_merkle.py`)

The hash is a parameter: `sha256` gives the hex digest of a text. No result here
assumes anything of it.
-/

namespace Occp.Store

open Occp.Lib

variable (sha256 : String → String)

def hashLeaf (data : String) : String := sha256 data

def hashPair (left right : String) : String := sha256 (left ++ right)

/-! ## The tree -/

/-- On which side of the path the sibling stands. -/
inductive Side where
  | left
  | right
  deriving DecidableEq

structure MerkleTree where
  /-- The hashes of the entries. -/
  leaves : List String := []

namespace MerkleTree

def leafCount (t : MerkleTree) : Nat := t.leaves.length

/-- The last node once more, when their number is odd. -/
def evenOut (level : List String) : List String :=
  if level.length % 2 = 1 then level ++ level.getLast?.toList else level

/-- The loop `for i in range(0, len(level), 2)`. -/
def pairUp : List String → List String
  | l :: r :: rest => hashPair sha256 l r :: pairUp rest
  | _ => []

theorem evenOut_cons_cons (l r : String) (rest : List String) :
    evenOut (l :: r :: rest) = l :: r :: evenOut rest := by
  have hparity : (l :: r :: rest).length % 2 = rest.length % 2 := by
    rw [List.length_cons, List.length_cons]
    omega
  unfold evenOut
  rw [hparity]
  cases rest with
  | nil => simp
  | cons x rest =>
    rw [List.getLast?_cons_cons, List.getLast?_cons_cons]
    split <;> rfl

theorem pairUp_evenOut (nodes : List String) : pairUp sha256 (evenOut nodes) = level (hashPair sha256) nodes := by
  fun_induction level (hashPair sha256) nodes with
  | case1 => simp [evenOut, pairUp]
  | case2 l => simp [evenOut, pairUp]
  | case3 l r rest ih => rw [evenOut_cons_cons, pairUp, ih]

/-- The loop of `_compute_root`. -/
def climb (nodes : List String) : List String :=
  if nodes.length ≤ 1 then nodes else climb (pairUp sha256 (evenOut nodes))
termination_by nodes.length
decreasing_by rw [pairUp_evenOut, length_level]; omega

/-- `root` has a case of its own for no leaves, so `level[0]` is there. -/
def computeRoot (nodes : List String) : String := (climb sha256 nodes).headD ""

def root (t : MerkleTree) : String :=
  if t.leaves.isEmpty then hashLeaf sha256 "" else computeRoot sha256 t.leaves

def addEntry (t : MerkleTree) (data : String) : String × MerkleTree :=
  (hashLeaf sha256 data, { leaves := t.leaves ++ [hashLeaf sha256 data] })

def addEntries (t : MerkleTree) (entries : List String) : MerkleTree :=
  entries.foldl (fun t data => (t.addEntry sha256 data).2) t

/-- What `get_proof` appends at one level. -/
def sibling (nodes : List String) (idx : Nat) : Option (String × Side) :=
  if idx % 2 = 0 then nodes[idx + 1]?.map fun hash => (hash, .right)
  else nodes[idx - 1]?.map fun hash => (hash, .left)

/-- The loop of `get_proof`. -/
def proofFrom (nodes : List String) (idx : Nat) : List (String × Side) :=
  if nodes.length ≤ 1 then []
  else (sibling (evenOut nodes) idx).toList ++ proofFrom (pairUp sha256 (evenOut nodes)) (idx / 2)
termination_by nodes.length
decreasing_by rw [pairUp_evenOut, length_level]; omega

def getProof (t : MerkleTree) (index : Int) : Except PyError (List (String × Side)) :=
  if index < 0 ∨ t.leaves.length ≤ index then
    .error (.other "IndexError" s!"Index {index} out of range [0, {t.leaves.length})")
  else
    .ok (proofFrom sha256 t.leaves index.toNat)

/-- One step of the loop of `verify_proof`. -/
def hashWith (current : String) (sibling : String × Side) : String :=
  match sibling.2 with
  | .left => hashPair sha256 sibling.1 current
  | .right => hashPair sha256 current sibling.1

def verifyProof (leafHash : String) (proof : List (String × Side)) (root : String) : Bool :=
  proof.foldl (hashWith sha256) leafHash == root

def ofEntries (entries : List String) : MerkleTree := addEntries sha256 {} entries

/-! ## The root is the apex -/

@[simp] theorem addEntries_leaves (t : MerkleTree) (entries : List String) :
    (t.addEntries sha256 entries).leaves = t.leaves ++ entries.map (hashLeaf sha256) := by
  induction entries generalizing t with
  | nil => simp [addEntries]
  | cons data entries ih =>
    have hrest := ih (t.addEntry sha256 data).2
    simpa [addEntries, addEntry] using hrest

@[simp] theorem ofEntries_leaves (entries : List String) :
    (ofEntries sha256 entries).leaves = entries.map (hashLeaf sha256) := by
  rw [ofEntries, addEntries_leaves]
  rfl

theorem head?_climb (nodes : List String) : (climb sha256 nodes).head? = apex (hashPair sha256) nodes := by
  fun_induction apex (hashPair sha256) nodes with
  | case1 => simp [climb]
  | case2 node => simp [climb]
  | case3 l r rest ih =>
    rw [climb, if_neg (by simp), pairUp_evenOut]
    exact ih

theorem apex_eq_computeRoot {nodes : List String} (h : nodes ≠ []) :
    apex (hashPair sha256) nodes = some (computeRoot sha256 nodes) := by
  obtain ⟨root, hroot⟩ := Option.isSome_iff_exists.mp (apex_isSome (hashPair sha256) h)
  rw [computeRoot, List.headD_eq_head?_getD, head?_climb, hroot]
  rfl

/-! ## Proofs -/

theorem getElem?_evenOut {nodes : List String} {i : Nat} {node : String} (h : nodes[2 * i]? = some node) :
    (evenOut nodes)[2 * i + 1]? = some (nodes[2 * i + 1]?.getD node) := by
  have hlt : 2 * i < nodes.length := (List.getElem?_eq_some_iff.mp h).1
  unfold evenOut
  split
  · next hodd =>
    by_cases hlast : 2 * i + 1 < nodes.length
    · rw [List.getElem?_append_left hlast, List.getElem?_eq_getElem hlast]
      rfl
    · -- The partner of the last node is the copy of it.
      have hlen : nodes.length = 2 * i + 1 := by omega
      have hcopy : nodes.getLast? = some node := by rw [List.getLast?_eq_getElem?, hlen, Nat.add_sub_cancel, h]
      have hnone : nodes[2 * i + 1]? = none := List.getElem?_eq_none (by omega)
      rw [List.getElem?_append_right (by omega), hnone, hcopy, hlen]
      simp
  · next heven =>
    rw [List.getElem?_eq_getElem (by omega)]
    rfl

/-- One step of the proof leads from a node to the one above it. -/
theorem hashWith_sibling {nodes : List String} {idx : Nat} {node : String} (h : nodes[idx]? = some node) :
    ∃ partner, sibling (evenOut nodes) idx = some partner ∧
      (level (hashPair sha256) nodes)[idx / 2]? = some (hashWith sha256 node partner) := by
  rcases Nat.even_or_odd' idx with ⟨i, rfl | rfl⟩
  · refine ⟨(nodes[2 * i + 1]?.getD node, .right), ?_, ?_⟩
    · rw [sibling, if_pos (by omega), getElem?_evenOut h]
      rfl
    · rw [show 2 * i / 2 = i by omega, getElem?_level, h]
      rfl
  · have hlt : 2 * i + 1 < nodes.length := (List.getElem?_eq_some_iff.mp h).1
    have hleft : nodes[2 * i]? = some nodes[2 * i] := List.getElem?_eq_getElem (by omega)
    have heven : (evenOut nodes)[2 * i]? = some nodes[2 * i] := by
      unfold evenOut
      split
      · rw [List.getElem?_append_left (by omega), hleft]
      · exact hleft
    refine ⟨(nodes[2 * i], .left), ?_, ?_⟩
    · rw [sibling, if_neg (by omega), Nat.add_sub_cancel, heven]
      rfl
    · rw [show (2 * i + 1) / 2 = i by omega, getElem?_level, hleft, h]
      rfl

/-- Along its proof, every node hashes to the apex. -/
theorem foldl_proofFrom {nodes : List String} {idx : Nat} {node : String} (h : nodes[idx]? = some node) :
    some ((proofFrom sha256 nodes idx).foldl (hashWith sha256) node) = apex (hashPair sha256) nodes := by
  fun_induction proofFrom sha256 nodes idx generalizing node with
  | case1 nodes idx hlen =>
    obtain ⟨hlt, hget⟩ := List.getElem?_eq_some_iff.mp h
    match nodes, hlen with
    | [last], _ =>
      obtain rfl : idx = 0 := by simpa using hlt
      simpa [apex] using hget.symm
  | case2 nodes idx hlen ih =>
    obtain ⟨partner, hpartner, hnext⟩ := hashWith_sibling sha256 h
    rw [pairUp_evenOut] at ih ⊢
    rw [hpartner, ← apex_level (show 2 ≤ nodes.length by omega), ← ih hnext]
    rfl

/-- **Every entry is proved by its own proof**, whatever the number of entries. -/
theorem own_proof_verifies (entries : List String) (i : Nat) (h : i < entries.length) :
    ∃ proof, (ofEntries sha256 entries).getProof sha256 i = .ok proof ∧
      verifyProof sha256 (hashLeaf sha256 entries[i]) proof ((ofEntries sha256 entries).root sha256) := by
  have hleaves := ofEntries_leaves sha256 entries
  have hne : entries.map (hashLeaf sha256) ≠ [] := by
    apply List.ne_nil_of_length_pos
    simp; omega
  have hleaf : (entries.map (hashLeaf sha256))[i]? = some (hashLeaf sha256 entries[i]) := by
    simp [List.getElem?_eq_getElem h]
  refine ⟨proofFrom sha256 (entries.map (hashLeaf sha256)) i, ?_, ?_⟩
  · rw [getProof, hleaves, if_neg (by simp; omega)]
    rfl
  · have hfold := foldl_proofFrom sha256 hleaf
    rw [apex_eq_computeRoot sha256 hne, Option.some.injEq] at hfold
    rw [verifyProof, root, hleaves, hfold, if_neg (by simpa using hne)]
    exact beq_self_eq_true _

/-- The last of three entries, whose sibling is its own copy. -/
theorem own_proof_of_the_odd_one :
    ∃ proof, (ofEntries sampleDigest ["a", "b", "c"]).getProof sampleDigest 2 = .ok proof ∧
      verifyProof sampleDigest (hashLeaf sampleDigest "c") proof
        ((ofEntries sampleDigest ["a", "b", "c"]).root sampleDigest) :=
  own_proof_verifies sampleDigest ["a", "b", "c"] 2 (by decide)

end MerkleTree

/-! ## The store -/

structure PublishedRoot where
  rootHash : String
  entryCount : Nat
  firstEntryIndex : Int
  lastEntryIndex : Int
  publishedAt : Rat
  sequenceNumber : Nat := 0

inductive VerificationStatus where
  | valid
  | integrityViolation
  | incomplete
  | error
  deriving DecidableEq

structure VerificationResult where
  status : VerificationStatus := .valid
  entriesVerified : Nat := 0
  violations : List (Dict Value) := []

def VerificationResult.isValid (r : VerificationResult) : Bool := r.status == .valid

structure MerkleAuditStore where
  tree : MerkleTree := {}
  publishedRoots : List PublishedRoot := []
  entriesSincePublish : Nat := 0
  lastPublishTime : Rat
  totalEntries : Nat := 0

/-- What a call reads off the clock: to see whether to publish, for the root and after it. -/
structure Clock where
  now : Rat
  publishedAt : Rat
  after : Rat

namespace MerkleAuditStore

def publishEntryThreshold : Nat := 1000

def publishTimeThreshold : Rat := 3600

def shouldPublish (s : MerkleAuditStore) (now : Rat) : Bool :=
  decide (publishEntryThreshold ≤ s.entriesSincePublish) || decide (publishTimeThreshold ≤ now - s.lastPublishTime)

def publishRoot (s : MerkleAuditStore) (clock : Clock) : PublishedRoot × MerkleAuditStore :=
  let root : PublishedRoot :=
    { rootHash := s.tree.root sha256
      entryCount := s.totalEntries
      firstEntryIndex := s.totalEntries - s.entriesSincePublish
      lastEntryIndex := s.totalEntries - 1
      publishedAt := clock.publishedAt
      sequenceNumber := s.publishedRoots.length }
  (root, { s with
    publishedRoots := s.publishedRoots ++ [root], entriesSincePublish := 0, lastPublishTime := clock.after })

def addEntry (s : MerkleAuditStore) (data : String) (clock : Clock) : String × MerkleAuditStore :=
  let (leafHash, tree) := s.tree.addEntry sha256 data
  let s := { s with
    tree, totalEntries := s.totalEntries + 1, entriesSincePublish := s.entriesSincePublish + 1 }
  (leafHash, if s.shouldPublish clock.now then (s.publishRoot sha256 clock).2 else s)

def forcePublish (s : MerkleAuditStore) (clock : Clock) : PublishedRoot × MerkleAuditStore :=
  s.publishRoot sha256 clock

def verifyChain (entries : List String) (expectedRoot : Option String) : VerificationResult :=
  let computedRoot := (MerkleTree.ofEntries sha256 entries).root sha256
  let result : VerificationResult := { entriesVerified := entries.length }
  match expectedRoot with
  | none => result
  | some expectedRoot =>
    if computedRoot = expectedRoot then result
    else { result with
      status := .integrityViolation
      violations := [[("type", .str "root_mismatch"), ("expectedRoot", .str expectedRoot),
        ("computedRoot", .str computedRoot), ("entryCount", .int entries.length)]] }

def verifyEntry (s : MerkleAuditStore) (index : Int) (entryData : String) : Bool :=
  match s.tree.getProof sha256 index with
  | .error _ => false
  | .ok proof => MerkleTree.verifyProof sha256 (hashLeaf sha256 entryData) proof (s.tree.root sha256)

@[simp] theorem verifyChain_isValid (entries : List String) (expected : String) :
    (verifyChain sha256 entries (some expected)).isValid ↔
      (MerkleTree.ofEntries sha256 entries).root sha256 = expected := by
  by_cases h : (MerkleTree.ofEntries sha256 entries).root sha256 = expected <;>
    simp [verifyChain, VerificationResult.isValid, h]

end MerkleAuditStore

end Occp.Store
