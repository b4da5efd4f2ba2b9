import Occp.Store.AuditMerkle

/-!
# What a Merkle root gives away

Two lists of entries share a root although no two texts share a hash when one of
them writes out a node that an odd level repeats, when the entries of one are the
hash pairs of the other, or when one is empty and the other is the empty entry.
Lists of one length never do.
-/

namespace Occp.Store

open Occp.Lib

variable {sha256 : String → String}

/-- The text hashed for the node above two nodes, from the texts hashed for these. -/
def joinHashes (sha256 : String → String) (left right : String) : String := sha256 left ++ sha256 right

/-- The entries as the tree has them: no entries are taken for the empty one. -/
def leafTexts (entries : List String) : List String := if entries.isEmpty then [""] else entries

def hashedTexts (sha256 : String → String) (entries : List String) : List String :=
  nodes (joinHashes sha256) (leafTexts entries)

theorem leafTexts_ne_nil (entries : List String) : leafTexts entries ≠ [] := by
  unfold leafTexts
  split
  · simp
  · next h => simpa using h

theorem root_eq_apex (sha256 : String → String) (entries : List String) :
    some ((MerkleTree.ofEntries sha256 entries).root sha256) =
      (apex (joinHashes sha256) (leafTexts entries)).map sha256 := by
  unfold MerkleTree.root leafTexts
  rw [MerkleTree.ofEntries_leaves]
  cases entries with
  | nil => simp [apex, hashLeaf]
  | cons first rest =>
    rw [if_neg (by simp), if_neg (by simp), ← MerkleTree.apex_eq_computeRoot sha256 (by simp)]
    exact apex_map sha256 (fun _ _ => rfl) (first :: rest)

theorem joinsApart_of_collisionFree (hhex : HexDigest sha256) {texts : List String} (h : CollisionFree sha256 texts) :
    JoinsApart (joinHashes sha256) (· ∈ texts) := by
  intro x y x' y' hx hy hx' hy' heq
  have hchars : (sha256 x).toList ++ (sha256 y).toList = (sha256 x').toList ++ (sha256 y').toList := by
    rw [← String.toList_append, ← String.toList_append]
    exact congrArg String.toList heq
  obtain ⟨hl, hr⟩ := List.append_inj hchars (by rw [String.length_toList, String.length_toList, hhex.length, hhex.length])
  exact ⟨h x hx x' hx' (String.toList_injective hl), h y hy y' hy' (String.toList_injective hr)⟩

/-- Without collisions, a root is shared just by twins. -/
theorem root_eq_iff_twins (hhex : HexDigest sha256) (entries entries' : List String)
    (h : CollisionFree sha256 (hashedTexts sha256 entries ++ hashedTexts sha256 entries')) :
    (MerkleTree.ofEntries sha256 entries).root sha256 = (MerkleTree.ofEntries sha256 entries').root sha256 ↔
      Twins (joinHashes sha256) (leafTexts entries) (leafTexts entries') := by
  have htexts : ∀ x ∈ hashedTexts sha256 entries,
      x ∈ hashedTexts sha256 entries ++ hashedTexts sha256 entries' := fun x => List.mem_append_left _
  have htexts' : ∀ x ∈ hashedTexts sha256 entries',
      x ∈ hashedTexts sha256 entries ++ hashedTexts sha256 entries' := fun x => List.mem_append_right _
  rw [← apex_eq_iff_twins (joinsApart_of_collisionFree hhex h) htexts htexts' (leafTexts_ne_nil _) (leafTexts_ne_nil _),
    ← Option.some_inj, root_eq_apex, root_eq_apex]
  constructor
  · intro hroots
    obtain ⟨top, htop⟩ := Option.isSome_iff_exists.mp (apex_isSome (joinHashes sha256) (leafTexts_ne_nil entries))
    obtain ⟨top', htop'⟩ :=
      Option.isSome_iff_exists.mp (apex_isSome (joinHashes sha256) (leafTexts_ne_nil entries'))
    rw [htop, htop', Option.map_some, Option.map_some, Option.some_inj] at hroots
    rw [htop, htop', h top (htexts _ (apex_mem_nodes htop)) top' (htexts' _ (apex_mem_nodes htop')) hroots]
  · intro hapex
    rw [hapex]

/-- **A root detects tampering just when the number of entries is the same, or the lists are no twins.** -/
theorem tampering_detected_iff (hhex : HexDigest sha256) (entries entries' : List String)
    (h : CollisionFree sha256 (hashedTexts sha256 entries ++ hashedTexts sha256 entries')) :
    ((MerkleAuditStore.verifyChain sha256 entries' (some ((MerkleTree.ofEntries sha256 entries).root sha256))).isValid →
        entries' = entries) ↔
      (entries'.length = entries.length ∨ ¬ Twins (joinHashes sha256) (leafTexts entries) (leafTexts entries')) := by
  rw [MerkleAuditStore.verifyChain_isValid, eq_comm (a := MerkleTree.root sha256 _),
    root_eq_iff_twins hhex entries entries' h]
  constructor
  · intro hdetect
    by_cases htwins : Twins (joinHashes sha256) (leafTexts entries) (leafTexts entries')
    · exact .inl (congrArg List.length (hdetect htwins))
    · exact .inr htwins
  · rintro (hlen | hapart) htwins
    · cases entries with
      | nil => simpa using hlen
      | cons first rest =>
        cases entries' with
        | nil => simp at hlen
        | cons first' rest' => exact (htwins.eq_of_length hlen.symm).symm
    · exact absurd htwins hapart

theorem swap_detected :
    ((MerkleAuditStore.verifyChain sampleDigest ["b", "a"]
        (some ((MerkleTree.ofEntries sampleDigest ["a", "b"]).root sampleDigest))).isValid →
        ["b", "a"] = ["a", "b"]) ↔
      (["b", "a"].length = ["a", "b"].length ∨
        ¬ Twins (joinHashes sampleDigest) (leafTexts ["a", "b"]) (leafTexts ["b", "a"])) :=
  tampering_detected_iff sampleDigest_hex ["a", "b"] ["b", "a"] (by decide +kernel)

/-- The last of three entries can be there twice. -/
theorem repeated_entry_undetected :
    ¬ ∀ sha256 : String → String, HexDigest sha256 → ∀ entries entries' : List String,
      CollisionFree sha256 (hashedTexts sha256 entries ++ hashedTexts sha256 entries') →
      (MerkleAuditStore.verifyChain sha256 entries'
        (some ((MerkleTree.ofEntries sha256 entries).root sha256))).isValid → entries' = entries := by
  intro h
  have hsame := h sampleDigest sampleDigest_hex ["a", "b", "c"] ["a", "b", "c", "c"] (by decide +kernel)
    (by decide +kernel)
  simp at hsame

end Occp.Store
