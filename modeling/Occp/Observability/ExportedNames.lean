import Occp.Observability.Families

/-!
# Exported names (`observability/metrics_collector.py`)

When families can stand in one text: their names and the names of their samples are apart.
-/

namespace Occp.Metrics

/-- The name of the family and those of its samples. -/
def Family.names (f : Family) : List String := f.name :: f.samples.map fun s => f.name ++ s.suffix

/-- No two samples of the family are the same series. -/
def Family.Distinct (f : Family) : Prop :=
  f.samples.Pairwise fun s t => ¬ (s.suffix = t.suffix ∧ s.recorded.Perm t.recorded)

/-! ## Suffixes -/

section Suffixes

variable {kind kind' : Kind} {s t : String}

theorem suffix_cases (h : s ∈ kind.suffixes) :
    s = "" ∨ kind = .histogram ∧ s ∈ ["_bucket", "_count", "_sum"] := by
  cases kind with
  | histogram => exact .inr ⟨rfl, h⟩
  | _ => exact .inl (List.mem_singleton.mp h)

/-- A suffix is not the end of another one. -/
theorem eq_of_isSuffix (hs : s ∈ ["_bucket", "_count", "_sum"]) (ht : t ∈ ["_bucket", "_count", "_sum"])
    (h : s.toList <:+ t.toList) : s = t := by
  have hall : ∀ s ∈ ["_bucket", "_count", "_sum"], ∀ t ∈ ["_bucket", "_count", "_sum"],
      s.toList <:+ t.toList → s = t := by decide
  exact hall s hs t ht h

/-- Nor are two suffixes the end of one name. -/
theorem eq_of_isSuffix_of_isSuffix {text : List Char} (hs : s ∈ ["_bucket", "_count", "_sum"])
    (ht : t ∈ ["_bucket", "_count", "_sum"]) (h : s.toList <:+ text) (h' : t.toList <:+ text) : s = t := by
  rcases List.suffix_or_suffix_of_suffix h h' with hsuffix | hsuffix
  · exact eq_of_isSuffix hs ht hsuffix
  · exact (eq_of_isSuffix ht hs hsuffix).symm

theorem append_suffix_inj {name name' : String} (hs : s ∈ ["_bucket", "_count", "_sum"])
    (ht : t ∈ ["_bucket", "_count", "_sum"]) (h : name ++ s = name' ++ t) : name = name' := by
  have hlist : name.toList ++ s.toList = name'.toList ++ t.toList := by
    rw [← String.toList_append, h, String.toList_append]
  have hst := eq_of_isSuffix_of_isSuffix hs ht (List.suffix_append name.toList s.toList)
    (hlist ▸ List.suffix_append name'.toList t.toList)
  rwa [hst, String.append_left_inj] at h

theorem append_ne_self {name : String} (hs : s ≠ "") : name ++ s ≠ name := by
  intro h
  have hempty : name ++ s = name ++ "" := by simpa using h
  exact hs ((String.append_right_inj name).mp hempty)

theorem withoutSuffix_append (hs : s ∈ ["_bucket", "_count", "_sum"]) (name : String) :
    withoutSuffix (name ++ s) = some name := by
  have hsuffix : s.toList.isSuffixOf (name ++ s).toList = true := by
    rw [List.isSuffixOf_iff_suffix, String.toList_append]
    exact List.suffix_append _ _
  have hfind : (["_bucket", "_count", "_sum"].find? fun t => t.toList.isSuffixOf (name ++ s).toList) = some s := by
    cases hfind : ["_bucket", "_count", "_sum"].find? fun t => t.toList.isSuffixOf (name ++ s).toList with
    | none => exact absurd hsuffix (List.find?_eq_none.mp hfind s hs)
    | some t =>
      have ht := List.find?_some hfind
      rw [List.isSuffixOf_iff_suffix] at ht hsuffix
      rw [eq_of_isSuffix_of_isSuffix (List.mem_of_find?_eq_some hfind) hs ht hsuffix]
  rw [withoutSuffix, hfind, Option.map_some, String.toList_append, String.length_append, Nat.add_sub_cancel,
    ← String.length_toList, List.take_left, String.ofList_toList]

/-- A sample belongs to its family unless its name was given a type of its own before. -/
theorem familyOf_eq_iff {typed : List (String × Kind)} {name : String} (hs : s ∈ kind.suffixes) :
    familyOf (typed ++ [(name, kind)]) (name ++ s) = name ↔ s ≠ "" → name ++ s ∉ typed.map (·.1) := by
  rcases suffix_cases hs with rfl | ⟨rfl, hs⟩
  · simp [familyOf]
  · have hne : s ≠ "" := by
      rintro rfl
      exact absurd hs (by decide)
    have hself : name ++ s ≠ name := append_ne_self hne
    by_cases hmem : name ++ s ∈ typed.map (·.1)
    · have hall : name ++ s ∈ (typed ++ [(name, Kind.histogram)]).map (·.1) := by
        rw [List.map_append]
        exact List.mem_append_left _ hmem
      rw [familyOf, if_pos hall]
      exact ⟨fun h => absurd h hself, fun h => absurd hmem (h hne)⟩
    · have hall : name ++ s ∉ (typed ++ [(name, Kind.histogram)]).map (·.1) := by
        rw [List.map_append, List.mem_append]
        exact fun h => h.elim hmem fun h => hself (List.mem_singleton.mp h)
      rw [familyOf, if_neg hall, withoutSuffix_append hs]
      simp [hmem]

end Suffixes

/-! ## One text -/

namespace Family

variable {f g : Family}

theorem map_raw_items (f : Family) : f.items.map Item.raw =
    .type f.name f.kind :: f.samples.map fun s => .sample (f.name ++ s.suffix) s.recorded s.value := by
  simp [items, Item.raw]

/-- Within a family only series can clash. -/
theorem pairwise_raw_iff (f : Family) : (f.items.map Item.raw).Pairwise Compatible ↔ f.Distinct := by
  rw [map_raw_items, List.pairwise_cons, List.pairwise_map, Distinct]
  simp [Compatible, String.append_right_inj]

/-- The samples of the later family belong to it. -/
def Follows (f g : Family) : Prop := ∀ s ∈ g.samples, s.suffix ≠ "" → g.name ++ s.suffix ≠ f.name

/-- Two families fit after one another just when no name is in both. -/
theorem disjoint_names_iff :
    ((∀ x ∈ f.items.map Item.raw, ∀ y ∈ g.items.map Item.raw, Compatible x y) ∧ Follows f g) ↔
      f.names.Disjoint g.names := by
  rw [map_raw_items, map_raw_items]
  rw [List.forall_mem_cons, List.forall_mem_cons, List.forall_mem_map, List.forall_mem_map]
  simp only [List.forall_mem_cons, List.forall_mem_map]
  simp only [Compatible, List.disjoint_left, names, List.mem_cons, List.mem_map, Follows]
  constructor
  · rintro ⟨⟨⟨hname, -⟩, hsamples⟩, hfollows⟩ name hf hg
    have hgname : ∀ t ∈ g.samples, g.name ++ t.suffix ≠ f.name := by
      intro t ht heq
      rcases suffix_cases (g.suffix_mem t ht) with hempty | ⟨-, hmem⟩
      · rw [hempty] at heq
        exact hname (by simpa using heq.symm)
      · refine hfollows t ht ?_ heq
        intro hempty
        rw [hempty] at hmem
        exact absurd hmem (by decide)
    rcases hf with rfl | ⟨s, hs, rfl⟩
    · rcases hg with heq | ⟨t, ht, heq⟩
      · exact hname heq
      · exact hgname t ht heq
    · rcases hg with heq | ⟨t, ht, heq⟩
      · exact (hsamples s hs).1 heq
      · rcases suffix_cases (f.suffix_mem s hs) with hempty | ⟨-, hsmem⟩
        · rw [hempty, String.append_empty] at heq
          exact hgname t ht heq
        · rcases suffix_cases (g.suffix_mem t ht) with hempty | ⟨-, htmem⟩
          · rw [hempty, String.append_empty] at heq
            exact (hsamples s hs).1 heq.symm
          · exact hname (append_suffix_inj htmem hsmem heq).symm
  · intro h
    refine ⟨⟨⟨fun heq => h (.inl rfl) (.inl heq), fun _ _ => trivial⟩, fun s hs => ⟨fun heq => ?_, ?_⟩⟩, ?_⟩
    · exact h (.inr ⟨s, hs, rfl⟩) (.inl heq)
    · rintro t ht ⟨heq, -⟩
      exact h (.inr ⟨s, hs, rfl⟩) (.inr ⟨t, ht, heq.symm⟩)
    · intro s hs _ heq
      exact h (.inl rfl) (.inr ⟨s, hs, heq⟩)

/-- Before any of its samples a family's names are free. -/
def Free (f : Family) (typed : List (String × Kind)) : Prop :=
  ∀ s ∈ f.samples, s.suffix ≠ "" → f.name ++ s.suffix ∉ typed.map (·.1)

theorem free_append_iff {typed : List (String × Kind)} :
    g.Free (typed ++ [(f.name, f.kind)]) ↔ g.Free typed ∧ Follows f g := by
  simp only [Free, Follows, List.map_append, List.mem_append, List.map_cons, List.map_nil, List.mem_singleton, not_or]
  exact ⟨fun h => ⟨fun s hs hne => (h s hs hne).1, fun s hs hne => (h s hs hne).2⟩,
    fun h s hs hne => ⟨h.1 s hs hne, h.2 s hs hne⟩⟩

end Family

theorem annotate_samples (typed : List (String × Kind)) (name : String) (samples : List Sample) (rest : List RawItem) :
    annotate typed (samples.map (fun s => .sample (name ++ s.suffix) s.recorded s.value) ++ rest) =
      samples.map (fun s => .sample (familyOf typed (name ++ s.suffix)) (name ++ s.suffix) s.recorded s.value) ++
        annotate typed rest := by
  induction samples with
  | nil => rfl
  | cons s samples ih =>
    rw [List.map_cons, List.map_cons, List.cons_append, List.cons_append, annotate, ih]

theorem map_raw_annotate (typed : List (String × Kind)) (items : List RawItem) :
    (annotate typed items).map Item.raw = items := by
  induction items generalizing typed with
  | nil => rfl
  | cons item items ih =>
    cases item with
    | type name kind => rw [annotate, List.map_cons, ih, Item.raw]
    | sample name labels value => rw [annotate, List.map_cons, ih, Item.raw]

/-- Every sample is told its own family just when no family before has a name of its samples. -/
theorem annotate_families_iff (fs : List Family) (typed : List (String × Kind)) :
    annotate typed ((fs.flatMap Family.items).map Item.raw) = fs.flatMap Family.items ↔
      fs.Pairwise Family.Follows ∧ ∀ f ∈ fs, f.Free typed := by
  induction fs generalizing typed with
  | nil => simp [annotate]
  | cons f fs ih =>
    have hfirst : (f.samples.map fun s => Item.sample (familyOf (typed ++ [(f.name, f.kind)]) (f.name ++ s.suffix))
          (f.name ++ s.suffix) s.recorded s.value) =
        (f.samples.map fun s => Item.sample f.name (f.name ++ s.suffix) s.recorded s.value) ↔ f.Free typed := by
      rw [List.map_inj_left, Family.Free]
      refine forall_congr' fun s => forall_congr' fun hs => ?_
      simp [familyOf_eq_iff (f.suffix_mem s hs)]
    rw [List.flatMap_cons, List.map_append, Family.map_raw_items, List.cons_append, annotate, annotate_samples,
      Family.items, List.cons_append, List.cons.injEq, and_iff_right rfl, List.pairwise_cons, List.forall_mem_cons]
    constructor
    · intro h
      obtain ⟨hsamples, hrest⟩ := List.append_inj h (by simp)
      obtain ⟨hfollows, hfree⟩ := (ih _).mp hrest
      exact ⟨⟨fun g hg => (Family.free_append_iff.mp (hfree g hg)).2, hfollows⟩, hfirst.mp hsamples,
        fun g hg => (Family.free_append_iff.mp (hfree g hg)).1⟩
    · rintro ⟨⟨hfirstFollows, hfollows⟩, hfreeFirst, hfree⟩
      rw [hfirst.mpr hfreeFirst,
        (ih _).mpr ⟨hfollows, fun g hg => Family.free_append_iff.mpr ⟨hfree g hg, hfirstFollows g hg⟩⟩]

/-- Families are read back, each sample with its own, just when each is readable, no two of them have a
name in common and none has two samples of one series. -/
theorem parse_families_iff (fs : List Family) :
    parse (linesText (familyLines fs)) = some (fs.flatMap Family.items) ↔
      (∀ f ∈ fs, f.Readable) ∧ fs.Pairwise (fun f g => f.names.Disjoint g.names) ∧ ∀ f ∈ fs, f.Distinct := by
  have hnames : ((fs.flatMap Family.items).map Item.raw).Pairwise Compatible ∧
      annotate [] ((fs.flatMap Family.items).map Item.raw) = fs.flatMap Family.items ↔
      fs.Pairwise (fun f g => f.names.Disjoint g.names) ∧ ∀ f ∈ fs, f.Distinct := by
    have hfree : ∀ f ∈ fs, f.Free [] := by simp [Family.Free]
    have hdistinct : (∀ f ∈ fs, (f.items.map Item.raw).Pairwise Compatible) ↔ ∀ f ∈ fs, f.Distinct :=
      forall₂_congr fun f _ => Family.pairwise_raw_iff f
    have hapart : fs.Pairwise (fun f g => f.names.Disjoint g.names) ↔
        fs.Pairwise (fun f g => ∀ x ∈ f.items.map Item.raw, ∀ y ∈ g.items.map Item.raw, Compatible x y) ∧
          fs.Pairwise Family.Follows := by
      rw [← List.pairwise_and_iff]
      exact List.Pairwise.iff fun f g => Family.disjoint_names_iff.symm
    rw [annotate_families_iff, and_iff_left hfree, List.map_flatMap, List.pairwise_flatMap, hdistinct, hapart]
    exact ⟨fun ⟨⟨h, h'⟩, h''⟩ => ⟨⟨h', h''⟩, h⟩, fun ⟨⟨h', h''⟩, h⟩ => ⟨⟨h, h'⟩, h''⟩⟩
  rw [← hnames, ← readLines_families_iff]
  constructor
  · intro h
    obtain ⟨raws, hraws, hparse⟩ := Option.bind_eq_some_iff.mp h
    split at hparse
    · next hpairwise =>
      have hannotate : annotate [] raws = fs.flatMap Family.items := Option.some.inj hparse
      have hraw : (fs.flatMap Family.items).map Item.raw = raws := by rw [← hannotate, map_raw_annotate]
      rw [hraw]
      exact ⟨hraws, hpairwise, hannotate⟩
    · cases hparse
  · rintro ⟨hread, hpairwise, hannotate⟩
    rw [parse, hread, Option.bind_some, if_pos hpairwise, hannotate]

end Occp.Metrics
