import RustProfile.OtlpResource

/-!
# The attributes of a resource

Keys of the merged map are distinct, and an identity key has the target's value.
The two attributes behind them are the only ones of their keys unless the user
configures these keys.
-/

namespace RustProfile

namespace Otlp

/-! ## Configured keys -/

theorem mem_insertPair {field : String} {pairs pairs' : Table String String} {input : List Char}
    (h : insertPair field pairs input = .ok pairs') (key : String) :
    key ∈ pairs' ↔ key ∈ pairs ∨ pairKey input = some key := by
  unfold insertPair at h
  unfold pairKey
  cases hsplit : splitOnce ['='] input with
  | none =>
    rw [hsplit] at h
    cases h
  | some pair =>
    rw [hsplit] at h
    dsimp only at h
    split at h
    · cases h
    · cases h
      rw [AList.mem_insert, Option.map_some, Option.some.injEq, or_comm, eq_comm]

theorem mem_insertPairs {field : String} {key : String} :
    ∀ {inputs : List (List Char)} {pairs pairs' : Table String String},
    insertPairs field pairs inputs = .ok pairs' →
    (key ∈ pairs' ↔ key ∈ pairs ∨ ∃ input ∈ inputs, pairKey input = some key)
  | [], pairs, pairs', h => by
    cases h
    simp
  | input :: inputs, pairs, pairs', h => by
    unfold insertPairs at h
    cases hfirst : insertPair field pairs input with
    | error error =>
      rw [hfirst] at h
      cases h
    | ok first =>
      rw [hfirst] at h
      rw [mem_insertPairs h, mem_insertPair hfirst, or_assoc]
      simp

/-- The user's keys are those of the pairs; the name of the service may come from elsewhere. -/
theorem ResourceSettings.mem_iff {settings : ResourceSettings} {configured : Table String String}
    (h : settings.resourceAttributes = .ok configured) {key : String} (hkey : key ≠ "service.name") :
    key ∈ configured ↔ settings.Names key := by
  unfold resourceAttributes parsePairs at h
  cases hfirst : insertPairs "resource attribute" ∅ (pairsOf ',' settings.environment) with
  | error error =>
    rw [hfirst] at h
    cases h
  | ok environment =>
    rw [hfirst] at h
    dsimp only at h
    cases hsecond : insertPairs "resource attribute" environment (settings.arguments.map String.toList) with
    | error error =>
      rw [hsecond] at h
      cases h
    | ok arguments =>
      rw [hsecond] at h
      dsimp only at h
      have hpairs : key ∈ arguments ↔ settings.Names key := by
        unfold Names
        rw [mem_insertPairs hsecond, mem_insertPairs hfirst]
        simp only [List.mem_append, or_and_right, exists_or, AList.notMem_empty, false_or]
      rw [← hpairs]
      cases hservice : settings.serviceName with
      | none =>
        rw [hservice] at h
        cases h
        exact Iff.rfl
      | some serviceName =>
        rw [hservice] at h
        dsimp only at h
        split at h
        · cases h
          exact Iff.rfl
        · cases h
          rw [AList.mem_insert]
          exact or_iff_right hkey

/-! ## The merged map -/

section
variable {target : ResolvedMetadata} {executable : PathBuf} {configured : Table String String}

theorem lookup_insertIdentity (attributes : Table String String) (detected : String × Option String) (key : String) :
    (insertIdentity attributes detected).lookup key =
      if key = detected.1 then detected.2.or (attributes.lookup key) else attributes.lookup key := by
  unfold insertIdentity
  cases hvalue : detected.2 with
  | none => simp
  | some value => rw [Table.lookup_insert, Option.some_or]

theorem lookup_foldl_insertIdentity {key : String} : ∀ {detected : List (String × Option String)}
    {attributes : Table String String}, key ∉ detected.map Prod.fst →
    (detected.foldl insertIdentity attributes).lookup key = attributes.lookup key
  | [], _, _ => rfl
  | d :: detected, attributes, h => by
    rw [List.map_cons, List.mem_cons, not_or] at h
    rw [List.foldl_cons, lookup_foldl_insertIdentity h.2, lookup_insertIdentity, if_neg h.1]

theorem lookup_foldl_of_mem {key value : String} : ∀ {detected : List (String × Option String)}
    {attributes : Table String String}, (detected.map Prod.fst).Nodup → (key, some value) ∈ detected →
    (detected.foldl insertIdentity attributes).lookup key = some value
  | d :: detected, attributes, hn, hmem => by
    rw [List.map_cons, List.nodup_cons] at hn
    rw [List.foldl_cons]
    rcases List.mem_cons.mp hmem with rfl | hmem
    · rw [lookup_foldl_insertIdentity hn.1, lookup_insertIdentity, if_pos rfl, Option.some_or]
    · exact lookup_foldl_of_mem hn.2 hmem

theorem identityAttributes_keys (target : ResolvedMetadata) (executable : PathBuf) :
    (identityAttributes target executable).map Prod.fst =
      ["process.executable.path", "process.executable.name", "container.id", "container.name", "k8s.namespace.name",
        "k8s.pod.name", "k8s.pod.uid", "k8s.container.name", "k8s.node.name"] := rfl

theorem lookup_merged_identity {key value : String} (h : (key, some value) ∈ identityAttributes target executable) :
    (mergedAttributes target executable configured).lookup key = some value := by
  unfold mergedAttributes
  refine lookup_foldl_of_mem ?_ h
  rw [identityAttributes_keys]
  decide

/-- Any other key is the user's, but for the name of the service. -/
theorem mem_merged_iff {key : String} (hservice : key ≠ "service.name")
    (hidentity : key ∉ (identityAttributes target executable).map Prod.fst) :
    key ∈ mergedAttributes target executable configured ↔ key ∈ configured := by
  unfold mergedAttributes
  rw [Table.mem_iff, lookup_foldl_insertIdentity hidentity, ← Table.mem_iff]
  split
  · exact Iff.rfl
  · rw [AList.mem_insert]
    exact or_iff_right hservice

end

/-! ## The flattened map -/

theorem sortedEntries_perm (attributes : Table String String) : (sortedEntries attributes).Perm attributes.entries :=
  List.perm_insertionSort _ _

def flattened (attributes : Table String String) : List KeyValue :=
  (sortedEntries attributes).map fun e => stringKeyValue e.1 e.2

theorem flattened_keys (attributes : Table String String) :
    ((flattened attributes).map KeyValue.key).Perm attributes.keys := by
  unfold flattened
  rw [List.map_map]
  exact (sortedEntries_perm attributes).map _

theorem mem_flattened {attributes : Table String String} {key value : String} (h : attributes.lookup key = some value) :
    stringKeyValue key value ∈ flattened attributes :=
  List.mem_map_of_mem (f := fun e : Σ _ : String, String => stringKeyValue e.1 e.2)
    ((sortedEntries_perm attributes).mem_iff.mpr (Table.mem_entries.mpr h))

/-! ## The whole list -/

section
variable {target : ResolvedMetadata} {executable : PathBuf} {configured : Table String String}

theorem resource_eq : resource target executable configured =
    flattened (mergedAttributes target executable configured) ++
      [⟨"process.pid", .int target.pid⟩, stringKeyValue "rustprofile.target.kind" (kindName target.kind)] := rfl

theorem resource_distinct_iff : ((resource target executable configured).map KeyValue.key).Nodup ↔
    "process.pid" ∉ configured ∧ "rustprofile.target.kind" ∉ configured := by
  have hkeys := flattened_keys (mergedAttributes target executable configured)
  have hmem : ∀ key, key ∈ (flattened (mergedAttributes target executable configured)).map KeyValue.key ↔
      key ∈ mergedAttributes target executable configured := fun key => hkeys.mem_iff
  have hpid : "process.pid" ∈ mergedAttributes target executable configured ↔ "process.pid" ∈ configured :=
    mem_merged_iff (by decide) (by rw [identityAttributes_keys]; decide)
  have hkind : "rustprofile.target.kind" ∈ mergedAttributes target executable configured ↔
      "rustprofile.target.kind" ∈ configured := mem_merged_iff (by decide) (by rw [identityAttributes_keys]; decide)
  rw [resource_eq, List.map_append, List.nodup_append]
  constructor
  · rintro ⟨-, -, hdisjoint⟩
    rw [← hpid, ← hkind, ← hmem, ← hmem]
    exact ⟨fun h => hdisjoint _ h _ List.mem_cons_self rfl,
      fun h => hdisjoint _ h _ (List.mem_cons_of_mem _ List.mem_cons_self) rfl⟩
  · rintro ⟨hnopid, hnokind⟩
    refine ⟨hkeys.nodup_iff.mpr (AList.keys_nodup _), ?_, ?_⟩
    · change ["process.pid", "rustprofile.target.kind"].Nodup
      decide
    · intro key hkey pushed hpushed heq
      rw [hmem] at hkey
      change pushed ∈ ["process.pid", "rustprofile.target.kind"] at hpushed
      rw [← heq, List.mem_pair] at hpushed
      rcases hpushed with rfl | rfl
      · exact hnopid (hpid.mp hkey)
      · exact hnokind (hkind.mp hkey)

/-- Once the keys are distinct, an attribute of the list is the only one of its key. -/
theorem hasOnly_of_mem {attributes : List KeyValue} (h : (attributes.map KeyValue.key).Nodup) {key : String}
    {value : AnyValue} (hmem : (⟨key, value⟩ : KeyValue) ∈ attributes) : HasOnly attributes key value := by
  unfold HasOnly
  induction attributes with
  | nil => cases hmem
  | cons entry attributes ih =>
    rw [List.map_cons, List.nodup_cons] at h
    rcases List.mem_cons.mp hmem with rfl | hmem
    · have hnone : attributes.filter (fun entry => entry.key = key) = [] := by
        refine List.filter_eq_nil_iff.mpr fun other hother => ?_
        rw [decide_eq_true_eq]
        intro hsame
        exact h.1 (List.mem_map.mpr ⟨other, hother, hsame⟩)
      rw [List.filter_cons_of_pos (by simp), hnone]
    · have hne : entry.key ≠ key := fun hsame => h.1 (List.mem_map.mpr ⟨_, hmem, hsame.symm⟩)
      rw [List.filter_cons_of_neg (by simpa using hne), ih h.2 hmem]

theorem identity_mem_resource {key value : String} (h : (key, some value) ∈ identityAttributes target executable) :
    (⟨key, .string value⟩ : KeyValue) ∈ resource target executable configured := by
  rw [resource_eq]
  exact List.mem_append_left _ (mem_flattened (lookup_merged_identity h))

end

/-- **A resource identifies its target exactly if the user configures neither of the keys that are added behind the
map.** -/
theorem resource_identifies_iff (settings : ResourceSettings) {configured : Table String String}
    (h : settings.resourceAttributes = .ok configured) (target : ResolvedMetadata) (executable : PathBuf) :
    Identifies target executable (resource target executable configured) ↔
      ¬ settings.Names "process.pid" ∧ ¬ settings.Names "rustprofile.target.kind" := by
  rw [← ResourceSettings.mem_iff h (by decide), ← ResourceSettings.mem_iff h (by decide), ← resource_distinct_iff]
  constructor
  · intro hidentifies
    exact hidentifies.distinct
  · intro hdistinct
    have hpushed : ∀ entry ∈ ([⟨"process.pid", .int target.pid⟩,
        stringKeyValue "rustprofile.target.kind" (kindName target.kind)] : List KeyValue),
        entry ∈ resource target executable configured := by
      intro entry hentry
      rw [resource_eq]
      exact List.mem_append_right _ hentry
    refine ⟨hdistinct, ?_, ?_, fun key value hidentity => ?_⟩
    · exact hasOnly_of_mem hdistinct (hpushed _ List.mem_cons_self)
    · exact hasOnly_of_mem hdistinct (hpushed _ (List.mem_cons_of_mem _ List.mem_cons_self))
    · exact hasOnly_of_mem hdistinct (identity_mem_resource hidentity)

/-! ## A configured pid -/

def hostProcess : ResolvedMetadata where
  pid := 42
  kind := .process
  processStartTimeTicks := 7

def environmentOnly : ResourceSettings where
  environment := "deployment.environment=test"

def pidArgument : ResourceSettings where
  arguments := ["process.pid=1"]

theorem environmentOnly_identifies :
    ∃ configured, environmentOnly.resourceAttributes = .ok configured ∧
      Identifies hostProcess ⟨[47, 97]⟩ (resource hostProcess ⟨[47, 97]⟩ configured) := by
  have hok : environmentOnly.resourceAttributes =
      .ok ((∅ : Table String String).insert "deployment.environment" "test") := by rfl
  refine ⟨_, hok, (resource_identifies_iff environmentOnly hok hostProcess ⟨[47, 97]⟩).mpr ?_⟩
  rw [← ResourceSettings.mem_iff hok (by decide), ← ResourceSettings.mem_iff hok (by decide)]
  decide

/-- The pid stands in the resource twice, once as the user's text. -/
theorem pidArgument_named_twice :
    ∃ configured, pidArgument.resourceAttributes = .ok configured ∧
      resource hostProcess ⟨[47, 97]⟩ configured =
        [⟨"process.executable.name", .string "a"⟩, ⟨"process.executable.path", .string "/a"⟩,
          ⟨"process.pid", .string "1"⟩, ⟨"service.name", .string "unknown_service:a"⟩, ⟨"process.pid", .int 42⟩,
          ⟨"rustprofile.target.kind", .string "process"⟩] ∧
      ¬ Identifies hostProcess ⟨[47, 97]⟩ (resource hostProcess ⟨[47, 97]⟩ configured) := by
  have hok : pidArgument.resourceAttributes = .ok ((∅ : Table String String).insert "process.pid" "1") := by rfl
  have hlist : resource hostProcess ⟨[47, 97]⟩ ((∅ : Table String String).insert "process.pid" "1") =
      [⟨"process.executable.name", .string "a"⟩, ⟨"process.executable.path", .string "/a"⟩,
        ⟨"process.pid", .string "1"⟩, ⟨"service.name", .string "unknown_service:a"⟩, ⟨"process.pid", .int 42⟩,
        ⟨"rustprofile.target.kind", .string "process"⟩] := by decide +kernel
  refine ⟨_, hok, hlist, fun hidentifies => ?_⟩
  have hdistinct := hidentifies.distinct
  rw [hlist] at hdistinct
  revert hdistinct
  decide

end Otlp

end RustProfile
