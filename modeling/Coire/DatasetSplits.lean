import Coire.GroupSplit
import Coire.MixtureSampler
import Mathlib.Tactic.NormNum

/-!
# Splits of a dataset

The rows of a dataset are split in training and validation rows. Rows of equal content
are one group, and groups are not divided; which of them are validated is decided by a
digest of the seed and the content. For preferences the groups are those of equal
prompts. Both are splits by whole groups (`GroupSplit`).

A manifest checks the split once more when it is built, and beside that the digests, the
seed and the number of rows, of which there may be a million. The result is
`splits_never_leak`.
-/

namespace DatasetSplits

open GroupSplit
open TrainingSampling (isDigest)

inductive SplitError
  /-- `TrainingValidationError`. -/
  | training (message : String)
  /-- The `ValidationError` of a manifest. -/
  | manifest
  deriving DecidableEq

/-! ## Manifests -/

/-- `Field(min_length=1, max_length=1_000_000)`. -/
def RowList (rows : List ℕ) : Prop := 1 ≤ rows.length ∧ rows.length ≤ 1000000

/-- `list[Digest]`, of two to a million. -/
def DigestList (digests : List String) : Prop :=
  (2 ≤ digests.length ∧ digests.length ≤ 1000000) ∧ ∀ digest ∈ digests, isDigest digest = true

/-- **The check of a manifest**: its rows are a partition of all rows, and no group
crosses it. -/
def Partitions (groups : List String) (train validation : List ℕ) : Prop :=
  (train.Nodup ∧ validation.Nodup) ∧ (∀ row ∈ train, row ∉ validation)
    ∧ (∀ row ∈ train ++ validation, row ∈ List.range' 1 groups.length)
    ∧ (∀ row ∈ List.range' 1 groups.length, row ∈ train ++ validation)
    ∧ ∀ row ∈ train, ∀ row' ∈ validation, groups[row - 1]? ≠ groups[row' - 1]?

instance (rows : List ℕ) : Decidable (RowList rows) := inferInstanceAs (Decidable (_ ∧ _))

instance (digests : List String) : Decidable (DigestList digests) :=
  inferInstanceAs (Decidable (_ ∧ _))

instance (groups : List String) (train validation : List ℕ) :
    Decidable (Partitions groups train validation) :=
  inferInstanceAs (Decidable (_ ∧ _))

def ManifestFields (sourceSha256 : String) (seed : ℤ) (train validation : List ℕ)
    (rowContentSha256 : List String) : Prop :=
  isDigest sourceSha256 = true ∧ (0 ≤ seed ∧ seed ≤ 2 ^ 32 - 1) ∧ RowList train
    ∧ RowList validation ∧ DigestList rowContentSha256

instance (sourceSha256 : String) (seed : ℤ) (train validation : List ℕ)
    (rowContentSha256 : List String) :
    Decidable (ManifestFields sourceSha256 seed train validation rowContentSha256) :=
  inferInstanceAs (Decidable (_ ∧ _))

structure SplitManifest where
  datasetId : ℕ
  sourceSha256 : String
  seed : ℤ
  trainRows : List ℕ
  validationRows : List ℕ
  rowContentSha256 : List String
  fields : ManifestFields sourceSha256 seed trainRows validationRows rowContentSha256
  positive : ∀ row ∈ trainRows ++ validationRows, 1 ≤ row
  /-- `disjoint_complete_groups`. -/
  partitions : Partitions rowContentSha256 trainRows validationRows

structure PreferenceSplitManifest where
  datasetId : ℕ
  sourceSha256 : String
  seed : ℤ
  validationFraction : ℚ
  trainRows : List ℕ
  validationRows : List ℕ
  rowContentSha256 : List String
  promptGroupSha256 : List String
  fields : ManifestFields sourceSha256 seed trainRows validationRows rowContentSha256
  fraction : 0 < validationFraction ∧ validationFraction < 1
  prompts : DigestList promptGroupSha256
  aligned : promptGroupSha256.length = rowContentSha256.length
  partitions : Partitions promptGroupSha256 trainRows validationRows

def SplitManifest.make (datasetId : ℕ) (sourceSha256 : String) (seed : ℤ)
    (train validation : List ℕ) (rowContentSha256 : List String) :
    Except SplitError SplitManifest :=
  if h : ManifestFields sourceSha256 seed train validation rowContentSha256
      ∧ (∀ row ∈ train ++ validation, 1 ≤ row)
      ∧ Partitions rowContentSha256 train validation then
    .ok ⟨datasetId, sourceSha256, seed, train, validation, rowContentSha256, h.1, h.2.1, h.2.2⟩
  else .error .manifest

def PreferenceSplitManifest.make (datasetId : ℕ) (sourceSha256 : String) (seed : ℤ)
    (validationFraction : ℚ) (train validation : List ℕ)
    (rowContentSha256 promptGroupSha256 : List String) :
    Except SplitError PreferenceSplitManifest :=
  if h : ManifestFields sourceSha256 seed train validation rowContentSha256
      ∧ (0 < validationFraction ∧ validationFraction < 1) ∧ DigestList promptGroupSha256
      ∧ promptGroupSha256.length = rowContentSha256.length
      ∧ Partitions promptGroupSha256 train validation then
    .ok ⟨datasetId, sourceSha256, seed, validationFraction, train, validation,
      rowContentSha256, promptGroupSha256, h.1, h.2.1, h.2.2.1, h.2.2.2.1, h.2.2.2.2⟩
  else .error .manifest

/-! ## Splits -/

section Code

variable (sha256 : String → ℕ) (rounded : ℕ → ℚ → ℕ)

def splitKey (algorithm : String) (seed : ℤ) (digest : String) : ℕ :=
  sha256 s!"{algorithm}:{seed}:{digest}"

def splitTarget (count : ℕ) (validationFraction : ℚ) : ℕ :=
  max 1 (rounded count validationFraction)

def splitRows (datasetId : ℕ) (sourceSha256 : String) (contentHashes : List String)
    (seed : ℤ) (validationFraction : ℚ) : Except SplitError SplitManifest :=
  if ¬ (0 < validationFraction ∧ validationFraction < 1) then
    .error (.training "Dataset validation fraction is invalid")
  else if (values contentHashes).length < 2 then
    .error (.training ("Dataset needs at least two distinct content groups for nonempty "
      ++ "train/validation splits"))
  else
    let key := splitKey sha256 "coire-split-v1" seed
    let target := splitTarget rounded contentHashes.length validationFraction
    SplitManifest.make datasetId sourceSha256 seed (others key target contentHashes)
      (taken key target contentHashes) contentHashes

def splitPreferenceHashes (datasetId : ℕ) (sourceSha256 : String)
    (contentHashes promptHashes : List String) (seed : ℤ) (validationFraction : ℚ) :
    Except SplitError PreferenceSplitManifest :=
  if contentHashes.length ≠ promptHashes.length then
    .error (.training "Preference row and prompt identities must align")
  else if ¬ (0 < validationFraction ∧ validationFraction < 1) then
    .error (.training "Preference validation fraction is invalid")
  else if (values promptHashes).length < 2 then
    .error (.training "Preference datasets need at least two distinct prompt groups")
  else
    let key := splitKey sha256 "coire-preference-split-v1" seed
    let target := splitTarget rounded contentHashes.length validationFraction
    PreferenceSplitManifest.make datasetId sourceSha256 seed validationFraction
      (others key target promptHashes) (taken key target promptHashes) contentHashes
      promptHashes

end Code

/-! ## Leaks -/

def groupsAt (groups : List String) (rows : List ℕ) : List (Option String) :=
  rows.map fun row => groups[row - 1]?

def detectSplitLeakage (manifests : List SplitManifest) : Except SplitError Unit :=
  let train := manifests.flatMap fun m => groupsAt m.rowContentSha256 m.trainRows
  let validation := manifests.flatMap fun m => groupsAt m.rowContentSha256 m.validationRows
  if ∃ group ∈ train, group ∈ validation then
    .error (.training "Mixture sources contain conflicting duplicate split membership")
  else .ok ()

def detectPreferenceLeakage (manifests : List PreferenceSplitManifest) :
    Except SplitError Unit :=
  let train := manifests.flatMap fun m => groupsAt m.promptGroupSha256 m.trainRows
  let validation := manifests.flatMap fun m => groupsAt m.promptGroupSha256 m.validationRows
  if ∃ group ∈ train, group ∈ validation then
    .error (.training "Preference sources place the same prompt in training and validation")
  else .ok ()

theorem Partitions.disjoint_groups {groups : List String} {train validation : List ℕ}
    (h : Partitions groups train validation) :
    ¬ ∃ group ∈ groupsAt groups train, group ∈ groupsAt groups validation := by
  rintro ⟨group, htrain, hvalidation⟩
  obtain ⟨row, hrow, rfl⟩ := List.mem_map.mp htrain
  obtain ⟨row', hrow', heq⟩ := List.mem_map.mp hvalidation
  exact h.2.2.2.2 row hrow row' hrow' heq.symm

theorem detectSplitLeakage_singleton (m : SplitManifest) :
    detectSplitLeakage [m] = .ok () := by
  unfold detectSplitLeakage
  rw [List.flatMap_singleton, List.flatMap_singleton]
  exact if_neg m.partitions.disjoint_groups

theorem detectPreferenceLeakage_singleton (m : PreferenceSplitManifest) :
    detectPreferenceLeakage [m] = .ok () := by
  unfold detectPreferenceLeakage
  rw [List.flatMap_singleton, List.flatMap_singleton]
  exact if_neg m.partitions.disjoint_groups

/-! ## Splits that are returned -/

section Facts

variable {groups : List String} {train validation : List ℕ}

theorem partitions_of_wholeGroups (h : WholeGroups groups train validation) :
    Partitions groups train validation := by
  refine ⟨⟨h.sortedLeft.imp Nat.ne_of_lt, h.sortedRight.imp Nat.ne_of_lt⟩, h.disjoint,
    fun row hrow => ?_, fun row hrow => ?_, h.together⟩
  · have := (h.exact row).mp (List.mem_append.mp hrow)
    rw [List.mem_range'_1]
    omega
  · rw [List.mem_range'_1] at hrow
    exact List.mem_append.mpr ((h.exact row).mpr (by omega))

theorem rowList_of_wholeGroups (h : WholeGroups groups train validation)
    (hlength : groups.length ≤ 1000000) : RowList train ∧ RowList validation := by
  have hside {side : List ℕ} (hsorted : side.Pairwise (· < ·)) (hne : side ≠ [])
      (hin : ∀ row ∈ side, 1 ≤ row ∧ row ≤ groups.length) : RowList side := by
    have hsub : side ⊆ List.range' 1 groups.length := fun row hrow => by
      have := hin row hrow
      rw [List.mem_range'_1]
      omega
    have hnodup : side.Nodup := hsorted.imp Nat.ne_of_lt
    have hle := (hnodup.subperm hsub).length_le
    rw [List.length_range'] at hle
    exact ⟨List.length_pos_iff.mpr hne, hle.trans hlength⟩
  exact ⟨hside h.sortedLeft h.leftNonempty fun row hrow => (h.exact row).mp (.inl hrow),
    hside h.sortedRight h.rightNonempty fun row hrow => (h.exact row).mp (.inr hrow)⟩

/-- **The fields that a split does not decide**: digests, the seed, the number of
rows. -/
def Admitted (sourceSha256 : String) (seed : ℤ) (rowContentSha256 : List String) : Prop :=
  isDigest sourceSha256 = true ∧ (0 ≤ seed ∧ seed ≤ 2 ^ 32 - 1) ∧ DigestList rowContentSha256

theorem manifestFields_iff (sourceSha256 : String) (seed : ℤ)
    {rowContentSha256 : List String} (h : WholeGroups groups train validation)
    (hlength : rowContentSha256.length = groups.length) :
    ManifestFields sourceSha256 seed train validation rowContentSha256
      ↔ Admitted sourceSha256 seed rowContentSha256 := by
  unfold ManifestFields Admitted
  constructor
  · grind
  · rintro ⟨hsource, hseed, hdigests⟩
    obtain ⟨htrain, hvalidation⟩ := rowList_of_wholeGroups h (hlength ▸ hdigests.1.2)
    exact ⟨hsource, hseed, htrain, hvalidation, hdigests⟩

structure Promised (groups : List String) (key : String → ℕ) (target : ℕ)
    (train validation : List ℕ) : Prop extends WholeGroups groups train validation where
  enough : ∀ last, (ordered key groups).getLast? = some last →
    min target (groups.length - (rows groups last).length) ≤ validation.length

theorem promised (key : String → ℕ) (target : ℕ)
    (htwo : ∃ a ∈ groups, ∃ b ∈ groups, a ≠ b) :
    Promised groups key target (others key target groups) (taken key target groups) :=
  { wholeGroups key target htwo with
    enough := fun _ hlast => min_le_length_taken key target hlast }

end Facts

section Results

variable (sha256 : String → ℕ) (rounded : ℕ → ℚ → ℕ) (datasetId : ℕ) (sourceSha256 : String)
  (contentHashes promptHashes : List String) (seed : ℤ) (validationFraction : ℚ)

theorem splitRows_eq (hfraction : 0 < validationFraction ∧ validationFraction < 1)
    (htwo : ∃ a ∈ contentHashes, ∃ b ∈ contentHashes, a ≠ b) :
    (Admitted sourceSha256 seed contentHashes → ∃ m,
      splitRows sha256 rounded datasetId sourceSha256 contentHashes seed validationFraction
        = .ok m
      ∧ m.rowContentSha256 = contentHashes
      ∧ Promised contentHashes (splitKey sha256 "coire-split-v1" seed)
        (splitTarget rounded contentHashes.length validationFraction)
        m.trainRows m.validationRows)
    ∧ (¬ Admitted sourceSha256 seed contentHashes →
      splitRows sha256 rounded datasetId sourceSha256 contentHashes seed validationFraction
        = .error .manifest) := by
  have hsplit := promised (splitKey sha256 "coire-split-v1" seed)
    (splitTarget rounded contentHashes.length validationFraction) htwo
  have hwhole := hsplit.toWholeGroups
  unfold splitRows
  rw [if_neg (not_not.mpr hfraction),
    if_neg (Nat.not_lt_of_le (two_le_length_values.mpr htwo))]
  dsimp only
  have hfields := manifestFields_iff sourceSha256 seed hwhole rfl
  unfold SplitManifest.make
  refine ⟨fun hadmitted => ?_, fun hnot => dif_neg fun h => hnot (hfields.mp h.1)⟩
  rw [dif_pos ⟨hfields.mpr hadmitted,
    fun row hrow => ((hwhole.exact row).mp (List.mem_append.mp hrow)).1,
    partitions_of_wholeGroups hwhole⟩]
  exact ⟨_, rfl, rfl, hsplit⟩

theorem splitPreferenceHashes_eq
    (hfraction : 0 < validationFraction ∧ validationFraction < 1)
    (haligned : contentHashes.length = promptHashes.length)
    (htwo : ∃ a ∈ promptHashes, ∃ b ∈ promptHashes, a ≠ b) :
    (Admitted sourceSha256 seed contentHashes → DigestList promptHashes → ∃ m,
      splitPreferenceHashes sha256 rounded datasetId sourceSha256 contentHashes promptHashes
        seed validationFraction = .ok m
      ∧ m.promptGroupSha256 = promptHashes
      ∧ Promised promptHashes (splitKey sha256 "coire-preference-split-v1" seed)
        (splitTarget rounded contentHashes.length validationFraction)
        m.trainRows m.validationRows)
    ∧ (¬ (Admitted sourceSha256 seed contentHashes ∧ DigestList promptHashes) →
      splitPreferenceHashes sha256 rounded datasetId sourceSha256 contentHashes promptHashes
        seed validationFraction = .error .manifest) := by
  have hsplit := promised (splitKey sha256 "coire-preference-split-v1" seed)
    (splitTarget rounded contentHashes.length validationFraction) htwo
  have hwhole := hsplit.toWholeGroups
  unfold splitPreferenceHashes
  rw [if_neg (not_not.mpr haligned), if_neg (not_not.mpr hfraction),
    if_neg (Nat.not_lt_of_le (two_le_length_values.mpr htwo))]
  dsimp only
  have hfields := manifestFields_iff sourceSha256 seed hwhole haligned
  unfold PreferenceSplitManifest.make
  refine ⟨fun hadmitted hprompts => ?_,
    fun hnot => dif_neg fun h => hnot ⟨hfields.mp h.1, h.2.2.1⟩⟩
  rw [dif_pos ⟨hfields.mpr hadmitted, hfraction, hprompts, haligned.symm,
    partitions_of_wholeGroups hwhole⟩]
  exact ⟨_, rfl, rfl, hsplit⟩

/-- **Splits never leak.** -/
theorem splits_never_leak (hfraction : 0 < validationFraction ∧ validationFraction < 1)
    (hadmitted : Admitted sourceSha256 seed contentHashes) :
    ((∃ a ∈ contentHashes, ∃ b ∈ contentHashes, a ≠ b) → ∃ m,
      splitRows sha256 rounded datasetId sourceSha256 contentHashes seed validationFraction
        = .ok m
      ∧ m.rowContentSha256 = contentHashes
      ∧ Promised contentHashes (splitKey sha256 "coire-split-v1" seed)
        (splitTarget rounded contentHashes.length validationFraction)
        m.trainRows m.validationRows
      ∧ detectSplitLeakage [m] = .ok ())
    ∧ (contentHashes.length = promptHashes.length → DigestList promptHashes →
      (∃ a ∈ promptHashes, ∃ b ∈ promptHashes, a ≠ b) → ∃ m,
      splitPreferenceHashes sha256 rounded datasetId sourceSha256 contentHashes promptHashes
        seed validationFraction = .ok m
      ∧ m.promptGroupSha256 = promptHashes
      ∧ Promised promptHashes (splitKey sha256 "coire-preference-split-v1" seed)
        (splitTarget rounded contentHashes.length validationFraction)
        m.trainRows m.validationRows
      ∧ detectPreferenceLeakage [m] = .ok ()) := by
  refine ⟨fun htwo => ?_, fun haligned hprompts htwo => ?_⟩
  · obtain ⟨m, hm, hrows, hpromised⟩ := (splitRows_eq sha256 rounded datasetId sourceSha256
      contentHashes seed validationFraction hfraction htwo).1 hadmitted
    exact ⟨m, hm, hrows, hpromised, detectSplitLeakage_singleton m⟩
  · obtain ⟨m, hm, hgroups, hpromised⟩ := (splitPreferenceHashes_eq sha256 rounded datasetId
      sourceSha256 contentHashes promptHashes seed validationFraction hfraction haligned
      htwo).1 hadmitted hprompts
    exact ⟨m, hm, hgroups, hpromised, detectPreferenceLeakage_singleton m⟩

end Results

def digestOf (c : Char) : String := String.ofList (List.replicate 64 c)

/-- Three rows, two of them of one content. -/
theorem splits_never_leak_three :
    ∃ m, splitRows String.length (fun _ _ => 1) 0 (digestOf 'a')
        [digestOf 'a', digestOf 'b', digestOf 'a'] 0 (1 / 2) = .ok m
      ∧ m.rowContentSha256 = [digestOf 'a', digestOf 'b', digestOf 'a']
      ∧ Promised [digestOf 'a', digestOf 'b', digestOf 'a']
        (splitKey String.length "coire-split-v1" 0)
        (splitTarget (fun _ _ => 1) 3 (1 / 2)) m.trainRows m.validationRows
      ∧ detectSplitLeakage [m] = .ok () :=
  (splits_never_leak String.length (fun _ _ => 1) 0 (digestOf 'a')
    [digestOf 'a', digestOf 'b', digestOf 'a'] [] 0 (1 / 2) (by norm_num)
    (by unfold Admitted; decide +kernel)).1
    ⟨digestOf 'a', by decide +kernel, digestOf 'b', by decide +kernel, by decide +kernel⟩

/-- **A dataset may be too long for its manifest**: with a million rows of one content
and one of another there is a split, and it is not returned. -/
theorem long_split_refused : splitRows String.length (fun _ _ => 1) 0 (digestOf 'a')
        (List.replicate 1000000 (digestOf 'a') ++ [digestOf 'b']) 0 (1 / 2)
      = .error .manifest := by
  refine (splitRows_eq _ _ _ _ _ _ _ (by norm_num) ⟨digestOf 'a', ?_, digestOf 'b', ?_, ?_⟩).2 ?_
  · grind
  · exact List.mem_append_right _ (List.mem_singleton_self _)
  · decide +kernel
  · intro h
    have hlength := h.2.2.1.2
    rw [List.length_append, List.length_replicate, List.length_singleton] at hlength
    omega

end DatasetSplits
