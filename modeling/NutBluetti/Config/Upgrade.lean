/-
  File:      NutBluetti/Config/Upgrade.lean
  Subject:   WHAT AN OLDER CONFIG BECOMES. The loader reads a shorter struct over one that holds the
             defaults, by its length; the length of a stored blob is rounded up, and its last bytes
             belong to no member of its version.

  * `IsVBlob v blob` -- a blob as version `v` stores it, whatever its padding holds;
  * `Upgraded` -- every member of `v` with its stored value, every later one with its default, but
    for the overrides;
  * `PaddingDefault` -- the bytes of the blob that lie over a later member are those of the
    defaults;
  * **`upgraded_iff`** -- a blob is upgraded as meant exactly then;
  * **`v13_padding_read`** -- a blob of version 13 whose padding switches off a notice that came
    later;
  * `exposed_versions`, **`upgraded_of_exposed_nil`** -- which bytes they are, and the versions that
    have none;
  * **`load_save`** -- what was saved is loaded.
-/
import NutBluetti.Config.Defaults
import NutBluetti.Config.Load

namespace NutBluetti.Config

open CLayout

/-! ## 1. What an upgrade should give -/

/-- A blob as version `v` stores it. -/
def IsVBlob (v : Nat) (blob : List UInt8) : Prop :=
  blob.length = blobSize v ∧ versionWord (fun i => blob.getD i 0) = v

instance (v : Nat) (blob : List UInt8) : Decidable (IsVBlob v blob) := by
  unfold IsVBlob
  infer_instance

/-- The versions that are read member by member. -/
def Kept (v : Nat) : Prop := 3 ≤ v ∧ v ≤ 17 ∧ ¬ (8 ≤ v ∧ v ≤ 11)

instance (v : Nat) : Decidable (Kept v) := by
  unfold Kept
  infer_instance

def keptVersions : List Nat := [3, 4, 5, 6, 7, 12, 13, 14, 15, 16, 17]

theorem Kept.mem {v : Nat} (h : Kept v) : v ∈ keptVersions := by
  obtain ⟨h3, h17, hno⟩ := h
  simp only [keptVersions, List.mem_cons, List.not_mem_nil, or_false]
  omega

/-- Where a member lies in the struct of a version, if it has it. -/
def versionSpan (v : Nat) (f : AppField) : Option (Span AppField) :=
  (place 0 (versionMembers v)).find? fun s => s.name = f

/-- The bytes a blob stores in a span of its struct. -/
def storedAt (blob : List UInt8) (s : Span AppField) : List UInt8 :=
  (List.range s.size).map fun k => blob.getD (cfgStart + s.start + k) 0

/-- The stored value of a member of the version, the default of a later one. -/
def keptValue (b : Board) (v : Nat) (blob : List UInt8) (f : AppField) : List UInt8 :=
  match versionSpan v f with
  | some s => storedAt blob s
  | none => (appConfigDefaults b).read f.span

/-- The log level: before version 6 there was `ble_probe` only. -/
def keptLogLevel (b : Board) (v : Nat) (blob : List UInt8) : List UInt8 :=
  if v < 6 then [if keptValue b v blob .bleProbe = [0] then 0 else appLogVerbose]
  else keptValue b v blob .logLevel

/-- What a member comes up with. -/
def upgradedValue (b : Board) (v : Nat) (blob : List UInt8) : AppField → List UInt8
  | .nutEnabled => if v < 15 then [1] else keptValue b v blob .nutEnabled
  | .logLevel => keptLogLevel b v blob
  | .bleProbe => [boolByte (decide (appLogVerbose ≤ (keptLogLevel b v blob).headD 0))]
  | f => keptValue b v blob f

/-- **Every member comes up as it should.** -/
def Upgraded (b : Board) (v : Nat) (blob : List UInt8) : Prop :=
  ∀ f : AppField, (appConfigLoad b (some blob) true).read f.span = upgradedValue b v blob f

/-- The bytes of the blob over a member are those of its default. Nothing is asked of a member that
    the version has. -/
def BytesDefault (b : Board) (v : Nat) (blob : List UInt8) (f : AppField) : Prop :=
  versionSpan v f = none → ∀ k < f.span.size, f.span.start + k < blob.length - cfgStart →
    blob.getD (cfgStart + f.span.start + k) 0 = appConfigDefaults b (f.span.start + k)

/-- The bytes of the blob that lie over a later member are those of its default. The NUT switch is
    set either way. -/
def PaddingDefault (b : Board) (v : Nat) (blob : List UInt8) : Prop :=
  ∀ f : AppField, f ≠ .nutEnabled → BytesDefault b v blob f

/-! ## 2. Layouts -/

/-- A member of a version lies where it lies today, before the end of that version's last one. -/
theorem versionSpan_some {v : Nat} {f : AppField} {s : Span AppField}
    (h : versionSpan v f = some s) :
    s = f.span ∧ s.start + s.size ≤ endFrom 0 (versionMembers v) := by
  have hsplit : appSpans = place 0 (versionMembers v) ++
      place (endFrom 0 (versionMembers v)) (laterMembers v) := by
    rw [← place_append, versionMembers, laterMembers, List.take_append_drop, appSpans]
  refine ⟨?_, (place_bounds (List.mem_of_find?_eq_some h)).2⟩
  have hfind : appSpans.find? (fun s => s.name = f) = some s := by
    rw [hsplit, List.find?_append]
    unfold versionSpan at h
    rw [h]
    rfl
  rw [AppField.span, hfind]
  rfl

/-- A later member lies past the end of the version's last one. -/
theorem versionSpan_none {v : Nat} {f : AppField} (h : versionSpan v f = none) :
    endFrom 0 (versionMembers v) ≤ f.span.start := by
  have hsplit : appSpans = place 0 (versionMembers v) ++
      place (endFrom 0 (versionMembers v)) (laterMembers v) := by
    rw [← place_append, versionMembers, laterMembers, List.take_append_drop, appSpans]
  have hmem := f.span_mem
  rw [hsplit] at hmem
  rcases List.mem_append.mp hmem with hmem | hmem
  · have hno := List.find?_eq_none.mp h f.span hmem
    exact absurd (by simpa using f.span_name) hno
  · exact (place_bounds hmem).1

/-- The lengths of the blobs of the versions that are kept: none is rejected, the struct is whole,
    and where only the bytes before `pve` are taken over there are no others. -/
theorem blobSize_facts {v : Nat} (h : Kept v) :
    minLen ≤ blobSize v ∧ blobSize v ≤ cfgStart + sizeofAppConfig ∧
      cfgStart + endFrom 0 (versionMembers v) ≤ blobSize v ∧
      (v ≤ 11 → blobSize v ≤ cfgStart + AppField.pve.span.start) ∧
      (v < 6 → blobSize v ≤ cfgStart + AppField.logLevel.span.start) := by
  have hall : ∀ v ∈ keptVersions, minLen ≤ blobSize v ∧ blobSize v ≤ cfgStart + sizeofAppConfig ∧
      cfgStart + endFrom 0 (versionMembers v) ≤ blobSize v ∧
      (v ≤ 11 → blobSize v ≤ cfgStart + AppField.pve.span.start) ∧
      (v < 6 → blobSize v ≤ cfgStart + AppField.logLevel.span.start) := by decide
  exact hall v h.mem

/-- `ble_probe` is older than any version that is kept; the log level came with version 6, the NUT
    switch with version 15. -/
theorem versionSpan_facts {v : Nat} (h : Kept v) :
    versionSpan v .bleProbe ≠ none ∧ (6 ≤ v → versionSpan v .logLevel ≠ none) ∧
      (15 ≤ v → versionSpan v .nutEnabled ≠ none) := by
  have hall : ∀ v ∈ keptVersions, versionSpan v .bleProbe ≠ none ∧
      (6 ≤ v → versionSpan v .logLevel ≠ none) ∧ (15 ≤ v → versionSpan v .nutEnabled ≠ none) := by
    decide
  exact hall v h.mem

/-! ## 3. What the loader makes of a blob -/

/-- The struct in memory before the overrides: the defaults, with the bytes of the blob over
    them. -/
def taken (b : Board) (blob : List UInt8) : Image :=
  (appConfigDefaults b).poke 0 (blob.drop cfgStart)

theorem versionWord_poke (img : Image) {blob : List UInt8} (h : 4 ≤ blob.length) :
    versionWord (img.poke 0 blob) = versionWord fun i => blob.getD i 0 := by
  have hbyte : ∀ i < 4, img.poke 0 blob i = blob.getD i 0 := by
    intro i hi
    unfold Image.poke
    rw [if_pos ⟨Nat.zero_le _, by omega⟩, Nat.sub_zero]
  unfold versionWord
  rw [hbyte 0 (by omega), hbyte 1 (by omega), hbyte 2 (by omega), hbyte 3 (by omega)]

/-- The bytes taken over from the blob, where it is one of a version that is kept. -/
theorem copy_blob (b : Board) {v : Nat} (hv : Kept v) {blob : List UInt8}
    (hlen : blob.length = blobSize v) {i : Nat} (hi : i < sizeofAppConfig) :
    (appConfigDefaults b).copy (((blobOf (appConfigDefaults b)).poke 0 blob).from cfgStart)
      (trustedLen v) i = taken b blob i := by
  obtain ⟨-, -, -, hpve, -⟩ := blobSize_facts hv
  have hget : (blob.drop cfgStart).getD i 0 = blob.getD (cfgStart + i) 0 := by
    simp [List.getD_eq_getElem?_getD]
  have hdrop : (blob.drop cfgStart).length = blob.length - cfgStart := List.length_drop
  have hseed : blobOf (appConfigDefaults b) (cfgStart + i) = appConfigDefaults b i := by
    unfold blobOf
    rw [if_neg (by omega), Nat.add_sub_cancel_left]
  unfold Image.copy taken
  by_cases hin : i < blob.length - cfgStart
  · -- a byte of the blob: it is before `pve` where only those are taken over
    have htrust : i < trustedLen v := by
      unfold trustedLen
      split
      · have := hpve ‹_›
        omega
      · exact hi
    rw [if_pos htrust]
    unfold Image.from Image.poke
    rw [if_pos ⟨Nat.zero_le _, by omega⟩, if_pos ⟨Nat.zero_le _, by omega⟩, Nat.sub_zero,
      Nat.sub_zero, hget]
  · have hrest : ((blobOf (appConfigDefaults b)).poke 0 blob).from cfgStart i =
        appConfigDefaults b i := by
      unfold Image.from Image.poke
      rw [if_neg (by omega), hseed]
    rw [hrest, ite_self]
    unfold Image.poke
    rw [if_neg (by omega)]

/-- **The loader** takes a blob of a kept version over and applies the overrides of its version. -/
theorem load_eq (b : Board) {v : Nat} (hv : Kept v) {blob : List UInt8} (hblob : IsVBlob v blob) :
    appConfigLoad b (some blob) true =
      overrides v ((appConfigDefaults b).copy
        (((blobOf (appConfigDefaults b)).poke 0 blob).from cfgStart) (trustedLen v)) := by
  obtain ⟨hlen, hword⟩ := hblob
  obtain ⟨hmin, hmax, -, -, -⟩ := blobSize_facts hv
  have hbounds : minLen = 618 ∧ cfgStart + sizeofAppConfig = 1832 := by decide +kernel
  obtain ⟨h3, h17, -⟩ := hv
  have hversion : versionWord ((blobOf (appConfigDefaults b)).poke 0 blob) = v := by
    rw [versionWord_poke _ (by omega), hword]
  unfold appConfigLoad
  simp only [Bool.not_true, Bool.false_eq_true, if_false, hversion]
  rw [if_neg (by unfold maxOnDisk; omega), if_neg (by unfold cfgVersion; omega)]

/-! ## 4. The overrides -/

/-- A byte decides: it is zero exactly when the member reads as zero. -/
theorem byte_ne_zero_iff (img : Image) {f : AppField} (h : f.span.size = 1) :
    img f.span.start ≠ 0 ↔ img.read f.span ≠ [0] := by
  rw [read_byte img h]
  simp

/-- The NUT switch, set for a version that had none. -/
def nutOverride (v : Nat) (cfg : Image) : Image :=
  if v < 15 then set cfg .nutEnabled [1] else cfg

/-- The log level, derived for a version that had `ble_probe` only. -/
def logOverride (v : Nat) (cfg : Image) : Image :=
  if v < 6 then
    set cfg .logLevel [if cfg AppField.bleProbe.span.start ≠ 0 then appLogVerbose else 0]
  else cfg

theorem overrides_eq {v : Nat} (hno : ¬ (8 ≤ v ∧ v ≤ 11)) (cfg : Image) :
    overrides v cfg = set (logOverride v (nutOverride v cfg)) .bleProbe
      [boolByte (decide (appLogVerbose ≤
        logOverride v (nutOverride v cfg) AppField.logLevel.span.start))] := by
  unfold overrides
  simp only [if_neg hno]
  rfl

theorem read_nutOverride (v : Nat) (cfg : Image) {f : AppField} (h : f ≠ .nutEnabled) :
    (nutOverride v cfg).read f.span = cfg.read f.span := by
  unfold nutOverride
  split
  · exact read_set_other cfg (Nat.le_of_eq rfl) h
  · rfl

theorem read_logOverride (v : Nat) (cfg : Image) {f : AppField} (h : f ≠ .logLevel) :
    (logOverride v cfg).read f.span = cfg.read f.span := by
  unfold logOverride
  split
  · exact read_set_other cfg (Nat.le_of_eq rfl) h
  · rfl

section Overrides

variable {v : Nat} (hno : ¬ (8 ≤ v ∧ v ≤ 11)) (cfg : Image)
include hno

/-- A member that no override is about. -/
theorem read_overrides_other {f : AppField} (hnut : f ≠ .nutEnabled) (hlog : f ≠ .logLevel)
    (hprobe : f ≠ .bleProbe) : (overrides v cfg).read f.span = cfg.read f.span := by
  rw [overrides_eq hno, read_set_other _ (Nat.le_of_eq rfl) hprobe, read_logOverride _ _ hlog,
    read_nutOverride _ _ hnut]

theorem read_overrides_nutEnabled :
    (overrides v cfg).read AppField.nutEnabled.span =
      if v < 15 then [1] else cfg.read AppField.nutEnabled.span := by
  rw [overrides_eq hno, read_set_other _ (Nat.le_of_eq rfl) (by decide),
    read_logOverride _ _ (by decide)]
  unfold nutOverride
  split
  · exact read_set_self cfg rfl
  · rfl

theorem read_overrides_logLevel :
    (overrides v cfg).read AppField.logLevel.span =
      if v < 6 then [if cfg.read AppField.bleProbe.span = [0] then 0 else appLogVerbose]
      else cfg.read AppField.logLevel.span := by
  rw [overrides_eq hno, read_set_other _ (Nat.le_of_eq rfl) (by decide)]
  unfold logOverride
  split
  · rw [read_set_self _ rfl]
    have hprobe := byte_ne_zero_iff (nutOverride v cfg) (f := .bleProbe) rfl
    rw [read_nutOverride v cfg (by decide)] at hprobe
    by_cases h0 : cfg.read AppField.bleProbe.span = [0]
    · rw [if_pos h0, if_neg fun hne => hprobe.mp hne h0]
    · rw [if_neg h0, if_pos (hprobe.mpr h0)]
  · exact read_nutOverride v cfg (by decide)

/-- `ble_probe` goes with the log level. -/
theorem read_overrides_bleProbe :
    (overrides v cfg).read AppField.bleProbe.span =
      [boolByte (decide (appLogVerbose ≤
        ((overrides v cfg).read AppField.logLevel.span).headD 0))] := by
  have hlog : (overrides v cfg).read AppField.logLevel.span =
      [logOverride v (nutOverride v cfg) AppField.logLevel.span.start] := by
    rw [overrides_eq hno, read_set_other _ (Nat.le_of_eq rfl) (by decide)]
    exact read_byte _ rfl
  rw [hlog, overrides_eq hno]
  exact read_set_self _ rfl

end Overrides

/-! ## 5. When a blob is upgraded as meant -/

section Upgrade

variable (b : Board) {v : Nat} (hv : Kept v) {blob : List UInt8}

/-- A member that the blob covers is taken over. -/
theorem read_taken_covered {f : AppField}
    (h : cfgStart + f.span.start + f.span.size ≤ blob.length) :
    (taken b blob).read f.span = storedAt blob f.span := by
  have hcover : f.span.start + f.span.size ≤ (blob.drop cfgStart).length := by
    rw [List.length_drop]
    omega
  unfold taken
  rw [read_poke_front _ hcover]
  unfold storedAt
  refine List.map_inj_left.mpr fun k _ => ?_
  simp [List.getD_eq_getElem?_getD, Nat.add_assoc]

include hv in
/-- A member of the version is taken over with its stored value. -/
theorem read_taken_some (hlen : blob.length = blobSize v) {f : AppField} {s : Span AppField}
    (h : versionSpan v f = some s) : (taken b blob).read f.span = storedAt blob s := by
  obtain ⟨rfl, hend⟩ := versionSpan_some h
  obtain ⟨-, -, hfit, -, -⟩ := blobSize_facts hv
  exact read_taken_covered b (by omega)

/-- A later member keeps its default exactly when the bytes of the blob over it are its default. -/
theorem read_taken_default_iff {f : AppField} :
    (taken b blob).read f.span = (appConfigDefaults b).read f.span ↔
      ∀ k < f.span.size, f.span.start + k < blob.length - cfgStart →
        blob.getD (cfgStart + f.span.start + k) 0 = appConfigDefaults b (f.span.start + k) := by
  unfold taken
  rw [read_poke_front_iff, List.length_drop]
  refine forall₂_congr fun k _ => forall_congr' fun _ => ?_
  simp [List.getD_eq_getElem?_getD, Nat.add_assoc]

include hv in
/-- Before the overrides a member is as it should be exactly when its bytes are. -/
theorem read_taken_iff (hlen : blob.length = blobSize v) (f : AppField) :
    (taken b blob).read f.span = keptValue b v blob f ↔ BytesDefault b v blob f := by
  unfold keptValue BytesDefault
  cases hspan : versionSpan v f with
  | some s =>
      simp only [read_taken_some b hv hlen hspan, reduceCtorEq, false_implies]
  | none =>
      simp only [read_taken_default_iff, true_implies]

include hv in
/-- The bytes taken over, member by member. -/
theorem read_copy (hlen : blob.length = blobSize v) (f : AppField) :
    ((appConfigDefaults b).copy (((blobOf (appConfigDefaults b)).poke 0 blob).from cfgStart)
      (trustedLen v)).read f.span = (taken b blob).read f.span := by
  have hend : f.span.start + f.span.size ≤ sizeofAppConfig :=
    Nat.le_trans (place_bounds f.span_mem).2 (le_alignUp _ _)
  exact read_eq_iff.mpr fun k hk => copy_blob b hv hlen (by omega)

include hv in
/-- A member that the version has, or that lies past the blob, is taken over as it should be. -/
theorem keptValue_eq (hlen : blob.length = blobSize v) {f : AppField}
    (h : versionSpan v f ≠ none ∨ blob.length ≤ cfgStart + f.span.start) :
    (taken b blob).read f.span = keptValue b v blob f := by
  refine (read_taken_iff b hv hlen f).mpr fun hnone k hk hlt => ?_
  rcases h with h | h
  · exact absurd hnone h
  · omega

include hv in
/-- The log level comes up as it should, whatever the padding holds. -/
theorem read_logLevel (hblob : IsVBlob v blob) :
    (appConfigLoad b (some blob) true).read AppField.logLevel.span = keptLogLevel b v blob := by
  have hlen := hblob.1
  obtain ⟨hprobe, hlog, -⟩ := versionSpan_facts hv
  rw [load_eq b hv hblob, read_overrides_logLevel hv.2.2, read_copy b hv hlen, read_copy b hv hlen,
    keptValue_eq b hv hlen (.inl hprobe)]
  unfold keptLogLevel
  by_cases h6 : v < 6
  · rw [if_pos h6, if_pos h6]
  · rw [if_neg h6, if_neg h6, keptValue_eq b hv hlen (.inl (hlog (by omega)))]

include hv in
/-- So does `ble_probe`. -/
theorem read_bleProbe (hblob : IsVBlob v blob) :
    (appConfigLoad b (some blob) true).read AppField.bleProbe.span =
      upgradedValue b v blob .bleProbe := by
  have hlog := read_logLevel b hv hblob
  rw [load_eq b hv hblob] at hlog ⊢
  rw [read_overrides_bleProbe hv.2.2, hlog]
  rfl

include hv in
/-- So does the NUT switch. -/
theorem read_nutEnabled (hblob : IsVBlob v blob) :
    (appConfigLoad b (some blob) true).read AppField.nutEnabled.span =
      upgradedValue b v blob .nutEnabled := by
  obtain ⟨-, -, hnut⟩ := versionSpan_facts hv
  rw [load_eq b hv hblob, read_overrides_nutEnabled hv.2.2, read_copy b hv hblob.1]
  show _ = if v < 15 then [1] else keptValue b v blob .nutEnabled
  by_cases h15 : v < 15
  · rw [if_pos h15, if_pos h15]
  · rw [if_neg h15, if_neg h15, keptValue_eq b hv hblob.1 (.inl (hnut (by omega)))]

include hv in
/-- A member that no override is about comes up as it was taken over. -/
theorem read_load_other (hblob : IsVBlob v blob) {f : AppField} (hnut : f ≠ .nutEnabled)
    (hlog : f ≠ .logLevel) (hprobe : f ≠ .bleProbe) :
    (appConfigLoad b (some blob) true).read f.span = (taken b blob).read f.span := by
  rw [load_eq b hv hblob, read_overrides_other hv.2.2 _ hnut hlog hprobe, read_copy b hv hblob.1]

include hv in
/-- It does so as it should exactly when the bytes over it are right. -/
theorem read_other_iff (hblob : IsVBlob v blob) {f : AppField} (hnut : f ≠ .nutEnabled)
    (hlog : f ≠ .logLevel) (hprobe : f ≠ .bleProbe) :
    (appConfigLoad b (some blob) true).read f.span = upgradedValue b v blob f ↔
      BytesDefault b v blob f := by
  have hvalue : upgradedValue b v blob f = keptValue b v blob f := by
    cases f <;> first | contradiction | rfl
  rw [read_load_other b hv hblob hnut hlog hprobe, hvalue]
  exact read_taken_iff b hv hblob.1 f

include hv in
/-- No byte of the padding lies over `ble_probe`, nor over a log level that the version does not
    have. -/
theorem bytesDefault_log (hlen : blob.length = blobSize v) :
    BytesDefault b v blob .bleProbe ∧ BytesDefault b v blob .logLevel := by
  obtain ⟨hprobe, hlog, -⟩ := versionSpan_facts hv
  refine ⟨fun h => absurd h hprobe, fun h k hk hlt => ?_⟩
  by_cases h6 : v < 6
  · have hsize := (blobSize_facts hv).2.2.2.2 h6
    omega
  · exact absurd h (hlog (by omega))

include hv in
/-- What came up as meant had the bytes of the defaults in its padding. -/
theorem paddingDefault_of_upgraded (hblob : IsVBlob v blob) (h : Upgraded b v blob) :
    PaddingDefault b v blob := by
  intro f hnut
  by_cases hlog : f = .logLevel
  · subst hlog
    exact (bytesDefault_log b hv hblob.1).2
  by_cases hprobe : f = .bleProbe
  · subst hprobe
    exact (bytesDefault_log b hv hblob.1).1
  exact (read_other_iff b hv hblob hnut hlog hprobe).mp (h f)

include hv in
/-- With the bytes of the defaults in the padding every member comes up as meant. -/
theorem upgraded_of_paddingDefault (hblob : IsVBlob v blob) (h : PaddingDefault b v blob) :
    Upgraded b v blob := by
  intro f
  by_cases hnut : f = .nutEnabled
  · subst hnut
    exact read_nutEnabled b hv hblob
  by_cases hlog : f = .logLevel
  · subst hlog
    exact read_logLevel b hv hblob
  by_cases hprobe : f = .bleProbe
  · subst hprobe
    exact read_bleProbe b hv hblob
  exact (read_other_iff b hv hblob hnut hlog hprobe).mpr (h f hnut)

end Upgrade

/-- **A blob of a kept version is upgraded as meant exactly when** the bytes that lie past its last
    member and over a later one are those of the defaults. -/
theorem upgraded_iff (b : Board) {v : Nat} (hv : Kept v) {blob : List UInt8}
    (hblob : IsVBlob v blob) : Upgraded b v blob ↔ PaddingDefault b v blob :=
  ⟨paddingDefault_of_upgraded b hv hblob, upgraded_of_paddingDefault b hv hblob⟩

/-- A unit with the settings of Kconfig.projbuild. -/
def kconfigBoard : Board where
  wifiSsid := ascii "myssid"
  wifiPassword := ascii "mypassword"
  bleAddress := []
  upsName := ascii "bluetti"
  nutTcpPort := 3493
  pollIntervalMs := 5000
  batteryLowPct := 20
  acRatingW := 200
  runtimeLowS := 300
  statusLedGpio := 48
  mac4 := 0xA1
  mac5 := 0xB2
  salt := List.replicate 16 7
  sha256 := fun _ => List.replicate 32 9
  salt_length := rfl
  sha256_length := fun _ => rfl

/-- A blob of version 7 with zeros everywhere. -/
theorem upgraded_iff_v7 :
    Upgraded kconfigBoard 7 (le16 7 ++ List.replicate (blobSize 7 - 2) 0) ↔
      PaddingDefault kconfigBoard 7 (le16 7 ++ List.replicate (blobSize 7 - 2) 0) :=
  upgraded_iff kconfigBoard (by decide) (by decide +kernel)

/-- A blob of version 13 with the Telegram notice of a host on, and zeros in the rest: three of them
    are padding. -/
def v13Blob : List UInt8 :=
  le16 13 ++ List.replicate (cfgStart + AppField.tgOnPveHost.span.start - 2) 0 ++ [1, 0, 0, 0]

/-- **The padding of version 13 is read** as the Telegram notice of a guest, which came later and is
    on by default. -/
theorem v13_padding_read :
    Kept 13 ∧ IsVBlob 13 v13Blob ∧ versionSpan 13 .tgOnPveGuest = none ∧
      (appConfigDefaults kconfigBoard).read AppField.tgOnPveGuest.span = [1] ∧
      (appConfigLoad kconfigBoard (some v13Blob) true).read AppField.tgOnPveGuest.span = [0] ∧
      ¬ Upgraded kconfigBoard 13 v13Blob := by
  have hkept : Kept 13 := by decide
  have hblob : IsVBlob 13 v13Blob := by decide +kernel
  have hspan : versionSpan 13 .tgOnPveGuest = none := by decide
  have hdef := defaults_tgOnPveGuest kconfigBoard
  have hread : (appConfigLoad kconfigBoard (some v13Blob) true).read AppField.tgOnPveGuest.span =
      [0] := by
    have hcover : cfgStart + AppField.tgOnPveGuest.span.start + AppField.tgOnPveGuest.span.size ≤
        v13Blob.length := by
      decide +kernel
    rw [read_load_other _ hkept hblob (by decide) (by decide) (by decide),
      read_taken_covered _ hcover]
    decide +kernel
  refine ⟨hkept, hblob, hspan, hdef, hread, fun h => ?_⟩
  have hup := h .tgOnPveGuest
  have hvalue : upgradedValue kconfigBoard 13 v13Blob .tgOnPveGuest = [1] := by
    show keptValue kconfigBoard 13 v13Blob .tgOnPveGuest = [1]
    rw [keptValue, hspan]
    exact hdef
  rw [hread, hvalue] at hup
  exact absurd hup (by decide)

/-! ## 6. Which bytes they are -/

/-- The padding of a version's blob: from the end of the last member to that of the blob. -/
def padding (v : Nat) : List Nat :=
  List.range' (endFrom 0 (versionMembers v)) (blobSize v - cfgStart - endFrom 0 (versionMembers v))

/-- The offsets at which it lies over a later member. -/
def exposed (v : Nat) : List Nat :=
  (padding v).filter fun i => appSpans.any fun s =>
    versionSpan v s.name = none && s.name ≠ .nutEnabled && s.start ≤ i && i < s.start + s.size

theorem AppField.span_of_mem {s : Span AppField} (h : s ∈ appSpans) : s.name.span = s := by
  have hall : ∀ s ∈ appSpans, s.name.span = s := by decide
  exact hall s h

/-- The condition is one on these few bytes. -/
theorem paddingDefault_iff (b : Board) {v : Nat} {blob : List UInt8}
    (hlen : blob.length = blobSize v) :
    PaddingDefault b v blob ↔
      ∀ i ∈ exposed v, blob.getD (cfgStart + i) 0 = appConfigDefaults b i := by
  constructor
  · intro h i hi
    obtain ⟨hlt, hany⟩ := List.mem_filter.mp hi
    obtain ⟨s, hs, hcond⟩ := List.any_eq_true.mp hany
    simp only [Bool.and_eq_true, decide_eq_true_eq] at hcond
    obtain ⟨⟨⟨hspan, hnut⟩, hle⟩, hend⟩ := hcond
    obtain ⟨hfrom, hto⟩ := List.mem_range'_1.mp hlt
    have hbyte := h s.name hnut hspan (i - s.start)
    rw [AppField.span_of_mem hs, Nat.add_assoc, Nat.add_sub_cancel' hle] at hbyte
    exact hbyte (by omega) (by omega)
  · intro h f hnut hspan k hk hlt
    have hmem : f.span.start + k ∈ exposed v := by
      have hend := versionSpan_none hspan
      refine List.mem_filter.mpr ⟨List.mem_range'_1.mpr ⟨by omega, by omega⟩, ?_⟩
      refine List.any_eq_true.mpr ⟨f.span, f.span_mem, ?_⟩
      simp only [f.span_name, Bool.and_eq_true, decide_eq_true_eq]
      exact ⟨⟨⟨hspan, hnut⟩, by omega⟩, by omega⟩
    rw [Nat.add_assoc]
    exact h _ hmem

/-- The versions that have any: the LED pin under version 3, the battery capacity under 5, the
    fallback AP under 6, the two Telegram notices under 13 and 17. -/
theorem exposed_versions :
    keptVersions.map (fun v => (v, exposed v)) =
      [(3, [614, 615]), (4, []), (5, [618, 619]), (6, [621, 622, 623]), (7, []), (12, []),
        (13, [1821]), (14, []), (15, []), (16, []), (17, [1826])] := by
  decide

/-- **The other versions** are upgraded as meant, whatever their padding holds. -/
theorem upgraded_of_exposed_nil (b : Board) {v : Nat} (hv : v ∈ [4, 7, 12, 14, 15, 16])
    {blob : List UInt8} (hblob : IsVBlob v blob) : Upgraded b v blob := by
  have hall : ∀ v ∈ [4, 7, 12, 14, 15, 16], Kept v ∧ exposed v = [] := by
    decide
  obtain ⟨hkept, hnil⟩ := hall v hv
  refine upgraded_of_paddingDefault b hkept hblob ((paddingDefault_iff b hblob.1).mpr ?_)
  rw [hnil]
  exact fun i hi => absurd hi List.not_mem_nil

/-! ## 7. Saving -/

theorem appConfigSave_getD (cfg : Image) {i : Nat} (h : i < sizeofBlob) :
    (appConfigSave cfg).getD i 0 = blobOf cfg i := by
  have hlen : i < (appConfigSave cfg).length := by
    simpa [appConfigSave] using h
  rw [List.getD_eq_getElem _ _ hlen]
  simp [appConfigSave]

/-- The bytes of a struct that was saved. -/
theorem saved_byte (img : Image) (cfg : Image) {i : Nat} (h : i < sizeofBlob) :
    img.poke 0 (appConfigSave cfg) i = blobOf cfg i := by
  have hlen : (appConfigSave cfg).length = sizeofBlob := by simp [appConfigSave]
  unfold Image.poke
  rw [if_pos ⟨Nat.zero_le _, by omega⟩, Nat.sub_zero]
  exact appConfigSave_getD cfg h

/-- **What was saved is loaded**, but for `ble_probe`, which goes with the log level. -/
theorem load_save (b : Board) (cfg : Image) {f : AppField} (hprobe : f ≠ .bleProbe) :
    (appConfigLoad b (some (appConfigSave cfg)) true).read f.span = cfg.read f.span := by
  have hsizes : sizeofBlob = 1832 ∧ sizeofAppConfig = 1828 ∧ minLen = 618 := by decide +kernel
  obtain ⟨hblob, happ, hmin⟩ := hsizes
  have hlen : (appConfigSave cfg).length = sizeofBlob := by simp [appConfigSave]
  have hversion :
      versionWord ((blobOf (appConfigDefaults b)).poke 0 (appConfigSave cfg)) = cfgVersion := by
    unfold versionWord
    rw [saved_byte _ _ (by omega), saved_byte _ _ (by omega), saved_byte _ _ (by omega),
      saved_byte _ _ (by omega)]
    rfl
  have hload : appConfigLoad b (some (appConfigSave cfg)) true =
      overrides cfgVersion ((appConfigDefaults b).copy
        (((blobOf (appConfigDefaults b)).poke 0 (appConfigSave cfg)).from cfgStart)
        sizeofAppConfig) := by
    unfold appConfigLoad
    simp only [Bool.not_true, Bool.false_eq_true, if_false, hversion]
    rw [if_neg (by unfold maxOnDisk; omega), if_neg (by unfold cfgVersion; omega)]
    rfl
  have hend : f.span.start + f.span.size ≤ sizeofAppConfig :=
    Nat.le_trans (place_bounds f.span_mem).2 (le_alignUp _ _)
  -- no other override is about today's version
  have hquiet : ∀ img, logOverride cfgVersion (nutOverride cfgVersion img) = img := fun _ => rfl
  rw [hload, overrides_eq (by decide), read_set_other _ (Nat.le_of_eq rfl) hprobe, hquiet]
  refine read_eq_iff.mpr fun k hk => ?_
  unfold Image.copy Image.from
  rw [if_pos (by omega), saved_byte _ _ (by unfold cfgStart; omega)]
  unfold blobOf
  rw [if_neg (by omega), Nat.add_sub_cancel_left]

end NutBluetti.Config
