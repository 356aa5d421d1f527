import Orchestrator.Runtime.Mounts

/-!
# Image volumes beside the other mounts

The validator compares the components of an image volume, after `.` and `..` are gone, with three of
the five targets that an image may not touch; the mounts are told apart by their texts. So the targets
are distinct if and only if the volumes say what they mean (`Apart`): no two of them lead to one place,
none leads to a fixed directory by another text, and none lies in the credential or the build cache.
-/

namespace Orchestrator.Provision

open Paths

variable {host : HostDirectories} {image : ImageInspect} {mounts : List Mount}

/-! ## What the mounts are for -/

def fixedTargets : List String := fixedMounts.map Prod.snd

/-- The targets that image volumes may not be equal to or inside. -/
def reservedTargets : List String :=
  [containerWorktree, containerSession, containerCredential, containerCargoTarget,
    containerBuildCache]

theorem target_of_bindMount {source target : String} {m : Mount}
    (h : bindMount host source target = .ok m) : m.target = target := by
  obtain ⟨_, -, h⟩ := Txn.bind_eq_ok.1 h
  obtain rfl := Txn.pure_eq_ok.1 h
  rfl

theorem target_of_writableMount {source target purpose : String} {m : Mount}
    (h : writableMount host source target purpose = .ok m) : m.target = target := by
  obtain ⟨-, h⟩ := Txn.seq_eq_ok.1 h
  obtain ⟨-, h⟩ := Txn.seq_eq_ok.1 h
  exact target_of_bindMount h

theorem targets_of_mapM {α : Type} {f : α → Except RuntimeError Mount} {target : α → String}
    (hf : ∀ a m, f a = .ok m → m.target = target a) {l : List α} (h : l.mapM f = .ok mounts) :
    mounts.map Mount.target = l.map target := by
  induction l generalizing mounts with
  | nil =>
    obtain rfl := Txn.pure_eq_ok.1 (List.mapM_nil (m := Except RuntimeError) (f := f) ▸ h)
    rfl
  | cons a l ih =>
    rw [List.mapM_cons] at h
    obtain ⟨m, hm, h⟩ := Txn.bind_eq_ok.1 h
    obtain ⟨rest, hrest, h⟩ := Txn.bind_eq_ok.1 h
    obtain rfl := Txn.pure_eq_ok.1 h
    rw [List.map_cons, List.map_cons, hf a m hm, ih hrest]

theorem targets_of_imageVolumeMounts {imageRoot : String} {seen volumes : List String}
    (hdistinct : volumes.Nodup) (h : imageVolumeMounts host imageRoot seen volumes = .ok mounts) :
    mounts.map Mount.target = volumes.filter (· ∉ seen) := by
  induction volumes generalizing seen mounts with
  | nil =>
    obtain rfl : [] = mounts := Except.ok.inj h
    rfl
  | cons target more ih =>
    obtain ⟨hnew, hdistinct⟩ := List.nodup_cons.1 hdistinct
    rw [imageVolumeMounts] at h
    split at h
    · rename_i hseen
      rw [List.filter_cons_of_neg (by simpa using hseen)]
      exact ih hdistinct h
    · rename_i hseen
      obtain ⟨m, hm, h⟩ := Txn.bind_eq_ok.1 h
      obtain ⟨rest, hrest, h⟩ := Txn.bind_eq_ok.1 h
      obtain rfl := Txn.pure_eq_ok.1 h
      rw [List.filter_cons_of_pos (by simpa using hseen), List.map_cons,
        target_of_writableMount hm, ih hdistinct hrest]
      congr 1
      refine List.filter_congr fun t ht => ?_
      have hne : t ≠ target := fun heq => hnew (heq ▸ ht)
      simp [hne]

theorem nodup_imageVolumeTargets (image : ImageInspect) : (imageVolumeTargets image).Nodup :=
  ((List.perm_insertionSort (· ≤ ·) image.volumes).nodup_iff).2 image.distinct

theorem mem_imageVolumeTargets {target : String} :
    target ∈ imageVolumeTargets image ↔ target ∈ image.volumes :=
  List.mem_insertionSort (· ≤ ·)

theorem targets_of_writableContainerMounts {runtimeRoot scope : String}
    (h : writableContainerMounts host runtimeRoot scope image = .ok mounts) :
    mounts.map Mount.target =
      fixedTargets ++ (imageVolumeTargets image).filter (· ∉ fixedTargets) := by
  obtain ⟨-, h⟩ := Txn.seq_eq_ok.1 h
  obtain ⟨-, h⟩ := Txn.seq_eq_ok.1 h
  obtain ⟨-, h⟩ := Txn.seq_eq_ok.1 h
  obtain ⟨fixed, hfixed, h⟩ := Txn.bind_eq_ok.1 h
  obtain ⟨-, h⟩ := Txn.seq_eq_ok.1 h
  obtain ⟨volumes, hvolumes, h⟩ := Txn.bind_eq_ok.1 h
  obtain rfl := Txn.pure_eq_ok.1 h
  rw [List.map_append, targets_of_imageVolumeMounts (nodup_imageVolumeTargets image) hvolumes,
    targets_of_mapM (fun a m => target_of_writableMount) hfixed]
  rfl

/-- The targets besides those of `writable_container_mounts`. -/
def ownTargets (credential buildCache : Bool) : List String :=
  [containerCargoTarget, containerWorktree, containerSession] ++
    (if credential then [containerCredential] else []) ++
    if buildCache then [containerBuildCache] else []

theorem targets_of_executionBindMounts {layout : ExecutionLayout} {credential : Option String}
    (h : executionBindMounts host layout credential = .ok mounts) :
    mounts.map Mount.target = [containerWorktree, containerSession] ++
      if credential.isSome then [containerCredential] else [] := by
  obtain ⟨workspace, hworkspace, h⟩ := Txn.bind_eq_ok.1 h
  obtain ⟨session, hsession, h⟩ := Txn.bind_eq_ok.1 h
  have hworkspace := target_of_bindMount hworkspace
  have hsession := target_of_bindMount hsession
  cases credential with
  | none =>
    obtain rfl := Txn.pure_eq_ok.1 h
    simp [hworkspace, hsession]
  | some credential =>
    obtain ⟨canonical, -, h⟩ := Txn.bind_eq_ok.1 h
    obtain ⟨m, hm, h⟩ := Txn.bind_eq_ok.1 h
    obtain rfl := Txn.pure_eq_ok.1 h
    simp [hworkspace, hsession, target_of_bindMount hm]

theorem targets_of_planBuildCache {root : Option String} {requirement : RuntimeRequirement}
    {key : String} {id : ExecutionId} {mount : Option Mount}
    (h : planBuildCache host root requirement key id = .ok mount) :
    mount.toList.map Mount.target = if mount.isSome then [containerBuildCache] else [] := by
  cases mount with
  | none => rfl
  | some mount =>
    unfold planBuildCache at h
    split at h
    · cases h
    · split at h
      · cases h
      · obtain ⟨-, h⟩ := Txn.seq_eq_ok.1 h
        obtain ⟨m, hm, h⟩ := Txn.bind_eq_ok.1 h
        obtain rfl := Option.some.inj (Txn.pure_eq_ok.1 h)
        simp [target_of_bindMount hm]

theorem targets_of_agentMounts {layout : ExecutionLayout} {credential cacheRoot : Option String}
    {requirement : RuntimeRequirement} {key : String} {id : ExecutionId}
    (h : agentMounts host layout credential cacheRoot requirement key id image = .ok mounts) :
    ∃ buildCache, mounts.map Mount.target =
      fixedTargets ++ (imageVolumeTargets image).filter (· ∉ fixedTargets) ++
        ownTargets credential.isSome buildCache := by
  obtain ⟨execution, hexecution, h⟩ := Txn.bind_eq_ok.1 h
  obtain ⟨writable, hwritable, h⟩ := Txn.bind_eq_ok.1 h
  obtain ⟨cargo, hcargo, h⟩ := Txn.bind_eq_ok.1 h
  obtain ⟨cache, hcache, h⟩ := Txn.bind_eq_ok.1 h
  obtain rfl := Txn.pure_eq_ok.1 h
  have hcargo : cargo.target = containerCargoTarget := by
    obtain ⟨-, hcargo⟩ := Txn.seq_eq_ok.1 hcargo
    obtain ⟨-, hcargo⟩ := Txn.seq_eq_ok.1 hcargo
    exact target_of_writableMount hcargo
  refine ⟨cache.isSome, ?_⟩
  rw [List.map_append, List.map_append, List.map_append,
    targets_of_writableContainerMounts hwritable, targets_of_executionBindMounts hexecution,
    targets_of_planBuildCache hcache]
  simp [ownTargets, hcargo]

/-! ## Where they lead -/

def Inside (container target : String) : Prop :=
  ∃ outer inner, normalise container = some outer ∧ normalise target = some inner ∧
    outer <+: inner

/-- The volumes of an image that say what they mean. -/
structure Apart (volumes : List String) : Prop where
  distinct : ∀ t ∈ volumes, ∀ u ∈ volumes, normalise t = normalise u → t = u
  fixed : ∀ t ∈ volumes, ∀ u ∈ fixedTargets, normalise t = normalise u → t = u
  unreserved : ∀ t ∈ volumes, (normalise t).bind List.head? ∉
    [some "autospec-credential", some "sccache"]

theorem validateImageVolume_spec {target : String} (h : validateImageVolume target = .ok ()) :
    ∃ first rest, normalise target = some (first :: rest) ∧ first ∉ reservedComponents := by
  unfold validateImageVolume at h
  split at h
  · cases h
  · rename_i habsolute
    split at h
    · cases h
    · rename_i components hcomponents
      split at h
      · cases h
      · rename_i hfirst
        cases components with
        | nil => simp at hfirst
        | cons first rest =>
          refine ⟨first, rest, ?_, by simpa using hfirst⟩
          rw [normalise, if_pos (by simpa using habsolute), hcomponents]

theorem forM_eq_ok {α ε : Type} {f : α → Except ε Unit} {l : List α} (h : l.forM f = .ok ()) :
    ∀ a ∈ l, f a = .ok () := by
  induction l with
  | nil => simp
  | cons a l ih =>
    obtain ⟨hhead, htail⟩ := Txn.seq_eq_ok.1 (show (f a >>= fun _ => l.forM f) = .ok () from h)
    exact List.forall_mem_cons.2 ⟨hhead, ih htail⟩

theorem validateReservedImageVolumes_spec {images : List ImageInspect}
    (h : validateReservedImageVolumes images = .ok ()) (himage : image ∈ images) {target : String}
    (ht : target ∈ image.volumes) : validateImageVolume target = .ok () :=
  forM_eq_ok h target (List.mem_flatMap.2 ⟨image, himage, mem_imageVolumeTargets.2 ht⟩)

/-- The targets that do not come from the image lead to different places. -/
theorem normalise_static : ∀ t ∈ fixedTargets ++ reservedTargets,
    ∀ u ∈ fixedTargets ++ reservedTargets, normalise t = normalise u → t = u := by
  decide +kernel

theorem normalise_reserved : ∀ u ∈ reservedTargets,
    ∃ name ∈ reservedComponents ++ ["autospec-credential", "sccache"],
      normalise u = some [name] := by
  decide +kernel

theorem own_subset_reserved (credential buildCache : Bool) :
    ∀ t ∈ ownTargets credential buildCache, t ∈ reservedTargets := by
  revert credential buildCache
  decide +kernel

theorem nodup_static (credential buildCache : Bool) :
    (fixedTargets ++ ownTargets credential buildCache).Nodup := by
  revert credential buildCache
  decide +kernel

section
variable {t u : String} (hvalid : ∀ t ∈ image.volumes, validateImageVolume t = .ok ())
include hvalid

/-- Whether a volume is inside one of the reserved targets shows in its first component. -/
theorem inside_reserved (ht : t ∈ image.volumes) :
    (∃ u ∈ reservedTargets, Inside u t) ↔
      (normalise t).bind List.head? ∈ [some "autospec-credential", some "sccache"] := by
  obtain ⟨first, rest, hnormal, hfirst⟩ := validateImageVolume_spec (hvalid t ht)
  rw [hnormal]
  constructor
  · rintro ⟨u, hu, outer, inner, houter, hinner, hprefix⟩
    obtain ⟨name, hname, hnormal'⟩ := normalise_reserved u hu
    obtain rfl := Option.mem_unique hnormal' houter
    obtain rfl := Option.mem_unique hnormal hinner
    obtain rfl : name = first := (List.cons_prefix_cons.1 hprefix).1
    rcases List.mem_append.1 hname with hreserved | hname
    · exact absurd hreserved hfirst
    · simpa using hname
  · intro hhead
    have hcase : first = "autospec-credential" ∨ first = "sccache" := by simpa using hhead
    rcases hcase with rfl | rfl
    · exact ⟨containerCredential, by decide, ["autospec-credential"], _, by decide +kernel, hnormal,
        rest, rfl⟩
    · exact ⟨containerBuildCache, by decide, ["sccache"], _, by decide +kernel, hnormal, rest, rfl⟩

theorem Apart.normalise_inj (hapart : Apart image.volumes)
    (ht : t ∈ image.volumes ∨ t ∈ fixedTargets ++ reservedTargets)
    (hu : u ∈ image.volumes ∨ u ∈ fixedTargets ++ reservedTargets)
    (h : normalise t = normalise u) : t = u := by
  -- a volume against a target that does not come from the image
  have hmixed : ∀ v ∈ image.volumes, ∀ s ∈ fixedTargets ++ reservedTargets,
      normalise v = normalise s → v = s := by
    intro v hv s hs heq
    rcases List.mem_append.1 hs with hfixed | hreserved
    · exact hapart.fixed v hv s hfixed heq
    · obtain ⟨name, -, hname⟩ := normalise_reserved s hreserved
      have hinside : Inside s v := ⟨[name], [name], hname, heq.trans hname, List.prefix_refl _⟩
      exact absurd ((inside_reserved hvalid hv).1 ⟨s, hreserved, hinside⟩)
        (hapart.unreserved v hv)
  rcases ht with ht | ht
  · rcases hu with hu | hu
    · exact hapart.distinct t ht u hu h
    · exact hmixed t ht u hu h
  · rcases hu with hu | hu
    · exact (hmixed u hu t ht h.symm).symm
    · exact normalise_static t ht u hu h

end

/-! ## The mounts of the agent -/

theorem nodup_targets {credential buildCache : Bool}
    (hown : ∀ t ∈ image.volumes, t ∉ ownTargets credential buildCache) :
    (fixedTargets ++ (imageVolumeTargets image).filter (· ∉ fixedTargets) ++
      ownTargets credential buildCache).Nodup := by
  have hstatic := List.nodup_append.1 (nodup_static credential buildCache)
  have hvolumes := (nodup_imageVolumeTargets image).filter (fun t => decide (t ∉ fixedTargets))
  refine List.nodup_append.2 ⟨List.nodup_append.2 ⟨hstatic.1, hvolumes, ?_⟩, hstatic.2.1, ?_⟩
  · intro t ht u hu
    rintro rfl
    simp only [List.mem_filter, decide_eq_true_eq] at hu
    exact hu.2 ht
  · intro t ht u hu
    rcases List.mem_append.1 ht with hfixed | hvolume
    · exact hstatic.2.2 t hfixed u hu
    · rintro rfl
      exact hown t (mem_imageVolumeTargets.1 (List.mem_filter.1 hvolume).1) hu

/-- The agent's mounts have distinct targets, and no volume of its image is inside a target that is
not for images, if and only if the volumes are `Apart`. -/
theorem image_volumes_never_collide {images : List ImageInspect} {layout : ExecutionLayout}
    {credential cacheRoot : Option String} {requirement : RuntimeRequirement} {key : String}
    {id : ExecutionId} (hvalid : validateReservedImageVolumes images = .ok ())
    (himage : image ∈ images)
    (h : agentMounts host layout credential cacheRoot requirement key id image = .ok mounts) :
    ((mounts.map fun m => normalise m.target).Nodup ∧
      ∀ t ∈ image.volumes, ∀ u ∈ reservedTargets, ¬Inside u t) ↔ Apart image.volumes := by
  have hvalid : ∀ t ∈ image.volumes, validateImageVolume t = .ok () := fun t ht =>
    validateReservedImageVolumes_spec hvalid himage ht
  obtain ⟨buildCache, htargets⟩ := targets_of_agentMounts h
  have hmap : (mounts.map fun m => normalise m.target) =
      (mounts.map Mount.target).map normalise := by simp
  rw [hmap]
  have hmem : ∀ t ∈ mounts.map Mount.target,
      t ∈ image.volumes ∨ t ∈ fixedTargets ++ reservedTargets := by
    intro t ht
    rw [htargets, List.mem_append, List.mem_append] at ht
    rcases ht with (hfixed | hvolume) | hown
    · exact .inr (List.mem_append_left _ hfixed)
    · exact .inl (mem_imageVolumeTargets.1 (List.mem_filter.1 hvolume).1)
    · exact .inr (List.mem_append_right _ (own_subset_reserved _ _ t hown))
  constructor
  · rintro ⟨hnodup, hinside⟩
    have hvolume : ∀ t ∈ image.volumes, t ∈ mounts.map Mount.target := by
      intro t ht
      rw [htargets]
      by_cases hfixed : t ∈ fixedTargets
      · simp [hfixed]
      · simp [hfixed, mem_imageVolumeTargets.2 ht]
    have hfixed : ∀ t ∈ fixedTargets, t ∈ mounts.map Mount.target := by
      intro t ht
      simp [htargets, ht]
    refine ⟨fun t ht u hu heq => ?_, fun t ht u hu heq => ?_, fun t ht hhead => ?_⟩
    · exact List.inj_on_of_nodup_map hnodup (hvolume t ht) (hvolume u hu) heq
    · exact List.inj_on_of_nodup_map hnodup (hvolume t ht) (hfixed u hu) heq
    · obtain ⟨u, hu, hut⟩ := (inside_reserved hvalid ht).2 hhead
      exact hinside t ht u hu hut
  · intro hapart
    refine ⟨List.Nodup.map_on (fun t ht u hu heq => ?_) ?_, fun t ht u hu hut => ?_⟩
    · exact hapart.normalise_inj hvalid (hmem t ht) (hmem u hu) heq
    · rw [htargets]
      refine nodup_targets fun t ht hown => ?_
      obtain ⟨name, -, hname⟩ := normalise_reserved t (own_subset_reserved _ _ t hown)
      exact hapart.unreserved t ht ((inside_reserved hvalid ht).1
        ⟨t, own_subset_reserved _ _ t hown, [name], [name], hname, hname, List.prefix_refl _⟩)
    · exact hapart.unreserved t ht ((inside_reserved hvalid ht).1 ⟨u, hu, hut⟩)

/-! ## Images that collide -/

namespace Sample

def willing : HostDirectories where
  ensureRealDirectory _ _ _ := .ok ()
  makeContainerWritable _ := .ok ()
  canonicalize path := .ok path
  exactCredential _ path := .ok path
  claimBuildCache _ _ _ := .ok ()

def layout : ExecutionLayout where
  root := "/srv/executions/e1"
  repository := "/srv/executions/e1/repository"
  session := "/srv/executions/e1/session"

def cached : RuntimeRequirement where
  capabilities := ["rust-build-cache"]

def assembled (image : ImageInspect) : Except RuntimeError (List Mount) :=
  agentMounts willing layout (some "/srv/executions/e1/credentials/token") (some "/srv/cache") cached
    "key" ⟨"e1"⟩ image

end Sample

theorem image_volumes_never_collide_sample :
    ∃ mounts, Sample.assembled { volumes := ["/var/lib/db", "/tmp"] } = .ok mounts ∧
      (mounts.map fun m => normalise m.target).Nodup := by
  obtain ⟨mounts, hmounts⟩ : ∃ mounts,
      Sample.assembled { volumes := ["/var/lib/db", "/tmp"] } = .ok mounts := ⟨_, rfl⟩
  have hvalid : validateReservedImageVolumes [{ volumes := ["/var/lib/db", "/tmp"] }] = .ok () := by
    decide +kernel
  refine ⟨mounts, hmounts, ((image_volumes_never_collide hvalid (by simp) hmounts).2 ⟨?_, ?_, ?_⟩).1⟩
  · decide +kernel
  · decide +kernel
  · decide +kernel

/-- A volume at the build cache, and two texts for one volume, are accepted. -/
theorem image_volumes_collide :
    (validateReservedImageVolumes [{ volumes := ["/sccache"] }] = .ok () ∧
      (Sample.assembled { volumes := ["/sccache"] }).map
        (fun mounts => decide (mounts.map fun m => normalise m.target).Nodup) = .ok false ∧
      Inside containerBuildCache "/sccache") ∧
    validateReservedImageVolumes [{ volumes := ["/data", "/data/"] }] = .ok () ∧
      (Sample.assembled { volumes := ["/data", "/data/"] }).map
        (fun mounts => decide (mounts.map fun m => normalise m.target).Nodup) = .ok false := by
  refine ⟨⟨by decide +kernel, by decide +kernel, ["sccache"], ["sccache"], ?_⟩, ?_⟩
  · decide +kernel
  · decide +kernel

end Orchestrator.Provision
