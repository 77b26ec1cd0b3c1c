import Apmpr.Planner.Outputs

/-!
# The injected files of a plan

Where the files come from that `resolve` collects: an overlay of the list, an instance it
matches, and one of the overlay's files. A file is rendered when its overlay's turn comes, so
that the instance has by then the parameters of the overlays up to this one.

## What is proved

* `injected_of_foldLayers`: every file of a resolution is injected by one of its overlays.
* `injected_of_effective`: and so is every file of a plan.
-/

namespace Apmpr.Planner

/-- The parameters overlays give an instance, in order. -/
def overlayParameters (document : Document) (overlays : List Overlay) (inst : String) : List (String × String) :=
  (matchingOverlays document overlays inst).flatMap (·.parameters.entries)

/-- How an overlay that comes after others injects a file into an instance. -/
structure Injects (platform : Platform) (document : Document) (earlier : List Overlay) (overlay : Overlay)
    (inst : Instance) (entry : OverlayFile × ℕ) (raw : String) (file : InjectedFilePlan) : Prop where
  authored : strippedInstance inst ∈ document.spec.instances.map strippedInstance
  parameters : ∀ key, inst.parameters.get? key =
    (atKey key (overlayParameters document (earlier ++ [overlay]) inst.name)).getLast?
  listed : entry ∈ overlay.files.zipIdx
  read : rawContent platform overlay entry.1 = .ok (some raw)
  rendered : renderedContent document overlay inst entry.1 entry.2 raw = .ok file.content
  planned : file = injectedFile platform (overlayLayer overlay) inst entry.1 file.content

/-- A file that one of the overlays injects. -/
def Injected (platform : Platform) (document : Document) (overlays : List Overlay) (file : InjectedFilePlan) : Prop :=
  ∃ earlier overlay later inst entry raw, overlays = earlier ++ overlay :: later ∧
    Injects platform document earlier overlay inst entry raw file

/-! ### One overlay -/

section Overlay

variable (platform : Platform) (document : Document)

theorem mem_files_resolveFile {overlay : Overlay} {layer : String} {inst : Instance} {r : Resolving}
    {entry : OverlayFile × ℕ} {file : InjectedFilePlan}
    (h : file ∈ (resolveFile platform document overlay layer inst r entry).files) :
    file ∈ r.files ∨ ∃ raw, rawContent platform overlay entry.1 = .ok (some raw) ∧
      renderedContent document overlay inst entry.1 entry.2 raw = .ok file.content ∧
      file = injectedFile platform layer inst entry.1 file.content := by
  unfold resolveFile at h
  dsimp only at h
  split_ifs at h
  · exact .inl h
  · exact .inl h
  · cases hraw : rawContent platform overlay entry.1 with
    | error d =>
      rw [hraw] at h
      exact .inl h
    | ok raw =>
      rw [hraw] at h
      cases raw with
      | none => exact .inl h
      | some raw =>
        dsimp only at h
        cases hcontent : renderedContent document overlay inst entry.1 entry.2 raw with
        | error d =>
          rw [hcontent] at h
          exact .inl h
        | ok content =>
          rw [hcontent] at h
          dsimp only at h
          have hnew : file = injectedFile platform layer inst entry.1 content → ∃ raw',
              Except.ok (some raw) = (.ok (some raw') : Except Diagnostic (Option String)) ∧
                renderedContent document overlay inst entry.1 entry.2 raw' = .ok file.content ∧
                file = injectedFile platform layer inst entry.1 file.content := by
            rintro rfl
            exact ⟨raw, rfl, hcontent, rfl⟩
          split at h
          · rcases List.mem_or_eq_of_mem_set h with hold | hfile
            · exact .inl hold
            · exact .inr (hnew hfile)
          · rcases List.mem_append.mp h with hold | hfile
            · exact .inl hold
            · exact .inr (hnew (List.mem_singleton.mp hfile))

theorem mem_files_foldl_resolveFile {overlay : Overlay} {layer : String} {inst : Instance}
    {entries : List (OverlayFile × ℕ)} {r : Resolving} {file : InjectedFilePlan}
    (h : file ∈ (entries.foldl (resolveFile platform document overlay layer inst) r).files) :
    file ∈ r.files ∨ ∃ entry ∈ entries, ∃ raw, rawContent platform overlay entry.1 = .ok (some raw) ∧
      renderedContent document overlay inst entry.1 entry.2 raw = .ok file.content ∧
      file = injectedFile platform layer inst entry.1 file.content := by
  induction entries generalizing r with
  | nil => exact .inl h
  | cons entry rest ih =>
    rcases ih h with hstep | ⟨later, hlater, hfile⟩
    · rcases mem_files_resolveFile platform document hstep with hold | hfile
      · exact .inl hold
      · exact .inr ⟨entry, List.mem_cons_self .., hfile⟩
    · exact .inr ⟨later, List.mem_cons_of_mem _ hlater, hfile⟩

theorem files_applyTouch (r : Resolving) (target : String) (e : String × Touch) :
    (r.applyTouch target e).files = r.files := by
  have hupdate : ∀ (s : Resolving) (f : Instance → Instance), (s.updateInstance target f).files = s.files := by
    intro s f
    unfold Resolving.updateInstance
    split <;> rfl
  obtain ⟨key, touch⟩ := e
  cases touch with
  | set value layer => cases value <;> exact hupdate _ _
  | unset layer =>
    unfold Resolving.applyTouch Resolving.unset
    dsimp only
    split
    · exact hupdate _ _
    · exact hupdate _ _

theorem files_applyParameter (r : Resolving) (target layer : String) (e : String × String) :
    (r.applyParameter target layer e).files = r.files := by
  unfold Resolving.applyParameter Resolving.setParameter Resolving.updateInstance
  split <;> rfl

theorem files_applyValues (overlay : Overlay) (r : Resolving) (target : String) :
    (applyValues platform overlay r target).files = r.files := by
  have htouches := List.foldlRecOn (motive := fun s : Resolving => s.files = r.files) (overlayTouches platform overlay)
    (·.applyTouch target) (b := { r with errors := r.errors ++ (loadEnvFiles platform overlay).2 }) rfl
    fun s hs e _ => (files_applyTouch s target e).trans hs
  exact List.foldlRecOn (motive := fun s : Resolving => s.files = r.files) overlay.parameters.entries
    (·.applyParameter target (overlayLayer overlay)) htouches fun s hs e _ => (files_applyParameter s target _ e).trans hs

/-- What is known of the folds before an overlay's turn. -/
structure Sofar (overlays earlier : List Overlay) (r : Resolving) : Prop where
  names : instanceNames r.instances = instanceNames document.spec.instances
  stripped : r.instances.map strippedInstance = document.spec.instances.map strippedInstance
  parameters : ∀ inst ∈ instanceNames document.spec.instances, ∀ key,
    r.parameter inst key = (atKey key (overlayParameters document earlier inst)).getLast?
  files : ∀ file ∈ r.files, Injected platform document overlays file

variable {platform document}

/-- The values of an overlay, at one parameter of the instance they are given to. -/
theorem parameter_applyValues {overlay : Overlay} {r : Resolving} {target : String}
    (hnames : instanceNames r.instances = instanceNames document.spec.instances)
    (htarget : target ∈ instanceNames document.spec.instances) (key : String) :
    (applyValues platform overlay r target).parameter target key =
      (atKey key overlay.parameters.entries).getLast?.or (r.parameter target key) := by
  have htouches := foldl_applyTouch { r with errors := r.errors ++ (loadEnvFiles platform overlay).2 } target key target
    (overlayTouches platform overlay) hnames htarget
  have hvalues := (foldl_applyParameter _ target key target (overlayLayer overlay) overlay.parameters.entries htouches.1
    htarget).2.2
  rw [htouches.2.2, if_pos rfl, foldl_some_eq] at hvalues
  exact hvalues

theorem stripped_applyValues (overlay : Overlay) (r : Resolving) (target : String) :
    (applyValues platform overlay r target).instances.map strippedInstance = r.instances.map strippedInstance := by
  rw [applyValues, stripped_foldl _ fun e _ s => stripped_applyParameter s target _ e,
    stripped_foldl _ fun e _ s => stripped_applyTouch s target e]

theorem overlayParameters_concat {earlier : List Overlay} {overlay : Overlay} {inst : String}
    (h : inst ∈ matchingInstances document overlay) (key : String) :
    (atKey key (overlayParameters document (earlier ++ [overlay]) inst)).getLast? =
      (atKey key overlay.parameters.entries).getLast?.or (atKey key (overlayParameters document earlier inst)).getLast? := by
  have hmatch : matchingOverlays document [overlay] inst = [overlay] := by
    rw [matchingOverlays, List.filter_singleton, List.contains_iff_mem.mpr h]
    rfl
  have hsplit : matchingOverlays document (earlier ++ [overlay]) inst = matchingOverlays document earlier inst ++ [overlay] :=
    (List.filter_append ..).trans (congrArg _ hmatch)
  rw [overlayParameters, hsplit, List.flatMap_append, atKey_append, List.getLast?_append, List.flatMap_singleton]
  rfl

/-- The files of an overlay's instances are injected by it. -/
theorem files_foldl_applyOverlay {overlays earlier later : List Overlay} {overlay : Overlay}
    (hsplit : overlays = earlier ++ overlay :: later) {targets : List String} (hnodup : targets.Nodup)
    (htargets : ∀ target ∈ targets, target ∈ matchingInstances document overlay) {r : Resolving}
    (hnames : instanceNames r.instances = instanceNames document.spec.instances)
    (hstripped : r.instances.map strippedInstance = document.spec.instances.map strippedInstance)
    (hparameters : ∀ target ∈ targets, ∀ key,
      r.parameter target key = (atKey key (overlayParameters document earlier target)).getLast?)
    (hfiles : ∀ file ∈ r.files, Injected platform document overlays file) :
    ∀ file ∈ (targets.foldl (applyOverlay platform document overlay) r).files, Injected platform document overlays file := by
  induction targets generalizing r with
  | nil => exact hfiles
  | cons target rest ih =>
    obtain ⟨hnew, hrest⟩ := List.nodup_cons.mp hnodup
    have hmatch := htargets target (List.mem_cons_self ..)
    have hdeclared := mem_instanceNames_of_mem_matchingInstances document hmatch
    have hspec := fun key other (hother : other ∈ instanceNames document.spec.instances) =>
      applyOverlay_spec platform document key hother overlay hnames target
    have happly := applyOverlay_eq platform document overlay r target
    have hvalues := @stripped_applyValues platform overlay r target
    have hstay : (applyOverlay platform document overlay r target).instances =
        (applyValues platform overlay r target).instances := by
      rw [happly]
      split
      · rfl
      · exact (foldl_resolveFile_frame platform document overlay _ _ _ _ "" "").1
    refine ih hrest (fun other hother => htargets other (List.mem_cons_of_mem _ hother))
      (hspec "" target hdeclared).1 (by rw [hstay, hvalues, hstripped]) (fun other hother key => ?_) fun file hfile => ?_
    · have hothers := htargets other (List.mem_cons_of_mem _ hother)
      rw [(hspec key other (mem_instanceNames_of_mem_matchingInstances document hothers)).2.2, if_neg]
      · exact hparameters other (List.mem_cons_of_mem _ hother) key
      · rintro rfl
        exact hnew hother
    · rw [happly] at hfile
      cases hfound : instanceNamed (applyValues platform overlay r target).instances target with
      | none =>
        rw [hfound, files_applyValues] at hfile
        exact hfiles file hfile
      | some inst =>
        rw [hfound] at hfile
        rcases mem_files_foldl_resolveFile platform document hfile with hold | ⟨entry, hentry, raw, hraw, hcontent, hplanned⟩
        · rw [files_applyValues] at hold
          exact hfiles file hold
        have hnamed := List.find?_some hfound
        obtain rfl : inst.name = target := of_decide_eq_true hnamed
        refine ⟨earlier, overlay, later, inst, entry, raw, hsplit, ?_, fun key => ?_, hentry, hraw, hcontent, hplanned⟩
        · rw [← hstripped, ← hvalues]
          exact List.mem_map_of_mem (List.mem_of_find?_eq_some hfound)
        · have hview := @parameter_applyValues platform document overlay r inst.name hnames hdeclared key
          rw [Resolving.parameter, hfound, Option.bind_some] at hview
          rw [hview, overlayParameters_concat hmatch, hparameters _ (List.mem_cons_self ..)]

/-- One overlay keeps what is known. -/
theorem Sofar.step {overlays earlier later : List Overlay} {overlay : Overlay} {r : Resolving}
    (hnodup : (instanceNames document.spec.instances).Nodup) (hsplit : overlays = earlier ++ overlay :: later)
    (h : Sofar platform document overlays earlier r) :
    Sofar platform document overlays (earlier ++ [overlay]) (resolveOverlay platform document r overlay) where
  names := (instanceNames_of_stripped (stripped_resolveOverlay platform document r overlay)).trans h.names
  stripped := (stripped_resolveOverlay platform document r overlay).trans h.stripped
  parameters inst hinst key := by
    rw [(resolveOverlay_spec platform document key hinst hnodup overlay h.names).2.2, foldl_some_eq, h.parameters inst hinst]
    by_cases hmatch : inst ∈ matchingInstances document overlay
    · rw [if_pos (List.contains_iff_mem.mpr hmatch), overlayParameters_concat hmatch]
    · have hnone : matchingOverlays document [overlay] inst = [] := by
        rw [matchingOverlays, List.filter_singleton]
        simp [hmatch]
      have hsame : matchingOverlays document (earlier ++ [overlay]) inst = matchingOverlays document earlier inst :=
        (List.filter_append ..).trans ((congrArg _ hnone).trans (List.append_nil _))
      rw [if_neg (by simpa using hmatch), overlayParameters, overlayParameters, hsame]
  files := by
    unfold resolveOverlay
    dsimp only
    split_ifs
    · exact h.files
    · exact files_foldl_applyOverlay hsplit (nodup_matchingInstances document hnodup overlay) (fun _ ht => ht)
        (r := { r with errors := r.errors ++ overlayErrors platform overlay }) h.names h.stripped
        (fun target htarget => h.parameters target (mem_instanceNames_of_mem_matchingInstances document htarget)) h.files

end Overlay
/-! ### All layers -/

section Layers

variable {platform : Platform} {document : Document} {overlays : List Overlay} {options : OverlayOptions}

theorem files_traceDefaults (spec : DeploymentSpec) (r : Resolving) (inst : Instance) :
    (traceDefaults spec r inst).files = r.files := by
  rw [traceDefaults_eq]
  refine List.foldlRecOn (motive := fun s : Resolving => s.files = r.files) _ _ ?_ fun s hs _ _ => hs
  exact List.foldlRecOn (motive := fun s : Resolving => s.files = r.files) _ _ rfl fun s hs _ _ => hs

theorem files_applyAuthored (r : Resolving) (index : ℕ) : (applyAuthored document options r index).files = r.files := by
  unfold applyAuthored
  split
  · rfl
  · dsimp only
    refine List.foldlRecOn (motive := fun s : Resolving => s.files = r.files) _ _ ?_ fun s hs e _ => ?_
    · refine List.foldlRecOn (motive := fun s : Resolving => s.files = r.files) _ _ ?_ fun s hs e _ => hs
      exact List.foldlRecOn (motive := fun s : Resolving => s.files = r.files) _ _ rfl fun s hs e _ => hs
    · split_ifs
      · exact hs
      · exact hs

/-- **The files of a resolution** are injected by its overlays. -/
theorem injected_of_foldLayers (hnodup : (instanceNames document.spec.instances).Nodup) :
    ∀ file ∈ (foldLayers platform document overlays options).files, Injected platform document overlays file := by
  let start : Resolving := ⟨document.spec.instances.map strippedInstance, [], ∅, ∅, []⟩
  have hdefaults := List.foldlRecOn (motive := fun s : Resolving => s.files = [] ∧ s.instances = start.instances)
    document.spec.instances (traceDefaults document.spec) (b := start) ⟨rfl, rfl⟩ fun s hs inst _ =>
      ⟨(files_traceDefaults _ s inst).trans hs.1, (traceDefaults_spec document.spec s inst "" "").1.trans hs.2⟩
  obtain ⟨hnone, hinstances⟩ := hdefaults
  have hnames : instanceNames start.instances = instanceNames document.spec.instances := by
    simp [start, instanceNames, strippedInstance]
  have hstart : Sofar platform document overlays [] (document.spec.instances.foldl (traceDefaults document.spec) start) := by
    refine ⟨by rw [hinstances, hnames], ?_, fun inst hinst key => ?_, fun file hfile => ?_⟩
    · rw [hinstances]
      simp [start, strippedInstance]
    · obtain ⟨i, hi⟩ := exists_instanceNamed (hnames ▸ hinst)
      obtain ⟨authored, -, rfl⟩ := List.mem_map.mp (List.mem_of_find?_eq_some hi)
      rw [Resolving.parameter, hinstances, hi]
      rfl
    · rw [hnone] at hfile
      cases hfile
  have hoverlays : ∀ later earlier r, overlays = earlier ++ later → Sofar platform document overlays earlier r →
      ∀ file ∈ (later.foldl (resolveOverlay platform document) r).files, Injected platform document overlays file := by
    intro later
    induction later with
    | nil => exact fun _ _ _ h => h.files
    | cons overlay rest ih =>
      intro earlier r hsplit h
      exact ih (earlier ++ [overlay]) _ (by rw [hsplit, List.append_assoc]; rfl) (h.step hnodup hsplit)
  have hauthored := List.foldlRecOn
    (motive := fun s : Resolving => s.files = (overlays.foldl (resolveOverlay platform document)
      (document.spec.instances.foldl (traceDefaults document.spec) start)).files)
    (List.range document.spec.instances.length) (applyAuthored document options) rfl
    fun s hs index _ => (files_applyAuthored s index).trans hs
  intro file hfile
  rw [foldLayers, hauthored] at hfile
  exact hoverlays overlays [] _ rfl hstart file hfile

variable {host : Host} {bundle : Bundle}

/-- The files of an effective bundle are injected by the overlays it is made with. -/
theorem injected_of_effective {e : Effective} (he : effective host bundle options = .ok e)
    (hnodup : (instanceNames bundle.document.spec.instances).Nodup) :
    ∀ file ∈ (e.overlay.map (·.files)).getD [],
      Injected host.toPlatform bundle.document (loadOverlays host bundle options).1 file := by
  intro file hfile
  cases hplain : isPlain bundle options with
  | true =>
    rw [effective, if_pos hplain] at he
    rw [(madeEffective_of_plain he).2.2] at hfile
    cases hfile
  | false =>
    obtain ⟨resolved, resolution, hoverlaid⟩ := exists_overlaid hplain he
    obtain ⟨_, _, -, hfiles, -⟩ := resolve_document hoverlaid.resolves
    rw [hoverlaid.overlay] at hfile
    change file ∈ resolution.files at hfile
    rw [hfiles] at hfile
    exact injected_of_foldLayers hnodup file hfile

end Layers

end Apmpr.Planner
