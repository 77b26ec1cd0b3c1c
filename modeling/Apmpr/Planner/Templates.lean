import Apmpr.Planner.InjectedFiles
import Apmpr.Planner.Names

/-!
# Rendering templates

The templates of the crate `apmpr-planner`: `validate_template_namespace` and `render_template`
of its `overlay.rs`. A template is rendered when its overlay's turn comes, with the name of the
base deployment and the parameters of that moment; later overlays may still give the instance
another value, and a variation gives the deployment another name.

## What is proved

* `renderTemplate_fuel`: the length of a text is fuel enough.
* `renderTemplate_congr`: a rendering depends on the values of the variables of the text only.
* `renderTemplate_of_accepted`: what the validation accepts is rendered, if the parameters exist.
* `renderTemplate_ne`: where the value of one variable differs, so does the rendering.
* `current_iff`: when the value of a variable is the final one.
* `templates_final_iff`: the templates of a plan show its final values where all their variables
  are current; `templates_stale` has plans with templates that do not.
-/

namespace Apmpr.Planner

/-! ### Texts with variables -/

section Texts

/-- What follows a variable is shorter. -/
theorem length_nextVariable {text before name after : List Char} (h : nextVariable text = some (before, name, some after)) :
    after.length < text.length := by
  induction text using nextVariable.induct generalizing before name after with
  | case1 => cases h
  | case2 rest name' after' hsplit =>
    rw [nextVariable, hsplit] at h
    cases h
    rw [(Text.splitOnceChars_of_eq_some hsplit).2]
    simp only [List.length_cons, List.length_append]
    omega
  | case3 rest hsplit =>
    rw [nextVariable, hsplit] at h
    cases h
  | case4 c rest hplain ih =>
    rw [nextVariable] at h
    · obtain ⟨⟨before', name', after'⟩, hnext, heq⟩ := Option.map_eq_some_iff.mp h
      cases heq
      have hshorter := ih hnext
      rw [List.length_cons]
      omega
    · exact hplain

/-- A rendering, one variable after another. -/
theorem renderTemplate_succ (value : String → Option String) (fuel : ℕ) (text : List Char) :
    renderTemplate value (fuel + 1) text =
      match nextVariable text with
      | none => .ok text
      | some (_, rest, none) => .error (String.ofList rest)
      | some (before, name, some after) =>
        match value (String.ofList name) with
        | none => .error (String.ofList name)
        | some replacement => (renderTemplate value fuel after).map fun rest => before ++ replacement.toList ++ rest := by
  rw [renderTemplate]
  rfl

/-- The length of a text is fuel enough: more makes no difference. -/
theorem renderTemplate_fuel (value : String → Option String) {fuel : ℕ} {text : List Char} (h : text.length < fuel) :
    renderTemplate value (fuel + 1) text = renderTemplate value fuel text := by
  induction fuel generalizing text with
  | zero => cases h
  | succ fuel ih =>
    rw [renderTemplate_succ, renderTemplate_succ value fuel]
    cases hnext : nextVariable text with
    | none => rfl
    | some found =>
      obtain ⟨before, name, after⟩ := found
      cases after with
      | none => rfl
      | some after =>
        have hshorter := length_nextVariable hnext
        dsimp only
        rw [ih (by omega)]

/-- The rendering of a text depends on the values of its variables only. -/
theorem renderTemplate_congr {value value' : String → Option String} {fuel : ℕ} {text : List Char}
    (h : ∀ name ∈ (templateVariables fuel text).1, value name = value' name) :
    renderTemplate value fuel text = renderTemplate value' fuel text := by
  induction fuel generalizing text with
  | zero => rfl
  | succ fuel ih =>
    rw [renderTemplate_succ, renderTemplate_succ]
    rw [templateVariables] at h
    cases hnext : nextVariable text with
    | none => rfl
    | some found =>
      obtain ⟨before, name, after⟩ := found
      rw [hnext] at h
      cases after with
      | none => rfl
      | some after =>
        dsimp only at h ⊢
        rw [h _ (List.mem_cons_self ..), ih fun other hother => h other (List.mem_cons_of_mem _ hother)]

/-- A text whose last variable is ended, and whose variables have values, is rendered. -/
theorem exists_rendered {value : String → Option String} {fuel : ℕ} {text : List Char}
    (hended : (templateVariables fuel text).2 = false)
    (h : ∀ name ∈ (templateVariables fuel text).1, (value name).isSome) :
    ∃ out, renderTemplate value fuel text = .ok out := by
  induction fuel generalizing text with
  | zero => exact ⟨text, rfl⟩
  | succ fuel ih =>
    rw [renderTemplate_succ]
    rw [templateVariables] at h hended
    cases hnext : nextVariable text with
    | none => exact ⟨text, rfl⟩
    | some found =>
      obtain ⟨before, name, after⟩ := found
      rw [hnext] at h hended
      cases after with
      | none => cases hended
      | some after =>
        dsimp only at h hended ⊢
        obtain ⟨out, hout⟩ := ih hended fun other hother => h other (List.mem_cons_of_mem _ hother)
        obtain ⟨replacement, hreplacement⟩ := Option.isSome_iff_exists.mp (h _ (List.mem_cons_self ..))
        rw [hreplacement, hout]
        exact ⟨_, rfl⟩

/-- Two renderings of a text whose values differ at one variable only: their lengths differ by as
much as the two values, as often as it occurs, and they are equal only if the values are. -/
theorem renderTemplate_differ {value value' : String → Option String} {stale first second : String}
    (hsame : ∀ name, name ≠ stale → value name = value' name) (hfirst : value stale = some first)
    (hsecond : value' stale = some second) {fuel : ℕ} {text out out' : List Char}
    (hout : renderTemplate value fuel text = .ok out) (hout' : renderTemplate value' fuel text = .ok out') :
    ∃ count other : ℕ, out.length = other + count * first.toList.length ∧
      out'.length = other + count * second.toList.length ∧
      (stale ∈ (templateVariables fuel text).1 → 0 < count ∧
        (first.toList.length = second.toList.length → out = out' → first = second)) := by
  induction fuel generalizing text out out' with
  | zero =>
    cases hout
    cases hout'
    exact ⟨0, text.length, by simp, by simp, nofun⟩
  | succ fuel ih =>
    rw [renderTemplate_succ] at hout hout'
    rw [templateVariables]
    cases hnext : nextVariable text with
    | none =>
      rw [hnext] at hout hout'
      cases hout
      cases hout'
      exact ⟨0, text.length, by simp, by simp, nofun⟩
    | some found =>
      obtain ⟨before, name, after⟩ := found
      rw [hnext] at hout hout'
      cases after with
      | none => cases hout
      | some after =>
        dsimp only at hout hout' ⊢
        cases hvalue : value (String.ofList name) with
        | none =>
          rw [hvalue] at hout
          cases hout
        | some replacement =>
          cases hvalue' : value' (String.ofList name) with
          | none =>
            rw [hvalue'] at hout'
            cases hout'
          | some replacement' =>
            rw [hvalue] at hout
            rw [hvalue'] at hout'
            dsimp only at hout hout'
            cases hrest : renderTemplate value fuel after with
            | error message =>
              rw [hrest] at hout
              cases hout
            | ok rest =>
              cases hrest' : renderTemplate value' fuel after with
              | error message =>
                rw [hrest'] at hout'
                cases hout'
              | ok rest' =>
                rw [hrest] at hout
                rw [hrest'] at hout'
                cases hout
                cases hout'
                obtain ⟨count, other, hlength, hlength', hcount⟩ := ih hrest hrest'
                by_cases hname : String.ofList name = stale
                · -- the variable occurs here once more
                  rw [hname, hfirst] at hvalue
                  rw [hname, hsecond] at hvalue'
                  obtain rfl := Option.some.inj hvalue
                  obtain rfl := Option.some.inj hvalue'
                  refine ⟨count + 1, before.length + other, ?_, ?_, fun _ => ⟨Nat.succ_pos _, fun hsize heq => ?_⟩⟩
                  · simp only [List.length_append, hlength, Nat.add_mul]
                    omega
                  · simp only [List.length_append, hlength', Nat.add_mul]
                    omega
                  · dsimp only at heq
                    rw [List.append_assoc, List.append_assoc] at heq
                    have hvalues := (List.append_inj (List.append_cancel_left heq) hsize).1
                    exact String.toList_inj.mp hvalues
                · have hequal : replacement = replacement' := by
                    rw [hsame _ hname] at hvalue
                    exact Option.some.inj (hvalue.symm.trans hvalue')
                  subst hequal
                  refine ⟨count, before.length + replacement.toList.length + other, ?_, ?_, fun hmem => ?_⟩
                  · simp only [List.length_append, hlength]
                    omega
                  · simp only [List.length_append, hlength']
                    omega
                  · obtain ⟨hpositive, hinjective⟩ := hcount ((List.mem_cons.mp hmem).resolve_left (Ne.symm hname))
                    exact ⟨hpositive, fun hsize heq => hinjective hsize (List.append_cancel_left heq)⟩

/-- **One value that differs** makes the rendering differ. -/
theorem renderTemplate_ne {value value' : String → Option String} {stale first second : String}
    (hsame : ∀ name, name ≠ stale → value name = value' name) (hfirst : value stale = some first)
    (hsecond : value' stale = some second) (hne : first ≠ second) {fuel : ℕ} {text out out' : List Char}
    (hmem : stale ∈ (templateVariables fuel text).1) (hout : renderTemplate value fuel text = .ok out)
    (hout' : renderTemplate value' fuel text = .ok out') : out ≠ out' := by
  rintro rfl
  obtain ⟨count, other, hlength, hlength', hcount⟩ := renderTemplate_differ hsame hfirst hsecond hout hout'
  obtain ⟨hpositive, hinjective⟩ := hcount hmem
  have hsize : first.toList.length = second.toList.length := by
    refine Nat.eq_of_mul_eq_mul_left hpositive ?_
    omega
  exact hne (hinjective hsize rfl)

/-- Where a text is rendered, its variables have values. -/
theorem isSome_of_rendered {value : String → Option String} {fuel : ℕ} {text out : List Char}
    (hout : renderTemplate value fuel text = .ok out) : ∀ name ∈ (templateVariables fuel text).1, (value name).isSome := by
  induction fuel generalizing text out with
  | zero => exact nofun
  | succ fuel ih =>
    rw [renderTemplate_succ] at hout
    rw [templateVariables]
    cases hnext : nextVariable text with
    | none => exact nofun
    | some found =>
      obtain ⟨before, name, after⟩ := found
      rw [hnext] at hout
      cases after with
      | none => cases hout
      | some after =>
        dsimp only at hout ⊢
        cases hvalue : value (String.ofList name) with
        | none =>
          rw [hvalue] at hout
          cases hout
        | some replacement =>
          rw [hvalue] at hout
          dsimp only at hout
          cases hrest : renderTemplate value fuel after with
          | error message =>
            rw [hrest] at hout
            cases hout
          | ok rest =>
            intro other hother
            rcases List.mem_cons.mp hother with rfl | hother
            · rw [hvalue]
              rfl
            · exact ih hrest other hother

end Texts

/-- The variables of a text. -/
def variablesOf (text : String) : List String := (templateVariables (text.toList.length + 1) text.toList).1

/-- `render_template`, with these values. -/
def render (value : String → Option String) (text : String) : Except String (List Char) :=
  renderTemplate value (text.toList.length + 1) text.toList

/-- The name of a parameter is no name of a variable of an overlay. -/
theorem afterStart_of_parameter {name key : String} (h : Text.afterStart "parameters." name = some key) :
    Text.afterStart "overlay.variables." name = none ∧ name ≠ "instance.name" ∧ name ≠ "deployment.name" := by
  rw [Text.afterStart] at h
  split_ifs at h with hstart
  obtain ⟨rest, hrest⟩ := List.isPrefixOf_iff_prefix.mp hstart
  have hfirst : name.toList.head? = some 'p' := by
    rw [← hrest]
    rfl
  refine ⟨?_, ?_, ?_⟩
  · rw [Text.afterStart, if_neg]
    intro hother
    obtain ⟨rest', hrest'⟩ := List.isPrefixOf_iff_prefix.mp hother
    have hletter : name.toList.head? = some 'o' := by
      rw [← hrest']
      rfl
    exact absurd (hfirst.symm.trans hletter) (by decide)
  · rintro rfl
    exact absurd hfirst (by decide)
  · rintro rfl
    exact absurd hfirst (by decide)

/-- **Accepted templates.** What the validation accepts is rendered if its parameters exist. -/
theorem renderTemplate_of_accepted {overlay : Overlay} {inst deployment path input : String}
    {parameters : SortedMap String String} (haccepted : templateErrors overlay path input = [])
    (hparameters : ∀ name ∈ variablesOf input, ∀ key, Text.afterStart "parameters." name = some key →
      parameters.contains key = true) :
    ∃ out, render (templateValue overlay inst deployment parameters) input = .ok out := by
  rw [templateErrors, List.append_eq_nil_iff, List.map_eq_nil_iff, List.filter_eq_nil_iff] at haccepted
  obtain ⟨hknown, hended⟩ := haccepted
  refine exists_rendered ?_ fun name hname => ?_
  · by_contra hopen
    rw [if_pos (by simpa using hopen)] at hended
    cases hended
  · have hvalid : templateVariableKnown overlay name = true := by simpa using hknown name hname
    rw [templateValue]
    split_ifs with hinst hdeployment
    · rfl
    · rfl
    · simp only [templateVariableKnown, hinst, hdeployment, decide_false, Bool.false_or, Bool.or_eq_true] at hvalid
      have hget : ∀ {m : SortedMap String String} {key : String}, m.contains key = true → (m.get? key).isSome := by
        intro m key hcontains
        obtain ⟨value, hvalue⟩ := (SortedMap.contains_iff m key).mp hcontains
        rw [hvalue]
        rfl
      cases hvariable : Text.afterStart "overlay.variables." name with
      | some key =>
        rw [hvariable, Option.any_some] at hvalid
        rcases hvalid with hcontains | hparameter
        · exact hget hcontains
        · cases hkey : Text.afterStart "parameters." name with
          | none =>
            rw [hkey] at hparameter
            cases hparameter
          | some other =>
            rw [(afterStart_of_parameter hkey).1] at hvariable
            cases hvariable
      | none =>
        rw [hvariable] at hvalid
        dsimp only
        cases hkey : Text.afterStart "parameters." name with
        | none =>
          rw [hkey] at hvalid
          rcases hvalid with hnot | hnot <;> cases hnot
        | some key =>
          rw [Option.bind_some]
          exact hget (hparameters name hname key hkey)

/-! ### Final values -/

/-- The default of a parameter. -/
def defaultParameters (spec : DeploymentSpec) (block : String) : SortedMap String String :=
  .ofList ((spec.blocks.get? block).toList.flatMap parameterDefaults)

/-- The parameters a plan finally gives an instance: the defaults, and what the instance of the
resolved deployment says. -/
def finalParameters (plan : Plan) (inst : String) : SortedMap String String :=
  match instanceNamed plan.resolvedDeployment.spec.instances inst with
  | some i => (defaultParameters plan.resolvedDeployment.spec i.block).insertAll i.parameters.entries
  | none => ∅

/-- A template whose file shows the final values. -/
def ShowsFinal (plan : Plan) (overlay : Overlay) (inst raw : String) (file : InjectedFilePlan) : Prop :=
  render (templateValue overlay inst plan.deployment (finalParameters plan inst)) raw = .ok file.content.toList

/-- What the deployment's own instance gives a parameter. -/
def authoredParameter (document : Document) (inst key : String) : Option String :=
  (instanceNamed document.spec.instances inst).bind (·.parameters.get? key)

/-- What overlays give a parameter at last, or its default. -/
def overlaidParameter (document : Document) (overlays : List Overlay) (inst : Instance) (key : String) : Option String :=
  (atKey key (overlayParameters document overlays inst.name)).getLast?.or
    ((defaultParameters document.spec inst.block).get? key)

/-- A variable whose value stays after its overlay's turn: the name of the deployment, if there
is no variation; a parameter that the deployment's own instance gives, or that no later overlay
gives another value. -/
structure Current (document : Document) (options : OverlayOptions) (soFar later : List Overlay) (inst : Instance)
    (name : String) : Prop where
  deployment : name = "deployment.name" → options.variation = none
  parameter : ∀ key, Text.afterStart "parameters." name = some key → authoredParameter document inst.name key = none →
    ∀ value, (atKey key (overlayParameters document later inst.name)).getLast? = some value →
      overlaidParameter document soFar inst key = some value

section Plans

variable {host : Host} {bundle : Bundle} {options : OverlayOptions} {devices : Devices} {plan : Plan}

theorem variationName_eq_iff {name resolved : String} {variation : Option String}
    (h : variationName name variation = .ok resolved) : name = resolved ↔ variation = none := by
  cases variation with
  | none =>
    obtain rfl := Except.ok.inj h
    simp
  | some variation =>
    rw [variationName] at h
    split_ifs at h
    obtain rfl := Except.ok.inj h
    refine ⟨fun hsame => ?_, nofun⟩
    have hlength := congrArg (fun text : String => text.toList.length) hsame
    change name.toList.length = (name ++ "--" ++ variation).toList.length at hlength
    have hdashes : ("--" : String).toList.length = 2 := rfl
    rw [String.toList_append, String.toList_append, List.length_append, List.length_append, hdashes] at hlength
    omega

theorem overlayParameters_append (document : Document) (earlier later : List Overlay) (inst : String) :
    overlayParameters document (earlier ++ later) inst =
      overlayParameters document earlier inst ++ overlayParameters document later inst := by
  rw [overlayParameters, matchingOverlays, List.filter_append, List.flatMap_append]
  rfl

/-- The parameters an injected file is rendered with. -/
theorem get?_effectiveParameters {platform : Platform} {document : Document} {earlier : List Overlay} {overlay : Overlay}
    {inst : Instance} {entry : OverlayFile × ℕ} {raw : String} {file : InjectedFilePlan}
    (h : Injects platform document earlier overlay inst entry raw file) (key : String) :
    (effectiveParameters document.spec inst).get? key =
      (authoredParameter document inst.name key).or (overlaidParameter document (earlier ++ [overlay]) inst key) := by
  rw [effectiveParameters, authoredParameter]
  have hlayered : ((SortedMap.ofList ((document.spec.blocks.get? inst.block).toList.flatMap parameterDefaults)).insertAll
      inst.parameters.entries).get? key = overlaidParameter document (earlier ++ [overlay]) inst key := by
    rw [get?_insertAll_entries, h.parameters key]
    rfl
  change (match instanceNamed document.spec.instances inst.name with
    | some authored => _
    | none => _ : SortedMap String String).get? key = _
  cases hnamed : instanceNamed document.spec.instances inst.name with
  | none => exact hlayered
  | some authored =>
    dsimp only
    rw [get?_insertAll_entries, hlayered, Option.bind_some]

/-- The parameters a plan finally gives an instance that a file is injected into. -/
theorem get?_finalParameters (hplan : planWithOverlaysAndDevices host bundle options devices = .ok plan)
    (hoverlaid : isPlain bundle options = false) {earlier later : List Overlay} {overlay : Overlay}
    (hsplit : (loadOverlays host bundle options).1 = earlier ++ overlay :: later) {inst : Instance}
    {entry : OverlayFile × ℕ} {raw : String} {file : InjectedFilePlan}
    (h : Injects host.toPlatform bundle.document earlier overlay inst entry raw file) (key : String) :
    (finalParameters plan inst.name).get? key = (authoredParameter bundle.document inst.name key).or
      ((atKey key (overlayParameters bundle.document later inst.name)).getLast?.or
        (overlaidParameter bundle.document (earlier ++ [overlay]) inst key)) := by
  obtain ⟨e, groups, he, hvalid, hgenerate⟩ := planWithOverlaysAndDevices_ok hplan
  obtain ⟨profiles, config, probes, outputs, remotes, -, -, -, -, -, rfl⟩ := generate_ok_iff.mp hgenerate
  have hkept := keepsSpec he
  have hnodup : (instanceNames bundle.document.spec.instances).Nodup :=
    instanceNames_of_stripped hkept.instances ▸ nodup_of_validate hvalid
  obtain ⟨resolved, resolution, hresolution⟩ := exists_overlaid hoverlaid he
  obtain ⟨_, _, hspec⟩ := spec_of_withDerivedHostRouting hresolution.derived
  have hinstances : e.bundle.document.spec.instances = resolved.spec.instances := by
    rw [hspec]
    rfl
  obtain ⟨authored, hauthored, hstripped⟩ := List.mem_map.mp h.authored
  obtain ⟨index, hindex⟩ := List.mem_iff_getElem?.mp hauthored
  obtain ⟨i, hi, hsame⟩ := exists_resolved hresolution.resolves hindex
  have hparameter := (resolve_at_key hnodup hresolution.resolves hindex hi key).2.2.2
  have hname : authored.name = inst.name := by
    have hnames : (strippedInstance authored).name = (strippedInstance inst).name := by rw [hstripped]
    exact hnames
  have hblock : authored.block = inst.block := by
    have hblocks : (strippedInstance authored).block = (strippedInstance inst).block := by rw [hstripped]
    exact hblocks
  have hiName : i.name = inst.name := by
    have hnames : (strippedInstance i).name = (strippedInstance authored).name := by rw [hsame]
    exact Eq.trans hnames hname
  have hiBlock : i.block = inst.block := by
    have hblocks : (strippedInstance i).block = (strippedInstance authored).block := by rw [hsame]
    exact Eq.trans hblocks hblock
  have hnamed : instanceNamed e.bundle.document.spec.instances inst.name = some i := by
    rw [← hiName]
    exact instanceNamed_of_getElem? (nodup_of_validate hvalid) (hinstances ▸ hi)
  have hauthoredNamed : instanceNamed bundle.document.spec.instances inst.name = some authored := by
    rw [← hname]
    exact instanceNamed_of_getElem? hnodup hindex
  have hfinal : finalParameters (assemblePlan host.toPlatform e.bundle e.overlay devices profiles config probes outputs
      remotes) inst.name = (defaultParameters e.bundle.document.spec i.block).insertAll i.parameters.entries := by
    rw [finalParameters]
    change (match instanceNamed e.bundle.document.spec.instances inst.name with
      | some i => _
      | none => _ : SortedMap String String) = _
    rw [hnamed]
    rfl
  have hlayers : parameterLayers bundle.document (loadOverlays host bundle options).1 authored =
      overlayParameters bundle.document (earlier ++ [overlay]) inst.name ++
        overlayParameters bundle.document later inst.name ++ authored.parameters.entries := by
    rw [← overlayParameters_append, List.append_assoc, List.singleton_append, ← hsplit, ← hname]
    rfl
  rw [hfinal, get?_insertAll_entries, hparameter, hlayers, hiBlock, atKey_append, atKey_append, List.getLast?_append,
    List.getLast?_append, atKey_entries, authoredParameter, hauthoredNamed, Option.bind_some, overlaidParameter,
    defaultParameters, defaultParameters, hkept.blocks]
  cases authored.parameters.get? key with
  | some value => rfl
  | none =>
    cases (atKey key (overlayParameters bundle.document later inst.name)).getLast? <;> rfl

theorem deployment_of_plan (hplan : planWithOverlaysAndDevices host bundle options devices = .ok plan) :
    variationName bundle.document.metadata.name options.variation = .ok plan.deployment := by
  obtain ⟨e, groups, he, -, hgenerate⟩ := planWithOverlaysAndDevices_ok hplan
  obtain ⟨profiles, config, probes, outputs, remotes, -, -, -, -, -, rfl⟩ := generate_ok_iff.mp hgenerate
  exact name_effective he

/-- A plan that injects something is made with overlays. -/
theorem isPlain_of_mem (hplan : planWithOverlaysAndDevices host bundle options devices = .ok plan)
    {file : InjectedFilePlan} (hfile : file ∈ plan.injectedFiles) : isPlain bundle options = false := by
  obtain ⟨e, groups, he, -, hgenerate⟩ := planWithOverlaysAndDevices_ok hplan
  obtain ⟨profiles, config, probes, outputs, remotes, -, -, -, -, -, rfl⟩ := generate_ok_iff.mp hgenerate
  rw [Bool.eq_false_iff]
  intro hplain
  rw [effective, if_pos hplain] at he
  change file ∈ (e.overlay.map (·.files)).getD [] at hfile
  rw [(madeEffective_of_plain he).2.2] at hfile
  cases hfile

/-- **Current variables.** The value a variable is rendered with is the final one iff it stays. -/
theorem current_iff (hplan : planWithOverlaysAndDevices host bundle options devices = .ok plan)
    (hoverlaid : isPlain bundle options = false) {earlier later : List Overlay} {overlay : Overlay}
    (hsplit : (loadOverlays host bundle options).1 = earlier ++ overlay :: later) {inst : Instance}
    {entry : OverlayFile × ℕ} {raw : String} {file : InjectedFilePlan}
    (h : Injects host.toPlatform bundle.document earlier overlay inst entry raw file) (name : String) :
    templateValue overlay inst.name bundle.document.metadata.name (effectiveParameters bundle.document.spec inst) name =
        templateValue overlay inst.name plan.deployment (finalParameters plan inst.name) name ↔
      Current bundle.document options (earlier ++ [overlay]) later inst name := by
  have hnot : ∀ {other : String}, Text.afterStart "parameters." other = none → ∀ key,
      Text.afterStart "parameters." other ≠ some key := fun hnone key hsome => by
    rw [hnone] at hsome
    cases hsome
  cases hparameter : Text.afterStart "parameters." name with
  | some key =>
    obtain ⟨hvariable, hinst, hdeployment⟩ := afterStart_of_parameter hparameter
    rw [templateValue, templateValue, if_neg hinst, if_neg hinst, if_neg hdeployment, if_neg hdeployment, hvariable,
      hparameter]
    dsimp only
    rw [Option.bind_some, Option.bind_some, get?_effectiveParameters h, get?_finalParameters hplan hoverlaid hsplit h]
    constructor
    · intro heq
      refine ⟨fun hname => absurd hname hdeployment, fun other hother hauthored value hlater => ?_⟩
      obtain rfl := Option.some.inj (hparameter.symm.trans hother)
      rw [hauthored, hlater] at heq
      exact heq
    · intro hcurrent
      cases hauthored : authoredParameter bundle.document inst.name key with
      | some value => rfl
      | none =>
        cases hlater : (atKey key (overlayParameters bundle.document later inst.name)).getLast? with
        | none => rfl
        | some value => exact hcurrent.parameter key hparameter hauthored value hlater
  | none =>
    have hcurrent : Current bundle.document options (earlier ++ [overlay]) later inst name ↔
        (name = "deployment.name" → options.variation = none) :=
      ⟨fun hcurrent => hcurrent.deployment, fun hname => ⟨hname, fun key hkey => absurd hkey (hnot hparameter key)⟩⟩
    rw [hcurrent, templateValue, templateValue, hparameter]
    by_cases hinst : name = "instance.name"
    · rw [if_pos hinst, if_pos hinst, hinst]
      simp
    by_cases hdeployment : name = "deployment.name"
    · rw [if_neg hinst, if_neg hinst, if_pos hdeployment, if_pos hdeployment, Option.some.injEq,
        variationName_eq_iff (deployment_of_plan hplan)]
      exact ⟨fun hnone _ => hnone, fun himp => himp hdeployment⟩
    · rw [if_neg hinst, if_neg hinst, if_neg hdeployment, if_neg hdeployment]
      exact ⟨fun _ hname => absurd hname hdeployment, fun _ => rfl⟩

/-- A template of a plan shows its final values iff its variables are current; all but one of
them may be taken to be. -/
theorem showsFinal_iff (hplan : planWithOverlaysAndDevices host bundle options devices = .ok plan)
    (hoverlaid : isPlain bundle options = false) {earlier later : List Overlay} {overlay : Overlay}
    (hsplit : (loadOverlays host bundle options).1 = earlier ++ overlay :: later) {inst : Instance}
    {entry : OverlayFile × ℕ} {raw : String} {file : InjectedFilePlan}
    (h : Injects host.toPlatform bundle.document earlier overlay inst entry raw file) (htemplate : entry.1.template = true)
    (stale : String) (hothers : ∀ name ∈ variablesOf raw, name ≠ stale →
      Current bundle.document options (earlier ++ [overlay]) later inst name) :
    ShowsFinal plan overlay inst.name raw file ↔
      ∀ name ∈ variablesOf raw, Current bundle.document options (earlier ++ [overlay]) later inst name := by
  let then' := templateValue overlay inst.name bundle.document.metadata.name (effectiveParameters bundle.document.spec inst)
  let final := templateValue overlay inst.name plan.deployment (finalParameters plan inst.name)
  have hcurrent : ∀ name, then' name = final name ↔ Current bundle.document options (earlier ++ [overlay]) later inst name :=
    current_iff hplan hoverlaid hsplit h
  have hrendered : render then' raw = .ok file.content.toList := by
    have hcontent := h.rendered
    rw [renderedContent, if_pos htemplate] at hcontent
    cases hout : render then' raw with
    | error name =>
      rw [show renderTemplate _ _ _ = Except.error name from hout] at hcontent
      cases hcontent
    | ok out =>
      rw [show renderTemplate _ _ _ = Except.ok out from hout] at hcontent
      rw [← Except.ok.inj hcontent, String.toList_ofList]
  constructor
  · intro hfinal name hname
    by_cases hstale : name = stale
    · subst hstale
      by_contra hnot
      obtain ⟨first, hfirst⟩ := Option.isSome_iff_exists.mp (isSome_of_rendered hrendered name hname)
      obtain ⟨second, hsecond⟩ := Option.isSome_iff_exists.mp (isSome_of_rendered hfinal name hname)
      have hne : first ≠ second := by
        rintro rfl
        exact hnot ((hcurrent name).mp (hfirst.trans hsecond.symm))
      -- the values at the turn, with the final one of the variable
      let mixed : String → Option String := fun other => if other = name then final name else then' other
      have hmixed : render mixed raw = .ok file.content.toList := by
        refine Eq.trans (renderTemplate_congr fun other hother => ?_) hfinal
        by_cases heq : other = name
        · exact (if_pos heq).trans (by rw [heq])
        · exact (if_neg heq).trans ((hcurrent other).mpr (hothers other hother heq))
      have hsame : ∀ other, other ≠ name → then' other = mixed other := fun other heq => (if_neg heq).symm
      have hlast : mixed name = some second := (if_pos rfl).trans hsecond
      exact renderTemplate_ne hsame hfirst hlast hne hname hrendered hmixed rfl
    · exact hothers name hname hstale
  · intro hall
    exact (renderTemplate_congr fun name hname => ((hcurrent name).mpr (hall name hname)).symm).trans hrendered

/-- **Templates.** Every file of a plan is injected by one of its overlays, and a template shows
the values the plan finally has iff all its variables are current, if at most one of them is not;
what the validation accepts is rendered, if its parameters exist. -/
theorem templates_final_iff (hplan : planWithOverlaysAndDevices host bundle options devices = .ok plan) :
    (∀ file ∈ plan.injectedFiles, Injected host.toPlatform bundle.document (loadOverlays host bundle options).1 file ∧
      ∀ earlier overlay later inst entry raw, (loadOverlays host bundle options).1 = earlier ++ overlay :: later →
        Injects host.toPlatform bundle.document earlier overlay inst entry raw file → entry.1.template = true →
        ∀ stale, (∀ name ∈ variablesOf raw, name ≠ stale →
            Current bundle.document options (earlier ++ [overlay]) later inst name) →
          (ShowsFinal plan overlay inst.name raw file ↔
            ∀ name ∈ variablesOf raw, Current bundle.document options (earlier ++ [overlay]) later inst name)) ∧
      ∀ (overlay : Overlay) (inst deployment path input : String) (parameters : SortedMap String String),
        templateErrors overlay path input = [] →
        (∀ name ∈ variablesOf input, ∀ key, Text.afterStart "parameters." name = some key →
          parameters.contains key = true) →
        ∃ out, render (templateValue overlay inst deployment parameters) input = .ok out := by
  refine ⟨fun file hfile => ⟨?_, fun earlier overlay later inst entry raw hsplit hinjects htemplate stale hothers => ?_⟩,
    fun overlay inst deployment path input parameters haccepted hparameters =>
      renderTemplate_of_accepted haccepted hparameters⟩
  · obtain ⟨e, groups, he, hvalid, hgenerate⟩ := planWithOverlaysAndDevices_ok hplan
    obtain ⟨profiles, config, probes, outputs, remotes, -, -, -, -, -, rfl⟩ := generate_ok_iff.mp hgenerate
    exact injected_of_effective he (instanceNames_of_stripped (keepsSpec he).instances ▸ nodup_of_validate hvalid) file hfile
  · exact showsFinal_iff hplan (isPlain_of_mem hplan hfile) hsplit hinjects htemplate stale hothers

end Plans

/-- An overlay that gives `front` a level, and injects files. -/
def levelOverlay (level : String) (files : List OverlayFile) : Overlay :=
  { frontOverlay ∅ [] with
    parameters := .ofList [("LEVEL", level)]
    files := files }

/-- A template. -/
def templateFile (content : String) : OverlayFile :=
  ⟨none, some content, ⟨"/runtime/level.conf"⟩, "0644", true, false⟩

/-- The machine of the shop with two overlays, of which the first has a template. -/
def layeredHost (content : String) : Host :=
  { shopHost with
    loadOverlay := fun path =>
      if Text.endsWith path.text "first.yaml" then .ok (levelOverlay "low" [templateFile content])
      else .ok (levelOverlay "high" []) }

/-- The content of the template of a plan, and what it would be with the final values. -/
def contents (content : String) (options : OverlayOptions) : Option (Option String × Option (List Char)) :=
  (planWithOverlaysAndDevices (layeredHost content) shopBundle options ∅).toOption.map fun plan =>
    (plan.injectedFiles.head?.map (·.content),
      (render (templateValue (levelOverlay "low" [templateFile content]) "front" plan.deployment
        (finalParameters plan "front")) content).toOption)

theorem exists_stale {content shown final : String} {options : OverlayOptions}
    (h : contents content options = some (some shown, some final.toList)) (hne : shown ≠ final) :
    ∃ plan, planWithOverlaysAndDevices (layeredHost content) shopBundle options ∅ = .ok plan ∧
      ∃ file ∈ plan.injectedFiles, file.content = shown ∧
        render (templateValue (levelOverlay "low" [templateFile content]) "front" plan.deployment
          (finalParameters plan "front")) content = .ok final.toList ∧
        ¬ShowsFinal plan (levelOverlay "low" [templateFile content]) "front" content file := by
  obtain ⟨plan, hplan, h⟩ := Option.map_eq_some_iff.mp h
  obtain ⟨hshown, hfinal⟩ := Prod.mk.inj h
  obtain ⟨file, hfile, rfl⟩ := Option.map_eq_some_iff.mp hshown
  have hrender := toOption_eq_some_iff.mp hfinal
  refine ⟨plan, toOption_eq_some_iff.mp hplan, file, List.mem_of_head? hfile, rfl, hrender, fun hshows => hne ?_⟩
  exact String.toList_inj.mp (Except.ok.inj (hshows.symm.trans hrender))

/-- A template of the first overlay shows its own level, and not that of the second; and with a
variation it shows the name of the base deployment. -/
theorem templates_stale :
    (∃ plan, planWithOverlaysAndDevices (layeredHost "level=$\x7bparameters.LEVEL\x7d") shopBundle
        ⟨[⟨"first.yaml"⟩, ⟨"second.yaml"⟩], none, ∅⟩ ∅ = .ok plan ∧
      ∃ file ∈ plan.injectedFiles, file.content = "level=low" ∧
        render (templateValue (levelOverlay "low" [templateFile "level=$\x7bparameters.LEVEL\x7d"]) "front" plan.deployment
          (finalParameters plan "front")) "level=$\x7bparameters.LEVEL\x7d" = .ok "level=high".toList ∧
        ¬ShowsFinal plan (levelOverlay "low" [templateFile "level=$\x7bparameters.LEVEL\x7d"]) "front"
          "level=$\x7bparameters.LEVEL\x7d" file) ∧
    ∃ plan, planWithOverlaysAndDevices (layeredHost "name=$\x7bdeployment.name\x7d") shopBundle
        ⟨[⟨"first.yaml"⟩], some "dev", ∅⟩ ∅ = .ok plan ∧
      ∃ file ∈ plan.injectedFiles, file.content = "name=shop" ∧
        render (templateValue (levelOverlay "low" [templateFile "name=$\x7bdeployment.name\x7d"]) "front" plan.deployment
          (finalParameters plan "front")) "name=$\x7bdeployment.name\x7d" = .ok "name=shop--dev".toList ∧
        ¬ShowsFinal plan (levelOverlay "low" [templateFile "name=$\x7bdeployment.name\x7d"]) "front"
          "name=$\x7bdeployment.name\x7d" file :=
  ⟨exists_stale (by decide +kernel) (by decide), exists_stale (by decide +kernel) (by decide)⟩

/-- An overlay that gives `front` a colour. -/
def colourOverlay : Overlay := { frontOverlay ∅ [] with parameters := .ofList [("COLOUR", "red")] }

/-- The text of a template that shows a level, and the instance. -/
def shownTemplate : String := "level=$\x7bparameters.LEVEL\x7d in $\x7binstance.name\x7d"

/-- The overlay that gives the level, with the template. -/
def shownOverlay : Overlay := levelOverlay "low" [templateFile shownTemplate]

/-- The machine of the shop with these two overlays, the template first. -/
def colouredHost : Host :=
  { shopHost with
    loadOverlay := fun path => .ok (if Text.endsWith path.text "first.yaml" then shownOverlay else colourOverlay) }

/-- The template stays current under a later overlay that gives another parameter, and under a
variation. -/
theorem templates_final_iff_level :
    ∃ plan, planWithOverlaysAndDevices colouredHost shopBundle ⟨[⟨"first.yaml"⟩, ⟨"second.yaml"⟩], some "dev", ∅⟩ ∅ =
        .ok plan ∧
      ∃ file ∈ plan.injectedFiles, file.content = "level=low in front" ∧
        ShowsFinal plan shownOverlay "front" shownTemplate file := by
  have hrun : ((planWithOverlaysAndDevices colouredHost shopBundle ⟨[⟨"first.yaml"⟩, ⟨"second.yaml"⟩], some "dev", ∅⟩ ∅).toOption.map
      fun plan => plan.injectedFiles.map fun file => (file.content, file.inst)) = some [("level=low in front", "front")] := by
    decide +kernel
  obtain ⟨plan, hplan, hfiles⟩ := Option.map_eq_some_iff.mp hrun
  have hok := toOption_eq_some_iff.mp hplan
  obtain ⟨file, hfile, hshown⟩ := List.map_eq_singleton_iff.mp hfiles
  obtain ⟨hcontent, hfront⟩ := Prod.mk.inj hshown
  have hmem : file ∈ plan.injectedFiles := hfile ▸ List.mem_singleton_self file
  refine ⟨plan, hok, file, hmem, hcontent, ?_⟩
  obtain ⟨⟨earlier, overlay, later, inst, entry, raw, hsplit, hinjects⟩, hshows⟩ := (templates_final_iff hok).1 file hmem
  have hloaded : (loadOverlays colouredHost shopBundle ⟨[⟨"first.yaml"⟩, ⟨"second.yaml"⟩], some "dev", ∅⟩).1 =
      [shownOverlay, colourOverlay] := by decide +kernel
  -- the second overlay injects nothing
  obtain ⟨rfl, rfl, rfl⟩ : earlier = [] ∧ overlay = shownOverlay ∧ later = [colourOverlay] := by
    rw [hloaded] at hsplit
    cases earlier with
    | nil =>
      obtain ⟨rfl, rfl⟩ := List.cons.inj hsplit
      exact ⟨rfl, rfl, rfl⟩
    | cons first rest =>
      cases rest with
      | nil =>
        obtain ⟨-, hrest⟩ := List.cons.inj hsplit
        obtain ⟨rfl, -⟩ := List.cons.inj hrest
        cases hinjects.listed
      | cons second rest => simp at hsplit
  obtain rfl : entry = (templateFile shownTemplate, 0) := by
    simpa [shownOverlay, levelOverlay] using hinjects.listed
  obtain rfl : shownTemplate = raw :=
    Option.some.inj (Except.ok.inj hinjects.read)
  have hinst : inst.name = "front" := by
    rw [hinjects.planned] at hfront
    exact hfront
  have hnames : variablesOf shownTemplate = ["parameters.LEVEL", "instance.name"] := by
    decide +kernel
  have hcurrent : ∀ name ∈ variablesOf shownTemplate,
      Current shopBundle.document ⟨[⟨"first.yaml"⟩, ⟨"second.yaml"⟩], some "dev", ∅⟩ [shownOverlay] [colourOverlay] inst name := by
    intro name hname
    rw [hnames] at hname
    refine ⟨?_, fun key hkey _ value hlater => ?_⟩
    · rintro rfl
      simp at hname
    · obtain rfl | rfl : name = "parameters.LEVEL" ∨ name = "instance.name" := by simpa using hname
      · have hlevel : Text.afterStart "parameters." "parameters.LEVEL" = some "LEVEL" := by decide +kernel
        obtain rfl := Option.some.inj (hlevel.symm.trans hkey)
        rw [hinst, show (atKey "LEVEL" (overlayParameters shopBundle.document [colourOverlay] "front")).getLast? = none from by
          decide +kernel] at hlater
        cases hlater
      · rw [show Text.afterStart "parameters." "instance.name" = none from by decide +kernel] at hkey
        cases hkey
  rw [← hinst]
  exact (hshows [] shownOverlay [colourOverlay] inst _ _ hloaded hinjects rfl "" fun name hname _ => hcurrent name hname).mpr hcurrent

end Apmpr.Planner
