import CcPanes.Daemon.Handlers
import CcPanes.Foundation.Json

/-!
# The provider of a launch

`resolve_provider_plan` of `provider_resolver.rs`.  The default provider is checked before it is
chosen, and the provider that was chosen is checked again, with its model.
-/

namespace CcPanes.ProviderResolver
open Option

inductive LaunchProviderSelection where
  | inherit | explicit | none
  deriving DecidableEq

inductive ProviderMode where
  | native | managed
  deriving DecidableEq

inductive ProviderSource where
  | request | launchProfile | legacyWorkspace | defaultProvider | native
  deriving DecidableEq

inductive ModelSource where
  | request | launchProfile | providerDefault | nativeDefault
  deriving DecidableEq

inductive ProviderType where
  | anthropic | bedrock | vertex | proxy | configProfile | openAI | gemini | kimi | cursor
  | openCode | grok | media
  deriving DecidableEq

/-- as it is serialised -/
def ProviderType.text : ProviderType → String
  | anthropic => "anthropic"
  | bedrock => "bedrock"
  | vertex => "vertex"
  | proxy => "proxy"
  | configProfile => "config_profile"
  | openAI => "open_ai"
  | gemini => "gemini"
  | kimi => "kimi"
  | cursor => "cursor"
  | openCode => "opencode"
  | grok => "grok"
  | media => "media"

structure ProviderModel where
  id : String
  label : Option String
  defaultEffort : Option String
  deriving DecidableEq

structure Provider where
  id : String
  providerType : ProviderType
  apiKey : Option String
  baseUrl : Option String
  configDir : Option String
  models : List ProviderModel
  defaultModelId : Option String
  isDefault : Bool
  deriving DecidableEq

structure ProviderResolutionInput where
  cliTool : CliTool
  selection : LaunchProviderSelection
  requestedProviderId : Option String := .none
  requestedModelId : Option String := .none
  profileProviderId : Option String := .none
  profileModelId : Option String := .none
  workspaceProviderId : Option String := .none
  defaultProviderId : Option String := .none
  adapterOptions : Option (String → Option Json) := .none

structure ResolvedProviderPlan where
  mode : ProviderMode
  selection : LaunchProviderSelection
  source : ProviderSource
  provider : Option Provider
  modelId : Option String
  modelLabel : Option String
  modelDefaultEffort : Option String
  modelSource : ModelSource
  deriving DecidableEq

structure ProviderError where
  code : String
  message : String
  cliTool : CliTool
  providerId : Option String
  modelId : Option String := .none
  deriving DecidableEq

structure Capabilities where
  supportsProvider : Bool
  compatibleProviderTypes : List String

/-- the registered adapters, and whether a path is a directory or a file with variables -/
structure LaunchHost where
  registry : String → Option Capabilities
  hasConfig : String → Bool

def systemProviderId : String := "__system__"

def normalizeId (id : Option String) : Option String := (id.map trim).filter (· ≠ "")

def optionText (options : Option (String → Option Json)) (key : String) : Option String :=
  options.bind fun options => (options key).bind Json.asStr

def effectiveSelection (input : ProviderResolutionInput) : LaunchProviderSelection :=
  let legacyNativeKimi := input.cliTool = .kimi && input.selection = .inherit &&
    optionText input.adapterOptions "kimiConfigMode" = some "native"
  let piNativeConfiguration := input.cliTool = .pi && input.selection = .inherit &&
    ["piNativeProvider", "piNativeModel"].any fun key =>
      (optionText input.adapterOptions key).any fun value => trim value ≠ ""
  if legacyNativeKimi || piNativeConfiguration then .none else input.selection

def nativePlan : ResolvedProviderPlan where
  mode := .native
  selection := .none
  source := .native
  provider := none
  modelId := none
  modelLabel := none
  modelDefaultEffort := none
  modelSource := .nativeDefault

section
variable (host : LaunchHost) (providers : List Provider)

def providerHasManagedConfiguration (provider : Provider) : Bool :=
  let hasKey := provider.apiKey.any fun value => trim value ≠ ""
  let hasUrl := provider.baseUrl.any fun value => trim value ≠ ""
  match provider.providerType with
  | .bedrock | .vertex => true
  | .configProfile => (normalizeId provider.configDir).any host.hasConfig
  | .cursor | .kimi => hasKey
  | _ => hasKey || hasUrl

def Capabilities.supports (capabilities : Capabilities) (provider : Provider) : Bool :=
  capabilities.supportsProvider &&
    capabilities.compatibleProviderTypes.any (· = provider.providerType.text)

/-- the provider that the default names, or the one that is marked -/
def defaultProvider (defaultProviderId : Option String) : Option Provider :=
  match defaultProviderId with
  | some id => providers.find? (·.id = id)
  | none => providers.find? (·.isDefault)

def compatibleDefaultProviderId (defaultProviderId : Option String) (cliTool : CliTool) :
    Option String :=
  if defaultProviderId = some systemProviderId then defaultProviderId
  else do
    let capabilities ← host.registry cliTool.asId
    let selected ← defaultProvider providers defaultProviderId
    if !providerHasManagedConfiguration host selected then none
    else if capabilities.supports selected then some selected.id
    else none

/-- the provider that was chosen, with its model -/
def managedPlan (input : ProviderResolutionInput) (selection : LaunchProviderSelection)
    (providerId : String) (source : ProviderSource) : Except ProviderError ResolvedProviderPlan := do
  let fail (code message : String) (modelId : Option String) :
      Except ProviderError ResolvedProviderPlan :=
    .error { code, message, cliTool := input.cliTool, providerId := some providerId, modelId }
  match providers.find? (·.id = providerId) with
  | none => fail "PROVIDER_NOT_FOUND" ("Provider '" ++ providerId ++ "' was not found") none
  | some provider =>
    if !providerHasManagedConfiguration host provider then
      fail "PROVIDER_CONFIG_INVALID"
        ("Provider '" ++ providerId ++ "' has no usable managed configuration") none
    else
      match host.registry input.cliTool.asId with
      | none =>
        fail "PROVIDER_UNSUPPORTED"
          ("CLI '" ++ input.cliTool.asId ++ "' has no registered provider adapter") none
      | some capabilities =>
        if !capabilities.supports provider then
          fail "PROVIDER_INCOMPATIBLE" ("Provider '" ++ providerId ++ "' (" ++
            provider.providerType.text ++ ") is not compatible with CLI '" ++
            input.cliTool.asId ++ "'") none
        else
          let (selectedModelId, modelSource) :=
            match normalizeId input.requestedModelId with
            | some modelId => (some modelId, ModelSource.request)
            | none =>
              match source, normalizeId input.profileModelId with
              | .launchProfile, some modelId => (some modelId, .launchProfile)
              | _, _ => (provider.defaultModelId, .providerDefault)
          let plan (model : Option ProviderModel) : ResolvedProviderPlan := {
            mode := .managed
            selection
            source
            provider := some provider
            modelId := model.map (·.id)
            modelLabel := model.bind (·.label)
            modelDefaultEffort := model.bind (·.defaultEffort)
            modelSource := if model.isSome then modelSource else .nativeDefault }
          match selectedModelId with
          | none => .ok (plan none)
          | some modelId =>
            match provider.models.find? (·.id = modelId) with
            | none =>
              fail "PROVIDER_MODEL_NOT_FOUND" ("Model '" ++ modelId ++
                "' is not configured for Provider '" ++ providerId ++ "'") (some modelId)
            | some model => .ok (plan (some model))

def resolveProviderPlan (input : ProviderResolutionInput) :
    Except ProviderError ResolvedProviderPlan :=
  let selection := effectiveSelection input
  let requested := normalizeId input.requestedProviderId
  let profile := normalizeId input.profileProviderId
  let workspace := normalizeId input.workspaceProviderId
  if selection = .none then .ok nativePlan
  else if requested = some systemProviderId then .ok nativePlan
  else if input.cliTool = .none then
    if selection = .explicit then
      .error {
        code := "PROVIDER_UNSUPPORTED"
        message := "Plain shell sessions do not support managed providers"
        cliTool := input.cliTool
        providerId := requested }
    else .ok nativePlan
  else if selection = .explicit ∧ requested = none then
    .error {
      code := "PROVIDER_REQUIRED"
      message := "Managed provider mode requires a provider id"
      cliTool := input.cliTool
      providerId := none }
  else
    let selected : Option (String × ProviderSource) :=
      if selection = .explicit then requested.map (·, .request)
      else
        (requested.map (·, ProviderSource.request)).or <|
          (profile.map (·, ProviderSource.launchProfile)).or <|
            (workspace.map (·, ProviderSource.legacyWorkspace)).or <|
              (compatibleDefaultProviderId host providers input.defaultProviderId
                input.cliTool).map (·, ProviderSource.defaultProvider)
    match selected with
    | none => .ok { nativePlan with selection }
    | some (providerId, source) =>
      if providerId = systemProviderId then .ok nativePlan
      else managedPlan host providers input selection providerId source

/-! ## what it is for -/

/-- the first source that is there, with its id -/
def firstPresent (input : ProviderResolutionInput) : Option (String × ProviderSource) :=
  match normalizeId input.requestedProviderId, normalizeId input.profileProviderId,
      normalizeId input.workspaceProviderId,
      compatibleDefaultProviderId host providers input.defaultProviderId input.cliTool with
  | some id, _, _, _ => some (id, .request)
  | none, some id, _, _ => some (id, .launchProfile)
  | none, none, some id, _ => some (id, .legacyWorkspace)
  | none, none, none, some id => some (id, .defaultProvider)
  | none, none, none, none => none

/-- two inputs differ in nothing that the first source lets decide -/
structure SameSource (a b : ProviderResolutionInput) : Prop where
  cliTool : a.cliTool = b.cliTool
  first : firstPresent host providers a = firstPresent host providers b
  requestedModel : normalizeId a.requestedModelId = normalizeId b.requestedModelId
  profileModel : ∀ id, firstPresent host providers a = some (id, .launchProfile) →
    normalizeId a.profileModelId = normalizeId b.profileModelId

/-- the default provider is the first one with its id, and its default model, if it has one, is one
of its models -/
def DefaultListed (defaultProviderId : Option String) : Prop :=
  ∀ p, defaultProvider providers defaultProviderId = some p →
    providers.find? (·.id = p.id) = some p ∧
      ∀ modelId, p.defaultModelId = some modelId → ∃ model ∈ p.models, model.id = modelId

end

section
variable {host : LaunchHost} {providers : List Provider} {input : ProviderResolutionInput}

theorem resolve_inherit (h : effectiveSelection input = .inherit) :
    resolveProviderPlan host providers input =
      if input.cliTool = .none then .ok nativePlan
      else
        match firstPresent host providers input with
        | none => .ok { nativePlan with selection := .inherit }
        | some (id, source) =>
          if id = systemProviderId then .ok nativePlan
          else managedPlan host providers input .inherit id source := by
  unfold resolveProviderPlan firstPresent
  rw [h]
  cases hrequested : normalizeId input.requestedProviderId with
  | some id =>
    by_cases hsystem : id = systemProviderId
    · simp [hsystem]
    · simp [hsystem]
  | none =>
    cases normalizeId input.profileProviderId with
    | some => simp
    | none =>
      cases normalizeId input.workspaceProviderId with
      | some => simp
      | none =>
        cases compatibleDefaultProviderId host providers input.defaultProviderId input.cliTool with
        | some => simp
        | none => simp

theorem managedPlan_source {selection : LaunchProviderSelection} {id : String}
    {source : ProviderSource} {plan : ResolvedProviderPlan}
    (h : managedPlan host providers input selection id source = .ok plan) :
    plan.source = source := by
  unfold managedPlan at h
  dsimp only at h
  split at h
  · cases h
  split at h
  · cases h
  split at h
  · cases h
  split at h
  · cases h
  split at h
  · cases h
    rfl
  split at h
  · cases h
  · cases h
    rfl

/-- a managed plan asks for no more than its source lets decide -/
theorem managedPlan_congr {input' : ProviderResolutionInput} {selection : LaunchProviderSelection}
    {id : String} {source : ProviderSource} (hcli : input.cliTool = input'.cliTool)
    (hmodel : normalizeId input.requestedModelId = normalizeId input'.requestedModelId)
    (hprofile : source = .launchProfile →
      normalizeId input.profileModelId = normalizeId input'.profileModelId) :
    managedPlan host providers input selection id source =
      managedPlan host providers input' selection id source := by
  unfold managedPlan
  rw [hcli, hmodel]
  cases source with
  | launchProfile => rw [hprofile rfl]
  | request => rfl
  | legacyWorkspace => rfl
  | defaultProvider => rfl
  | native => rfl

/-- a default that was chosen passes the checks again -/
theorem managedPlan_default {id : String}
    (hid : compatibleDefaultProviderId host providers input.defaultProviderId input.cliTool = some id)
    (hsystem : id ≠ systemProviderId) (hlisted : DefaultListed providers input.defaultProviderId)
    (hmodel : normalizeId input.requestedModelId = none) :
    ∃ plan, managedPlan host providers input .inherit id .defaultProvider = .ok plan := by
  unfold compatibleDefaultProviderId at hid
  split at hid
  · next hdefault => exact absurd (some.inj (hid.symm.trans hdefault)) hsystem
  obtain ⟨capabilities, hregistry, hid⟩ := bind_eq_some_iff.mp hid
  obtain ⟨selected, hselected, hid⟩ := bind_eq_some_iff.mp hid
  obtain ⟨hfirst, hmodels⟩ := hlisted selected hselected
  split at hid
  · cases hid
  next hconfig =>
  split at hid
  · next hsupports =>
    cases hid
    unfold managedPlan
    simp only [hfirst, hregistry, hmodel, hconfig, hsupports, Bool.not_true,
      Bool.false_eq_true, if_false]
    cases hdefault : selected.defaultModelId with
    | none => exact ⟨_, rfl⟩
    | some modelId =>
      obtain ⟨model, hmem, hid⟩ := hmodels modelId hdefault
      dsimp only
      cases hfind : selected.models.find? (·.id = modelId) with
      | none => exact absurd (decide_eq_true hid) (List.find?_eq_none.mp hfind model hmem)
      | some => exact ⟨_, rfl⟩
  · cases hid

end

/-- **The first source that is there decides**, unless it is the system provider or the session is a
plain shell, and **a default is no error** if its model is listed -/
theorem resolution_precedence (host : LaunchHost) (providers : List Provider) :
    (∀ input, effectiveSelection input = .inherit → (input.cliTool = .none ∨
        ∃ source, firstPresent host providers input = some (systemProviderId, source)) →
      resolveProviderPlan host providers input = .ok nativePlan) ∧
    (∀ input plan, effectiveSelection input = .inherit → input.cliTool ≠ .none →
      (∀ source, firstPresent host providers input ≠ some (systemProviderId, source)) →
      resolveProviderPlan host providers input = .ok plan →
      plan.source = ((firstPresent host providers input).map (·.2)).getD .native) ∧
    (∀ a b, effectiveSelection a = .inherit → effectiveSelection b = .inherit →
      SameSource host providers a b →
      resolveProviderPlan host providers a = resolveProviderPlan host providers b) ∧
    ∀ input, effectiveSelection input = .inherit → normalizeId input.requestedProviderId = none →
      normalizeId input.profileProviderId = none → normalizeId input.workspaceProviderId = none →
      normalizeId input.requestedModelId = none → DefaultListed providers input.defaultProviderId →
      ∃ plan, resolveProviderPlan host providers input = .ok plan := by
  refine ⟨?_, ?_, ?_, ?_⟩
  · intro input hinherit hnative
    rw [resolve_inherit hinherit]
    split
    · rfl
    next hcli =>
    obtain ⟨source, hfirst⟩ := hnative.resolve_left hcli
    rw [hfirst]
    exact if_pos rfl
  · intro input plan hinherit hcli hsystem hplan
    rw [resolve_inherit hinherit, if_neg hcli] at hplan
    cases hfirst : firstPresent host providers input with
    | none =>
      rw [hfirst] at hplan
      cases hplan
      rfl
    | some first =>
      obtain ⟨id, source⟩ := first
      rw [hfirst] at hplan
      have hid : id ≠ systemProviderId := fun h => hsystem source (h ▸ hfirst)
      exact managedPlan_source ((if_neg hid).symm.trans hplan)
  · intro a b ha hb hsame
    rw [resolve_inherit ha, resolve_inherit hb, hsame.cliTool]
    have hprofile := hsame.profileModel
    rw [hsame.first] at hprofile ⊢
    cases hfirst : firstPresent host providers b with
    | none => rfl
    | some first =>
      obtain ⟨id, source⟩ := first
      dsimp only
      rw [managedPlan_congr hsame.cliTool hsame.requestedModel]
      rintro rfl
      exact hprofile id hfirst
  · intro input hinherit hrequested hprofile hworkspace hmodel hlisted
    rw [resolve_inherit hinherit]
    unfold firstPresent
    rw [hrequested, hprofile, hworkspace]
    split
    · exact ⟨_, rfl⟩
    cases hid : compatibleDefaultProviderId host providers input.defaultProviderId
      input.cliTool with
    | none => exact ⟨_, rfl⟩
    | some id =>
      dsimp only
      split
      · exact ⟨_, rfl⟩
      · next hsystem => exact managedPlan_default hid hsystem hlisted hmodel

def claudeHost : LaunchHost where
  registry _ := some ⟨true, ["anthropic"]⟩
  hasConfig _ := false

def unlistedDefault : Provider where
  id := "p"
  providerType := .anthropic
  apiKey := some "key"
  baseUrl := none
  configDir := none
  models := []
  defaultModelId := some "m"
  isDefault := true

def plainLaunch : ProviderResolutionInput where
  cliTool := .claude
  selection := .inherit

def systemProfile : ProviderResolutionInput :=
  { plainLaunch with profileProviderId := some "__system__" }

/-- a profile that names the system provider gives the native plan, and a default is refused for
its model -/
theorem precedence_fails : ¬ ((∀ input plan id source, effectiveSelection input = .inherit →
      firstPresent claudeHost [unlistedDefault] input = some (id, source) →
      resolveProviderPlan claudeHost [unlistedDefault] input = .ok plan → plan.source = source) ∨
    ∃ plan, resolveProviderPlan claudeHost [unlistedDefault] plainLaunch = .ok plan) := by
  rintro (h | ⟨plan, hplan⟩)
  · have hsource := h systemProfile nativePlan "__system__" .launchProfile (by decide)
      (by decide +kernel) (by decide +kernel)
    cases hsource
  have hfails : (resolveProviderPlan claudeHost [unlistedDefault] plainLaunch).isOk = false := by
    decide +kernel
  rw [hplan] at hfails
  cases hfails

end CcPanes.ProviderResolver
