import Mathlib.Data.List.Dedup
import Mathlib.Data.List.Infix
import Mathlib.Data.Rat.Defs
import Verl.Lib.Python

/-!
# Which parameters are trained

`apply_parameter_update_policy` of `verl/utils/parameter_update_policy.py` freezes all
parameters of a network but those of the experts, of the experts and the routers, or of the
attention, and counts what it has done.  The parameters are set on one walk of the modules
and counted on another.

A parameter is given by its identity, so that two modules may share one.  The classes of
`transformers` are tags, and it is taken to ship all of them.
-/

namespace Verl.ParameterPolicy

/-! ## Networks -/

/-- The architectures with a policy. -/
inductive ModelType where
  | olmoe
  | gemma4
  | gptOss
  | qwen3Moe
deriving DecidableEq

/-- The classes that the policies test for.  The root class is that of the whole model. -/
inductive ClassTag where
  | embedding
  | linear
  | root (modelType : ModelType)
  | attention (modelType : ModelType)
  | rmsNorm (modelType : ModelType)
  | moeBlock (modelType : ModelType)
  | experts (modelType : ModelType)
  | router (modelType : ModelType)
  | other (name : String)
deriving DecidableEq

abbrev ParamId := Nat

/-- The children of a module: the first with its name, its class, its own parameters and its
children, and the others. -/
inductive Children where
  | nil
  | cons (name : String) (tag : ClassTag) (params : List ParamId) (children siblings : Children)

/-- `nn.Module` -/
structure NnModule where
  tag : ClassTag
  params : List ParamId
  children : Children

namespace Children

/-- The child of a name. -/
def get? : Children → String → Option NnModule
  | nil, _ => none
  | cons name tag params children siblings, name' =>
      if name = name' then some ⟨tag, params, children⟩ else siblings.get? name'

/-- The modules below, each before its children. -/
def modules : Children → List NnModule
  | nil => []
  | cons _ tag params children siblings =>
      ⟨tag, params, children⟩ :: children.modules ++ siblings.modules

/-- The modules below with their names. -/
def namedModules : Children → String → List (String × NnModule)
  | nil, _ => []
  | cons name tag params children siblings, moduleName =>
      let fullName := (if moduleName = "" then "" else moduleName ++ ".") ++ name
      (fullName, ⟨tag, params, children⟩) :: children.namedModules fullName ++
        siblings.namedModules moduleName

end Children

namespace NnModule

variable (module : NnModule)

/-- `module.modules()` -/
def modules : List NnModule := module :: module.children.modules

/-- `module.named_modules()` -/
def namedModules : List (String × NnModule) := ("", module) :: module.children.namedModules ""

/-- `module.parameters(recurse=True)`, each parameter once. -/
def parameters : List ParamId := (module.modules.flatMap NnModule.params).dedup

end NnModule

/-- A model: its modules, the number of elements of its parameters, and what is read of its
configuration. -/
structure Network where
  root : NnModule
  numel : ParamId → Nat
  modelType : Option String
  textModelType : Option String

/-- `requires_grad` of the parameters. -/
abbrev Flags := ParamId → Bool

/-- `p.requires_grad = value` -/
def setFlag (value : Bool) (flags : Flags) (p : ParamId) : Flags :=
  fun p' => if p' = p then value else flags p'

/-- `_set_requires_grad` -/
def setRequiresGrad (value : Bool) (flags : Flags) (module : NnModule) : Flags :=
  module.parameters.foldl (setFlag value) flags

theorem Children.mem_modules_of_get? {children : Children} {name : String} {module : NnModule}
    (h : children.get? name = some module) : module ∈ children.modules := by
  induction children with
  | nil => cases h
  | cons name' tag params children siblings _ ihs =>
      rw [get?] at h
      rw [modules, List.cons_append, List.mem_cons, List.mem_append]
      split at h
      · exact .inl (Option.some.inj h).symm
      · exact .inr (.inr (ihs h))

/-! ## Modes and categories -/

inductive Mode where
  | full
  | moe
  | expertsOnly
  | attentionOnly
deriving DecidableEq

namespace Mode

def name : Mode → String
  | full => "full"
  | moe => "moe"
  | expertsOnly => "experts_only"
  | attentionOnly => "attention_only"

/-- `VALID_MODES` -/
def all : List Mode := [full, moe, expertsOnly, attentionOnly]

/-- A name that is in `VALID_MODES`. -/
def ofName (name : String) : Except Py.Error Mode :=
  match all.find? fun mode => decide (mode.name = name) with
  | some mode => .ok mode
  | none => .error (.value (s!"Invalid parameter_update.mode '{name}'. Must be one of " ++
      "('full', 'moe', 'experts_only', 'attention_only')."))

end Mode

inductive Category where
  | attention
  | experts
  | router
  | norm
  | embedding
  | lmHead
deriving DecidableEq

namespace Category

def name : Category → String
  | attention => "attention"
  | experts => "experts"
  | router => "router"
  | norm => "norm"
  | embedding => "embedding"
  | lmHead => "lm_head"

/-- The categories of an audit, in its order. -/
def all : List Category := [attention, experts, router, norm, embedding, lmHead]

end Category

/-- The categories that a mode names. -/
def Mode.categories : Mode → List Category
  | .full => []
  | .moe => [.experts, .router]
  | .expertsOnly => [.experts]
  | .attentionOnly => [.attention]

/-! ## Policies -/

/-- What the policies differ in.  `parts` are the router and the experts of a module, when it
is of a class that has them. -/
structure Policy where
  parts : NnModule → Option (List (Category × NnModule))
  attention : ClassTag
  norm : ClassTag
  internalNorms : Bool
  parts_mem : ∀ {module ps}, parts module = some ps → ∀ part ∈ ps,
    (part.1 = .experts ∨ part.1 = .router) ∧ part.2 ∈ module.modules

/-- The router and the experts of a sparse block are two of its attributes. -/
def blockParts (block : ClassTag) (router : String) (module : NnModule) :
    Option (List (Category × NnModule)) :=
  if module.tag = block then
    some (((module.children.get? router).map fun part => (Category.router, part)).toList ++
      ((module.children.get? "experts").map fun part => (Category.experts, part)).toList)
  else none

theorem mem_of_blockParts {block : ClassTag} {router : String} {module : NnModule}
    {ps : List (Category × NnModule)} (h : blockParts block router module = some ps) :
    ∀ part ∈ ps, (part.1 = .experts ∨ part.1 = .router) ∧ part.2 ∈ module.modules := by
  rw [blockParts] at h
  split at h
  · obtain rfl := Option.some.inj h
    intro part hpart
    simp only [List.mem_append, Option.mem_toList, Option.map_eq_some_iff] at hpart
    rcases hpart with ⟨m, hm, rfl⟩ | ⟨m, hm, rfl⟩
    · exact ⟨.inr rfl, List.mem_cons_of_mem _ (Children.mem_modules_of_get? hm)⟩
    · exact ⟨.inl rfl, List.mem_cons_of_mem _ (Children.mem_modules_of_get? hm)⟩
  · cases h

def olmoePolicy : Policy where
  parts := blockParts (.moeBlock .olmoe) "gate"
  attention := .attention .olmoe
  norm := .rmsNorm .olmoe
  internalNorms := true
  parts_mem := mem_of_blockParts

/-- The router and the experts have classes of their own. -/
def gemma4Policy : Policy where
  parts module :=
    if module.tag = .experts .gemma4 then some [(.experts, module)]
    else if module.tag = .router .gemma4 then some [(.router, module)]
    else none
  attention := .attention .gemma4
  norm := .rmsNorm .gemma4
  internalNorms := false
  parts_mem := by
    intro module ps h part hpart
    split at h
    · obtain rfl := Option.some.inj h
      obtain rfl := List.mem_singleton.mp hpart
      exact ⟨.inl rfl, List.mem_cons_self⟩
    · split at h
      · obtain rfl := Option.some.inj h
        obtain rfl := List.mem_singleton.mp hpart
        exact ⟨.inr rfl, List.mem_cons_self⟩
      · cases h

def gptOssPolicy : Policy where
  parts := blockParts (.moeBlock .gptOss) "router"
  attention := .attention .gptOss
  norm := .rmsNorm .gptOss
  internalNorms := false
  parts_mem := mem_of_blockParts

def qwen3MoePolicy : Policy where
  parts := blockParts (.moeBlock .qwen3Moe) "gate"
  attention := .attention .qwen3Moe
  norm := .rmsNorm .qwen3Moe
  internalNorms := true
  parts_mem := mem_of_blockParts

namespace Policy

variable (policy : Policy)

/-- The modules that are trained again when a module is visited. -/
def enabled (mode : Mode) (module : NnModule) : List NnModule :=
  match mode with
  | .full => []
  | .attentionOnly => if module.tag = policy.attention then [module] else []
  | .moe | .expertsOnly =>
      (((policy.parts module).getD []).filter fun part =>
        decide (part.1 = .experts ∨ mode = .moe)).map Prod.snd

/-- The two loops that set `requires_grad`. -/
def setFlags (network : Network) (mode : Mode) (flags : Flags) : Flags :=
  let flags := network.root.parameters.foldl (setFlag (decide (mode = .full))) flags
  network.root.modules.foldl
    (fun flags module => (policy.enabled mode module).foldl (setRequiresGrad true) flags) flags

/-- What the audit adds when a module is visited. -/
def listed (name : String) (module : NnModule) : List (Category × NnModule) :=
  if "embed_tokens".toList <:+ name.toList ∧ module.tag = .embedding then [(.embedding, module)]
  else if name = "lm_head" ∨ "lm_head".toList <:+ name.toList then
    if module.tag = .linear then [(.lmHead, module)] else []
  else
    match policy.parts module with
    | some parts => parts
    | none =>
        if module.tag = policy.attention then [(.attention, module)]
        else if module.tag = policy.norm then
          if policy.internalNorms ∧ ".self_attn.".toList <:+: ("." ++ name ++ ".").toList then
            [(.attention, module)]
          else [(.norm, module)]
        else []

end Policy

/-! ## The audit -/

structure Counts where
  trainable : Nat
  total : Nat
deriving DecidableEq

abbrev Categories := Category → Counts

/-- The counts of a category with one more parameter. -/
def count (network : Network) (flags : Flags) (categories : Categories)
    (e : Category × ParamId) : Categories :=
  fun c =>
    if c = e.1 then
      { trainable := (categories c).trainable + if flags e.2 then network.numel e.2 else 0
        total := (categories c).total + network.numel e.2 }
    else categories c

/-- `add`: the parameters of a module that have not been seen. -/
def add (network : Network) (flags : Flags) (st : List ParamId × Categories)
    (part : Category × NnModule) : List ParamId × Categories :=
  part.2.parameters.foldl
    (fun st p => if p ∈ st.1 then st else (p :: st.1, count network flags st.2 (part.1, p))) st

/-- The counts of all categories. -/
def Policy.audit (policy : Policy) (network : Network) (flags : Flags) : Categories :=
  (network.root.namedModules.foldl
    (fun st module => (policy.listed module.1 module.2).foldl (add network flags) st)
    ([], fun _ => ⟨0, 0⟩)).2

structure Summary where
  mode : Mode
  totalParameters : Nat
  trainableParameters : Nat
  frozenParameters : Int
  trainableRatio : ℚ
  categories : Categories

/-- `_build_audit_summary` -/
def buildAuditSummary (mode : Mode) (categories : Categories) : Summary :=
  let total := (Category.all.map fun c => (categories c).total).sum
  let trainable := (Category.all.map fun c => (categories c).trainable).sum
  { mode := mode
    totalParameters := total
    trainableParameters := trainable
    frozenParameters := total - trainable
    trainableRatio := if total > 0 then trainable / total else 0
    categories := categories }

/-- The four `apply_..._policy`. -/
def Policy.apply (policy : Policy) (network : Network) (mode : Mode) (flags : Flags) :
    Flags × Summary :=
  let flags := policy.setFlags network mode flags
  (flags, buildAuditSummary mode (policy.audit network flags))

def applyOlmoePolicy := olmoePolicy.apply

def applyGemma4Policy := gemma4Policy.apply

def applyGptOssPolicy := gptOssPolicy.apply

def applyQwen3MoePolicy := qwen3MoePolicy.apply

/-! ## Dispatch -/

/-- A module of a class is in the model. -/
def Network.has (network : Network) (tag : ClassTag) : Prop :=
  ∃ module ∈ network.root.modules, module.tag = tag

instance (network : Network) (tag : ClassTag) : Decidable (network.has tag) :=
  inferInstanceAs (Decidable (∃ module ∈ network.root.modules, module.tag = tag))

/-- The `is_model` tests. -/
def isModel (network : Network) : ModelType → Prop
  | .olmoe => network.has (.root .olmoe)
  | .gemma4 => network.has (.root .gemma4) ∨ network.has (.attention .gemma4) ∨
      network.modelType = some "gemma4" ∨ network.textModelType = some "gemma4_text" ∨
      network.textModelType = some "gemma4"
  | .gptOss => network.has (.root .gptOss)
  | .qwen3Moe => network.has (.root .qwen3Moe) ∨ network.modelType = some "qwen3_moe"

instance (network : Network) (modelType : ModelType) : Decidable (isModel network modelType) := by
  cases modelType <;> unfold isModel <;> infer_instance

/-- `_detect_model_type` -/
def detectModelType (network : Network) : Option ModelType :=
  [ModelType.olmoe, .gemma4, .gptOss, .qwen3Moe].find? fun modelType =>
    decide (isModel network modelType)

def ModelType.policy : ModelType → Policy
  | .olmoe => olmoePolicy
  | .gemma4 => gemma4Policy
  | .gptOss => gptOssPolicy
  | .qwen3Moe => qwen3MoePolicy

/-- `MODEL_PARAMETER_POLICIES` -/
def ModelType.apply : ModelType → Network → Mode → Flags → Flags × Summary
  | .olmoe => applyOlmoePolicy
  | .gemma4 => applyGemma4Policy
  | .gptOss => applyGptOssPolicy
  | .qwen3Moe => applyQwen3MoePolicy

/-! ## The strict check -/

/-- The categories are fully frozen. -/
def checkFrozen (mode : Mode) (categories : Categories) (cs : List Category) :
    Except Py.Error Unit :=
  cs.forM fun c => Py.check ((categories c).trainable = 0)
    (s!"[parameter_update][strict] mode='{mode.name}' requires '{c.name}' to be " ++
      s!"fully frozen, but {(categories c).trainable} params are trainable.")

/-- `_strict_validate` -/
def strictValidate (summary : Summary) (mode : Mode) : Except Py.Error Unit :=
  let cat := summary.categories
  match mode with
  | .full => Category.all.forM fun c =>
      Py.check (¬ ((cat c).total > 0 ∧ (cat c).trainable ≠ (cat c).total))
        (s!"[parameter_update][strict] full mode requires all '{c.name}' " ++
          s!"params trainable, got {(cat c).trainable}/{(cat c).total}.")
  | .attentionOnly => do
      Py.check ((cat .attention).trainable > 0)
        ("[parameter_update][strict] mode='attention_only' requires trainable " ++
          "attention layers, but attention trainable params == 0.")
      checkFrozen mode cat [.experts, .router, .norm, .embedding, .lmHead]
  | .moe => do
      checkFrozen mode cat [.attention, .norm, .embedding, .lmHead]
      Py.check ((cat .experts).trainable > 0)
        ("[parameter_update][strict] mode='moe' requires trainable experts, " ++
          "but experts trainable params == 0.")
      Py.check ((cat .router).trainable > 0)
        ("[parameter_update][strict] mode='moe' requires a trainable router, " ++
          "but router trainable params == 0.")
  | .expertsOnly => do
      checkFrozen mode cat [.attention, .norm, .embedding, .lmHead]
      Py.check ((cat .experts).trainable > 0)
        ("[parameter_update][strict] mode='experts_only' requires trainable experts, " ++
          "but experts trainable params == 0.")
      Py.check ((cat .router).trainable = 0)
        ("[parameter_update][strict] mode='experts_only' requires the router " ++
          s!"to be frozen, but {(cat .router).trainable} params are trainable.")

/-- `apply_parameter_update_policy`: the flags afterwards and the summary. -/
def applyParameterUpdatePolicy (network : Network) (mode : String) (strict : Bool)
    (flags : Flags) : Except Py.Error (Flags × Summary) := do
  let mode ← Mode.ofName mode
  match detectModelType network with
  | none =>
      if mode = .full then
        return (network.root.parameters.foldl (setFlag true) flags,
          buildAuditSummary mode fun _ => ⟨0, 0⟩)
      else .error (.value (s!"parameter_update.mode='{mode.name}' requires a registered model " ++
        "policy, but no model type matched the given model. Register a policy in " ++
        "MODEL_PARAMETER_POLICIES or use mode='full'."))
  | some modelType => do
      let (flags, summary) := modelType.apply network mode flags
      if strict then strictValidate summary mode
      return (flags, summary)

end Verl.ParameterPolicy
