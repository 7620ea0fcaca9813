import Mathlib.Algebra.BigOperators.Group.List.Basic
import Verl.Lib.FirstCome
import Verl.Workers.ParameterUpdatePolicy

/-!
# The audit of an update policy

The flags afterwards are those the mode asks for, whatever they were before
(`setFlags_eq_true_iff`).  The audit counts the parameters of each category
(`audit_eq`), but only under the modules that it lists, so that its sums are those of the
model when all parameters are under one (`policyTells_iff`).
-/

namespace Verl.ParameterPolicy

open FirstCome

/-! ## What the policy is to do -/

/-- The elements of parameters. -/
def Network.elements (network : Network) (ps : List ParamId) : Nat := (ps.map network.numel).sum

/-- The modules of a category that is trained, when a module is visited. -/
def Policy.ofCategory (policy : Policy) (c : Category) (module : NnModule) : List NnModule :=
  match c with
  | .attention => if module.tag = policy.attention then [module] else []
  | c => (((policy.parts module).getD []).filter fun part => decide (part.1 = c)).map Prod.snd

/-- A parameter lies under a module of a category. -/
def Policy.Under (policy : Policy) (network : Network) (c : Category) (p : ParamId) : Prop :=
  ∃ module ∈ network.root.modules, ∃ part ∈ policy.ofCategory c module, p ∈ part.parameters

/-- The category of the parameter under the first module that is listed for a visited one. -/
def Policy.ownCategory (policy : Policy) (name : String) (module : NnModule) (p : ParamId) :
    Option Category :=
  ((policy.listed name module).find? fun part => decide (p ∈ part.2.parameters)).map Prod.fst

/-- The category of the outermost listed module that a parameter lies under. -/
def Policy.childCategory (policy : Policy) (p : ParamId) : Children → String → Option Category
  | .nil, _ => none
  | .cons name tag params children siblings, moduleName =>
      let fullName := (if moduleName = "" then "" else moduleName ++ ".") ++ name
      (policy.ownCategory fullName ⟨tag, params, children⟩ p).or
        ((policy.childCategory p children fullName).or (policy.childCategory p siblings moduleName))

/-- The category of a parameter, none when no listed module is above it. -/
def Policy.category (policy : Policy) (network : Network) (p : ParamId) : Option Category :=
  (policy.ownCategory "" network.root p).or (policy.childCategory p network.root.children "")

/-- The policy trains what the mode names and its audit is right. -/
structure PolicyTells (policy : Policy) (network : Network) (mode : Mode)
    (result : Flags × Summary) : Prop where
  trained : ∀ p ∈ network.root.parameters, result.1 p = true ↔
    mode = .full ∨ ∃ c ∈ mode.categories, policy.Under network c p
  independent : ∀ flags, ∃ flags', applyParameterUpdatePolicy network mode.name true flags =
    .ok (flags', result.2) ∧ ∀ p ∈ network.root.parameters, flags' p = result.1 p
  total : result.2.totalParameters = network.elements network.root.parameters
  trainable : result.2.trainableParameters =
    network.elements (network.root.parameters.filter result.1)
  categories : ∀ c, result.2.categories c =
    { trainable := network.elements (network.root.parameters.filter fun p =>
        decide (policy.category network p = some c) && result.1 p)
      total := network.elements (network.root.parameters.filter fun p =>
        decide (policy.category network p = some c)) }

/-! ## Modules -/

theorem Children.map_snd_namedModules (children : Children) (moduleName : String) :
    (children.namedModules moduleName).map Prod.snd = children.modules := by
  induction children generalizing moduleName with
  | nil => rfl
  | cons name tag params children siblings ihc ihs =>
      rw [namedModules, modules, List.map_append, List.map_cons, ihc, ihs]

theorem NnModule.map_snd_namedModules (module : NnModule) :
    module.namedModules.map Prod.snd = module.modules := by
  rw [namedModules, List.map_cons, Children.map_snd_namedModules, modules]

theorem Children.modules_subset {children : Children} {module : NnModule}
    (h : module ∈ children.modules) : module.modules ⊆ children.modules := by
  induction children with
  | nil => exact absurd h List.not_mem_nil
  | cons name tag params children siblings ihc ihs =>
      rw [modules, List.cons_append, List.mem_cons, List.mem_append] at h
      rw [modules, List.cons_append]
      rcases h with rfl | h | h
      · exact List.cons_subset_cons _ (List.subset_append_left _ _)
      · exact fun m hm => List.mem_cons_of_mem _ (List.mem_append_left _ (ihc h hm))
      · exact fun m hm => List.mem_cons_of_mem _ (List.mem_append_right _ (ihs h hm))

theorem NnModule.modules_subset {module module' : NnModule} (h : module' ∈ module.modules) :
    module'.modules ⊆ module.modules := by
  rcases List.mem_cons.mp h with rfl | h
  · exact List.Subset.refl _
  · exact fun m hm => List.mem_cons_of_mem _ (Children.modules_subset h hm)

theorem NnModule.parameters_subset {module module' : NnModule} (h : module' ∈ module.modules) :
    module'.parameters ⊆ module.parameters := by
  intro p hp
  rw [parameters, List.mem_dedup, List.mem_flatMap] at hp ⊢
  obtain ⟨m, hm, hp⟩ := hp
  exact ⟨m, modules_subset h hm, hp⟩

theorem Policy.mem_modules_of_listed {policy : Policy} {name : String} {module : NnModule}
    {part : Category × NnModule} (h : part ∈ policy.listed name module) :
    part.2 ∈ module.modules := by
  have hself : ∀ {c : Category}, part ∈ [(c, module)] → part.2 ∈ module.modules := by
    intro c hmem
    obtain rfl := List.mem_singleton.mp hmem
    exact List.mem_cons_self
  rw [listed] at h
  split at h
  · exact hself h
  · split at h
    · split at h
      · exact hself h
      · exact absurd h List.not_mem_nil
    · cases hps : policy.parts module with
      | some ps =>
          rw [hps] at h
          exact (policy.parts_mem hps part h).2
      | none =>
          simp only [hps] at h
          split at h
          · exact hself h
          · split at h
            · split at h
              · exact hself h
              · exact hself h
            · exact absurd h List.not_mem_nil

/-! ## The flags -/

theorem foldl_setFlag (value : Bool) (ps : List ParamId) (flags : Flags) (p : ParamId) :
    ps.foldl (setFlag value) flags p = if p ∈ ps then value else flags p := by
  induction ps generalizing flags with
  | nil => rfl
  | cons p' ps ih =>
      rw [List.foldl_cons, ih, setFlag]
      by_cases heq : p = p'
      · rw [if_pos heq, ite_self, if_pos (List.mem_cons.mpr (.inl heq))]
      · rw [if_neg heq]
        simp only [List.mem_cons, heq, false_or]

theorem foldl_setRequiresGrad (parts : List NnModule) (flags : Flags) (p : ParamId) :
    parts.foldl (setRequiresGrad true) flags p = true ↔
      flags p = true ∨ ∃ part ∈ parts, p ∈ part.parameters := by
  induction parts generalizing flags with
  | nil => simp
  | cons part parts ih =>
      rw [List.foldl_cons, ih, setRequiresGrad, foldl_setFlag, List.exists_mem_cons_iff, ← or_assoc]
      refine or_congr_left ?_
      split
      next h => exact iff_of_true rfl (.inr h)
      next h => exact (or_iff_left h).symm

theorem foldl_enabled (policy : Policy) (mode : Mode) (modules : List NnModule) (flags : Flags)
    (p : ParamId) :
    modules.foldl (fun flags module =>
        (policy.enabled mode module).foldl (setRequiresGrad true) flags) flags p = true ↔
      flags p = true ∨ ∃ module ∈ modules, ∃ part ∈ policy.enabled mode module,
        p ∈ part.parameters := by
  induction modules generalizing flags with
  | nil => simp
  | cons module modules ih =>
      rw [List.foldl_cons, ih, foldl_setRequiresGrad, List.exists_mem_cons_iff, or_assoc]

theorem Policy.mem_ofCategory {policy : Policy} {c : Category} (hc : c ≠ .attention)
    {module part : NnModule} : part ∈ policy.ofCategory c module ↔
      ∃ ps, policy.parts module = some ps ∧ (c, part) ∈ ps := by
  have hdef : policy.ofCategory c module =
      (((policy.parts module).getD []).filter fun part => decide (part.1 = c)).map Prod.snd := by
    cases c <;> first | rfl | exact absurd rfl hc
  rw [hdef, List.mem_map]
  cases policy.parts module with
  | none => simp
  | some ps =>
      simp only [Option.getD_some, List.mem_filter, decide_eq_true_eq, Option.some.injEq,
        exists_eq_left']
      constructor
      · rintro ⟨⟨c', part'⟩, ⟨hmem, rfl⟩, rfl⟩
        exact hmem
      · exact fun hmem => ⟨(c, part), ⟨hmem, rfl⟩, rfl⟩

/-- A visited module enables its modules of the categories that the mode names. -/
theorem Policy.mem_enabled_iff {policy : Policy} {mode : Mode} {module part : NnModule} :
    part ∈ policy.enabled mode module ↔
      ∃ c ∈ mode.categories, part ∈ policy.ofCategory c module := by
  have hparts : ∀ mode' : Mode, part ∈ (((policy.parts module).getD []).filter fun part =>
      decide (part.1 = .experts ∨ mode' = .moe)).map Prod.snd ↔
        ∃ ps, policy.parts module = some ps ∧ ((.experts, part) ∈ ps ∨
          mode' = .moe ∧ (.router, part) ∈ ps) := by
    intro mode'
    rw [List.mem_map]
    cases hps : policy.parts module with
    | none => simp
    | some ps =>
        simp only [Option.getD_some, List.mem_filter, decide_eq_true_eq, Option.some.injEq,
          exists_eq_left']
        constructor
        · rintro ⟨⟨c, part'⟩, ⟨hmem, hc⟩, rfl⟩
          rcases (policy.parts_mem hps _ hmem).1 with rfl | rfl
          · exact .inl hmem
          · exact .inr ⟨hc.resolve_left nofun, hmem⟩
        · rintro (hmem | ⟨hmoe, hmem⟩)
          · exact ⟨_, ⟨hmem, .inl rfl⟩, rfl⟩
          · exact ⟨_, ⟨hmem, .inr hmoe⟩, rfl⟩
  have hexperts : Category.experts ≠ .attention := nofun
  have hrouter : Category.router ≠ .attention := nofun
  cases mode with
  | full => exact iff_of_false List.not_mem_nil fun ⟨_, hc, _⟩ => List.not_mem_nil hc
  | attentionOnly =>
      simp only [Mode.categories, List.mem_singleton, exists_eq_left]
      rfl
  | expertsOnly =>
      simp only [Mode.categories, List.mem_singleton, exists_eq_left]
      rw [mem_ofCategory hexperts]
      refine (hparts .expertsOnly).trans (exists_congr fun ps => and_congr_right fun _ => ?_)
      exact or_iff_left fun h => Mode.noConfusion h.1
  | moe =>
      simp only [Mode.categories, List.mem_cons, List.not_mem_nil, or_false, exists_eq_or_imp,
        exists_eq_left]
      rw [mem_ofCategory hexperts, mem_ofCategory hrouter, ← exists_or]
      refine (hparts .moe).trans (exists_congr fun ps => ?_)
      rw [← and_or_left]
      exact and_congr_right fun _ => or_congr_right (and_iff_right rfl)

/-- The flags afterwards, whatever they were before. -/
theorem Policy.setFlags_eq_true_iff (policy : Policy) (network : Network) (mode : Mode)
    (flags : Flags) {p : ParamId} (hp : p ∈ network.root.parameters) :
    policy.setFlags network mode flags p = true ↔
      mode = .full ∨ ∃ c ∈ mode.categories, policy.Under network c p := by
  rw [setFlags, foldl_enabled, foldl_setFlag, if_pos hp, decide_eq_true_eq]
  refine or_congr_right ?_
  simp only [mem_enabled_iff, Under]
  constructor
  · rintro ⟨module, hmodule, part, ⟨c, hc, hpart⟩, hmem⟩
    exact ⟨c, hc, module, hmodule, part, hpart, hmem⟩
  · rintro ⟨c, hc, module, hmodule, part, hpart, hmem⟩
    exact ⟨module, hmodule, part, ⟨c, hc, hpart⟩, hmem⟩

/-! ## The counts -/

/-- The parameters that the audit comes to, each with the category it comes to it for. -/
def Policy.entries (policy : Policy) (network : Network) : List (Category × ParamId) :=
  (network.root.namedModules.flatMap fun module => policy.listed module.1 module.2).flatMap
    fun part => part.2.parameters.map fun p => (part.1, p)

theorem Policy.audit_eq_foldl (policy : Policy) (network : Network) (flags : Flags) :
    policy.audit network flags =
      (firsts [] (policy.entries network)).foldl (count network flags) fun _ => ⟨0, 0⟩ := by
  rw [← foldl_unseen, entries, List.foldl_flatMap, List.foldl_flatMap, audit]
  simp only [List.foldl_map]
  rfl

theorem find?_map_pair (c : Category) (ps : List ParamId) (p : ParamId) :
    ((ps.map fun p' => (c, p')).find? fun e => decide (e.2 = p)) =
      if p ∈ ps then some (c, p) else none := by
  induction ps with
  | nil => rfl
  | cons p' ps ih =>
      rw [List.map_cons, List.find?_cons, ih]
      by_cases heq : p' = p
      · subst heq
        simp only [decide_true, List.mem_cons, true_or, if_true]
      · have hmem : p ∈ p' :: ps ↔ p ∈ ps :=
          List.mem_cons.trans (or_iff_right fun h => heq h.symm)
        simp only [heq, decide_false, hmem]

theorem find?_parts (parts : List (Category × NnModule)) (p : ParamId) :
    ((parts.flatMap fun part => part.2.parameters.map fun p => (part.1, p)).find?
        fun e => decide (e.2 = p)).map Prod.fst =
      (parts.find? fun part => decide (p ∈ part.2.parameters)).map Prod.fst := by
  induction parts with
  | nil => rfl
  | cons part parts ih =>
      rw [List.flatMap_cons, List.find?_append, Option.map_or, ih, find?_map_pair, List.find?_cons]
      by_cases hmem : p ∈ part.2.parameters
      · rw [if_pos hmem, decide_eq_true hmem]
        rfl
      · rw [if_neg hmem, decide_eq_false hmem]
        rfl

theorem Policy.childCategory_eq_find? (policy : Policy) (p : ParamId) (children : Children)
    (moduleName : String) : policy.childCategory p children moduleName =
      (((children.namedModules moduleName).flatMap
        fun module => policy.listed module.1 module.2).find?
          fun part => decide (p ∈ part.2.parameters)).map Prod.fst := by
  induction children generalizing moduleName with
  | nil => rfl
  | cons name tag params children siblings ihc ihs =>
      rw [childCategory, Children.namedModules, List.cons_append, List.flatMap_cons,
        List.flatMap_append, List.find?_append, List.find?_append, Option.map_or, Option.map_or,
        ← ihc, ← ihs]
      rfl

/-- The category is that of the first entry. -/
theorem Policy.category_eq_find? (policy : Policy) (network : Network) (p : ParamId) :
    policy.category network p =
      ((policy.entries network).find? fun e => decide (e.2 = p)).map Prod.fst := by
  rw [entries, find?_parts, category, childCategory_eq_find?, NnModule.namedModules,
    List.flatMap_cons, List.find?_append, Option.map_or]
  rfl

theorem Policy.mem_parameters_of_entries {policy : Policy} {network : Network}
    {e : Category × ParamId} (h : e ∈ policy.entries network) :
    e.2 ∈ network.root.parameters := by
  rw [entries, List.mem_flatMap] at h
  obtain ⟨part, hpart, h⟩ := h
  obtain ⟨p, hp, rfl⟩ := List.mem_map.mp h
  obtain ⟨module, hmodule, hpart⟩ := List.mem_flatMap.mp hpart
  have hvisited : module.2 ∈ network.root.modules := by
    rw [← NnModule.map_snd_namedModules]
    exact List.mem_map_of_mem hmodule
  exact NnModule.parameters_subset
    (NnModule.modules_subset hvisited (mem_modules_of_listed hpart)) hp

theorem Policy.mem_firsts_entries {policy : Policy} {network : Network} {c : Category}
    {p : ParamId} : (c, p) ∈ firsts [] (policy.entries network) ↔
      p ∈ network.root.parameters ∧ policy.category network p = some c := by
  rw [mem_firsts, category_eq_find?]
  constructor
  · rintro ⟨-, hfind⟩
    exact ⟨mem_parameters_of_entries (List.mem_of_find?_eq_some hfind), by rw [hfind]; rfl⟩
  · rintro ⟨-, hcategory⟩
    refine ⟨List.not_mem_nil, ?_⟩
    obtain ⟨⟨c', p'⟩, hfind, rfl⟩ := Option.map_eq_some_iff.mp hcategory
    have heq := List.find?_some hfind
    obtain rfl : p' = p := of_decide_eq_true heq
    exact hfind

/-- The parameters of the entries of a category. -/
def ofEntries (c : Category) (es : List (Category × ParamId)) : List ParamId :=
  (es.filter fun e => decide (e.1 = c)).map Prod.snd

theorem Network.elements_cons (network : Network) (p : ParamId) (ps : List ParamId) :
    network.elements (p :: ps) = network.numel p + network.elements ps := List.sum_cons

theorem Network.elements_perm (network : Network) {ps ps' : List ParamId} (h : ps.Perm ps') :
    network.elements ps = network.elements ps' := (h.map network.numel).sum_eq

theorem foldl_count (network : Network) (flags : Flags) (es : List (Category × ParamId))
    (categories : Categories) (c : Category) :
    es.foldl (count network flags) categories c =
      { trainable := (categories c).trainable +
          network.elements ((ofEntries c es).filter flags)
        total := (categories c).total + network.elements (ofEntries c es) } := by
  induction es generalizing categories with
  | nil => rfl
  | cons e es ih =>
      rw [List.foldl_cons, ih, count, ofEntries, ofEntries, List.filter_cons]
      by_cases hc : e.1 = c
      · rw [if_pos hc.symm, if_pos (decide_eq_true hc), List.map_cons, Network.elements_cons,
          Nat.add_assoc, List.filter_cons]
        by_cases hflag : flags e.2 = true
        · rw [if_pos hflag, if_pos hflag, Network.elements_cons, Nat.add_assoc]
        · rw [if_neg hflag, if_neg hflag, Nat.zero_add, Nat.add_assoc]
      · rw [if_neg (Ne.symm hc), if_neg (by rwa [decide_eq_true_eq])]

theorem Policy.ofEntries_perm (policy : Policy) (network : Network) (c : Category) :
    (ofEntries c (firsts [] (policy.entries network))).Perm
      (network.root.parameters.filter fun p =>
        decide (policy.category network p = some c)) := by
  have hnodup : (ofEntries c (firsts [] (policy.entries network))).Nodup :=
    (nodup_firsts [] (policy.entries network)).sublist (List.filter_sublist.map Prod.snd)
  have hnodup' : (network.root.parameters.filter fun p =>
      decide (policy.category network p = some c)).Nodup :=
    List.Nodup.filter _ (List.nodup_dedup _)
  rw [List.perm_ext_iff_of_nodup hnodup hnodup']
  intro p
  rw [List.mem_filter, decide_eq_true_eq, ← mem_firsts_entries, ofEntries, List.mem_map]
  constructor
  · rintro ⟨⟨c', p'⟩, he, rfl⟩
    obtain ⟨hmem, hc⟩ := List.mem_filter.mp he
    obtain rfl : c' = c := of_decide_eq_true hc
    exact hmem
  · exact fun hmem => ⟨(c, p), List.mem_filter.mpr ⟨hmem, decide_eq_true rfl⟩, rfl⟩

/-- The audit counts the parameters of each category. -/
theorem Policy.audit_eq (policy : Policy) (network : Network) (flags : Flags) (c : Category) :
    policy.audit network flags c =
      { trainable := network.elements (network.root.parameters.filter fun p =>
          decide (policy.category network p = some c) && flags p)
        total := network.elements (network.root.parameters.filter fun p =>
          decide (policy.category network p = some c)) } := by
  have hperm := policy.ofEntries_perm network c
  rw [audit_eq_foldl, foldl_count, Nat.zero_add, Nat.zero_add, network.elements_perm hperm,
    network.elements_perm (hperm.filter flags), List.filter_filter]
  simp only [Bool.and_comm]

/-- The counts depend on the flags of the parameters of the model only. -/
theorem Policy.audit_congr (policy : Policy) (network : Network) {flags flags' : Flags}
    (h : ∀ p ∈ network.root.parameters, flags p = flags' p) :
    policy.audit network flags = policy.audit network flags' := by
  funext c
  rw [audit_eq, audit_eq]
  congr 2
  refine List.filter_congr fun p hp => ?_
  rw [h p hp]

/-! ## Sums -/

theorem Network.elements_filter_cons (network : Network) (b : ParamId → Bool) (p : ParamId)
    (ps : List ParamId) : network.elements ((p :: ps).filter b) =
      (if b p then network.numel p else 0) + network.elements (ps.filter b) := by
  rw [List.filter_cons]
  split
  · exact network.elements_cons p _
  · exact (Nat.zero_add _).symm

/-- Every parameter with a category is in one of them. -/
theorem sum_elements (network : Network) (category : ParamId → Option Category)
    (b : ParamId → Bool) (ps : List ParamId) :
    (Category.all.map fun c =>
        network.elements (ps.filter fun p => decide (category p = some c) && b p)).sum =
      network.elements (ps.filter fun p => (category p).isSome && b p) := by
  induction ps with
  | nil => rfl
  | cons p ps ih =>
      simp only [Network.elements_filter_cons]
      rw [List.sum_map_add, ih]
      congr 1
      cases hb : b p with
      | false => simp [Category.all]
      | true =>
          cases hcategory : category p with
          | none => simp [Category.all]
          | some c => cases c <;> simp [Category.all]

/-- The parameters with a category are all when the others have no elements. -/
theorem elements_isSome_iff (network : Network) (category : ParamId → Option Category)
    (b : ParamId → Bool) (ps : List ParamId) :
    network.elements (ps.filter fun p => (category p).isSome && b p) =
        network.elements (ps.filter b) ↔
      ∀ p ∈ ps, category p = none → b p = true → network.numel p = 0 := by
  have hle : ∀ ps : List ParamId,
      network.elements (ps.filter fun p => (category p).isSome && b p) ≤
        network.elements (ps.filter b) := by
    intro ps
    induction ps with
    | nil => exact Nat.le_refl _
    | cons p ps ih =>
        rw [Network.elements_filter_cons, Network.elements_filter_cons]
        refine Nat.add_le_add ?_ ih
        cases (category p).isSome
        · exact Nat.zero_le _
        · exact Nat.le_refl _
  induction ps with
  | nil => exact iff_of_true rfl fun p hp => absurd hp List.not_mem_nil
  | cons p ps ih =>
      rw [Network.elements_filter_cons, Network.elements_filter_cons, List.forall_mem_cons]
      refine Iff.trans ?_ (and_congr_right fun _ => ih)
      have hle := hle ps
      cases hcategory : category p with
      | none =>
          cases hb : b p with
          | false => simp
          | true =>
              simp only [Option.isSome_none, Bool.false_and, Bool.false_eq_true, if_false, if_true,
                true_implies]
              omega
      | some c => simp

/-! ## When the audit is right -/

theorem Mode.ofName_name (mode : Mode) : ofName mode.name = .ok mode := by cases mode <;> rfl

theorem Mode.name_of_ofName {name : String} {mode : Mode} (h : ofName name = .ok mode) :
    mode.name = name := by
  rw [ofName] at h
  split at h
  next mode' hfind =>
    obtain rfl := Except.ok.inj h
    have hname := List.find?_some hfind
    exact of_decide_eq_true hname
  next => cases h

theorem ModelType.apply_eq (modelType : ModelType) : modelType.apply = modelType.policy.apply := by
  cases modelType <;> rfl

/-- A known model: the strict check sees the summary only. -/
theorem applyParameterUpdatePolicy_eq {network : Network} {modelType : ModelType}
    (hdetect : detectModelType network = some modelType) (mode : Mode) (flags : Flags) :
    applyParameterUpdatePolicy network mode.name true flags =
      (strictValidate (modelType.policy.apply network mode flags).2 mode >>= fun _ =>
        Except.ok (modelType.policy.apply network mode flags)) := by
  rw [applyParameterUpdatePolicy, Mode.ofName_name, Py.ok_bind, hdetect, ← ModelType.apply_eq]
  rfl

/-- The summary does not depend on the flags before. -/
theorem Policy.apply_congr (policy : Policy) (network : Network) (mode : Mode)
    (flags flags' : Flags) :
    (policy.apply network mode flags).2 = (policy.apply network mode flags').2 ∧
      ∀ p ∈ network.root.parameters,
        (policy.apply network mode flags).1 p = (policy.apply network mode flags').1 p := by
  have hflags : ∀ p ∈ network.root.parameters,
      policy.setFlags network mode flags p = policy.setFlags network mode flags' p := by
    intro p hp
    rw [Bool.eq_iff_iff, policy.setFlags_eq_true_iff network mode flags hp,
      policy.setFlags_eq_true_iff network mode flags' hp]
  refine ⟨?_, hflags⟩
  rw [apply, apply, audit_congr policy network hflags]

/-- The policy trains what the mode names, and its audit is right when all parameters that have
elements lie under a listed module, and only then. -/
theorem policyTells_iff {network : Network} {modelType : ModelType}
    (hdetect : detectModelType network = some modelType) {name : String} {flags : Flags}
    {result : Flags × Summary}
    (h : applyParameterUpdatePolicy network name true flags = .ok result) :
    ∃ mode : Mode, mode.name = name ∧
      (PolicyTells modelType.policy network mode result ↔
        ∀ p ∈ network.root.parameters, modelType.policy.category network p = none →
          network.numel p = 0) := by
  have hmode : ∃ mode : Mode, mode.name = name := by
    rw [applyParameterUpdatePolicy] at h
    obtain ⟨mode, hmode, -⟩ := Py.bind_eq_ok.mp h
    exact ⟨mode, Mode.name_of_ofName hmode⟩
  obtain ⟨mode, rfl⟩ := hmode
  refine ⟨mode, rfl, ?_⟩
  rw [applyParameterUpdatePolicy_eq hdetect] at h
  obtain ⟨_, hvalid, h⟩ := Py.bind_eq_ok.mp h
  obtain rfl := Except.ok.inj h
  have hsum : ∀ b : ParamId → Bool, (Category.all.map fun c => network.elements
      (network.root.parameters.filter fun p =>
        decide (modelType.policy.category network p = some c) && b p)).sum =
      network.elements (network.root.parameters.filter b) ↔
        ∀ p ∈ network.root.parameters, modelType.policy.category network p = none →
          b p = true → network.numel p = 0 := by
    intro b
    rw [sum_elements, elements_isSome_iff]
  have htotal : (modelType.policy.apply network mode flags).2.totalParameters =
      network.elements network.root.parameters ↔
        ∀ p ∈ network.root.parameters, modelType.policy.category network p = none →
          network.numel p = 0 := by
    have hall := hsum fun _ => true
    simp only [Bool.and_true, List.filter_true, true_implies] at hall
    rw [← hall]
    simp only [Policy.apply, buildAuditSummary, Policy.audit_eq]
  constructor
  · exact fun htells => htotal.mp htells.total
  · intro hlisted
    refine ⟨fun p hp => ?_, fun flags' => ?_, htotal.mpr hlisted, ?_, fun c => ?_⟩
    · exact Policy.setFlags_eq_true_iff _ network mode flags hp
    · obtain ⟨hsummary, hflags⟩ := modelType.policy.apply_congr network mode flags' flags
      refine ⟨(modelType.policy.apply network mode flags').1, ?_, hflags⟩
      rw [applyParameterUpdatePolicy_eq hdetect, hsummary, hvalid, ← hsummary]
      rfl
    · have htrained := (hsum (modelType.policy.apply network mode flags).1).mpr
        fun p hp hnone _ => hlisted p hp hnone
      rw [← htrained]
      simp only [Policy.apply, buildAuditSummary, Policy.audit_eq]
    · exact modelType.policy.audit_eq network _ c

/-! ## Two models -/

/-- A model with one module of each kind and others. -/
def tinyGemma4 (others : Children) : Network where
  root := ⟨.root .gemma4, [], .cons "model" (.other "Gemma4Model") []
    (.cons "embed_tokens" .embedding [0] .nil
      (.cons "self_attn" (.attention .gemma4) [1] .nil
        (.cons "router" (.router .gemma4) [2] .nil
          (.cons "experts" (.experts .gemma4) [3] .nil
            (.cons "norm" (.rmsNorm .gemma4) [4] .nil others))))) .nil⟩
  numel p := 10 * (p + 1)
  modelType := some "gemma4"
  textModelType := some "gemma4_text"

theorem policyTells_iff_tinyGemma4 : ∃ result, applyParameterUpdatePolicy (tinyGemma4 .nil) "moe"
    true (fun _ => true) = .ok result ∧ PolicyTells gemma4Policy (tinyGemma4 .nil) .moe result := by
  have hdetect : detectModelType (tinyGemma4 .nil) = some .gemma4 := by decide
  have hok : applyParameterUpdatePolicy (tinyGemma4 .nil) "moe" true (fun _ => true) =
      .ok (gemma4Policy.apply (tinyGemma4 .nil) .moe fun _ => true) := rfl
  refine ⟨_, hok, ?_⟩
  obtain ⟨mode, hmode, htells⟩ := policyTells_iff hdetect hok
  obtain rfl : mode = .moe := by
    cases mode <;> first | rfl | exact absurd hmode (by decide)
  exact htells.mpr (by decide)

/-- The dense layer next to the experts is trained and not counted. -/
theorem not_policyTells_denseLayer : ∃ result, applyParameterUpdatePolicy
    (tinyGemma4 (.cons "mlp" (.other "Gemma4TextMLP") [5] .nil .nil)) "full" true
      (fun _ => false) = .ok result ∧ ¬ PolicyTells gemma4Policy
        (tinyGemma4 (.cons "mlp" (.other "Gemma4TextMLP") [5] .nil .nil)) .full result := by
  refine ⟨gemma4Policy.apply (tinyGemma4 (.cons "mlp" (.other "Gemma4TextMLP") [5] .nil .nil))
    .full fun _ => false, rfl, fun htells => ?_⟩
  exact absurd htells.total (by decide)

end Verl.ParameterPolicy
