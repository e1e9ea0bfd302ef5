import RecordKit.Proofs.Check.Outcome
import RecordKit.Proofs.Shared.KeyMap

/-!
# Checks after a history of registrations

A registry that was empty at first holds under a name the rule that was last registered for
it, by itself or as one of the default rules, unless the name was taken out after that
(`Registry.lookup?_change_empty_iff`).  A check asks only for the names in the tags of the
shape's own fields, so it sees nothing of a history but what concerns these
(`checkRecord_only`, `checkRecord_change_filter`).
-/

namespace RecordKit

/-! ## Histories -/

/-- What may happen to a registry. -/
inductive RegistryChange where
  | register (name : String) (rule : Predicate)
  | unregister (name : String)
  | setupDefaults

namespace RegistryChange

def apply (registry : Registry) : RegistryChange → Registry
  | register name rule => registry.register name rule
  | unregister name => registry.unregister name
  | setupDefaults => registry.setupDefaults

/-- The rule, if any, that a change leaves under a name which it concerns. -/
def rule? : RegistryChange → String → Option (Option Predicate)
  | register name rule, other => if other = name then some (some rule) else none
  | unregister name, other => if other = name then some none else none
  | setupDefaults, other => (DefaultRules.all.lookup other).map some

/-- Whether a change concerns one of a list of names. -/
def concerns (names : List String) (c : RegistryChange) : Bool :=
  names.any fun name => (c.rule? name).isSome

end RegistryChange

/-- One of the changes registers the rule for the name, and none after that concerns the
name. -/
def LastRegistered (changes : List RegistryChange) (name : String) (rule : Predicate) : Prop :=
  LastSet RegistryChange.rule? changes name rule

namespace Registry

/-- The registry after a list of changes. -/
def change (registry : Registry) (changes : List RegistryChange) : Registry :=
  changes.foldl RegistryChange.apply registry

/-- The registry with the rules of a list of names alone. -/
def only (names : List String) (registry : Registry) : Registry :=
  ⟨registry.entries.filter (·.1 ∈ names)⟩

variable (registry : Registry)

theorem lookup?_setupDefaults (name : String) :
    registry.setupDefaults.lookup? name =
      (DefaultRules.all.lookup name).or (registry.lookup? name) :=
  KeyMap.get?_foldl_insert (by decide) registry name

theorem lookup?_apply (c : RegistryChange) (name : String) :
    (c.apply registry).lookup? name = (c.rule? name).getD (registry.lookup? name) := by
  cases c with
  | register name' rule =>
      rw [RegistryChange.apply, register, lookup?, KeyMap.get?_insert, RegistryChange.rule?]
      split <;> rfl
  | unregister name' =>
      rw [RegistryChange.apply, unregister, lookup?, KeyMap.get?_erase, RegistryChange.rule?]
      split <;> rfl
  | setupDefaults =>
      rw [RegistryChange.apply, lookup?_setupDefaults, RegistryChange.rule?]
      cases DefaultRules.all.lookup name <;> rfl

theorem lookup?_only (names : List String) (name : String) :
    (registry.only names).lookup? name = if name ∈ names then registry.lookup? name else none := by
  have h := KeyMap.lookup_filter_fst (· ∈ names) registry.entries name
  simp only [decide_eq_true_eq] at h
  exact h

theorem change_append (before after : List RegistryChange) :
    registry.change (before ++ after) = (registry.change before).change after :=
  List.foldl_append

variable {registry} {changes : List RegistryChange} {name : String} {rule : Predicate}

theorem lookup?_change_empty_iff :
    (empty.change changes).lookup? name = some rule ↔ LastRegistered changes name rule :=
  KeyMap.get?_changed_iff lookup?_apply

/-- A rule that is found was there before, or it was registered since, by itself or as a
default rule. -/
theorem lookup?_change_or (h : (registry.change changes).lookup? name = some rule) :
    registry.lookup? name = some rule ∨ .register name rule ∈ changes ∨
      .setupDefaults ∈ changes ∧ DefaultRules.all.lookup name = some rule := by
  rcases KeyMap.get?_changed_or lookup?_apply h with h | ⟨c, hc, hrule⟩
  · exact Or.inl h
  · cases c with
    | register name' rule' =>
        rw [RegistryChange.rule?, Option.ite_none_right_eq_some] at hrule
        obtain ⟨rfl, hrule⟩ := hrule
        obtain rfl : rule' = rule := Option.some.inj (Option.some.inj hrule)
        exact Or.inr (Or.inl hc)
    | unregister name' =>
        rw [RegistryChange.rule?, Option.ite_none_right_eq_some] at hrule
        cases hrule.2
    | setupDefaults =>
        obtain ⟨rule', hlookup, hrule⟩ := Option.map_eq_some_iff.mp hrule
        exact Or.inr (Or.inr ⟨hc, hlookup.trans hrule⟩)

theorem lookup?_change_filter {names : List String} (hname : name ∈ names) :
    (registry.change (changes.filter (·.concerns names))).lookup? name =
      (registry.change changes).lookup? name :=
  KeyMap.get?_changed_filter lookup?_apply
    (fun _ hsome => List.any_eq_true.mpr ⟨name, hname, hsome⟩) registry changes

theorem ascending_change (h : registry.Ascending) : (registry.change changes).Ascending := by
  induction changes generalizing registry with
  | nil => exact h
  | cons c rest ih =>
      refine ih ?_
      cases c with
      | register name rule => exact h.insert name rule
      | unregister name => exact h.erase name
      | setupDefaults =>
          refine List.foldlRecOn DefaultRules.all _ h ?_
          intro registry h rule _
          exact h.insert rule.1 rule.2

end Registry

/-! ## Checks -/

/-- The names that the tag of a field asks for. -/
def Field.ruleNames {C : Type} (f : Field C) : List String :=
  match f.tag? with
  | none => []
  | some tag => (parseRules tag).map (·.name)

/-- The names that the tags of a shape's own fields ask for. -/
def Shape.ruleNames {C : Type} (s : Shape C) : List String :=
  s.fields.flatMap Field.ruleNames

section

variable {C : Type} [UserType C] {r₁ r₂ : Registry}

theorem checkRules_congr {f : Field C} {v : View} {rules : List Rule}
    (h : ∀ rule ∈ rules, r₁.lookup? rule.name = r₂.lookup? rule.name) :
    checkRules r₁ f v rules = checkRules r₂ f v rules := by
  induction rules with
  | nil => rfl
  | cons rule rest ih =>
      rw [checkRules, checkRules, h rule List.mem_cons_self,
        ih fun rule' hrule' => h rule' (List.mem_cons_of_mem rule hrule')]

variable {s : Shape C} {r : Record}

theorem checkField_congr {f : Field C}
    (h : ∀ name ∈ f.ruleNames, r₁.lookup? name = r₂.lookup? name) :
    checkField r₁ s r f = checkField r₂ s r f := by
  cases htag : f.tag? with
  | none => rw [checkField_of_no_tag r₁ s r htag, checkField_of_no_tag r₂ s r htag]
  | some tag =>
      obtain ⟨hcheck, hblank⟩ := (f.tag?_eq_some_iff tag).mp htag
      have hrules : ∀ v,
          checkRules r₁ f v (parseRules tag) = checkRules r₂ f v (parseRules tag) := by
        intro v
        refine checkRules_congr fun rule hrule => h rule.name ?_
        rw [Field.ruleNames, htag]
        exact List.mem_map_of_mem hrule
      unfold checkField
      simp only [hcheck, hrules]

/-- Registries that agree on the names in the tags give the same check, with errors and
all. -/
theorem checkRecord_congr (h : ∀ name ∈ s.ruleNames, r₁.lookup? name = r₂.lookup? name) :
    checkRecord r₁ s r = checkRecord r₂ s r := by
  have hfields : ∀ fields : List (Field C),
      (∀ f ∈ fields, ∀ name ∈ f.ruleNames, r₁.lookup? name = r₂.lookup? name) →
        checkFields r₁ s r fields = checkFields r₂ s r fields := by
    intro fields
    induction fields with
    | nil => exact fun _ => rfl
    | cons f rest ih =>
        intro hnames
        obtain ⟨hf, hrest⟩ := List.forall_mem_cons.mp hnames
        rw [checkFields, checkFields, checkField_congr hf, ih hrest]
  rw [checkRecord, checkRecord, hfields s.fields (List.forall_mem_flatMap.mp h)]

variable (s r) (registry : Registry)

/-- A check sees no rules but those in the tags. -/
theorem checkRecord_only :
    checkRecord (registry.only s.ruleNames) s r = checkRecord registry s r := by
  refine checkRecord_congr fun name hname => ?_
  rw [registry.lookup?_only, if_pos hname]

/-- A check sees nothing of a history but what concerns the rules in the tags. -/
theorem checkRecord_change_filter (changes : List RegistryChange) :
    checkRecord (registry.change (changes.filter (·.concerns s.ruleNames))) s r =
      checkRecord (registry.change changes) s r :=
  checkRecord_congr fun _ hname => Registry.lookup?_change_filter hname

end

end RecordKit
