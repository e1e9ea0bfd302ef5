import RecordKit.Record.Shape

/-!
# Reading and writing along paths

A path of fields is read with `fetch?` and written with `replace?`.  Both agree
with the plain path of the fields' names, which `Data.dig?` follows whether or
not the fields resolve.

* `fetch?_replace?_self`: what was written is read back.
* `dig?_replace?_of_apart`: writing changes nothing on a path of names that
  neither leads to the written field nor starts there.
* `isSome_replace?`: a field can be written exactly if it can be read.
-/

namespace RecordKit

/-! ## Members of a record -/

namespace Data

theorem lookup_replaceMember_self {name : String} {value : Data}
    {members members' : List (String × Data)}
    (h : replaceMember name value members = Option.some members') :
    members'.lookup name = Option.some value := by
  induction members generalizing members' with
  | nil => cases h
  | cons m rest ih =>
      obtain ⟨n, old⟩ := m
      unfold replaceMember at h
      by_cases hn : n = name
      · rw [if_pos hn] at h
        cases h
        rw [hn, List.lookup_cons_self]
      · rw [if_neg hn] at h
        obtain ⟨rest', hrest, rfl⟩ := Option.map_eq_some_iff.mp h
        have hbeq : (name == n) = false := beq_eq_false_iff_ne.mpr (Ne.symm hn)
        rw [List.lookup_cons, hbeq]
        exact ih hrest

theorem lookup_replaceMember_other {name other : String} (hne : other ≠ name) {value : Data}
    {members members' : List (String × Data)}
    (h : replaceMember name value members = Option.some members') :
    members'.lookup other = members.lookup other := by
  induction members generalizing members' with
  | nil => cases h
  | cons m rest ih =>
      obtain ⟨n, old⟩ := m
      unfold replaceMember at h
      by_cases hn : n = name
      · rw [if_pos hn] at h
        cases h
        have hbeq : (other == n) = false := by
          rw [hn]
          exact beq_eq_false_iff_ne.mpr hne
        simp only [List.lookup_cons, hbeq]
      · rw [if_neg hn] at h
        obtain ⟨rest', hrest, rfl⟩ := Option.map_eq_some_iff.mp h
        simp only [List.lookup_cons, ih hrest]

theorem isSome_replaceMember (name : String) (value : Data) (members : List (String × Data)) :
    (replaceMember name value members).isSome = (members.lookup name).isSome := by
  induction members with
  | nil => rfl
  | cons m rest ih =>
      obtain ⟨n, old⟩ := m
      unfold replaceMember
      by_cases hn : n = name
      · rw [if_pos hn, hn, List.lookup_cons_self]
        rfl
      · have hbeq : (name == n) = false := beq_eq_false_iff_ne.mpr (Ne.symm hn)
        rw [if_neg hn, Option.isSome_map, ih, List.lookup_cons, hbeq]

/-- Of two values for one name, the second counts. -/
theorem replaceMember_replaceMember {name : String} {value : Data}
    {members members' : List (String × Data)}
    (h : replaceMember name value members = Option.some members') (value' : Data) :
    replaceMember name value' members' = replaceMember name value' members := by
  induction members generalizing members' with
  | nil => cases h
  | cons m rest ih =>
      obtain ⟨n, old⟩ := m
      unfold replaceMember at h
      by_cases hn : n = name
      · rw [if_pos hn] at h
        cases h
        simp [replaceMember, hn]
      · rw [if_neg hn] at h
        obtain ⟨rest', hrest, rfl⟩ := Option.map_eq_some_iff.mp h
        simp [replaceMember, hn, ih hrest]

/-- Values for different names may be set in any order. -/
theorem replaceMember_comm {name other : String} (hne : other ≠ name) (value value' : Data)
    (members : List (String × Data)) :
    (replaceMember name value members).bind (replaceMember other value') =
      (replaceMember other value' members).bind (replaceMember name value) := by
  induction members with
  | nil => rfl
  | cons m rest ih =>
      obtain ⟨n, old⟩ := m
      by_cases hn : n = name
      · subst hn
        have hother : n ≠ other := Ne.symm hne
        cases hrest : replaceMember other value' rest <;> simp [replaceMember, hother, hrest]
      · by_cases ho : n = other
        · subst ho
          cases hrest : replaceMember name value rest <;> simp [replaceMember, hn, hrest]
        · have hrest := congrArg (Option.map ((n, old) :: ·)) ih
          simpa [replaceMember, hn, ho, Option.bind_map, Option.map_bind, Function.comp_def]
            using hrest

theorem member?_setMember?_self {owner owner' value : Data} {name : String}
    (h : owner.setMember? name value = Option.some owner') :
    owner'.member? name = Option.some value := by
  cases owner with
  | record members =>
      obtain ⟨members', hmembers, rfl⟩ := Option.map_eq_some_iff.mp h
      exact lookup_replaceMember_self hmembers
  | _ => cases h

theorem member?_setMember?_other {owner owner' value : Data} {name other : String}
    (hne : other ≠ name) (h : owner.setMember? name value = Option.some owner') :
    owner'.member? other = owner.member? other := by
  cases owner with
  | record members =>
      obtain ⟨members', hmembers, rfl⟩ := Option.map_eq_some_iff.mp h
      exact lookup_replaceMember_other hne hmembers
  | _ => cases h

theorem isSome_setMember? (owner value : Data) (name : String) :
    (owner.setMember? name value).isSome = (owner.member? name).isSome := by
  cases owner with
  | record members =>
      show ((replaceMember name value members).map record).isSome = _
      rw [Option.isSome_map]
      exact isSome_replaceMember name value members
  | _ => rfl

theorem setMember?_setMember? {owner owner' value : Data} {name : String}
    (h : owner.setMember? name value = Option.some owner') (value' : Data) :
    owner'.setMember? name value' = owner.setMember? name value' := by
  cases owner with
  | record members =>
      obtain ⟨members', hmembers, rfl⟩ := Option.map_eq_some_iff.mp h
      simp [setMember?, replaceMember_replaceMember hmembers]
  | _ => cases h

theorem setMember?_comm {name other : String} (hne : other ≠ name) (owner value value' : Data) :
    (owner.setMember? name value).bind (·.setMember? other value') =
      (owner.setMember? other value').bind (·.setMember? name value) := by
  cases owner with
  | record members =>
      have hmembers := congrArg (Option.map record) (replaceMember_comm hne value value' members)
      simpa [setMember?, Option.bind_map, Option.map_bind, Function.comp_def] using hmembers
  | _ => rfl

/-- The data that a path of member names leads to. -/
def dig? : List String → Data → Option Data
  | [], d => Option.some d
  | name :: path, d => (d.member? name).bind (dig? path)

end Data

/-! ## Paths that do not meet -/

/-- Neither of two paths of names is a prefix of the other. -/
def Apart (p q : List String) : Prop :=
  ¬p <+: q ∧ ¬q <+: p

instance (p q : List String) : Decidable (Apart p q) :=
  inferInstanceAs (Decidable (¬p <+: q ∧ ¬q <+: p))

theorem Apart.symm {p q : List String} (h : Apart p q) : Apart q p :=
  ⟨h.2, h.1⟩

/-- What lies behind a path that does not meet another one does not meet it either. -/
theorem Apart.extend {p p' q : List String} (h : Apart p q) (hp : p <+: p') : Apart p' q := by
  constructor
  · intro hq
    exact h.1 (hp.trans hq)
  · intro hq
    rcases List.prefix_or_prefix_of_prefix hp hq with hpq | hqp
    · exact h.1 hpq
    · exact h.2 hqp

theorem not_apart_nil (p : List String) : ¬Apart p [] :=
  fun h => h.2 (List.nil_prefix)

theorem apart_cons_iff (m n : String) (p q : List String) :
    Apart (m :: p) (n :: q) ↔ m ≠ n ∨ Apart p q := by
  unfold Apart
  rw [List.cons_prefix_cons, List.cons_prefix_cons]
  by_cases hmn : m = n
  · simp [hmn]
  · simp [hmn, Ne.symm hmn]

variable {C : Type}

/-! ## One field -/

theorem Field.get?_eq_some_iff (f : Field C) (d value : Data) :
    f.get? d = some value ↔ f.resolves = true ∧ d.member? f.name = some value := by
  unfold Field.get?
  exact Option.ite_none_right_eq_some

theorem Field.put?_eq_some_iff (f : Field C) (value d d' : Data) :
    f.put? value d = some d' ↔ f.resolves = true ∧ d.setMember? f.name value = some d' := by
  unfold Field.put?
  exact Option.ite_none_right_eq_some

theorem Field.isSome_put? (f : Field C) (value d : Data) :
    (f.put? value d).isSome = (f.get? d).isSome := by
  unfold Field.put? Field.get?
  split
  · exact Data.isSome_setMember? d value f.name
  · rfl

/-! ## Paths of fields -/

/-- Reading a path of fields is following their names, provided that all of them
resolve. -/
theorem fetch?_eq_some_iff (path : List (Field C)) (d value : Data) :
    fetch? path d = some value ↔
      (∀ f ∈ path, f.resolves = true) ∧ d.dig? (path.map (·.name)) = some value := by
  induction path generalizing d with
  | nil => simp [fetch?, Data.dig?]
  | cons f path ih =>
      unfold fetch?
      rw [Option.bind_eq_some_iff, List.forall_mem_cons]
      constructor
      · rintro ⟨inner, hget, hfetch⟩
        obtain ⟨hresolves, hmember⟩ := (f.get?_eq_some_iff d inner).mp hget
        obtain ⟨hall, hdig⟩ := (ih inner).mp hfetch
        exact ⟨⟨hresolves, hall⟩, Option.bind_eq_some_iff.mpr ⟨inner, hmember, hdig⟩⟩
      · rintro ⟨⟨hresolves, hall⟩, hdig⟩
        obtain ⟨inner, hmember, hdig⟩ := Option.bind_eq_some_iff.mp hdig
        exact ⟨inner, (f.get?_eq_some_iff d inner).mpr ⟨hresolves, hmember⟩,
          (ih inner).mpr ⟨hall, hdig⟩⟩

@[simp] theorem fetch?_singleton (f : Field C) (d : Data) : fetch? [f] d = f.get? d :=
  Option.bind_fun_some (f.get? d)

theorem fetch?_append (path behind : List (Field C)) (d : Data) :
    fetch? (path ++ behind) d = (fetch? path d).bind (fetch? behind) := by
  induction path generalizing d with
  | nil => rfl
  | cons f path ih =>
      have hrest : fetch? (path ++ behind) = fun inner => (fetch? path inner).bind (fetch? behind) :=
        funext ih
      simp only [List.cons_append, fetch?, hrest, Option.bind_assoc]

/-- A path of fields reads the same wherever their names lead to the same data. -/
theorem fetch?_congr {path : List (Field C)} {d d' : Data}
    (h : d'.dig? (path.map (·.name)) = d.dig? (path.map (·.name))) :
    fetch? path d' = fetch? path d := by
  ext value
  rw [fetch?_eq_some_iff, fetch?_eq_some_iff, h]

/-- One step of writing: the field is read, the rest is written inside, and the
result is put back. -/
theorem replace?_cons_eq_some_iff (f : Field C) (path : List (Field C)) (value d d' : Data) :
    replace? (f :: path) value d = some d' ↔
      ∃ inner inner', f.get? d = some inner ∧ replace? path value inner = some inner' ∧
        f.put? inner' d = some d' := by
  simp only [replace?, Option.bind_eq_some_iff]
  constructor
  · rintro ⟨inner, hget, inner', hinner, hput⟩
    exact ⟨inner, inner', hget, hinner, hput⟩
  · rintro ⟨inner, inner', hget, hinner, hput⟩
    exact ⟨inner, hget, inner', hinner, hput⟩

/-- The same step in terms of the members of the record. -/
theorem replace?_cons_eq_some_iff_members (f : Field C) (path : List (Field C))
    (value d d' : Data) :
    replace? (f :: path) value d = some d' ↔
      f.resolves = true ∧ ∃ inner inner', d.member? f.name = some inner ∧
        replace? path value inner = some inner' ∧ d.setMember? f.name inner' = some d' := by
  simp only [replace?_cons_eq_some_iff, Field.get?_eq_some_iff, Field.put?_eq_some_iff]
  constructor
  · rintro ⟨inner, inner', ⟨hresolves, hmember⟩, hinner, -, hset⟩
    exact ⟨hresolves, inner, inner', hmember, hinner, hset⟩
  · rintro ⟨hresolves, inner, inner', hmember, hinner, hset⟩
    exact ⟨inner, inner', ⟨hresolves, hmember⟩, hinner, hresolves, hset⟩

theorem fetch?_replace?_self {path : List (Field C)} {value d d' : Data}
    (h : replace? path value d = some d') : fetch? path d' = some value := by
  induction path generalizing d d' with
  | nil =>
      cases h
      rfl
  | cons f path ih =>
      obtain ⟨inner, inner', -, hinner, hput⟩ := (replace?_cons_eq_some_iff f path value d d').mp h
      obtain ⟨hresolves, hset⟩ := (f.put?_eq_some_iff inner' d d').mp hput
      have hget : f.get? d' = some inner' :=
        (f.get?_eq_some_iff d' inner').mpr ⟨hresolves, Data.member?_setMember?_self hset⟩
      unfold fetch?
      rw [hget]
      exact ih hinner

theorem dig?_replace?_of_apart {path : List (Field C)} {value d d' : Data}
    (h : replace? path value d = some d') {names : List String}
    (hapart : Apart names (path.map (·.name))) : d'.dig? names = d.dig? names := by
  induction path generalizing d d' names with
  | nil => exact absurd hapart (not_apart_nil names)
  | cons f path ih =>
      obtain ⟨inner, inner', hget, hinner, hput⟩ :=
        (replace?_cons_eq_some_iff f path value d d').mp h
      obtain ⟨-, hmember⟩ := (f.get?_eq_some_iff d inner).mp hget
      obtain ⟨-, hset⟩ := (f.put?_eq_some_iff inner' d d').mp hput
      cases names with
      | nil => exact absurd hapart.symm (not_apart_nil _)
      | cons name names =>
          show (d'.member? name).bind (Data.dig? names) = (d.member? name).bind (Data.dig? names)
          -- Either the paths part here, or both enter the field `f`.
          by_cases hname : name = f.name
          · have htail : Apart names (path.map (·.name)) :=
              ((apart_cons_iff _ _ _ _).mp hapart).resolve_left fun hne => hne hname
            rw [hname, Data.member?_setMember?_self hset, hmember]
            exact ih hinner htail
          · rw [Data.member?_setMember?_other hname hset]

/-- Of two values written at one path, the second counts. -/
theorem replace?_replace? {path : List (Field C)} {value d d' : Data}
    (h : replace? path value d = some d') (value' : Data) :
    replace? path value' d' = replace? path value' d := by
  induction path generalizing d d' with
  | nil => rfl
  | cons f path ih =>
      obtain ⟨inner, inner', hget, hinner, hput⟩ :=
        (replace?_cons_eq_some_iff f path value d d').mp h
      obtain ⟨hresolves, hset⟩ := (f.put?_eq_some_iff inner' d d').mp hput
      have hget' : f.get? d' = some inner' :=
        (f.get?_eq_some_iff d' inner').mpr ⟨hresolves, Data.member?_setMember?_self hset⟩
      -- What the field held before it is put back does not matter.
      have hputs : (fun v => f.put? v d') = fun v => f.put? v d := by
        funext v
        simp only [Field.put?, hresolves, if_true, Data.setMember?_setMember? hset]
      simp only [replace?, hget, hget', Option.bind_some, ih hinner, hputs]

/-- Two paths that do not meet may be written in any order. -/
theorem replace?_swap {p q : List (Field C)}
    (hapart : Apart (p.map (·.name)) (q.map (·.name))) {v w d d₁ d₂ : Data}
    (hp : replace? p v d = some d₁) (hq : replace? q w d₁ = some d₂) :
    ∃ d', replace? q w d = some d' ∧ replace? p v d' = some d₂ := by
  induction p generalizing q d d₁ d₂ with
  | nil => exact absurd hapart.symm (not_apart_nil _)
  | cons f p ih =>
      cases q with
      | nil => exact absurd hapart (not_apart_nil _)
      | cons g q =>
          rw [replace?_cons_eq_some_iff_members] at hp hq
          obtain ⟨hf, i, i', hmember, hinner, hset⟩ := hp
          obtain ⟨hg, j, j', hmember', hinner', hset'⟩ := hq
          simp only [replace?_cons_eq_some_iff_members]
          -- Either both paths enter one field, or they part here.
          by_cases hname : g.name = f.name
          · rw [hname] at hmember' hset' ⊢
            obtain rfl : i' = j := by
              simpa [Data.member?_setMember?_self hset] using hmember'
            have htail : Apart (p.map (·.name)) (q.map (·.name)) :=
              ((apart_cons_iff _ _ _ _).mp hapart).resolve_left fun hne => hne hname.symm
            obtain ⟨k, hk, hk'⟩ := ih htail hinner hinner'
            obtain ⟨d', hd'⟩ : ∃ d', d.setMember? f.name k = some d' := by
              rw [← Option.isSome_iff_exists, Data.isSome_setMember?, hmember]
              rfl
            have hlast : d'.setMember? f.name j' = some d₂ := by
              rw [Data.setMember?_setMember? hd', ← Data.setMember?_setMember? hset, hset']
            exact ⟨d', ⟨hg, i, k, hmember, hk, hd'⟩, hf, k, j',
              Data.member?_setMember?_self hd', hk', hlast⟩
          · have hcomm := Data.setMember?_comm hname d i' j'
            rw [hset, Option.bind_some, hset'] at hcomm
            obtain ⟨d', hd', hset''⟩ := Option.bind_eq_some_iff.mp hcomm.symm
            rw [Data.member?_setMember?_other hname hset] at hmember'
            rw [← Data.member?_setMember?_other (Ne.symm hname) hd'] at hmember
            exact ⟨d', ⟨hg, j, j', hmember', hinner', hd'⟩, hf, i, i', hmember, hinner, hset''⟩

theorem isSome_replace? (path : List (Field C)) (value d : Data) :
    (replace? path value d).isSome = (fetch? path d).isSome := by
  induction path generalizing d with
  | nil => rfl
  | cons f path ih =>
      unfold replace? fetch?
      cases hget : f.get? d with
      | none => rfl
      | some inner =>
          -- Putting back cannot fail once the field has been read.
          have hput (inner' : Data) : (f.put? inner' d).isSome = true := by
            rw [f.isSome_put?, hget]
            rfl
          simp only [Option.bind_some, ← ih inner]
          cases hinner : replace? path value inner with
          | none => rfl
          | some inner' => exact hput inner'

end RecordKit
