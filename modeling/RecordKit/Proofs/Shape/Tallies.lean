import Mathlib.Data.Nat.Find
import RecordKit.Proofs.Shape.Promotion
import RecordKit.Sample.Records

/-!
# The table of names and the search for a name

Two walks over a shape answer what a name stands for.  The table of names enters every
embedded struct and counts all names at once.  The search follows one name, enters no
field of that name and stops at the first level that has it.

`Shape.routesTo` lists the occurrences of a name in depth-first order, which is the order
of neither walk, and `Shape.Tallied` says what there is to know about them: the shallowest
depth and the number of occurrences there.  `findSource_agrees_nameTable` says that the
table has exactly this as its entry, and that the search finds a route exactly where the
entry counts one occurrence and that one is exported.  A struct may have several fields of
one name; each of them is an occurrence.
-/

namespace RecordKit

variable {C : Type}

/-! ## One entry for each name -/

namespace NameTable

/-- The names that have an entry. -/
def names (table : NameTable) : List String :=
  table.map (·.1)

/-- Counting a name adds an entry only for a name that has none. -/
theorem names_note (depth : Nat) (name : String) (table : NameTable) :
    (note depth name table).names =
      if name ∈ table.names then table.names else table.names ++ [name] := by
  induction table with
  | nil => rfl
  | cons entry rest ih =>
      obtain ⟨n, tally⟩ := entry
      unfold names at ih ⊢
      rw [note]
      by_cases hn : n = name
      · simp [hn]
      · rw [if_neg hn, List.map_cons, ih]
        by_cases hrest : name ∈ rest.map (·.1)
        · simp [hrest]
        · simp [hrest, Ne.symm hn]

theorem nodup_names_note {table : NameTable} (h : table.names.Nodup) (depth : Nat)
    (name : String) : (note depth name table).names.Nodup := by
  rw [names_note]
  split
  · exact h
  · next hname =>
      rw [← List.concat_eq_append]
      exact h.concat hname

theorem nodup_names_foldl_note {table : NameTable} (h : table.names.Nodup) (depth : Nat)
    (names : List String) : (names.foldl (fun t n => t.note depth n) table).names.Nodup := by
  induction names generalizing table with
  | nil => exact h
  | cons n rest ih => exact ih (nodup_names_note h depth n)

theorem nodup_names_noteLevels {table : NameTable} (h : table.names.Nodup) (fuel depth : Nat)
    (level : List (Shape C)) : (noteLevels fuel depth level table).names.Nodup := by
  induction fuel generalizing depth level table with
  | zero => exact h
  | succ fuel ih => exact ih (nodup_names_foldl_note h depth _) (depth + 1) (nextLevel level)

/-- Where no name has two entries, an entry is what looking up its name gives. -/
theorem mem_iff_lookup {table : NameTable} (h : table.names.Nodup) (name : String)
    (tally : Tally) : (name, tally) ∈ table ↔ table.lookup name = some tally := by
  induction table with
  | nil => simp
  | cons entry rest ih =>
      obtain ⟨n, first⟩ := entry
      rw [names, List.map_cons, List.nodup_cons] at h
      rw [List.mem_cons, List.lookup_cons]
      by_cases hn : name = n
      · subst hn
        have hrest : (name, tally) ∉ rest := fun hmem =>
          h.1 (List.mem_map.mpr ⟨(name, tally), hmem, rfl⟩)
        simp [hrest, eq_comm]
      · simp [hn, beq_eq_false_iff_ne.mpr hn, ih h.2]

end NameTable

theorem mem_nameTable_iff_lookup (s : Shape C) (name : String) (tally : Tally) :
    (name, tally) ∈ nameTable s ↔ (nameTable s).lookup name = some tally := by
  have hempty : NameTable.names [] = [] := rfl
  have hnodup : (nameTable s).names.Nodup :=
    NameTable.nodup_names_noteLevels (hempty ▸ List.nodup_nil) s.levels 0 [s]
  exact NameTable.mem_iff_lookup hnodup name tally

/-! ## The occurrences of a name -/

namespace Shape

/-- The routes that end in a field of the given name, in depth-first declaration order. -/
def routesTo (s : Shape C) (name : String) : List (Route C) :=
  s.routes.filter fun p => p.last.name = name

/-- The routes to a name that pass through exactly `depth` embedded fields. -/
def routesToAt (s : Shape C) (name : String) (depth : Nat) : List (Route C) :=
  (s.routesTo name).filter fun p => p.depth = depth

/-- A tally says where a name occurs first, and how often there. -/
structure Tallied (s : Shape C) (name : String) (tally : Tally) : Prop where
  occurs : 1 ≤ tally.count
  counted : (s.routesToAt name tally.depth).length = tally.count
  shallowest : ∀ p ∈ s.routesTo name, tally.depth ≤ p.depth

/-- The routes of a name on a level are its occurrences of that depth. -/
theorem routesToAt_eq_named (s : Shape C) (name : String) (depth : Nat) :
    s.routesToAt name depth = s.named depth name := by
  rw [routesToAt, routesTo, named, routesAt_eq_filter, List.filter_comm]

theorem tallied_iff_named (s : Shape C) (name : String) (tally : Tally) :
    s.Tallied name tally ↔
      tally.count = (s.named tally.depth name).length ∧ 0 < tally.count ∧
        ∀ j < tally.depth, s.named j name = [] := by
  have habove : (∀ p ∈ s.routesTo name, tally.depth ≤ p.depth) ↔
      ∀ j < tally.depth, s.named j name = [] := by
    simp only [← routesToAt_eq_named, routesToAt, List.filter_eq_nil_iff, decide_eq_true_eq]
    constructor
    · rintro hleast j hj p hp rfl
      exact absurd (hleast p hp) (Nat.not_le_of_lt hj)
    · intro hnone p hp
      by_contra hlt
      exact hnone p.depth (Nat.lt_of_not_le hlt) p hp rfl
  rw [← habove, ← routesToAt_eq_named]
  constructor
  · rintro ⟨hoccurs, hcounted, hshallowest⟩
    exact ⟨hcounted.symm, hoccurs, hshallowest⟩
  · rintro ⟨hcounted, hoccurs, hshallowest⟩
    exact ⟨hoccurs, hcounted.symm, hshallowest⟩

/-- A name has a tally if it occurs at all. -/
theorem exists_tallied_iff (s : Shape C) (name : String) :
    (∃ tally, s.Tallied name tally) ↔ ∃ p ∈ s.routes, p.last.name = name := by
  constructor
  · rintro ⟨tally, htallied⟩
    rw [tallied_iff_named] at htallied
    obtain ⟨hcounted, hoccurs, -⟩ := htallied
    obtain ⟨p, hp⟩ := List.exists_mem_of_length_pos (hcounted ▸ hoccurs)
    obtain ⟨hroute, -, hname⟩ := (s.mem_named_iff _ _ p).mp hp
    exact ⟨p, hroute, hname⟩
  · rintro ⟨p, hp, hname⟩
    have hlevel : ∃ depth, s.named depth name ≠ [] :=
      ⟨p.depth, List.ne_nil_of_mem ((s.mem_named_iff _ _ p).mpr ⟨hp, rfl, hname⟩)⟩
    -- The shallowest of the levels that have the name.
    let depth := Nat.find hlevel
    refine ⟨⟨depth, (s.named depth name).length⟩, (s.tallied_iff_named name _).mpr ?_⟩
    refine ⟨rfl, List.length_pos_of_ne_nil (Nat.find_spec hlevel), ?_⟩
    intro j hj
    exact not_not.mp (Nat.find_min hlevel hj)

end Shape

theorem mem_nameTable_iff (s : Shape C) (name : String) (tally : Tally) :
    (name, tally) ∈ nameTable s ↔ s.Tallied name tally := by
  rw [mem_nameTable_iff_lookup, lookup_nameTable_eq_some_iff, Shape.tallied_iff_named]

/-! ## Agreement -/

/-- A name has an entry in the table exactly if it occurs, and the entry is the
shallowest depth of its occurrences with their number at that depth.  The search finds a
route to the name exactly if the entry counts one occurrence and that one is exported; the
route is that occurrence, and it has one step more than the depth of the entry. -/
theorem findSource_agrees_nameTable (s : Shape C) (name : String) :
    ((∃ tally, (name, tally) ∈ nameTable s) ↔ ∃ p ∈ s.routes, p.last.name = name) ∧
      (∀ tally, (name, tally) ∈ nameTable s ↔ s.Tallied name tally) ∧
      ∀ p, findSource s name = some p ↔
        ∃ depth, (name, ⟨depth, 1⟩) ∈ nameTable s ∧ s.routesToAt name depth = [p] ∧
          p.last.exported = true ∧ p.steps.length = depth + 1 := by
  refine ⟨?_, mem_nameTable_iff s name, ?_⟩
  · simp only [mem_nameTable_iff, Shape.exists_tallied_iff]
  · intro p
    rw [findSource_eq_some_iff_named]
    simp only [mem_nameTable_iff, Shape.tallied_iff_named, Shape.routesToAt_eq_named,
      Route.steps_length]
    constructor
    · rintro ⟨hnamed, habove, hexported⟩
      exact ⟨p.depth, ⟨by simp [hnamed], Nat.one_pos, habove⟩, hnamed, hexported, rfl⟩
    · rintro ⟨depth, ⟨-, -, habove⟩, hnamed, hexported, -⟩
      obtain ⟨rfl, -, -⟩ := Shape.depth_of_named hnamed
      exact ⟨hnamed, habove, hexported⟩

/-- A name that occurs twice on its shallowest level has an entry, and no route stands
for it. -/
example :
    let side (name : String) : Field SampleType :=
      .embedding name (Sample.shape name [.basic "n" .bool])
    let s := Sample.shape "S" [side "left", side "right"]
    ("n", ⟨1, 2⟩) ∈ nameTable s ∧ (findSource s "n").isNone = true := by
  decide

end RecordKit
