import RecordKit.Proofs.Shape.Routes

/-!
# What names stand for

`Shape.named` lists the routes of one level that end in a given name, and
`Shape.StandsFor` says that a route is the only one of its name on the
shallowest level that has the name.  The two walks over a shape are measured
against these notions, each on its own:

* `findSource_eq_some_iff` for the search of one name, level by level;
* `lookup_nameTable_eq_some_iff` and `promotes_nameTable_iff` for the table of
  all names.

Both walks look for the first level with some property, and the recursion on
their fuel is the same (`exists_first_lt_succ`).
-/

namespace RecordKit

variable {C : Type}

/-- The first of `fuel + 1` levels is the present one or lies further down. -/
theorem exists_first_lt_succ {fuel : Nat} {Hit Miss : Nat → Prop} :
    (∃ k < fuel + 1, Hit k ∧ ∀ j < k, Miss j) ↔
      Hit 0 ∨ Miss 0 ∧ ∃ k < fuel, Hit (k + 1) ∧ ∀ j < k, Miss (j + 1) := by
  constructor
  · rintro ⟨k, hk, hhit, hmiss⟩
    cases k with
    | zero => exact Or.inl hhit
    | succ k =>
        refine Or.inr ⟨hmiss 0 (Nat.succ_pos k), k, by omega, hhit, ?_⟩
        intro j hj
        exact hmiss (j + 1) (by omega)
  · rintro (hhit | ⟨hmiss0, k, hk, hhit, hmiss⟩)
    · exact ⟨0, Nat.succ_pos fuel, hhit, by simp⟩
    · refine ⟨k + 1, by omega, hhit, ?_⟩
      intro j hj
      cases j with
      | zero => exact hmiss0
      | succ j => exact hmiss j (by omega)

/-! ## The routes of a name -/

/-- The routes of a level that end in a field of the given name. -/
def Shape.named (s : Shape C) (depth : Nat) (name : String) : List (Route C) :=
  (s.routesAt depth).filter fun p => p.last.name = name

theorem Shape.mem_named_iff (s : Shape C) (depth : Nat) (name : String) (p : Route C) :
    p ∈ s.named depth name ↔ p ∈ s.routes ∧ p.depth = depth ∧ p.last.name = name := by
  rw [Shape.named, List.mem_filter, Shape.mem_routesAt_iff, decide_eq_true_iff, and_assoc]

theorem Shape.named_zero (s : Shape C) (name : String) :
    s.named 0 name =
      s.fields.filterMap fun f => if f.name = name then some ⟨[], f⟩ else none := by
  rw [Shape.named, Shape.routesAt, List.filter_map, ← List.filterMap_eq_map', List.filterMap_filter]
  simp only [Function.comp_def, decide_eq_true_eq]

theorem Shape.named_succ (s : Shape C) (depth : Nat) (name : String) :
    s.named (depth + 1) name =
      s.fields.flatMap fun f =>
        f.inner.toList.flatMap fun inner => (inner.named depth name).map (Route.under f) := by
  rw [Shape.named, Shape.routesAt_succ, List.filter_flatMap]
  congr 1
  funext f
  rw [List.filter_flatMap]
  simp only [List.filter_map, Function.comp_def, Route.last_under]
  rfl

theorem Shape.named_nodup {s : Shape C} (hs : s.DistinctNames) (depth : Nat) (name : String) :
    (s.named depth name).Nodup := by
  rw [Shape.named, Shape.routesAt_eq_filter]
  exact ((Shape.routes_nodup hs).filter _).filter _

theorem Shape.depth_of_named {s : Shape C} {depth : Nat} {name : String} {p : Route C}
    (h : s.named depth name = [p]) : p.depth = depth ∧ depth < s.levels ∧ p.last.name = name := by
  have hp : p ∈ s.named depth name := by simp [h]
  obtain ⟨hroute, rfl, hname⟩ := (s.mem_named_iff depth name p).mp hp
  exact ⟨rfl, Shape.depth_lt_levels hroute, hname⟩

/-- A route stands for its name if it is the only occurrence of that name at the
shallowest depth at which the name occurs. -/
def Shape.StandsFor (s : Shape C) (p : Route C) : Prop :=
  p ∈ s.routes ∧
    ∀ r ∈ s.routes, r.last.name = p.last.name → p.depth ≤ r.depth ∧ (r.depth = p.depth → r = p)

/-- A route that is alone of its name on its level, below levels without the name,
stands for it. -/
theorem Shape.standsFor_of_named {s : Shape C} {p : Route C}
    (hsame : s.named p.depth p.last.name = [p])
    (habove : ∀ j < p.depth, s.named j p.last.name = []) : s.StandsFor p := by
  have hp : p ∈ s.named p.depth p.last.name := by simp [hsame]
  refine ⟨((s.mem_named_iff _ _ p).mp hp).1, ?_⟩
  intro r hr hname
  constructor
  · by_contra hlt
    have hmem : r ∈ s.named r.depth p.last.name := (s.mem_named_iff _ _ r).mpr ⟨hr, rfl, hname⟩
    rw [habove r.depth (by omega)] at hmem
    exact List.not_mem_nil hmem
  · intro hdepth
    have hmem : r ∈ s.named p.depth p.last.name :=
      (s.mem_named_iff _ _ r).mpr ⟨hr, hdepth, hname⟩
    rw [hsame] at hmem
    exact List.mem_singleton.mp hmem

theorem Shape.standsFor_iff_named {s : Shape C} (hs : s.DistinctNames) (p : Route C) :
    s.StandsFor p ↔
      s.named p.depth p.last.name = [p] ∧ ∀ j < p.depth, s.named j p.last.name = [] := by
  constructor
  · rintro ⟨hp, hleast⟩
    rw [eq_singleton_iff_of_nodup (Shape.named_nodup hs _ _)]
    simp only [Shape.mem_named_iff, List.eq_nil_iff_forall_not_mem]
    constructor
    · intro r
      constructor
      · rintro ⟨hr, hdepth, hname⟩
        exact (hleast r hr hname).2 hdepth
      · rintro rfl
        exact ⟨hp, rfl, rfl⟩
    · rintro j hj r ⟨hr, rfl, hname⟩
      have hle := (hleast r hr hname).1
      omega
  · rintro ⟨hsame, habove⟩
    exact Shape.standsFor_of_named hsame habove

/-- Two routes of one name that stand for it are the same. -/
theorem Shape.StandsFor.unique {s : Shape C} {p q : Route C} (hp : s.StandsFor p)
    (hq : s.StandsFor q) (hname : p.last.name = q.last.name) : p = q := by
  have hpq := hp.2 q hq.1 hname.symm
  have hqp := hq.2 p hp.1 hname
  exact hqp.2 (Nat.le_antisymm hpq.1 hqp.1)

/-- With distinct names, a direct field stands for its name. -/
theorem Shape.standsFor_direct {s : Shape C} (hs : s.DistinctNames) {f : Field C}
    (hf : f ∈ s.fields) : s.StandsFor ⟨[], f⟩ := by
  refine ⟨Shape.mem_routes_direct hf, ?_⟩
  intro r hr hname
  refine ⟨Nat.zero_le _, ?_⟩
  intro hdepth
  obtain ⟨g, hg, rfl | ⟨_, _, q, _, rfl⟩⟩ := (s.mem_routes_iff r).mp hr
  · rw [hs.field_eq hg hf hname]
  · exact absurd hdepth (Nat.succ_ne_zero _)

/-! ## Searching one name -/

/-- A route behind the embedded fields that lead to its struct. -/
def Route.behind (via : List (Field C)) (p : Route C) : Route C :=
  ⟨via ++ p.via, p.last⟩

@[simp] theorem Route.behind_direct (via : List (Field C)) (f : Field C) :
    (⟨[], f⟩ : Route C).behind via = ⟨via, f⟩ := by
  simp [Route.behind]

theorem Route.behind_under (via : List (Field C)) (f : Field C) (p : Route C) :
    (p.under f).behind via = p.behind (via ++ [f]) := by
  simp [Route.behind, Route.under]

/-- The routes of a name that lie `depth` levels below some places. -/
def namedBelow (name : String) (depth : Nat) (level : List (Place C)) : List (Route C) :=
  level.flatMap fun (via, s) => (s.named depth name).map (Route.behind via)

theorem namedBelow_zero (name : String) (level : List (Place C)) :
    namedBelow name 0 level = occurrences name level := by
  unfold namedBelow occurrences
  congr 1
  funext ⟨via, s⟩
  dsimp only
  rw [Shape.named_zero, List.map_filterMap]
  congr 1
  funext f
  split <;> simp

/-- Where the present level lacks the name, nothing is lost by going down. -/
theorem namedBelow_descend {name : String} {level : List (Place C)}
    (habsent : occurrences name level = []) (depth : Nat) :
    namedBelow name depth (descend name level) = namedBelow name (depth + 1) level := by
  unfold namedBelow descend
  rw [List.flatMap_assoc]
  apply List.flatMap_congr
  rintro ⟨via, s⟩ hplace
  dsimp only
  rw [Shape.named_succ, List.filterMap_eq_flatMap_toList, List.flatMap_assoc, List.map_flatMap]
  apply List.flatMap_congr
  intro f hf
  -- Going down skips fields of the name itself, but there are none here.
  have hname : f.name ≠ name := by
    intro heq
    have hmem : (⟨via, f⟩ : Route C) ∈ occurrences name level := by
      simp only [occurrences, List.mem_flatMap, List.mem_filterMap]
      exact ⟨(via, s), hplace, f, hf, by simp [heq]⟩
    rw [habsent] at hmem
    exact List.not_mem_nil hmem
  rw [if_neg hname]
  cases f.inner with
  | none => rfl
  | some inner =>
      simp only [Option.map_some, Option.toList_some, List.flatMap_singleton, List.map_map]
      congr 1
      funext p
      exact (Route.behind_under via f p).symm

theorem searchLevels_eq_some_iff (name : String) (fuel : Nat) (level : List (Place C))
    (p : Route C) :
    searchLevels name fuel level = some p ↔
      ∃ k < fuel, (namedBelow name k level = [p] ∧ p.last.exported = true) ∧
        ∀ j < k, namedBelow name j level = [] := by
  -- On the fuel: the routes below the level that comes next are the routes one
  -- level further below this one.
  induction fuel generalizing level with
  | zero => simp [searchLevels]
  | succ fuel ih =>
      rw [exists_first_lt_succ, namedBelow_zero, searchLevels]
      cases hhere : occurrences name level with
      | nil =>
          simp only [ih, namedBelow_descend hhere]
          simp
      | cons q rest =>
          cases rest with
          | nil =>
              have hfound : ((if q.last.exported then some q else none) = some p) ↔
                  [q] = [p] ∧ p.last.exported = true := by
                rw [Option.ite_none_right_eq_some, List.singleton_inj, Option.some.injEq, and_comm]
                constructor
                · rintro ⟨rfl, hexported⟩
                  exact ⟨rfl, hexported⟩
                · rintro ⟨rfl, hexported⟩
                  exact ⟨rfl, hexported⟩
              simp [hfound]
          | cons => simp

theorem namedBelow_start (s : Shape C) (name : String) (depth : Nat) :
    namedBelow name depth [([], s)] = s.named depth name := by
  have hbehind : (Route.behind [] : Route C → Route C) = id := rfl
  simp [namedBelow, hbehind]

/-- The search finds the first level that has the name, and succeeds there if
the name occurs once and is exported. -/
theorem findSource_eq_some_iff_named (s : Shape C) (name : String) (p : Route C) :
    findSource s name = some p ↔
      s.named p.depth name = [p] ∧ (∀ j < p.depth, s.named j name = []) ∧
        p.last.exported = true := by
  rw [findSource, searchLevels_eq_some_iff]
  simp only [namedBelow_start]
  constructor
  · rintro ⟨k, _, ⟨hnamed, hexported⟩, hbefore⟩
    obtain ⟨rfl, _, _⟩ := Shape.depth_of_named hnamed
    exact ⟨hnamed, hbefore, hexported⟩
  · rintro ⟨hnamed, hbefore, hexported⟩
    obtain ⟨_, hlevels, _⟩ := Shape.depth_of_named hnamed
    exact ⟨p.depth, hlevels, ⟨hnamed, hexported⟩, hbefore⟩

/-- With distinct names, the search finds the exported route that stands for the
name. -/
theorem findSource_eq_some_iff {s : Shape C} (hs : s.DistinctNames) (name : String)
    (p : Route C) :
    findSource s name = some p ↔
      s.StandsFor p ∧ p.last.name = name ∧ p.last.exported = true := by
  rw [findSource_eq_some_iff_named, Shape.standsFor_iff_named hs]
  constructor
  · rintro ⟨hnamed, hbefore, hexported⟩
    obtain ⟨_, _, rfl⟩ := Shape.depth_of_named hnamed
    exact ⟨⟨hnamed, hbefore⟩, rfl, hexported⟩
  · rintro ⟨⟨hnamed, hbefore⟩, rfl, hexported⟩
    exact ⟨hnamed, hbefore, hexported⟩

/-! ## Counting all names -/

namespace NameTable

/-- The tally of a name found so many times at a depth, if it was found. -/
def tally? (depth count : Nat) : Option Tally :=
  if count = 0 then none else some ⟨depth, count⟩

theorem lookup_note_other {name other : String} (h : other ≠ name) (depth : Nat)
    (table : NameTable) : (note depth name table).lookup other = table.lookup other := by
  have hother : (other == name) = false := beq_eq_false_iff_ne.mpr h
  induction table with
  | nil => simp [note, List.lookup_cons, hother]
  | cons entry rest ih =>
      obtain ⟨n, tally⟩ := entry
      simp only [note]
      split
      · next hn => simp [List.lookup_cons, hn, hother]
      · simp [List.lookup_cons, ih]

/-- Counting a name adds to a tally of the same depth, leaves one of another
depth alone, and begins one where there is none. -/
theorem lookup_note_self (depth : Nat) (name : String) (table : NameTable) :
    (note depth name table).lookup name =
      some (match table.lookup name with
        | none => ⟨depth, 1⟩
        | some tally =>
            if tally.depth = depth then { tally with count := tally.count + 1 } else tally) := by
  induction table with
  | nil => simp [note]
  | cons entry rest ih =>
      obtain ⟨n, tally⟩ := entry
      simp only [note]
      split
      · next hn => simp [hn]
      · next hn =>
          have hname : (name == n) = false := beq_eq_false_iff_ne.mpr (Ne.symm hn)
          simp only [List.lookup_cons, hname, ih]

theorem lookup_note_tally? {name : String} {depth count : Nat} {table : NameTable}
    (h : table.lookup name = tally? depth count) :
    (note depth name table).lookup name = tally? depth (count + 1) := by
  rw [lookup_note_self, h]
  by_cases hcount : count = 0
  · simp [tally?, hcount]
  · simp [tally?, hcount]

/-- A name that is known from another depth keeps its tally. -/
theorem lookup_note_known {name : String} {depth : Nat} {table : NameTable} {tally : Tally}
    (h : table.lookup name = some tally) (hdepth : tally.depth ≠ depth) (other : String) :
    (note depth other table).lookup name = some tally := by
  by_cases hname : name = other
  · subst hname
    rw [lookup_note_self, h]
    simp [hdepth]
  · rw [lookup_note_other hname, h]

theorem lookup_foldl_note {name : String} {depth count : Nat} (names : List String)
    {table : NameTable} (h : table.lookup name = tally? depth count) :
    (names.foldl (fun t n => t.note depth n) table).lookup name =
      tally? depth (count + names.count name) := by
  induction names generalizing table count with
  | nil => exact h
  | cons n rest ih =>
      rw [List.foldl_cons]
      by_cases hn : name = n
      · subst hn
        rw [ih (lookup_note_tally? h), List.count_cons_self]
        congr 1
        omega
      · rw [ih ((lookup_note_other hn depth table).trans h), List.count_cons_of_ne (Ne.symm hn)]

theorem lookup_foldl_note_known {name : String} {depth : Nat} (names : List String)
    {table : NameTable} {tally : Tally} (h : table.lookup name = some tally)
    (hdepth : tally.depth ≠ depth) :
    (names.foldl (fun t n => t.note depth n) table).lookup name = some tally := by
  induction names generalizing table with
  | nil => exact h
  | cons n rest ih => exact ih (lookup_note_known h hdepth n)

/-- The names of the fields that lie `depth` levels below some structs. -/
def namesBelow (depth : Nat) (level : List (Shape C)) : List String :=
  level.flatMap fun s => (s.routesAt depth).map (·.last.name)

theorem lookup_noteLevel {name : String} {depth : Nat} {table : NameTable}
    (h : table.lookup name = none) (level : List (Shape C)) :
    (table.noteLevel depth level).lookup name =
      tally? depth ((namesBelow 0 level).count name) := by
  have hnames : (level.flatMap fun s => s.fields.map (·.name)) = namesBelow 0 level := by
    simp [namesBelow, Shape.routesAt, Function.comp_def]
  have habsent : table.lookup name = tally? depth 0 := h
  rw [noteLevel, hnames, lookup_foldl_note _ habsent, Nat.zero_add]

theorem namesBelow_nextLevel (depth : Nat) (level : List (Shape C)) :
    namesBelow depth (nextLevel level) = namesBelow (depth + 1) level := by
  unfold namesBelow nextLevel
  rw [List.flatMap_assoc]
  congr 1
  funext s
  rw [Shape.routesAt_succ, List.filterMap_eq_flatMap_toList, List.flatMap_assoc, List.map_flatMap]
  congr 1
  funext f
  rw [List.map_flatMap]
  simp [Function.comp_def]

/-- A name that is known from a shallower level keeps its tally to the end. -/
theorem lookup_noteLevels_known {name : String} {fuel depth : Nat} {level : List (Shape C)}
    {table : NameTable} {tally : Tally} (h : table.lookup name = some tally)
    (hdepth : tally.depth < depth) :
    (noteLevels fuel depth level table).lookup name = some tally := by
  induction fuel generalizing depth level table with
  | zero => exact h
  | succ fuel ih =>
      have hlevel : (table.noteLevel depth level).lookup name = some tally :=
        lookup_foldl_note_known _ h (Nat.ne_of_lt hdepth)
      exact ih hlevel (Nat.lt_succ_of_lt hdepth)

/-- A name that is not known yet gets its tally from the first level that has
it. -/
theorem lookup_noteLevels {name : String} {fuel depth : Nat} {level : List (Shape C)}
    {table : NameTable} (h : table.lookup name = none) (tally : Tally) :
    (noteLevels fuel depth level table).lookup name = some tally ↔
      ∃ k < fuel, (tally = ⟨depth + k, (namesBelow k level).count name⟩ ∧ 0 < tally.count) ∧
        ∀ j < k, (namesBelow j level).count name = 0 := by
  induction fuel generalizing depth level table with
  | zero => simp [noteLevels, h]
  | succ fuel ih =>
      rw [exists_first_lt_succ, noteLevels]
      have hlevel : (table.noteLevel depth level).lookup name =
          tally? depth ((namesBelow 0 level).count name) := lookup_noteLevel h level
      -- A level without the name leaves the question to the levels below it; one
      -- that has the name has settled it, whatever is counted later.
      by_cases hzero : (namesBelow 0 level).count name = 0
      · rw [hzero] at hlevel
        rw [ih hlevel]
        have hnone : ¬(tally = ⟨depth + 0, 0⟩ ∧ 0 < tally.count) := by
          rintro ⟨rfl, hpos⟩
          exact Nat.lt_irrefl 0 hpos
        have hdepth (k : Nat) : depth + 1 + k = depth + (k + 1) := by
          omega
        simp only [namesBelow_nextLevel, hdepth, hnone, hzero, false_or, true_and]
      · have hknown : (table.noteLevel depth level).lookup name =
            some ⟨depth, (namesBelow 0 level).count name⟩ := by
          rw [hlevel, tally?, if_neg hzero]
        rw [lookup_noteLevels_known hknown (Nat.lt_succ_self depth), Option.some.injEq]
        constructor
        · rintro rfl
          exact Or.inl ⟨rfl, Nat.pos_of_ne_zero hzero⟩
        · rintro (⟨rfl, _⟩ | ⟨hmiss, _⟩)
          · rfl
          · exact absurd hmiss hzero

end NameTable

theorem count_namesBelow_start (s : Shape C) (depth : Nat) (name : String) :
    (NameTable.namesBelow depth [s]).count name = (s.named depth name).length := by
  have hnames : NameTable.namesBelow depth [s] = (s.routesAt depth).map (·.last.name) := by
    simp [NameTable.namesBelow]
  rw [hnames, List.count, List.countP_map, List.countP_eq_length_filter]
  rfl

/-- The table holds every name that occurs, with its shallowest depth and the
number of its occurrences there. -/
theorem lookup_nameTable_eq_some_iff (s : Shape C) (name : String) (tally : Tally) :
    (nameTable s).lookup name = some tally ↔
      tally.count = (s.named tally.depth name).length ∧ 0 < tally.count ∧
        ∀ j < tally.depth, s.named j name = [] := by
  rw [nameTable, NameTable.lookup_noteLevels rfl]
  simp only [count_namesBelow_start, List.length_eq_zero_iff, Nat.zero_add]
  constructor
  · rintro ⟨k, _, ⟨rfl, hpos⟩, hbefore⟩
    exact ⟨rfl, hpos, hbefore⟩
  · rintro ⟨hcount, hpos, hbefore⟩
    obtain ⟨p, hp⟩ := List.exists_mem_of_length_pos (hcount ▸ hpos)
    obtain ⟨hroute, hdepth, _⟩ := (s.mem_named_iff tally.depth name p).mp hp
    have hlevels := Shape.depth_lt_levels hroute
    rw [hdepth] at hlevels
    exact ⟨tally.depth, hlevels, ⟨by rw [← hcount], hpos⟩, hbefore⟩

/-- A route that the table lets pass is alone of its name on its level, and no level
above has the name, whether or not the names of a struct are distinct. -/
theorem named_of_promotes {s : Shape C} {p : Route C} (hp : p ∈ s.routes)
    (h : (nameTable s).promotes p.last.name p.depth = true) :
    s.named p.depth p.last.name = [p] ∧ ∀ j < p.depth, s.named j p.last.name = [] := by
  have hmem : p ∈ s.named p.depth p.last.name := (s.mem_named_iff _ _ p).mpr ⟨hp, rfl, rfl⟩
  rw [NameTable.promotes, beq_iff_eq, lookup_nameTable_eq_some_iff] at h
  obtain ⟨hcount, -, hbefore⟩ := h
  obtain ⟨q, hq⟩ := List.length_eq_one_iff.mp hcount.symm
  have hpq : p = q := by simpa [hq] using hmem
  exact ⟨hpq ▸ hq, hbefore⟩

/-- With distinct names, the table lets a route pass exactly if the route stands
for its name. -/
theorem promotes_nameTable_iff {s : Shape C} (hs : s.DistinctNames) {p : Route C}
    (hp : p ∈ s.routes) :
    (nameTable s).promotes p.last.name p.depth = true ↔ s.StandsFor p := by
  rw [Shape.standsFor_iff_named hs]
  constructor
  · exact named_of_promotes hp
  · rintro ⟨hnamed, hbefore⟩
    rw [NameTable.promotes, beq_iff_eq, lookup_nameTable_eq_some_iff]
    exact ⟨by simp [hnamed], Nat.one_pos, hbefore⟩

end RecordKit
