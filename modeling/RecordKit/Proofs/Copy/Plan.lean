import RecordKit.Copy.Plan
import RecordKit.Proofs.Shape.Promotion
import RecordKit.Sample.Records

/-!
# What a compiled plan contains

The compiler enters the embedded fields of the destination one inside the other
and carries its depth and the fields above it along.  `mem_structActions_iff`
turns this recursion into a condition on the routes of the destination alone.

* `CopyPlan.mem_compile_iff` gives that condition for a whole plan.
* `CopyPlan.compile_characterization` states it without the compiler's own
  vocabulary, together with what each action says and how actions are ordered.
-/

namespace RecordKit

variable {C : Type}

/-! ## Reaching one field -/

/-- The table lets the compiler pass at the end of a route that begins at the
given depth: the last field is exported and its name stands for its depth. -/
def NameTable.Passes (table : NameTable) (depth : Nat) (r : Route C) : Prop :=
  table.promotes r.last.name (depth + r.depth) = true ∧ r.last.exported = true

theorem NameTable.passes_direct_iff (table : NameTable) (depth : Nat) (f : Field C) :
    table.Passes depth (⟨[], f⟩ : Route C) ↔
      (table.promotes f.name depth && f.exported) = true := by
  rw [Bool.and_eq_true]
  rfl

theorem NameTable.passes_under_iff (table : NameTable) (depth : Nat) (f : Field C)
    (r : Route C) : table.Passes depth (r.under f) ↔ table.Passes (depth + 1) r := by
  have hdepth : depth + (r.depth + 1) = depth + 1 + r.depth := by
    omega
  simp only [NameTable.Passes, Route.last_under, Route.depth_under, hdepth]

variable [DecidableEq C] [UserType C]

/-! ## Matching one field -/

theorem transfer?_eq_some_iff (source dest : Field C) (conversion : Bool) :
    transfer? source dest = some conversion ↔
      (source.type = dest.type ∨ source.kind.convertsTo dest.kind = true) ∧
        (conversion = false ↔ source.type = dest.type) := by
  unfold transfer?
  by_cases htype : source.type = dest.type
  · rw [if_pos htype]
    cases conversion <;> simp [htype]
  · rw [if_neg htype]
    cases conversion <;> simp [htype]

theorem matchField_eq_some_iff (source : Shape C) (p : Route C) (a : CopyAction C) :
    matchField source p = some a ↔
      a.dest = p ∧ findSource source p.last.name = some a.source ∧
        transfer? a.source.last p.last = some a.conversion ∧
        a.sourceKind = a.source.last.kind ∧ a.destKind = p.last.kind := by
  unfold matchField
  constructor
  · intro h
    obtain ⟨q, hq, hmap⟩ := Option.bind_eq_some_iff.mp h
    obtain ⟨conversion, htransfer, rfl⟩ := Option.map_eq_some_iff.mp hmap
    exact ⟨rfl, hq, htransfer, rfl, rfl⟩
  · obtain ⟨dest, q, conversion, sourceKind, destKind⟩ := a
    rintro ⟨rfl, hq, htransfer, hsource, hdest⟩
    dsimp only at hq htransfer hsource hdest
    simp [hq, htransfer, hsource, hdest]

/-! ## The recursion over embedded structs -/

namespace CopyPlan

/-- The actions for one field of a struct at a given depth. -/
def actionsAt (source : Shape C) (table : NameTable) (depth : Nat) (via : List (Field C))
    (f : Field C) : List (CopyAction C) :=
  if table.promotes f.name depth && f.exported then
    match matchField source ⟨via, f⟩ with
    | some action => [action]
    | none => f.inner.toList.flatMap (structActions source table (depth + 1) (via ++ [f]))
  else []

theorem fieldActions_eq_flatMap (source : Shape C) (table : NameTable) (depth : Nat)
    (via : List (Field C)) (fields : List (Field C)) :
    fieldActions source table depth via fields =
      fields.flatMap (actionsAt source table depth via) := by
  induction fields with
  | nil => rfl
  | cons f rest ih =>
      obtain ⟨name, type, exported, isSealed, resolves, check, inner⟩ := f
      rw [List.flatMap_cons, ← ih]
      unfold actionsAt
      rw [fieldActions.eq_def]
      dsimp only
      congr 1
      split
      · cases hmatch : matchField source _ <;> cases inner <;> simp
      · rfl

theorem structActions_eq_flatMap (source : Shape C) (table : NameTable) (depth : Nat)
    (via : List (Field C)) (s : Shape C) :
    structActions source table depth via s =
      s.fields.flatMap (actionsAt source table depth via) := by
  cases s
  exact fieldActions_eq_flatMap source table depth via _

/-- The compiler acts on a route behind the fields `via`: it passes every field
of the route, and the last one is the first that has a match. -/
structure Acts (source : Shape C) (table : NameTable) (depth : Nat) (via : List (Field C))
    (p : Route C) (a : CopyAction C) : Prop where
  matched : matchField source (p.behind via) = some a
  passes : ∀ r : Route C, r.AtOrAbove p → table.Passes depth r
  unmatched : ∀ r : Route C, r.AtOrAbove p → r ≠ p → matchField source (r.behind via) = none

variable {source : Shape C} {table : NameTable} {depth : Nat} {via : List (Field C)}

theorem acts_direct_iff (f : Field C) (a : CopyAction C) :
    Acts source table depth via ⟨[], f⟩ a ↔
      table.Passes depth (⟨[], f⟩ : Route C) ∧ matchField source ⟨via, f⟩ = some a := by
  constructor
  · intro h
    exact ⟨h.passes _ (Route.AtOrAbove.refl _), Route.behind_direct via f ▸ h.matched⟩
  · rintro ⟨hpass, hmatched⟩
    refine ⟨(Route.behind_direct via f).symm ▸ hmatched, ?_, ?_⟩
    · intro r hr
      rw [(Route.atOrAbove_direct_iff f r).mp hr]
      exact hpass
    · intro r hr hne
      exact absurd ((Route.atOrAbove_direct_iff f r).mp hr) hne

theorem acts_under_iff (f : Field C) (p : Route C) (a : CopyAction C) :
    Acts source table depth via (p.under f) a ↔
      table.Passes depth (⟨[], f⟩ : Route C) ∧ matchField source ⟨via, f⟩ = none ∧
        Acts source table (depth + 1) (via ++ [f]) p a := by
  have hdirect : (⟨[], f⟩ : Route C).AtOrAbove (p.under f) :=
    (Route.atOrAbove_under_iff f _ p).mpr (Or.inl rfl)
  have hunder {r : Route C} (hr : r.AtOrAbove p) : (r.under f).AtOrAbove (p.under f) :=
    (Route.atOrAbove_under_iff f _ p).mpr (Or.inr ⟨r, rfl, hr⟩)
  constructor
  · intro h
    refine ⟨h.passes _ hdirect, ?_, ?_, ?_, ?_⟩
    · rw [← Route.behind_direct]
      apply h.unmatched _ hdirect
      intro heq
      exact Nat.succ_ne_zero p.depth (congrArg Route.depth heq).symm
    · rw [← Route.behind_under]
      exact h.matched
    · intro r hr
      exact (table.passes_under_iff depth f r).mp (h.passes _ (hunder hr))
    · intro r hr hne
      rw [← Route.behind_under]
      exact h.unmatched _ (hunder hr) fun heq => hne (Route.under_injective f heq)
  · rintro ⟨hpass, hmatch, h⟩
    refine ⟨?_, ?_, ?_⟩
    · rw [Route.behind_under]
      exact h.matched
    · intro r hr
      rcases (Route.atOrAbove_under_iff f r p).mp hr with rfl | ⟨q, rfl, hq⟩
      · exact hpass
      · exact (table.passes_under_iff depth f q).mpr (h.passes q hq)
    · intro r hr hne
      rcases (Route.atOrAbove_under_iff f r p).mp hr with rfl | ⟨q, rfl, hq⟩
      · rw [Route.behind_direct, hmatch]
      · rw [Route.behind_under]
        exact h.unmatched q hq fun heq => hne (by rw [heq])

/-- What a field contributes, given the actions of the struct that it embeds. -/
theorem mem_actionsAt_iff {f : Field C} {a : CopyAction C}
    (hinner : ∀ inner, f.inner = some inner →
      (a ∈ structActions source table (depth + 1) (via ++ [f]) inner ↔
        ∃ p ∈ inner.routes, Acts source table (depth + 1) (via ++ [f]) p a)) :
    a ∈ actionsAt source table depth via f ↔
      ∃ p ∈ f.routes, Acts source table depth via p a := by
  simp only [Field.mem_routes_iff]
  unfold actionsAt
  constructor
  -- Either the field is filled itself, or the struct that it embeds is entered.
  · intro ha
    split at ha
    · next hguard =>
        have hpass := (table.passes_direct_iff depth f).mpr hguard
        cases hmatch : matchField source ⟨via, f⟩ with
        | some action =>
            rw [hmatch, List.mem_singleton] at ha
            subst ha
            exact ⟨⟨[], f⟩, Or.inl rfl, (acts_direct_iff f _).mpr ⟨hpass, hmatch⟩⟩
        | none =>
            simp only [hmatch, List.mem_flatMap, Option.mem_toList] at ha
            obtain ⟨inner, hsome, ha⟩ := ha
            obtain ⟨p, hp, hacts⟩ := (hinner inner hsome).mp ha
            exact ⟨p.under f, Or.inr ⟨inner, hsome, p, hp, rfl⟩,
              (acts_under_iff f p a).mpr ⟨hpass, hmatch, hacts⟩⟩
    · simp at ha
  · rintro ⟨_, rfl | ⟨inner, hsome, p, hp, rfl⟩, hacts⟩
    · obtain ⟨hpass, hmatched⟩ := (acts_direct_iff f a).mp hacts
      rw [if_pos ((table.passes_direct_iff depth f).mp hpass), hmatched]
      exact List.mem_singleton.mpr rfl
    · obtain ⟨hpass, hmatch, hacts⟩ := (acts_under_iff f p a).mp hacts
      rw [if_pos ((table.passes_direct_iff depth f).mp hpass), hmatch]
      simp only [List.mem_flatMap, Option.mem_toList]
      exact ⟨inner, hsome, (hinner inner hsome).mpr ⟨p, hp, hacts⟩⟩

theorem mem_structActions_iff (s : Shape C) (a : CopyAction C) :
    a ∈ structActions source table depth via s ↔
      ∃ p ∈ s.routes, Acts source table depth via p a := by
  induction s using Shape.embedding_induction generalizing depth via with
  | step s ih =>
      rw [structActions_eq_flatMap, Shape.routes_eq_flatMap]
      simp only [List.mem_flatMap]
      constructor
      · rintro ⟨f, hf, ha⟩
        obtain ⟨p, hp, hacts⟩ := (mem_actionsAt_iff fun inner hinner => ih f hf inner hinner).mp ha
        exact ⟨p, ⟨f, hf, hp⟩, hacts⟩
      · rintro ⟨p, ⟨f, hf, hp⟩, hacts⟩
        have ha := (mem_actionsAt_iff fun inner hinner => ih f hf inner hinner).mpr ⟨p, hp, hacts⟩
        exact ⟨f, hf, ha⟩

/-- The actions for a struct stand in the order of its routes. -/
theorem structActions_sublist (s : Shape C) :
    ((structActions source table depth via s).map CopyAction.dest).Sublist
      (s.routes.map (Route.behind via)) := by
  induction s using Shape.embedding_induction generalizing depth via with
  | step s ih =>
      rw [structActions_eq_flatMap, Shape.routes_eq_flatMap, List.map_flatMap, List.map_flatMap]
      apply List.Sublist.flatMap_right
      intro f hf
      rw [Field.routes, List.map_cons, Route.behind_direct]
      unfold actionsAt
      split
      · cases hmatch : matchField source ⟨via, f⟩ with
        | some action =>
            obtain ⟨hdest, -⟩ := (matchField_eq_some_iff source ⟨via, f⟩ action).mp hmatch
            simp [hdest]
        | none =>
            cases hinner : f.inner with
            | none => simp
            | some inner =>
                have hsub := @ih f hf inner hinner (depth + 1) (via ++ [f])
                have hroutes : (inner.routes.map (Route.under f)).map (Route.behind via) =
                    inner.routes.map (Route.behind (via ++ [f])) := by
                  rw [List.map_map]
                  congr 1
                  funext p
                  exact Route.behind_under via f p
                simp only [Option.toList_some, List.flatMap_singleton]
                rw [hroutes]
                exact hsub.cons _
      · simp

/-! ## Whole plans -/

/-- A plan fills a destination route if it has an action for it. -/
def Fills (plan : CopyPlan C) (p : Route C) : Prop :=
  ∃ a ∈ plan.actions, a.dest = p

/-- Every action of a plan comes from a route of the destination on which the
compiler acts. -/
theorem acts_of_mem_compile {source dest : Shape C} {a : CopyAction C}
    (ha : a ∈ (compile source dest).actions) :
    a.dest ∈ dest.routes ∧ Acts source (nameTable dest) 0 [] a.dest a := by
  obtain ⟨p, hp, hacts⟩ := (mem_structActions_iff dest a).mp ha
  -- At the top no fields lie above the struct, so the route is `p` as it is.
  have hmatched : matchField source p = some a := hacts.matched
  obtain ⟨rfl, -⟩ := (matchField_eq_some_iff source p a).mp hmatched
  exact ⟨hp, hacts⟩

theorem mem_compile_iff {source dest : Shape C} (hdest : dest.DistinctNames)
    (a : CopyAction C) :
    a ∈ (compile source dest).actions ↔
      matchField source a.dest = some a ∧
        (∀ r : Route C, r.AtOrAbove a.dest → dest.StandsFor r ∧ r.last.exported = true) ∧
        ∀ r : Route C, r.AtOrAbove a.dest → r ≠ a.dest → matchField source r = none := by
  have hpasses {p r : Route C} (hp : p ∈ dest.routes) (hr : r.AtOrAbove p) :
      (nameTable dest).Passes 0 r ↔ dest.StandsFor r ∧ r.last.exported = true := by
    rw [NameTable.Passes, Nat.zero_add,
      promotes_nameTable_iff hdest (Shape.mem_routes_of_atOrAbove hp hr)]
  constructor
  · intro ha
    obtain ⟨hp, hacts⟩ := acts_of_mem_compile ha
    exact ⟨hacts.matched, fun r hr => (hpasses hp hr).mp (hacts.passes r hr), hacts.unmatched⟩
  · rintro ⟨hmatched, hstands, hunmatched⟩
    have hp := (hstands _ (Route.AtOrAbove.refl _)).1.1
    have hacts : Acts source (nameTable dest) 0 [] a.dest a :=
      ⟨hmatched, fun r hr => (hpasses hp hr).mpr (hstands r hr), hunmatched⟩
    exact (mem_structActions_iff dest a).mpr ⟨a.dest, hp, hacts⟩

theorem fills_compile_iff_matched {source dest : Shape C} (hdest : dest.DistinctNames)
    (p : Route C) :
    (compile source dest).Fills p ↔
      (matchField source p).isSome = true ∧
        (∀ r : Route C, r.AtOrAbove p → dest.StandsFor r ∧ r.last.exported = true) ∧
        ∀ r : Route C, r.AtOrAbove p → r ≠ p → matchField source r = none := by
  constructor
  · rintro ⟨a, ha, rfl⟩
    obtain ⟨hmatched, hrest⟩ := (mem_compile_iff hdest a).mp ha
    exact ⟨by simp [hmatched], hrest⟩
  · rintro ⟨hsome, hrest⟩
    obtain ⟨a, hmatched⟩ := Option.isSome_iff_exists.mp hsome
    obtain ⟨rfl, -⟩ := (matchField_eq_some_iff source p a).mp hmatched
    exact ⟨a, (mem_compile_iff hdest a).mpr ⟨hmatched, hrest⟩, rfl⟩

/-- Above a match that the compiler can reach, or at it, there is an action. -/
theorem exists_fills_of_matched {source dest : Shape C} (hdest : dest.DistinctNames)
    {p : Route C} (hsome : (matchField source p).isSome = true)
    (hstands : ∀ r : Route C, r.AtOrAbove p → dest.StandsFor r ∧ r.last.exported = true) :
    ∃ r : Route C, r.AtOrAbove p ∧ (compile source dest).Fills r := by
  -- On the depth: a match further up, if there is one, is nearer to the top.
  induction hn : p.depth using Nat.strongRecOn generalizing p with
  | ind n ih =>
      by_cases hunmatched : ∀ r : Route C, r.AtOrAbove p → r ≠ p → matchField source r = none
      · exact ⟨p, Route.AtOrAbove.refl p,
          (fills_compile_iff_matched hdest p).mpr ⟨hsome, hstands, hunmatched⟩⟩
      · push Not at hunmatched
        obtain ⟨r, hr, hne, hmatched⟩ := hunmatched
        have hdepth : r.depth < n := by
          rw [← hn]
          by_contra hle
          exact hne (hr.eq_of_depth (Nat.le_of_not_lt hle))
        obtain ⟨q, hq, hfills⟩ := ih r.depth hdepth (Option.isSome_iff_ne_none.mpr hmatched)
          (fun q hq => hstands q (hq.trans hr)) rfl
        exact ⟨q, hq.trans hr, hfills⟩

/-- A source field matches a destination field if the name stands for it, it is
exported, and it is of the same type or its kind converts. -/
theorem isSome_matchField_iff {source : Shape C} (hsource : source.DistinctNames)
    (p : Route C) :
    (matchField source p).isSome = true ↔
      ∃ q, source.StandsFor q ∧ q.last.name = p.last.name ∧ q.last.exported = true ∧
        (q.last.type = p.last.type ∨ q.last.kind.convertsTo p.last.kind = true) := by
  rw [Option.isSome_iff_exists]
  constructor
  · rintro ⟨a, hmatched⟩
    obtain ⟨-, hfind, htransfer, -, -⟩ := (matchField_eq_some_iff source p a).mp hmatched
    obtain ⟨hstands, hname, hexported⟩ := (findSource_eq_some_iff hsource _ _).mp hfind
    exact ⟨a.source, hstands, hname, hexported, ((transfer?_eq_some_iff _ _ _).mp htransfer).1⟩
  · rintro ⟨q, hstands, hname, hexported, htypes⟩
    have hfind := (findSource_eq_some_iff hsource p.last.name q).mpr ⟨hstands, hname, hexported⟩
    let conversion := decide (q.last.type ≠ p.last.type)
    have htransfer : transfer? q.last p.last = some conversion := by
      rw [transfer?_eq_some_iff]
      exact ⟨htypes, by simp [conversion]⟩
    exact ⟨⟨p, q, conversion, q.last.kind, p.last.kind⟩,
      (matchField_eq_some_iff source p _).mpr ⟨rfl, hfind, htransfer, rfl, rfl⟩⟩

theorem fills_compile_iff {source dest : Shape C} (hdest : dest.DistinctNames) (p : Route C) :
    (compile source dest).Fills p ↔
      (∀ r : Route C, r.AtOrAbove p → dest.StandsFor r ∧ r.last.exported = true) ∧
        (∀ r : Route C, r.AtOrAbove p → r ≠ p → ¬(compile source dest).Fills r) ∧
        (matchField source p).isSome = true := by
  constructor
  · intro hfills
    obtain ⟨hsome, hstands, hunmatched⟩ := (fills_compile_iff_matched hdest p).mp hfills
    refine ⟨hstands, ?_, hsome⟩
    intro r hr hne hr'
    have hmatched := ((fills_compile_iff_matched hdest r).mp hr').1
    rw [hunmatched r hr hne] at hmatched
    exact Bool.false_ne_true hmatched
  · rintro ⟨hstands, hunfilled, hsome⟩
    refine (fills_compile_iff_matched hdest p).mpr ⟨hsome, hstands, ?_⟩
    intro r hr hne
    by_contra hmatched
    have hmatched : (matchField source r).isSome = true := Option.isSome_iff_ne_none.mpr hmatched
    obtain ⟨q, hq, hfills⟩ :=
      exists_fills_of_matched hdest hmatched fun q hq => hstands q (hq.trans hr)
    refine hunfilled q (hq.trans hr) ?_ hfills
    rintro rfl
    exact hne (hr.eq_of_depth hq.depth_le)

/-- What an action of a plan says of its source. -/
theorem source_of_mem_compile {source dest : Shape C} (hsource : source.DistinctNames)
    (hdest : dest.DistinctNames) {a : CopyAction C} (ha : a ∈ (compile source dest).actions) :
    source.StandsFor a.source ∧ a.source.last.name = a.dest.last.name ∧
      a.source.last.exported = true ∧ transfer? a.source.last a.dest.last = some a.conversion ∧
      a.sourceKind = a.source.last.kind ∧ a.destKind = a.dest.last.kind := by
  obtain ⟨hmatched, -⟩ := (mem_compile_iff hdest a).mp ha
  obtain ⟨-, hfind, htransfer, hkinds⟩ := (matchField_eq_some_iff source _ a).mp hmatched
  obtain ⟨hstands, hname, hexported⟩ := (findSource_eq_some_iff hsource _ _).mp hfind
  exact ⟨hstands, hname, hexported, htransfer, hkinds⟩

/-- The actions of a plan come in depth-first declaration order. -/
theorem compile_dests_sublist (source dest : Shape C) :
    ((compile source dest).actions.map CopyAction.dest).Sublist dest.routes := by
  have hbehind : (Route.behind [] : Route C → Route C) = id := rfl
  have hsub : ((compile source dest).actions.map CopyAction.dest).Sublist
      (dest.routes.map (Route.behind [])) := structActions_sublist dest
  rwa [hbehind, List.map_id] at hsub

theorem compile_dests_nodup {source dest : Shape C} (hdest : dest.DistinctNames) :
    ((compile source dest).actions.map CopyAction.dest).Nodup :=
  (Shape.routes_nodup hdest).sublist (compile_dests_sublist source dest)

/-- A compiled plan has exactly one action for each destination route that
qualifies, and no other action.  A route qualifies if every field on it is
exported and stands for its name, if no action fills a field above, and if the
name at its end stands for an exported source field of the same type or of a
kind that converts.  The action reads that source field, converts exactly if the
types differ, and carries both kinds; actions come in depth-first declaration
order. -/
theorem compile_characterization {source dest : Shape C} (hsource : source.DistinctNames)
    (hdest : dest.DistinctNames) :
    let plan := compile source dest
    (∀ p : Route C, plan.Fills p ↔
      p ∈ dest.routes ∧
        (∀ r : Route C, r.AtOrAbove p → r.last.exported = true) ∧
        (∀ r : Route C, r.AtOrAbove p → dest.StandsFor r) ∧
        (∀ r : Route C, r.AtOrAbove p → r ≠ p → ¬plan.Fills r) ∧
        ∃ q, source.StandsFor q ∧ q.last.name = p.last.name ∧ q.last.exported = true ∧
          (q.last.type = p.last.type ∨ q.last.kind.convertsTo p.last.kind = true)) ∧
      (∀ a ∈ plan.actions,
        source.StandsFor a.source ∧ a.source.last.name = a.dest.last.name ∧
          (a.conversion = false ↔ a.source.last.type = a.dest.last.type) ∧
          a.sourceKind = a.source.last.kind ∧ a.destKind = a.dest.last.kind) ∧
      (plan.actions.map CopyAction.dest).Nodup ∧
      (plan.actions.map CopyAction.dest).Sublist dest.routes := by
  intro plan
  refine ⟨?_, ?_, compile_dests_nodup hdest, compile_dests_sublist source dest⟩
  · intro p
    rw [fills_compile_iff hdest, isSome_matchField_iff hsource]
    constructor
    · rintro ⟨hstands, hunfilled, hmatch⟩
      exact ⟨(hstands p (Route.AtOrAbove.refl p)).1.1, fun r hr => (hstands r hr).2,
        fun r hr => (hstands r hr).1, hunfilled, hmatch⟩
    · rintro ⟨-, hexported, hstands, hunfilled, hmatch⟩
      exact ⟨fun r hr => ⟨hstands r hr, hexported r hr⟩, hunfilled, hmatch⟩
  · intro a ha
    obtain ⟨hstands, hname, -, htransfer, hkinds⟩ := source_of_mem_compile hsource hdest ha
    exact ⟨hstands, hname, ((transfer?_eq_some_iff _ _ _).mp htransfer).2, hkinds⟩

/-- The flat record fills a promoted field of the nested copy, one level down
beside a field that is hidden by another one. -/
theorem flat_fills_created_by :
    Sample.flat.DistinctNames ∧ Sample.nestedCopy.DistinctNames ∧
      ∃ p : Route SampleType,
        p.dotted = "audit.created_by" ∧ (compile Sample.flat Sample.nestedCopy).Fills p ∧
          Sample.nestedCopy.StandsFor p := by
  have hflat : Sample.flat.DistinctNames := by
    decide
  have hnested : Sample.nestedCopy.DistinctNames := by
    decide
  let p : Route SampleType := ⟨[.embedding "audit" Sample.audit], .basic "created_by" .string⟩
  have hfills : (compile Sample.flat Sample.nestedCopy).Fills p :=
    ⟨(compile Sample.flat Sample.nestedCopy).actions.get ⟨1, by decide⟩, List.get_mem _ _, rfl⟩
  have hqualifies := ((compile_characterization hflat hnested).1 p).mp hfills
  exact ⟨hflat, hnested, p, by decide, hfills, hqualifies.2.2.1 p (Route.AtOrAbove.refl p)⟩

end CopyPlan

end RecordKit
