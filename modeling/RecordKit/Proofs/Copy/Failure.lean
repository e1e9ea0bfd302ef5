import RecordKit.Proofs.Copy.Effect

/-!
# Copies that fail

A copy is not undone when it fails.  `CopyAction.Fails` says why one action fails on
two records, and an action that fails has written nothing.  As the routes that a plan
fills do not meet, whether an action fails does not depend on the actions before it:
it can be read off the records as they were given.

* `CopyAction.run_eq_error_iff`: an action ends with an error exactly if it fails.
* `runActions_error_eq_none_iff`, `runActions_of_fails`: a list of actions stops at the
  first one that fails.
* `CopyPlan.run_compile_failure`: the error of a copy, and what the destination holds
  then.
-/

namespace RecordKit

variable {C : Type} [UserType C]

/-! ## One action -/

/-- Why an action fails on two records: one of its routes does not resolve, or it
converts and the destination field does not accept the view of the value. -/
inductive CopyAction.Fails (a : CopyAction C) (dest source : Data) : CopyError → Prop
  | unresolved (h : fetch? a.dest.steps dest = none ∨ fetch? a.source.steps source = none) :
      Fails a dest source (.unresolved a.dest.dotted a.source.dotted)
  | rejected {value : Data} (hdest : (fetch? a.dest.steps dest).isSome = true)
      (hsource : fetch? a.source.steps source = some value) (hconversion : a.conversion = true)
      (hview : a.dest.last.ofView? (a.source.last.view value) = none) :
      Fails a dest source (.conversion a.dest.dotted a.sourceKind a.destKind)

namespace CopyAction

theorem transfer?_eq_none_iff (a : CopyAction C) (value : Data) :
    a.transfer? value = none ↔
      a.conversion = true ∧ a.dest.last.ofView? (a.source.last.view value) = none := by
  unfold transfer?
  cases a.conversion <;> simp

/-- An action ends with an error exactly if it fails for that reason.  Writing cannot
fail once the destination route has been found to resolve. -/
theorem run_eq_error_iff (a : CopyAction C) (dest source : Data) (e : CopyError) :
    a.run dest source = .error e ↔ a.Fails dest source e := by
  unfold run
  cases hdest : fetch? a.dest.steps dest with
  | none =>
      constructor
      · rintro ⟨⟩
        exact .unresolved (.inl hdest)
      · rintro (_ | ⟨hsome, -, -, -⟩)
        · rfl
        · simp [hdest] at hsome
  | some old =>
      cases hsource : fetch? a.source.steps source with
      | none =>
          constructor
          · rintro ⟨⟩
            exact .unresolved (.inr hsource)
          · rintro (_ | ⟨-, hsome, -, -⟩)
            · rfl
            · simp [hsource] at hsome
      | some value =>
          have hresolves : ¬(fetch? a.dest.steps dest = none ∨
              fetch? a.source.steps source = none) := by
            simp [hdest, hsource]
          cases htransfer : a.transfer? value with
          | none =>
              obtain ⟨hconversion, hview⟩ := (a.transfer?_eq_none_iff value).mp htransfer
              simp only [htransfer]
              constructor
              · rintro ⟨⟩
                exact .rejected (by simp [hdest]) hsource hconversion hview
              · rintro (h | _)
                · exact absurd h hresolves
                · rfl
          | some written =>
              obtain ⟨dest', hdest'⟩ : ∃ dest', replace? a.dest.steps written dest = some dest' := by
                rw [← Option.isSome_iff_exists, isSome_replace?, hdest]
                rfl
              simp only [htransfer, hdest']
              constructor
              · rintro ⟨⟩
              · rintro (h | ⟨-, hvalue, hconversion, hview⟩)
                · exact absurd h hresolves
                · obtain rfl := Option.some.inj (hsource.symm.trans hvalue)
                  rw [(a.transfer?_eq_none_iff _).mpr ⟨hconversion, hview⟩] at htransfer
                  cases htransfer

theorem exists_run_iff (a : CopyAction C) (dest source : Data) :
    (∃ dest', a.run dest source = .ok dest') ↔ ∀ e, ¬a.Fails dest source e := by
  simp only [← run_eq_error_iff]
  cases a.run dest source <;> simp

/-- Whether an action fails depends on the destination only as far as its own route
goes. -/
theorem fails_congr {a : CopyAction C} {dest dest' source : Data}
    (hdig : dest'.dig? a.dest.names = dest.dig? a.dest.names) (e : CopyError) :
    a.Fails dest' source e ↔ a.Fails dest source e := by
  have hfetch : fetch? a.dest.steps dest' = fetch? a.dest.steps dest := fetch?_congr hdig
  constructor
  · rintro (h | ⟨hdest, hsource, hconversion, hview⟩)
    · exact .unresolved (hfetch ▸ h)
    · exact .rejected (hfetch ▸ hdest) hsource hconversion hview
  · rintro (h | ⟨hdest, hsource, hconversion, hview⟩)
    · exact .unresolved (hfetch ▸ h)
    · exact .rejected (hfetch ▸ hdest) hsource hconversion hview

end CopyAction

/-! ## Lists of actions -/

theorem runActions_cons {source d d' : Data} {a : CopyAction C} (h : a.run d source = .ok d')
    (rest : List (CopyAction C)) :
    runActions source (a :: rest) d = runActions source rest d' := by
  simp only [runActions, h]

/-- If a list of actions succeeds, so do the first one and those after it. -/
theorem runActions_cons_of_ok {source d : Data} {a : CopyAction C} {rest : List (CopyAction C)}
    (hok : (runActions source (a :: rest) d).error = none) :
    ∃ d', a.run d source = .ok d' ∧ (runActions source rest d').error = none := by
  cases hrun : a.run d source with
  | error e =>
      simp only [runActions, hrun] at hok
      cases hok
  | ok d' =>
      rw [runActions_cons hrun] at hok
      exact ⟨d', rfl, hok⟩

theorem runActions_append {source : Data} {actions : List (CopyAction C)} {d : Data}
    (hok : (runActions source actions d).error = none) (more : List (CopyAction C)) :
    runActions source (actions ++ more) d =
      runActions source more (runActions source actions d).dest := by
  induction actions generalizing d with
  | nil => rfl
  | cons a rest ih =>
      obtain ⟨d', hrun, hrest⟩ := runActions_cons_of_ok hok
      rw [List.cons_append, runActions_cons hrun, runActions_cons hrun, ih hrest]

/-- If no two written paths meet, all actions succeed exactly if each of them does on
the destination as it was at first. -/
theorem runActions_error_eq_none_iff {source : Data} {actions : List (CopyAction C)}
    (hapart : actions.Pairwise CopyAction.DestsApart) (dest : Data) :
    (runActions source actions dest).error = none ↔
      ∀ a ∈ actions, ∀ e, ¬a.Fails dest source e := by
  induction actions generalizing dest with
  | nil => simp [runActions]
  | cons a rest ih =>
      obtain ⟨hhead, hrest⟩ := List.pairwise_cons.mp hapart
      rw [List.forall_mem_cons, ← a.exists_run_iff]
      unfold runActions
      cases hrun : a.run dest source with
      | error e => simp
      | ok dest' =>
          -- What `a` wrote is of no concern to the actions after it.
          have hkept : ∀ b ∈ rest, ∀ e, b.Fails dest' source e ↔ b.Fails dest source e :=
            fun b hb e => CopyAction.fails_congr (CopyAction.dig?_run hrun (hhead b hb).symm) e
          simp only [ih hrest dest', Except.ok.injEq, exists_eq', true_and]
          exact forall₂_congr fun b hb => forall_congr' fun e => not_congr (hkept b hb e)

/-- The error of a list of actions is that of an action which fails on the destination
as it was at first. -/
theorem exists_fails_of_error {source : Data} {actions : List (CopyAction C)}
    (hapart : actions.Pairwise CopyAction.DestsApart) {dest : Data} {e : CopyError}
    (herror : (runActions source actions dest).error = some e) :
    ∃ a ∈ actions, a.Fails dest source e := by
  induction actions generalizing dest with
  | nil => cases herror
  | cons a rest ih =>
      obtain ⟨hhead, hrest⟩ := List.pairwise_cons.mp hapart
      cases hrun : a.run dest source with
      | error e' =>
          have he : e' = e := by simpa [runActions, hrun] using herror
          exact ⟨a, by simp, (a.run_eq_error_iff dest source e).mp (he ▸ hrun)⟩
      | ok dest' =>
          rw [runActions_cons hrun] at herror
          obtain ⟨b, hb, hfails⟩ := ih hrest herror
          have hkept := CopyAction.dig?_run hrun (hhead b hb).symm
          exact ⟨b, List.mem_cons_of_mem a hb, (CopyAction.fails_congr hkept e).mp hfails⟩

/-- The first action that fails on the destination as it was at first is where the run
stops. -/
theorem runActions_of_fails {source : Data} {before after : List (CopyAction C)}
    {a : CopyAction C} (hapart : (before ++ a :: after).Pairwise CopyAction.DestsApart)
    {dest : Data} (hbefore : ∀ b ∈ before, ∀ e, ¬b.Fails dest source e) {e : CopyError}
    (ha : a.Fails dest source e) :
    (runActions source before dest).error = none ∧
      a.run (runActions source before dest).dest source = .error e ∧
      runActions source (before ++ a :: after) dest =
        ⟨(runActions source before dest).dest, some e⟩ := by
  obtain ⟨hpairs, -, hacross⟩ := List.pairwise_append.mp hapart
  have hok : (runActions source before dest).error = none :=
    (runActions_error_eq_none_iff hpairs dest).mpr hbefore
  have hdig : (runActions source before dest).dest.dig? a.dest.names = dest.dig? a.dest.names :=
    dig?_runActions (fun b hb => (hacross b hb a (by simp)).symm) dest
  have hrun : a.run (runActions source before dest).dest source = .error e :=
    (a.run_eq_error_iff _ source e).mpr ((CopyAction.fails_congr hdig e).mpr ha)
  refine ⟨hok, hrun, ?_⟩
  rw [runActions_append hok, runActions, hrun]

/-! ## Compiled plans -/

namespace CopyPlan

variable [DecidableEq C]

theorem kinds_of_mem_compile {source dest : Shape C} {a : CopyAction C}
    (ha : a ∈ (compile source dest).actions) :
    a.sourceKind = a.source.last.kind ∧ a.destKind = a.dest.last.kind :=
  ((matchField_eq_some_iff source _ a).mp (matchField_of_mem_compile ha)).2.2.2

/-- A record of another type is refused before anything is written, and the destination
is looked at first.  Otherwise a copy succeeds exactly if no action of the plan fails on
the two records as they are given.  If some do, the first of them in plan order gives
the error: both routes if one of them does not resolve, and the destination route with
the kinds of both fields if the value is not accepted.  The destination is what the
actions before it have made of it, and at the routes of that action and of all later
ones, and behind them, it holds what it held before. -/
theorem run_compile_failure (source dest : Shape C) (d s : Record) :
    let plan := compile source dest
    let out := plan.run d s
    (d.id ≠ dest.id → out = ⟨d.data, some (.wrongType .destination dest.id.name)⟩) ∧
      (d.id = dest.id → s.id ≠ source.id →
        out = ⟨d.data, some (.wrongType .source source.id.name)⟩) ∧
      (d.id = dest.id → s.id = source.id →
        (out.error = none ↔ ∀ a ∈ plan.actions, ∀ e, ¬a.Fails d.data s.data e) ∧
          ∀ before a after e, plan.actions = before ++ a :: after →
            (∀ b ∈ before, ∀ e', ¬b.Fails d.data s.data e') → a.Fails d.data s.data e →
              out.error = some e ∧ a.run out.dest s.data = .error e ∧
                a.sourceKind = a.source.last.kind ∧ a.destKind = a.dest.last.kind ∧
                runActions s.data before d.data = ⟨out.dest, none⟩ ∧
                ∀ b ∈ a :: after, ∀ behind : List (Field C),
                  fetch? (b.dest.steps ++ behind) out.dest =
                    fetch? (b.dest.steps ++ behind) d.data) := by
  intro plan out
  have hapart : plan.actions.Pairwise CopyAction.DestsApart := compile_dests_apart source dest
  refine ⟨?_, ?_, ?_⟩
  · intro hdest
    exact if_pos hdest
  · intro hdest hsource
    have hright : ¬d.id ≠ plan.dest := not_not.mpr hdest
    have hwrong : s.id ≠ plan.source := hsource
    show plan.run d s = _
    rw [CopyPlan.run, if_neg hright, if_pos hwrong]
    rfl
  · intro hdest hsource
    have hout : out = runActions s.data plan.actions d.data := run_of_ids hdest hsource
    refine ⟨?_, ?_⟩
    · rw [hout]
      exact runActions_error_eq_none_iff hapart d.data
    · intro before a after e hactions hbefore ha
      rw [hactions] at hapart
      obtain ⟨hok, hrun, hstop⟩ := runActions_of_fails hapart hbefore ha
      rw [← hactions, ← hout] at hstop
      have hdestData : out.dest = (runActions s.data before d.data).dest := by rw [hstop]
      have hmem : a ∈ plan.actions := by simp [hactions]
      refine ⟨by rw [hstop], hdestData ▸ hrun, (kinds_of_mem_compile hmem).1,
        (kinds_of_mem_compile hmem).2, by rw [hdestData, ← hok], ?_⟩
      intro b hb behind
      apply fetch?_congr
      rw [hdestData]
      apply dig?_runActions
      intro c hc
      -- No earlier action writes at the route of `b` or behind it.
      have hbc : Apart b.dest.names c.dest.names :=
        ((List.pairwise_append.mp hapart).2.2 c hc b hb).symm
      refine hbc.extend ?_
      rw [List.map_append]
      exact List.prefix_append _ _

/-- Visits that are counted one by one. -/
def visits : Shape SampleType :=
  Sample.shape "Visits"
    [ .basic "id" (Sample.unsigned .w64),
      .basic "count" (Sample.signed .w32),
      .basic "note" .string ]

/-- Visits that are counted in pairs. -/
def pairedVisits : Shape SampleType :=
  Sample.shape "PairedVisits"
    [ .basic "id" (Sample.signed .w16),
      .embedding "totals" (Sample.shape "Totals" [ .basic "count" (.user .even) ]),
      .basic "note" FieldType.byteList ]

/-- An odd count is not accepted.  The id before it has been written, and the count and the
note after it have not.  Where both records are of the wrong type, the destination is
blamed. -/
theorem run_visits_odd :
    let d : Record := ⟨pairedVisits.id, .record
      [("id", .int 0), ("totals", .record [("count", .int 2)]), ("note", .bytes [1])]⟩
    let s : Record := ⟨visits.id, .record
      [("id", .int 7), ("count", .int 3), ("note", .text "x")]⟩
    let plan := compile visits pairedVisits
    let out := plan.run d s
    out.error = some (.conversion "totals.count" .int .uint) ∧
      out.dest.dig? ["id"] = some (.int 7) ∧
      out.dest.dig? ["totals", "count"] = some (.int 2) ∧
      out.dest.dig? ["note"] = some (.bytes [1]) ∧
      plan.run s d = ⟨s.data, some (.wrongType .destination "PairedVisits")⟩ := by
  intro d s plan out
  let a₀ := plan.actions.get ⟨0, by decide⟩
  let a₁ := plan.actions.get ⟨1, by decide⟩
  let a₂ := plan.actions.get ⟨2, by decide⟩
  have hactions : plan.actions = [a₀] ++ a₁ :: [a₂] := by
    rfl
  have hfirst : ∀ b ∈ [a₀], ∀ e, ¬b.Fails d.data s.data e := by
    intro b hb
    rw [List.mem_singleton.mp hb, ← CopyAction.exists_run_iff]
    exact ⟨_, rfl⟩
  have hsecond : a₁.Fails d.data s.data (.conversion a₁.dest.dotted .int .uint) := by
    have hvalue : fetch? a₁.source.steps s.data = some (.int 3) := by
      rfl
    exact .rejected (by rfl) hvalue (by rfl) (by rfl)
  obtain ⟨-, -, hfailure⟩ := run_compile_failure visits pairedVisits d s
  obtain ⟨herror, -, -, -, hwritten, hkept⟩ :=
    (hfailure rfl rfl).2 [a₀] a₁ [a₂] _ hactions hfirst hsecond
  have hroute : a₁.dest.dotted = "totals.count" := by
    decide
  have hcount : fetch? (a₁.dest.steps ++ []) out.dest = some (.int 2) :=
    hkept a₁ (by simp) []
  have hnote : fetch? (a₂.dest.steps ++ []) out.dest = some (.bytes [1]) :=
    hkept a₂ (by simp) []
  refine ⟨hroute ▸ herror, ?_, ((fetch?_eq_some_iff _ _ _).mp hcount).2,
    ((fetch?_eq_some_iff _ _ _).mp hnote).2, ?_⟩
  · rw [show out.dest = (runActions s.data [a₀] d.data).dest from
      (congrArg CopyOutcome.dest hwritten).symm]
    rfl
  · exact (run_compile_failure visits pairedVisits s d).1 (by decide)

end CopyPlan

end RecordKit
