import RecordKit.Proofs.Copy.Plan
import RecordKit.Proofs.Shape.Reordering

/-!
# Plans and the order of fields

The compiler learns about the source from the search for names, and about the destination
from the table of names and from the field it stands at.  None of these sees the order of
fields.  So a plan does not depend on the order of fields in the source at all, and a
reordered destination has its actions in another order, which is its own.

* `CopyPlan.map_bare_structActions`: the compiler makes the same actions for a struct
  wherever it knows the same.
* `CopyPlan.reordered_structActions_perm`: for a reordered struct it makes the same actions
  in another order.
* `CopyPlan.compile_field_order`: whole plans.
-/

namespace RecordKit

variable {C : Type}

/-- An action without the structs that the fields on its routes embed.  It still has both
routes with all that their fields say for themselves, whether it converts, and both
kinds. -/
def CopyAction.bare (a : CopyAction C) : CopyAction C :=
  { a with dest := a.dest.bare, source := a.source.bare }

namespace CopyPlan

/-- What the compiler knows in two places comes to the same: the search for source names,
the table of destination names, and the fields on the way to the place. -/
structure Alike (source source' : Shape C) (table table' : NameTable)
    (via via' : List (Field C)) : Prop where
  find : ∀ name,
    (findSource source name).map Route.bare = (findSource source' name).map Route.bare
  promotes : ∀ name depth, table.promotes name depth = table'.promotes name depth
  via : via.map Field.bare = via'.map Field.bare

theorem Alike.enter {source source' : Shape C} {table table' : NameTable}
    {via via' : List (Field C)} (h : Alike source source' table table' via via') (f : Field C) :
    Alike source source' table table' (via ++ [f]) (via' ++ [f]) :=
  ⟨h.find, h.promotes, by simp [h.via]⟩

variable [DecidableEq C] [UserType C]

/-! ## One field -/

/-- What matches a field depends on the search for its name and on what the field says for
itself. -/
theorem map_bare_matchField (source : Shape C) (p : Route C) :
    (matchField source p).map CopyAction.bare =
      ((findSource source p.bare.last.name).map Route.bare).bind fun q =>
        (transfer? q.last p.bare.last).map fun conversion =>
          ⟨p.bare, q, conversion, q.last.kind, p.bare.last.kind⟩ := by
  have hname : p.bare.last.name = p.last.name := rfl
  rw [hname, matchField]
  cases findSource source p.last.name with
  | none => rfl
  | some q =>
      have htransfer : transfer? q.bare.last p.bare.last = transfer? q.last p.last := rfl
      simp only [Option.bind_some, Option.map_some, Option.map_map, htransfer]
      rfl

/-- What a field contributes without a match is what the struct contributes that it
embeds. -/
theorem map_bare_actionsAt (source : Shape C) (table : NameTable) (depth : Nat)
    (via : List (Field C)) (f : Field C) :
    (actionsAt source table depth via f).map CopyAction.bare =
      if table.promotes f.bare.name depth && f.bare.exported then
        match (matchField source ⟨via, f⟩).map CopyAction.bare with
        | some action => [action]
        | none => f.inner.toList.flatMap fun inner =>
            (structActions source table (depth + 1) (via ++ [f]) inner).map CopyAction.bare
      else [] := by
  have hguard : (table.promotes f.bare.name depth && f.bare.exported) =
      (table.promotes f.name depth && f.exported) := rfl
  rw [hguard, actionsAt]
  split
  · cases matchField source ⟨via, f⟩ with
    | none => exact List.map_flatMap
    | some action => rfl
  · rfl

theorem Alike.match_eq {source source' : Shape C} {table table' : NameTable}
    {via via' : List (Field C)} (h : Alike source source' table table' via via') {f f' : Field C}
    (hf : f.bare = f'.bare) :
    (matchField source ⟨via, f⟩).map CopyAction.bare =
      (matchField source' ⟨via', f'⟩).map CopyAction.bare := by
  have hroute : (⟨via, f⟩ : Route C).bare = (⟨via', f'⟩ : Route C).bare := by
    simp [Route.bare, h.via, hf]
  rw [map_bare_matchField, map_bare_matchField, hroute, h.find]

/-! ## One struct -/

/-- For one struct the compiler makes the same actions wherever it knows the same. -/
theorem map_bare_structActions {source source' : Shape C} {table table' : NameTable}
    {via via' : List (Field C)} (h : Alike source source' table table' via via') (depth : Nat)
    (s : Shape C) :
    (structActions source table depth via s).map CopyAction.bare =
      (structActions source' table' depth via' s).map CopyAction.bare := by
  induction s using Shape.embedding_induction generalizing depth via via' with
  | step s ih =>
      rw [structActions_eq_flatMap, structActions_eq_flatMap, List.map_flatMap, List.map_flatMap]
      apply List.flatMap_congr
      intro f hf
      rw [map_bare_actionsAt, map_bare_actionsAt, h.promotes, h.match_eq rfl]
      have hinner : (f.inner.toList.flatMap fun inner =>
            (structActions source table (depth + 1) (via ++ [f]) inner).map CopyAction.bare) =
          f.inner.toList.flatMap fun inner =>
            (structActions source' table' (depth + 1) (via' ++ [f]) inner).map CopyAction.bare := by
        apply List.flatMap_congr
        intro inner hmem
        exact ih f hf inner (Option.mem_toList.mp hmem) (h.enter f) (depth + 1)
      rw [hinner]

/-- For a reordered struct it makes the same actions in another order. -/
theorem reordered_structActions_perm (source : Shape C) (table : NameTable) {s s' : Shape C}
    (h : s.Reordered s') (depth : Nat) {via via' : List (Field C)}
    (hvia : via.map Field.bare = via'.map Field.bare) :
    ((structActions source table depth via s).map CopyAction.bare).Perm
      ((structActions source table depth via' s').map CopyAction.bare) := by
  have halike {via via' : List (Field C)} (hvia : via.map Field.bare = via'.map Field.bare) :
      Alike source source table table via via' := ⟨fun _ => rfl, fun _ _ => rfl, hvia⟩
  induction h generalizing depth via via' with
  | perm fields =>
      rw [map_bare_structActions (halike hvia), structActions_eq_flatMap, structActions_eq_flatMap]
      exact (fields.flatMap_right _).map _
  | @within _ _ inner inner' before f after fields fields' embeds _ _ ih =>
      rw [map_bare_structActions (halike hvia), structActions_eq_flatMap,
        structActions_eq_flatMap, fields, fields']
      simp only [List.flatMap_append, List.flatMap_cons, List.map_append]
      -- Only what the reordered struct contributes differs.
      refine List.Perm.append_left _ (List.Perm.append_right _ ?_)
      let f' : Field C := { f with inner := some inner' }
      have hf : f.bare = f'.bare := rfl
      have hinner : ((structActions source table (depth + 1) (via' ++ [f]) inner).map
            CopyAction.bare).Perm
          ((structActions source table (depth + 1) (via' ++ [f']) inner').map CopyAction.bare) :=
        ih (depth + 1) (by simp [hf])
      rw [map_bare_actionsAt, map_bare_actionsAt, (halike rfl).match_eq hf, hf, embeds]
      split
      · cases (matchField source ⟨via', f'⟩).map CopyAction.bare with
        | none => simpa using hinner
        | some action => exact List.Perm.refl _
      · exact List.Perm.refl _
  | trans _ _ ih ih' => exact (ih depth hvia).trans (ih' depth rfl)

/-! ## Whole plans -/

/-- Let the fields of the source be reordered, and those of the structs it embeds, at any
depth.  Then the plan has the same actions in the same order.  If the fields of the
destination are reordered, the plan has the same actions, and either order is the
depth-first declaration order of the destination's own fields. -/
theorem compile_field_order (source source' dest dest' : Shape C) :
    (source.Reordered source' →
        (compile source dest).actions.map CopyAction.bare =
          (compile source' dest).actions.map CopyAction.bare) ∧
      (dest.Reordered dest' →
        ((compile source dest).actions.map CopyAction.bare).Perm
            ((compile source dest').actions.map CopyAction.bare) ∧
          ((compile source dest).actions.map CopyAction.dest).Sublist dest.routes ∧
          ((compile source dest').actions.map CopyAction.dest).Sublist dest'.routes) := by
  refine ⟨?_, ?_⟩
  · intro h
    exact map_bare_structActions ⟨h.sameRoutes.findSource_eq, fun _ _ => rfl, rfl⟩ 0 dest
  · intro h
    refine ⟨?_, compile_dests_sublist source dest, compile_dests_sublist source dest'⟩
    have htable : (structActions source (nameTable dest) 0 [] dest).map CopyAction.bare =
        (structActions source (nameTable dest') 0 [] dest).map CopyAction.bare :=
      map_bare_structActions ⟨fun _ => rfl, h.sameRoutes.promotes_eq, rfl⟩ 0 dest
    show ((structActions source (nameTable dest) 0 [] dest).map CopyAction.bare).Perm _
    rw [htable]
    exact reordered_structActions_perm source (nameTable dest') h 0 rfl

/-- Who approved which version. -/
def approval : Shape SampleType :=
  Sample.shape "Approval"
    [ .basic "approved_by" .string,
      .basic "version" (Sample.unsigned .w8) ]

/-- A record with its audit and its approval, which both tell a version. -/
def approved : Shape SampleType :=
  Sample.shape "Approved"
    [ .basic "id" (Sample.unsigned .w64),
      .embedding "approval" approval,
      .embedding "audit" Sample.audit ]

/-- The record from back to front, and its approval as well. -/
def approvedBackwards : Shape SampleType :=
  Sample.shape "ApprovedBackwards"
    [ .embedding "audit" Sample.audit,
      .embedding "approval" { approval with fields := approval.fields.reverse },
      .basic "id" (Sample.unsigned .w64) ]

/-- The flat record from back to front. -/
def flatBackwards : Shape SampleType :=
  Sample.shape "FlatBackwards" Sample.flat.fields.reverse

/-- The version is not copied in either order of the source, as two fields have its name.
The other two fields are, in the order of the destination. -/
theorem compile_approved_backwards :
    approved.Reordered approvedBackwards ∧ Sample.flat.Reordered flatBackwards ∧
      (compile approved Sample.flat).actions.map CopyAction.bare =
        (compile approvedBackwards Sample.flat).actions.map CopyAction.bare ∧
      ((compile approved Sample.flat).actions.map CopyAction.bare).Perm
        ((compile approved flatBackwards).actions.map CopyAction.bare) ∧
      (compile approved Sample.flat).actions.map (·.dest.dotted) = ["id", "created_by"] ∧
      (compile approved flatBackwards).actions.map (·.dest.dotted) = ["created_by", "id"] := by
  have happroval : approval.Reordered { approval with fields := approval.fields.reverse } :=
    .perm (List.reverse_perm _).symm
  have hsource : approved.Reordered approvedBackwards := by
    have hmiddle : approved.Reordered { approved with fields := approved.fields.reverse } :=
      .perm (List.reverse_perm _).symm
    exact hmiddle.trans (.within [.embedding "audit" Sample.audit] (.embedding "approval" approval)
      [.basic "id" (Sample.unsigned .w64)] rfl rfl rfl rfl happroval)
  have hdest : Sample.flat.Reordered flatBackwards := .perm (List.reverse_perm _).symm
  obtain ⟨hsame, hperm⟩ :=
    compile_field_order approved approvedBackwards Sample.flat flatBackwards
  exact ⟨hsource, hdest, hsame hsource, (hperm hdest).1, by decide, by decide⟩

end CopyPlan

end RecordKit
