import RecordKit.Proofs.Shared.Histories
import RecordKit.Proofs.Text.Utf8.Units
import RecordKit.Shared.KeyMap

/-!
# What a map holds after a list of changes

Texts are ordered by their bytes.  The order is strict and total, because no two texts have
the same bytes.  A map that starts empty keeps its keys in ascending order, each of them
once, and they are the keys that have a value (`KeyMap.mem_keys_iff`).  Under each key it
holds what the last change that concerned the key has set (`KeyMap.get?_changed_iff`).
-/

namespace RecordKit

theorem keyLt_irrefl (a : String) : ¬keyLt a a :=
  List.lt_irrefl (Text.Utf8.encode a)

theorem keyLt_trans {a b c : String} (hab : keyLt a b) (hbc : keyLt b c) : keyLt a c :=
  List.lt_trans hab hbc

theorem keyLt_of_not_keyLt {a b : String} (h : ¬keyLt a b) (hne : a ≠ b) : keyLt b a := by
  by_cases hba : keyLt b a
  · exact hba
  · have hbytes : Text.Utf8.encode a = Text.Utf8.encode b :=
      List.le_antisymm (List.not_lt.mp hba) (List.not_lt.mp h)
    exact absurd (Text.Utf8.encode_injective hbytes) hne

namespace KeyMap

variable {α : Type} {m : KeyMap α}

/-- The keys stand in ascending order, each of them once. -/
def Ascending (m : KeyMap α) : Prop :=
  m.keys.Pairwise keyLt

theorem ascending_empty : (empty : KeyMap α).Ascending :=
  List.Pairwise.nil

theorem mem_place_keys {key other : String} {value : α} {entries : List (String × α)}
    (h : other ∈ (place key value entries).map (·.1)) :
    other = key ∨ other ∈ entries.map (·.1) := by
  induction entries with
  | nil => simpa [place] using h
  | cons e rest ih =>
      simp only [place] at h
      split at h
      · next hkey => simpa [hkey] using h
      · split at h
        · simpa using h
        · rw [List.map_cons, List.mem_cons] at h ⊢
          rcases h with h | h
          · exact Or.inr (Or.inl h)
          · exact (ih h).imp id Or.inr

theorem pairwise_place (key : String) (value : α) {entries : List (String × α)}
    (h : (entries.map (·.1)).Pairwise keyLt) :
    ((place key value entries).map (·.1)).Pairwise keyLt := by
  induction entries with
  | nil => simp [place]
  | cons e rest ih =>
      rw [List.map_cons] at h
      obtain ⟨hfirst, hrest⟩ := List.pairwise_cons.mp h
      simp only [place]
      split
      · next hkey => rwa [List.map_cons, hkey]
      · next hne =>
          split
          · next hlt =>
              rw [List.map_cons, List.map_cons]
              refine List.pairwise_cons.mpr ⟨?_, h⟩
              rintro other (_ | ⟨_, hother⟩)
              · exact hlt
              · exact keyLt_trans hlt (hfirst other hother)
          · next hlt =>
              rw [List.map_cons]
              refine List.pairwise_cons.mpr ⟨?_, ih hrest⟩
              intro other hother
              rcases mem_place_keys hother with rfl | hother
              · exact keyLt_of_not_keyLt hlt hne
              · exact hfirst other hother

theorem Ascending.insert (h : m.Ascending) (key : String) (value : α) :
    (m.insert key value).Ascending :=
  pairwise_place key value h

theorem Ascending.erase (h : m.Ascending) (key : String) : (m.erase key).Ascending :=
  h.sublist (List.filter_sublist.map _)

theorem Ascending.nodup (h : m.Ascending) : m.keys.Nodup := by
  apply h.imp
  rintro a b hlt rfl
  exact keyLt_irrefl a hlt

theorem get?_insert (m : KeyMap α) (key other : String) (value : α) :
    (m.insert key value).get? other = if other = key then some value else m.get? other := by
  split
  · next h => rw [h, get?_insert_self]
  · next h => exact m.get?_insert_other h value

theorem lookup_filter_fst (p : String → Bool) (entries : List (String × α)) (key : String) :
    (entries.filter fun e => p e.1).lookup key = if p key then entries.lookup key else none := by
  induction entries with
  | nil => simp
  | cons e rest ih =>
      obtain ⟨k, v⟩ := e
      by_cases hkey : key = k
      · subst hkey
        cases hp : p key with
        | true => simp [hp]
        | false => simpa [hp] using ih
      · have hkey' : (key == k) = false := beq_eq_false_iff_ne.mpr hkey
        cases hp : p k <;> simpa [List.lookup_cons, hp, hkey'] using ih

theorem get?_erase (m : KeyMap α) (key other : String) :
    (m.erase key).get? other = if other = key then none else m.get? other := by
  have h := lookup_filter_fst (· ≠ key) m.entries other
  by_cases hother : other = key <;> simpa [hother, get?, erase] using h

/-- Entries with different keys are all found after they have been put into a map. -/
theorem get?_foldl_insert {entries : List (String × α)} (hkeys : (entries.map (·.1)).Nodup)
    (m : KeyMap α) (key : String) :
    (entries.foldl (fun m e => m.insert e.1 e.2) m).get? key =
      (entries.lookup key).or (m.get? key) := by
  induction entries generalizing m with
  | nil => rfl
  | cons e rest ih =>
      obtain ⟨hfirst, hrest⟩ := List.nodup_cons.mp hkeys
      rw [List.foldl_cons, ih hrest, get?_insert, List.lookup_cons]
      by_cases hkey : key = e.1
      · have hnone : rest.lookup e.1 = none := by
          rw [List.lookup_eq_none_iff]
          intro e' he'
          rw [bne_iff_ne]
          exact fun h => hfirst (List.mem_map.mpr ⟨e', he', h.symm⟩)
        simp [hkey, hnone]
      · simp [hkey, beq_eq_false_iff_ne.mpr hkey]

theorem mem_keys_iff (m : KeyMap α) (key : String) :
    key ∈ m.keys ↔ ∃ value, m.get? key = some value := by
  rw [← Option.isSome_iff_exists, get?, List.lookup_isSome_iff, keys, List.mem_map]
  exact exists_congr fun e => and_congr_right fun _ => by rw [beq_iff_eq, eq_comm]

/-! ## Changes -/

section

variable {ε : Type} {effect? : ε → String → Option (Option α)} {changes : List ε} {key : String}
  {value : α}

variable {change : KeyMap α → ε → KeyMap α}
  (hchange : ∀ m c key, (change m c).get? key = (effect? c key).getD (m.get? key))
include hchange

/-- If each change has its effect, what is under a key depends on the effects on the key
alone. -/
theorem get?_changed (m : KeyMap α) (changes : List ε) (key : String) :
    (changes.foldl change m).get? key =
      changes.foldl (fun value? c => (effect? c key).getD value?) (m.get? key) :=
  (List.foldl_hom (·.get? key) fun m c => (hchange m c key).symm).symm

/-- A map that was empty holds under a key what was set last. -/
theorem get?_changed_iff :
    (changes.foldl change empty).get? key = some value ↔ LastSet effect? changes key value := by
  induction changes using List.reverseRecOn with
  | nil => simp [not_lastSet_nil, empty, get?]
  | append_singleton changes c ih =>
      rw [List.foldl_append, List.foldl_cons, List.foldl_nil, hchange, lastSet_snoc_iff, ← ih]
      cases effect? c key <;> simp

/-- What is found now was there before the last changes, or one of them has set it. -/
theorem get?_changed_or {m : KeyMap α} (h : (changes.foldl change m).get? key = some value) :
    m.get? key = some value ∨ ∃ c ∈ changes, effect? c key = some (some value) := by
  induction changes generalizing m with
  | nil => exact Or.inl h
  | cons c rest ih =>
      rcases ih h with hfound | ⟨c', hc', hset⟩
      · rw [hchange] at hfound
        cases heffect : effect? c key with
        | none =>
            rw [heffect] at hfound
            exact Or.inl hfound
        | some set =>
            rw [heffect] at hfound
            exact Or.inr ⟨c, List.mem_cons_self, heffect.trans (congrArg some hfound)⟩
      · exact Or.inr ⟨c', List.mem_cons_of_mem c hc', hset⟩

/-- Changes that do not concern a key can be left out. -/
theorem get?_changed_filter {counts : ε → Bool} (hcounts : ∀ c, (effect? c key).isSome → counts c)
    (m : KeyMap α) (changes : List ε) :
    ((changes.filter counts).foldl change m).get? key = (changes.foldl change m).get? key := by
  rw [get?_changed hchange, get?_changed hchange, List.foldl_filter]
  congr
  funext value? c
  split
  · rfl
  · next hc =>
      have hnone : effect? c key = none := by
        rw [← Option.not_isSome_iff_eq_none]
        exact fun hsome => hc (hcounts c hsome)
      rw [hnone, Option.getD_none]

end

end KeyMap

end RecordKit
