import Mathlib.Data.List.Pairwise
import RecordKit.Expiring.Store

/-!
# Where the entries of a store come from

No operation makes up an entry or changes one.  The entries after a lookup, a
removal or a purge are entries from before, and an insertion adds a single new
one.  What `get` returns is the value of a live entry.

`get_cases` and `insert_cases` say once what a lookup and an insertion can do to a
store; everything else about them is read off there.
-/

namespace RecordKit

namespace Store

variable {κ α : Type} {s : Store κ α} {e : Entry κ α}

/-- The entries that stay when a new key comes in: a full store gives up the last
one. -/
def kept (s : Store κ α) : List (Entry κ α) :=
  if s.entries.length < s.capacity then s.entries else s.entries.dropLast

theorem kept_of_room (h : s.size < s.capacity) : s.kept = s.entries :=
  if_pos h

theorem kept_of_full (h : s.capacity ≤ s.size) : s.kept = s.entries.dropLast :=
  if_neg (Nat.not_lt.mpr h)

theorem kept_sublist (s : Store κ α) : s.kept.Sublist s.entries := by
  unfold kept
  split
  · exact List.Sublist.refl _
  · exact List.dropLast_sublist _

theorem length_le_length_kept (s : Store κ α) : s.entries.length ≤ s.kept.length + 1 := by
  unfold kept
  split
  · exact Nat.le_succ _
  · rw [List.length_dropLast]
    omega

/-- An entry that does not stay is the last one of a full store. -/
theorem mem_kept_or_last (he : e ∈ s.entries) :
    e ∈ s.kept ∨ s.capacity ≤ s.entries.length ∧ s.entries = s.entries.dropLast ++ [e] := by
  by_cases hroom : s.size < s.capacity
  · rw [kept_of_room hroom]
    exact Or.inl he
  · have hfull : s.capacity ≤ s.size := Nat.le_of_not_lt hroom
    rw [kept_of_full hfull]
    have hne : s.entries ≠ [] := List.ne_nil_of_mem he
    have hsplit := List.dropLast_concat_getLast hne
    rw [← hsplit, List.mem_append, List.mem_singleton] at he
    rcases he with he | rfl
    · exact Or.inl he
    · exact Or.inr ⟨hfull, hsplit.symm⟩

/-- No two entries are stored under the same key. -/
def DistinctKeys (s : Store κ α) : Prop :=
  s.entries.Pairwise fun e e' => e.key ≠ e'.key

theorem distinctKeys_of_nil (h : s.entries = []) : s.DistinctKeys := by
  unfold DistinctKeys
  rw [h]
  exact List.Pairwise.nil

/-- Two entries under the same key are one. -/
theorem DistinctKeys.eq_of_key (hs : s.DistinctKeys) {e' : Entry κ α} (he : e ∈ s.entries)
    (he' : e' ∈ s.entries) (hkey : e.key = e'.key) : e = e' := by
  by_contra hne
  have hsymm : Std.Symm fun a b : Entry κ α => a.key ≠ b.key := ⟨fun _ _ => Ne.symm⟩
  exact hs.forall he he' hne hkey

/-- Under distinct keys the key of an entry is listed only if that entry itself has
expired. -/
theorem DistinctKeys.key_mem_staleKeys_iff (hs : s.DistinctKeys) (he : e ∈ s.entries)
    {now : Instant} : e.key ∈ s.staleKeys now ↔ e.isExpired now = true := by
  unfold staleKeys
  rw [List.mem_map]
  constructor
  · rintro ⟨e', he', hkey⟩
    obtain ⟨hmem, hexpired⟩ := List.mem_filter.mp he'
    rwa [hs.eq_of_key he hmem hkey.symm]
  · intro hexpired
    exact ⟨e, List.mem_filter.mpr ⟨he, hexpired⟩, rfl⟩

variable [DecidableEq κ] {key : κ}

/-! ## Lookup by key -/

theorem entry?_spec (h : s.entry? key = some e) : e ∈ s.entries ∧ e.key = key := by
  have hkey := List.find?_some h
  exact ⟨List.mem_of_find?_eq_some h, of_decide_eq_true hkey⟩

theorem entry?_eq_none_iff : s.entry? key = none ↔ ∀ e ∈ s.entries, e.key ≠ key := by
  unfold entry?
  simp

theorem DistinctKeys.entry?_eq_some_iff (hs : s.DistinctKeys) :
    s.entry? key = some e ↔ e ∈ s.entries ∧ e.key = key := by
  constructor
  · exact entry?_spec
  · rintro ⟨he, hkey⟩
    cases hfound : s.entry? key with
    | none => exact absurd hkey (entry?_eq_none_iff.mp hfound e he)
    | some found =>
        obtain ⟨hmem, hfoundKey⟩ := entry?_spec hfound
        rw [hs.eq_of_key hmem he (hfoundKey.trans hkey.symm)]

theorem mem_others_iff : e ∈ s.others key ↔ e ∈ s.entries ∧ e.key ≠ key := by
  unfold others
  simp

theorem others_sublist (s : Store κ α) (key : κ) : (s.others key).Sublist s.entries :=
  List.filter_sublist

theorem others_eq_of_absent (h : s.entry? key = none) : s.others key = s.entries := by
  unfold others
  rw [List.filter_eq_self]
  intro e he
  exact decide_eq_true (entry?_eq_none_iff.mp h e he)

theorem length_others_lt (h : s.entry? key = some e) :
    (s.others key).length < s.entries.length := by
  obtain ⟨he, hkey⟩ := entry?_spec h
  unfold others
  rw [List.length_filter_lt_length_iff_exists]
  exact ⟨e, he, by simp [hkey]⟩

/-! ## Purges -/

/-- With keys taken out one after another, the entries under other keys stay as they
stand. -/
theorem foldl_erase (keys : List κ) (s : Store κ α) :
    keys.foldl erase s = { s with entries := s.entries.filter (·.key ∉ keys) } := by
  induction keys generalizing s with
  | nil =>
      have hall : s.entries.filter (·.key ∉ ([] : List κ)) = s.entries := by simp
      rw [List.foldl_nil, hall]
  | cons key rest ih =>
      rw [List.foldl_cons, ih]
      simp only [erase, others, List.filter_filter, List.mem_cons, not_or, Bool.decide_and,
        Bool.and_comm]

theorem snd_purge (s : Store κ α) (now : Instant) :
    (s.purge now).2 = { s with entries := s.entries.filter (·.key ∉ s.staleKeys now) } :=
  foldl_erase _ s

theorem purge_sublist (s : Store κ α) (now : Instant) :
    (s.purge now).2.entries.Sublist s.entries := by
  rw [snd_purge]
  exact List.filter_sublist

theorem mem_of_mem_purge {now : Instant} (he : e ∈ (s.purge now).2.entries) : e ∈ s.entries :=
  (s.purge_sublist now).subset he

/-- Under distinct keys a purge drops the expired entries and nothing else. -/
theorem DistinctKeys.purge_eq (hs : s.DistinctKeys) (now : Instant) :
    s.purge now = ((s.entries.filter (·.isExpired now)).length,
      { s with entries := s.entries.filter fun e => !e.isExpired now }) := by
  have hlive : s.entries.filter (·.key ∉ s.staleKeys now) =
      s.entries.filter fun e => !e.isExpired now := by
    refine List.filter_congr fun e he => ?_
    simp only [hs.key_mem_staleKeys_iff he, Bool.decide_eq_true, decide_not]
  refine Prod.ext ?_ ?_
  · exact List.length_map _
  · rw [snd_purge, hlive]

/-! ## Lookups and insertions -/

theorem get_of_absent (h : s.entry? key = none) (now : Instant) : s.get now key = (none, s) := by
  unfold get
  simp only [h]

theorem get_of_expired (h : s.entry? key = some e) {now : Instant}
    (hexpired : e.isExpired now = true) :
    s.get now key = (none, { s with entries := s.others key }) := by
  unfold get
  simp only [h, hexpired, if_true]

theorem get_of_live (h : s.entry? key = some e) {now : Instant}
    (hlive : e.isExpired now = false) :
    s.get now key = (some e.value, { s with entries := e :: s.others key }) := by
  unfold get
  simp only [h, hlive, Bool.false_eq_true, if_false]

/-- A lookup finds nothing, drops an expired entry, or brings a live one to the
front. -/
theorem get_cases (s : Store κ α) (now : Instant) (key : κ) :
    (s.entry? key = none ∧ s.get now key = (none, s)) ∨
      (∃ e, s.entry? key = some e ∧ e.isExpired now = true ∧
        s.get now key = (none, { s with entries := s.others key })) ∨
      ∃ e, s.entry? key = some e ∧ e.isExpired now = false ∧
        s.get now key = (some e.value, { s with entries := e :: s.others key }) := by
  cases hentry : s.entry? key with
  | none => exact Or.inl ⟨rfl, get_of_absent hentry now⟩
  | some e =>
      cases hexpired : e.isExpired now with
      | true => exact Or.inr (Or.inl ⟨e, rfl, hexpired, get_of_expired hentry hexpired⟩)
      | false => exact Or.inr (Or.inr ⟨e, rfl, hexpired, get_of_live hentry hexpired⟩)

theorem insert_of_stored {old : Entry κ α} (h : s.entry? key = some old) (now : Instant)
    (value : α) :
    s.insert now key value =
      (old.live? now,
        { s with entries := ⟨key, value, now.add? s.lifetime⟩ :: s.others key }) := by
  unfold insert
  simp only [h]

theorem insert_of_absent (h : s.entry? key = none) (now : Instant) (value : α) :
    s.insert now key value =
      (none, { s with entries := ⟨key, value, now.add? s.lifetime⟩ :: s.kept }) := by
  unfold insert
  simp only [h]
  rfl

/-- An insertion replaces the entry of its key, or puts a new one before those
that stay. -/
theorem insert_cases (s : Store κ α) (now : Instant) (key : κ) (value : α) :
    let new : Entry κ α := ⟨key, value, now.add? s.lifetime⟩
    (∃ old, s.entry? key = some old ∧
        s.insert now key value = (old.live? now, { s with entries := new :: s.others key })) ∨
      s.entry? key = none ∧
        s.insert now key value = (none, { s with entries := new :: s.kept }) := by
  cases hentry : s.entry? key with
  | some old => exact Or.inl ⟨old, rfl, insert_of_stored hentry now value⟩
  | none => exact Or.inr ⟨rfl, insert_of_absent hentry now value⟩

theorem mem_of_mem_get {now : Instant} (he : e ∈ (s.get now key).2.entries) : e ∈ s.entries := by
  rcases s.get_cases now key with ⟨-, hget⟩ | ⟨found, -, -, hget⟩ | ⟨found, hentry, -, hget⟩
  · rwa [hget] at he
  · rw [hget] at he
    exact (mem_others_iff.mp he).1
  · rw [hget] at he
    rcases List.mem_cons.mp he with rfl | he
    · exact (entry?_spec hentry).1
    · exact (mem_others_iff.mp he).1

/-- A lookup that finds a value brings its live entry to the front. -/
theorem get_of_found {now : Instant} {value : α} (h : (s.get now key).1 = some value) :
    ∃ e, s.entry? key = some e ∧ e.value = value ∧ e.isExpired now = false ∧
      (s.get now key).2 = { s with entries := e :: s.others key } := by
  rcases s.get_cases now key with ⟨-, hget⟩ | ⟨found, -, -, hget⟩ | ⟨found, hentry, hlive, hget⟩
  · rw [hget] at h
    cases h
  · rw [hget] at h
    cases h
  · rw [hget] at h ⊢
    exact ⟨found, hentry, Option.some.inj h, hlive, rfl⟩

/-- What a lookup returns is stored under its key, and its deadline has not come. -/
theorem exists_of_get {now : Instant} {value : α} (h : (s.get now key).1 = some value) :
    ∃ e ∈ s.entries, e.key = key ∧ e.value = value ∧ e.isExpired now = false := by
  obtain ⟨e, hentry, hvalue, hlive, -⟩ := get_of_found h
  obtain ⟨hmem, hkey⟩ := entry?_spec hentry
  exact ⟨e, hmem, hkey, hvalue, hlive⟩

/-- A live entry is found. -/
theorem DistinctKeys.get_of_mem (hs : s.DistinctKeys) (he : e ∈ s.entries) {now : Instant}
    (hlive : e.isExpired now = false) : (s.get now e.key).1 = some e.value := by
  have hentry : s.entry? e.key = some e := hs.entry?_eq_some_iff.mpr ⟨he, rfl⟩
  rw [get_of_live hentry hlive]

/-- A lookup loses no live entry. -/
theorem DistinctKeys.mem_get (hs : s.DistinctKeys) (he : e ∈ s.entries) {now : Instant}
    (hlive : e.isExpired now = false) (key : κ) : e ∈ (s.get now key).2.entries := by
  by_cases hkey : e.key = key
  · have hentry : s.entry? key = some e := hs.entry?_eq_some_iff.mpr ⟨he, hkey⟩
    rw [get_of_live hentry hlive]
    exact List.mem_cons_self
  · have hothers : e ∈ s.others key := mem_others_iff.mpr ⟨he, hkey⟩
    rcases s.get_cases now key with ⟨-, hget⟩ | ⟨found, -, -, hget⟩ | ⟨found, -, -, hget⟩
    · rw [hget]
      exact he
    · rw [hget]
      exact hothers
    · rw [hget]
      exact List.mem_cons_of_mem _ hothers

/-- After an insertion a key other than the new one has its old entries. -/
theorem mem_of_mem_insert {now : Instant} {value : α}
    (he : e ∈ (s.insert now key value).2.entries) :
    e = ⟨key, value, now.add? s.lifetime⟩ ∨ e ∈ s.entries ∧ e.key ≠ key := by
  rcases s.insert_cases now key value with ⟨old, -, hinsert⟩ | ⟨habsent, hinsert⟩
  · rw [hinsert] at he
    rcases List.mem_cons.mp he with hnew | he
    · exact Or.inl hnew
    · exact Or.inr (mem_others_iff.mp he)
  · rw [hinsert] at he
    rcases List.mem_cons.mp he with hnew | he
    · exact Or.inl hnew
    · have hold : e ∈ s.entries := s.kept_sublist.subset he
      exact Or.inr ⟨hold, entry?_eq_none_iff.mp habsent e hold⟩

end Store

end RecordKit
