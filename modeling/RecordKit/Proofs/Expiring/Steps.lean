import RecordKit.Expiring.Session
import RecordKit.Proofs.Expiring.Entries
import RecordKit.Proofs.Time.Order

/-!
# One request to a store

What a request can do to the entries of a session.  An entry found afterwards was
inserted by the request itself, or it was there before and the request does not
end it (`mem_step`).  A live entry that was there before and that the request does
not end is still there, unless it was the last one of a full store and a new key
came in (`mem_step_or_pushed_out`).  And the entries move in one way only: the one
that the request uses, if any, comes to the front of others that keep their order
(`step_entries_of_not_touched`, `step_entries_of_touched`).
-/

namespace RecordKit

variable {κ α : Type}

namespace Entry

theorem isExpired_eq_false_iff (e : Entry κ α) (now : Instant) :
    e.isExpired now = false ↔ ∀ deadline, e.deadline = some deadline → now < deadline := by
  unfold isExpired
  cases e.deadline <;> simp

/-- What is live was live at every time before. -/
theorem isExpired_of_le {e : Entry κ α} {now later : Instant} (hle : now ≤ later)
    (hlive : e.isExpired later = false) : e.isExpired now = false := by
  rw [isExpired_eq_false_iff] at hlive ⊢
  intro deadline hdeadline
  exact lt_of_le_of_lt hle (hlive deadline hdeadline)

end Entry

/-- The requests after which nothing inserted under a key before counts any more. -/
def StoreRequest.Ends (key : κ) : StoreRequest κ α → Prop
  | .insert other _ | .remove other => other = key
  | .clear => True
  | .get _ | .contains _ | .purge | .advance _ => False

namespace StoreSession

variable [DecidableEq κ] (s : StoreSession κ α)

/-! ## Equations -/

@[simp] theorem step_insert (key : κ) (value : α) :
    s.step (.insert key value) =
      (.value (s.store.insert s.now key value).1,
        ⟨s.now, (s.store.insert s.now key value).2⟩) :=
  rfl

@[simp] theorem step_get (key : κ) :
    s.step (.get key) =
      (.value (s.store.get s.now key).1, ⟨s.now, (s.store.get s.now key).2⟩) :=
  rfl

@[simp] theorem step_contains (key : κ) :
    s.step (.contains key) = (.flag (s.store.contains s.now key), s) :=
  rfl

@[simp] theorem step_remove (key : κ) :
    s.step (.remove key) =
      (.value (s.store.remove s.now key).1, ⟨s.now, (s.store.remove s.now key).2⟩) :=
  rfl

@[simp] theorem step_purge :
    s.step .purge = (.count (s.store.purge s.now).1, ⟨s.now, (s.store.purge s.now).2⟩) :=
  rfl

@[simp] theorem step_clear : s.step .clear = (.done, ⟨s.now, s.store.clear⟩) :=
  rfl

@[simp] theorem step_advance (span : Span) :
    s.step (.advance span) = (.done, ⟨s.now.advance span, s.store⟩) :=
  rfl

theorem run_append (requests more : List (StoreRequest κ α)) :
    s.run (requests ++ more) = (s.run requests).run more :=
  List.foldl_append

theorem run_snoc (requests : List (StoreRequest κ α)) (r : StoreRequest κ α) :
    s.run (requests ++ [r]) = ((s.run requests).step r).2 :=
  s.run_append requests [r]

/-! ## Limits and time -/

theorem step_limits (r : StoreRequest κ α) :
    (s.step r).2.store.lifetime = s.store.lifetime ∧
      (s.step r).2.store.capacity = s.store.capacity := by
  cases r with
  | insert key value =>
      rw [step_insert]
      rcases s.store.insert_cases s.now key value with ⟨old, -, hinsert⟩ | ⟨-, hinsert⟩ <;>
        rw [hinsert] <;> exact ⟨rfl, rfl⟩
  | get key =>
      rw [step_get]
      rcases s.store.get_cases s.now key with ⟨-, hget⟩ | ⟨e, -, -, hget⟩ | ⟨e, -, -, hget⟩ <;>
        rw [hget] <;> exact ⟨rfl, rfl⟩
  | purge =>
      rw [step_purge, Store.snd_purge]
      exact ⟨rfl, rfl⟩
  | _ => exact ⟨rfl, rfl⟩

theorem run_limits (requests : List (StoreRequest κ α)) :
    (s.run requests).store.lifetime = s.store.lifetime ∧
      (s.run requests).store.capacity = s.store.capacity := by
  induction requests generalizing s with
  | nil => exact ⟨rfl, rfl⟩
  | cons r rest ih =>
      obtain ⟨hlifetime, hcapacity⟩ := ih (s.step r).2
      exact ⟨hlifetime.trans (s.step_limits r).1, hcapacity.trans (s.step_limits r).2⟩

theorem now_le_step (r : StoreRequest κ α) : s.now ≤ (s.step r).2.now := by
  cases r with
  | advance span => exact s.now.le_advance span
  | _ => exact le_refl s.now

variable {s} {r : StoreRequest κ α} {e : Entry κ α}

/-! ## Entries -/

/-- An insertion puts its value in front, with the lifetime of the store. -/
theorem mem_step_insert (s : StoreSession κ α) (key : κ) (value : α) :
    ⟨key, value, s.now.add? s.store.lifetime⟩ ∈ (s.step (.insert key value)).2.store.entries := by
  rw [step_insert]
  rcases s.store.insert_cases s.now key value with ⟨old, -, hinsert⟩ | ⟨-, hinsert⟩
  · rw [hinsert]
    exact List.mem_cons_self
  · rw [hinsert]
    exact List.mem_cons_self

/-- An entry found after a request is new, or old and not ended by it. -/
theorem mem_step (he : e ∈ (s.step r).2.store.entries) :
    (r = .insert e.key e.value ∧ e.deadline = s.now.add? s.store.lifetime) ∨
      e ∈ s.store.entries ∧ ¬r.Ends e.key := by
  cases r with
  | insert key value =>
      rcases Store.mem_of_mem_insert he with rfl | ⟨hold, hkey⟩
      · exact Or.inl ⟨rfl, rfl⟩
      · exact Or.inr ⟨hold, fun h => hkey h.symm⟩
  | get key => exact Or.inr ⟨Store.mem_of_mem_get he, id⟩
  | contains key => exact Or.inr ⟨he, id⟩
  | remove key =>
      obtain ⟨hold, hkey⟩ := Store.mem_others_iff.mp he
      exact Or.inr ⟨hold, fun h => hkey h.symm⟩
  | purge => exact Or.inr ⟨Store.mem_of_mem_purge he, id⟩
  | clear => cases he
  | advance span => exact Or.inr ⟨he, id⟩

/-- A live entry that a request does not end stays, unless it is the last one of a
full store and the request inserts a new key. -/
theorem mem_step_or_pushed_out (hs : s.store.DistinctKeys) (he : e ∈ s.store.entries)
    (hr : ¬r.Ends e.key) (hlive : e.isExpired s.now = false) :
    e ∈ (s.step r).2.store.entries ∨
      ∃ key value, r = .insert key value ∧ s.store.entry? key = none ∧
        s.store.capacity ≤ s.store.entries.length ∧
        s.store.entries = s.store.entries.dropLast ++ [e] := by
  cases r with
  | insert key value =>
      rw [step_insert]
      rcases s.store.insert_cases s.now key value with ⟨old, -, hinsert⟩ | ⟨habsent, hinsert⟩
      · rw [hinsert]
        have hothers : e ∈ s.store.others key :=
          Store.mem_others_iff.mpr ⟨he, fun hkey => hr hkey.symm⟩
        exact Or.inl (List.mem_cons_of_mem _ hothers)
      · rw [hinsert]
        rcases Store.mem_kept_or_last he with hkept | ⟨hfull, hlast⟩
        · exact Or.inl (List.mem_cons_of_mem _ hkept)
        · exact Or.inr ⟨key, value, rfl, habsent, hfull, hlast⟩
  | get key => exact Or.inl (hs.mem_get he hlive key)
  | contains key => exact Or.inl he
  | remove key => exact Or.inl (Store.mem_others_iff.mpr ⟨he, fun h => hr h.symm⟩)
  | purge =>
      rw [step_purge, hs.purge_eq]
      exact Or.inl (List.mem_filter.mpr ⟨he, by simp [hlive]⟩)
  | clear => exact absurd trivial hr
  | advance span => exact Or.inl he

/-! ## Order of use -/

/-- The key that a request uses: an insertion uses its key, and so does a lookup
that finds a value. -/
def touched? (s : StoreSession κ α) : StoreRequest κ α → Option κ
  | .insert key _ => some key
  | .get key => if (s.store.get s.now key).1.isSome then some key else none
  | .contains _ | .remove _ | .purge | .clear | .advance _ => none

theorem touched?_eq_some_iff {key : κ} :
    s.touched? r = some key ↔
      (∃ value, r = .insert key value) ∨
        r = .get key ∧ ∃ value, (s.store.get s.now key).1 = some value := by
  unfold touched?
  cases r with
  | get other =>
      simp only [← Option.isSome_iff_exists]
      split <;> grind
  | _ => simp

/-- A key that is used and not inserted anew is stored. -/
theorem exists_of_touched {key : κ} (h : s.touched? r = some key) (hr : ¬r.Ends key) :
    ∃ e ∈ s.store.entries, e.key = key := by
  rcases touched?_eq_some_iff.mp h with ⟨value, rfl⟩ | ⟨rfl, value, hvalue⟩
  · exact absurd rfl hr
  · obtain ⟨e, he, hkey, -, -⟩ := Store.exists_of_get hvalue
    exact ⟨e, he, hkey⟩

/-- Without a key used, entries can only go away. -/
theorem step_entries_of_not_touched (h : s.touched? r = none) :
    (s.step r).2.store.entries.Sublist s.store.entries := by
  cases r with
  | insert key value => cases h
  | get key =>
      rw [step_get]
      rcases s.store.get_cases s.now key with ⟨-, hget⟩ | ⟨e, -, -, hget⟩ | ⟨e, -, -, hget⟩
      · simp only [hget, List.Sublist.refl]
      · rw [hget]
        exact s.store.others_sublist key
      · simp [touched?, hget] at h
  | contains key => exact List.Sublist.refl _
  | remove key => exact s.store.others_sublist key
  | purge => exact s.store.purge_sublist s.now
  | clear => exact List.nil_sublist _
  | advance span => exact List.Sublist.refl _

/-- The entry of the key used comes to the front of entries under other keys. -/
theorem step_entries_of_touched {key : κ} (h : s.touched? r = some key) :
    ∃ e rest, (s.step r).2.store.entries = e :: rest ∧ e.key = key ∧
      rest.Sublist (s.store.others key) := by
  rcases touched?_eq_some_iff.mp h with ⟨value, rfl⟩ | ⟨rfl, value, hvalue⟩
  · rw [step_insert]
    rcases s.store.insert_cases s.now key value with ⟨old, -, hinsert⟩ | ⟨habsent, hinsert⟩
    · rw [hinsert]
      exact ⟨_, _, rfl, rfl, List.Sublist.refl _⟩
    · rw [hinsert, Store.others_eq_of_absent habsent]
      exact ⟨_, _, rfl, rfl, s.store.kept_sublist⟩
  · obtain ⟨e, hentry, -, -, hget⟩ := Store.get_of_found hvalue
    rw [step_get, hget]
    exact ⟨e, _, rfl, (Store.entry?_spec hentry).2, List.Sublist.refl _⟩

/-- A request keeps the keys apart. -/
theorem distinctKeys_step (hs : s.store.DistinctKeys) (r : StoreRequest κ α) :
    (s.step r).2.store.DistinctKeys := by
  cases htouched : s.touched? r with
  | none => exact hs.sublist (step_entries_of_not_touched htouched)
  | some key =>
      obtain ⟨e, rest, hentries, hkey, hrest⟩ := step_entries_of_touched htouched
      unfold Store.DistinctKeys
      rw [hentries, List.pairwise_cons]
      refine ⟨?_, hs.sublist (hrest.trans (s.store.others_sublist key))⟩
      intro e' he'
      rw [hkey]
      exact (Store.mem_others_iff.mp (hrest.subset he')).2.symm

theorem distinctKeys_run (hs : s.store.DistinctKeys) (requests : List (StoreRequest κ α)) :
    (s.run requests).store.DistinctKeys := by
  induction requests generalizing s with
  | nil => exact hs
  | cons r rest ih => exact ih (distinctKeys_step hs r)

end StoreSession

end RecordKit
