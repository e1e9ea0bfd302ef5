import Mathlib.Data.Finset.Card
import RecordKit.Proofs.Expiring.History

/-!
# What was used recently stays

A store has room for as many keys as its capacity and gives up the one that was
used longest ago.  A key is used when it is inserted and when a lookup finds its
value.  `StoreSession.run_get_of_recent` says that the latest value of a key is
found as long as it is live and fewer other keys than the capacity have been used
since the key itself was.

The invariant is the order of the entries: whatever stands before an entry has
been used since that entry was (`pairwise_touchedSince`).
-/

namespace RecordKit

namespace StoreSession

variable {κ α : Type} [DecidableEq κ]

/-- The keys that a list of requests uses, each time they are used. -/
def touches (s : StoreSession κ α) : List (StoreRequest κ α) → List κ
  | [] => []
  | r :: rest => (s.touched? r).toList ++ (s.step r).2.touches rest

/-- The keys used after the last use of a key. -/
def touchedSince (s : StoreSession κ α) (requests : List (StoreRequest κ α)) (key : κ) :
    Finset κ :=
  ((s.touches requests).reverse.takeWhile (· ≠ key)).toFinset

variable {start : StoreSession κ α} {requests : List (StoreRequest κ α)}
  {r : StoreRequest κ α} {key other : κ} {value : α}

theorem touches_append (s : StoreSession κ α) (requests more : List (StoreRequest κ α)) :
    s.touches (requests ++ more) = s.touches requests ++ (s.run requests).touches more := by
  induction requests generalizing s with
  | nil => rfl
  | cons r rest ih =>
      rw [List.cons_append, touches, touches, ih, List.append_assoc]
      rfl

theorem touches_snoc (s : StoreSession κ α) (requests : List (StoreRequest κ α))
    (r : StoreRequest κ α) :
    s.touches (requests ++ [r]) = s.touches requests ++ ((s.run requests).touched? r).toList := by
  rw [touches_append, touches, touches, List.append_nil]

theorem touchedSince_of_not_touched (h : (start.run requests).touched? r = none) (key : κ) :
    start.touchedSince (requests ++ [r]) key = start.touchedSince requests key := by
  simp [touchedSince, touches_snoc, h]

theorem touchedSince_of_touched (h : (start.run requests).touched? r = some other)
    (hne : other ≠ key) :
    start.touchedSince (requests ++ [r]) key =
      insert other (start.touchedSince requests key) := by
  simp [touchedSince, touches_snoc, h, hne]

theorem touchedSince_subset_snoc (h : (start.run requests).touched? r ≠ some key) :
    start.touchedSince requests key ⊆ start.touchedSince (requests ++ [r]) key := by
  cases htouched : (start.run requests).touched? r with
  | none => rw [touchedSince_of_not_touched htouched]
  | some other =>
      have hne : other ≠ key := by
        rintro rfl
        exact h htouched
      rw [touchedSince_of_touched htouched hne]
      exact Finset.subset_insert _ _

/-! ## The order of the entries -/

/-- Every entry before another one has been used since that one was. -/
theorem pairwise_touchedSince (hstart : start.store.entries = [])
    (requests : List (StoreRequest κ α)) :
    (start.run requests).store.entries.Pairwise fun e e' =>
      e.key ∈ start.touchedSince requests e'.key := by
  induction requests using List.reverseRecOn with
  | nil =>
      rw [show start.run [] = start from rfl, hstart]
      exact List.Pairwise.nil
  | append_singleton requests r ih =>
      rw [run_snoc]
      cases htouched : (start.run requests).touched? r with
      | none =>
          simp only [touchedSince_of_not_touched htouched]
          exact ih.sublist (step_entries_of_not_touched htouched)
      | some key =>
          obtain ⟨e, rest, hentries, hkey, hrest⟩ := step_entries_of_touched htouched
          -- The other entries keep their order, and the key used joins what was
          -- used since each of them.
          have hsince : ∀ e' ∈ rest, start.touchedSince (requests ++ [r]) e'.key =
              insert key (start.touchedSince requests e'.key) := by
            intro e' he'
            have hne : e'.key ≠ key := (Store.mem_others_iff.mp (hrest.subset he')).2
            exact touchedSince_of_touched htouched hne.symm
          rw [hentries, List.pairwise_cons]
          constructor
          · intro e' he'
            rw [hsince e' he', hkey]
            exact Finset.mem_insert_self _ _
          · have hold := ih.sublist
              (hrest.trans ((start.run requests).store.others_sublist key))
            refine hold.imp_of_mem ?_
            intro e₁ e₂ _ he₂ h
            rw [hsince e₂ he₂]
            exact Finset.mem_insert_of_mem h

/-- A key that is pushed out by a new one has seen as many other keys used since
its own last use as the store has room for. -/
theorem capacity_le_card_of_pushed_out (hstart : start.store.entries = []) {e : Entry κ α}
    (habsent : (start.run requests).store.entry? other = none)
    (hfull : start.store.capacity ≤ (start.run requests).store.entries.length)
    (hlast : (start.run requests).store.entries =
      (start.run requests).store.entries.dropLast ++ [e]) :
    start.store.capacity ≤ (insert other (start.touchedSince requests e.key)).card := by
  set entries := (start.run requests).store.entries with hentries
  -- The new key and the keys before the last one are all different, and all used.
  let keys := other :: entries.dropLast.map (·.key)
  have hdistinct : (start.run requests).store.DistinctKeys :=
    distinctKeys_run (Store.distinctKeys_of_nil hstart) requests
  have hnodup : keys.Nodup := by
    rw [List.nodup_cons]
    constructor
    · intro hmem
      obtain ⟨e', he', hkey⟩ := List.mem_map.mp hmem
      exact Store.entry?_eq_none_iff.mp habsent e' (List.dropLast_subset _ he') hkey
    · rw [List.Nodup, List.pairwise_map]
      exact hdistinct.sublist (List.dropLast_sublist _)
  have hsubset : keys.toFinset ⊆ insert other (start.touchedSince requests e.key) := by
    have horder := pairwise_touchedSince hstart requests
    rw [← hentries, hlast, List.pairwise_append] at horder
    intro k hk
    rw [List.mem_toFinset, List.mem_cons, List.mem_map] at hk
    rcases hk with rfl | ⟨e', he', rfl⟩
    · exact Finset.mem_insert_self _ _
    · exact Finset.mem_insert_of_mem (horder.2.2 e' he' e (List.mem_singleton_self e))
  calc
    start.store.capacity ≤ entries.length := hfull
    _ = keys.length := by
      rw [hlast]
      simp [keys]
    _ = keys.toFinset.card := (List.toFinset_card_of_nodup hnodup).symm
    _ ≤ _ := Finset.card_le_card hsubset

/-! ## Nothing recent is lost -/

/-- The entry of the latest insertion of a key is stored as long as it is live and
fewer other keys than the capacity have been used since. -/
theorem mem_run_of_recent (hstart : start.store.entries = [])
    {before : List (StoreRequest κ α)} (hlast : LastInserted key value before requests)
    (hlive : ∀ deadline, (start.run before).now.add? start.store.lifetime = some deadline →
      (start.run requests).now < deadline)
    (hrecent : (start.touchedSince requests key).card < start.store.capacity) :
    ⟨key, value, (start.run before).now.add? start.store.lifetime⟩ ∈
      (start.run requests).store.entries := by
  induction requests using List.reverseRecOn with
  | nil => exact absurd hlast not_lastInserted_nil
  | append_singleton requests r ih =>
      let e : Entry κ α := ⟨key, value, (start.run before).now.add? start.store.lifetime⟩
      rw [run_snoc] at hlive ⊢
      rcases lastInserted_snoc_iff.mp hlast with ⟨rfl, rfl⟩ | ⟨hlast, hr⟩
      · rw [← (start.run_limits before).1]
        exact mem_step_insert (start.run before) key value
      · have hle := (start.run requests).now_le_step r
        have hliveBefore : e.isExpired (start.run requests).now = false :=
          Entry.isExpired_of_le hle ((e.isExpired_eq_false_iff _).mpr hlive)
        have hold : e ∈ (start.run requests).store.entries := by
          -- A key used by the last request was stored before it, whatever had been
          -- used until then; otherwise fewer keys had been used before.
          by_cases htouched : (start.run requests).touched? r = some key
          · obtain ⟨e', he', rfl⟩ := exists_of_touched htouched hr
            rwa [eq_of_lastInserted hstart he' hlast] at he'
          · refine ih hlast ((e.isExpired_eq_false_iff _).mp hliveBefore) ?_
            exact lt_of_le_of_lt (Finset.card_le_card (touchedSince_subset_snoc htouched)) hrecent
        have hdistinct : (start.run requests).store.DistinctKeys :=
          distinctKeys_run (Store.distinctKeys_of_nil hstart) requests
        rcases mem_step_or_pushed_out hdistinct hold hr hliveBefore with hstays |
          ⟨other, newValue, rfl, habsent, hfull, hsplit⟩
        · exact hstays
        · -- The new key and all others stored have been used since.
          rw [(start.run_limits requests).2] at hfull
          have hcard := capacity_le_card_of_pushed_out hstart habsent hfull hsplit
          have hne : other ≠ key := hr
          rw [touchedSince_of_touched rfl hne] at hrecent
          exact absurd hcard (Nat.not_le_of_lt hrecent)

/-- Let a key be inserted with a value into a store that was empty at the start,
and let nothing after that insert it again, remove it or clear the store.  As long
as the lifetime has not passed and fewer other keys than the capacity have been
used since the last use of that key, a lookup finds the value. -/
theorem run_get_of_recent (hstart : start.store.entries = [])
    {before after : List (StoreRequest κ α)}
    (hsplit : requests = before ++ .insert key value :: after)
    (hafter : ∀ r ∈ after, ¬r.Ends key)
    (hlive : ∀ deadline, (start.run before).now.add? start.store.lifetime = some deadline →
      (start.run requests).now < deadline)
    (hrecent : (start.touchedSince requests key).card < start.store.capacity) :
    ((start.run requests).step (.get key)).1 = .value (some value) := by
  let e : Entry κ α := ⟨key, value, (start.run before).now.add? start.store.lifetime⟩
  have he : e ∈ (start.run requests).store.entries :=
    mem_run_of_recent hstart ⟨after, hsplit, hafter⟩ hlive hrecent
  have hdistinct : (start.run requests).store.DistinctKeys :=
    distinctKeys_run (Store.distinctKeys_of_nil hstart) requests
  have hget := hdistinct.get_of_mem he ((e.isExpired_eq_false_iff _).mpr hlive)
  rw [step_get, show (Store.get _ key _).1 = some value from hget]

/-- A store for two keys, in which a lookup saves the first key from the third one.
The lookup of the second key finds nothing any more, so it does not count. -/
theorem run_get_saved :
    let start : StoreSession Nat Nat :=
      ⟨Instant.start, Store.empty (Span.ofSecs 10) 2 (by decide)⟩
    let before : List (StoreRequest Nat Nat) := [ .insert 1 9, .advance (Span.ofSecs 3) ]
    let after : List (StoreRequest Nat Nat) :=
      [ .insert 2 20, .get 1, .insert 3 30, .get 2, .advance (Span.ofSecs 9), .purge ]
    let requests := before ++ .insert 1 10 :: after
    start.store.entries = [] ∧ (∀ r ∈ after, ¬r.Ends 1) ∧
      (∀ deadline, (start.run before).now.add? start.store.lifetime = some deadline →
        (start.run requests).now < deadline) ∧
      (start.touchedSince requests 1).card < start.store.capacity ∧
      ((start.run requests).step (.get 1)).1 = .value (some 10) := by
  intro start before after requests
  have hafter : ∀ r ∈ after, ¬r.Ends 1 := by
    simp [after, StoreRequest.Ends]
  have hlive : ∀ deadline, (start.run before).now.add? start.store.lifetime = some deadline →
      (start.run requests).now < deadline := by
    have hend : (start.run before).now.add? start.store.lifetime =
        some ⟨1013, 0, by decide, by decide, by decide⟩ := by
      decide
    intro deadline h
    obtain rfl := Option.some.inj (hend.symm.trans h)
    decide
  have hrecent : (start.touchedSince requests 1).card < start.store.capacity := by
    decide
  exact ⟨rfl, hafter, hlive, hrecent, run_get_of_recent rfl rfl hafter hlive hrecent⟩

end StoreSession

end RecordKit
