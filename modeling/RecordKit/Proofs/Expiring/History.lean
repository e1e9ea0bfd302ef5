import RecordKit.Proofs.Expiring.Steps
import RecordKit.Proofs.Shared.Histories

/-!
# What a store knows of its past

Everything that a store keeps was put there by the latest insertion of its key,
and has the deadline that this insertion gave it.  `StoreSession.lastInserted_of_mem`
says so after any list of requests, and `StoreSession.run_get_eq_some` what follows
for lookups: nothing overwritten, removed, cleared away or expired comes back, and
to find a value does not make it live longer.
-/

namespace RecordKit

variable {κ α : Type}

/-- After the requests `before` the list inserts a value under a key, and nothing
later in the list ends that. -/
def LastInserted (key : κ) (value : α) (before requests : List (StoreRequest κ α)) : Prop :=
  ∃ after, requests = before ++ .insert key value :: after ∧ ∀ r ∈ after, ¬r.Ends key

variable {key : κ} {value : α} {before requests : List (StoreRequest κ α)}

theorem not_lastInserted_nil : ¬LastInserted key value before [] := by
  rintro ⟨after, h, -⟩
  simp at h

/-- The latest insertion is the last request, or it came before that and the last
request does not end it. -/
theorem lastInserted_snoc_iff {r : StoreRequest κ α} :
    LastInserted key value before (requests ++ [r]) ↔
      (before = requests ∧ r = .insert key value) ∨
        LastInserted key value before requests ∧ ¬r.Ends key := by
  constructor
  · rintro ⟨after, hsplit, hafter⟩
    rcases snoc_eq_split_iff.mp hsplit with ⟨hbefore, hr, -⟩ | ⟨after, rfl, hrequests⟩
    · exact Or.inl ⟨hbefore, hr.symm⟩
    · have hr : ¬r.Ends key := hafter r (by simp)
      exact Or.inr ⟨⟨after, hrequests, fun r' hr' => hafter r' (by simp [hr'])⟩, hr⟩
  · rintro (⟨rfl, rfl⟩ | ⟨⟨after, rfl, hafter⟩, hr⟩)
    · exact ⟨[], rfl, by simp⟩
    · refine ⟨after ++ [r], by simp, ?_⟩
      intro r' hr'
      rcases List.mem_append.mp hr' with hr' | hr'
      · exact hafter r' hr'
      · obtain rfl := List.mem_singleton.mp hr'
        exact hr

/-- There is one latest insertion of a key. -/
theorem LastInserted.unique {value' : α} {before' : List (StoreRequest κ α)}
    (h : LastInserted key value before requests)
    (h' : LastInserted key value' before' requests) : before = before' ∧ value = value' := by
  induction requests using List.reverseRecOn with
  | nil => exact absurd h not_lastInserted_nil
  | append_singleton requests r ih =>
      rcases lastInserted_snoc_iff.mp h with ⟨hbefore, hr⟩ | ⟨h, hr⟩ <;>
        rcases lastInserted_snoc_iff.mp h' with ⟨hbefore', hr'⟩ | ⟨h', hr'⟩
      · rw [hr] at hr'
        cases hr'
        exact ⟨hbefore.trans hbefore'.symm, rfl⟩
      · exact absurd (by rw [hr]; rfl) hr'
      · exact absurd (by rw [hr']; rfl) hr
      · exact ih h h'

namespace StoreSession

variable [DecidableEq κ] {start : StoreSession κ α} {e : Entry κ α}

/-- Every entry of a store that was empty at the start stands for the latest
insertion of its key and has the deadline of that moment. -/
theorem lastInserted_of_mem (hstart : start.store.entries = [])
    (he : e ∈ (start.run requests).store.entries) :
    ∃ before, LastInserted e.key e.value before requests ∧
      e.deadline = (start.run before).now.add? start.store.lifetime := by
  -- Requests are added at the end, where `mem_step` says where an entry is from.
  induction requests using List.reverseRecOn with
  | nil =>
      rw [show start.run [] = start from rfl, hstart] at he
      cases he
  | append_singleton requests r ih =>
      rw [run_snoc] at he
      rcases mem_step he with ⟨hr, hdeadline⟩ | ⟨hold, hr⟩
      · rw [(start.run_limits requests).1] at hdeadline
        exact ⟨requests, lastInserted_snoc_iff.mpr (Or.inl ⟨rfl, hr⟩), hdeadline⟩
      · obtain ⟨before, hlast, hdeadline⟩ := ih hold
        exact ⟨before, lastInserted_snoc_iff.mpr (Or.inr ⟨hlast, hr⟩), hdeadline⟩

/-- The only entry that a key can have is that of its latest insertion. -/
theorem eq_of_lastInserted (hstart : start.store.entries = [])
    (he : e ∈ (start.run requests).store.entries)
    (hlast : LastInserted e.key value before requests) :
    e = ⟨e.key, value, (start.run before).now.add? start.store.lifetime⟩ := by
  obtain ⟨before', hlast', hdeadline⟩ := lastInserted_of_mem hstart he
  obtain ⟨rfl, rfl⟩ := hlast.unique hlast'
  rw [← hdeadline]

/-- After any requests to a store that was empty at the start, a lookup finds a
value only if that is the value with which its key was last inserted, nothing has
removed it or cleared the store since, and the lifetime counted from that
insertion has not passed, unless its end is out of range. -/
theorem run_get_eq_some (hstart : start.store.entries = [])
    {requests : List (StoreRequest κ α)} {key : κ} {value : α}
    (h : ((start.run requests).step (.get key)).1 = .value (some value)) :
    ∃ before after, requests = before ++ .insert key value :: after ∧
      (∀ r ∈ after, ¬r.Ends key) ∧
      ∀ deadline, (start.run before).now.add? start.store.lifetime = some deadline →
        (start.run requests).now < deadline := by
  rw [step_get] at h
  obtain ⟨e, he, rfl, rfl, hlive⟩ := Store.exists_of_get (StoreAnswer.value.inj h)
  obtain ⟨before, ⟨after, hsplit, hafter⟩, hdeadline⟩ := lastInserted_of_mem hstart he
  refine ⟨before, after, hsplit, hafter, ?_⟩
  intro deadline hend
  exact (e.isExpired_eq_false_iff _).mp hlive deadline (hdeadline.trans hend)

/-- A second insertion gives its key a new value and a new lifetime.  At 12 seconds
the first lifetime has passed and the second has not. -/
theorem run_get_renewed :
    let start : StoreSession Nat Nat :=
      ⟨Instant.start, Store.empty (Span.ofSecs 10) 2 (by decide)⟩
    let requests : List (StoreRequest Nat Nat) :=
      [ .insert 1 10, .insert 2 20, .advance (Span.ofSecs 6), .get 2, .insert 1 11,
        .advance (Span.ofSecs 6), .remove 2 ]
    start.store.entries = [] ∧
      ((start.run requests).step (.get 1)).1 = .value (some 11) ∧
      ∃ before after, requests = before ++ .insert 1 11 :: after ∧
        (∀ r ∈ after, ¬r.Ends 1) ∧
        ∀ deadline, (start.run before).now.add? start.store.lifetime = some deadline →
          (start.run requests).now < deadline := by
  intro start requests
  have hstart : start.store.entries = [] := rfl
  have hget : ((start.run requests).step (.get 1)).1 = .value (some 11) := by decide
  exact ⟨hstart, hget, run_get_eq_some hstart hget⟩

end StoreSession

end RecordKit
