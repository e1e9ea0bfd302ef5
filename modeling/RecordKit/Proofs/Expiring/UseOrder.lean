import RecordKit.Proofs.Expiring.Recency

/-!
# Entries stand in the order of their last use

A request uses the key that it inserts, and the key whose value it finds.  After any
requests to a store that was empty at the start, no two entries share a key, there are no
more of them than the capacity, and each one was last used after all that stand behind
it.  So the entry that a full store gives up for a new key, the last one, is the one used
longest ago, whether or not it has expired.

* `StoreSession.LastTouchedAt` and `StoreSession.TouchedAfter`: when a key was last used.
* `StoreSession.pairwise_touchedAfter`: the order of the entries, kept by every request.
* `StoreSession.run_in_order_of_use`: the whole, with what each request may change.
-/

namespace RecordKit

variable {κ α : Type}

namespace Store

variable {s : Store κ α} {e : Entry κ α}

theorem length_kept_lt (hsize : s.entries.length ≤ s.capacity) :
    s.kept.length < s.capacity := by
  have hpos := s.capacity_pos
  unfold kept
  split
  · assumption
  · rw [List.length_dropLast]
    omega

/-- What a full store gives up is its last entry alone. -/
theorem exists_of_full (h : s.size = s.capacity) : ∃ last, s.entries = s.kept ++ [last] := by
  have hne : s.entries ≠ [] := by
    have hpos := s.capacity_pos
    rw [← h] at hpos
    exact List.ne_nil_of_length_pos hpos
  exact ⟨s.entries.getLast hne, by rw [kept_of_full h.ge, List.dropLast_concat_getLast]⟩

variable [DecidableEq κ] {key : κ}

/-- Under distinct keys a stored key has one entry besides the others. -/
theorem DistinctKeys.perm_others (hs : s.DistinctKeys) (h : s.entry? key = some e) :
    s.entries.Perm (e :: s.others key) := by
  obtain ⟨lifetime, capacity, hpos, entries⟩ := s
  unfold DistinctKeys entry? at *
  unfold others
  induction entries with
  | nil => cases h
  | cons first rest ih =>
      dsimp only at hs h ih ⊢
      rw [List.pairwise_cons] at hs
      by_cases hkey : first.key = key
      · -- The first entry is the one, and no other has its key.
        rw [List.find?_cons_of_pos (by simpa using hkey)] at h
        obtain rfl := Option.some.inj h
        have hrest : rest.filter (fun e' => decide (e'.key ≠ key)) = rest := by
          rw [List.filter_eq_self]
          intro e' he'
          exact decide_eq_true (hkey ▸ (hs.1 e' he').symm)
        rw [List.filter_cons_of_neg (by simpa using hkey), hrest]
      · rw [List.find?_cons_of_neg (by simpa using hkey)] at h
        rw [List.filter_cons_of_pos (by simpa using hkey)]
        exact ((ih hs.2 h).cons first).trans (List.Perm.swap e first _)

end Store

namespace StoreSession

variable [DecidableEq κ] {start s : StoreSession κ α} {requests : List (StoreRequest κ α)}
  {r : StoreRequest κ α} {key key' : κ} {i j : Nat}

/-! ## When a key was last used -/

/-- The key that the request at a position uses. -/
def touchAt? (s : StoreSession κ α) (requests : List (StoreRequest κ α)) (i : Nat) : Option κ :=
  requests[i]?.bind (s.run (requests.take i)).touched?

/-- The request at position `i` uses a key, and no later one does. -/
def LastTouchedAt (s : StoreSession κ α) (requests : List (StoreRequest κ α)) (key : κ)
    (i : Nat) : Prop :=
  s.touchAt? requests i = some key ∧ ∀ j, i < j → s.touchAt? requests j ≠ some key

/-- Both keys have been used, and the last use of the first one is the later. -/
def TouchedAfter (s : StoreSession κ α) (requests : List (StoreRequest κ α))
    (key key' : κ) : Prop :=
  ∃ i j, s.LastTouchedAt requests key i ∧ s.LastTouchedAt requests key' j ∧ j < i

theorem touchAt?_snoc_of_lt (r : StoreRequest κ α) (hi : i < requests.length) :
    s.touchAt? (requests ++ [r]) i = s.touchAt? requests i := by
  unfold touchAt?
  rw [List.getElem?_append_left hi, List.take_append_of_le_length hi.le]

theorem touchAt?_snoc_length (s : StoreSession κ α) (requests : List (StoreRequest κ α))
    (r : StoreRequest κ α) :
    s.touchAt? (requests ++ [r]) requests.length = (s.run requests).touched? r := by
  unfold touchAt?
  rw [List.getElem?_concat_length, List.take_left]
  rfl

theorem touchAt?_of_length_le (hi : requests.length ≤ i) : s.touchAt? requests i = none := by
  unfold touchAt?
  rw [List.getElem?_eq_none hi]
  rfl

theorem LastTouchedAt.lt_length (h : s.LastTouchedAt requests key i) : i < requests.length := by
  by_contra hi
  have htouch := h.1
  rw [touchAt?_of_length_le (Nat.le_of_not_lt hi)] at htouch
  cases htouch

/-- A key has one last use. -/
theorem LastTouchedAt.unique (hi : s.LastTouchedAt requests key i)
    (hj : s.LastTouchedAt requests key j) : i = j := by
  rcases Nat.lt_trichotomy i j with hlt | heq | hlt
  · exact absurd hj.1 (hi.2 j hlt)
  · exact heq
  · exact absurd hi.1 (hj.2 i hlt)

/-- A request that uses another key, or none, leaves the last use of a key where it
was. -/
theorem LastTouchedAt.snoc (h : s.LastTouchedAt requests key i)
    (hr : (s.run requests).touched? r ≠ some key) :
    s.LastTouchedAt (requests ++ [r]) key i := by
  constructor
  · rw [touchAt?_snoc_of_lt r h.lt_length]
    exact h.1
  · intro j hij
    rcases Nat.lt_trichotomy j requests.length with hlt | rfl | hgt
    · rw [touchAt?_snoc_of_lt r hlt]
      exact h.2 j hij
    · rwa [touchAt?_snoc_length]
    · rw [touchAt?_of_length_le (by simpa using Nat.succ_le_of_lt hgt)]
      nofun

theorem lastTouchedAt_snoc_self (h : (s.run requests).touched? r = some key) :
    s.LastTouchedAt (requests ++ [r]) key requests.length := by
  constructor
  · rw [touchAt?_snoc_length, h]
  · intro j hj
    rw [touchAt?_of_length_le (by simpa using Nat.succ_le_of_lt hj)]
    nofun

theorem TouchedAfter.snoc (h : s.TouchedAfter requests key key')
    (hr : (s.run requests).touched? r ≠ some key)
    (hr' : (s.run requests).touched? r ≠ some key') :
    s.TouchedAfter (requests ++ [r]) key key' := by
  obtain ⟨i, j, hi, hj, hlt⟩ := h
  exact ⟨i, j, hi.snoc hr, hj.snoc hr', hlt⟩

/-! ## The order of the entries -/

/-- Every stored key has been used. -/
theorem exists_lastTouchedAt (hstart : start.store.entries = [])
    (requests : List (StoreRequest κ α)) :
    ∀ e ∈ (start.run requests).store.entries, ∃ i, start.LastTouchedAt requests e.key i := by
  induction requests using List.reverseRecOn with
  | nil =>
      intro e he
      rw [show start.run [] = start from rfl, hstart] at he
      cases he
  | append_singleton requests r ih =>
      intro e he
      by_cases htouched : (start.run requests).touched? r = some e.key
      · exact ⟨requests.length, lastTouchedAt_snoc_self htouched⟩
      · -- An entry that the request has not used was there before.
        rw [run_snoc] at he
        have hold : e ∈ (start.run requests).store.entries := by
          rcases mem_step he with ⟨hr, -⟩ | ⟨hold, -⟩
          · exact absurd (touched?_eq_some_iff.mpr (Or.inl ⟨e.value, hr⟩)) htouched
          · exact hold
        obtain ⟨i, hi⟩ := ih e hold
        exact ⟨i, hi.snoc htouched⟩

/-- Each entry was last used after those behind it. -/
theorem pairwise_touchedAfter (hstart : start.store.entries = [])
    (requests : List (StoreRequest κ α)) :
    (start.run requests).store.entries.Pairwise fun e e' =>
      start.TouchedAfter requests e.key e'.key := by
  induction requests using List.reverseRecOn with
  | nil =>
      rw [show start.run [] = start from rfl, hstart]
      exact List.Pairwise.nil
  | append_singleton requests r ih =>
      rw [run_snoc]
      cases htouched : (start.run requests).touched? r with
      | none =>
          refine (ih.sublist (step_entries_of_not_touched htouched)).imp ?_
          intro e e' h
          exact h.snoc (by simp [htouched]) (by simp [htouched])
      | some key =>
          obtain ⟨first, rest, hentries, rfl, hrest⟩ := step_entries_of_touched htouched
          -- The key used gets the last position there is; the others keep theirs.
          have hne : ∀ e ∈ rest, (start.run requests).touched? r ≠ some e.key := by
            intro e he h
            rw [htouched] at h
            exact (Store.mem_others_iff.mp (hrest.subset he)).2 (Option.some.inj h).symm
          have hsublist := hrest.trans ((start.run requests).store.others_sublist first.key)
          rw [hentries, List.pairwise_cons]
          constructor
          · intro e he
            obtain ⟨i, hi⟩ := exists_lastTouchedAt hstart requests e (hsublist.subset he)
            exact ⟨requests.length, i, lastTouchedAt_snoc_self htouched, hi.snoc (hne e he),
              hi.lt_length⟩
          · refine (ih.sublist hsublist).imp_of_mem ?_
            intro e e' he he' h
            exact h.snoc (hne e he) (hne e' he')

/-! ## The number of the entries -/

theorem size_step_le (h : s.store.size ≤ s.store.capacity) (r : StoreRequest κ α) :
    (s.step r).2.store.size ≤ s.store.capacity := by
  cases r with
  | insert key value =>
      rw [step_insert]
      rcases s.store.insert_cases s.now key value with ⟨old, hentry, hinsert⟩ | ⟨-, hinsert⟩
      · rw [hinsert]
        exact (Store.length_others_lt hentry).trans_le h
      · rw [hinsert]
        exact Store.length_kept_lt h
  | get key =>
      rw [step_get]
      rcases s.store.get_cases s.now key with ⟨-, hget⟩ | ⟨e, -, -, hget⟩ | ⟨e, hentry, -, hget⟩
      · rwa [hget]
      · rw [hget]
        exact (s.store.others_sublist key).length_le.trans h
      · rw [hget]
        exact (Store.length_others_lt hentry).trans_le h
  | contains key => exact h
  | remove key => exact (s.store.others_sublist key).length_le.trans h
  | purge => exact (s.store.purge_sublist s.now).length_le.trans h
  | clear => exact Nat.zero_le _
  | advance span => exact h

theorem size_run_le (h : s.store.size ≤ s.store.capacity) (requests : List (StoreRequest κ α)) :
    (s.run requests).store.size ≤ s.store.capacity := by
  induction requests generalizing s with
  | nil => exact h
  | cons r rest ih =>
      have hcapacity := (s.step_limits r).2
      have hstep : (s.step r).2.store.size ≤ (s.step r).2.store.capacity := by
        rw [hcapacity]
        exact size_step_le h r
      rw [← hcapacity]
      exact ih hstep

/-! ## What a request may change -/

/-- Inserting a stored key, even an expired one, replaces its entry and pushes nothing
out. -/
theorem step_insert_of_stored (hs : s.store.DistinctKeys) {old : Entry κ α}
    (hold : s.store.entry? key = some old) (value : α) :
    let after := (s.step (.insert key value)).2.store
    after.entries = ⟨key, value, s.now.add? s.store.lifetime⟩ :: s.store.others key ∧
      after.size = s.store.size := by
  rw [step_insert, Store.insert_of_stored hold]
  exact ⟨rfl, (hs.perm_others hold).length_eq.symm⟩

/-- Inserting a new key into a full store pushes out the entry last used before all
others, and nothing else. -/
theorem step_insert_of_full (hstart : start.store.entries = [])
    (habsent : (start.run requests).store.entry? key = none)
    (hfull : (start.run requests).store.size = start.store.capacity) (value : α) :
    ∃ rest oldest, (start.run requests).store.entries = rest ++ [oldest] ∧
      (∀ e ∈ rest, start.TouchedAfter requests e.key oldest.key) ∧
      ((start.run requests).step (.insert key value)).2.store.entries =
        ⟨key, value, (start.run requests).now.add? start.store.lifetime⟩ :: rest := by
  obtain ⟨hlifetime, hcapacity⟩ := start.run_limits requests
  obtain ⟨oldest, hsplit⟩ := Store.exists_of_full (hfull.trans hcapacity.symm)
  refine ⟨(start.run requests).store.kept, oldest, hsplit, ?_, ?_⟩
  · intro e he
    have horder := pairwise_touchedAfter hstart requests
    rw [hsplit, List.pairwise_append] at horder
    exact horder.2.2 e he oldest (List.mem_singleton_self oldest)
  · rw [step_insert, Store.insert_of_absent habsent, hlifetime]

/-- After any requests to a store that was empty at the start, no key is stored twice,
there are no more entries than the capacity, and each entry was last used later than those
behind it.  In such a state the insertion of a new key pushes out the last entry if the
store is full, and none otherwise, the insertion of a stored key pushes out none, and
neither `contains` nor the lookup of a key that is not stored changes anything.  The size
is read off the store. -/
theorem run_in_order_of_use (hstart : start.store.entries = [])
    (requests : List (StoreRequest κ α)) :
    let s := start.run requests
    s.store.DistinctKeys ∧ s.store.size ≤ start.store.capacity ∧
      (s.store.entries.Pairwise fun e e' => start.TouchedAfter requests e.key e'.key) ∧
      (∀ key value,
        let new : Entry κ α := ⟨key, value, s.now.add? start.store.lifetime⟩
        let after := (s.step (.insert key value)).2.store
        (s.store.entry? key = none → s.store.size = start.store.capacity →
          ∃ rest oldest, s.store.entries = rest ++ [oldest] ∧
            (∀ e ∈ rest, start.TouchedAfter requests e.key oldest.key) ∧
            after.entries = new :: rest) ∧
        (s.store.entry? key = none → s.store.size < start.store.capacity →
          after.entries = new :: s.store.entries) ∧
        ∀ old, s.store.entry? key = some old →
          after.entries = new :: s.store.others key ∧ after.size = s.store.size) ∧
      ∀ key, s.step (.contains key) = (.flag (s.store.contains s.now key), s) ∧
        (s.store.entry? key = none → s.step (.get key) = (.value none, s)) := by
  intro s
  obtain ⟨hlifetime, hcapacity⟩ := start.run_limits requests
  have hdistinct : s.store.DistinctKeys :=
    distinctKeys_run (Store.distinctKeys_of_nil hstart) requests
  have hempty : start.store.size ≤ start.store.capacity := by
    rw [Store.size, hstart]
    exact Nat.zero_le _
  refine ⟨hdistinct, size_run_le hempty requests, pairwise_touchedAfter hstart requests, ?_, ?_⟩
  · intro key value new after
    refine ⟨fun habsent hfull => step_insert_of_full hstart habsent hfull value, ?_, ?_⟩
    · intro habsent hroom
      rw [← hcapacity] at hroom
      have hafter : after.entries = ⟨key, value, s.now.add? s.store.lifetime⟩ :: s.store.kept := by
        simp only [after, step_insert, Store.insert_of_absent habsent]
      rw [hafter, hlifetime, Store.kept_of_room hroom]
    · intro old hold
      have hafter := step_insert_of_stored hdistinct hold value
      rwa [hlifetime] at hafter
  · intro key
    refine ⟨rfl, ?_⟩
    intro habsent
    rw [step_get, Store.get_of_absent habsent]

/-- A lookup brings the second key before the first one, and then its lifetime passes.
A third key still takes the room of the first one, which is live. -/
theorem run_in_order_of_use_expired :
    let start : StoreSession Nat Nat :=
      ⟨Instant.start, Store.empty (Span.ofSecs 10) 2 (by decide)⟩
    let requests : List (StoreRequest Nat Nat) :=
      [ .insert 2 20, .advance (Span.ofSecs 6), .insert 1 10, .get 2, .advance (Span.ofSecs 6) ]
    let s := start.run requests
    let one : Entry Nat Nat :=
      ⟨1, 10, (Instant.start.advance (Span.ofSecs 6)).add? (Span.ofSecs 10)⟩
    let two : Entry Nat Nat := ⟨2, 20, Instant.start.add? (Span.ofSecs 10)⟩
    start.store.entries = [] ∧ s.store.entries = [two, one] ∧
      two.isExpired s.now = true ∧ one.isExpired s.now = false ∧
      start.TouchedAfter requests 2 1 ∧
      (s.step (.insert 3 30)).2.store.entries =
        [⟨3, 30, s.now.add? start.store.lifetime⟩, two] := by
  intro start requests s one two
  have hstart : start.store.entries = [] := rfl
  have hentries : s.store.entries = [two, one] := by
    simp only [s, requests, start]
    rfl
  obtain ⟨-, -, -, hinsert, -⟩ := run_in_order_of_use hstart requests
  have habsent : s.store.entry? 3 = none := by
    rw [Store.entry?_eq_none_iff, hentries]
    simp [one, two]
  obtain ⟨rest, oldest, hsplit, horder, hafter⟩ := (hinsert 3 30).1 habsent (by decide)
  have hsplit' : [two] ++ [one] = rest ++ [oldest] := hentries.symm.trans hsplit
  obtain ⟨rfl, hoffset⟩ := List.append_inj' hsplit' rfl
  obtain rfl := List.singleton_inj.mp hoffset
  refine ⟨hstart, hentries, by decide, by decide, horder two (List.mem_singleton_self two), ?_⟩
  simpa only [s] using hafter

end StoreSession

end RecordKit
