import RecordKit.Dictionary.Session
import RecordKit.Proofs.Expiring.Steps

/-!
# More room never loses a value

Two stores with the same lifetime get the same requests, and one has more room
than the other.  Their orders of use drift apart, because the larger one finds
keys that the smaller one has given up.  But the entries that both have stand in
the same order, and the larger one has no more entries besides them than it has
additional room (`Store.Within`).  So whenever it has to give up an entry, the
smaller one does as well, and the larger store loses none that the smaller keeps.

`run_within_larger` says it for stores and for dictionaries.
-/

namespace RecordKit

theorem length_filter_add_length_le {α : Type} {l₁ l₂ : List α} (h : l₁.Sublist l₂)
    (p : α → Bool) :
    (l₂.filter p).length + l₁.length ≤ (l₁.filter p).length + l₂.length := by
  have h₁ := l₁.length_eq_countP_add_countP p
  have h₂ := l₂.length_eq_countP_add_countP p
  have hdropped := h.countP_le (p := fun a => decide ¬p a = true)
  rw [← List.countP_eq_length_filter, ← List.countP_eq_length_filter]
  omega

theorem dropLast_sublist_dropLast {α : Type} {l₁ l₂ : List α} (h : l₁.Sublist l₂) :
    l₁.dropLast.Sublist l₂.dropLast := by
  have htail := h.reverse.tail
  rwa [List.tail_reverse, List.tail_reverse, List.reverse_sublist] at htail

variable {κ α : Type}

namespace Store

/-- A larger store keeps what a smaller one keeps, in the same order, and has no
more entries besides than it has additional room. -/
structure Within (small large : Store κ α) : Prop where
  lifetime : small.lifetime = large.lifetime
  entries : small.entries.Sublist large.entries
  room : large.entries.length + small.capacity ≤ small.entries.length + large.capacity

variable {small large : Store κ α}

theorem within_of_nil (hlifetime : small.lifetime = large.lifetime) (hsmall : small.entries = [])
    (hlarge : large.entries = []) (hle : small.capacity ≤ large.capacity) :
    small.Within large := by
  refine ⟨hlifetime, ?_, ?_⟩
  · rw [hsmall]
    exact List.nil_sublist _
  · rw [hsmall, hlarge]
    exact Nat.add_le_add_left hle _

namespace Within

theorem filter (h : small.Within large) (p : Entry κ α → Bool) :
    Within { small with entries := small.entries.filter p }
      { large with entries := large.entries.filter p } := by
  refine ⟨h.lifetime, h.entries.filter p, ?_⟩
  have hlength := length_filter_add_length_le h.entries p
  have hroom := h.room
  dsimp only
  omega

theorem clear (h : small.Within large) : small.clear.Within large.clear := by
  refine ⟨h.lifetime, List.Sublist.refl _, ?_⟩
  have hlength := h.entries.length_le
  have hroom := h.room
  simp only [Store.clear, List.length_nil]
  omega

theorem cons (h : small.Within large) (e : Entry κ α) :
    Within { small with entries := e :: small.entries }
      { large with entries := e :: large.entries } := by
  refine ⟨h.lifetime, h.entries.cons_cons e, ?_⟩
  have hroom := h.room
  simp only [List.length_cons]
  omega

/-- An entry that only the larger store has may move or change. -/
theorem cons_large (h : small.Within large) {e : Entry κ α} {rest : List (Entry κ α)}
    (hrest : small.entries.Sublist rest) (hlength : rest.length < large.entries.length) :
    small.Within { large with entries := e :: rest } := by
  refine ⟨h.lifetime, hrest.cons e, ?_⟩
  have hroom := h.room
  simp only [List.length_cons]
  omega

/-- With the same new key at the front of both, the larger store still has what the
smaller one keeps. -/
theorem cons_kept (h : small.Within large) (e : Entry κ α) :
    Within { small with entries := e :: small.kept } { large with entries := e :: large.kept } := by
  have hroom := h.room
  have hsmallPos := small.capacity_pos
  have hlargePos := large.capacity_pos
  unfold kept
  by_cases hlarge : large.entries.length < large.capacity
  · rw [if_pos hlarge]
    refine ⟨h.lifetime, (small.kept_sublist.trans h.entries).cons_cons e, ?_⟩
    split <;> simp only [List.length_cons, List.length_dropLast] <;> omega
  · have hfull : ¬small.entries.length < small.capacity := by omega
    rw [if_neg hlarge, if_neg hfull]
    refine ⟨h.lifetime, ?_, ?_⟩
    · exact (dropLast_sublist_dropLast h.entries).cons_cons e
    · simp only [List.length_cons, List.length_dropLast]
      omega

variable [DecidableEq κ] {key : κ} {e : Entry κ α}

theorem others (h : small.Within large) (key : κ) :
    Within { small with entries := small.others key }
      { large with entries := large.others key } :=
  h.filter _

theorem entry?_large (h : small.Within large) (hlarge : large.DistinctKeys)
    (he : small.entry? key = some e) : large.entry? key = some e := by
  obtain ⟨hmem, hkey⟩ := entry?_spec he
  exact hlarge.entry?_eq_some_iff.mpr ⟨h.entries.subset hmem, hkey⟩

theorem sublist_others (h : small.Within large) (habsent : small.entry? key = none) :
    small.entries.Sublist (large.others key) := by
  have hothers := (h.others key).entries
  rwa [show ({ small with entries := small.others key } : Store κ α).entries = small.entries from
    others_eq_of_absent habsent] at hothers

/-- A lookup may find in the larger store what the smaller one has given up. -/
theorem get (h : small.Within large) (hlarge : large.DistinctKeys) (now : Instant) (key : κ) :
    (small.get now key).2.Within (large.get now key).2 := by
  cases hsmallEntry : small.entry? key with
  | some e =>
      have hlargeEntry := h.entry?_large hlarge hsmallEntry
      cases hexpired : e.isExpired now with
      | true =>
          rw [get_of_expired hsmallEntry hexpired, get_of_expired hlargeEntry hexpired]
          exact h.others key
      | false =>
          rw [get_of_live hsmallEntry hexpired, get_of_live hlargeEntry hexpired]
          exact (h.others key).cons e
  | none =>
      rw [get_of_absent hsmallEntry]
      have hsublist := h.sublist_others hsmallEntry
      rcases large.get_cases now key with ⟨-, hget⟩ | ⟨e, hentry, -, hget⟩ | ⟨e, hentry, -, hget⟩
      · rw [hget]
        exact h
      · -- Only the larger store had the key, and drops it because it has expired.
        rw [hget]
        have hlength := length_others_lt hentry
        have hroom := h.room
        exact ⟨h.lifetime, hsublist, by dsimp only; omega⟩
      · rw [hget]
        exact h.cons_large hsublist (length_others_lt hentry)

/-- An insertion may be the first of its key for the smaller store only. -/
theorem insert (h : small.Within large) (hlarge : large.DistinctKeys) (now : Instant) (key : κ)
    (value : α) : (small.insert now key value).2.Within (large.insert now key value).2 := by
  let new : Entry κ α := ⟨key, value, now.add? large.lifetime⟩
  have hnew : (⟨key, value, now.add? small.lifetime⟩ : Entry κ α) = new := by
    rw [h.lifetime]
  cases hsmallEntry : small.entry? key with
  | some old =>
      have hlargeEntry := h.entry?_large hlarge hsmallEntry
      rw [insert_of_stored hsmallEntry, insert_of_stored hlargeEntry, hnew]
      exact (h.others key).cons new
  | none =>
      rw [insert_of_absent hsmallEntry, hnew]
      cases hlargeEntry : large.entry? key with
      | some old =>
          -- The larger store has the key already and gives up nothing, so the smaller
          -- one can only fall further behind.
          rw [insert_of_stored hlargeEntry]
          have hsublist := small.kept_sublist.trans (h.sublist_others hsmallEntry)
          have hsmallLength := small.length_le_length_kept
          have hlargeLength := length_others_lt hlargeEntry
          have hroom := h.room
          refine ⟨h.lifetime, hsublist.cons_cons new, ?_⟩
          simp only [List.length_cons]
          omega
      | none =>
          rw [insert_of_absent hlargeEntry]
          exact h.cons_kept new

end Within

end Store

/-- Whatever a smaller store answers with a value, or with yes, a larger one answers
alike. -/
structure Covers (small large : StoreRequest κ α → StoreAnswer α) : Prop where
  get : ∀ key value, small (.get key) = .value (some value) →
    large (.get key) = .value (some value)
  remove : ∀ key value, small (.remove key) = .value (some value) →
    large (.remove key) = .value (some value)
  contains : ∀ key, small (.contains key) = .flag true → large (.contains key) = .flag true

namespace StoreSession

/-- Two sessions at the same time, one with more room than the other. -/
structure Within (small large : StoreSession κ α) : Prop where
  now : small.now = large.now
  store : small.store.Within large.store
  distinct : large.store.DistinctKeys

variable [DecidableEq κ] {small large : StoreSession κ α}

/-- One request keeps the larger store ahead. -/
theorem Within.step (h : small.Within large) (r : StoreRequest κ α) :
    (small.step r).2.Within (large.step r).2 := by
  have hdistinct := distinctKeys_step h.distinct r
  cases r with
  | insert key value =>
      refine ⟨h.now, ?_, hdistinct⟩
      simp only [step_insert, h.now]
      exact h.store.insert h.distinct large.now key value
  | get key =>
      refine ⟨h.now, ?_, hdistinct⟩
      simp only [step_get, h.now]
      exact h.store.get h.distinct large.now key
  | contains key => exact h
  | remove key => exact ⟨h.now, h.store.others key, hdistinct⟩
  | purge =>
      refine ⟨h.now, ?_, hdistinct⟩
      have hsmall : small.store.DistinctKeys := h.distinct.sublist h.store.entries
      simp only [step_purge, h.now, hsmall.purge_eq, h.distinct.purge_eq]
      exact h.store.filter _
  | clear => exact ⟨h.now, h.store.clear, hdistinct⟩
  | advance span =>
      refine ⟨?_, h.store, hdistinct⟩
      simp only [step_advance, h.now]

theorem Within.run (h : small.Within large) (requests : List (StoreRequest κ α)) :
    (small.run requests).Within (large.run requests) := by
  induction requests generalizing small large with
  | nil => exact h
  | cons r rest ih => exact ih (h.step r)

theorem Within.covers (h : small.Within large) :
    Covers (fun r => (small.step r).1) fun r => (large.step r).1 := by
  constructor
  · intro key value hvalue
    obtain ⟨e, he, rfl, rfl, hlive⟩ := Store.exists_of_get (StoreAnswer.value.inj hvalue)
    rw [h.now] at hlive
    have hlarge := h.distinct.get_of_mem (h.store.entries.subset he) hlive
    exact congrArg StoreAnswer.value hlarge
  · intro key value hvalue
    obtain ⟨e, he, hlive⟩ := Option.bind_eq_some_iff.mp (StoreAnswer.value.inj hvalue)
    rw [h.now] at hlive
    have hlarge : (large.store.entry? key).bind (·.live? large.now) = some value :=
      Option.bind_eq_some_iff.mpr ⟨e, h.store.entry?_large h.distinct he, hlive⟩
    exact congrArg StoreAnswer.value hlarge
  · intro key hflag
    have hsmall : (small.store.entry? key).any (fun e => !e.isExpired small.now) = true :=
      StoreAnswer.flag.inj hflag
    cases hentry : small.store.entry? key with
    | none =>
        rw [hentry] at hsmall
        cases hsmall
    | some e =>
        have hlarge : large.store.contains large.now key = true := by
          unfold Store.contains
          rwa [h.store.entry?_large h.distinct hentry, ← h.now, ← hentry]
        exact congrArg StoreAnswer.flag hlarge

end StoreSession

theorem Dict.withLimits_lifetime (name : String) (lifetime : Span) (c : Nat) :
    (withLimits name lifetime c : Dict α).store.lifetime = lifetime := by
  unfold withLimits
  split <;> rfl

theorem Dict.withLimits_entries (name : String) (lifetime : Span) (c : Nat) :
    (withLimits name lifetime c : Dict α).store.entries = [] := by
  unfold withLimits
  split <;> rfl

/-- Let two stores, or two dictionaries, have the same lifetime, and let one have at
least the capacity of the other.  After any requests that both have taken from the
start, the larger one has each entry of the smaller one, with its value and its
deadline.  So whatever the smaller one finds, removes or contains, the larger one
does as well. -/
theorem run_within_larger [DecidableEq κ] (now : Instant) (lifetime : Span) :
    (∀ {c c' : Nat} (hc : 0 < c) (hc' : 0 < c'), c ≤ c' →
      ∀ requests : List (StoreRequest κ α),
        let small := StoreSession.run ⟨now, Store.empty lifetime c hc⟩ requests
        let large := StoreSession.run ⟨now, Store.empty lifetime c' hc'⟩ requests
        (∀ e ∈ small.store.entries, e ∈ large.store.entries) ∧
          Covers (fun r => (small.step r).1) fun r => (large.step r).1) ∧
    ∀ (name name' : String) (c c' : Nat),
      (Dict.withLimits name lifetime c : Dict α).store.capacity ≤
        (Dict.withLimits name' lifetime c' : Dict α).store.capacity →
      ∀ requests : List (StoreRequest String α),
        let small := DictSession.run ⟨now, Dict.withLimits name lifetime c⟩ requests
        let large := DictSession.run ⟨now, Dict.withLimits name' lifetime c'⟩ requests
        (∀ e ∈ small.dict.store.entries, e ∈ large.dict.store.entries) ∧
          Covers (fun r => (small.step r).1) fun r => (large.step r).1 := by
  constructor
  · intro c c' hc hc' hle requests small large
    have hstart : StoreSession.Within (κ := κ) (α := α)
        ⟨now, Store.empty lifetime c hc⟩ ⟨now, Store.empty lifetime c' hc'⟩ :=
      ⟨rfl, Store.within_of_nil rfl rfl rfl hle, Store.distinctKeys_of_nil rfl⟩
    have hrun : small.Within large := hstart.run requests
    exact ⟨fun e he => hrun.store.entries.subset he, hrun.covers⟩
  · intro name name' c c' hle requests small large
    have hsmallNil := Dict.withLimits_entries (α := α) name lifetime c
    have hlargeNil := Dict.withLimits_entries (α := α) name' lifetime c'
    have hlifetime : (Dict.withLimits name lifetime c : Dict α).store.lifetime =
        (Dict.withLimits name' lifetime c' : Dict α).store.lifetime := by
      rw [Dict.withLimits_lifetime, Dict.withLimits_lifetime]
    have hstart : StoreSession.Within
        (DictSession.storeSession ⟨now, (Dict.withLimits name lifetime c : Dict α)⟩)
        (DictSession.storeSession ⟨now, Dict.withLimits name' lifetime c'⟩) :=
      ⟨rfl, Store.within_of_nil hlifetime hsmallNil hlargeNil hle,
        Store.distinctKeys_of_nil hlargeNil⟩
    -- A dictionary is compared by its store, which has got the same requests.
    have hrun : small.storeSession.Within large.storeSession := by
      rw [DictSession.run_storeSession, DictSession.run_storeSession]
      exact hstart.run requests
    refine ⟨fun e he => hrun.store.entries.subset he, ?_⟩
    simp only [fun r => (small.step_storeSession r).1, fun r => (large.step_storeSession r).1]
    exact hrun.covers

/-- Room for two keys and for three: the first key has been given up by the smaller
store and is found again by the larger one, so the orders of use differ.  The
dictionary without a capacity of its own has the default one. -/
theorem run_within_larger_drifted :
    let requests : List (StoreRequest Nat Nat) :=
      [.insert 1 10, .insert 2 20, .insert 3 30, .get 1, .insert 4 40]
    let small := StoreSession.run
      ⟨Instant.start, Store.empty (Span.ofSecs 10) 2 (by decide)⟩ requests
    let large := StoreSession.run
      ⟨Instant.start, Store.empty (Span.ofSecs 10) 3 (by decide)⟩ requests
    let dictRequests : List (StoreRequest String Nat) := [.insert "a" 1, .remove "b"]
    let smallDict : DictSession Nat := DictSession.run
      ⟨Instant.start, Dict.withLimits "small" (Span.ofSecs 10) 2⟩ dictRequests
    let largeDict : DictSession Nat := DictSession.run
      ⟨Instant.start, Dict.withLimits "large" (Span.ofSecs 10) 0⟩ dictRequests
    small.store.entries.map (·.key) = [4, 3] ∧ large.store.entries.map (·.key) = [4, 1, 3] ∧
      (∀ e ∈ small.store.entries, e ∈ large.store.entries) ∧
      Covers (fun r => (small.step r).1) (fun r => (large.step r).1) ∧
      smallDict.dict.store.capacity = 2 ∧ largeDict.dict.store.capacity = 1024 ∧
      (∀ e ∈ smallDict.dict.store.entries, e ∈ largeDict.dict.store.entries) ∧
      Covers (fun r => (smallDict.step r).1) fun r => (largeDict.step r).1 := by
  intro requests small large dictRequests smallDict largeDict
  obtain ⟨hentries, hcovers⟩ :=
    (run_within_larger Instant.start (Span.ofSecs 10)).1 (by decide) (by decide)
      (by decide : 2 ≤ 3) requests
  obtain ⟨hdictEntries, hdictCovers⟩ :=
    (run_within_larger (κ := Nat) Instant.start (Span.ofSecs 10)).2 "small" "large" 2 0
      (by decide) dictRequests
  exact ⟨by decide, by decide, hentries, hcovers, by decide, by decide, hdictEntries, hdictCovers⟩

end RecordKit
