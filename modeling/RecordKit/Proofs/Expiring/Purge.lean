import Mathlib.Data.List.Basic
import RecordKit.Proofs.Expiring.Liveness

/-!
# What a purge drops

A purge lists the keys of the expired entries and then takes them out one after another.
Because no key is stored twice, that drops the expired entries and no other, and the
length of the list is their number.  The live entries stay as they are and in their
order, so no later lookup, test or removal notices (`StoreSession.run_purge`).
-/

namespace RecordKit

variable {κ α : Type} [DecidableEq κ]

namespace Store

variable {s : Store κ α} {now : Instant} {e : Entry κ α}

theorem DistinctKeys.mem_purge_iff (hs : s.DistinctKeys) :
    e ∈ (s.purge now).2.entries ↔ e ∈ s.entries ∧ e.isExpired now = false := by
  rw [hs.purge_eq]
  simp [List.mem_filter]

/-- Every entry is dropped and counted, or stays. -/
theorem DistinctKeys.size_purge (hs : s.DistinctKeys) (now : Instant) :
    (s.purge now).2.size + (s.purge now).1 = s.size := by
  have hlength := List.length_eq_length_filter_add (l := s.entries) (·.isExpired now)
  simp only [hs.purge_eq, size]
  omega

/-- With no expired entry there is nothing to drop. -/
theorem purge_of_live (h : ∀ e ∈ s.entries, e.isExpired now = false) : s.purge now = (0, s) := by
  have hnone : s.staleKeys now = [] := by
    rw [staleKeys, List.map_eq_nil_iff, List.filter_eq_nil_iff]
    intro e he
    rw [h e he]
    exact Bool.false_ne_true
  unfold Store.purge
  rw [hnone]
  rfl

/-- A purge changes no answer about a key. -/
theorem DistinctKeys.answers_purge (hs : s.DistinctKeys) (now : Instant) (key : κ) :
    (s.purge now).2.Answers now key (s.get now key).1 := by
  have hvalue : (Store.entry? (s.purge now).2 key).bind (·.live? now) =
      (s.entry? key).bind (·.live? now) := by
    cases hafter : entry? (s.purge now).2 key with
    | some e =>
        -- What is stored after the purge was stored before it.
        obtain ⟨hmem, hkey⟩ := entry?_spec hafter
        rw [hs.entry?_eq_some_iff.mpr ⟨mem_of_mem_purge hmem, hkey⟩]
    | none =>
        cases hbefore : s.entry? key with
        | none => rfl
        | some e =>
            obtain ⟨hmem, hkey⟩ := entry?_spec hbefore
            have hexpired : e.isExpired now = true := by
              by_contra hlive
              have hstays := hs.mem_purge_iff.mpr ⟨hmem, Bool.eq_false_iff.mpr hlive⟩
              exact entry?_eq_none_iff.mp hafter e hstays hkey
            rw [Option.bind_none, Option.bind_some, Entry.live?, if_pos hexpired]
  have hanswers := (s.purge now).2.answers_live now key
  rwa [hvalue, ← (s.answers_live now key).get] at hanswers

end Store

namespace StoreSession

variable {start : StoreSession κ α}

/-- After any requests to a store that was empty at the start, a purge at any instant
leaves the entries that are live then, each with its value and deadline and all in their
order of use, and returns the number of the others.  So the size drops by that number, a
second purge finds nothing to drop, and every lookup, test and removal tells what it
would have told without the purge. -/
theorem run_purge (hstart : start.store.entries = []) (requests : List (StoreRequest κ α))
    (now : Instant) :
    let s := (start.run requests).store
    let count := (s.purge now).1
    let after := (s.purge now).2
    after.entries = s.entries.filter (fun e => !e.isExpired now) ∧
      count = (s.entries.filter (·.isExpired now)).length ∧
      after.size + count = s.size ∧
      after.purge now = (0, after) ∧
      ∀ key, (after.get now key).1 = (s.get now key).1 ∧
        after.contains now key = s.contains now key ∧
        (after.remove now key).1 = (s.remove now key).1 := by
  intro s count after
  have hdistinct : s.DistinctKeys :=
    distinctKeys_run (Store.distinctKeys_of_nil hstart) requests
  have hpurge := hdistinct.purge_eq now
  have hlive : ∀ e ∈ after.entries, e.isExpired now = false :=
    fun e he => (hdistinct.mem_purge_iff.mp he).2
  refine ⟨?_, ?_, hdistinct.size_purge now, Store.purge_of_live hlive, ?_⟩
  · simp only [after, hpurge]
  · simp only [count, hpurge]
  · intro key
    have hafter := hdistinct.answers_purge now key
    have hbefore := s.answers_live now key
    rw [← hbefore.get] at hbefore
    exact ⟨hafter.get, hafter.contains.trans hbefore.contains.symm,
      hafter.remove.trans hbefore.remove.symm⟩

/-- Three keys in the order of their last use, of which the one in the middle has expired.
It is dropped, and the other two keep their order. -/
theorem run_purge_middle :
    let start : StoreSession Nat Nat :=
      ⟨Instant.start, Store.empty (Span.ofSecs 10) 4 (by decide)⟩
    let requests : List (StoreRequest Nat Nat) :=
      [ .insert 1 10, .insert 2 20, .advance (Span.ofSecs 6), .insert 3 30, .get 2, .insert 1 11,
        .advance (Span.ofSecs 6) ]
    let s := (start.run requests).store
    let now := (start.run requests).now
    start.store.entries = [] ∧ s.entries.map (·.key) = [1, 2, 3] ∧ (s.purge now).1 = 1 ∧
      (s.purge now).2.entries.map (·.key) = [1, 3] ∧
      (s.purge now).2.entries = s.entries.filter (fun e => !e.isExpired now) := by
  intro start requests s now
  have hstart : start.store.entries = [] := rfl
  obtain ⟨hentries, hcount, -⟩ := run_purge hstart requests now
  refine ⟨hstart, by decide, ?_, ?_, hentries⟩
  · rw [hcount]
    decide
  · rw [hentries]
    decide

end StoreSession

end RecordKit
