import RecordKit.Proofs.Copy.CacheSteps

/-!
# When a cache answers the copier it answered before

A cache that was empty at the start compiles a copier whenever it has no live one for a
pair of types.  Each stored copier is then the latest one compiled for its pair, later than
the latest request to clear, and lives from there on as long as the cache says
(`CacheSession.lastCompiled_of_mem`).  Two facts follow about the lookup that comes after a
list of requests.

* `CacheSession.run_get_of_lastUse`: it answers the copier of the last use of its pair, as
  long as that copier is live, nothing has cleared the cache since, and the pairs used
  since are fewer than the capacity.
* `CacheSession.lastCompiled_of_run_get`: what it answers is live and the latest of its
  pair, and nothing has cleared the cache since it was compiled.

The first one is read off the store, which is asked for the pair once at each use.
-/

namespace RecordKit

namespace CacheSession

variable {C : Type} [DecidableEq C] [UserType C] {start s : CacheSession C}
  {requests before after : List (CacheRequest C)} {r : CacheRequest C} {pair : TypePair}
  {c : Copier C}

/-! ## The history of the store -/

/-- What a list of requests asks of the store. -/
def history (s : CacheSession C) :
    List (CacheRequest C) → List (StoreRequest TypePair (Copier C))
  | [] => []
  | r :: rest => s.storeRequests r ++ (s.step r).2.history rest

theorem run_storeSession (s : CacheSession C) (requests : List (CacheRequest C)) :
    (s.run requests).storeSession = s.storeSession.run (s.history requests) := by
  induction requests generalizing s with
  | nil => rfl
  | cons r rest ih =>
      rw [history, StoreSession.run_append, ← step_storeSession, ← ih]
      rfl

theorem history_append (s : CacheSession C) (requests more : List (CacheRequest C)) :
    s.history (requests ++ more) = s.history requests ++ (s.run requests).history more := by
  induction requests generalizing s with
  | nil => rfl
  | cons r rest ih =>
      rw [List.cons_append, history, history, ih, List.append_assoc]
      rfl

/-- The keys used in the store are the pairs used in the cache. -/
theorem touches_history (s : CacheSession C) (requests : List (CacheRequest C)) :
    s.storeSession.touches (s.history requests) = requests.filterMap (·.pair?) := by
  induction requests generalizing s with
  | nil => rfl
  | cons r rest ih =>
      rw [history, StoreSession.touches_append, touches_storeRequests, ← step_storeSession, ih]
      cases hpair : r.pair? with
      | none => rw [List.filterMap_cons_none hpair, Option.toList_none, List.nil_append]
      | some pair => rw [List.filterMap_cons_some hpair, Option.toList_some, List.singleton_append]

theorem not_ends_of_mem_history (hpair : ∀ r ∈ requests, r.pair? ≠ some pair)
    (hclear : .clear ∉ requests) : ∀ q ∈ s.history requests, ¬q.Ends pair := by
  induction requests generalizing s with
  | nil => nofun
  | cons r rest ih =>
      rw [List.forall_mem_cons] at hpair
      rw [List.mem_cons, not_or] at hclear
      intro q hq
      rcases List.mem_append.mp hq with hq | hq
      · exact not_ends_of_mem_storeRequests hpair.1 (Ne.symm hclear.1) q hq
      · exact ih hpair.2 hclear.2 q hq

theorem run_limits (s : CacheSession C) (requests : List (CacheRequest C)) :
    (s.run requests).cache.store.lifetime = s.cache.store.lifetime ∧
      (s.run requests).cache.store.capacity = s.cache.store.capacity := by
  have hlimits := s.storeSession.run_limits (s.history requests)
  rwa [← run_storeSession] at hlimits

theorem distinctKeys_run (hstart : start.cache.store.entries = [])
    (requests : List (CacheRequest C)) : (start.run requests).cache.store.DistinctKeys := by
  have hdistinct := StoreSession.distinctKeys_run
    (s := start.storeSession) (Store.distinctKeys_of_nil hstart) (start.history requests)
  rwa [← run_storeSession] at hdistinct

/-! ## Stamps -/

theorem stamp_lt_nextStamp (h : (start.run before).compiled? r = some c)
    (after : List (CacheRequest C)) :
    c.stamp < (start.run (before ++ r :: after)).cache.nextStamp := by
  obtain ⟨hstamp, hnext⟩ := stamp_of_compiled h
  calc
    c.stamp < ((start.run before).step r).2.cache.nextStamp := by
      rw [hnext, hstamp]
      exact Nat.lt_succ_self _
    _ ≤ (((start.run before).step r).2.run after).cache.nextStamp := nextStamp_le_run _ after
    _ = (start.run (before ++ r :: after)).cache.nextStamp := by
      rw [run_append]
      rfl

/-- Nothing lies between two requests that compile copiers with the same stamp. -/
theorem mid_eq_nil_of_stamp {mid after' : List (CacheRequest C)} {r' : CacheRequest C}
    {c' : Copier C} (hrest : r :: after = mid ++ r' :: after')
    (hc : (start.run before).compiled? r = some c)
    (hc' : (start.run (before ++ mid)).compiled? r' = some c') (hstamp : c.stamp = c'.stamp) :
    mid = [] := by
  cases mid with
  | nil => rfl
  | cons first mid =>
      obtain rfl := (List.cons.inj hrest).1
      have hlt := stamp_lt_nextStamp hc mid
      rw [hstamp, (stamp_of_compiled hc').1] at hlt
      exact absurd hlt (lt_irrefl _)

/-- Copiers compiled at different places in a list of requests have different stamps. -/
theorem split_eq_of_stamp {before' after' : List (CacheRequest C)} {r' : CacheRequest C}
    {c' : Copier C} (hsplit : before ++ r :: after = before' ++ r' :: after')
    (hc : (start.run before).compiled? r = some c)
    (hc' : (start.run before').compiled? r' = some c') (hstamp : c.stamp = c'.stamp) :
    before = before' ∧ r = r' ∧ after = after' := by
  rcases List.append_eq_append_iff.mp hsplit with ⟨mid, rfl, hrest⟩ | ⟨mid, rfl, hrest⟩
  · obtain rfl := mid_eq_nil_of_stamp hrest hc hc' hstamp
    obtain ⟨hr, hafter⟩ := List.cons.inj hrest
    exact ⟨(List.append_nil _).symm, hr, hafter⟩
  · obtain rfl := mid_eq_nil_of_stamp hrest hc' hc hstamp.symm
    obtain ⟨hr, hafter⟩ := List.cons.inj hrest
    exact ⟨List.append_nil _, hr.symm, hafter.symm⟩

/-! ## Where a stored copier is from -/

/-- The request `r`, which came after the requests `before`, compiled the copier `c` for a
pair of types.  The requests `after` it have neither cleared the cache nor compiled another
copier for the pair. -/
structure LastCompiled (start : CacheSession C) (pair : TypePair) (c : Copier C)
    (before : List (CacheRequest C)) (r : CacheRequest C) (after : List (CacheRequest C)) :
    Prop where
  uses : r.pair? = some pair
  compiled : (start.run before).compiled? r = some c
  uncleared : .clear ∉ after
  newest : ∀ mid r' later, after = mid ++ r' :: later → r'.pair? = some pair →
    (start.run (before ++ r :: mid)).compiled? r' = none

theorem lastCompiled_self (hpair : r.pair? = some pair)
    (hcompiled : (start.run before).compiled? r = some c) :
    start.LastCompiled pair c before r [] where
  uses := hpair
  compiled := hcompiled
  uncleared := nofun
  newest := by simp

theorem LastCompiled.snoc (h : start.LastCompiled pair c before r after) {r' : CacheRequest C}
    (hclear : r' ≠ .clear)
    (hnewest : r'.pair? = some pair → (start.run (before ++ r :: after)).compiled? r' = none) :
    start.LastCompiled pair c before r (after ++ [r']) where
  uses := h.uses
  compiled := h.compiled
  uncleared := by
    rw [List.mem_append, List.mem_singleton, not_or]
    exact ⟨h.uncleared, Ne.symm hclear⟩
  newest := by
    intro mid q later hsplit hpair
    rcases snoc_eq_split_iff.mp hsplit with ⟨rfl, rfl, -⟩ | ⟨later, -, hafter⟩
    · exact hnewest hpair
    · exact h.newest mid q later hafter hpair

/-- Every copier of a cache that was empty at the start is the latest one compiled for its
pair, and its lifetime counts from there. -/
theorem lastCompiled_of_mem (hstart : start.cache.store.entries = [])
    (requests : List (CacheRequest C)) :
    ∀ e ∈ (start.run requests).cache.store.entries, ∃ before r after,
      requests = before ++ r :: after ∧ start.LastCompiled e.key e.value before r after ∧
        e.deadline = (start.run before).now.add? start.cache.store.lifetime := by
  induction requests using List.reverseRecOn with
  | nil =>
      intro e he
      rw [show start.run [] = start from rfl, hstart] at he
      cases he
  | append_singleton requests r ih =>
      intro e he
      rw [run_snoc] at he
      rcases mem_step he with ⟨hpair, hcompiled, hdeadline⟩ | ⟨hold, hclear, hnewest⟩
      · rw [(start.run_limits requests).1] at hdeadline
        exact ⟨requests, r, [], rfl, lastCompiled_self hpair hcompiled, hdeadline⟩
      · obtain ⟨before, q, after, rfl, hlast, hdeadline⟩ := ih e hold
        exact ⟨before, q, after ++ [r], by simp, hlast.snoc hclear hnewest, hdeadline⟩

/-- The deadline of a stored copier counts from the request that compiled it. -/
theorem deadline_of_compiled (hstart : start.cache.store.entries = [])
    {e : Entry TypePair (Copier C)} (he : e ∈ (start.run requests).cache.store.entries)
    (hsplit : requests = before ++ r :: after)
    (hcompiled : (start.run before).compiled? r = some e.value) :
    e.deadline = (start.run before).now.add? start.cache.store.lifetime := by
  obtain ⟨before', r', after', hsplit', hlast, hdeadline⟩ := lastCompiled_of_mem hstart _ e he
  obtain ⟨rfl, -, -⟩ :=
    split_eq_of_stamp (hsplit'.symm.trans hsplit) hlast.compiled hcompiled rfl
  exact hdeadline

/-! ## The next lookup -/

theorem step_get_eq_copier_iff (s : CacheSession C) (source dest : Shape C) :
    (s.step (.get source dest)).1 = .copier c ↔ s.taken? (.get source dest) = some c := by
  show CacheAnswer.copier (s.cache.get s.now source dest).1 = _ ↔
    some (s.cache.get s.now source dest).1 = _
  rw [CacheAnswer.copier.injEq, Option.some.injEq]

/-- The copier that a request takes is stored afterwards. -/
theorem exists_of_taken (hpair : r.pair? = some pair) (htaken : s.taken? r = some c) :
    ∃ e ∈ (s.step r).2.cache.store.entries, e.key = pair ∧ e.value = c := by
  rcases s.use_cases hpair with ⟨c', hfound, htaken', -, hstep⟩ | ⟨c', -, -, htaken', -, hstep⟩
  · rw [htaken'] at htaken
    obtain rfl := Option.some.inj htaken
    rw [hstep]
    obtain ⟨e, hentry, hvalue, -, hget⟩ := Store.get_of_found hfound
    rw [hget]
    exact ⟨e, List.mem_cons_self, (Store.entry?_spec hentry).2, hvalue⟩
  · rw [htaken'] at htaken
    obtain rfl := Option.some.inj htaken
    rw [hstep]
    exact ⟨_, StoreSession.mem_step_insert ⟨s.now, (s.cache.store.get s.now pair).2⟩ pair c',
      rfl, rfl⟩

/-- The request `r`, which came after the requests `before`, was the last one to use a pair
of types and took the copier `c` for it. -/
structure LastUse (start : CacheSession C) (pair : TypePair) (c : Copier C)
    (before : List (CacheRequest C)) (r : CacheRequest C) (after : List (CacheRequest C)) :
    Prop where
  uses : r.pair? = some pair
  taken : (start.run before).taken? r = some c
  last : ∀ r' ∈ after, r'.pair? ≠ some pair

/-- The last use of a pair leaves its copier in the store. -/
theorem LastUse.exists_entry (h : start.LastUse pair c before r after) :
    ∃ e ∈ (start.run (before ++ [r])).cache.store.entries, e.key = pair ∧ e.value = c := by
  rw [run_snoc]
  exact exists_of_taken h.uses h.taken

/-- The copier of a use was compiled by that use or before. -/
theorem LastUse.exists_compiled (h : start.LastUse pair c before r after)
    (hstart : start.cache.store.entries = []) :
    ∃ origin q rest, before ++ [r] = origin ++ q :: rest ∧
      (start.run origin).compiled? q = some c := by
  obtain ⟨e, he, -, rfl⟩ := h.exists_entry
  obtain ⟨origin, q, rest, hsplit, hlast, -⟩ := lastCompiled_of_mem hstart _ e he
  exact ⟨origin, q, rest, hsplit, hlast.compiled⟩

/-- The pairs used since the last use of a pair, in the history of the store. -/
theorem LastUse.touchedSince_history (h : start.LastUse pair c before r after) :
    start.storeSession.touchedSince (start.history (before ++ r :: after)) pair =
      (after.filterMap (·.pair?)).toFinset := by
  have hunused : ∀ p ∈ (after.filterMap (·.pair?)).reverse, decide (p ≠ pair) = true := by
    intro p hp
    obtain ⟨r', hr', hpair⟩ := List.mem_filterMap.mp (List.mem_reverse.mp hp)
    apply decide_eq_true
    rintro rfl
    exact h.last r' hr' hpair
  unfold StoreSession.touchedSince
  rw [touches_history, List.filterMap_append, List.filterMap_cons_some h.uses,
    List.reverse_append, List.reverse_cons, List.append_assoc,
    List.takeWhile_append_of_pos hunused, List.singleton_append,
    List.takeWhile_cons_of_neg (by simp), List.append_nil, List.toFinset_reverse]

/-- In the history of the store, the insertion of what the last use of a pair left there is
the last one under the pair. -/
theorem LastUse.lastInserted_history (h : start.LastUse pair c before r after)
    (hstart : start.cache.store.entries = []) (hclear : .clear ∉ after)
    {e : Entry TypePair (Copier C)} (he : e ∈ (start.run (before ++ [r])).cache.store.entries)
    (hkey : e.key = pair) :
    ∃ earlier, LastInserted e.key e.value earlier (start.history (before ++ r :: after)) ∧
      e.deadline = (start.storeSession.run earlier).now.add? start.cache.store.lifetime := by
  have hmem : e ∈ (start.storeSession.run (start.history (before ++ [r]))).store.entries := by
    rw [← run_storeSession]
    exact he
  obtain ⟨earlier, ⟨later, hhistory, hlater⟩, hdeadline⟩ :=
    StoreSession.lastInserted_of_mem hstart hmem
  refine ⟨earlier, ⟨later ++ (start.run (before ++ [r])).history after, ?_, ?_⟩, hdeadline⟩
  · rw [← List.singleton_append, ← List.append_assoc, history_append, hhistory]
    simp
  · intro request hrequest
    rcases List.mem_append.mp hrequest with hrequest | hrequest
    · exact hlater request hrequest
    · rw [hkey]
      exact not_ends_of_mem_history h.last hclear request hrequest

/-- What the last use of a pair left in the store is still there as long as it is live,
nothing has cleared the cache since, and the pairs used since are fewer than the capacity. -/
theorem LastUse.mem_run (h : start.LastUse pair c before r after)
    (hstart : start.cache.store.entries = []) (hclear : .clear ∉ after)
    {e : Entry TypePair (Copier C)} (he : e ∈ (start.run (before ++ [r])).cache.store.entries)
    (hkey : e.key = pair)
    (hlive : ∀ deadline, e.deadline = some deadline →
      (start.run (before ++ r :: after)).now < deadline)
    (hrecent : (after.filterMap (·.pair?)).toFinset.card < start.cache.store.capacity) :
    e ∈ (start.run (before ++ r :: after)).cache.store.entries := by
  -- The store has seen the history of the requests, in which recent pairs are recent keys.
  have hrun := start.run_storeSession (before ++ r :: after)
  obtain ⟨earlier, hlast, hdeadline⟩ := h.lastInserted_history hstart hclear he hkey
  have hliveThen : ∀ deadline,
      (start.storeSession.run earlier).now.add? start.cache.store.lifetime = some deadline →
        (start.storeSession.run (start.history (before ++ r :: after))).now < deadline := by
    rw [← hrun, ← hdeadline]
    exact hlive
  have hrecentKeys : (start.storeSession.touchedSince (start.history (before ++ r :: after))
      e.key).card < start.storeSession.store.capacity := by
    rw [hkey, h.touchedSince_history]
    exact hrecent
  have hmem := StoreSession.mem_run_of_recent hstart hlast hliveThen hrecentKeys
  rw [← hrun] at hmem
  rw [show e = ⟨e.key, e.value, e.deadline⟩ from rfl, hdeadline]
  exact hmem

/-- A live copier is what the next lookup of its pair answers. -/
theorem run_get_of_mem (hstart : start.cache.store.entries = []) {source dest : Shape C}
    {e : Entry TypePair (Copier C)} (he : e ∈ (start.run requests).cache.store.entries)
    (hkey : e.key = (source.id, dest.id))
    (hlive : ∀ deadline, e.deadline = some deadline → (start.run requests).now < deadline) :
    ((start.run requests).step (.get source dest)).1 = .copier e.value := by
  have hfinds : ((start.run requests).cache.store.get (start.run requests).now
      (source.id, dest.id)).1 = some e.value := by
    rw [← hkey]
    exact (distinctKeys_run hstart requests).get_of_mem he ((e.isExpired_eq_false_iff _).mpr hlive)
  rw [step_get_eq_copier_iff]
  rcases (start.run requests).use_cases (r := .get source dest) rfl with
    ⟨c, hfound, htaken, -, -⟩ | ⟨c, hfound, -, -, -, -⟩
  · rw [htaken, ← hfound, ← hfinds]
  · rw [hfound] at hfinds
    cases hfinds

/-- The lookup after a list of requests answers the copier that the last use of its pair
took, as long as that copier is live, nothing has cleared the cache since that use, and
the pairs used since are fewer than the capacity. -/
theorem run_get_of_lastUse (hstart : start.cache.store.entries = []) {source dest : Shape C}
    (huse : start.LastUse (source.id, dest.id) c before r after)
    {origin rest : List (CacheRequest C)} {q : CacheRequest C}
    (horigin : before ++ [r] = origin ++ q :: rest)
    (hcompiled : (start.run origin).compiled? q = some c)
    (hlive : ∀ deadline, (start.run origin).now.add? start.cache.store.lifetime = some deadline →
      (start.run (before ++ r :: after)).now < deadline)
    (hclear : .clear ∉ after)
    (hrecent : (after.filterMap (·.pair?)).toFinset.card < start.cache.store.capacity) :
    ((start.run (before ++ r :: after)).step (.get source dest)).1 = .copier c := by
  obtain ⟨e, he, hkey, rfl⟩ := huse.exists_entry
  rw [← deadline_of_compiled hstart he horigin hcompiled] at hlive
  exact run_get_of_mem hstart (huse.mem_run hstart hclear he hkey hlive hrecent) hkey hlive

/-- What a lookup answers after a list of requests to a cache that was empty at the start,
if it is not compiled by the lookup itself, is the latest copier compiled for the pair.
It is live, and nothing has cleared the cache since. -/
theorem lastCompiled_of_run_get (hstart : start.cache.store.entries = [])
    (hsplit : requests = before ++ r :: after)
    (hcompiled : (start.run before).compiled? r = some c) {source dest : Shape C} {c' : Copier C}
    (hget : ((start.run requests).step (.get source dest)).1 = .copier c')
    (hstamp : c'.stamp = c.stamp) :
    c' = c ∧ start.LastCompiled (source.id, dest.id) c before r after ∧
      ∀ deadline, (start.run before).now.add? start.cache.store.lifetime = some deadline →
        (start.run requests).now < deadline := by
  rw [step_get_eq_copier_iff] at hget
  rcases (start.run requests).use_cases (r := .get source dest) rfl with
    ⟨found, hfound, htaken, -, -⟩ | ⟨new, -, hnew, htaken, -, -⟩
  · -- The store has it, so it is the latest of its pair, and its stamp tells which.
    rw [htaken] at hget
    obtain rfl := Option.some.inj hget
    obtain ⟨e, he, hkey, rfl, hlive⟩ := Store.exists_of_get hfound
    obtain ⟨before', r', after', hsplit', hlast, hdeadline⟩ := lastCompiled_of_mem hstart _ e he
    obtain ⟨rfl, rfl, rfl⟩ :=
      split_eq_of_stamp (hsplit'.symm.trans hsplit) hlast.compiled hcompiled hstamp
    have hvalue : e.value = c := Option.some.inj (hlast.compiled.symm.trans hcompiled)
    rw [hkey, hvalue] at hlast
    rw [e.isExpired_eq_false_iff, hdeadline] at hlive
    exact ⟨hvalue, hlast, hlive⟩
  · -- A new copier has a stamp that none before had.
    rw [htaken] at hget
    obtain rfl := Option.some.inj hget
    have hlt := stamp_lt_nextStamp hcompiled after
    rw [← hsplit, ← hnew, hstamp] at hlt
    exact absurd hlt (lt_irrefl _)

end CacheSession

end RecordKit
