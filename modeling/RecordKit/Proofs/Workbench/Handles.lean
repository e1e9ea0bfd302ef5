import RecordKit.Proofs.Copy.Reuse
import RecordKit.Proofs.Workbench.Caches

/-!
# All names of a cache lead to one session

Commands reach a cache through any of its names, and time passes for all caches.  What a
list of commands does to one cache is what a session with that cache does at the requests
that reach it (`Workbench.run_cacheSession`), whichever names they come through and
whatever else happens on the workbench.  So what is known of sessions holds for every name:
`Workbench.run_cacheGet_reuse` says when a lookup answers the copier it answered before.
-/

namespace RecordKit

namespace Workbench

variable {C : Type}

/-- The session with the cache of a number. -/
def cacheSession? (w : Workbench C) (ref : Nat) : Option (CacheSession C) :=
  (w.caches.get? ref).map fun cache => ⟨w.now, cache⟩

/-- The name of a cache and what a command asks of it.  A copy needs its two records. -/
def asks? (w : Workbench C) : Command C → Option (String × CacheRequest C)
  | .cacheGet name source dest => some (name, .get source dest)
  | .cacheContains name source dest => some (name, .contains source.id dest.id)
  | .cacheCopy name source dest =>
      match w.records.get? source, w.records.get? dest with
      | some s, some d => some (name, .copy s.shape d.shape d.data s.data)
      | _, _ => none
  | .cacheCopyList name source dest blank items =>
      some (name, .copyList source dest blank items)
  | .cacheSize name => some (name, .size)
  | .cacheClear name => some (name, .clear)
  | .cachePurge name => some (name, .purge)
  | _ => none

/-- The request with which a command reaches the cache of a number, through whichever of
its names. -/
def cacheRequest? (w : Workbench C) (ref : Nat) : Command C → Option (CacheRequest C)
  | .advance span => some (.advance span)
  | c => (w.asks? c).bind fun (name, request) =>
      if w.cacheNames.get? name = some ref then some request else none

variable {w : Workbench C} {ref : Nat} {s : CacheSession C} {name : String}

theorem cacheSession?_eq_some_iff :
    w.cacheSession? ref = some s ↔ w.caches.get? ref = some s.cache ∧ w.now = s.now := by
  obtain ⟨now, cache⟩ := s
  unfold cacheSession?
  simp [and_comm, eq_comm]

theorem firstIssue_fst (w : Workbench C) (ref stamp : Nat) :
    (w.firstIssue ref stamp).1 = (w.issued.lookup (ref, stamp)).getD w.commands := by
  unfold firstIssue
  cases w.issued.lookup (ref, stamp) <;> rfl

theorem cache?_of_name (hs : w.cacheSession? ref = some s)
    (hname : w.cacheNames.get? name = some ref) : w.cache? name = some (ref, s.cache) := by
  unfold cache?
  rw [hname]
  simp [(cacheSession?_eq_some_iff.mp hs).1]

variable [DecidableEq C] [UserType C]

/-- The requests with which a list of commands reaches the cache of a number. -/
def cacheRequests (w : Workbench C) (ref : Nat) : List (Command C) → List (CacheRequest C)
  | [] => []
  | c :: rest => (w.cacheRequest? ref c).toList ++ (w.step c).2.cacheRequests ref rest

/-- A command that asks something of a cache changes that cache alone, as a session with it
does. -/
theorem answer_of_asks {c : Command C} {request : CacheRequest C} {cache : CopierCache C}
    (hasks : w.asks? c = some (name, request)) (hcache : w.cache? name = some (ref, cache)) :
    let after := (CacheSession.step ⟨w.now, cache⟩ request).2
    (w.answer c).2.now = w.now ∧ after.now = w.now ∧
      (w.answer c).2.caches = w.caches.set ref after.cache := by
  intro after
  -- A command that only looks at its cache puts back what was there.
  have hsame : w.caches.set ref cache = w.caches := Pool.set_of_get? (get?_of_cache? hcache).2
  cases c with
  | cacheGet name' source dest =>
      cases hasks
      simp only [answer, hcache]
      unfold firstIssue
      split <;> exact ⟨rfl, rfl, rfl⟩
  | cacheContains name' source dest =>
      cases hasks
      simp only [answer, hcache, true_and]
      exact ⟨rfl, hsame.symm⟩
  | cacheCopy name' source dest =>
      simp only [asks?] at hasks
      split at hasks
      · next hs hd =>
          cases hasks
          simp only [answer, hcache, hs, hd]
          exact ⟨rfl, rfl, rfl⟩
      · cases hasks
  | cacheCopyList name' source dest blank items =>
      cases hasks
      simp only [answer, hcache]
      exact ⟨rfl, rfl, rfl⟩
  | cacheSize name' =>
      cases hasks
      simp only [answer, hcache, true_and]
      exact ⟨rfl, hsame.symm⟩
  | cacheClear name' =>
      cases hasks
      simp only [answer, hcache]
      exact ⟨rfl, rfl, rfl⟩
  | cachePurge name' =>
      cases hasks
      simp only [answer, hcache]
      exact ⟨rfl, rfl, rfl⟩
  | _ => cases hasks

/-- A command that asks something of a cache which is not there does nothing. -/
theorem answer_of_no_cache {c : Command C} {request : CacheRequest C}
    (hasks : w.asks? c = some (name, request)) (hcache : w.cache? name = none) :
    (w.answer c).2 = w := by
  cases c with
  | cacheGet name' source dest | cacheContains name' source dest
  | cacheCopyList name' source dest blank items | cacheSize name' | cacheClear name'
  | cachePurge name' =>
      cases hasks
      simp only [answer, hcache]
  | cacheCopy name' source dest =>
      simp only [asks?] at hasks
      split at hasks
      · cases hasks
        simp only [answer, hcache]
      · cases hasks
  | _ => cases hasks

/-- All other commands leave the caches that exist alone, and the time but for `advance`. -/
theorem answer_of_no_asks {c : Command C} (hasks : w.asks? c = none)
    (hadvance : ∀ span, c ≠ .advance span) :
    (w.answer c).2.now = w.now ∧
      ∀ ref cache, w.caches.get? ref = some cache → (w.answer c).2.caches.get? ref = some cache := by
  cases c with
  | define name r => exact ⟨rfl, fun _ _ => id⟩
  | «recall» name | read name shape | copy source dest plan | cacheClone name newName
  | registryClone name newName =>
      simp only [answer]
      split <;> exact ⟨rfl, fun _ _ => id⟩
  | cacheNew name lifetime capacity =>
      refine ⟨rfl, ?_⟩
      intro ref cache hcache
      have hlt : ref < w.caches.objects.length := (List.getElem?_eq_some_iff.mp hcache).1
      exact (w.caches.get?_add_old _ hlt).trans hcache
  | cacheGet name source dest | cacheContains name source dest
  | cacheCopyList name source dest blank items | cacheSize name | cacheClear name
  | cachePurge name => cases hasks
  | cacheCopy name source dest =>
      simp only [answer]
      split
      · next hs hd =>
          simp only [asks?, hs, hd] at hasks
          cases hasks
      · exact ⟨rfl, fun _ _ => id⟩
  | advance span => exact absurd rfl (hadvance span)
  | registryNew name withDefaults => exact ⟨rfl, fun _ _ => id⟩
  | setupDefaults name | register name rule predicate | unregister name rule
  | ruleNames name =>
      simp only [answer, changeRegistry]
      split <;> exact ⟨rfl, fun _ _ => id⟩
  | lookup name rule v arg =>
      simp only [answer]
      split
      · split <;> exact ⟨rfl, fun _ _ => id⟩
      · exact ⟨rfl, fun _ _ => id⟩
  | check name record shape =>
      simp only [answer]
      split <;> exact ⟨rfl, fun _ _ => id⟩

/-! ## Commands and runs -/

section

variable {c : Command C} {request : CacheRequest C}

theorem cacheSession?_answer_of_name (hs : w.cacheSession? ref = some s)
    (hasks : w.asks? c = some (name, request)) (hname : w.cacheNames.get? name = some ref) :
    (w.answer c).2.cacheSession? ref = some (s.step request).2 := by
  obtain ⟨hcache, hnow⟩ := cacheSession?_eq_some_iff.mp hs
  obtain ⟨hkeeps, hafter, hcaches⟩ := answer_of_asks hasks (cache?_of_name hs hname)
  rw [hnow] at hafter hcaches
  rw [cacheSession?_eq_some_iff, hcaches, hkeeps, hnow]
  exact ⟨w.caches.get?_set_self _ (List.getElem?_eq_some_iff.mp hcache).1, hafter.symm⟩

/-- A command that goes to another cache, or to none, leaves this one alone. -/
theorem cacheSession?_answer_of_other (hs : w.cacheSession? ref = some s)
    (hasks : w.asks? c = some (name, request)) (hname : w.cacheNames.get? name ≠ some ref) :
    (w.answer c).2.cacheSession? ref = some s := by
  cases hcache : w.cache? name with
  | none => rwa [answer_of_no_cache hasks hcache]
  | some found =>
      obtain ⟨other, cache⟩ := found
      have hne : other ≠ ref := by
        rintro rfl
        exact hname (get?_of_cache? hcache).1
      obtain ⟨hkeeps, -, hcaches⟩ := answer_of_asks hasks hcache
      rw [cacheSession?_eq_some_iff] at hs ⊢
      rwa [hcaches, hkeeps, Pool.get?_set_other _ _ hne]

theorem cacheSession?_answer_of_no_asks (hs : w.cacheSession? ref = some s)
    (hasks : w.asks? c = none) (hadvance : ∀ span, c ≠ .advance span) :
    (w.answer c).2.cacheSession? ref = some s := by
  obtain ⟨hkeeps, hcaches⟩ := answer_of_no_asks hasks hadvance
  rw [cacheSession?_eq_some_iff] at hs ⊢
  exact ⟨hcaches ref _ hs.1, hkeeps.trans hs.2⟩

end

/-- A command does to a cache what a session with it does at the request, if any, with which
the command reaches it. -/
theorem step_cacheSession (hs : w.cacheSession? ref = some s) (c : Command C) :
    (w.step c).2.cacheSession? ref = some (s.run (w.cacheRequest? ref c).toList) := by
  -- The count of the commands is no part of a session.
  show (w.answer c).2.cacheSession? ref = _
  by_cases hadvance : ∃ span, c = .advance span
  · obtain ⟨span, rfl⟩ := hadvance
    obtain ⟨hcache, hnow⟩ := cacheSession?_eq_some_iff.mp hs
    rw [cacheSession?_eq_some_iff]
    exact ⟨hcache, congrArg (·.advance span) hnow⟩
  · have hrequest : w.cacheRequest? ref c = (w.asks? c).bind fun (name, request) =>
        if w.cacheNames.get? name = some ref then some request else none := by
      unfold cacheRequest?
      split
      · exact absurd ⟨_, rfl⟩ hadvance
      · rfl
    rw [hrequest]
    cases hasks : w.asks? c with
    | none => exact cacheSession?_answer_of_no_asks hs hasks fun span h => hadvance ⟨span, h⟩
    | some asked =>
        obtain ⟨name, request⟩ := asked
        rw [Option.bind_some]
        dsimp only
        split
        · next hname => exact cacheSession?_answer_of_name hs hasks hname
        · next hname => exact cacheSession?_answer_of_other hs hasks hname

theorem run_cacheSession (hs : w.cacheSession? ref = some s) (commands : List (Command C)) :
    (w.run commands).cacheSession? ref = some (s.run (w.cacheRequests ref commands)) := by
  induction commands generalizing w s with
  | nil => exact hs
  | cons c rest ih =>
      rw [cacheRequests, CacheSession.run_append]
      exact ih (step_cacheSession hs c)

/-! ## Names -/

theorem step_cacheClone (hs : w.cacheSession? ref = some s)
    (hname : w.cacheNames.get? name = some ref) (newName : String) :
    (w.step (.cacheClone name newName)).2.cacheNames.get? newName = some ref := by
  simp only [step, answer, cache?_of_name hs hname]
  exact w.cacheNames.get?_insert_self newName ref

/-- A lookup through a name hands out the copier that the session answers, known by the
number of the first command that did so. -/
theorem step_cacheGet (hs : w.cacheSession? ref = some s)
    (hname : w.cacheNames.get? name = some ref) {source dest : Shape C} {c : Copier C}
    (hget : (s.step (.get source dest)).1 = .copier c) :
    (w.step (.cacheGet name source dest)).1 =
      .issued ((w.issued.lookup (ref, c.stamp)).getD w.commands) c.plan.actions.length := by
  have hcopier : (s.cache.get s.now source dest).1 = c := CacheAnswer.copier.inj hget
  have hnow : w.now = s.now := (cacheSession?_eq_some_iff.mp hs).2
  simp only [step, answer, cache?_of_name hs hname]
  rw [firstIssue_fst, hnow, hcopier]
  rfl

/-! ## The next lookup -/

/-- Let commands reach a cache, empty at the start, through any of its names, which clones
of a name add to.  Then the lookup that comes next answers, through any of them, the copier
that the last use of its pair of types took, as long as the lifetime of that copier has not
passed since it was compiled, nothing has cleared the cache since that use, and the pairs
used since are fewer than the capacity.  A copy of an empty list, a request for the size
and a look whether there is a copier are no uses.  And no lookup answers a copier whose
lifetime has passed, or after the cache has been cleared or another copier compiled for the
pair since that one was. -/
theorem run_cacheGet_reuse {start : Workbench C} {s₀ : CacheSession C}
    (hs₀ : start.cacheSession? ref = some s₀) (hempty : s₀.cache.store.entries = [])
    (commands : List (Command C)) :
    let w := start.run commands
    let requests := start.cacheRequests ref commands
    let s := s₀.run requests
    let lifetime := s₀.cache.store.lifetime
    w.cacheSession? ref = some s ∧
      (∀ name, w.cacheNames.get? name = some ref →
        (∀ newName,
          (w.step (.cacheClone name newName)).2.cacheNames.get? newName = some ref) ∧
        ∀ source dest c, (s.step (.get source dest)).1 = .copier c →
          (w.step (.cacheGet name source dest)).1 =
            .issued ((w.issued.lookup (ref, c.stamp)).getD w.commands) c.plan.actions.length) ∧
      (∀ before r after source dest c, requests = before ++ r :: after →
        s₀.LastUse (source.id, dest.id) c before r after →
          (∃ origin q rest, before ++ [r] = origin ++ q :: rest ∧
            (s₀.run origin).compiled? q = some c) ∧
          ∀ origin q rest, before ++ [r] = origin ++ q :: rest →
            (s₀.run origin).compiled? q = some c →
            (∀ deadline, (s₀.run origin).now.add? lifetime = some deadline → s.now < deadline) →
            .clear ∉ after →
            (after.filterMap (·.pair?)).toFinset.card < s₀.cache.store.capacity →
              (s.step (.get source dest)).1 = .copier c) ∧
      ∀ before r after c, requests = before ++ r :: after →
        (s₀.run before).compiled? r = some c →
        ∀ source dest c', (s.step (.get source dest)).1 = .copier c' → c'.stamp = c.stamp →
          c' = c ∧ s₀.LastCompiled (source.id, dest.id) c before r after ∧
            ∀ deadline, (s₀.run before).now.add? lifetime = some deadline → s.now < deadline := by
  intro w requests s lifetime
  have hs : w.cacheSession? ref = some s := run_cacheSession hs₀ commands
  refine ⟨hs, ?_, ?_, ?_⟩
  · intro name hname
    exact ⟨step_cacheClone hs hname, fun _ _ _ => step_cacheGet hs hname⟩
  · intro before r after source dest c hsplit huse
    refine ⟨huse.exists_compiled hempty, ?_⟩
    intro origin q rest horigin hcompiled hlive hclear hrecent
    simp only [s, hsplit] at hlive ⊢
    exact CacheSession.run_get_of_lastUse hempty huse horigin hcompiled hlive hclear hrecent
  · intro before r after c hsplit hcompiled source dest c' hget hstamp
    exact CacheSession.lastCompiled_of_run_get hempty hsplit hcompiled hget hstamp

/-- Room for two copiers, and two names.  At 9 seconds the copier compiled at the start is
answered again: one other pair has been used since, and the copy of an empty list does not
count. -/
theorem run_cacheGet_reuse_shared :
    let start : Workbench SampleType := empty.run
      [.cacheNew "plans" (Span.ofSecs 10) 2, .cacheClone "plans" "shared"]
    let s₀ : CacheSession SampleType := ⟨Instant.start, CopierCache.new (Span.ofSecs 10) 2⟩
    let copier : Copier SampleType := ⟨0, CopyPlan.compile Sample.flat Sample.nested⟩
    let commands : List (Command SampleType) :=
      [ .cacheGet "shared" Sample.flat Sample.nested,
        .advance (Span.ofSecs 4),
        .cacheGet "plans" Sample.nested Sample.flat,
        .cacheCopyList "plans" Sample.flat Sample.flat (.record []) [],
        .advance (Span.ofSecs 5) ]
    let first : CacheRequest SampleType := .get Sample.flat Sample.nested
    let after : List (CacheRequest SampleType) :=
      [ .advance (Span.ofSecs 4),
        .get Sample.nested Sample.flat,
        .copyList Sample.flat Sample.flat (.record []) [],
        .advance (Span.ofSecs 5) ]
    start.cacheSession? 0 = some s₀ ∧ s₀.cache.store.entries = [] ∧
      start.cacheRequests 0 commands = first :: after ∧
      ((s₀.run (first :: after)).step first).1 = .copier copier ∧
      s₀.LastCompiled (Sample.flat.id, Sample.nested.id) copier [] first after := by
  intro start s₀ copier commands first after
  have hs₀ : start.cacheSession? 0 = some s₀ := rfl
  have hempty : s₀.cache.store.entries = [] := rfl
  have hrequests : start.cacheRequests 0 commands = first :: after := rfl
  obtain ⟨-, -, hreuse, hfresh⟩ := run_cacheGet_reuse hs₀ hempty commands
  rw [hrequests] at hreuse hfresh
  have hcompiled : (s₀.run []).compiled? first = some copier := rfl
  have huse : s₀.LastUse (Sample.flat.id, Sample.nested.id) copier [] first after := by
    refine ⟨rfl, rfl, ?_⟩
    simp only [after, List.forall_mem_cons]
    decide
  have hlive : ∀ deadline, (s₀.run []).now.add? s₀.cache.store.lifetime = some deadline →
      (s₀.run (first :: after)).now < deadline := by
    have hend : (s₀.run []).now.add? s₀.cache.store.lifetime =
        some ⟨1010, 0, by decide, by decide, by decide⟩ := by
      decide
    intro deadline h
    obtain rfl := Option.some.inj (hend.symm.trans h)
    decide
  have hrecent : (after.filterMap (·.pair?)).toFinset.card < s₀.cache.store.capacity := by
    decide
  have hget : ((s₀.run (first :: after)).step first).1 = .copier copier :=
    (hreuse [] first after Sample.flat Sample.nested copier rfl huse).2 [] first [] rfl hcompiled
      hlive (by simp [after]) hrecent
  have hlast := (hfresh [] first after copier rfl hcompiled Sample.flat Sample.nested copier hget
    rfl).2.1
  exact ⟨hs₀, hempty, hrequests, hget, hlast⟩

end Workbench

end RecordKit
