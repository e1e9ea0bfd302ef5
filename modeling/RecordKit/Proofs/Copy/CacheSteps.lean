import RecordKit.Copy.Session
import RecordKit.Proofs.Expiring.Recency

/-!
# One request to a cache of copiers

A request uses the copier of a pair of types, or none.  A use takes the live copier of the
pair, or compiles one with a new stamp if there is none: `CacheSession.use_cases` says so
once, for lookups and copies alike.

Seen from the store below, a use is a lookup that finds the copier, or a lookup that finds
nothing and then an insertion.  Either way it uses the pair in the store once, and all
other requests use nothing there (`CacheSession.touches_storeRequests`).
-/

namespace RecordKit

variable {C : Type}

theorem Store.contains_eq_isSome_get {κ α : Type} [DecidableEq κ] (s : Store κ α)
    (now : Instant) (key : κ) : s.contains now key = (s.get now key).1.isSome := by
  unfold Store.contains
  rcases s.get_cases now key with ⟨hentry, hget⟩ | ⟨e, hentry, hexpired, hget⟩ |
    ⟨e, hentry, hlive, hget⟩
  · rw [hentry, hget]
    rfl
  · simp [hentry, hget, hexpired]
  · simp [hentry, hget, hlive]

namespace CacheRequest

/-- The shapes whose copier a request uses.  A copy of an empty list uses none. -/
def shapes? : CacheRequest C → Option (Shape C × Shape C)
  | .get source dest | .copy source dest _ _ | .copyList source dest _ (_ :: _) =>
      some (source, dest)
  | .copyList _ _ _ [] | .contains _ _ | .size | .purge | .clear | .advance _ => none

/-- The pair of types that a request uses. -/
def pair? (r : CacheRequest C) : Option TypePair :=
  r.shapes?.map fun (source, dest) => (source.id, dest.id)

/-- What a request that uses no pair asks of the store. -/
def upkeep? : CacheRequest C → Option (StoreRequest TypePair (Copier C))
  | .contains source dest => some (.contains (source, dest))
  | .purge => some .purge
  | .clear => some .clear
  | .advance span => some (.advance span)
  | .get _ _ | .copy _ _ _ _ | .copyList _ _ _ _ | .size => none

theorem pair?_eq_some_iff {r : CacheRequest C} {pair : TypePair} :
    r.pair? = some pair ↔
      ∃ source dest, r.shapes? = some (source, dest) ∧ pair = (source.id, dest.id) := by
  unfold pair?
  simp [eq_comm]

end CacheRequest

namespace CacheSession

variable [DecidableEq C] [UserType C] {s : CacheSession C} {r : CacheRequest C}
  {pair : TypePair} {c : Copier C}

/-- The copier that a request takes. -/
def taken? (s : CacheSession C) (r : CacheRequest C) : Option (Copier C) :=
  r.shapes?.map fun (source, dest) => (s.cache.get s.now source dest).1

/-- The copier that a request compiles, which it does if it uses a pair of types of which
there is no live copier. -/
def compiled? (s : CacheSession C) (r : CacheRequest C) : Option (Copier C) :=
  r.shapes?.bind fun (source, dest) =>
    if s.cache.contains s.now source.id dest.id then none
    else some (s.cache.get s.now source dest).1

/-- The session with the store of the cache. -/
def storeSession (s : CacheSession C) : StoreSession TypePair (Copier C) :=
  ⟨s.now, s.cache.store⟩

/-! ## Runs -/

theorem run_append (s : CacheSession C) (requests more : List (CacheRequest C)) :
    s.run (requests ++ more) = (s.run requests).run more :=
  List.foldl_append

theorem run_snoc (s : CacheSession C) (requests : List (CacheRequest C)) (r : CacheRequest C) :
    s.run (requests ++ [r]) = ((s.run requests).step r).2 :=
  s.run_append requests [r]

/-! ## Uses -/

/-- All requests that use a copier do to the cache what a lookup does. -/
theorem step_of_shapes {source dest : Shape C} (h : r.shapes? = some (source, dest)) :
    (s.step r).2 = ⟨s.now, (s.cache.get s.now source dest).2⟩ := by
  cases r with
  | get source' dest' | copy source' dest' d record =>
      cases h
      rfl
  | copyList source' dest' blank items =>
      cases items with
      | nil => cases h
      | cons item rest =>
          cases h
          rfl
  | _ => cases h

/-- A use takes the copier that the store finds, or compiles one and inserts it into the
store that is left. -/
theorem use_cases (s : CacheSession C) (h : r.pair? = some pair) :
    let found := s.cache.store.get s.now pair
    (∃ c, found.1 = some c ∧ s.taken? r = some c ∧ s.compiled? r = none ∧
        (s.step r).2 = ⟨s.now, { s.cache with store := found.2 }⟩) ∨
      ∃ c, found.1 = none ∧ c.stamp = s.cache.nextStamp ∧
        s.taken? r = some c ∧ s.compiled? r = some c ∧
        (s.step r).2 = ⟨s.now, ⟨(found.2.insert s.now pair c).2, s.cache.nextStamp + 1⟩⟩ := by
  intro found
  obtain ⟨source, dest, hshapes, rfl⟩ := CacheRequest.pair?_eq_some_iff.mp h
  have hcontains : s.cache.contains s.now source.id dest.id = found.1.isSome :=
    s.cache.store.contains_eq_isSome_get s.now (source.id, dest.id)
  rw [step_of_shapes hshapes]
  unfold taken? compiled?
  simp only [hshapes, Option.map_some, Option.bind_some, hcontains]
  unfold CopierCache.get
  rcases hfound : s.cache.store.get s.now (source.id, dest.id) with ⟨_ | c, store⟩
  · rw [show found = (none, store) from hfound]
    exact Or.inr ⟨_, rfl, rfl, rfl, rfl, rfl⟩
  · rw [show found = (some c, store) from hfound]
    exact Or.inl ⟨c, rfl, rfl, rfl, rfl⟩

/-- A request that uses no pair compiles nothing and asks the store for at most one
thing. -/
theorem step_of_no_pair (s : CacheSession C) (h : r.pair? = none) :
    (s.step r).2.cache.nextStamp = s.cache.nextStamp ∧
      (s.step r).2.storeSession = s.storeSession.run r.upkeep?.toList := by
  cases r with
  | get source dest | copy source dest d record => cases h
  | copyList source dest blank items =>
      cases items with
      | nil => exact ⟨rfl, rfl⟩
      | cons item rest => cases h
  | _ => exact ⟨rfl, rfl⟩

theorem pair?_of_taken (h : s.taken? r = some c) : ∃ pair, r.pair? = some pair := by
  obtain ⟨shapes, hshapes, -⟩ := Option.map_eq_some_iff.mp h
  exact ⟨_, by rw [CacheRequest.pair?, hshapes, Option.map_some]⟩

theorem taken_of_compiled (h : s.compiled? r = some c) : s.taken? r = some c := by
  obtain ⟨⟨source, dest⟩, hshapes, hget⟩ := Option.bind_eq_some_iff.mp h
  dsimp only at hget
  split at hget
  · cases hget
  · rw [taken?, hshapes, Option.map_some, ← hget]

/-- A copier is compiled with the next stamp, which is then gone. -/
theorem stamp_of_compiled (h : s.compiled? r = some c) :
    c.stamp = s.cache.nextStamp ∧ (s.step r).2.cache.nextStamp = s.cache.nextStamp + 1 := by
  obtain ⟨pair, hpair⟩ := pair?_of_taken (taken_of_compiled h)
  rcases s.use_cases hpair with ⟨c', -, -, hcompiled, -⟩ | ⟨c', -, hstamp, -, hcompiled, hstep⟩
  · rw [hcompiled] at h
    cases h
  · rw [hcompiled] at h
    cases h
    exact ⟨hstamp, by rw [hstep]⟩

theorem nextStamp_le_step (s : CacheSession C) (r : CacheRequest C) :
    s.cache.nextStamp ≤ (s.step r).2.cache.nextStamp := by
  cases hpair : r.pair? with
  | some pair =>
      rcases s.use_cases hpair with ⟨c, -, -, -, hstep⟩ | ⟨c, -, -, -, -, hstep⟩
      · rw [hstep]
      · rw [hstep]
        exact Nat.le_succ _
  | none => exact (s.step_of_no_pair hpair).1.ge

theorem nextStamp_le_run (s : CacheSession C) (requests : List (CacheRequest C)) :
    s.cache.nextStamp ≤ (s.run requests).cache.nextStamp := by
  induction requests generalizing s with
  | nil => exact le_refl _
  | cons r rest ih => exact (s.nextStamp_le_step r).trans (ih (s.step r).2)

/-! ## Seen from the store -/

/-- What a request asks of the store. -/
def storeRequests (s : CacheSession C) (r : CacheRequest C) :
    List (StoreRequest TypePair (Copier C)) :=
  match r.pair? with
  | some pair => .get pair :: (s.compiled? r).toList.map (.insert pair)
  | none => r.upkeep?.toList

theorem storeRequests_of_pair (h : r.pair? = some pair) :
    s.storeRequests r = .get pair :: (s.compiled? r).toList.map (.insert pair) := by
  unfold storeRequests
  rw [h]

theorem storeRequests_of_no_pair (h : r.pair? = none) :
    s.storeRequests r = r.upkeep?.toList := by
  unfold storeRequests
  rw [h]

/-- The store gets its requests, and nothing else happens to it. -/
theorem step_storeSession (s : CacheSession C) (r : CacheRequest C) :
    (s.step r).2.storeSession = s.storeSession.run (s.storeRequests r) := by
  cases hpair : r.pair? with
  | some pair =>
      rw [storeRequests_of_pair hpair]
      rcases s.use_cases hpair with ⟨c, -, -, hcompiled, hstep⟩ | ⟨c, -, -, -, hcompiled, hstep⟩
      · rw [hcompiled, hstep]
        rfl
      · rw [hcompiled, hstep]
        rfl
  | none =>
      rw [storeRequests_of_no_pair hpair]
      exact (s.step_of_no_pair hpair).2

/-- A use of a pair is one use of it as a key of the store, whether its copier is found
or compiled. -/
theorem touches_storeRequests (s : CacheSession C) (r : CacheRequest C) :
    s.storeSession.touches (s.storeRequests r) = r.pair?.toList := by
  cases hpair : r.pair? with
  | some pair =>
      rw [storeRequests_of_pair hpair]
      rcases s.use_cases hpair with ⟨c, hfound, -, hcompiled, -⟩ | ⟨c, hfound, -, -, hcompiled, -⟩
      · rw [hcompiled]
        simp [StoreSession.touches, StoreSession.touched?, storeSession, hfound]
      · rw [hcompiled]
        simp [StoreSession.touches, StoreSession.touched?, storeSession, hfound]
  | none =>
      rw [storeRequests_of_no_pair hpair]
      cases r with
      | get source dest | copy source dest d record => cases hpair
      | _ => rfl

/-- Only a use of a pair and a request to clear end what was inserted under the pair. -/
theorem not_ends_of_mem_storeRequests (hpair : r.pair? ≠ some pair) (hclear : r ≠ .clear) :
    ∀ q ∈ s.storeRequests r, ¬q.Ends pair := by
  intro q hq
  cases hother : r.pair? with
  | some other =>
      have hne : other ≠ pair := by
        rintro rfl
        exact hpair hother
      rw [storeRequests_of_pair hother, List.mem_cons, List.mem_map] at hq
      rcases hq with rfl | ⟨c, -, rfl⟩
      · exact id
      · exact hne
  | none =>
      rw [storeRequests_of_no_pair hother, Option.mem_toList] at hq
      cases r with
      | clear => exact absurd rfl hclear
      | _ => cases hq <;> exact id

/-- An entry found after a request stands for the copier that the request compiled, or it
was there before and the request neither cleared the cache nor compiled another copier for
its pair. -/
theorem mem_step {e : Entry TypePair (Copier C)} (he : e ∈ (s.step r).2.cache.store.entries) :
    (r.pair? = some e.key ∧ s.compiled? r = some e.value ∧
        e.deadline = s.now.add? s.cache.store.lifetime) ∨
      e ∈ s.cache.store.entries ∧ r ≠ .clear ∧
        (r.pair? = some e.key → s.compiled? r = none) := by
  cases hpair : r.pair? with
  | some pair =>
      have hclear : r ≠ .clear := by
        rintro rfl
        cases hpair
      rcases s.use_cases hpair with ⟨c, -, -, hcompiled, hstep⟩ | ⟨c, -, -, -, hcompiled, hstep⟩
      · rw [hstep] at he
        exact Or.inr ⟨Store.mem_of_mem_get he, hclear, fun _ => hcompiled⟩
      · rw [hstep] at he
        rcases Store.mem_of_mem_insert he with rfl | ⟨hold, hkey⟩
        · have hlifetime := (s.storeSession.step_limits (.get pair)).1
          exact Or.inl ⟨rfl, hcompiled, congrArg s.now.add? hlifetime⟩
        · refine Or.inr ⟨Store.mem_of_mem_get hold, hclear, ?_⟩
          intro h
          exact absurd (Option.some.inj h).symm hkey
  | none =>
      refine Or.inr ⟨?_, ?_, nofun⟩
      · cases r with
        | get source dest | copy source dest d record => cases hpair
        | copyList source dest blank items =>
            cases items with
            | nil => exact he
            | cons item rest => cases hpair
        | purge => exact Store.mem_of_mem_purge he
        | clear => cases he
        | _ => exact he
      · rintro rfl
        cases he

end CacheSession

end RecordKit
