import RecordKit.Proofs.Dictionary.Identity
import RecordKit.Proofs.Expiring.History

/-!
# Lookups at a type

A dictionary keeps values of any types, and a lookup at a type finds a value only if it was
recorded at that type.  A library changes the store of a dictionary as a session with that
store does, with the requests that reach it through its handle
(`DictLibrary.storeSession?_run`), so what is known of stores holds of dictionaries.

`DictLibrary.run_findAs` says what this means for lookups at a type: what they find was
recorded last, and a value of another type is refused and used all the same.
-/

namespace RecordKit

variable {τ ν : Type}

namespace DictRequest

/-- What a request asks of the store of a dictionary, if anything. -/
def storeRequest? : DictRequest τ ν → Option (StoreRequest String (TypedValue τ ν))
  | .record key value | .recordValue key value => some (.insert key value)
  | .find key | .findAs key _ => some (.get key)
  | .contains key => some (.contains key)
  | .remove key => some (.remove key)
  | .removeAll => some .clear
  | .purge => some .purge
  | .name | .size | .isEmpty | .summary => none

/-- The requests that put a value under a key. -/
inductive Records (key : String) (value : TypedValue τ ν) : DictRequest τ ν → Prop
  | record : Records key value (.record key value)
  | recordValue : Records key value (.recordValue key value)

/-- The requests after which nothing recorded under a key before counts any more. -/
def Ends (key : String) : DictRequest τ ν → Prop
  | .record other _ | .recordValue other _ | .remove other => other = key
  | .removeAll => True
  | .name | .find _ | .findAs _ _ | .contains _ | .purge | .size | .isEmpty | .summary => False

variable {key : String} {value : TypedValue τ ν} {r : DictRequest τ ν}

theorem records_of_insert (h : r.storeRequest? = some (.insert key value)) :
    r.Records key value := by
  cases r with
  | record other value' =>
      cases h
      exact .record
  | recordValue other value' =>
      cases h
      exact .recordValue
  | _ => cases h

theorem Ends.exists_storeRequest (h : r.Ends key) :
    ∃ q, r.storeRequest? = some q ∧ q.Ends key := by
  cases r with
  | record other value => exact ⟨.insert other value, rfl, h⟩
  | recordValue other value => exact ⟨.insert other value, rfl, h⟩
  | remove other => exact ⟨.remove other, rfl, h⟩
  | removeAll => exact ⟨.clear, rfl, h⟩
  | _ => exact absurd h id

variable [DecidableEq τ]

/-- A request changes the store of a dictionary as the request to the store does. -/
theorem store_answer (now : Instant) (d : Dict (TypedValue τ ν)) (r : DictRequest τ ν) :
    (⟨now, (r.answer now d).2.store⟩ : StoreSession String (TypedValue τ ν)) =
      StoreSession.run ⟨now, d.store⟩ r.storeRequest?.toList := by
  cases r <;> rfl

end DictRequest

/-- A lookup at a type finds what a lookup finds that was recorded at this type. -/
theorem Dict.fst_findAs_eq_some_iff [DecidableEq τ] {now : Instant} {key : String} {type : τ}
    {d : Dict (TypedValue τ ν)} {value : ν} :
    (d.findAs now key type).1 = some value ↔ (d.find now key).1 = some ⟨type, value⟩ := by
  show (((d.find now key).1.filter (·.type = type)).map (·.value)) = some value ↔ _
  simp only [Option.map_eq_some_iff, Option.filter_eq_some_iff, decide_eq_true_eq]
  constructor
  · rintro ⟨⟨_, _⟩, ⟨hfound, rfl⟩, rfl⟩
    exact hfound
  · intro hfound
    exact ⟨⟨type, value⟩, ⟨hfound, rfl⟩, rfl⟩

/-- What a command asks of the store of the dictionary of a number, if anything.  Time
passes for every store. -/
def LibraryCommand.storeRequest? (ref : DictRef) :
    LibraryCommand τ ν → Option (StoreRequest String (TypedValue τ ν))
  | .advance span => some (.advance span)
  | c => (c.request? ref).bind DictRequest.storeRequest?

theorem LibraryCommand.exists_use_of_insert {ref : DictRef} {c : LibraryCommand τ ν}
    {key : String} {value : TypedValue τ ν}
    (h : c.storeRequest? ref = some (.insert key value)) :
    ∃ r, c = .use ref r ∧ r.Records key value := by
  cases c with
  | use other r =>
      by_cases href : other = ref
      · subst href
        have hrequest : r.storeRequest? = some (.insert key value) := by
          simpa [storeRequest?, request?] using h
        exact ⟨r, rfl, DictRequest.records_of_insert hrequest⟩
      · simp [storeRequest?, request?, href] at h
  | _ => cases h

/-- After the commands `before` the list records a value under a key of a dictionary, and
nothing later in the list ends that. -/
def LastRecorded (ref : DictRef) (key : String) (value : TypedValue τ ν)
    (before commands : List (LibraryCommand τ ν)) : Prop :=
  ∃ r after, commands = before ++ .use ref r :: after ∧ r.Records key value ∧
    ∀ r', .use ref r' ∈ after → ¬r'.Ends key

/-- The latest insertion into a store is the latest record of the dictionary. -/
theorem lastRecorded_of_lastInserted {ref : DictRef} {key : String} {value : TypedValue τ ν}
    {commands : List (LibraryCommand τ ν)} {earlier : List (StoreRequest String (TypedValue τ ν))}
    (h : LastInserted key value earlier (commands.filterMap (·.storeRequest? ref))) :
    ∃ before, LastRecorded ref key value before commands ∧
      before.filterMap (·.storeRequest? ref) = earlier := by
  obtain ⟨later, hsplit, hlater⟩ := h
  obtain ⟨before, rest, rfl, hbefore, hrest⟩ := List.filterMap_eq_append_iff.mp hsplit
  obtain ⟨skipped, c, after, rfl, hskipped, hc, hafter⟩ := List.filterMap_eq_cons_iff.mp hrest
  obtain ⟨r, rfl, hr⟩ := LibraryCommand.exists_use_of_insert hc
  refine ⟨before ++ skipped, ⟨r, after, by simp, hr, ?_⟩, ?_⟩
  · intro r' hr' hends
    obtain ⟨q, hq, hqends⟩ := hends.exists_storeRequest
    have hmem : q ∈ later := by
      rw [← hafter, List.mem_filterMap]
      exact ⟨_, hr', by simpa [LibraryCommand.storeRequest?, LibraryCommand.request?] using hq⟩
    exact hlater q hmem hqends
  · rw [List.filterMap_append, hbefore, List.filterMap_eq_nil_iff.mpr hskipped, List.append_nil]

namespace DictLibrary

/-- The session with the store of a dictionary. -/
def storeSession? {α : Type} (lib : DictLibrary α) (ref : DictRef) :
    Option (StoreSession String α) :=
  (lib.dicts.get? ref).map fun d => ⟨lib.now, d.store⟩

theorem now_of_obtain? {α : Type} {lib lib' : DictLibrary α} {source : DictSource α}
    {ref : DictRef} (h : lib.obtain? source = some (ref, lib')) : lib'.now = lib.now := by
  cases source with
  | new d =>
      cases h
      rfl
  | held other =>
      obtain ⟨d, -, h⟩ := Option.map_eq_some_iff.mp h
      cases h
      rfl

variable [DecidableEq τ] {lib : DictLibrary (TypedValue τ ν)} {ref : DictRef}
  {d : Dict (TypedValue τ ν)} {s : StoreSession String (TypedValue τ ν)}

/-- Time passes only when a command says so. -/
theorem now_step (lib : DictLibrary (TypedValue τ ν)) (c : LibraryCommand τ ν) :
    (lib.step c).2.now = match c with
      | .advance span => lib.now.advance span
      | _ => lib.now := by
  cases c with
  | getOrInsertWith dir key make =>
      simp only [step]
      split
      · split
        · rfl
        · split
          · next other lib' hobtain =>
              show lib'.now = lib.now
              exact now_of_obtain? hobtain
          · rfl
      · rfl
  | advance span | create d | createDirectory => rfl
  | _ =>
      simp only [step]
      split <;> rfl

/-- A command reaches the store of a dictionary as a request, or not at all. -/
theorem storeSession?_step (hs : lib.storeSession? ref = some s) (c : LibraryCommand τ ν) :
    (lib.step c).2.storeSession? ref = some (s.run (c.storeRequest? ref).toList) := by
  obtain ⟨d, hd, rfl⟩ := Option.map_eq_some_iff.mp hs
  rw [storeSession?, step_dict hd c, now_step, Option.map_some]
  congr 1
  cases c with
  | use other request =>
      by_cases href : other = ref
      · simpa [LibraryCommand.request?, LibraryCommand.storeRequest?, href, Dict.after] using
          request.store_answer lib.now d
      · simp [LibraryCommand.request?, LibraryCommand.storeRequest?, href, Dict.after,
          StoreSession.run]
  | _ => rfl

/-- A library changes the store of a dictionary as a session with that store does. -/
theorem storeSession?_run (hs : lib.storeSession? ref = some s)
    (commands : List (LibraryCommand τ ν)) :
    (lib.run commands).storeSession? ref =
      some (s.run (commands.filterMap (·.storeRequest? ref))) := by
  induction commands generalizing lib s with
  | nil => exact hs
  | cons c rest ih =>
      have hrest : (c :: rest).filterMap (·.storeRequest? ref) =
          (c.storeRequest? ref).toList ++ rest.filterMap (·.storeRequest? ref) := by
        cases h : c.storeRequest? ref <;> simp [h]
      rw [hrest, StoreSession.run_append]
      exact ih (storeSession?_step hs c)

/-- The clock of a library is that of the session with the store. -/
theorem now_run (hs : lib.storeSession? ref = some s) (commands : List (LibraryCommand τ ν)) :
    (lib.run commands).now = (s.run (commands.filterMap (·.storeRequest? ref))).now := by
  obtain ⟨d, -, hsession⟩ := Option.map_eq_some_iff.mp (storeSession?_run hs commands)
  rw [← hsession]

/-- In a dictionary that was empty at the start a lookup finds what was recorded last, as long
as the lifetime counted from then has not passed. -/
theorem lastRecorded_of_find {start : DictLibrary (TypedValue τ ν)}
    {old : Dict (TypedValue τ ν)} {commands : List (LibraryCommand τ ν)} {key : String}
    {value : TypedValue τ ν} (hd : start.dicts.get? ref = some d) (hempty : d.store.entries = [])
    (hold : (start.run commands).dicts.get? ref = some old)
    (hfind : (old.find (start.run commands).now key).1 = some value) :
    ∃ before, LastRecorded ref key value before commands ∧
      ∀ deadline, (start.run before).now.add? d.store.lifetime = some deadline →
        (start.run commands).now < deadline := by
  have hstart : start.storeSession? ref = some ⟨start.now, d.store⟩ := by
    rw [storeSession?, hd, Option.map_some]
  have hsession := storeSession?_run hstart commands
  rw [storeSession?, hold, Option.map_some, Option.some.injEq] at hsession
  obtain ⟨e, he, rfl, rfl, hlive⟩ := Store.exists_of_get hfind
  have hmem : e ∈ (StoreSession.run ⟨start.now, d.store⟩
      (commands.filterMap (·.storeRequest? ref))).store.entries := by
    rw [← hsession]
    exact he
  obtain ⟨earlier, hinserted, hdeadline⟩ := StoreSession.lastInserted_of_mem hempty hmem
  obtain ⟨before, hrecorded, rfl⟩ := lastRecorded_of_lastInserted hinserted
  refine ⟨before, hrecorded, ?_⟩
  intro deadline hend
  rw [now_run hstart] at hend
  exact (e.isExpired_eq_false_iff _).mp hlive deadline (hdeadline.trans hend)

/-- A lookup at a type changes a library as a lookup does. -/
theorem snd_step_findAs (lib : DictLibrary (TypedValue τ ν)) (ref : DictRef) (key : String)
    (type : τ) :
    (lib.step (.use ref (.findAs key type))).2 = (lib.step (.use ref (.find key))).2 := by
  cases hd : lib.dicts.get? ref with
  | none => simp only [step, hd]
  | some d =>
      simp only [step, hd]
      rfl

/-- Take a dictionary that is empty at the start and do with its library what you like.  What
a lookup at a type then finds was recorded last under its key, at this type; nothing has
removed it since, and the lifetime counted from that record has not passed, unless its end
is out of range.

A lookup at a type does to the library what a lookup without one does, whatever it
finds.  If that would find a value, then the lookup at a type answers with it or, at another
type than that of the value, with nothing; in both cases the entry stays with its deadline
and comes first in the order of use. -/
theorem run_findAs {start : DictLibrary (TypedValue τ ν)} {ref : DictRef}
    {d : Dict (TypedValue τ ν)} (hd : start.dicts.get? ref = some d)
    (hempty : d.store.entries = []) (commands : List (LibraryCommand τ ν)) (key : String)
    (type : τ) :
    (∀ value,
      ((start.run commands).step (.use ref (.findAs key type))).1 =
          .used (.untyped (some value)) →
        ∃ before, LastRecorded ref key ⟨type, value⟩ before commands ∧
          ∀ deadline, (start.run before).now.add? d.store.lifetime = some deadline →
            (start.run commands).now < deadline) ∧
    ((start.run commands).step (.use ref (.findAs key type))).2 =
      ((start.run commands).step (.use ref (.find key))).2 ∧
    ∀ found,
      ((start.run commands).step (.use ref (.find key))).1 = .used (.value (some found)) →
        ((start.run commands).step (.use ref (.findAs key type))).1 =
          .used (.untyped (if found.type = type then some found.value else none)) ∧
        ∃ old e,
          (start.run commands).dicts.get? ref = some old ∧
          old.store.entry? key = some e ∧ e.value = found ∧
          ((start.run commands).step (.use ref (.findAs key type))).2.dicts.get? ref =
            some { old with
              store := { old.store with entries := e :: old.store.others key } } := by
  obtain ⟨old, hold⟩ : ∃ old, (start.run commands).dicts.get? ref = some old :=
    ⟨_, run_dict hd commands⟩
  have hserves := serves_of_get? hold
  refine ⟨?_, snd_step_findAs _ ref key type, ?_⟩
  · intro value hvalue
    rw [hserves.answer] at hvalue
    have hfind : (old.findAs (start.run commands).now key type).1 = some value := by
      simpa [DictRequest.answer] using hvalue
    exact lastRecorded_of_find hd hempty hold (Dict.fst_findAs_eq_some_iff.mp hfind)
  · intro found hfound
    rw [hserves.answer] at hfound ⊢
    have hfind : (old.find (start.run commands).now key).1 = some found := by
      simpa [DictRequest.answer] using hfound
    constructor
    · simp only [DictRequest.answer, Dict.findAs, hfind, Option.filter_some, decide_eq_true_eq]
      split <;> rfl
    · obtain ⟨e, hentry, hevalue, -, hstore⟩ := Store.get_of_found hfind
      refine ⟨old, e, hold, hentry, hevalue, ?_⟩
      rw [step_dict hold, ← hstore]
      simp [LibraryCommand.request?, Dict.after, DictRequest.answer, Dict.findAs, Dict.find]

/-- A table with room for two values that live for ten seconds. -/
def smallTable : DictLibrary (TypedValue String Nat) :=
  (empty.create (Dict.withLimits "table" (Span.ofSecs 10) 2)).2

/-- A value is recorded again at another type and asked for at the old one.  It comes before
the value under the other key for that, and the third key pushes the other one out. -/
def retyping : List (LibraryCommand String Nat) :=
  [ .use 0 (.recordValue "a" ⟨"text", 1⟩), .use 0 (.recordValue "a" ⟨"nat", 7⟩),
    .use 0 (.recordValue "b" ⟨"nat", 8⟩), .advance (Span.ofSecs 6),
    .use 0 (.findAs "a" "text"), .use 0 (.recordValue "c" ⟨"nat", 9⟩) ]

/-- The lookup at the old type finds nothing, and the value is there for the new type. -/
theorem run_retyping_findAs :
    let lib := smallTable.run retyping
    let d := Dict.withLimits "table" (Span.ofSecs 10) 2
    smallTable.dicts.get? 0 = some d ∧ d.store.entries = [] ∧
      (lib.step (.use 0 (.findAs "b" "nat"))).1 = .used (.untyped none) ∧
      (lib.step (.use 0 (.findAs "a" "text"))).1 = .used (.untyped none) ∧
      (lib.step (.use 0 (.findAs "a" "nat"))).1 = .used (.untyped (some 7)) ∧
      ∃ before, LastRecorded 0 "a" ⟨"nat", 7⟩ before retyping ∧
        ∀ deadline, (smallTable.run before).now.add? d.store.lifetime = some deadline →
          lib.now < deadline := by
  intro lib d
  have hd : smallTable.dicts.get? 0 = some d := rfl
  have hempty : d.store.entries = [] := rfl
  have hnat : (lib.step (.use 0 (.findAs "a" "nat"))).1 = .used (.untyped (some 7)) := rfl
  have hstored : (lib.step (.use 0 (.find "a"))).1 = .used (.value (some ⟨"nat", 7⟩)) := rfl
  have htext := ((run_findAs hd hempty retyping "a" "text").2.2 _ hstored).1
  exact ⟨hd, hempty, rfl, htext, hnat, (run_findAs hd hempty retyping "a" "nat").1 7 hnat⟩

end DictLibrary

end RecordKit
