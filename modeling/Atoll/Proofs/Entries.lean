import Atoll.Datum
import Mathlib.Data.List.Induction
import Mathlib.Data.List.Nodup

/-!
# Entries set one after the other

`setEntry` keeps the place of a key that is there and puts a new one at the end; `setEntries` does
so for one entry after the other.  This file says what the entries are then.

* `lookup_setEntries` — the entry that is set last counts.
* `keys_setEntries`, `mem_keys_setEntries`, `nodup_keys_setEntries` — the keys that are there keep
  their order, and no key comes twice.
* `setEntries_of_nodup` — entries under new keys stand one behind the other.
* `forall_setEntries` — no value comes from elsewhere.
-/

set_option autoImplicit false

namespace Atoll

variable {α : Type}

/-! ## Values -/

theorem lookup_setEntry (key other : String) (a : α) (entries : List (String × α)) :
    (setEntry key a entries).lookup other =
      if other = key then some a else entries.lookup other := by
  induction entries with
  | nil => by_cases h : other = key <;> simp [setEntry, h]
  | cons entry entries ih =>
    obtain ⟨k, b⟩ := entry
    by_cases hk : k = key
    · by_cases h : other = key
      · simp [setEntry, hk, h]
      · simp [setEntry, List.lookup_cons, hk, h, beq_false_of_ne h]
    · by_cases h : other = k
      · simp [setEntry, hk, h]
      · simp [setEntry, List.lookup_cons, hk, beq_false_of_ne h, ih]

theorem setEntries_append (entries new more : List (String × α)) :
    setEntries entries (new ++ more) = setEntries (setEntries entries new) more :=
  List.foldl_append

/-- The name that is set last counts. -/
theorem lookup_setEntries (entries new : List (String × α)) (x : String) :
    (setEntries entries new).lookup x = (new.reverse.lookup x).or (entries.lookup x) := by
  induction new generalizing entries with
  | nil => rfl
  | cons entry new ih =>
    obtain ⟨key, a⟩ := entry
    show (setEntries (setEntry key a entries) new).lookup x = _
    rw [ih, lookup_setEntry, List.reverse_cons, List.lookup_append, Option.or_assoc]
    by_cases hx : x = key
    · simp [hx]
    · simp [List.lookup_cons, hx, beq_false_of_ne hx]

/-- A name that is not set keeps its value. -/
theorem lookup_setEntries_of_notMem {x : String} {new : List (String × α)}
    (hx : x ∉ new.map Prod.fst) (entries : List (String × α)) :
    (setEntries entries new).lookup x = entries.lookup x := by
  have hnone : new.reverse.lookup x = none := by
    refine List.lookup_eq_none_iff.2 fun entry hentry => bne_iff_ne.2 ?_
    rintro rfl
    exact hx (List.mem_map_of_mem (List.mem_reverse.1 hentry))
  rw [lookup_setEntries, hnone, Option.none_or]

/-- What holds of all values that are set holds of all values then. -/
theorem forall_setEntries {P : α → Prop} {entries new : List (String × α)}
    (hentries : ∀ e ∈ entries, P e.2) (hnew : ∀ e ∈ new, P e.2) :
    ∀ e ∈ setEntries entries new, P e.2 := by
  have hset {key : String} {a : α} (ha : P a) (entries : List (String × α))
      (h : ∀ e ∈ entries, P e.2) : ∀ e ∈ setEntry key a entries, P e.2 := by
    induction entries with
    | nil => exact List.forall_mem_singleton.2 ha
    | cons entry entries ih =>
      obtain ⟨hentry, hrest⟩ := List.forall_mem_cons.1 h
      rw [setEntry]
      split
      · exact List.forall_mem_cons.2 ⟨ha, hrest⟩
      · exact List.forall_mem_cons.2 ⟨hentry, ih hrest⟩
  induction new generalizing entries with
  | nil => exact hentries
  | cons entry new ih =>
    obtain ⟨hentry, hrest⟩ := List.forall_mem_cons.1 hnew
    exact ih (hset hentry entries hentries) hrest

/-! ## Keys -/

/-- Names stay, and stay in their order; new ones go to the end. -/
theorem keys_setEntry (key : String) (a : α) (entries : List (String × α)) :
    entries.map Prod.fst <+: (setEntry key a entries).map Prod.fst := by
  induction entries with
  | nil => exact List.nil_prefix
  | cons entry entries ih =>
    rw [setEntry]
    split
    · exact List.prefix_rfl
    · exact List.prefix_cons_inj _ |>.2 ih

theorem keys_setEntries (entries new : List (String × α)) :
    entries.map Prod.fst <+: (setEntries entries new).map Prod.fst := by
  induction new generalizing entries with
  | nil => exact List.prefix_rfl
  | cons entry new ih => exact (keys_setEntry entry.1 entry.2 entries).trans (ih _)

theorem mem_keys_setEntry {x key : String} {a : α} {entries : List (String × α)} :
    x ∈ (setEntry key a entries).map Prod.fst ↔ x = key ∨ x ∈ entries.map Prod.fst := by
  induction entries with
  | nil => simp [setEntry]
  | cons entry entries ih =>
    rw [setEntry]
    split
    case isTrue hkey =>
      rw [← eq_of_beq hkey, List.map_cons, List.map_cons, List.mem_cons, or_self_left]
    case isFalse =>
      rw [List.map_cons, List.mem_cons, ih, List.map_cons, List.mem_cons, or_left_comm]

theorem mem_keys_setEntries {x : String} {new entries : List (String × α)} :
    x ∈ (setEntries entries new).map Prod.fst ↔
      x ∈ new.map Prod.fst ∨ x ∈ entries.map Prod.fst := by
  induction new generalizing entries with
  | nil => simp [setEntries]
  | cons entry new ih =>
    show x ∈ (setEntries (setEntry entry.1 entry.2 entries) new).map Prod.fst ↔ _
    rw [ih, mem_keys_setEntry, List.map_cons, List.mem_cons, or_left_comm, or_assoc]

theorem nodup_keys_setEntry (key : String) (a : α) {entries : List (String × α)}
    (h : (entries.map Prod.fst).Nodup) : ((setEntry key a entries).map Prod.fst).Nodup := by
  induction entries with
  | nil => simp [setEntry]
  | cons entry entries ih =>
    obtain ⟨hnot, hrest⟩ := List.nodup_cons.1 h
    rw [setEntry]
    split
    · exact h
    · rename_i hkey
      refine List.nodup_cons.2 ⟨fun hmem => ?_, ih hrest⟩
      rcases mem_keys_setEntry.1 hmem with heq | hmem
      · exact hkey (beq_iff_eq.2 heq)
      · exact hnot hmem

theorem nodup_keys_setEntries {entries new : List (String × α)}
    (h : (entries.map Prod.fst).Nodup) : ((setEntries entries new).map Prod.fst).Nodup := by
  induction new generalizing entries with
  | nil => exact h
  | cons entry new ih => exact ih (nodup_keys_setEntry entry.1 entry.2 h)

/-- Where no key stands twice, every entry is found under its key. -/
theorem lookup_eq_some_iff_mem {table : List (String × α)}
    (h : (table.map Prod.fst).Nodup) {key : String} {a : α} :
    table.lookup key = some a ↔ (key, a) ∈ table := by
  induction table with
  | nil => simp
  | cons entry table ih =>
    obtain ⟨k, b⟩ := entry
    obtain ⟨hnot, hrest⟩ := List.nodup_cons.1 h
    by_cases hk : key = k
    · subst hk
      have hmem : (key, a) ∉ table := fun hmem => hnot (List.mem_map.2 ⟨_, hmem, rfl⟩)
      simp [hmem, eq_comm]
    · rw [List.lookup_cons, beq_false_of_ne hk]
      simp [ih hrest, hk]

/-! ## New keys -/

theorem setEntry_of_not_mem {key : String} {entries : List (String × α)}
    (h : key ∉ entries.map Prod.fst) (a : α) : setEntry key a entries = entries ++ [(key, a)] := by
  induction entries with
  | nil => rfl
  | cons e entries ih =>
    obtain ⟨k, b⟩ := e
    rw [List.map_cons, List.mem_cons, not_or] at h
    have hne : (k == key) = false := beq_eq_false_iff_ne.2 (Ne.symm h.1)
    rw [setEntry, hne, ih h.2]
    rfl

/-- A key is new if it is none of those before it. -/
theorem key_not_mem_of_nodup {done more : List (String × α)} {e : String × α}
    (h : ((done ++ e :: more).map Prod.fst).Nodup) : e.1 ∉ done.map Prod.fst := by
  rw [List.map_append, List.map_cons] at h
  intro hmem
  exact List.disjoint_of_nodup_append h hmem List.mem_cons_self

/-- Entries under new keys are set one behind the other. -/
theorem setEntries_of_nodup {done more : List (String × α)}
    (h : ((done ++ more).map Prod.fst).Nodup) : setEntries done more = done ++ more := by
  induction more generalizing done with
  | nil => rw [List.append_nil]; rfl
  | cons e more ih =>
    show setEntries (setEntry e.1 e.2 done) more = _
    rw [setEntry_of_not_mem (key_not_mem_of_nodup h), ih (by simpa using h),
      List.append_assoc, List.singleton_append]

/-! ## The first entry -/

theorem filter_setEntry_self (key : String) (a : α) (entries : List (String × α)) :
    (setEntry key a entries).filter (·.1 != key) = entries.filter (·.1 != key) := by
  induction entries with
  | nil => simp [setEntry]
  | cons entry entries ih =>
    rw [setEntry]
    split
    case isTrue hkey => simp [eq_of_beq hkey]
    case isFalse => rw [List.filter_cons, List.filter_cons, ih]

theorem filter_setEntry_of_ne {key other : String} (h : key ≠ other) (a : α)
    (entries : List (String × α)) :
    (setEntry key a entries).filter (·.1 != other) =
      setEntry key a (entries.filter (·.1 != other)) := by
  induction entries with
  | nil => simp [setEntry, h]
  | cons entry entries ih =>
    obtain ⟨k, b⟩ := entry
    by_cases hkey : k = key
    · simp [setEntry, hkey, h]
    · by_cases hother : k = other
      · simp [setEntry, hother, Ne.symm h, ih]
      · simp [setEntry, hkey, hother, ih]

/-- The first entry stays the first, with the value that is set last under its key. -/
theorem setEntries_cons (key : String) (a : α) (entries : List (String × α)) :
    setEntries [] ((key, a) :: entries) =
      (key, ((setEntries [] entries).lookup key).getD a) ::
        (setEntries [] entries).filter (·.1 != key) := by
  induction entries using List.reverseRecOn with
  | nil => rfl
  | append_singleton entries entry ih =>
    obtain ⟨k, b⟩ := entry
    have hlast (done : List (String × α)) : setEntries done [(k, b)] = setEntry k b done := rfl
    rw [← List.cons_append, setEntries_append, ih, setEntries_append, hlast, hlast,
      lookup_setEntry, setEntry]
    by_cases hkey : key = k
    · subst hkey
      rw [filter_setEntry_self, if_pos (beq_self_eq_true key), if_pos rfl, Option.getD_some]
    · rw [filter_setEntry_of_ne (Ne.symm hkey), if_neg (by simpa using hkey), if_neg hkey]

end Atoll
