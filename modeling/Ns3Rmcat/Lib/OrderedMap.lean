import Mathlib

/-! Ordered maps: rebuilding a map from its entries, and maps of maps, into which
one entry at a time is recorded. -/
namespace Ns3Rmcat.Lib
open Std

variable {K S V W : Type} [Ord K] [TransOrd K] [LawfulEqOrd K] [Ord S] [TransOrd S] [LawfulEqOrd S]

theorem mem_toList {t : ExtTreeMap K V} {e : K × V} : e ∈ t.toList ↔ t[e.1]? = some e.2 :=
  ExtTreeMap.mem_toList_iff_getElem?_eq_some

omit [LawfulEqOrd K] in
theorem nodup_toList (t : ExtTreeMap K V) : (t.toList.map Prod.fst).Nodup := by
  rw [ExtTreeMap.map_fst_toList_eq_keys]
  exact ExtTreeMap.nodup_keys

/-- All entries of a list inserted one after the other, with their values changed. -/
def insertAll (f : V → W) (entries : List (K × V)) (m : ExtTreeMap K W) : ExtTreeMap K W :=
  entries.foldl (fun m e => m.insert e.1 (f e.2)) m

omit [LawfulEqOrd K] in
theorem insertAll_snoc (f : V → W) (entries : List (K × V)) (e : K × V) (m : ExtTreeMap K W) :
    insertAll f (entries ++ [e]) m = (insertAll f entries m).insert e.1 (f e.2) := by
  simp [insertAll]

theorem getElem?_insertAll_of_notMem {f : V → W} {entries : List (K × V)} {m : ExtTreeMap K W} {k : K}
    (h : ∀ v, (k, v) ∉ entries) : (insertAll f entries m)[k]? = m[k]? := by
  induction entries using List.reverseRecOn with
  | nil => rfl
  | append_singleton entries e ih =>
    have hne : e.1 ≠ k := by
      rintro rfl
      exact h e.2 (by simp)
    rw [insertAll_snoc, ExtTreeMap.getElem?_insert, if_neg (by simpa using hne)]
    exact ih fun v hv => h v (List.mem_append_left _ hv)

theorem getElem?_insertAll_of_mem {f : V → W} {entries : List (K × V)} {m : ExtTreeMap K W} {k : K} {v : V}
    (hdistinct : entries.Pairwise fun a b => ¬ compare a.1 b.1 = .eq) (h : (k, v) ∈ entries) :
    (insertAll f entries m)[k]? = some (f v) := by
  induction entries using List.reverseRecOn with
  | nil => cases h
  | append_singleton entries e ih =>
    rw [List.pairwise_append] at hdistinct
    rw [insertAll_snoc, ExtTreeMap.getElem?_insert]
    rcases List.mem_append.mp h with hold | hnew
    · have hne : ¬ compare e.1 k = .eq := by
        have hdist := hdistinct.2.2 (k, v) hold e (by simp)
        simp only [Std.compare_eq_iff_eq] at hdist ⊢
        exact fun he => hdist he.symm
      rw [if_neg hne]
      exact ih hdistinct.1 hold
    · rw [← List.mem_singleton.mp hnew]
      simp

/-- The entries of a map, inserted into another one, are found there first. -/
theorem getElem?_insertAll_toList (f : V → W) (t : ExtTreeMap K V) (m : ExtTreeMap K W) (k : K) :
    (insertAll f t.toList m)[k]? = (t[k]?.map f).or m[k]? := by
  cases h : t[k]? with
  | none =>
    refine getElem?_insertAll_of_notMem fun v hv => ?_
    rw [mem_toList, h] at hv
    cases hv
  | some v =>
    exact getElem?_insertAll_of_mem ExtTreeMap.distinct_keys_toList
      (mem_toList.mpr h)

/-- All values of a map changed in place. -/
theorem getElem?_insertAll_self (f : V → V) (m : ExtTreeMap K V) (k : K) :
    (insertAll f m.toList m)[k]? = m[k]?.map f := by
  rw [getElem?_insertAll_toList]
  cases m[k]? <;> rfl

/-- Values that a map has for their keys already, put in once more, change no value that is read. -/
theorem getD_insertAll_self [DecidableEq K] {entries : List (K × V)} {m : ExtTreeMap K V} {d : V}
    (h : ∀ e ∈ entries, m.getD e.1 d = e.2) (k : K) : (insertAll id entries m).getD k d = m.getD k d := by
  induction entries using List.reverseRecOn with
  | nil => rfl
  | append_singleton entries e ih =>
    have hrest := ih fun e he => h e (List.mem_append_left _ he)
    rw [insertAll_snoc, ExtTreeMap.getD_insert]
    by_cases hk : e.1 = k
    · subst hk
      simpa using (h e (by simp)).symm
    · simpa [hk] using hrest

/-- Maps with the same keys list them in the same order. -/
theorem keys_congr {t : ExtTreeMap K V} {t' : ExtTreeMap K W}
    (h : ∀ k : K, (t[k]?).isSome = (t'[k]?).isSome) :
    t.keys = t'.keys := by
  have hunit : (t.map fun _ _ => ()) = t'.map fun _ _ => () := by
    apply ExtTreeMap.ext_getElem?
    intro k
    have hk := h k
    rw [ExtTreeMap.getElem?_map, ExtTreeMap.getElem?_map]
    cases ht : t[k]? <;> cases ht' : t'[k]? <;> simp_all
  rw [← ExtTreeMap.keys_map (t := t) (f := fun _ _ => ()), hunit, ExtTreeMap.keys_map]

/-- A map whose keys are all the same has one entry at most. -/
theorem length_toList_le_one {t : ExtTreeMap K V} {k : K} (hkeys : ∀ k' ∈ t, k' = k) : t.toList.length ≤ 1 := by
  have hkey : ∀ e ∈ t.toList, e.1 = k := by
    intro e he
    refine hkeys e.1 (ExtTreeMap.isSome_getElem?_iff_mem.mp ?_)
    rw [mem_toList.mp he]
    rfl
  have hdistinct : t.toList.Pairwise fun a b => ¬ compare a.1 b.1 = .eq := ExtTreeMap.distinct_keys_toList
  match t.toList, hdistinct, hkey with
  | [], _, _ => exact Nat.zero_le _
  | [_], _, _ => exact le_rfl
  | a :: b :: _, hdistinct, hkey =>
    have hab : ¬ compare a.1 b.1 = .eq := List.rel_of_pairwise_cons hdistinct List.mem_cons_self
    rw [Std.compare_eq_iff_eq] at hab
    exact absurd ((hkey a (by simp)).trans (hkey b (by simp)).symm) hab

/-- A sum over the entries of a map, as one over its keys. -/
theorem sum_toList [DecidableEq K] (f : V → Nat) (t : ExtTreeMap K V) :
    (t.toList.map fun e => f e.2).sum = ∑ k ∈ t.keys.toFinset, (t[k]?.map f).getD 0 := by
  have hmap : (t.toList.map fun e => f e.2) = t.keys.map fun k => (t[k]?.map f).getD 0 := by
    rw [← ExtTreeMap.map_fst_toList_eq_keys, List.map_map]
    refine List.map_congr_left fun e he => ?_
    rw [Function.comp_apply, mem_toList.mp he]
    rfl
  rw [hmap, List.sum_toFinset _ ExtTreeMap.nodup_keys]

/-- Where every entry has one in another map that counts for as much, the other sum is no smaller. -/
theorem sum_toList_le {f : V → Nat} {t t' : ExtTreeMap K V}
    (h : ∀ (k : K) (v : V), t[k]? = some v → ∃ v', t'[k]? = some v' ∧ f v ≤ f v') :
    (t.toList.map fun e => f e.2).sum ≤ (t'.toList.map fun e => f e.2).sum := by
  classical
  have hkey {k : K} (hk : k ∈ t) : ∃ v v', t[k]? = some v ∧ t'[k]? = some v' ∧ f v ≤ f v' := by
    obtain ⟨v, hv⟩ := Option.isSome_iff_exists.mp (ExtTreeMap.isSome_getElem?_iff_mem.mpr hk)
    obtain ⟨v', hv', hle⟩ := h k v hv
    exact ⟨v, v', hv, hv', hle⟩
  rw [sum_toList, sum_toList]
  calc ∑ k ∈ t.keys.toFinset, (t[k]?.map f).getD 0
      ≤ ∑ k ∈ t.keys.toFinset, (t'[k]?.map f).getD 0 := by
        refine Finset.sum_le_sum fun k hk => ?_
        obtain ⟨v, v', hv, hv', hle⟩ := hkey (ExtTreeMap.mem_keys.mp (List.mem_toFinset.mp hk))
        simpa [hv, hv'] using hle
    _ ≤ ∑ k ∈ t'.keys.toFinset, (t'[k]?.map f).getD 0 := by
        refine Finset.sum_le_sum_of_subset fun k hk => ?_
        obtain ⟨v, v', -, hv', -⟩ := hkey (ExtTreeMap.mem_keys.mp (List.mem_toFinset.mp hk))
        rw [List.mem_toFinset, ExtTreeMap.mem_keys, ← ExtTreeMap.isSome_getElem?_iff_mem, hv']
        rfl

section Sets

theorem nodup_toList_set (t : ExtTreeSet K) : t.toList.Nodup :=
  ExtTreeSet.distinct_toList.imp fun hne heq => hne (Std.compare_eq_iff_eq.mpr heq)

theorem size_ofList_of_nodup {l : List K} (hnodup : l.Nodup) : (ExtTreeSet.ofList l).size = l.length :=
  ExtTreeSet.size_ofList (hnodup.imp fun hne heq => hne (Std.compare_eq_iff_eq.mp heq))

theorem ofList_toList (t : ExtTreeSet K) : ExtTreeSet.ofList t.toList = t := by
  classical
  refine ExtTreeSet.ext_mem fun k => ?_
  rw [ExtTreeSet.mem_ofList, List.contains_iff_mem, ExtTreeSet.mem_toList]

/-- An increasing list is the one that its set is listed as. -/
theorem toList_ofList {l : List K} (hsorted : l.Pairwise fun a b => compare a b = .lt) :
    (ExtTreeSet.ofList l).toList = l := by
  classical
  have hirrefl : Std.Irrefl fun a b : K => compare a b = .lt := ⟨fun a h => by simp at h⟩
  have hasymm : Std.Antisymm fun a b : K => compare a b = .lt :=
    ⟨fun a b hab hba => absurd hba (OrientedCmp.not_lt_of_lt hab)⟩
  refine List.Pairwise.eq_of_mem_iff (r := fun a b : K => compare a b = .lt) ExtTreeSet.ordered_toList hsorted fun k => ?_
  rw [ExtTreeSet.mem_toList, ExtTreeSet.mem_ofList, List.contains_iff_mem]

end Sets

section Nested

/-- One entry recorded in a map of maps, whose inner map is created when it is missing. -/
def recordEntry (m : ExtTreeMap K (ExtTreeMap S V)) (k : K) (s : S) (v : V) :
    ExtTreeMap K (ExtTreeMap S V) :=
  m.insert k ((m.getD k ∅).insert s v)

/-- The entry of a map of maps. -/
def lookup? (m : ExtTreeMap K (ExtTreeMap S V)) (k : K) (s : S) : Option V := (m.getD k ∅)[s]?

omit [LawfulEqOrd K] [LawfulEqOrd S] in
theorem lookup?_eq (m : ExtTreeMap K (ExtTreeMap S V)) (k : K) (s : S) :
    lookup? m k s = m[k]?.bind (·[s]?) := by
  unfold lookup?
  rw [ExtTreeMap.getD_eq_getD_getElem?]
  cases m[k]? <;> simp

omit [LawfulEqOrd K] [LawfulEqOrd S] in
theorem mem_of_lookup? {m : ExtTreeMap K (ExtTreeMap S V)} {k : K} {s : S} {v : V} (h : lookup? m k s = some v) :
    k ∈ m := by
  rw [lookup?_eq] at h
  obtain ⟨t, ht, -⟩ := Option.bind_eq_some_iff.mp h
  rw [ExtTreeMap.mem_iff_isSome_getElem?, ht]
  rfl

theorem lookup?_recordEntry [DecidableEq K] [DecidableEq S] (m : ExtTreeMap K (ExtTreeMap S V)) (k k' : K)
    (s s' : S) (v : V) :
    lookup? (recordEntry m k s v) k' s' = if k = k' ∧ s = s' then some v else lookup? m k' s' := by
  unfold lookup? recordEntry
  rw [ExtTreeMap.getD_insert]
  by_cases hk : k = k'
  · subst hk
    simp only [compare_self, if_true, ExtTreeMap.getElem?_insert, Std.compare_eq_iff_eq, true_and]
  · simp [hk]

omit [LawfulEqOrd S] in
theorem mem_recordEntry (m : ExtTreeMap K (ExtTreeMap S V)) (k k' : K) (s : S) (v : V) :
    k' ∈ recordEntry m k s v ↔ k = k' ∨ k' ∈ m := by
  simp [recordEntry, ExtTreeMap.mem_insert]

/-- An entry that is made with a default value when it is missing, as access by a key does. -/
def touchEntry (m : ExtTreeMap K (ExtTreeMap S V)) (k : K) (s : S) (v : V) : ExtTreeMap K (ExtTreeMap S V) :=
  m.insert k ((m.getD k ∅).insertIfNew s v)

theorem lookup?_touchEntry [DecidableEq K] [DecidableEq S] (m : ExtTreeMap K (ExtTreeMap S V)) (k k' : K)
    (s s' : S) (v : V) :
    lookup? (touchEntry m k s v) k' s' = if k = k' ∧ s = s' then some ((lookup? m k s).getD v) else lookup? m k' s' := by
  unfold lookup? touchEntry
  rw [ExtTreeMap.getD_insert]
  by_cases hk : k = k'
  · subst hk
    simp only [compare_self, if_true, ExtTreeMap.getElem?_insertIfNew, Std.compare_eq_iff_eq, true_and]
    by_cases hs : s = s'
    · subst hs
      cases he : (m.getD k ∅)[s]? with
      | none =>
        have hmem : s ∉ m.getD k ∅ := by
          rw [ExtTreeMap.mem_iff_isSome_getElem?, he]
          simp
        simp [hmem]
      | some w =>
        have hmem : s ∈ m.getD k ∅ := by
          rw [ExtTreeMap.mem_iff_isSome_getElem?, he]
          rfl
        simp [hmem]
    · simp [hs]
  · simp [hk]

omit [LawfulEqOrd S] in
theorem mem_touchEntry (m : ExtTreeMap K (ExtTreeMap S V)) (k k' : K) (s : S) (v : V) :
    k' ∈ touchEntry m k s v ↔ k = k' ∨ k' ∈ m := by
  simp [touchEntry, ExtTreeMap.mem_insert]

omit [TransOrd S] [LawfulEqOrd S] in
/-- An inner map that is there is put back as it is. -/
theorem insert_getD_of_mem [DecidableEq K] {m : ExtTreeMap K (ExtTreeMap S V)} {k : K} (h : k ∈ m) :
    m.insert k (m.getD k ∅) = m := by
  apply ExtTreeMap.ext_getElem?
  intro k'
  rw [ExtTreeMap.getElem?_insert]
  by_cases hk : k = k'
  · subst hk
    obtain ⟨t, ht⟩ := Option.isSome_iff_exists.mp (ExtTreeMap.isSome_getElem?_iff_mem.mpr h)
    simp [ExtTreeMap.getD_eq_getD_getElem?, ht]
  · simp [hk]

/-- An entry that is there is not made again. -/
theorem touchEntry_of_isSome [DecidableEq K] {m : ExtTreeMap K (ExtTreeMap S V)} {k : K} {s : S}
    (h : (lookup? m k s).isSome) (v : V) : touchEntry m k s v = m := by
  have hs : s ∈ m.getD k ∅ := ExtTreeMap.mem_iff_isSome_getElem?.mpr h
  have hk : k ∈ m := by
    by_contra hk
    rw [ExtTreeMap.getD_eq_fallback hk] at hs
    simp at hs
  have hsame : (m.getD k ∅).insertIfNew s v = m.getD k ∅ := by
    apply ExtTreeMap.ext_getElem?
    intro s'
    rw [ExtTreeMap.getElem?_insertIfNew]
    simp [hs]
  rw [touchEntry, hsame, insert_getD_of_mem hk]

/-- Some entries touched one after the other. -/
def touchAll (entries : List (K × S)) (v : V) (m : ExtTreeMap K (ExtTreeMap S V)) : ExtTreeMap K (ExtTreeMap S V) :=
  entries.foldl (fun m e => touchEntry m e.1 e.2 v) m

theorem lookup?_touchAll [DecidableEq K] [DecidableEq S] (entries : List (K × S)) (v : V)
    (m : ExtTreeMap K (ExtTreeMap S V)) (k : K) (s : S) :
    lookup? (touchAll entries v m) k s = if (k, s) ∈ entries then some ((lookup? m k s).getD v) else lookup? m k s := by
  induction entries using List.reverseRecOn with
  | nil => simp [touchAll]
  | append_singleton entries e ih =>
    have hsnoc : touchAll (entries ++ [e]) v m = touchEntry (touchAll entries v m) e.1 e.2 v := by
      simp [touchAll]
    rw [hsnoc, lookup?_touchEntry]
    by_cases he : e.1 = k ∧ e.2 = s
    · obtain ⟨rfl, rfl⟩ := he
      rw [if_pos ⟨rfl, rfl⟩, if_pos (by simp), ih]
      split <;> simp
    · have hne : (k, s) ≠ e := by
        rintro rfl
        exact he ⟨rfl, rfl⟩
      rw [if_neg he, ih]
      simp [hne]

omit [LawfulEqOrd S] in
theorem mem_touchAll (entries : List (K × S)) (v : V) (m : ExtTreeMap K (ExtTreeMap S V)) (k : K) :
    k ∈ touchAll entries v m ↔ k ∈ m ∨ ∃ s, (k, s) ∈ entries := by
  induction entries using List.reverseRecOn with
  | nil => simp [touchAll]
  | append_singleton entries e ih =>
    have hsnoc : touchAll (entries ++ [e]) v m = touchEntry (touchAll entries v m) e.1 e.2 v := by
      simp [touchAll]
    rw [hsnoc, mem_touchEntry, ih]
    constructor
    · rintro (rfl | hm | ⟨s, hs⟩)
      · exact .inr ⟨e.2, by simp⟩
      · exact .inl hm
      · exact .inr ⟨s, List.mem_append_left _ hs⟩
    · rintro (hm | ⟨s, hs⟩)
      · exact .inr (.inl hm)
      · rcases List.mem_append.mp hs with hold | hnew
        · exact .inr (.inr ⟨s, hold⟩)
        · exact .inl (by rw [← List.mem_singleton.mp hnew])

/-- Touching entries changes nothing exactly when they are all there. -/
theorem touchAll_eq_self_iff [DecidableEq K] [DecidableEq S] {entries : List (K × S)} {v : V}
    {m : ExtTreeMap K (ExtTreeMap S V)} :
    touchAll entries v m = m ↔ ∀ e ∈ entries, (lookup? m e.1 e.2).isSome := by
  constructor
  · intro h e he
    rw [← h, lookup?_touchAll, if_pos he]
    rfl
  · intro h
    induction entries with
    | nil => rfl
    | cons e entries ih =>
      have hfirst := touchEntry_of_isSome (h e (by simp)) v
      rw [touchAll, List.foldl_cons, hfirst]
      exact ih fun e' he' => h e' (List.mem_cons_of_mem _ he')

/-- No inner map is empty. -/
def Filled (m : ExtTreeMap K (ExtTreeMap S V)) : Prop :=
  ∀ (k : K) (t : ExtTreeMap S V), m[k]? = some t → t ≠ ∅

omit [LawfulEqOrd K] [TransOrd S] [LawfulEqOrd S] in
theorem filled_empty : Filled (∅ : ExtTreeMap K (ExtTreeMap S V)) := by
  intro k t h
  simp at h

omit [LawfulEqOrd K] [LawfulEqOrd S] in
theorem Filled.recordEntry {m : ExtTreeMap K (ExtTreeMap S V)} (h : Filled m) (k : K) (s : S) (v : V) :
    Filled (recordEntry m k s v) := by
  intro k' t ht
  rw [Lib.recordEntry, ExtTreeMap.getElem?_insert] at ht
  split at ht
  · cases ht
    exact ExtTreeMap.insert_ne_empty
  · exact h k' t ht

omit [LawfulEqOrd K] in
/-- A key without entries is no key of such a map. -/
theorem Filled.notMem {m : ExtTreeMap K (ExtTreeMap S V)} (h : Filled m) {k : K}
    (hnone : ∀ s, lookup? m k s = none) : k ∉ m := by
  intro hmem
  obtain ⟨t, ht⟩ := Option.isSome_iff_exists.mp (ExtTreeMap.isSome_getElem?_iff_mem.mpr hmem)
  refine h k t ht (ExtTreeMap.ext_getElem? fun s => ?_)
  have hs := hnone s
  rw [lookup?_eq, ht] at hs
  simpa using hs

/-- Maps of non-empty maps are equal when they have the same entries. -/
theorem ext_lookup? {m m' : ExtTreeMap K (ExtTreeMap S V)} (hm : Filled m) (hm' : Filled m')
    (h : ∀ k s, lookup? m k s = lookup? m' k s) : m = m' := by
  apply ExtTreeMap.ext_getElem?
  intro k
  have hk : ∀ s, m[k]?.bind (·[s]?) = m'[k]?.bind (·[s]?) := fun s => by
    rw [← lookup?_eq, ← lookup?_eq, h]
  -- An inner map that is missing on one side would have to be empty on the other.
  cases ht : m[k]? with
  | none =>
    cases ht' : m'[k]? with
    | none => rfl
    | some t' =>
      refine absurd (ExtTreeMap.ext_getElem? fun s => ?_) (hm' k t' ht')
      simpa [ht, ht'] using (hk s).symm
  | some t =>
    cases ht' : m'[k]? with
    | none =>
      refine absurd (ExtTreeMap.ext_getElem? fun s => ?_) (hm k t ht)
      simpa [ht, ht'] using hk s
    | some t' =>
      refine congrArg some (ExtTreeMap.ext_getElem? fun s => ?_)
      simpa [ht, ht'] using hk s

/-- Different entries may be recorded in either order. -/
theorem recordEntry_comm [DecidableEq K] [DecidableEq S] {m : ExtTreeMap K (ExtTreeMap S V)} (hm : Filled m)
    {k k' : K} {s s' : S} (hne : ¬ (k = k' ∧ s = s')) (v v' : V) :
    recordEntry (recordEntry m k s v) k' s' v' = recordEntry (recordEntry m k' s' v') k s v := by
  refine ext_lookup? ((hm.recordEntry k s v).recordEntry k' s' v') ((hm.recordEntry k' s' v').recordEntry k s v)
    fun l r => ?_
  simp only [lookup?_recordEntry]
  by_cases h : k = l ∧ s = r
  · by_cases h' : k' = l ∧ s' = r
    · exact absurd ⟨h.1.trans h'.1.symm, h.2.trans h'.2.symm⟩ hne
    · rw [if_pos h, if_neg h', if_pos h]
  · rw [if_neg h, if_neg h]

end Nested

end Ns3Rmcat.Lib
