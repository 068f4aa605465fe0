import Mathlib.Data.List.Nodup

/-! # Multimaps — several values for a key, in the order they came

    A key has one entry, with a first value and the others; the entries stand in the order
    in which their keys first came.  `append` adds a value to a key's entry, `insert` puts
    one value in the place of them all; both are `upsert`.

    Appending to an empty map what the iterator of a map yields, but for some keys, gives
    the map without these keys (`copy_empty`). -/

namespace DevstackMultiMap

variable {κ ν : Type} [DecidableEq κ]

/-- Entries of a key, a first value and the others; no key has two. -/
structure MultiMap (κ ν : Type) where
  entries : List (κ × ν × List ν)
  nodup : (entries.map Prod.fst).Nodup

namespace MultiMap

instance : EmptyCollection (MultiMap κ ν) := ⟨⟨[], List.nodup_nil⟩⟩

/-- The keys, in the order in which they first came. -/
def keys (m : MultiMap κ ν) : List κ := m.entries.map Prod.fst

/-- The values of a key. -/
def get? (m : MultiMap κ ν) (k : κ) : Option (ν × List ν) :=
  (m.entries.find? (fun e => decide (e.1 = k))).map Prod.snd

/-- The first value of a key. -/
def get (m : MultiMap κ ν) (k : κ) : Option ν := (m.get? k).map Prod.fst

/-- All values of a key, in the order they came. -/
def getAll (m : MultiMap κ ν) (k : κ) : List ν :=
  ((m.get? k).map (fun vs => vs.1 :: vs.2)).getD []

/-- The entry of a key changed, or a new one with one value. -/
def upsertEntries (k : κ) (f : ν × List ν → ν × List ν) (v : ν) :
    List (κ × ν × List ν) → List (κ × ν × List ν)
  | [] => [(k, v, [])]
  | e :: es => if e.1 = k then (k, f e.2) :: es else e :: upsertEntries k f v es

/-- A change adds at most its own key. -/
theorem mem_keys_upsertEntries (k : κ) (f : ν × List ν → ν × List ν) (v : ν)
    (es : List (κ × ν × List ν)) (k' : κ) :
    k' ∈ (upsertEntries k f v es).map Prod.fst ↔ k' = k ∨ k' ∈ es.map Prod.fst := by
  induction es with
  | nil => simp [upsertEntries]
  | cons e es ih =>
      rw [upsertEntries]
      by_cases h : e.1 = k
      · rw [if_pos h]
        simp only [List.map_cons, List.mem_cons, h]
        tauto
      · rw [if_neg h]
        simp only [List.map_cons, List.mem_cons, ih]
        tauto

/-- So no key gets a second entry. -/
theorem nodup_upsertEntries (k : κ) (f : ν × List ν → ν × List ν) (v : ν)
    {es : List (κ × ν × List ν)} (h : (es.map Prod.fst).Nodup) :
    ((upsertEntries k f v es).map Prod.fst).Nodup := by
  induction es with
  | nil => exact List.nodup_singleton k
  | cons e es ih =>
      rw [List.map_cons, List.nodup_cons] at h
      rw [upsertEntries]
      by_cases heq : e.1 = k
      · rw [if_pos heq, List.map_cons, List.nodup_cons]
        exact ⟨heq ▸ h.1, h.2⟩
      · rw [if_neg heq, List.map_cons, List.nodup_cons, mem_keys_upsertEntries]
        exact ⟨fun hmem => hmem.elim heq h.1, ih h.2⟩

/-- `upsertEntries` on a map. -/
def upsert (m : MultiMap κ ν) (k : κ) (f : ν × List ν → ν × List ν) (v : ν) : MultiMap κ ν :=
  ⟨upsertEntries k f v m.entries, nodup_upsertEntries k f v m.nodup⟩

/-- A value behind those a key has. -/
def append (m : MultiMap κ ν) (k : κ) (v : ν) : MultiMap κ ν :=
  m.upsert k (fun vs => (vs.1, vs.2 ++ [v])) v

/-- One value in the place of those a key has. -/
def insert (m : MultiMap κ ν) (k : κ) (v : ν) : MultiMap κ ν :=
  m.upsert k (fun _ => (v, [])) v

/-- What the iterator yields for an entry. -/
def yields (e : κ × ν × List ν) : List (κ × ν) := (e.1, e.2.1) :: e.2.2.map (fun v => (e.1, v))

/-- What the iterator yields: the entries in order, each with all its values. -/
def iter (m : MultiMap κ ν) : List (κ × ν) := m.entries.flatMap yields

/-- The entries of some keys. -/
def filterKeys (m : MultiMap κ ν) (keep : κ → Bool) : MultiMap κ ν :=
  ⟨m.entries.filter (fun e => keep e.1),
    m.nodup.sublist ((List.filter_sublist ..).map Prod.fst)⟩

/-- What the iterator of `m` yields appended to `dest`, but for some keys. -/
def copy (m dest : MultiMap κ ν) (keep : κ → Bool) : MultiMap κ ν :=
  m.iter.foldl (fun dest kv => if keep kv.1 then dest.append kv.1 kv.2 else dest) dest

omit [DecidableEq κ] in
/-- A map is its entries. -/
@[ext] theorem ext {m m' : MultiMap κ ν} (h : m.entries = m'.entries) : m = m' := by
  cases m
  cases m'
  cases h
  rfl

-- ── lookups ───────────────────────────────────────────────────────────────────

/-- A key without values is no key of the map. -/
theorem get?_eq_none {m : MultiMap κ ν} {k : κ} : m.get? k = none ↔ k ∉ m.keys := by
  simp only [get?, keys, Option.map_eq_none_iff, List.find?_eq_none, decide_eq_true_eq,
    List.mem_map, not_exists, not_and]

/-- What is looked up is the entry. -/
theorem get?_eq_some {m : MultiMap κ ν} {k : κ} {vs : ν × List ν} :
    m.get? k = some vs ↔ (k, vs) ∈ m.entries := by
  constructor
  · intro h
    obtain ⟨e, hfind, rfl⟩ := Option.map_eq_some_iff.mp h
    have hkey : e.1 = k := by simpa using List.find?_some hfind
    exact hkey ▸ List.mem_of_find?_eq_some hfind
  · intro hmem
    cases hget : m.get? k with
    | none => exact absurd (List.mem_map_of_mem hmem) (get?_eq_none.mp hget)
    | some vs' =>
        obtain ⟨e, hfind, rfl⟩ := Option.map_eq_some_iff.mp hget
        have hkey : e.1 = k := by simpa using List.find?_some hfind
        have heq : e = (k, vs) :=
          List.inj_on_of_nodup_map m.nodup (List.mem_of_find?_eq_some hfind) hmem hkey
        rw [heq]

/-- A change is seen at its own key only. -/
theorem get?_upsert (m : MultiMap κ ν) (k : κ) (f : ν × List ν → ν × List ν) (v : ν) (k' : κ) :
    (m.upsert k f v).get? k'
      = if k' = k then some (((m.get? k).map f).getD (v, [])) else m.get? k' := by
  obtain ⟨es, hnodup⟩ := m
  simp only [get?, upsert]
  clear hnodup
  induction es with
  | nil =>
      by_cases h : k' = k
      · simp [upsertEntries, h]
      · simp [upsertEntries, h, Ne.symm h]
  | cons e es ih =>
      rw [upsertEntries]
      by_cases he : e.1 = k
      · rw [if_pos he]
        by_cases h : k' = k
        · simp [h, he]
        · simp [h, he, Ne.symm h]
      · rw [if_neg he]
        by_cases h : e.1 = k'
        · have hne : k' ≠ k := fun heq => he (h.trans heq)
          simp [h, hne]
        · simp only [List.find?_cons, decide_eq_false h, decide_eq_false he]
          exact ih

/-- An insertion replaces all values of its key. -/
@[simp] theorem getAll_insert (m : MultiMap κ ν) (k : κ) (v : ν) (k' : κ) :
    (m.insert k v).getAll k' = if k' = k then [v] else m.getAll k' := by
  rw [getAll, insert, get?_upsert]
  by_cases h : k' = k
  · rw [if_pos h, if_pos h]
    cases m.get? k <;> rfl
  · rw [if_neg h, if_neg h, getAll]

/-- The entries that are kept are kept whole. -/
theorem get?_filterKeys (m : MultiMap κ ν) (keep : κ → Bool) (k : κ) :
    (m.filterKeys keep).get? k = if keep k then m.get? k else none := by
  cases hget : (m.filterKeys keep).get? k with
  | none =>
      rw [get?_eq_none] at hget
      by_cases hkeep : keep k = true
      · rw [if_pos hkeep, Eq.comm, get?_eq_none]
        intro hmem
        obtain ⟨e, he, rfl⟩ := List.mem_map.mp hmem
        exact hget (List.mem_map_of_mem (List.mem_filter.mpr ⟨he, hkeep⟩))
      · rw [if_neg hkeep]
  | some vs =>
      obtain ⟨hmem, hkeep⟩ := List.mem_filter.mp (get?_eq_some.mp hget)
      rw [if_pos hkeep, Eq.comm, get?_eq_some]
      exact hmem

@[simp] theorem getAll_filterKeys (m : MultiMap κ ν) (keep : κ → Bool) (k : κ) :
    (m.filterKeys keep).getAll k = if keep k then m.getAll k else [] := by
  rw [getAll, get?_filterKeys]
  by_cases hkeep : keep k = true
  · rw [if_pos hkeep, if_pos hkeep, getAll]
  · rw [if_neg hkeep, if_neg hkeep]
    rfl

/-- The first value of a key is the first that the iterator yields for it. -/
theorem find?_iter (m : MultiMap κ ν) (k : κ) :
    (m.iter.find? (fun kv => decide (kv.1 = k))).map Prod.snd = m.get k := by
  obtain ⟨es, hnodup⟩ := m
  simp only [iter, get, get?]
  clear hnodup
  induction es with
  | nil => rfl
  | cons e es ih =>
      rw [List.flatMap_cons, yields, List.cons_append]
      by_cases h : e.1 = k
      · simp [h]
      · have hrest :
            (e.2.2.map (fun v => (e.1, v))).find? (fun kv => decide (kv.1 = k)) = none := by
          simp [h]
        rw [List.find?_cons_of_neg (by simp [h]), List.find?_append, hrest, Option.none_or, ih,
          List.find?_cons_of_neg (by simp [h])]

-- ── related maps ──────────────────────────────────────────────────────────────

/-- The same keys, in the same order, with entries that are related. -/
def Related (R : κ × ν × List ν → κ × ν × List ν → Prop) (m m' : MultiMap κ ν) : Prop :=
  List.Forall₂ (fun e e' => e.1 = e'.1 ∧ R e e') m.entries m'.entries

section Related

variable {R : κ × ν × List ν → κ × ν × List ν → Prop} {m m' : MultiMap κ ν}

omit [DecidableEq κ] in
/-- Leaving out the same keys keeps two maps related. -/
theorem Related.filterKeys (h : Related R m m') (keep : κ → Bool) :
    Related R (m.filterKeys keep) (m'.filterKeys keep) := by
  show List.Forall₂ _ (m.entries.filter _) (m'.entries.filter _)
  rw [Related] at h
  generalize m.entries = es at h ⊢
  generalize m'.entries = es' at h ⊢
  induction h with
  | nil => exact .nil
  | @cons e e' es es' he _ ih =>
      rw [List.filter_cons, List.filter_cons, he.1]
      cases keep e'.1 with
      | true => exact .cons he ih
      | false => exact ih

/-- One value put in the place of a key's. -/
theorem Related.insert (h : Related R m m') {k : κ} {v : ν} (hnew : R (k, v, []) (k, v, [])) :
    Related R (m.insert k v) (m'.insert k v) := by
  show List.Forall₂ _ (upsertEntries k _ v m.entries) (upsertEntries k _ v m'.entries)
  rw [Related] at h
  generalize m.entries = es at h ⊢
  generalize m'.entries = es' at h ⊢
  induction h with
  | nil => exact .cons ⟨rfl, hnew⟩ .nil
  | @cons e e' es es' he hes ih =>
      rw [upsertEntries, upsertEntries, he.1]
      by_cases hk : e'.1 = k
      · rw [if_pos hk, if_pos hk]
        exact .cons ⟨rfl, hnew⟩ hes
      · rw [if_neg hk, if_neg hk]
        exact .cons he ih

/-- A key whose related entries are equal. -/
theorem Related.get? (h : Related R m m') {k : κ} (hk : ∀ vs vs', R (k, vs) (k, vs') → vs = vs') :
    m.get? k = m'.get? k := by
  rw [Related] at h
  rw [MultiMap.get?, MultiMap.get?]
  generalize m.entries = es at h ⊢
  generalize m'.entries = es' at h ⊢
  induction h with
  | nil => rfl
  | @cons e e' es es' he _ ih =>
      obtain ⟨key, vs⟩ := e
      obtain ⟨key', vs'⟩ := e'
      obtain ⟨hkey, hrel⟩ := he
      obtain rfl : key = key' := hkey
      by_cases hkey : key = k
      · subst hkey
        simp [hk vs vs' hrel]
      · rw [List.find?_cons_of_neg (by simp [hkey]), List.find?_cons_of_neg (by simp [hkey]), ih]

end Related

-- ── copies ────────────────────────────────────────────────────────────────────

/-- A new key goes to the end. -/
theorem upsertEntries_of_not_mem {k : κ} {f : ν × List ν → ν × List ν} {v : ν}
    {es : List (κ × ν × List ν)} (h : k ∉ es.map Prod.fst) :
    upsertEntries k f v es = es ++ [(k, v, [])] := by
  induction es with
  | nil => rfl
  | cons e es ih =>
      rw [List.map_cons, List.mem_cons, not_or] at h
      rw [upsertEntries, if_neg (Ne.symm h.1), ih h.2, List.cons_append]

/-- A change of the last key leaves the entries before it. -/
theorem upsertEntries_last {k : κ} {f : ν × List ν → ν × List ν} {v : ν}
    {es : List (κ × ν × List ν)} {vs : ν × List ν} (h : k ∉ es.map Prod.fst) :
    upsertEntries k f v (es ++ [(k, vs)]) = es ++ [(k, f vs)] := by
  induction es with
  | nil => exact if_pos rfl
  | cons e es ih =>
      rw [List.map_cons, List.mem_cons, not_or] at h
      rw [List.cons_append, upsertEntries, if_neg (Ne.symm h.1), ih h.2, List.cons_append]

/-- The values of an entry appended to the map that has its first ones last. -/
theorem foldl_append_rest {k : κ} {first : ν} (rest : List ν) {done : List ν}
    {es : List (κ × ν × List ν)} (h : k ∉ es.map Prod.fst) {m : MultiMap κ ν}
    (hm : m.entries = es ++ [(k, first, done)]) :
    (rest.foldl (fun m v => m.append k v) m).entries = es ++ [(k, first, done ++ rest)] := by
  induction rest generalizing m done with
  | nil => rw [List.append_nil, List.foldl_nil, hm]
  | cons v rest ih =>
      have hstep : (m.append k v).entries = es ++ [(k, first, done ++ [v])] := by
        show upsertEntries k _ v m.entries = _
        rw [hm, upsertEntries_last h]
      rw [List.foldl_cons, ih hstep, List.append_assoc, List.singleton_append]

/-- What the iterator yields for an entry, appended, is the entry again. -/
theorem foldl_append_entry {m : MultiMap κ ν} (e : κ × ν × List ν) (h : e.1 ∉ m.keys) :
    ((yields e).foldl (fun m kv => m.append kv.1 kv.2) m).entries = m.entries ++ [e] := by
  have hfirst : (m.append e.1 e.2.1).entries = m.entries ++ [(e.1, e.2.1, [])] := by
    exact upsertEntries_of_not_mem h
  rw [yields, List.foldl_cons, List.foldl_map, foldl_append_rest e.2.2 h hfirst, List.nil_append]

/-- A key that is left out adds nothing. -/
theorem foldl_skip {dest : MultiMap κ ν} {keep : κ → Bool} (kvs : List (κ × ν))
    (h : ∀ kv ∈ kvs, keep kv.1 = false) :
    kvs.foldl (fun dest kv => if keep kv.1 then dest.append kv.1 kv.2 else dest) dest = dest := by
  induction kvs with
  | nil => rfl
  | cons kv kvs ih =>
      rw [List.foldl_cons, if_neg (by rw [h kv List.mem_cons_self]; simp)]
      exact ih (fun kv' hkv' => h kv' (List.mem_cons_of_mem kv hkv'))

/-- A key that is kept adds all its values. -/
theorem foldl_keep {dest : MultiMap κ ν} {keep : κ → Bool} (kvs : List (κ × ν))
    (h : ∀ kv ∈ kvs, keep kv.1 = true) :
    kvs.foldl (fun dest kv => if keep kv.1 then dest.append kv.1 kv.2 else dest) dest
      = kvs.foldl (fun dest kv => dest.append kv.1 kv.2) dest := by
  induction kvs generalizing dest with
  | nil => rfl
  | cons kv kvs ih =>
      rw [List.foldl_cons, List.foldl_cons, if_pos (h kv List.mem_cons_self)]
      exact ih (fun kv' hkv' => h kv' (List.mem_cons_of_mem kv hkv'))

omit [DecidableEq κ] in
/-- The iterator yields an entry under its own key. -/
theorem mem_yields {e : κ × ν × List ν} {kv : κ × ν} (h : kv ∈ yields e) : kv.1 = e.1 := by
  rcases List.mem_cons.mp h with rfl | h
  · rfl
  · obtain ⟨v, -, rfl⟩ := List.mem_map.mp h
    rfl

/-- **A COPY IS THE MAP** without the keys that were left out. -/
theorem copy_empty (m : MultiMap κ ν) (keep : κ → Bool) :
    m.copy ∅ keep = m.filterKeys keep := by
  have hgeneral : ∀ (es : List (κ × ν × List ν)) (dest : MultiMap κ ν),
      (dest.keys ++ es.map Prod.fst).Nodup →
      ((es.flatMap yields).foldl (fun dest kv => if keep kv.1 then dest.append kv.1 kv.2 else dest)
        dest).entries = dest.entries ++ es.filter (fun e => keep e.1) := by
    intro es
    induction es with
    | nil => intro dest _; simp
    | cons e es ih =>
        intro dest hnodup
        have hfresh : e.1 ∉ dest.keys := fun hmem =>
          (List.nodup_append.mp hnodup).2.2 e.1 hmem e.1 List.mem_cons_self rfl
        rw [List.flatMap_cons, List.foldl_append]
        cases hkeep : keep e.1 with
        | false =>
            rw [foldl_skip (yields e) (fun kv hkv => by rw [mem_yields hkv, hkeep]),
              List.filter_cons, hkeep, if_neg (by simp)]
            refine ih dest (hnodup.sublist ?_)
            exact (List.Sublist.refl _).append (List.sublist_cons_self _ _)
        | true =>
            rw [foldl_keep (yields e) (fun kv hkv => by rw [mem_yields hkv, hkeep]),
              List.filter_cons, hkeep, if_pos rfl]
            have hentries := foldl_append_entry (m := dest) e hfresh
            rw [ih _ ?_, hentries, List.append_assoc, List.singleton_append]
            rw [keys, hentries, List.map_append, List.append_assoc]
            exact hnodup
  ext1
  rw [copy, iter, hgeneral m.entries ∅ (by exact m.nodup)]
  rfl

end MultiMap

end DevstackMultiMap
