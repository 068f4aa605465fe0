import Mathlib.Data.List.Sort
import Mathlib.Order.MinMax

/-! # Top N — the first of a stable sort against the last of an order

    `top` takes the first `n` elements of a list sorted by a key, largest first;
    elements of one key keep their order in the list.  `IsLast` says what the last
    `n` elements are in the lexicographic order of the key and a second one.

    The two agree on every key but one: the key whose group the cut falls into.
    There `top` takes the elements that come first in the list (`take_group`), so
    it takes the last `n` exactly if these are the ones with the largest second key
    (`isLast_iff`).

    `cut` is the largest of the `n` smallest keys; `cut_eq_some_iff` says which one this
    is by counting. -/

namespace DevstackTopN

variable {α κ σ : Type} [LinearOrder κ] [LinearOrder σ] (key : α → κ) (sub : α → σ)

/-- Sorted by the key, the largest first; a stable sort. -/
def descending (xs : List α) : List α := xs.mergeSort (fun a b => decide (key b ≤ key a))

def top (n : Nat) (xs : List α) : List α := (descending key xs).take n

/-- The elements of one key, in the order of the list. -/
def group (k : κ) (xs : List α) : List α := xs.filter (fun a => decide (key a = k))

/-- How many elements have a larger key. -/
def above (k : κ) (xs : List α) : Nat := (xs.filter (fun a => decide (k < key a))).length

/-- The lexicographic order of the two keys. -/
def lexLe (a b : α) : Bool := decide (key a < key b ∨ (key a = key b ∧ sub a ≤ sub b))

/-- Sorted by both keys; a stable sort. -/
def ascending (xs : List α) : List α := xs.mergeSort (lexLe key sub)

/-- The last `n` elements of `xs` in the order of both keys, or all if there are fewer:
    sorted, and none that is left out is larger. -/
structure IsLast (n : Nat) (xs result : List α) : Prop where
  sorted : result.Pairwise (fun a b => lexLe key sub a b = true)
  count : result.length = min n xs.length
  rest : ∃ rest, (result ++ rest).Perm xs ∧ ∀ a ∈ result, ∀ b ∈ rest, lexLe key sub b a = true

theorem lexLe_trans (a b c : α) (hab : lexLe key sub a b = true) (hbc : lexLe key sub b c = true) :
    lexLe key sub a c = true := by
  simp only [lexLe, decide_eq_true_eq] at hab hbc ⊢
  rcases hab with hab | ⟨hab, hsub⟩
  · rcases hbc with hbc | ⟨hbc, -⟩
    · exact .inl (lt_trans hab hbc)
    · exact .inl (hbc ▸ hab)
  · rcases hbc with hbc | ⟨hbc, hsub'⟩
    · exact .inl (hab ▸ hbc)
    · exact .inr ⟨hab.trans hbc, le_trans hsub hsub'⟩

theorem lexLe_total (a b : α) : (lexLe key sub a b || lexLe key sub b a) = true := by
  simp only [lexLe, Bool.or_eq_true, decide_eq_true_eq]
  rcases lt_trichotomy (key a) (key b) with h | h | h
  · exact .inl (.inl h)
  · rcases le_total (sub a) (sub b) with hs | hs
    · exact .inl (.inr ⟨h, hs⟩)
    · exact .inr (.inr ⟨h.symm, hs⟩)
  · exact .inr (.inl h)

theorem ascending_perm (xs : List α) : (ascending key sub xs).Perm xs :=
  List.mergeSort_perm xs _

theorem ascending_sorted (xs : List α) :
    (ascending key sub xs).Pairwise (fun a b => lexLe key sub a b = true) :=
  List.pairwise_mergeSort (lexLe_trans key sub) (lexLe_total key sub) xs

/-- A list that is in order, with at most one element for a pair of keys, is what a sort
    of its elements gives. -/
theorem ascending_of_perm {xs ys : List α} (hperm : ys.Perm xs)
    (hsorted : xs.Pairwise (fun a b => lexLe key sub a b = true))
    (hinj : ∀ a ∈ xs, ∀ b ∈ xs, sub a = sub b → a = b) : ascending key sub ys = xs := by
  have hall := (ascending_perm key sub ys).trans hperm
  refine List.Perm.eq_of_pairwise ?_ (ascending_sorted key sub ys) hsorted hall
  intro a b ha hb hab hba
  refine hinj a (hall.mem_iff.mp ha) b hb ?_
  simp only [lexLe, decide_eq_true_eq] at hab hba
  rcases hab with hab | ⟨hkey, hab⟩
  · rcases hba with hba | ⟨hba, -⟩
    · exact absurd hab (not_lt_of_gt hba)
    · exact absurd hab (hba ▸ lt_irrefl _)
  · rcases hba with hba | ⟨-, hba⟩
    · exact absurd hba (hkey ▸ lt_irrefl _)
    · exact le_antisymm hab hba

theorem descending_perm (xs : List α) : (descending key xs).Perm xs :=
  List.mergeSort_perm xs _

theorem descLe_trans (a b c : α) (hab : decide (key b ≤ key a) = true)
    (hbc : decide (key c ≤ key b) = true) : decide (key c ≤ key a) = true :=
  decide_eq_true (le_trans (of_decide_eq_true hbc) (of_decide_eq_true hab))

theorem descLe_total (a b : α) : (decide (key b ≤ key a) || decide (key a ≤ key b)) = true := by
  rw [Bool.or_eq_true, decide_eq_true_eq, decide_eq_true_eq]
  exact le_total _ _

theorem descending_sorted (xs : List α) :
    (descending key xs).Pairwise (fun a b => key b ≤ key a) :=
  (List.pairwise_mergeSort (descLe_trans key) (descLe_total key) xs).imp of_decide_eq_true

theorem mem_group {k : κ} {xs : List α} {a : α} : a ∈ group key k xs ↔ a ∈ xs ∧ key a = k := by
  rw [group, List.mem_filter, decide_eq_true_eq]

/-- The sort is stable: it keeps the elements of one key in their order. -/
theorem group_descending (k : κ) (xs : List α) :
    group key k (descending key xs) = group key k xs := by
  have hsorted : (group key k xs).Pairwise (fun a b => decide (key b ≤ key a) = true) := by
    refine List.pairwise_iff_forall_sublist.mpr ?_
    intro a b hab
    have ha := ((mem_group key).mp (hab.subset List.mem_cons_self)).2
    have hb := ((mem_group key).mp (hab.subset (List.mem_cons_of_mem _ List.mem_cons_self))).2
    exact decide_eq_true (by rw [ha, hb])
  have hsub : (group key k xs).Sublist (descending key xs) :=
    List.sublist_mergeSort (descLe_trans key) (descLe_total key) hsorted List.filter_sublist
  have hself : group key k (group key k xs) = group key k xs :=
    List.filter_eq_self.mpr (fun a ha => decide_eq_true ((mem_group key).mp ha).2)
  have hfilter : (group key k xs).Sublist (group key k (descending key xs)) :=
    hself ▸ hsub.filter _
  have hlength : (group key k (descending key xs)).length = (group key k xs).length :=
    ((descending_perm key xs).filter _).length_eq
  exact (hfilter.eq_of_length hlength.symm).symm

/-- A sorted list is its larger keys, the group of a key, and its smaller keys. -/
theorem sorted_split (k : κ) {xs : List α} (h : xs.Pairwise (fun a b => key b ≤ key a)) :
    xs.filter (fun a => decide (k < key a)) ++ (group key k xs
      ++ xs.filter (fun a => decide (key a < k))) = xs := by
  induction xs with
  | nil => rfl
  | cons a xs ih =>
      obtain ⟨hhead, htail⟩ := List.pairwise_cons.mp h
      have ih := ih htail
      rcases lt_trichotomy k (key a) with hk | hk | hk
      · simp only [group] at ih
        simp [group, hk, ne_of_gt hk, not_lt_of_gt hk, ih]
      · -- nothing larger follows
        have hlarger : xs.filter (fun a => decide (k < key a)) = [] := by
          refine List.filter_eq_nil_iff.mpr (fun b hb => ?_)
          rw [decide_eq_true_eq, hk]
          exact not_lt_of_ge (hhead b hb)
        rw [hlarger, List.nil_append] at ih
        simp only [group] at ih
        simp [group, ← hk, hlarger, ih]
      · have hlarger : xs.filter (fun a => decide (k < key a)) = [] := by
          refine List.filter_eq_nil_iff.mpr (fun b hb => ?_)
          rw [decide_eq_true_eq]
          exact not_lt_of_ge (le_trans (hhead b hb) (le_of_lt hk))
        have hgroup : group key k xs = [] := by
          refine List.filter_eq_nil_iff.mpr (fun b hb => ?_)
          rw [decide_eq_true_eq]
          exact ne_of_lt (lt_of_le_of_lt (hhead b hb) hk)
        rw [hlarger, hgroup, List.nil_append, List.nil_append] at ih
        simp only [group] at hgroup
        simp [group, hk, ne_of_lt hk, not_lt_of_gt hk, hlarger, hgroup, ih]

/-- What the first `n` have of a group are its first elements; the larger keys come
    before them. -/
theorem take_group (k : κ) (n : Nat) (xs : List α) :
    group key k (top key n xs) = (group key k xs).take (n - above key k xs)
      ∧ group key k ((descending key xs).drop n)
          = (group key k xs).drop (n - above key k xs) := by
  have hsplit := sorted_split key k (descending_sorted key xs)
  rw [group_descending] at hsplit
  have habove : above key k xs
      = ((descending key xs).filter (fun a => decide (k < key a))).length :=
    ((descending_perm key xs).filter _).length_eq.symm
  have hnone : ∀ {ys : List α}, (∀ a ∈ ys, key a ≠ k) → group key k ys = [] := by
    intro ys hys
    refine List.filter_eq_nil_iff.mpr (fun a ha => ?_)
    rw [decide_eq_true_eq]
    exact hys a ha
  have hself : ∀ {ys : List α}, (∀ a ∈ ys, a ∈ group key k xs) → group key k ys = ys := by
    intro ys hys
    refine List.filter_eq_self.mpr (fun a ha => ?_)
    exact decide_eq_true ((mem_group key).mp (hys a ha)).2
  have hlarger : ∀ a ∈ (descending key xs).filter (fun a => decide (k < key a)), key a ≠ k := by
    intro a ha
    exact ne_of_gt (of_decide_eq_true (List.mem_filter.mp ha).2)
  have hsmaller : ∀ a ∈ (descending key xs).filter (fun a => decide (key a < k)), key a ≠ k := by
    intro a ha
    exact ne_of_lt (of_decide_eq_true (List.mem_filter.mp ha).2)
  generalize (descending key xs).filter (fun a => decide (k < key a)) = larger
    at hsplit habove hlarger
  generalize (descending key xs).filter (fun a => decide (key a < k)) = smaller
    at hsplit hsmaller
  rw [top, ← hsplit, List.take_append, List.take_append, List.drop_append, List.drop_append,
    ← habove]
  simp only [group, List.filter_append]
  simp only [group] at hnone hself
  constructor
  · rw [hnone (fun a ha => hlarger a (List.mem_of_mem_take ha)),
      hself (fun a ha => List.mem_of_mem_take ha),
      hnone (fun a ha => hsmaller a (List.mem_of_mem_take ha)), List.nil_append, List.append_nil]
  · rw [hnone (fun a ha => hlarger a (List.mem_of_mem_drop ha)),
      hself (fun a ha => List.mem_of_mem_drop ha),
      hnone (fun a ha => hsmaller a (List.mem_of_mem_drop ha)), List.nil_append, List.append_nil]

/-- **WHEN THE FIRST ARE THE LAST.**  Sorted by both keys, what `top` takes are the last
    `n` exactly if the cut through a group leaves out none with a larger second key than
    one it takes. -/
theorem isLast_iff (n : Nat) (xs : List α) :
    IsLast key sub n xs (ascending key sub (top key n xs))
      ↔ ∀ k, ∀ a ∈ (group key k xs).take (n - above key k xs),
          ∀ b ∈ (group key k xs).drop (n - above key k xs), sub b ≤ sub a := by
  have hdesc := descending_sorted key xs
  have hcut : top key n xs ++ (descending key xs).drop n = descending key xs :=
    List.take_append_drop n _
  have hperm : (ascending key sub (top key n xs) ++ (descending key xs).drop n).Perm xs := by
    have happend := (ascending_perm key sub (top key n xs)).append_right
      ((descending key xs).drop n)
    rw [hcut] at happend
    exact happend.trans (descending_perm key xs)
  constructor
  · rintro ⟨-, -, rest, hrest, hle⟩ k a ha b hb
    rw [← (take_group key k n xs).1, mem_group] at ha
    rw [← (take_group key k n xs).2, mem_group] at hb
    -- what is left out is the same in both cuts
    have hsame : rest.Perm ((descending key xs).drop n) :=
      (List.perm_append_left_iff _).mp (hrest.trans hperm.symm)
    have hab := hle a ((ascending_perm key sub _).mem_iff.mpr ha.1) b (hsame.mem_iff.mpr hb.1)
    simp only [lexLe, decide_eq_true_eq, ha.2, hb.2] at hab
    rcases hab with hlt | ⟨-, hsub⟩
    · exact absurd hlt (lt_irrefl k)
    · exact hsub
  · intro h
    refine ⟨ascending_sorted key sub _, ?_, _, hperm, ?_⟩
    · rw [(ascending_perm key sub _).length_eq, top, List.length_take,
        (descending_perm key xs).length_eq]
    · intro a ha b hb
      have ha : a ∈ top key n xs := (ascending_perm key sub _).mem_iff.mp ha
      have hkeys : key b ≤ key a := by
        rw [← hcut] at hdesc
        exact (List.pairwise_append.mp hdesc).2.2 a ha b hb
      simp only [lexLe, decide_eq_true_eq]
      rcases lt_or_eq_of_le hkeys with hlt | heq
      · exact .inl hlt
      · refine .inr ⟨heq, h (key a) a ?_ b ?_⟩
        · rw [← (take_group key (key a) n xs).1, mem_group]
          exact ⟨ha, rfl⟩
        · rw [← (take_group key (key a) n xs).2, mem_group]
          exact ⟨hb, heq⟩

/-! ## Lists with the same groups -/

/-- A sorted list is told by its groups. -/
theorem eq_of_groups {xs ys : List α} (hxs : xs.Pairwise (fun a b => key b ≤ key a))
    (hys : ys.Pairwise (fun a b => key b ≤ key a))
    (h : ∀ k, group key k xs = group key k ys) : xs = ys := by
  induction xs generalizing ys with
  | nil =>
      cases ys with
      | nil => rfl
      | cons y ys =>
          have hy : y ∈ group key (key y) ([] : List α) := by
            rw [h]
            exact (mem_group key).mpr ⟨List.mem_cons_self, rfl⟩
          cases hy
  | cons x xs ih =>
      have hx : x ∈ ys := by
        refine ((mem_group key (k := key x)).mp ?_).1
        rw [← h]
        exact (mem_group key).mpr ⟨List.mem_cons_self, rfl⟩
      cases ys with
      | nil => cases hx
      | cons y ys =>
          obtain ⟨hxhead, hxtail⟩ := List.pairwise_cons.mp hxs
          obtain ⟨hyhead, hytail⟩ := List.pairwise_cons.mp hys
          have hy : y ∈ x :: xs := by
            refine ((mem_group key (k := key y)).mp ?_).1
            rw [h]
            exact (mem_group key).mpr ⟨List.mem_cons_self, rfl⟩
          -- both begin with the largest key
          have hkey : key x = key y := by
            refine le_antisymm ?_ ?_
            · rcases List.mem_cons.mp hx with rfl | hx
              · exact le_refl _
              · exact hyhead x hx
            · rcases List.mem_cons.mp hy with rfl | hy
              · exact le_refl _
              · exact hxhead y hy
          have hgroups : ∀ k, (if key x = k then [x] else []) ++ group key k xs
              = (if key x = k then [y] else []) ++ group key k ys := by
            intro k
            have hk := h k
            simp only [group, List.filter_cons, ← hkey] at hk ⊢
            by_cases hxk : key x = k
            · simpa [hxk] using hk
            · simpa [hxk] using hk
          have hfirst : x = y := by
            have hgroup := hgroups (key x)
            rw [if_pos rfl, if_pos rfl] at hgroup
            exact (List.cons.inj hgroup).1
          have hrest : ∀ k, group key k xs = group key k ys := by
            intro k
            have hgroup := hgroups k
            rw [hfirst] at hgroup
            exact List.append_cancel_left hgroup
          rw [hfirst, ih hxtail hytail hrest]

theorem descending_congr {xs ys : List α} (h : ∀ k, group key k xs = group key k ys) :
    descending key xs = descending key ys := by
  refine eq_of_groups key (descending_sorted key xs) (descending_sorted key ys) ?_
  intro k
  rw [group_descending, group_descending, h k]

/-- The keys from `k` on come first. -/
theorem descending_split (k : κ) (xs : List α) :
    descending key xs = descending key (xs.filter (fun a => decide (k ≤ key a)))
      ++ descending key (xs.filter (fun a => decide (key a < k))) := by
  refine eq_of_groups key (descending_sorted key xs) ?_ ?_
  · refine List.pairwise_append.mpr ⟨descending_sorted key _, descending_sorted key _, ?_⟩
    intro a ha b hb
    have ha := of_decide_eq_true (List.mem_filter.mp ((descending_perm key _).mem_iff.mp ha)).2
    have hb := of_decide_eq_true (List.mem_filter.mp ((descending_perm key _).mem_iff.mp hb)).2
    exact le_of_lt (lt_of_lt_of_le hb ha)
  · intro l
    rw [group, group, List.filter_append]
    show group key l _ = group key l _ ++ group key l _
    rw [group_descending, group_descending, group_descending]
    simp only [group, List.filter_filter]
    rcases lt_or_ge l k with hlt | hle
    · have hnone : xs.filter (fun a => decide (key a = l) && decide (k ≤ key a)) = [] := by
        refine List.filter_eq_nil_iff.mpr ?_
        intro a _ ha
        rw [Bool.and_eq_true, decide_eq_true_eq, decide_eq_true_eq] at ha
        exact absurd (ha.1 ▸ ha.2) (not_le_of_gt hlt)
      rw [hnone, List.nil_append]
      refine List.filter_congr ?_
      intro a _
      by_cases ha : key a = l
      · simp [ha, hlt]
      · simp [ha]
    · have hnone : xs.filter (fun a => decide (key a = l) && decide (key a < k)) = [] := by
        refine List.filter_eq_nil_iff.mpr ?_
        intro a _ ha
        rw [Bool.and_eq_true, decide_eq_true_eq, decide_eq_true_eq] at ha
        exact absurd (ha.1 ▸ ha.2) (not_lt_of_ge hle)
      rw [hnone, List.append_nil]
      refine List.filter_congr ?_
      intro a _
      by_cases ha : key a = l
      · simp [ha, hle]
      · simp [ha]

/-- **THE FIRST ARE TOLD BY THE LARGE KEYS.**  Lists whose groups agree from a key on have the
    same first `n` elements, if that many have such a key. -/
theorem top_congr {k : κ} {n : Nat} {xs ys : List α}
    (h : ∀ l, k ≤ l → group key l xs = group key l ys)
    (hn : n ≤ (xs.filter (fun a => decide (k ≤ key a))).length) :
    top key n xs = top key n ys := by
  have hlarge : descending key (xs.filter (fun a => decide (k ≤ key a)))
      = descending key (ys.filter (fun a => decide (k ≤ key a))) := by
    refine descending_congr key ?_
    intro l
    have hfilter : ∀ zs : List α, group key l (zs.filter (fun a => decide (k ≤ key a)))
        = if k ≤ l then group key l zs else [] := by
      intro zs
      rw [group, List.filter_filter]
      split
      · next hl =>
          refine List.filter_congr ?_
          intro a _
          by_cases ha : key a = l
          · simp [ha, hl]
          · simp [ha]
      · next hl =>
          refine List.filter_eq_nil_iff.mpr ?_
          intro a _ ha
          rw [Bool.and_eq_true, decide_eq_true_eq, decide_eq_true_eq] at ha
          exact hl (ha.1 ▸ ha.2)
    rw [hfilter, hfilter]
    split
    · next hl => exact h l hl
    · rfl
  have hlength := (descending_perm key (xs.filter (fun a => decide (k ≤ key a)))).length_eq
  rw [top, top, descending_split key k xs, descending_split key k ys, ← hlarge,
    List.take_append_of_le_length (by omega), List.take_append_of_le_length (by omega)]

/-! ## The key at the cut -/

/-- The largest of the `n` smallest keys. -/
def cut (n : Nat) (keys : List κ) : Option κ := ((keys.insertionSort (· ≤ ·)).take n).max?

/-- Less than `n` keys are smaller, and `n` keys, or all, are not larger. -/
structure IsCut (n : Nat) (keys : List κ) (k : κ) : Prop where
  mem : k ∈ keys
  before : keys.countP (fun key => decide (key < k)) < n
  reaches : min n keys.length ≤ keys.countP (fun key => decide (key ≤ k))

theorem IsCut.not_lt {n : Nat} {keys : List κ} {k l : κ} (hk : IsCut n keys k)
    (hl : IsCut n keys l) : ¬ k < l := by
  intro hlt
  -- what is not larger than `k` is smaller than `l`
  have hle : keys.countP (fun key => decide (key ≤ k)) ≤ keys.countP (fun key => decide (key < l)) :=
    List.countP_mono_left fun key _ hkey =>
      decide_eq_true (lt_of_le_of_lt (of_decide_eq_true hkey) hlt)
  have hall : keys.length = keys.countP (fun key => decide (key ≤ k)) := by
    have hreaches := hk.reaches
    have hbefore := hl.before
    have hlength := List.countP_le_length (p := fun key => decide (key ≤ k)) (l := keys)
    omega
  exact absurd (of_decide_eq_true (List.countP_eq_length.mp hall.symm l hl.mem)) (not_le_of_gt hlt)

/-- There is one at most. -/
theorem IsCut.unique {n : Nat} {keys : List κ} {k l : κ} (hk : IsCut n keys k)
    (hl : IsCut n keys l) : k = l :=
  le_antisymm (le_of_not_gt (hl.not_lt hk)) (le_of_not_gt (hk.not_lt hl))

theorem isCut_of_cut {n : Nat} {keys : List κ} {k : κ} (h : cut n keys = some k) :
    IsCut n keys k := by
  obtain ⟨hmem, hmax⟩ := List.max?_eq_some_iff.mp h
  have hperm : (keys.insertionSort (· ≤ ·)).Perm keys := List.perm_insertionSort _ keys
  have hsorted : (keys.insertionSort (· ≤ ·)).Pairwise (· ≤ ·) := List.pairwise_insertionSort _ keys
  have hsplit := List.take_append_drop n (keys.insertionSort (· ≤ ·))
  refine ⟨hperm.mem_iff.mp (List.mem_of_mem_take hmem), ?_, ?_⟩
  · rw [← hperm.countP_eq, ← hsplit, List.countP_append]
    have hdrop : ((keys.insertionSort (· ≤ ·)).drop n).countP (fun key => decide (key < k)) = 0 := by
      refine List.countP_eq_zero.mpr fun key hkey => ?_
      rw [← hsplit] at hsorted
      rw [decide_eq_true_eq]
      exact not_lt_of_ge ((List.pairwise_append.mp hsorted).2.2 k hmem key hkey)
    have htake : ((keys.insertionSort (· ≤ ·)).take n).countP (fun key => decide (key < k))
        < ((keys.insertionSort (· ≤ ·)).take n).length := by
      refine lt_of_le_of_ne List.countP_le_length fun hall => ?_
      exact lt_irrefl k (of_decide_eq_true (List.countP_eq_length.mp hall k hmem))
    rw [hdrop]
    exact lt_of_lt_of_le htake (List.length_take_le _ _)
  · have hall : ((keys.insertionSort (· ≤ ·)).take n).countP (fun key => decide (key ≤ k))
        = ((keys.insertionSort (· ≤ ·)).take n).length :=
      List.countP_eq_length.mpr fun key hkey => decide_eq_true (hmax key hkey)
    rw [← hperm.countP_eq, ← hperm.length_eq, ← List.length_take, ← hall]
    exact (List.take_sublist n _).countP_le

/-- **THE CUT BY COUNTING.** -/
theorem cut_eq_some_iff {n : Nat} {keys : List κ} {k : κ} :
    cut n keys = some k ↔ IsCut n keys k := by
  refine ⟨isCut_of_cut, fun h => ?_⟩
  cases hcut : cut n keys with
  | some l => rw [h.unique (isCut_of_cut hcut)]
  | none =>
      have hnone := List.max?_eq_none_iff.mp hcut
      rcases List.take_eq_nil_iff.mp hnone with hzero | hempty
      · exact absurd (hzero ▸ h.before) (Nat.not_lt_zero _)
      · have hmem := (List.perm_insertionSort (· ≤ ·) keys).mem_iff.mpr h.mem
        rw [hempty] at hmem
        exact nomatch hmem

end DevstackTopN
