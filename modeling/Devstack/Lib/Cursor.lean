import Mathlib.Data.List.Nodup
import Mathlib.Order.Basic

/-! # Cursors — reading a growing list by its keys

    The keys of a list ascend, and the list grows at its end.  A reader keeps a key and
    asks for items with a larger one, a page at a time; its next key is the last one of
    the page, and it stays where it is when the page is empty.

    A reader that stands where it has read to (`At`) gets exactly the next items and
    stands where it has read to again (`At.page`), also if the list has grown in the
    meantime (`At.grow`). -/

namespace DevstackCursor

variable {α : Type} (key : α → Nat)

/-- The keys ascend. -/
def Ascending (items : List α) : Prop := items.Pairwise (fun a b => key a < key b)

/-- The items with a key larger than the cursor. -/
def later (cursor : Nat) (items : List α) : List α :=
  items.filter (fun a => decide (cursor < key a))

/-- The key of the last item. -/
def lastKey (items : List α) : Option Nat := items.getLast?.map key

/-- Where a reader that began at `start` stands. -/
def cursorAfter (start : Nat) (seen : List α) : Nat := (lastKey key seen).getD start

@[simp] theorem lastKey_nil : lastKey key ([] : List α) = none := rfl

theorem lastKey_concat (items : List α) (a : α) : lastKey key (items ++ [a]) = some (key a) := by
  rw [lastKey, List.getLast?_concat, Option.map_some]

theorem lastKey_eq_none {items : List α} : lastKey key items = none ↔ items = [] := by
  rw [lastKey, Option.map_eq_none_iff, List.getLast?_eq_none_iff]

theorem lastKey_append (items more : List α) :
    lastKey key (items ++ more) = (lastKey key more).or (lastKey key items) := by
  rcases List.eq_nil_or_concat more with rfl | ⟨init, a, rfl⟩
  · rw [List.append_nil]; rfl
  · rw [List.concat_eq_append, ← List.append_assoc, lastKey_concat, lastKey_concat, Option.some_or]

theorem cursorAfter_append (start : Nat) (seen more : List α) :
    cursorAfter key start (seen ++ more) = (lastKey key more).getD (cursorAfter key start seen) := by
  rw [cursorAfter, lastKey_append, cursorAfter]
  cases lastKey key more with
  | none => rfl
  | some k => rfl

variable {key}

theorem Ascending.sublist {items items' : List α} (h : Ascending key items)
    (hsub : items'.Sublist items) : Ascending key items' := List.Pairwise.sublist hsub h

/-- There is one item for a key. -/
theorem Ascending.inj {items : List α} (h : Ascending key items) :
    ∀ a ∈ items, ∀ b ∈ items, key a = key b → a = b := by
  have hnodup : (items.map key).Nodup :=
    (List.pairwise_map.mpr h).imp fun hlt => Nat.ne_of_lt hlt
  exact fun a ha b hb => List.inj_on_of_nodup_map hnodup ha hb

theorem lt_of_mem_later {cursor : Nat} {items : List α} {a : α} (h : a ∈ later key cursor items) :
    cursor < key a := of_decide_eq_true (List.mem_filter.mp h).2

theorem later_sublist (cursor : Nat) (items : List α) : (later key cursor items).Sublist items :=
  List.filter_sublist

/-- The last key is the largest. -/
theorem Ascending.le_lastKey {items : List α} (h : Ascending key items) {k : Nat}
    (hk : lastKey key items = some k) : ∀ a ∈ items, key a ≤ k := by
  rcases List.eq_nil_or_concat items with rfl | ⟨init, b, rfl⟩
  · exact nomatch hk
  · rw [List.concat_eq_append] at h hk ⊢
    rw [lastKey_concat, Option.some.injEq] at hk
    subst hk
    intro a ha
    rcases List.mem_append.mp ha with ha | ha
    · exact Nat.le_of_lt ((List.pairwise_append.mp h).2.2 a ha b List.mem_cons_self)
    · exact Nat.le_of_eq (congrArg key (List.mem_singleton.mp ha))

theorem Ascending.max?_eq {items : List α} (h : Ascending key items) :
    (items.map key).max? = lastKey key items := by
  rcases List.eq_nil_or_concat items with rfl | ⟨init, b, rfl⟩
  · rfl
  · have hlast := lastKey_concat key init b
    rw [← List.concat_eq_append] at hlast
    rw [hlast, List.max?_eq_some_iff]
    refine ⟨List.mem_map_of_mem (by simp), fun k hk => ?_⟩
    obtain ⟨a, ha, rfl⟩ := List.mem_map.mp hk
    exact h.le_lastKey hlast a ha

theorem later_of_forall {cursor : Nat} {items : List α} (h : ∀ a ∈ items, cursor < key a) :
    later key cursor items = items :=
  List.filter_eq_self.mpr fun a ha => decide_eq_true (h a ha)

theorem later_of_le {cursor : Nat} {items : List α} (h : ∀ a ∈ items, key a ≤ cursor) :
    later key cursor items = [] :=
  List.filter_eq_nil_iff.mpr fun a ha => by have := h a ha; simp; omega

theorem later_later {cursor cursor' : Nat} (h : cursor ≤ cursor') (items : List α) :
    later key cursor' (later key cursor items) = later key cursor' items := by
  rw [later, later, later, List.filter_filter]
  refine List.filter_congr fun a _ => ?_
  by_cases ha : cursor' < key a
  · simp [ha, Nat.lt_of_le_of_lt h ha]
  · simp [ha]

/-- What is later than the last of what was seen is what was not seen. -/
theorem later_lastKey {seen rest : List α} (h : Ascending key (seen ++ rest)) {k : Nat}
    (hk : lastKey key seen = some k) : later key k (seen ++ rest) = rest := by
  obtain ⟨hseen, -, hcross⟩ := List.pairwise_append.mp h
  have hle : ∀ a ∈ seen, key a ≤ k := Ascending.le_lastKey hseen hk
  have hlt : ∀ b ∈ rest, k < key b := by
    intro b hb
    obtain ⟨a, ha, rfl⟩ := Option.map_eq_some_iff.mp hk
    exact hcross a (List.mem_of_getLast? ha) b hb
  rw [later, List.filter_append]
  show later key k seen ++ later key k rest = rest
  rw [later_of_le hle, later_of_forall hlt, List.nil_append]

theorem later_cursorAfter {start : Nat} {seen rest : List α} (h : Ascending key (seen ++ rest))
    (hstart : seen = [] → ∀ a ∈ rest, start < key a) :
    later key (cursorAfter key start seen) (seen ++ rest) = rest := by
  cases hlast : lastKey key seen with
  | none =>
      obtain rfl := (lastKey_eq_none key).mp hlast
      exact later_of_forall (hstart rfl)
  | some k =>
      rw [cursorAfter, hlast]
      exact later_lastKey h hlast

/-- The items below a key come first. -/
theorem Ascending.split {items : List α} (h : Ascending key items) (n : Nat) :
    items.filter (fun a => decide (key a < n)) ++ items.filter (fun a => decide (n ≤ key a))
      = items := by
  induction items with
  | nil => rfl
  | cons a items ih =>
      obtain ⟨ha, hrest⟩ := List.pairwise_cons.mp h
      by_cases hn : key a < n
      · rw [List.filter_cons_of_pos (by simpa using hn), List.filter_cons_of_neg (by simpa using hn),
          List.cons_append, ih hrest]
      · have hall : ∀ b ∈ items, n ≤ key b := by
          intro b hb
          have := ha b hb
          omega
        have hbelow : items.filter (fun b => decide (key b < n)) = [] :=
          List.filter_eq_nil_iff.mpr fun b hb => by have := hall b hb; simp; omega
        rw [List.filter_cons_of_neg (by simpa using hn), hbelow, List.nil_append]
        exact List.filter_eq_self.mpr fun b hb => by
          rcases List.mem_cons.mp hb with rfl | hb
          · simpa using hn
          · simpa using hall b hb

variable (key)

/-- A reader of `items` that began at `start`, has seen `seen` and stands at `cursor`. -/
structure At (start : Nat) (items seen : List α) (cursor : Nat) : Prop where
  before : seen <+: items
  stands : cursor = cursorAfter key start seen

variable {key}

/-- The list may grow. -/
theorem At.grow {start cursor : Nat} {items items' seen : List α} (h : At key start items seen cursor)
    (hgrow : items <+: items') : At key start items' seen cursor :=
  ⟨h.before.trans hgrow, h.stands⟩

/-- A reader never goes back. -/
theorem At.start_le {start cursor : Nat} {items seen : List α} (h : At key start items seen cursor)
    (hstart : ∀ a ∈ items, start < key a) : start ≤ cursor := by
  rw [h.stands, cursorAfter]
  cases hlast : lastKey key seen with
  | none => exact Nat.le_refl _
  | some k =>
      obtain ⟨a, ha, rfl⟩ := Option.map_eq_some_iff.mp hlast
      exact Nat.le_of_lt (hstart a (h.before.subset (List.mem_of_getLast? ha)))

/-- **A PAGE** is what comes next, and leaves the reader behind it. -/
theorem At.page {start cursor : Nat} {items seen : List α} (h : At key start items seen cursor)
    (hasc : Ascending key items) (hstart : seen = [] → ∀ a ∈ items, start < key a) (n : Nat) :
    let page := (later key cursor items).take n
    seen ++ page = items.take (seen.length + n)
      ∧ At key start items (seen ++ page) ((lastKey key page).getD cursor) := by
  intro page
  obtain ⟨rest, hrest⟩ := h.before
  have hpage : page = rest.take n := by
    show (later key cursor items).take n = _
    rw [h.stands, ← hrest, later_cursorAfter (hrest ▸ hasc)]
    intro hnil a ha
    exact hstart hnil a (hrest ▸ List.mem_append_right seen ha)
  have htake : seen ++ page = items.take (seen.length + n) := by
    rw [hpage, ← hrest, List.take_length_add_append]
  refine ⟨htake, ?_, ?_⟩
  · rw [htake]
    exact List.take_prefix _ _
  · rw [cursorAfter_append, h.stands]

end DevstackCursor
