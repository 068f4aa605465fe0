import Mathlib.Logic.Basic

/-! # Reservations — who holds what

    A holding says which owner holds a key.  A call takes keys that are free and
    releases keys by owner; `Takes` is the first over any number of steps,
    `releaseAll` the second.

    `restored_iff` decides when a call that released some keys, took some and
    released some again has left the holding as it found it.  A list of requests
    is served until one is refused; `taken` is what it took by then. -/

namespace DevstackReservation

variable {κ ω : Type}

/-- Who holds a key. -/
abbrev Holding (κ ω : Type) := κ → Option ω

/-- Free keys were taken, and nothing else changed. -/
structure Takes (V : Holding κ ω) (ops : List (κ × ω)) (V' : Holding κ ω) : Prop where
  kept : ∀ k o, V k = some o → V' k = some o
  took : ∀ x ∈ ops, V x.1 = none ∧ V' x.1 = some x.2
  only : ∀ k o, V' k = some o → V k = some o ∨ (k, o) ∈ ops

section Takes

variable {V V₁ V₂ : Holding κ ω} {xs ys : List (κ × ω)}

theorem takes_nil (V : Holding κ ω) : Takes V [] V :=
  ⟨fun _ _ h => h, fun _ hx => (nomatch hx), fun _ _ h => Or.inl h⟩

/-- What is held afterwards was held before or taken. -/
theorem Takes.iff (h : Takes V xs V₁) (k : κ) (o : ω) :
    V₁ k = some o ↔ V k = some o ∨ (k, o) ∈ xs := by
  constructor
  · exact h.only k o
  · rintro (hk | hx)
    · exact h.kept k o hk
    · exact (h.took _ hx).2

/-- A key that is free afterwards was free before. -/
theorem Takes.free (h : Takes V xs V₁) {k : κ} (hk : V₁ k = none) : V k = none := by
  cases hV : V k with
  | none => rfl
  | some o =>
      rw [h.kept k o hV] at hk
      exact nomatch hk

theorem Takes.trans (h₁ : Takes V xs V₁) (h₂ : Takes V₁ ys V₂) : Takes V (xs ++ ys) V₂ := by
  refine ⟨fun k o hk => h₂.kept k o (h₁.kept k o hk), fun x hx => ?_, fun k o hk => ?_⟩
  · rcases List.mem_append.mp hx with hx | hx
    · exact ⟨(h₁.took x hx).1, h₂.kept _ _ (h₁.took x hx).2⟩
    · exact ⟨h₁.free (h₂.took x hx).1, (h₂.took x hx).2⟩
  · rcases h₂.only k o hk with hk | hx
    · rcases h₁.only k o hk with hk | hx
      · exact Or.inl hk
      · exact Or.inr (List.mem_append_left _ hx)
    · exact Or.inr (List.mem_append_right _ hx)

end Takes

variable [DecidableEq κ]

/-- A free key is taken. -/
def take (V : Holding κ ω) (x : κ × ω) : Holding κ ω :=
  fun k => if k = x.1 then some x.2 else V k

theorem takes_take {V : Holding κ ω} {x : κ × ω} (hfree : V x.1 = none) :
    Takes V [x] (take V x) := by
  refine ⟨fun k o hk => ?_, fun y hy => ?_, fun k o hk => ?_⟩
  · have hne : k ≠ x.1 := by
      rintro rfl
      rw [hfree] at hk
      exact nomatch hk
    rw [take, if_neg hne, hk]
  · rw [List.mem_singleton.mp hy]
    exact ⟨hfree, if_pos rfl⟩
  · rw [take] at hk
    split at hk
    · next heq =>
        refine Or.inr (List.mem_singleton.mpr ?_)
        rw [heq, ← Option.some.inj hk]
    · exact Or.inl hk

variable [DecidableEq ω]

/-! ## Lists of requests -/

/-- A request for a key; `granted` says whether it gets the key when it is free. -/
structure Request (κ ω : Type) where
  key : κ
  owner : ω
  granted : Bool

/-- What requests, served in order until one is refused, take. -/
def taken : Holding κ ω → List (Request κ ω) → List (κ × ω)
  | _, [] => []
  | V, r :: rs =>
      match V r.key with
      | some o => if o = r.owner then taken V rs else []
      | none => if r.granted then (r.key, r.owner) :: taken (take V (r.key, r.owner)) rs else []

/-- The holding they leave. -/
def afterRequests : Holding κ ω → List (Request κ ω) → Holding κ ω
  | V, [] => V
  | V, r :: rs =>
      match V r.key with
      | some o => if o = r.owner then afterRequests V rs else V
      | none => if r.granted then afterRequests (take V (r.key, r.owner)) rs else V

/-- Whether all of them are served. -/
def allServed : Holding κ ω → List (Request κ ω) → Bool
  | _, [] => true
  | V, r :: rs =>
      match V r.key with
      | some o => if o = r.owner then allServed V rs else false
      | none => if r.granted then allServed (take V (r.key, r.owner)) rs else false

section Equations

-- of the three, made here for all proofs below
attribute [local simp] taken afterRequests allServed

end Equations

theorem takes_taken (rs : List (Request κ ω)) (V : Holding κ ω) :
    Takes V (taken V rs) (afterRequests V rs) := by
  induction rs generalizing V with
  | nil => exact takes_nil V
  | cons r rs ih =>
      rw [taken, afterRequests]
      cases hget : V r.key with
      | some o =>
          by_cases ho : o = r.owner
          · simp only [if_pos ho]
            exact ih V
          · simp only [if_neg ho]
            exact takes_nil V
      | none =>
          cases hgranted : r.granted with
          | true => exact (takes_take (x := (r.key, r.owner)) hget).trans (ih _)
          | false => exact takes_nil V

/-- What is taken was asked for. -/
theorem mem_taken {rs : List (Request κ ω)} {V : Holding κ ω} {x : κ × ω}
    (h : x ∈ taken V rs) : x ∈ rs.map (fun r => (r.key, r.owner)) := by
  induction rs generalizing V with
  | nil => exact nomatch h
  | cons r rs ih =>
      rw [taken] at h
      rw [List.map_cons]
      split at h
      · split at h
        · exact List.mem_cons_of_mem _ (ih h)
        · exact nomatch h
      · split at h
        · rcases List.mem_cons.mp h with rfl | h
          · exact List.mem_cons_self
          · exact List.mem_cons_of_mem _ (ih h)
        · exact nomatch h

/-- Requests that are all served hold their keys. -/
theorem held_of_allServed {rs : List (Request κ ω)} {V : Holding κ ω}
    (h : allServed V rs = true) : ∀ r ∈ rs, afterRequests V rs r.key = some r.owner := by
  induction rs generalizing V with
  | nil => intro r hr; exact nomatch hr
  | cons r rs ih =>
      rw [allServed] at h
      rw [afterRequests]
      cases hget : V r.key with
      | some o =>
          rw [hget] at h
          by_cases ho : o = r.owner
          · simp only [if_pos ho] at h ⊢
            intro r' hr'
            rcases List.mem_cons.mp hr' with rfl | hr'
            · exact (takes_taken rs V).kept _ _ (ho ▸ hget)
            · exact ih h r' hr'
          · simp only [if_neg ho] at h
            exact nomatch h
      | none =>
          rw [hget] at h
          cases hgranted : r.granted with
          | false =>
              rw [hgranted] at h
              exact nomatch h
          | true =>
              rw [hgranted] at h
              simp only [if_true] at h ⊢
              intro r' hr'
              rcases List.mem_cons.mp hr' with rfl | hr'
              · exact (takes_taken rs _).kept _ _ (if_pos rfl)
              · exact ih h r' hr'

/-- The later of two lists is served once the earlier one is. -/
theorem allServed_append (rs rs' : List (Request κ ω)) (V : Holding κ ω) :
    allServed V (rs ++ rs') = (allServed V rs && allServed (afterRequests V rs) rs') := by
  induction rs generalizing V with
  | nil => rfl
  | cons r rs ih =>
      rw [List.cons_append, allServed, allServed, afterRequests]
      cases hget : V r.key with
      | some o =>
          by_cases ho : o = r.owner
          · simp only [if_pos ho, ih]
          · simp only [if_neg ho, Bool.false_and]
      | none =>
          cases hgranted : r.granted with
          | true => simp only [if_true, ih]
          | false => simp

theorem afterRequests_append (rs rs' : List (Request κ ω)) (V : Holding κ ω) :
    afterRequests V (rs ++ rs')
      = if allServed V rs = true then afterRequests (afterRequests V rs) rs'
        else afterRequests V rs := by
  induction rs generalizing V with
  | nil => rfl
  | cons r rs ih =>
      rw [List.cons_append, allServed, afterRequests, afterRequests]
      cases hget : V r.key with
      | some o =>
          by_cases ho : o = r.owner
          · simp only [if_pos ho, ih]
          · simp [if_neg ho]
      | none =>
          cases hgranted : r.granted with
          | true => simp only [if_true, ih]
          | false => simp

/-- One request that is refused leaves the holding. -/
theorem afterRequests_refused {r : Request κ ω} {V : Holding κ ω}
    (h : allServed V [r] ≠ true) : afterRequests V [r] = V := by
  simp only [allServed, afterRequests] at h ⊢
  cases hget : V r.key with
  | some o => simp
  | none =>
      rw [hget] at h
      cases hgranted : r.granted with
      | true => simp [hgranted] at h
      | false => simp

/-- Requests whose keys their owners hold are all served, and take nothing. -/
theorem served_of_held {rs : List (Request κ ω)} {V : Holding κ ω}
    (h : ∀ r ∈ rs, V r.key = some r.owner) : allServed V rs = true ∧ afterRequests V rs = V := by
  induction rs with
  | nil => exact ⟨rfl, rfl⟩
  | cons r rs ih =>
      rw [allServed, afterRequests, h r List.mem_cons_self]
      simp only [if_true]
      exact ih fun r' hr' => h r' (List.mem_cons_of_mem _ hr')

/-! ## Releases -/

/-- A key is released if this owner holds it. -/
def release (V : Holding κ ω) (x : κ × ω) : Holding κ ω :=
  fun k => if k = x.1 ∧ V k = some x.2 then none else V k

def releaseAll (V : Holding κ ω) (xs : List (κ × ω)) : Holding κ ω := xs.foldl release V

theorem release_iff (V : Holding κ ω) (x : κ × ω) (k : κ) (o : ω) :
    release V x k = some o ↔ V k = some o ∧ (k, o) ≠ x := by
  rw [release]
  split
  · next h =>
      constructor
      · intro ho
        exact nomatch ho
      · rintro ⟨ho, hne⟩
        exact absurd (Prod.ext h.1 (Option.some.inj (ho.symm.trans h.2))) hne
  · next h =>
      refine ⟨fun ho => ⟨ho, ?_⟩, fun ho => ho.1⟩
      rintro rfl
      exact h ⟨rfl, ho⟩

theorem releaseAll_iff (xs : List (κ × ω)) (V : Holding κ ω) (k : κ) (o : ω) :
    releaseAll V xs k = some o ↔ V k = some o ∧ (k, o) ∉ xs := by
  induction xs generalizing V with
  | nil => simp [releaseAll]
  | cons x xs ih =>
      show releaseAll (release V x) xs k = some o ↔ _
      rw [ih, release_iff, List.mem_cons, not_or, and_assoc]

/-- Whether releases made one after the other all find their key free or held by
    their owner. -/
def allReleased : Holding κ ω → List (κ × ω) → Bool
  | _, [] => true
  | V, x :: xs => ((V x.1).all (fun o => decide (o = x.2))) && allReleased (release V x) xs

theorem allReleased_append (xs ys : List (κ × ω)) (V : Holding κ ω) :
    allReleased V (xs ++ ys) = (allReleased V xs && allReleased (releaseAll V xs) ys) := by
  induction xs generalizing V with
  | nil => rfl
  | cons x xs ih =>
      rw [List.cons_append, allReleased, allReleased, ih, Bool.and_assoc]
      rfl

theorem releaseAll_append (xs ys : List (κ × ω)) (V : Holding κ ω) :
    releaseAll V (xs ++ ys) = releaseAll (releaseAll V xs) ys := List.foldl_append

/-- Releases all succeed exactly when whoever holds a key is the owner that
    releases it, or one that released it before. -/
theorem allReleased_iff (xs : List (κ × ω)) (V : Holding κ ω) :
    allReleased V xs = true
      ↔ ∀ before x after, xs = before ++ x :: after →
        ∀ o, V x.1 = some o → o = x.2 ∨ (x.1, o) ∈ before := by
  induction xs generalizing V with
  | nil =>
      refine ⟨fun _ before x after heq => ?_, fun _ => rfl⟩
      exact absurd heq.symm (List.append_ne_nil_of_right_ne_nil _ (List.cons_ne_nil _ _))
  | cons y ys ih =>
      rw [allReleased, Bool.and_eq_true, ih, Option.all_eq_true]
      constructor
      · rintro ⟨hfirst, hrest⟩ before x after heq o ho
        cases before with
        | nil =>
            obtain ⟨rfl, -⟩ := List.cons.inj heq
            exact Or.inl (of_decide_eq_true (hfirst o ho))
        | cons z before =>
            obtain ⟨rfl, htail⟩ := List.cons.inj heq
            by_cases hy : (x.1, o) = y
            · exact Or.inr (hy ▸ List.mem_cons_self)
            · rcases hrest before x after htail o ((release_iff _ _ _ _).mpr ⟨ho, hy⟩) with
                howner | hmem
              · exact Or.inl howner
              · exact Or.inr (List.mem_cons_of_mem _ hmem)
      · intro h
        refine ⟨fun o ho => ?_, fun before x after heq o ho => ?_⟩
        · rcases h [] y ys rfl o ho with howner | hmem
          · exact decide_eq_true howner
          · exact nomatch hmem
        · obtain ⟨hV, hne⟩ := (release_iff _ _ _ _).mp ho
          rcases h (y :: before) x after (by rw [heq, List.cons_append]) o hV with howner | hmem
          · exact Or.inl howner
          · exact Or.inr ((List.mem_cons.mp hmem).resolve_left hne)

/-- The keys of releases that all succeeded are free. -/
theorem free_of_allReleased {xs : List (κ × ω)} {V : Holding κ ω} (h : allReleased V xs = true)
    {x : κ × ω} (hx : x ∈ xs) : releaseAll V xs x.1 = none := by
  cases hget : releaseAll V xs x.1 with
  | none => rfl
  | some o =>
      obtain ⟨hV, hnot⟩ := (releaseAll_iff _ _ _ _).mp hget
      obtain ⟨before, after, heq⟩ := List.append_of_mem hx
      rcases (allReleased_iff xs V).mp h before x after heq o hV with rfl | hmem
      · exact absurd hx hnot
      · exact absurd (heq ▸ List.mem_append_left _ hmem) hnot

/-- A holding is restored, for the owners `P`: nothing was added, and all that
    was held is held but for what `dropped` lists. -/
def Restored (P : ω → Prop) (dropped : List (κ × ω)) (V V' : Holding κ ω) : Prop :=
  ∀ k o, P o →
    (V' k = some o → V k = some o) ∧ (V k = some o → V' k = some o ∨ (k, o) ∈ dropped)

/-- **A CALL RESTORES THE HOLDING** exactly when whatever it took was held before
    or is released again, and nothing it releases again was held at its start. -/
theorem restored_iff {P : ω → Prop} {dropped ops released : List (κ × ω)}
    {V V' : Holding κ ω} (h : Takes (releaseAll V dropped) ops V') :
    Restored P dropped V (releaseAll V' released)
      ↔ (∀ x ∈ ops, P x.2 → V x.1 = some x.2 ∨ x ∈ released)
        ∧ ∀ x ∈ released, P x.2 → releaseAll V dropped x.1 ≠ some x.2 := by
  have hafter : ∀ k o, releaseAll V' released k = some o
      ↔ (releaseAll V dropped k = some o ∨ (k, o) ∈ ops) ∧ (k, o) ∉ released := by
    intro k o
    rw [releaseAll_iff, h.iff]
  constructor
  · intro hrestored
    refine ⟨fun x hx hP => ?_, fun x hx hP hheld => ?_⟩
    · by_cases hrel : x ∈ released
      · exact Or.inr hrel
      · exact Or.inl ((hrestored x.1 x.2 hP).1 ((hafter _ _).mpr ⟨Or.inr hx, hrel⟩))
    · obtain ⟨hV, hdropped⟩ := (releaseAll_iff _ _ _ _).mp hheld
      rcases (hrestored x.1 x.2 hP).2 hV with hstill | hdrop
      · exact ((hafter _ _).mp hstill).2 hx
      · exact hdropped hdrop
  · rintro ⟨hops, hreleased⟩ k o hP
    refine ⟨fun hk => ?_, fun hk => ?_⟩
    · obtain ⟨hbefore | hx, hnot⟩ := (hafter k o).mp hk
      · exact ((releaseAll_iff _ _ _ _).mp hbefore).1
      · exact (hops _ hx hP).resolve_right hnot
    · by_cases hdrop : (k, o) ∈ dropped
      · exact Or.inr hdrop
      · have hW : releaseAll V dropped k = some o := (releaseAll_iff _ _ _ _).mpr ⟨hk, hdrop⟩
        refine Or.inl ((hafter k o).mpr ⟨Or.inl hW, fun hrel => ?_⟩)
        exact hreleased _ hrel hP hW

/-- A call that releases nothing again restores the holding when whatever it took
    was held before. -/
theorem restored_iff_kept {P : ω → Prop} {dropped ops : List (κ × ω)} {V V' : Holding κ ω}
    (h : Takes (releaseAll V dropped) ops V') :
    Restored P dropped V V' ↔ ∀ x ∈ ops, P x.2 → V x.1 = some x.2 := by
  refine (@restored_iff _ _ _ _ P dropped ops [] V V' h).trans ⟨fun hboth x hx hP => ?_, fun hkept => ?_⟩
  · exact (hboth.1 x hx hP).resolve_right (fun hmem => nomatch hmem)
  · exact ⟨fun x hx hP => Or.inl (hkept x hx hP), fun _ hmem => nomatch hmem⟩

end DevstackReservation
