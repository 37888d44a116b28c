import Mathlib

/-!
# Stable sorting

Sorting by insertion keeps the order of elements that tie (`filter_insertionSort`).  For ranges that lie
one behind another this decides the whole order: only empty ranges at the same place can change places
(`eq_of_perm_of_filter`).
-/

namespace Sorting

variable {α : Type*}

lemma filter_insertionSort (r : α → α → Prop) [DecidableRel r] [Std.Total r] [IsTrans α r]
    {p : α → Bool} {l : List α} (h : (l.filter p).Pairwise r) : (l.insertionSort r).filter p = l.filter p := by
  have hsub : (l.filter p).Sublist (l.insertionSort r) :=
    List.sublist_insertionSort h List.filter_sublist
  have hfilter : (l.filter p).Sublist ((l.insertionSort r).filter p) := by
    have hboth := hsub.filter p
    rwa [List.filter_filter, show (fun a => p a && p a) = p from funext fun a => Bool.and_self _]
      at hboth
  refine (hfilter.eq_of_length ?_).symm
  exact ((List.perm_insertionSort r l).filter p).length_eq.symm

section

variable {start stop : α → ℕ}

def emptyAt (start stop : α → ℕ) (place : ℕ) (a : α) : Bool :=
  decide (start a = place) && decide (stop a = place)

/-- Equal ranges one behind another are in one order. -/
theorem eq_of_perm_of_filter {l l' : List α} (hle : ∀ a ∈ l, start a ≤ stop a) (hperm : l.Perm l')
    (hl : l.Pairwise fun a b => stop a ≤ start b) (hl' : l'.Pairwise fun a b => stop a ≤ start b)
    (hempty : ∀ place, l.filter (emptyAt start stop place) = l'.filter (emptyAt start stop place)) : l = l' := by
  induction l generalizing l' with
  | nil => exact hperm.symm.eq_nil.symm
  | cons a l ih =>
    cases l' with
    | nil => exact absurd hperm.eq_nil (List.cons_ne_nil a l)
    | cons b l' =>
      obtain ⟨ha, hrestl⟩ := List.pairwise_cons.mp hl
      obtain ⟨hb, hrestl'⟩ := List.pairwise_cons.mp hl'
      have hhead : a = b := by
        by_contra hne
        -- Each of the two lies behind the other, so both are empty and at one place.
        have hamem : a ∈ l' := (List.mem_cons.mp (hperm.mem_iff.mp List.mem_cons_self)).resolve_left hne
        have hbmem : b ∈ l :=
          (List.mem_cons.mp (hperm.mem_iff.mpr List.mem_cons_self)).resolve_left (Ne.symm hne)
        have hab := ha b hbmem
        have hba := hb a hamem
        have hale := hle a List.mem_cons_self
        have hble := hle b (List.mem_cons_of_mem _ hbmem)
        obtain ⟨hastop, hbstart, hbstop⟩ :
            stop a = start a ∧ start b = start a ∧ stop b = start a := by omega
        have hasame : emptyAt start stop (start a) a = true := by simp [emptyAt, hastop]
        have hbsame : emptyAt start stop (start a) b = true := by simp [emptyAt, hbstart, hbstop]
        have hfirst := hempty (start a)
        rw [List.filter_cons_of_pos hasame, List.filter_cons_of_pos hbsame] at hfirst
        exact hne (List.cons.inj hfirst).1
      subst hhead
      rw [ih (fun c hc => hle c (List.mem_cons_of_mem _ hc)) ((List.perm_cons a).mp hperm) hrestl
        hrestl' ?_]
      intro place
      have hrest := hempty place
      by_cases hplace : emptyAt start stop place a = true
      · rw [List.filter_cons_of_pos hplace, List.filter_cons_of_pos hplace] at hrest
        exact (List.cons.inj hrest).2
      · rwa [List.filter_cons_of_neg hplace, List.filter_cons_of_neg hplace] at hrest

end

end Sorting
