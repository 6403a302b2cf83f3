import Mathlib.Data.List.Basic

/-!
# Texts of three segments

* `splitOn_eq_three`, `map_splitOn_eq_three`: what a list, or a string, cut at
  a separator into three looks like.
-/

namespace Segments

variable {α : Type} [DecidableEq α] {a : α}

theorem not_mem_of_mem_splitOn {xs : List α} : ∀ l ∈ xs.splitOn a, a ∉ l := by
  induction xs with
  | nil => simp
  | cons x xs ih =>
    rw [List.splitOn_cons_eq_if_modifyHead]
    split_ifs with hx
    · simpa using ih
    · obtain ⟨y, ys, hy⟩ := List.exists_cons_of_ne_nil (List.splitOn_ne_nil a xs)
      rw [hy] at ih ⊢
      simp only [List.modifyHead_cons, List.mem_cons, forall_eq_or_imp] at ih ⊢
      exact ⟨by simpa [Ne.symm (by simpa using hx : x ≠ a)] using ih.1, ih.2⟩

/-- The segments are the parts that do not contain the separator. -/
theorem splitOn_eq_three {xs x y z : List α} :
    xs.splitOn a = [x, y, z] ↔ xs = x ++ a :: (y ++ a :: z) ∧ a ∉ x ∧ a ∉ y ∧ a ∉ z := by
  have hcat : [a].intercalate [x, y, z] = x ++ a :: (y ++ a :: z) := by
    simp [List.intercalate]
  constructor
  · intro h
    have hno : ∀ l ∈ xs.splitOn a, a ∉ l := not_mem_of_mem_splitOn
    rw [h] at hno
    refine ⟨?_, by simpa using hno⟩
    rw [← hcat, ← h, List.intercalate_splitOn]
  · rintro ⟨rfl, hx, hy, hz⟩
    rw [← hcat]
    exact List.splitOn_intercalate a (by simpa using ⟨hx, hy, hz⟩) (by simp)

theorem map_splitOn_eq_three {c : Char} {s x y z : String} :
    (s.toList.splitOn c).map String.ofList = [x, y, z] ↔
      s.toList = x.toList ++ c :: (y.toList ++ c :: z.toList) ∧
        c ∉ x.toList ∧ c ∉ y.toList ∧ c ∉ z.toList := by
  rw [← splitOn_eq_three]
  constructor
  · intro h
    have hlists := congrArg (List.map String.toList) h
    simpa [List.map_map, Function.comp_def] using hlists
  · intro h
    simp [h]

end Segments
