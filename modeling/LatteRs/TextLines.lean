import Mathlib.Data.List.DropRight
import Mathlib.Data.List.Infix

/-!
# Lines and values of texts

Texts as lists: what is left without the blanks around it, the first occurrence
of a pattern, and the lines, which end in a newline or in a carriage return with
a newline.

* `trim`, `Trimmed`, `trim_pad`, `trim_parts`: a value between blanks;
* `splitOnce`, `splitOnce_first`: the parts before and after the first
  occurrence;
* `lines`, `lines_line`: a line between other lines;
* `infix_of_mem_lines`: lines are parts of the text.
-/

namespace TextLines

variable {α : Type}

/-! ### Blanks -/

section
variable (p : α → Bool)

/-- Without the blanks at both ends. -/
def trim (xs : List α) : List α := (xs.dropWhile p).rdropWhile p

/-- No blank at either end. -/
structure Trimmed (xs : List α) : Prop where
  first : ∀ x ∈ xs.head?, p x = false
  last : ∀ x ∈ xs.getLast?, p x = false

variable {p}

theorem rdropWhile_pad {xs ys : List α} (hlast : ∀ x ∈ xs.getLast?, p x = false)
    (hys : ∀ y ∈ ys, p y = true) : (xs ++ ys).rdropWhile p = xs := by
  induction ys using List.reverseRecOn with
  | nil =>
    rw [List.append_nil, List.rdropWhile_eq_self_iff]
    intro hne h
    have hfalse := hlast _ (List.getLast?_eq_some_getLast hne)
    rw [h] at hfalse
    cases hfalse
  | append_singleton ys y ih =>
    have hy : p y = true := hys y (by simp)
    rw [← List.append_assoc, List.rdropWhile_concat_pos p _ y hy]
    exact ih fun y' hy' => hys y' (by simp [hy'])

theorem dropWhile_pad {xs ys : List α} (hfirst : ∀ x ∈ xs.head?, p x = false)
    (hys : ∀ y ∈ ys, p y = true) : (ys ++ xs).dropWhile p = xs := by
  induction ys with
  | nil =>
    cases xs with
    | nil => rfl
    | cons x xs =>
      have hx : p x = false := hfirst x rfl
      rw [List.nil_append, List.dropWhile_cons_of_neg (by simp [hx])]
  | cons y ys ih =>
    have hy : p y = true := hys y List.mem_cons_self
    rw [List.cons_append, List.dropWhile_cons_of_pos hy]
    exact ih fun y' hy' => hys y' (List.mem_cons_of_mem y hy')

/-- **A value between blanks.** -/
theorem trim_pad {front xs back : List α} (h : Trimmed p xs) (hne : xs ≠ [])
    (hfront : ∀ x ∈ front, p x = true) (hback : ∀ x ∈ back, p x = true) :
    trim p (front ++ xs ++ back) = xs := by
  have hfirst : ∀ x ∈ (xs ++ back).head?, p x = false := by
    intro x hx
    rw [List.head?_append_of_ne_nil xs hne] at hx
    exact h.first x hx
  unfold trim
  rw [List.append_assoc, dropWhile_pad hfirst hfront, rdropWhile_pad h.last hback]

/-- Around what is left there are only blanks. -/
theorem trim_parts (p : α → Bool) (xs : List α) :
    ∃ front back, (∀ x ∈ front, p x = true) ∧ (∀ x ∈ back, p x = true) ∧
      xs = front ++ trim p xs ++ back := by
  refine ⟨xs.takeWhile p, (xs.dropWhile p).rtakeWhile p, ?_, ?_, ?_⟩
  · exact fun x hx => List.mem_takeWhile_imp hx
  · exact fun x hx => List.mem_rtakeWhile_imp hx
  · unfold trim
    rw [List.append_assoc, List.rdropWhile_append_rtakeWhile, List.takeWhile_append_dropWhile]

theorem trim_eq_nil {xs : List α} : trim p xs = [] ↔ ∀ x ∈ xs, p x = true := by
  unfold trim
  rw [List.rdropWhile_eq_nil_iff]
  constructor
  · intro h x hx
    rw [← @List.takeWhile_append_dropWhile _ p xs, List.mem_append] at hx
    rcases hx with hfront | hrest
    · exact List.mem_takeWhile_imp hfront
    · exact h x hrest
  · intro h x hx
    exact h x ((List.dropWhile_suffix p).subset hx)

theorem trimmed_trim (xs : List α) : Trimmed p (trim p xs) := by
  unfold trim
  constructor
  · intro x hx
    have hprefix := List.rdropWhile_prefix p (l := xs.dropWhile p)
    obtain ⟨rest, hrest⟩ := hprefix
    cases hcore : (xs.dropWhile p).rdropWhile p with
    | nil =>
      rw [hcore] at hx
      cases hx
    | cons y ys =>
      rw [hcore] at hx hrest
      cases hx
      have hhead := List.head?_dropWhile_not p xs
      rw [← hrest] at hhead
      exact hhead
  · intro x hx
    have hne : (xs.dropWhile p).rdropWhile p ≠ [] := by
      intro h
      rw [h] at hx
      cases hx
    have hnot := List.rdropWhile_last_not p _ hne
    rw [List.getLast?_eq_some_getLast hne] at hx
    cases hx
    simpa using hnot

end

/-! ### The first occurrence of a pattern -/

section
variable [DecidableEq α]

/-- The parts before and after the first occurrence. -/
def splitOnce (pat : List α) : List α → Option (List α × List α)
  | [] => if pat = [] then some ([], []) else none
  | x :: xs =>
    if pat <+: x :: xs then some ([], (x :: xs).drop pat.length)
    else (splitOnce pat xs).map fun parts => (x :: parts.1, parts.2)

theorem splitOnce_prefix (pat rest : List α) : splitOnce pat (pat ++ rest) = some ([], rest) := by
  cases h : pat ++ rest with
  | nil =>
    obtain ⟨rfl, rfl⟩ := List.append_eq_nil_iff.1 h
    rfl
  | cons x xs =>
    have hprefix : pat <+: x :: xs := h ▸ List.prefix_append pat rest
    rw [splitOnce, if_pos hprefix, ← h, List.drop_left]

/-- The parts around an occurrence before which there is no other. -/
theorem splitOnce_first {pat front rest : List α} (hpat : pat ≠ [])
    (h : ¬ pat <:+: front ++ pat.dropLast) :
    splitOnce pat (front ++ pat ++ rest) = some (front, rest) := by
  induction front with
  | nil => exact splitOnce_prefix pat rest
  | cons x front ih =>
    have hrest : ¬ pat <:+: front ++ pat.dropLast := fun hin =>
      h (hin.trans (List.suffix_cons x _).isInfix)
    have hnot : ¬ pat <+: x :: (front ++ pat ++ rest) := by
      intro hprefix
      refine h (List.IsPrefix.isInfix ?_)
      refine List.prefix_of_prefix_length_le hprefix ?_ ?_
      · show x :: (front ++ pat.dropLast) <+: x :: (front ++ pat ++ rest)
        rw [List.append_assoc]
        refine List.cons_prefix_cons.2 ⟨rfl, (List.prefix_append_right_inj front).2 ?_⟩
        exact (List.dropLast_prefix pat).trans (List.prefix_append pat rest)
      · have hpos := List.length_pos_iff.2 hpat
        simp only [List.length_cons, List.length_append, List.length_dropLast]
        omega
    show splitOnce pat (x :: (front ++ pat ++ rest)) = _
    rw [splitOnce, if_neg hnot, ih hrest]
    rfl

end

/-! ### Lines -/

section
variable [DecidableEq α] (nl cr : α)

/-- A line from its end, without the carriage return there. -/
def stripReturn : List α → List α
  | [] => []
  | x :: xs => if x = cr then xs.reverse else xs.reverse ++ [x]

/-- The lines of a text whose first line has begun with the first argument, from its end.  A
carriage return at the end of the text is part of the last line. -/
def linesFrom : List α → List α → List (List α)
  | [], [] => []
  | x :: xs, [] => [(x :: xs).reverse]
  | acc, x :: xs =>
    if x = nl then stripReturn cr acc :: linesFrom [] xs else linesFrom (x :: acc) xs

def lines (xs : List α) : List (List α) := linesFrom nl cr [] xs

variable {nl cr}

theorem stripReturn_of_ne {xs : List α} (h : xs.head? ≠ some cr) :
    stripReturn cr xs = xs.reverse := by
  cases xs with
  | nil => rfl
  | cons x xs =>
    have hx : x ≠ cr := fun heq => h (by rw [heq]; rfl)
    rw [stripReturn, if_neg hx, List.reverse_cons]

theorem linesFrom_newline (acc rest : List α) :
    linesFrom nl cr acc (nl :: rest) = stripReturn cr acc :: linesFrom nl cr [] rest := by
  cases acc <;> rw [linesFrom, if_pos rfl]

theorem linesFrom_cons {x : α} (hx : x ≠ nl) (acc rest : List α) :
    linesFrom nl cr acc (x :: rest) = linesFrom nl cr (x :: acc) rest := by
  cases acc <;> rw [linesFrom, if_neg hx]

theorem linesFrom_append {line : List α} (hline : nl ∉ line) (acc rest : List α) :
    linesFrom nl cr acc (line ++ rest) = linesFrom nl cr (line.reverse ++ acc) rest := by
  induction line generalizing acc with
  | nil => rfl
  | cons x line ih =>
    have hx : x ≠ nl := fun heq => hline (by rw [heq]; exact List.mem_cons_self)
    have hrest : nl ∉ line := fun hmem => hline (List.mem_cons_of_mem x hmem)
    rw [List.cons_append, linesFrom_cons hx, ih hrest]
    simp

/-- The lines of a text that ends with a newline come before those of what follows. -/
theorem linesFrom_before (acc front rest : List α) :
    linesFrom nl cr acc (front ++ nl :: rest) =
      linesFrom nl cr acc (front ++ [nl]) ++ linesFrom nl cr [] rest := by
  induction front generalizing acc with
  | nil =>
    rw [List.nil_append, List.nil_append, linesFrom_newline, linesFrom_newline]
    cases rest <;> rfl
  | cons x front ih =>
    by_cases hx : x = nl
    · subst hx
      rw [List.cons_append, List.cons_append, linesFrom_newline, linesFrom_newline, ih]
      rfl
    · rw [List.cons_append, List.cons_append, linesFrom_cons hx, linesFrom_cons hx, ih]

/-- A text that is empty or ends with a newline. -/
def EndsLine (nl : α) (xs : List α) : Prop := xs = [] ∨ ∃ front, xs = front ++ [nl]

/-- What ends a line, and what follows then. -/
inductive Ending (nl cr : α) : List α → List α → Prop
  | newline (rest : List α) : Ending nl cr [nl] rest
  | returnNewline (rest : List α) : Ending nl cr [cr, nl] rest
  | text : Ending nl cr [] []

/-- **A line between other lines.** -/
theorem lines_line {before line ending after : List α} (hcr : cr ≠ nl)
    (hbefore : EndsLine nl before) (hline : nl ∉ line) (hne : line ≠ [])
    (hlast : line.getLast? ≠ some cr) (hending : Ending nl cr ending after) :
    lines nl cr (before ++ (line ++ ending ++ after)) =
      lines nl cr before ++ line :: lines nl cr after := by
  have hhead : line.reverse.head? ≠ some cr := by
    rw [List.head?_reverse]
    exact hlast
  have hrest : linesFrom nl cr [] (line ++ ending ++ after) =
      line :: linesFrom nl cr [] after := by
    rw [List.append_assoc, linesFrom_append hline, List.append_nil]
    cases hending with
    | newline =>
      rw [List.singleton_append, linesFrom_newline, stripReturn_of_ne hhead, List.reverse_reverse]
    | returnNewline =>
      rw [List.cons_append, linesFrom_cons hcr, List.singleton_append, linesFrom_newline,
        stripReturn, if_pos rfl, List.reverse_reverse]
    | text =>
      cases hrev : line.reverse with
      | nil => exact absurd (List.reverse_eq_nil_iff.1 hrev) hne
      | cons x xs =>
        have hback : (x :: xs).reverse = line := by rw [← hrev, List.reverse_reverse]
        show [(x :: xs).reverse] = [line]
        rw [hback]
  unfold lines
  rcases hbefore with rfl | ⟨front, rfl⟩
  · rw [List.nil_append, hrest]
    rfl
  · rw [List.append_assoc, List.singleton_append, linesFrom_before, hrest]

/-- A line is a part of the text. -/
theorem infix_of_mem_linesFrom {acc xs l : List α} (h : l ∈ linesFrom nl cr acc xs) :
    l <:+: acc.reverse ++ xs := by
  induction xs generalizing acc with
  | nil =>
    cases acc with
    | nil => cases h
    | cons x acc =>
      rw [linesFrom, List.mem_singleton] at h
      rw [h, List.append_nil]
  | cons x xs ih =>
    by_cases hx : x = nl
    · subst hx
      rw [linesFrom_newline] at h
      rcases List.mem_cons.1 h with rfl | hlater
      · have hprefix : stripReturn cr acc <+: acc.reverse := by
          cases acc with
          | nil => exact List.prefix_refl _
          | cons y acc =>
            rw [stripReturn, List.reverse_cons]
            split_ifs
            · exact List.prefix_append _ _
            · exact List.prefix_refl _
        exact hprefix.isInfix.trans (List.prefix_append _ _).isInfix
      · have hin := ih hlater
        rw [List.reverse_nil, List.nil_append] at hin
        exact hin.trans ((List.suffix_cons x xs).trans (List.suffix_append _ _)).isInfix
    · rw [linesFrom_cons hx] at h
      have hin := ih h
      rwa [List.reverse_cons, List.append_assoc] at hin

theorem infix_of_mem_lines {xs l : List α} (h : l ∈ lines nl cr xs) : l <:+: xs :=
  infix_of_mem_linesFrom h

end

end TextLines
