import Mathlib.Data.List.Chain
import Mathlib.Data.List.Infix

namespace Directory

open List

variable {α : Type*}

/-- One separator in place of every run of them. -/
def collapse [DecidableEq α] (sep : α) : List α → List α
  | [] => []
  | c :: cs => if c = sep ∧ cs.head? = some sep then collapse sep cs else c :: collapse sep cs

/-- The text without the separator at its end, if there is one. -/
def dropTrailing [DecidableEq α] (sep : α) (text : List α) : List α :=
  if text.getLast? = some sep then text.dropLast else text

/-- No two separators stand side by side. -/
def Collapsed (sep : α) (text : List α) : Prop := text.IsChain fun c d => ¬(c = sep ∧ d = sep)

/-- Everything below a directory, at any depth. -/
def Under (sep : α) (dir path : List α) : Prop := dir ++ [sep] <+: path

variable {sep : α} {dir other name path : List α}

theorem append_cons_eq (sep : α) (dir name : List α) : dir ++ sep :: name = dir ++ [sep] ++ name := by
  simp

section Collapse

variable [DecidableEq α]

@[simp] theorem head?_collapse (sep : α) (cs : List α) : (collapse sep cs).head? = cs.head? := by
  induction cs with
  | nil => rfl
  | cons c cs ih =>
    unfold collapse
    split_ifs with h
    · rw [ih, h.2, h.1]
      rfl
    · rfl

theorem collapsed_collapse (sep : α) (cs : List α) : Collapsed sep (collapse sep cs) := by
  induction cs with
  | nil => exact isChain_nil
  | cons c cs ih =>
    unfold collapse
    split_ifs with h
    · exact ih
    · apply isChain_cons.mpr
      refine ⟨?_, ih⟩
      intro d hd hboth
      rw [head?_collapse] at hd
      obtain ⟨hc, rfl⟩ := hboth
      exact h ⟨hc, hd⟩

theorem Collapsed.dropTrailing (h : Collapsed sep path) : Collapsed sep (dropTrailing sep path) := by
  unfold Directory.dropTrailing
  split_ifs
  · exact h.prefix (List.dropLast_prefix path)
  · exact h

/-- A text that goes on with a separator where it is collapsed does not end in one. -/
theorem Collapsed.dropTrailing_eq (h : Collapsed sep (dir ++ sep :: name)) :
    Directory.dropTrailing sep dir = dir := by
  have hends := (isChain_append.mp h).2.2
  unfold Directory.dropTrailing
  split_ifs with hlast
  · exact absurd ⟨rfl, rfl⟩ (hends sep hlast sep rfl)
  · rfl

/-- What is left of a directory without its separator at the end still leads to the same place. -/
theorem dropTrailing_under (sep : α) (dir name : List α) :
    Under sep (dropTrailing sep dir) (dir ++ sep :: name) := by
  unfold dropTrailing Under
  split_ifs with hlast
  · have hdir : dir.dropLast ++ [sep] = dir := dropLast_append_getLast? sep hlast
    rw [hdir]
    exact prefix_append dir _
  · rw [append_cons_eq sep dir name]
    exact prefix_append _ name

end Collapse

theorem under_append (sep : α) (dir name : List α) : Under sep dir (dir ++ sep :: name) := by
  unfold Under
  rw [append_cons_eq sep dir name]
  exact prefix_append _ name

/-- Of two directories above the same path one is above the other, or they are the same. -/
theorem Under.nested (h : Under sep dir path) (h' : Under sep other path) :
    dir ++ [sep] <+: other ++ [sep] ∨ other ++ [sep] <+: dir ++ [sep] :=
  prefix_or_prefix_of_prefix h h'

theorem Under.of_above (h : Under sep other path) (hle : dir ++ [sep] <+: other ++ [sep]) :
    Under sep dir path := hle.trans h

/-- Between a directory and what lies right inside it there is no other. -/
theorem Under.prefix_of_inside (h : Under sep dir (other ++ sep :: name)) (hname : sep ∉ name) :
    dir ++ [sep] <+: other ++ [sep] := by
  rcases h.nested (under_append sep other name) with hle | ⟨rest, hrest⟩
  · exact hle
  · have htail : rest <+: name := by
      unfold Under at h
      rw [← hrest, append_cons_eq sep other name, prefix_append_right_inj] at h
      exact h
    cases hcut : rest.getLast? with
    | none =>
      obtain rfl := getLast?_eq_none_iff.mp hcut
      rw [append_nil] at hrest
      rw [← hrest]
    | some last =>
      have hsame : (other ++ [sep] ++ rest).getLast? = some last := by
        rw [getLast?_append, hcut]
        rfl
      rw [hrest, getLast?_concat] at hsame
      obtain rfl := Option.some.inj hsame
      exact absurd (htail.subset (mem_of_getLast? hcut)) hname

theorem eq_of_above_prefix (h : dir ++ [sep] <+: other ++ [sep])
    (h' : other ++ [sep] <+: dir ++ [sep]) : dir = other := by
  have hsame := h.eq_of_length (le_antisymm h.length_le h'.length_le)
  exact append_cancel_right hsame

end Directory
