import Mathlib
import PortMatch.Text.Quoted

/-!
# Lines

A text that is written line by line can be cut at its line breaks again, if no line has a line break
inside.

* `unlines`, `linesOf` — lines as one text, and what stands between the line breaks of a text;
* `linesOf_unlines` — cutting gives the lines back, and an empty text after the last line break;
* `count_newline_unlines`, `endsWith_unlines` — how many line breaks there are, and where the last
  one is;
* `getLast?_append`, `not_endsWith_of_getLast?` — the last character of a text, by which most of its
  possible ends are ruled out.
-/

namespace PortMatch.Text

/-- Lines, one after the other, each with a line break after it. -/
def unlines (lines : List String) : String := String.join (lines.map (· ++ "\n"))

/-- What stands between the line breaks of a text. -/
def linesOf (text : String) : List String := (text.toList.splitOn '\n').map String.ofList

theorem unlines_cons (s : String) (lines : List String) :
    unlines (s :: lines) = s ++ "\n" ++ unlines lines :=
  String.join_cons

theorem unlines_append (lines lines' : List String) :
    unlines (lines ++ lines') = unlines lines ++ unlines lines' := by
  rw [unlines, List.map_append, String.join_append, unlines, unlines]

theorem toList_unlines_cons (s : String) (lines : List String) :
    (unlines (s :: lines)).toList = s.toList ++ '\n' :: (unlines lines).toList := by
  simp [unlines_cons]

/-- Lines can be read off the text that they make. -/
theorem linesOf_unlines {lines : List String} (h : ∀ s ∈ lines, '\n' ∉ s.toList) :
    linesOf (unlines lines) = lines ++ [""] := by
  induction lines with
  | nil => rfl
  | cons s lines ih =>
    have hrest := ih fun t ht => h t (List.mem_cons_of_mem _ ht)
    rw [linesOf] at hrest
    rw [linesOf, toList_unlines_cons,
      List.splitOn_append_cons_self_of_not_mem (h s List.mem_cons_self), List.map_cons, hrest,
      String.ofList_toList, List.cons_append]

/-- There are as many line breaks as lines. -/
theorem count_newline_unlines {lines : List String} (h : ∀ s ∈ lines, '\n' ∉ s.toList) :
    (unlines lines).toList.count '\n' = lines.length := by
  induction lines with
  | nil => rfl
  | cons s lines ih =>
    have hs : s.toList.count '\n' = 0 := List.count_eq_zero.2 (h s List.mem_cons_self)
    rw [toList_unlines_cons, List.count_append, List.count_cons_self, hs,
      ih fun t ht => h t (List.mem_cons_of_mem _ ht), List.length_cons, Nat.zero_add]

/-! ## The end of a text -/

theorem endsWith_iff {s pat : String} : s.endsWith pat = true ↔ pat.toList <:+ s.toList := by
  rw [String.endsWith_eq_endsWith_toSlice, String.Slice.endsWith_string_iff, String.copy_toSlice]

/-- The text of some lines ends with the last line break. -/
theorem endsWith_unlines {lines : List String} (h : lines ≠ []) :
    (unlines lines).endsWith "\n" = true := by
  obtain ⟨rest, s, rfl⟩ := (List.eq_nil_or_concat lines).resolve_left h
  rw [endsWith_iff, List.concat_eq_append, unlines_append, String.toList_append,
    toList_unlines_cons]
  exact (List.suffix_append s.toList _).trans (List.suffix_append _ _)

theorem getLast?_append {t : String} {c : Char} (s : String) (ht : t.toList.getLast? = some c) :
    (s ++ t).toList.getLast? = some c := by
  rw [String.toList_append, List.getLast?_append, ht]
  rfl

theorem getLast?_append_ne {s t : String} {c : Char} (hs : s.toList.getLast? ≠ some c)
    (ht : t.toList.getLast? ≠ some c) : (s ++ t).toList.getLast? ≠ some c := by
  rw [String.toList_append, List.getLast?_append]
  cases hlast : t.toList.getLast? with
  | none => exact hs
  | some d =>
    rw [hlast] at ht
    exact ht

theorem getLast?_quote (s : String) : (quote s).toList.getLast? = some '"' := by
  rw [toList_quote, ← List.cons_append]
  exact List.getLast?_concat

/-- A text with another last character has another end. -/
theorem not_endsWith_of_getLast? {s pat : String} {c : Char} (hpat : pat.toList.getLast? = some c)
    (hs : s.toList.getLast? ≠ some c) : s.endsWith pat = false := by
  rw [Bool.eq_false_iff, ne_eq, endsWith_iff]
  rintro ⟨front, hfront⟩
  rw [← hfront, List.getLast?_append, hpat] at hs
  exact hs rfl

end PortMatch.Text
